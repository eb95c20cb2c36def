import ComponentIdl.Proofs.Builder.Plain
import ComponentIdl.Proofs.Derivation.Descent
import ComponentIdl.Proofs.Registry

/-!
# The first derivation

Until interfaces are derived for the first time, no class has any and nothing is derived. So each class
awaits derivation with all its roles, and is met in its turn as it was at the start: a first derivation
is one pass over the roles that classes qualify for.
-/

namespace ComponentIdl

namespace ObjectType

variable {o : ObjectType}

theorem original_of_descent (hderived : o.derived = {}) (hfrom : o.derivedFrom = none) :
    o.Original := by
  refine ⟨fun c hc => ?_, hfrom⟩
  unfold derived at hderived
  rw [hc] at hderived
  exact hderived

theorem Original.derived_eq (h : o.Original) : o.derived = {} := by
  unfold ObjectType.derived
  cases hc : o.classPart with
  | none => rfl
  | some c => exact h.derived c hc

theorem Original.awaitsDerivation (h : o.Original) : o.awaitsDerivation = o.isClass := by
  unfold ObjectType.awaitsDerivation isClass
  cases hc : o.classPart with
  | none => rfl
  | some c =>
    dsimp only
    rw [h.derived c hc, h.written]
    rfl

end ObjectType

namespace Store

variable {st st' : Store}

theorem KeepsDescents.original (hk : st.KeepsDescents st') (h : ∀ o ∈ st.objects, o.Original) :
    ∀ o ∈ st'.objects, o.Original := by
  intro o' ho'
  obtain ⟨i, hi⟩ := Array.mem_iff_getElem?.1 ho'
  rcases hk.cases hi with ⟨o, ho, hsame⟩ | ⟨hderived, hfrom⟩
  · have horiginal := h o (Array.mem_of_getElem? ho)
    obtain ⟨-, hderived, hfrom⟩ := ObjectType.eq_of_descent hsame
    exact ObjectType.original_of_descent (hderived.trans horiginal.derived_eq)
      (hfrom.trans horiginal.written)
  · exact ObjectType.original_of_descent hderived hfrom

end Store

namespace Workspace

theorem original_declareVisits {w : Workspace} (h : ∀ o ∈ w.store.objects, o.Original)
    (visits : List Visit) : ∀ o ∈ (w.declareVisits visits).1.store.objects, o.Original :=
  Builder.run_preserves (P := fun b => ∀ o ∈ b.store.objects, o.Original) visits
    (fun v _ b hb => (b.keepsDescents_visit v).original hb) h

theorem original_advance {w : Workspace} (h : ∀ o ∈ w.store.objects, o.Original) {stage : Stage}
    (hstage : stage ≠ .pass .deriveInterfaces) :
    ∀ o ∈ (w.advance stage).store.objects, o.Original := by
  cases stage with
  | build visits => exact original_declareVisits h visits
  | pass p =>
    cases p with
    | declare u => exact original_declareVisits h u.visits
    | bindReferences =>
      show ∀ o ∈ w.bindReferences.1.store.objects, o.Original
      rw [w.bindReferences_eq]
      exact (w.store.keepsDescents_boundIn _).original h
    | evaluateEnums => exact h
    | findCycles => exact w.store.keepsDescents_withCycles.original h
    | checkMembers => exact (Store.keepsDescents_checkMembers w).original h
    | deriveInterfaces => exact absurd rfl hstage

/-- Without a derivation among the stages, nothing is derived. -/
theorem original_reached (settings : Settings) (catalog : Catalog) {stages : List Stage}
    (hfirst : Stage.pass .deriveInterfaces ∉ stages) :
    ∀ o ∈ (reached settings catalog stages).store.objects, o.Original := by
  have hrun : ∀ w : Workspace, (∀ o ∈ w.store.objects, o.Original) →
      ∀ o ∈ (stages.foldl advance w).store.objects, o.Original := by
    induction stages with
    | nil => exact fun _ h => h
    | cons stage stages ih =>
      obtain ⟨hstage, hrest⟩ := not_or.1 (mt List.mem_cons.2 hfirst)
      exact fun w h => ih hrest _ (original_advance h fun heq => hstage heq.symm)
  exact hrun _ fun o ho => absurd ho (Array.not_mem_empty o)

end Workspace

/-- The members of the interface of a role. -/
def ObjectType.membersFor (o : ObjectType) (id : ObjectId) : DerivedRole → MemberSet
  | .default => o.keep false
  | .statics => o.keep true
  | .factory => o.factory id

/-- Whether a class qualifies for a role. A static class, or one that requires interfaces, has no
default interface; statics need a static method, accessors included; a factory needs a constructor with
parameters, and no static class has one. -/
def ObjectType.qualifies (o : ObjectType) : DerivedRole → Bool
  | .default => !o.isStaticClass && o.requires.isEmpty
  | .statics => o.methods.any Method.isStatic
  | .factory => !o.isStaticClass && o.constructors.any fun c => !c.parameters.isEmpty

/-- The roles that a class qualifies for, in the order of their derivation. -/
def ObjectType.roles (o : ObjectType) : List DerivedRole :=
  [.default, .statics, .factory].filter o.qualifies

/-- An interface that is to be derived: the class in its slot, and the role. -/
structure Candidate where
  id : ObjectId
  owner : ObjectType
  role : DerivedRole

namespace Candidate

def plan (x : Candidate) : DerivedRole × MemberSet := (x.role, x.owner.membersFor x.id x.role)

def interface (x : Candidate) : ObjectType :=
  Derivation.interfaceOf x.id x.owner x.role (x.owner.membersFor x.id x.role)

/-- A class has one candidate for a role. -/
theorem eq_of_owner {st : Store} {x y : Candidate} (hx : st.objects[x.id]? = some x.owner)
    (hy : st.objects[y.id]? = some y.owner) (hid : x.id = y.id) (hrole : x.role = y.role) :
    x = y := by
  obtain ⟨id, c, role⟩ := x
  obtain ⟨_, d, _⟩ := y
  obtain rfl : id = _ := hid
  obtain rfl : role = _ := hrole
  obtain rfl : c = d := Option.some.inj (hx.symm.trans hy)
  rfl

end Candidate

/-- The candidates of the class in a slot. -/
def Store.candidatesOf (st : Store) (id : ObjectId) : List Candidate :=
  match st.objects[id]? with
  | some o => if o.isClass then o.roles.map fun role => ⟨id, o, role⟩ else []
  | none => []

/-- The candidates of all classes, class by class in the order of their slots. -/
def Store.candidates (st : Store) : List Candidate :=
  (List.range st.objects.size).flatMap st.candidatesOf

namespace Store

variable {st : Store} {x : Candidate}

theorem mem_candidatesOf {id : ObjectId} : x ∈ st.candidatesOf id ↔ x.id = id ∧
    st.objects[id]? = some x.owner ∧ x.owner.isClass = true ∧ x.role ∈ x.owner.roles := by
  unfold candidatesOf
  cases ho : st.objects[id]? with
  | none => simp
  | some o =>
    dsimp only
    constructor
    · intro hx
      split at hx
      · next hclass =>
        obtain ⟨role, hrole, rfl⟩ := List.mem_map.1 hx
        exact ⟨rfl, rfl, hclass, hrole⟩
      · exact absurd hx List.not_mem_nil
    · rintro ⟨rfl, howner, hclass, hrole⟩
      obtain rfl := Option.some.inj howner
      rw [if_pos hclass]
      exact List.mem_map.2 ⟨x.role, hrole, rfl⟩

/-- The candidates are the classes, each with every role that it qualifies for. -/
theorem mem_candidates : x ∈ st.candidates ↔ st.objects[x.id]? = some x.owner ∧
    x.owner.isClass = true ∧ x.owner.qualifies x.role = true := by
  have hroles : x.role ∈ x.owner.roles ↔ x.owner.qualifies x.role = true := by
    unfold ObjectType.roles
    rw [List.mem_filter]
    cases x.role <;> simp
  unfold candidates
  simp only [List.mem_flatMap, mem_candidatesOf, hroles, List.mem_range]
  constructor
  · rintro ⟨id, -, rfl, howner, hrest⟩
    exact ⟨howner, hrest⟩
  · rintro ⟨howner, hrest⟩
    exact ⟨x.id, (Array.getElem?_eq_some_iff.1 howner).1, rfl, howner, hrest⟩

theorem nodup_candidates (st : Store) : st.candidates.Nodup := by
  refine List.nodup_flatMap.2 ⟨fun id _ => ?_, ?_⟩
  · have hroles : ∀ o : ObjectType, o.roles.Nodup := fun o => List.Nodup.filter _ (by decide)
    unfold candidatesOf
    split
    · split
      · next o _ _ =>
        exact (hroles o).map fun role role' heq => congrArg Candidate.role heq
      · exact List.nodup_nil
    · exact List.nodup_nil
  · refine List.nodup_range.imp fun {i j} hne x hi hj => ?_
    exact hne ((mem_candidatesOf.1 hi).1.symm.trans (mem_candidatesOf.1 hj).1)

end Store

theorem isEmpty_filter {α : Type} (p : α → Bool) (as : List α) :
    (as.filter p).isEmpty = !as.any p := by
  induction as with
  | nil => rfl
  | cons a as ih => cases hp : p a <;> simp [hp, ih]

theorem ObjectType.isEmpty_keep (o : ObjectType) :
    (o.keep true).methods.isEmpty = !o.qualifies .statics := by
  have hstatic : (fun m : Method => m.isStatic == true) = Method.isStatic := by
    funext m
    exact beq_true m.isStatic
  unfold keep qualifies
  dsimp only
  rw [List.isEmpty_map, hstatic, isEmpty_filter]

theorem ObjectType.isEmpty_factory (o : ObjectType) (id : ObjectId) :
    (o.factory id).methods.isEmpty = !o.constructors.any fun c => !c.parameters.isEmpty := by
  have hnumbers : ∀ cs : List Constructor, cs.zipIdx.isEmpty = cs.isEmpty := by
    intro cs
    cases cs <;> rfl
  unfold factory
  rw [List.isEmpty_map, hnumbers, isEmpty_filter]

theorem ObjectType.derivedRoles_eq (o : ObjectType) (id : ObjectId) :
    o.derivedRoles id = o.roles.map fun role => (role, o.membersFor id role) := by
  unfold derivedRoles roles
  rw [isEmpty_keep, isEmpty_factory]
  have hdefault : (!o.isStaticClass && o.requires.isEmpty) = o.qualifies .default := rfl
  have hfactory : (!o.isStaticClass && !!o.constructors.any fun c => !c.parameters.isEmpty) =
      o.qualifies .factory := by
    rw [Bool.not_not]
    rfl
  rw [hdefault, hfactory]
  cases h : o.qualifies .default <;> cases h' : o.qualifies .statics <;>
    cases h'' : o.qualifies .factory <;> simp [h, h', h'', membersFor]

namespace Derivation

variable {s : Derivation} {id i : ObjectId} {o : ObjectType}

/-- Settles one candidate: its interface is declared or reported. -/
def settle (s : Derivation) (x : Candidate) : Derivation := declare x.id x.owner s x.plan

/-- The derivation of one class leaves the others as they are. -/
theorem objects_declare (c : ObjectType) (plan : DerivedRole × MemberSet) (hi : i ≠ id)
    (ho : s.store.objects[i]? = some o) :
    (declare id c s plan).store.objects[i]? = some o := by
  have hstep := step_declare id c s plan
  generalize declare id c s plan = s' at hstep
  cases hstep with
  | passed => exact ho
  | taken d => exact ho
  | declared node block path free beside => exact getElem?_other _ _ _ _ _ hi ho

theorem objects_deriveFrom (hi : i ≠ id) (ho : s.store.objects[i]? = some o) :
    (s.deriveFrom id).store.objects[i]? = some o := by
  unfold deriveFrom
  split
  · exact ho
  · next c hc =>
    split
    · clear hc
      generalize c.derivedRoles id = plans
      induction plans generalizing s with
      | nil => exact ho
      | cons plan plans ih => exact ih (objects_declare c plan hi ho)
    · exact ho

theorem deriveFrom_eq_foldl (h : ∀ o, s.store.objects[id]? = some o → o.Original) :
    s.deriveFrom id = (s.store.candidatesOf id).foldl settle s := by
  unfold deriveFrom Store.candidatesOf
  cases ho : s.store.objects[id]? with
  | none => rfl
  | some o =>
    dsimp only
    rw [(h o ho).awaitsDerivation]
    split
    · rw [o.derivedRoles_eq id, List.foldl_map, List.foldl_map]
      rfl
    · rfl

theorem slots_eq_foldl {ids : List ObjectId} (hnodup : ids.Nodup)
    (hids : ∀ id ∈ ids, ∃ o, s.store.objects[id]? = some o ∧ o.Original) :
    ids.foldl deriveFrom s = (ids.flatMap s.store.candidatesOf).foldl settle s := by
  induction ids generalizing s with
  | nil => rfl
  | cons id ids ih =>
    obtain ⟨hid, hnodup⟩ := List.nodup_cons.1 hnodup
    obtain ⟨o, ho, horiginal⟩ := hids id List.mem_cons_self
    have hsame : ∀ i ∈ ids, (s.deriveFrom id).store.objects[i]? = s.store.objects[i]? := by
      intro i hi
      obtain ⟨c, hc, -⟩ := hids i (List.mem_cons_of_mem _ hi)
      rw [hc]
      exact objects_deriveFrom (fun heq => hid (heq ▸ hi)) hc
    have hcandidates : ids.flatMap (s.deriveFrom id).store.candidatesOf =
        ids.flatMap s.store.candidatesOf := by
      refine List.flatMap_congr fun i hi => ?_
      unfold Store.candidatesOf
      rw [hsame i hi]
    have hturn : s.deriveFrom id = (s.store.candidatesOf id).foldl settle s := by
      refine deriveFrom_eq_foldl fun c hc => ?_
      rwa [← Option.some.inj (ho.symm.trans hc)]
    rw [List.foldl_cons, List.flatMap_cons, List.foldl_append, ← hturn, ← hcandidates]
    refine ih hnodup fun i hi => ?_
    rw [hsame i hi]
    exact hids i (List.mem_cons_of_mem _ hi)

/-- A first derivation settles all candidates of the store that it starts with, one after the other. -/
theorem run_eq_foldl (h : ∀ o ∈ s.store.objects, o.Original) :
    s.run = s.store.candidates.foldl settle s := by
  refine slots_eq_foldl List.nodup_range fun id hid => ?_
  have hlt : id < s.store.objects.size := List.mem_range.1 hid
  exact ⟨_, Array.getElem?_eq_getElem hlt, h _ (Array.getElem_mem hlt)⟩

end Derivation

end ComponentIdl
