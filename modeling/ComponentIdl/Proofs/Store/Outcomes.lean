import ComponentIdl.Proofs.SelfReference
import ComponentIdl.Proofs.Shadowing
import ComponentIdl.Proofs.Store.Entities

/-!
# What the analyses make of a declaration

Binding, evaluation and the search for cycles leave every declaration in its slot. Each of them makes
something of it, and what they report is told of one declaration after the other.
-/

namespace ComponentIdl

namespace Entity

def boundIn (t : NameTable) : Entity → Entity
  | object o => .object (o.boundIn t)
  | struct s => .struct (s.boundIn t)
  | enum e => .enum e
  | delegate d => .delegate (d.boundIn t)

def evaluated : Entity → Entity
  | enum e => .enum e.evaluated
  | e => e

def withCycle (c : Circularity) : Entity → Entity
  | object o => .object { o with cycle := c }
  | struct s => .struct { s with cycle := c }
  | e => e

/-- The declaration after all analyses, with the cycle state that the search has found. -/
def analyzed (t : NameTable) (c : Circularity) (e : Entity) : Entity :=
  (e.boundIn t).evaluated.withCycle c

/-- What is reported of a circular struct or interface. -/
def cycleFaults : Entity → List Diagnostic
  | object o =>
    if o.isInterface && o.cycle == .circular then [.of .circularInterface o.line o.dottedName] else []
  | struct s => if s.cycle == .circular then [.of .circularStructField s.line s.dottedName] else []
  | _ => []

section Analyzed

variable (t t' : NameTable) (c : Circularity) (e : Entity)

theorem header_analyzed : (e.analyzed t c).header = e.header := by
  cases e <;> rfl

theorem keyword_analyzed : (e.analyzed t c).keyword = e.keyword := by
  cases e with
  | object o =>
    have hclass := o.isClass_boundIn t
    unfold ObjectType.isClass at hclass
    simp only [analyzed, boundIn, evaluated, withCycle, keyword, ObjectType.isClass, hclass]
    rfl
  | _ => rfl

theorem sites_analyzed : (e.analyzed t c).sites = e.sites.map (Site.boundIn t) := by
  cases e with
  | object o => exact o.sites_boundIn t
  | struct s => exact s.sites_boundIn t
  | enum e => rfl
  | delegate d => exact d.sites_boundIn t

theorem members_analyzed : (e.analyzed t c).members = (e.analyzed t' c).members := by
  cases e <;> rfl

theorem cycle?_analyzed : (e.analyzed t c).cycle? = e.cycle?.map fun _ => c := by
  cases e <;> rfl

theorem cycleFaults_analyzed : (e.analyzed t c).cycleFaults = (e.analyzed t' c).cycleFaults := by
  cases e with
  | object o =>
    have hinterface : ∀ t, (o.boundIn t).classPart.isNone = o.classPart.isNone := by
      intro t
      unfold ObjectType.boundIn
      cases o.classPart <;> rfl
    simp only [analyzed, boundIn, evaluated, withCycle, cycleFaults, ObjectType.isInterface,
      hinterface]
    rfl
  | _ => rfl

end Analyzed

end Entity

namespace Store

variable {st : Store} {σ : Symbol} {e : Entity}

theorem Holds.unique {e e' : Entity} (h : st.Holds σ e) (h' : st.Holds σ e') : e = e' :=
  Option.some.inj ((holds_iff.1 h).symm.trans (holds_iff.1 h'))

theorem Holds.boundIn (h : st.Holds σ e) (t : NameTable) :
    (st.boundIn t).Holds σ (e.boundIn t) := by
  have hmap : ∀ {α : Type} {as : Array α} {i : Nat} {a : α} (f : α → α), as[i]? = some a →
      (as.map f)[i]? = some (f a) := by
    intro α as i a f ha
    rw [Array.getElem?_map, ha, Option.map_some]
  cases h with
  | @runtimeClass id o h hc => exact .runtimeClass (hmap _ h) ((o.isClass_boundIn t).trans hc)
  | @interface id o h hc => exact .interface (hmap _ h) ((o.isClass_boundIn t).trans hc)
  | struct h => exact .struct (hmap _ h)
  | enum h => exact .enum h
  | delegate h => exact .delegate (hmap _ h)

theorem Holds.evaluateEnums (h : st.Holds σ e) : st.evaluateEnums.Holds σ e.evaluated := by
  cases h with
  | runtimeClass h hc => exact .runtimeClass h hc
  | interface h hc => exact .interface h hc
  | struct h => exact .struct h
  | enum h => exact .enum (by rw [Store.evaluateEnums, Array.getElem?_map, h, Option.map_some])
  | delegate h => exact .delegate h

/-- What the search for cycles finds out about a declaration. -/
noncomputable def verdictAt (st : Store) : Symbol → Circularity
  | .runtimeClass id => st.requirement.verdict id
  | .interface id => st.requirement.verdict id
  | .struct id => st.containment.verdict id
  | _ => .unknown

/-- The search for cycles has not been made. -/
structure Unsearched (st : Store) : Prop where
  structs : ∀ s ∈ st.structs, s.cycle = .unknown
  objects : ∀ o ∈ st.objects, o.cycle = .unknown

theorem Holds.withCycles (h : st.Holds σ e) (hu : st.Unsearched) :
    st.withCycles.Holds σ (e.withCycle (st.verdictAt σ)) := by
  have hmark : ∀ {α : Type} {as : Array α} {i : Nat} {a : α} (f : Nat → α → α), as[i]? = some a →
      (as.mapIdx f)[i]? = some (f i a) := by
    intro α as i a f ha
    rw [Array.getElem?_mapIdx, ha, Option.map_some]
  rw [withCycles_unknown hu.structs hu.objects]
  cases h with
  | runtimeClass h hc => exact .runtimeClass (hmark _ h) hc
  | interface h hc => exact .interface (hmark _ h) hc
  | struct h => exact .struct (hmark _ h)
  | enum h => exact .enum h
  | delegate h => exact .delegate h

theorem bindingFaults_entities (st : Store) (t : NameTable) :
    st.bindingFaults t = st.entities.flatMap fun e => e.sites.flatMap (Site.faults t) := by
  rw [bindingFaults_eq, sites_eq, List.flatMap_assoc]

theorem enumDiagnostics_boundIn (st : Store) (t : NameTable) :
    (st.boundIn t).enumDiagnostics = st.entities.flatMap Entity.valueFaults :=
  st.enumDiagnostics_eq

theorem entities_boundIn (st : Store) (t : NameTable) :
    (st.boundIn t).entities = st.entities.map (Entity.boundIn t) := by
  unfold entities boundIn
  simp only [List.map_append, List.map_map, Array.toList_map]
  rfl

theorem entities_evaluateEnums (st : Store) :
    st.evaluateEnums.entities = st.entities.map Entity.evaluated := by
  unfold entities evaluateEnums
  simp only [List.map_append, List.map_map, Array.toList_map]
  rfl

/-- The states in the list of declarations, where the header of a declaration tells its state. -/
theorem entities_withCycles (hu : st.Unsearched) {state : Header → Circularity}
    (hstate : ∀ σ e, st.Holds σ e → st.verdictAt σ = state e.header) :
    st.withCycles.entities = st.entities.map fun e => e.withCycle (state e.header) := by
  have hmap : ∀ {α : Type} (as : Array α) (mark : Nat → α → α) (f : α → Entity) (g : α → Entity),
      (∀ i a, as[i]? = some a → f (mark i a) = g a) →
        (as.mapIdx mark).toList.map f = as.toList.map g := by
    intro α as mark f g hfg
    apply List.ext_getElem?
    intro i
    rw [List.getElem?_map, List.getElem?_map, Array.getElem?_toList, Array.getElem?_toList,
      Array.getElem?_mapIdx, Option.map_map]
    exact Option.map_congr fun a ha => hfg i a ha
  have hobjects := hmap st.objects (fun i o => { o with cycle := st.requirement.verdict i })
    Entity.object (fun o => (Entity.object o).withCycle (state o.toHeader)) (by
      intro i o ho
      have hverdict : st.requirement.verdict i = state o.toHeader := by
        cases hc : o.isClass with
        | true => exact hstate _ _ (.runtimeClass ho hc)
        | false => exact hstate _ _ (.interface ho hc)
      rw [hverdict]
      rfl)
  have hstructs := hmap st.structs (fun i s => { s with cycle := st.containment.verdict i })
    Entity.struct (fun s => (Entity.struct s).withCycle (state s.toHeader)) (by
      intro i s hs
      have hverdict : st.containment.verdict i = state s.toHeader := hstate _ _ (.struct hs)
      rw [hverdict]
      rfl)
  rw [withCycles_unknown hu.structs hu.objects]
  unfold entities classifiedObjects classifiedStructs
  rw [hobjects, hstructs]
  simp only [List.map_append, List.map_map]
  rfl

/-- The search reports each circular declaration by itself, structs first. -/
theorem cycleDiagnostics_perm (hu : st.Unsearched) :
    st.cycleDiagnostics.Perm (st.withCycles.entities.flatMap Entity.cycleFaults) := by
  have hfilter : ∀ {α : Type} (as : List α) (p : α → Bool) (f : α → Diagnostic),
      (as.filter p).map f = as.flatMap fun a => if p a then [f a] else [] := by
    intro α as p f
    induction as with
    | nil => rfl
    | cons a as ih =>
      rw [List.filter_cons, List.flatMap_cons, ← ih]
      cases p a <;> rfl
  have hnone : ∀ {α : Type} (as : List α), as.flatMap (fun _ => ([] : List Diagnostic)) = [] :=
    fun as => List.flatMap_eq_nil_iff.2 fun _ _ => rfl
  have hstructs := congrArg (List.map fun s : StructType =>
    Diagnostic.of .circularStructField s.line s.dottedName) (circularStructs_unknown hu.structs)
  have hobjects := congrArg (List.map fun o : ObjectType =>
    Diagnostic.of .circularInterface o.line o.dottedName) (circularInterfaces_unknown hu.objects)
  rw [List.map_map, hfilter] at hstructs hobjects
  have hlist : st.withCycles.entities.flatMap Entity.cycleFaults =
      (st.circularInterfaces.map fun o => .of .circularInterface o.line o.dottedName) ++
        st.circularStructs.map fun s => .of .circularStructField s.line s.dottedName := by
    rw [withCycles_unknown hu.structs hu.objects]
    unfold entities
    simp only [List.flatMap_append, List.flatMap_map, Entity.cycleFaults, hnone, List.append_nil]
    exact congrArg₂ (· ++ ·) hobjects hstructs
  rw [hlist]
  exact List.perm_append_comm

end Store

namespace Workspace

variable {w : Workspace} {σ : Symbol} {e f : Entity}

/-- The store in which cycles are searched for. -/
def searched (w : Workspace) : Store := (w.store.boundIn w.boundSymbols).evaluateEnums

/-- The declaration that a symbol stands for, after the analyses. -/
noncomputable def outcome (w : Workspace) (σ : Symbol) (e : Entity) : Entity :=
  e.analyzed w.boundSymbols (w.searched.verdictAt σ)

theorem store_analyzed (w : Workspace) : w.analyzed.store = w.searched.withCycles := by
  rw [analyzed_eq]
  rfl

theorem Declared.unsearched (h : w.Declared) : w.searched.Unsearched := by
  constructor
  · intro s hs
    obtain ⟨written, hwritten, rfl⟩ := Array.mem_map.1 hs
    exact h.structs written hwritten
  · intro o ho
    obtain ⟨written, hwritten, rfl⟩ := Array.mem_map.1 ho
    exact (h.fresh written hwritten).cycle

theorem Declared.holds (h : w.Declared) (hσ : w.store.Holds σ e) :
    w.analyzed.store.Holds σ (w.outcome σ e) := by
  rw [store_analyzed]
  exact (hσ.boundIn w.boundSymbols).evaluateEnums.withCycles h.unsearched

/-- After the analyses every slot holds the outcome of its declaration. -/
theorem Declared.holds_analyzed (h : w.Declared) (hσ : w.analyzed.store.Holds σ f) :
    ∃ e, w.store.Holds σ e ∧ f = w.outcome σ e := by
  have hheader := w.samePlaces_analyzed.headers.header? σ
  rw [hσ.header?] at hheader
  obtain ⟨e, he, -⟩ := Store.holds_of_header? hheader.symm
  exact ⟨e, he, hσ.unique (h.holds he)⟩

end Workspace

end ComponentIdl
