import ComponentIdl.Derivation
import ComponentIdl.Proofs.Builder.Registry
import ComponentIdl.Proofs.Conflict.Sound
import ComponentIdl.Proofs.Graph.Reach

/-!
# What the derivation of one interface does

An interface is passed over, its name is reported as taken, or it is declared beside its class and
recorded there. An invariant of the derivation is proved from these cases once for each plan of a
class.
-/

namespace ComponentIdl

namespace Workspace

/-- The derivation at its start. -/
def derivation (w : Workspace) : Derivation := { store := w.store, symbols := w.symbols }

theorem deriveInterfaces_eq (w : Workspace) :
    w.deriveInterfaces.1 = { w with
      store := w.derivation.run.store, symbols := w.derivation.run.symbols
      report := w.report.add w.derivation.run.found } := rfl

end Workspace

namespace Derivation

variable {s s' : Derivation} {id : ObjectId} {o : ObjectType} {plan : DerivedRole × MemberSet}

/-- The class with a record of the interface derived for a role. -/
def recorded (role : DerivedRole) (slot : ObjectId) (c : ObjectType) : ObjectType :=
  { c with
    classPart := c.classPart.map fun p => { p with derived := role.record p.derived slot } }

/-- The store with one more interface, recorded in its class. -/
def withInterface (st : Store) (node : NamespaceId) (block id slot : Nat) (role : DerivedRole)
    (interface : ObjectType) : Store :=
  (st.declare node block interface.name (.object interface)).modifyObject id (recorded role slot)

/-- The cases of one derivation. -/
inductive Step (id : ObjectId) (o : ObjectType) (plan : DerivedRole × MemberSet) (s : Derivation) :
    Derivation → Prop where
  | passed (placeless : ∀ node, s.store.namespaces.path? (segments o.scope) = some node →
      s.store.namespaces.blockOf? node (.runtimeClass id) = none) : Step id o plan s s
  | taken (d : Diagnostic) (node : NamespaceId) (σ : Symbol)
      (path : s.store.namespaces.path? (segments o.scope) = some node)
      (used : s.store.namespaces.symbol? node (interfaceOf id o plan.1 plan.2).name = some σ) :
      Step id o plan s { s with found := s.found ++ [d] }
  | declared (node : NamespaceId) (block : Nat)
      (path : s.store.namespaces.path? (segments o.scope) = some node)
      (free : s.store.namespaces.symbol? node (interfaceOf id o plan.1 plan.2).name = none)
      (beside : s.store.namespaces.blockOf? node (.runtimeClass id) = some block) :
      Step id o plan s
        { s with
          store := withInterface s.store node block id s.store.objects.size plan.1
            (interfaceOf id o plan.1 plan.2)
          symbols := s.symbols.insert (interfaceOf id o plan.1 plan.2).dottedName
            (.interface s.store.objects.size)
          interfaces := s.interfaces + 1 }

section Declare

variable {node : NamespaceId} {block : Nat}

theorem declare_homeless (hpath : s.store.namespaces.path? (segments o.scope) = none) :
    declare id o s plan = s := by
  unfold declare
  rw [hpath]

theorem declare_taken {σ : Symbol}
    (hpath : s.store.namespaces.path? (segments o.scope) = some node)
    (hused : s.store.namespaces.symbol? node (interfaceOf id o plan.1 plan.2).name = some σ) :
    declare id o s plan =
      { s with
        found := s.found ++ [.of .duplicateNamespaceMember o.line
          (interfaceOf id o plan.1 plan.2).dottedName] } := by
  unfold declare
  simp only [hpath, hused]

theorem declare_astray (hpath : s.store.namespaces.path? (segments o.scope) = some node)
    (hfree : s.store.namespaces.symbol? node (interfaceOf id o plan.1 plan.2).name = none)
    (hblock : s.store.namespaces.blockOf? node (.runtimeClass id) = none) :
    declare id o s plan = s := by
  unfold declare
  simp only [hpath, hfree, hblock]

theorem declare_free (hpath : s.store.namespaces.path? (segments o.scope) = some node)
    (hfree : s.store.namespaces.symbol? node (interfaceOf id o plan.1 plan.2).name = none)
    (hblock : s.store.namespaces.blockOf? node (.runtimeClass id) = some block) :
    declare id o s plan =
      { s with
        store := withInterface s.store node block id s.store.objects.size plan.1
          (interfaceOf id o plan.1 plan.2)
        symbols := s.symbols.insert (interfaceOf id o plan.1 plan.2).dottedName
          (.interface s.store.objects.size)
        interfaces := s.interfaces + 1 } := by
  unfold declare
  simp only [hpath, hfree, hblock]
  rfl

end Declare

theorem step_declare (id : ObjectId) (o : ObjectType) (s : Derivation)
    (plan : DerivedRole × MemberSet) : Step id o plan s (declare id o s plan) := by
  cases hpath : s.store.namespaces.path? (segments o.scope) with
  | none =>
    rw [declare_homeless hpath]
    exact .passed fun node hnode => absurd (hpath.symm.trans hnode) (by simp)
  | some node =>
    cases hfree : s.store.namespaces.symbol? node (interfaceOf id o plan.1 plan.2).name with
    | some σ =>
      rw [declare_taken hpath hfree]
      exact .taken _ node σ hpath hfree
    | none =>
      cases hblock : s.store.namespaces.blockOf? node (.runtimeClass id) with
      | none =>
        rw [declare_astray hpath hfree hblock]
        refine .passed fun node' hnode' => ?_
        obtain rfl : node = node' := Option.some.inj (hpath.symm.trans hnode')
        exact hblock
      | some block =>
        rw [declare_free hpath hfree hblock]
        exact .declared node block hpath hfree hblock

theorem core_recorded (role : DerivedRole) (slot : ObjectId) (c : ObjectType) :
    (recorded role slot c).core = c.core := by
  unfold recorded ObjectType.core
  cases c.classPart <;> rfl

section WithInterface

variable {st : Store} {node : NamespaceId} {block slot : Nat} {role : DerivedRole}
  {interface : ObjectType}

theorem getElem?_withInterface (i : Nat) :
    (withInterface st node block id slot role interface).objects[i]? =
      ((st.objects.push interface)[i]?).map fun o => if id = i then recorded role slot o else o := by
  unfold withInterface Store.modifyObject
  dsimp only
  rw [Array.getElem?_modify, (Builder.slots_declare ..).1]
  by_cases hid : id = i
  · simp only [if_pos hid]
    rfl
  · simp only [if_neg hid, Option.map_id']
    rfl

theorem old_withInterface {i : Nat} {o : ObjectType} (h : st.objects[i]? = some o) :
    ∃ o', (withInterface st node block id slot role interface).objects[i]? = some o' ∧
      o'.core = o.core ∧ o'.methods = o.methods := by
  obtain ⟨hlt, -⟩ := Array.getElem?_eq_some_iff.1 h
  rw [getElem?_withInterface, Array.getElem?_push, if_neg (Nat.ne_of_lt hlt), h]
  refine ⟨if id = i then recorded role slot o else o, rfl, ?_, ?_⟩
  · split
    · exact core_recorded role slot o
    · rfl
  · split <;> rfl

theorem cases_withInterface {i : Nat} {o' : ObjectType}
    (h : (withInterface st node block id slot role interface).objects[i]? = some o') :
    (∃ o, st.objects[i]? = some o ∧ o'.core = o.core) ∨
      (i = st.objects.size ∧ o'.core = interface.core) := by
  have hcore : ∀ o : ObjectType, (if id = i then recorded role slot o else o).core = o.core := by
    intro o
    split
    · exact core_recorded role slot o
    · rfl
  rw [getElem?_withInterface, Array.getElem?_push] at h
  obtain ⟨o, ho, rfl⟩ := Option.map_eq_some_iff.1 h
  split at ho
  · next hi => exact Or.inr ⟨hi, by rw [hcore, ← Option.some.inj ho]⟩
  · exact Or.inl ⟨o, ho, hcore o⟩

theorem sameHeaders_withInterface (st : Store) (node : NamespaceId) (block id slot : Nat)
    (role : DerivedRole) (interface : ObjectType) :
    (st.declare node block interface.name (.object interface)).SameHeaders
      (withInterface st node block id slot role interface) := by
  refine Builder.sameHeaders_modifyObject fun o _ => ?_
  unfold Store.label ObjectType.isClass recorded
  cases o.classPart <;> rfl

theorem registered_withInterface (block : Nat) (id : ObjectId) (role : DerivedRole)
    {node : NamespaceId} {interface : ObjectType} (h : st.Registered)
    (hnode : node < st.namespaces.size) (hscope : st.namespaces.nameOf node = interface.scope)
    (hfree : st.namespaces.symbol? node interface.name = none)
    (hinterface : interface.isClass = false) :
    (withInterface st node block id st.objects.size role interface).Registered ∧
      ∀ σ, (withInterface st node block id st.objects.size role interface).header? σ =
        if σ = .interface st.objects.size then some interface.toHeader else st.header? σ := by
  obtain ⟨hregistered, -, hdeclared⟩ :=
    h.declare block (e := .object interface) hnode hscope hfree
  have hnext : st.nextSymbol (.object interface) = .interface st.objects.size := by
    simp [Store.nextSymbol, hinterface]
  have hsame := sameHeaders_withInterface st node block id st.objects.size role interface
  refine ⟨hregistered.of_sameHeaders hsame rfl, ?_⟩
  intro σ
  rw [hsame.header? σ, ← hnext]
  exact hdeclared σ

end WithInterface

theorem isClass_of_awaitsDerivation (h : o.awaitsDerivation = true) : o.isClass = true := by
  unfold ObjectType.awaitsDerivation at h
  unfold ObjectType.isClass
  cases hc : o.classPart with
  | none => simp [hc] at h
  | some c => rfl

/-- An invariant of a derivation. When a class has its turn, `Q` says what holds of the derivation and
the class while some of its plans are left; the invariant may use that, and gives it when the turn
begins. -/
structure Invariant (P : Derivation → Prop)
    (Q : Derivation → ObjectId → ObjectType → List (DerivedRole × MemberSet) → Prop) : Prop where
  turn : ∀ s id o, P s → s.store.objects[id]? = some o → o.awaitsDerivation = true →
    Q s id o (o.derivedRoles id)
  step : ∀ s s' id o plan plans, P s → Q s id o (plan :: plans) → Step id o plan s s' →
    P s' ∧ Q s' id o plans

section Invariant

variable {P : Derivation → Prop}
  {Q : Derivation → ObjectId → ObjectType → List (DerivedRole × MemberSet) → Prop}

theorem Invariant.plans (h : Invariant P Q) {plans later : List (DerivedRole × MemberSet)} (hs : P s)
    (hq : Q s id o (plans ++ later)) :
    P (plans.foldl (declare id o) s) ∧ Q (plans.foldl (declare id o) s) id o later := by
  induction plans generalizing s with
  | nil => exact ⟨hs, hq⟩
  | cons plan plans ih =>
    obtain ⟨hs', hq'⟩ := h.step s _ id o plan (plans ++ later) hs hq (step_declare id o s plan)
    exact ih hs' hq'

theorem Invariant.turnDone (h : Invariant P Q) (hs : P s) (ho : s.store.objects[id]? = some o)
    (hawaits : o.awaitsDerivation = true) : P (s.deriveFrom id) ∧ Q (s.deriveFrom id) id o [] := by
  have hturn := h.turn s id o hs ho hawaits
  rw [← List.append_nil (o.derivedRoles id)] at hturn
  unfold Derivation.deriveFrom
  rw [ho]
  dsimp only
  rw [if_pos hawaits]
  exact h.plans hs hturn

theorem deriveFrom_eq_self (h : ∀ o, s.store.objects[id]? = some o → o.awaitsDerivation = false) :
    s.deriveFrom id = s := by
  unfold Derivation.deriveFrom
  cases ho : s.store.objects[id]? with
  | none => rfl
  | some o =>
    dsimp only
    rw [h o ho, if_neg Bool.false_ne_true]

theorem Invariant.deriveFrom (h : Invariant P Q) (hs : P s) (id : ObjectId) :
    P (s.deriveFrom id) := by
  by_cases hturn : ∃ o, s.store.objects[id]? = some o ∧ o.awaitsDerivation = true
  · obtain ⟨o, ho, hawaits⟩ := hturn
    exact (h.turnDone hs ho hawaits).1
  · rw [deriveFrom_eq_self fun o ho => ?_]
    · exact hs
    · exact Bool.eq_false_of_not_eq_true fun hawaits => hturn ⟨o, ho, hawaits⟩

theorem Invariant.slots (h : Invariant P Q) (hs : P s) (ids : List ObjectId) :
    P (ids.foldl Derivation.deriveFrom s) := by
  induction ids generalizing s with
  | nil => exact hs
  | cons id ids ih => exact ih (h.deriveFrom hs id)

end Invariant

/-- An invariant that every plan of every class keeps, if `Q` holds of the class. -/
theorem invariant_of_class {P : Derivation → Prop} {Q : ObjectId → ObjectType → Prop}
    (hclass : ∀ s id o, P s → s.store.objects[id]? = some o → o.isClass = true → Q id o)
    (hstep : ∀ s s' id o plan, P s → Q id o → plan ∈ o.derivedRoles id → Step id o plan s s' → P s') :
    Invariant P fun _ id o plans => Q id o ∧ plans ⊆ o.derivedRoles id where
  turn s id o hs ho hawaits :=
    ⟨hclass s id o hs ho (isClass_of_awaitsDerivation hawaits), List.Subset.refl _⟩
  step s s' id o plan plans hs hq hstep' := by
    obtain ⟨hplan, hrest⟩ := List.cons_subset.1 hq.2
    exact ⟨hstep s s' id o plan hs hq.1 hplan hstep', hq.1, hrest⟩

theorem run_preserves {P : Derivation → Prop} {Q : ObjectId → ObjectType → Prop}
    (hclass : ∀ s id o, P s → s.store.objects[id]? = some o → o.isClass = true → Q id o)
    (hstep : ∀ s s' id o plan, P s → Q id o → plan ∈ o.derivedRoles id → Step id o plan s s' → P s')
    (h : P s) : P s.run :=
  (invariant_of_class hclass hstep).slots h _

/-- Classes and interfaces stay with their methods, and new ones require nothing. -/
structure Kept (st st' : Store) : Prop where
  old : ∀ (i : Nat) o, st.objects[i]? = some o →
    ∃ o', st'.objects[i]? = some o' ∧ o'.core = o.core ∧ o'.methods = o.methods
  new : ∀ (i : Nat) o', st.objects[i]? = none → st'.objects[i]? = some o' → o'.requires = []

section Kept

variable {st st' st'' : Store}

theorem Kept.refl (st : Store) : Kept st st := by
  refine ⟨fun i o ho => ⟨o, ho, rfl, rfl⟩, ?_⟩
  intro i o hnone ho
  rw [hnone] at ho
  simp at ho

theorem Kept.trans (h : Kept st st') (h' : Kept st' st'') : Kept st st'' := by
  constructor
  · intro i o ho
    obtain ⟨o₁, ho₁, hcore₁, hmethods₁⟩ := h.old i o ho
    obtain ⟨o₂, ho₂, hcore₂, hmethods₂⟩ := h'.old i o₁ ho₁
    exact ⟨o₂, ho₂, hcore₂.trans hcore₁, hmethods₂.trans hmethods₁⟩
  · intro i o₂ hnone ho₂
    cases ho₁ : st'.objects[i]? with
    | none => exact h'.new i o₂ ho₁ ho₂
    | some o₁ =>
      obtain ⟨o, ho, hcore, -⟩ := h'.old i o₁ ho₁
      obtain rfl : o₂ = o := Option.some.inj (ho₂.symm.trans ho)
      rw [← o₂.requires_core, hcore, o₁.requires_core]
      exact h.new i o₁ hnone ho₁

theorem kept_withInterface {node : NamespaceId} {block slot : Nat} {role : DerivedRole}
    {interface : ObjectType} (hrequires : interface.requires = []) :
    Kept st (withInterface st node block id slot role interface) := by
  refine ⟨fun i o ho => old_withInterface ho, ?_⟩
  intro i o' hnone ho'
  rcases cases_withInterface ho' with ⟨o, ho, -⟩ | ⟨-, hcore⟩
  · simp [hnone] at ho
  · rw [← o'.requires_core, hcore, interface.requires_core, hrequires]

theorem kept_run (s : Derivation) : Kept s.store s.run.store := by
  refine run_preserves (P := fun s' => Kept s.store s'.store) (Q := fun _ _ => True)
    (fun _ _ _ _ _ _ => trivial) ?_ (.refl s.store)
  intro t t' id o plan ht _ _ hstep
  cases hstep with
  | passed => exact ht
  | taken d => exact ht
  | declared node block path free => exact ht.trans (kept_withInterface rfl)

theorem Kept.next_requirement (h : Kept st st') (a : ObjectId) :
    st'.requirement.next a = st.requirement.next a := by
  unfold Graph.next Store.requirement
  dsimp only
  rw [Array.getElem?_map, Array.getElem?_map]
  cases ho : st.objects[a]? with
  | some o =>
    obtain ⟨o', ho', hcore, -⟩ := h.old a o ho
    have hbases : o'.bases = o.bases := by
      unfold ObjectType.bases
      rw [← o'.requires_core, hcore, o.requires_core]
    rw [ho', Option.map_some, Option.map_some, hbases]
  | none =>
    cases ho' : st'.objects[a]? with
    | none => rfl
    | some o' =>
      have hbases : o'.bases = [] := by
        unfold ObjectType.bases
        rw [h.new a o' ho ho']
        rfl
      rw [Option.map_some, hbases]
      rfl

theorem Kept.edge_requirement (h : Kept st st') :
    st'.requirement.Edge = st.requirement.Edge := by
  funext a b
  unfold Graph.Edge
  rw [h.next_requirement a]

end Kept

end Derivation

end ComponentIdl
