import ComponentIdl.Proofs.Derivation.Descent
import ComponentIdl.Proofs.Registry

/-!
# Derivation repeated

A class that still awaits derivation after its turn had all of its names taken, which was reported
each time. Names stay taken and the class stays as it is, so a second derivation declares nothing.
-/

namespace ComponentIdl

/-- Some declaration has the name of the interface, in its namespace. -/
def Store.Occupied (st : Store) (interface : ObjectType) : Prop :=
  ∃ σ h, st.header? σ = some h ∧ h.name = interface.name ∧ h.scope = interface.scope

namespace Derivation

variable {s t : Derivation} {st : Store} {id k : ObjectId} {o c : ObjectType}
  {plan : DerivedRole × MemberSet}

/-- The class in the slot, if it still awaits derivation, has the names of all its interfaces taken,
and something was reported. -/
def Spent (s : Derivation) (id : ObjectId) : Prop :=
  ∀ o, s.store.objects[id]? = some o → o.awaitsDerivation = true →
    ∀ plan ∈ o.derivedRoles id,
      s.store.Occupied (interfaceOf id o plan.1 plan.2) ∧ s.found ≠ []

theorem awaitsDerivation_recorded (role : DerivedRole) (slot : ObjectId) (hc : c.isClass = true) :
    (recorded role slot c).awaitsDerivation = false := by
  by_contra hawaits
  have hderived : (recorded role slot c).derived = role.record c.derived slot :=
    congrArg Descent.derived (ObjectType.descent_recorded role slot hc)
  rw [ObjectType.derived_of_awaitsDerivation (Bool.not_eq_false _ ▸ hawaits)] at hderived
  have hslot := Derived.slot?_record c.derived slot role role
  rw [← hderived, Derived.slot?_empty, if_pos rfl] at hslot
  exact absurd hslot (by simp)

theorem Recording.class_ (h : Recording st s) {header : Header}
    (hclass : st.header? (.runtimeClass id) = some header) :
    ∃ c, s.store.objects[id]? = some c ∧ c.isClass = true := by
  have hheader := (h.classes id).trans hclass
  rw [Store.header?] at hheader
  obtain ⟨c, hc, hif⟩ := Option.bind_eq_some_iff.1 hheader
  refine ⟨c, hc, ?_⟩
  by_contra hnot
  rw [if_neg hnot] at hif
  exact absurd hif (by simp)

theorem Recording.nameOf (h : Recording st s) {node : NamespaceId}
    (hclass : st.header? (.runtimeClass id) = some o.toHeader)
    (hpath : s.store.namespaces.path? (segments o.scope) = some node) :
    s.store.namespaces.nameOf node = o.scope := by
  obtain ⟨node', -, hpath', hscope, -⟩ := h.place hclass
  obtain rfl : node = node' := Option.some.inj (hpath.symm.trans hpath')
  exact hscope

theorem Recording.not_passed (h : Recording st s)
    (hclass : st.header? (.runtimeClass id) = some o.toHeader) :
    ¬ ∀ node, s.store.namespaces.path? (segments o.scope) = some node →
      s.store.namespaces.blockOf? node (.runtimeClass id) = none := by
  intro hplaceless
  obtain ⟨node, block, hpath, -, hbeside, -⟩ := h.place hclass
  exact absurd ((hplaceless node hpath).symm.trans hbeside) (by simp)

theorem Recording.occupied (h : Recording st s) {node : NamespaceId} {σ : Symbol}
    (hclass : st.header? (.runtimeClass id) = some o.toHeader)
    (hpath : s.store.namespaces.path? (segments o.scope) = some node)
    (hused : s.store.namespaces.symbol? node (interfaceOf id o plan.1 plan.2).name = some σ) :
    s.store.Occupied (interfaceOf id o plan.1 plan.2) := by
  obtain ⟨header, hheader, hname, hscope⟩ := h.store.entry node _ σ hused
  exact ⟨σ, header, hheader, hname, hscope.trans (h.nameOf (o := o) hclass hpath)⟩

theorem Recording.not_free (h : Recording st s) {node : NamespaceId}
    (hoccupied : s.store.Occupied (interfaceOf id o plan.1 plan.2))
    (hpath : s.store.namespaces.path? (segments o.scope) = some node) :
    s.store.namespaces.symbol? node (interfaceOf id o plan.1 plan.2).name ≠ none := by
  obtain ⟨σ, header, hheader, hname, hscope⟩ := hoccupied
  obtain ⟨node', hnode', hscope', hsymbol⟩ := h.store.registered.complete σ header hheader
  have hpath' := h.store.registered.tree.path?_nameOf hnode'
  rw [hscope', hscope] at hpath'
  obtain rfl : node = node' := Option.some.inj (hpath.symm.trans hpath')
  rw [← hname, hsymbol]
  simp

/-- What a step for the class leaves as it was. Names stay taken, and nothing comes to await
derivation; the class does not if it got an interface. -/
structure Keeps (s t : Derivation) : Prop where
  occupied : ∀ interface, s.store.Occupied interface → t.store.Occupied interface
  awaiting : ∀ (i : ObjectId) o, t.store.objects[i]? = some o → o.awaitsDerivation = true →
    s.store.objects[i]? = some o
  found : s.found ≠ [] → t.found ≠ []

theorem Recording.keeps (h : Recording st s)
    (hclass : st.header? (.runtimeClass id) = some o.toHeader) (hstep : Step id o plan s t) :
    Keeps s t ∧ ∀ c, t.store.objects[id]? = some c → c.awaitsDerivation = true →
      t.store.Occupied (interfaceOf id o plan.1 plan.2) ∧ t.found ≠ [] := by
  cases hstep with
  | passed placeless => exact absurd placeless (h.not_passed hclass)
  | taken d node σ path used =>
    exact ⟨⟨fun _ hi => hi, fun _ _ ho _ => ho, fun _ => by simp⟩,
      fun _ _ _ => ⟨h.occupied hclass path used, by simp⟩⟩
  | declared node block path free beside =>
    obtain ⟨-, hheader⟩ := h.declared hclass path free beside
    obtain ⟨c, hc, hisClass⟩ := h.class_ hclass
    have hnot : ∀ slot, (recorded plan.1 slot c).awaitsDerivation ≠ true := fun slot =>
      Bool.eq_false_iff.1 (awaitsDerivation_recorded plan.1 slot hisClass)
    refine ⟨⟨?_, ?_, fun hfound => hfound⟩, ?_⟩
    · rintro interface ⟨σ, header, hσ, hname, hinterface⟩
      refine ⟨σ, header, ?_, hname, hinterface⟩
      rw [hheader, if_neg, hσ]
      rintro rfl
      rw [Store.header?, Array.getElem?_eq_none (Nat.le_refl _)] at hσ
      exact absurd hσ (by simp)
    · intro i o' ho' hawaits
      rcases slot_withInterface hc ho' with ⟨-, rfl⟩ | ⟨-, rfl⟩ | ⟨-, hold⟩
      · exact absurd hawaits (hnot _)
      · exact absurd (isClass_of_awaitsDerivation hawaits) Bool.false_ne_true
      · exact hold
    · intro c' hc' hawaits
      rw [getElem?_class _ _ _ _ _ hc, Option.some.injEq] at hc'
      subst hc'
      exact absurd hawaits (hnot _)

theorem Keeps.spent (h : Keeps s t) (hs : s.Spent k) : t.Spent k := by
  intro c hc hawaits plan hplan
  obtain ⟨hoccupied, hfound⟩ := hs c (h.awaiting k c hc hawaits) hawaits plan hplan
  exact ⟨h.occupied _ hoccupied, h.found hfound⟩

theorem invariant_spent (st : Store) (k : ObjectId) :
    Invariant (fun s => Recording st s ∧ s.Spent k) fun _ id o _ =>
      st.header? (.runtimeClass id) = some o.toHeader where
  turn s id o hs ho hawaits := (invariant_recording st).turn s id o hs.1 ho hawaits
  step _ _ _ _ _ _ hs hclass hstep :=
    ⟨⟨hs.1.step hclass hstep, (hs.1.keeps hclass hstep).1.spent hs.2⟩, hclass⟩

/-- If the class still awaits derivation, it is as it was before its turn, and all plans but those
that are left were refused. -/
structure Refusing (st : Store) (s : Derivation) (id : ObjectId) (o : ObjectType)
    (plans : List (DerivedRole × MemberSet)) : Prop where
  class_ : st.header? (.runtimeClass id) = some o.toHeader
  same : ∀ c, s.store.objects[id]? = some c → c.awaitsDerivation = true → c = o
  refused : ∀ c, s.store.objects[id]? = some c → c.awaitsDerivation = true →
    ∀ plan ∈ o.derivedRoles id, plan ∉ plans →
      s.store.Occupied (interfaceOf id o plan.1 plan.2) ∧ s.found ≠ []

theorem invariant_refusing (st : Store) : Invariant (Recording st) (Refusing st) where
  turn s id o hs ho hawaits :=
    { class_ := (invariant_recording st).turn s id o hs ho hawaits
      same := fun c hc _ => Option.some.inj (hc.symm.trans ho)
      refused := fun _ _ _ _ hplan hnot => absurd hplan hnot }
  step s t id o plan plans hs hq hstep := by
    obtain ⟨hkeeps, hrefused⟩ := hs.keeps hq.class_ hstep
    refine ⟨hs.step hq.class_ hstep, hq.class_, ?_, ?_⟩
    · exact fun c hc hawaits => hq.same c (hkeeps.awaiting id c hc hawaits) hawaits
    · intro c hc hawaits plan' hplan' hnot
      by_cases hplan : plan' = plan
      · rw [hplan]
        exact hrefused c hc hawaits
      · have hearlier : plan' ∉ plan :: plans := by simp [hplan, hnot]
        obtain ⟨hoccupied, hfound⟩ :=
          hq.refused c (hkeeps.awaiting id c hc hawaits) hawaits plan' hplan' hearlier
        exact ⟨hkeeps.occupied _ hoccupied, hkeeps.found hfound⟩

theorem Recording.spent_deriveFrom (h : Recording st s) (id : ObjectId) :
    (s.deriveFrom id).Spent id := by
  by_cases hturn : ∃ o, s.store.objects[id]? = some o ∧ o.awaitsDerivation = true
  · obtain ⟨o, ho, hawaits⟩ := hturn
    obtain ⟨-, hend⟩ := (invariant_refusing st).turnDone h ho hawaits
    intro c hc hawaits' plan hplan
    obtain rfl := hend.same c hc hawaits'
    exact hend.refused c hc hawaits' plan hplan List.not_mem_nil
  · rw [deriveFrom_eq_self fun o ho => Bool.eq_false_of_not_eq_true fun ha => hturn ⟨o, ho, ha⟩]
    exact fun o ho hawaits => absurd ⟨o, ho, hawaits⟩ hturn

theorem Recording.spent_slots (h : Recording st s) {ids : List ObjectId} (hk : k ∈ ids) :
    (ids.foldl Derivation.deriveFrom s).Spent k := by
  induction ids generalizing s with
  | nil => exact absurd hk List.not_mem_nil
  | cons id ids ih =>
    have hnext : Recording st (s.deriveFrom id) := (invariant_recording st).deriveFrom h id
    rcases List.mem_cons.1 hk with rfl | hlater
    · exact ((invariant_spent st k).slots ⟨hnext, h.spent_deriveFrom k⟩ ids).2
    · exact ih hnext hlater

theorem spent_run (h : s.store.Recorded) (k : ObjectId) : s.run.Spent k := by
  by_cases hk : k < s.store.objects.size
  · exact (recording_start h).spent_slots (List.mem_range.2 hk)
  · -- A slot that was not there at the start is no class.
    intro o ho hawaits
    have hend := (invariant_recording s.store).slots (recording_start h)
      (List.range s.store.objects.size)
    have hclass := (invariant_recording s.store).turn s.run k o hend ho hawaits
    rw [Store.header?, Array.getElem?_eq_none (Nat.not_lt.1 hk)] at hclass
    exact absurd hclass (by simp)

/-- Since the start nothing was declared, and nothing reported unless `told`. -/
structure Idle (start : Derivation) (told : Prop) (s : Derivation) : Prop where
  store : s.store = start.store
  symbols : s.symbols = start.symbols
  interfaces : s.interfaces = start.interfaces
  found : ¬ told → s.found = start.found

variable {start : Derivation} {told : Prop}

theorem invariant_idle (hrecorded : start.store.Recorded)
    (hoccupied : ∀ (id : ObjectId) o, start.store.objects[id]? = some o →
      o.awaitsDerivation = true → ∀ plan ∈ o.derivedRoles id,
        start.store.Occupied (interfaceOf id o plan.1 plan.2) ∧ told) :
    Invariant (Idle start told) fun _ id o plans => (start.store.objects[id]? = some o ∧
      o.awaitsDerivation = true) ∧ plans ⊆ o.derivedRoles id where
  turn s id o hs ho hawaits := ⟨⟨hs.store ▸ ho, hawaits⟩, List.Subset.refl _⟩
  step s t id o plan plans hs hq hstep := by
    obtain ⟨⟨ho, hawaits⟩, hplans⟩ := hq
    obtain ⟨hplan, hrest⟩ := List.cons_subset.1 hplans
    obtain ⟨hused, htold⟩ := hoccupied id o ho hawaits plan hplan
    refine ⟨?_, ⟨ho, hawaits⟩, hrest⟩
    cases hstep with
    | passed _ => exact hs
    | taken d node σ path used =>
      exact ⟨hs.store, hs.symbols, hs.interfaces, fun hnot => absurd htold hnot⟩
    | declared node block path free beside =>
      rw [hs.store] at path free
      exact absurd free ((recording_start hrecorded).not_free hused path)

/-- A derivation that starts with what this one has. -/
def restart (s : Derivation) : Derivation := { store := s.store, symbols := s.symbols }

/-- A second derivation declares nothing, and reports nothing if the first one reported nothing. -/
theorem run_again (h : s.store.Recorded) :
    Idle s.run.restart (s.run.found ≠ []) s.run.restart.run := by
  have hrecorded : s.run.restart.store.Recorded := recorded_run h
  refine (invariant_idle hrecorded ?_).slots ⟨rfl, rfl, rfl, fun _ => rfl⟩ _
  exact fun id o ho hawaits plan hplan => spent_run h id o ho hawaits plan hplan

end Derivation

namespace Workspace

theorem deriveInterfaces_again {w : Workspace} (h : w.store.Recorded) :
    (w.deriveInterfaces.1.deriveInterfaces.1 = { w.deriveInterfaces.1 with
      report := w.deriveInterfaces.1.report.add w.deriveInterfaces.1.derivation.run.found } ∧
    w.deriveInterfaces.1.deriveInterfaces.2.interfaces = 0) ∧
    (w.derivation.run.found = [] → w.deriveInterfaces.1.derivation.run.found = []) := by
  have hagain := Derivation.run_again (s := w.derivation) h
  have hrestart : w.deriveInterfaces.1.derivation = w.derivation.run.restart := rfl
  refine ⟨⟨?_, hagain.interfaces⟩, fun hfound => hagain.found fun hnot => hnot hfound⟩
  rw [w.deriveInterfaces.1.deriveInterfaces_eq, hrestart, hagain.store, hagain.symbols]
  rfl

end Workspace

end ComponentIdl
