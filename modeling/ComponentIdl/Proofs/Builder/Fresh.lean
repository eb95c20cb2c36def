import ComponentIdl.Proofs.Builder.Step

/-!
# What a build leaves to the analyses

A build binds no entry of a requires list, links no method and knows of no cycle; nothing it makes is
derived from a class.
-/

namespace ComponentIdl

/-- A class or interface that no analysis has seen. -/
structure ObjectType.Fresh (o : ObjectType) : Prop where
  requires : ∀ r ∈ o.requires, r.isBound = false
  methods : ∀ m ∈ o.methods, m.overrides = none
  cycle : o.cycle = .unknown
  derivedFrom : o.derivedFrom = none

namespace ObjectType

variable {o o' : ObjectType}

theorem fresh_of_new {header : Header} (h : o.IsNew header) : o.Fresh := by
  obtain ⟨names, hnames⟩ := h.requires
  refine ⟨?_, ?_, h.cycle, h.derivedFrom⟩
  · intro r hr
    rw [hnames] at hr
    obtain ⟨name, -, rfl⟩ := List.mem_map.1 hr
    rfl
  · simp [h.methods]

theorem Fresh.pushMethod (h : o.Fresh) {m : Method} (hm : m.overrides = none) :
    (o.pushMethod m).Fresh := by
  refine ⟨h.requires, ?_, h.cycle, h.derivedFrom⟩
  intro n hn
  rcases List.mem_append.1 hn with hn | hn
  · exact h.methods n hn
  · rw [List.mem_singleton.1 hn]
    exact hm

theorem Fresh.addAccessors (h : o.Fresh) (index : Nat) (asked : List (PropertyRole × Nat)) :
    (o.addAccessors index asked).Fresh := by
  have hone : ∀ (o : ObjectType) role line, o.Fresh → (o.addAccessor index role line).Fresh := by
    intro o role line h
    unfold addAccessor
    split
    · exact h
    · next p _ =>
      have hpush := h.pushMethod (m := p.accessor role line) rfl
      exact ⟨hpush.requires, hpush.methods, hpush.cycle, hpush.derivedFrom⟩
  induction asked generalizing o with
  | nil => exact h
  | cons a asked ih => exact ih (hone o a.1 a.2 h)

theorem Fresh.grows (h : o.Fresh) (hg : o.Grows o') : o'.Fresh := by
  cases hg with
  | method d => exact h.pushMethod rfl
  | constructor d => exact ⟨h.requires, h.methods, h.cycle, h.derivedFrom⟩
  | fragment d count ho =>
    obtain ⟨-, ⟨-, rfl⟩ | ⟨p, index, -, -, -, -, -, rfl⟩⟩ := addFragment_cases ho
    · have hfirst : ({ o with properties := o.properties ++ [.first d] } : ObjectType).Fresh :=
        ⟨h.requires, h.methods, h.cycle, h.derivedFrom⟩
      exact hfirst.addAccessors _ _
    · exact h.addAccessors _ _
  | event d he hp =>
    have hadd := fun e : Event =>
      (h.pushMethod (m := e.accessor .add) rfl).pushMethod (m := e.accessor .remove) rfl
    exact ⟨h.requires, (hadd _).methods, h.cycle, h.derivedFrom⟩

end ObjectType

namespace Builder

theorem run_fresh (b : Builder) (visits : List Visit) (h : ∀ o ∈ b.store.objects, o.Fresh) :
    ∀ o ∈ (b.run visits).store.objects, o.Fresh :=
  run_objects visits (fun _ _ => ObjectType.fresh_of_new) (fun _ _ hg h => h.grows hg) h

theorem step_structCycle {b b' : Builder} {v : Visit} (hs : Step b v b')
    (h : ∀ s ∈ b.store.structs, s.cycle = .unknown) : ∀ s ∈ b'.store.structs, s.cycle = .unknown := by
  cases hs with
  | keep store _ _ =>
    rw [store]
    exact h
  | opened d hd =>
    rw [hd]
    exact h
  | declared node block rest header entity _ _ _ _ isNew store _ _ =>
    rw [store, (slots_declare ..).2.1]
    cases entity with
    | object o => exact h
    | struct t =>
      intro s hs
      rcases Array.mem_push.1 hs with hs | rfl
      · exact h s hs
      · obtain rfl : s = _ := isNew
        rfl
    | enum e => exact h
    | delegate d => exact h
  | grown _ _ _ store _ _ =>
    rw [store]
    exact h
  | field id d _ store _ _ =>
    intro s hs
    rw [store, Store.modifyStruct] at hs
    obtain ⟨i, hi⟩ := Array.mem_iff_getElem?.1 hs
    rw [Array.getElem?_modify] at hi
    split at hi
    · obtain ⟨t, ht, rfl⟩ := Option.map_eq_some_iff.1 hi
      exact h t (Array.mem_of_getElem? ht)
    · exact h s (Array.mem_of_getElem? hi)
  | enumMember _ _ _ store _ _ =>
    rw [store]
    exact h

theorem run_structCycle (b : Builder) (visits : List Visit)
    (h : ∀ s ∈ b.store.structs, s.cycle = .unknown) :
    ∀ s ∈ (b.run visits).store.structs, s.cycle = .unknown :=
  run_preserves (P := fun b => ∀ s ∈ b.store.structs, s.cycle = .unknown) visits
    (fun v _ b hb => step_structCycle (step_visit b v) hb) h

end Builder

end ComponentIdl
