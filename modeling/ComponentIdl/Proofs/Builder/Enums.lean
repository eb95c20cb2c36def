import ComponentIdl.Proofs.Builder.Handles
import ComponentIdl.Proofs.Evaluation.Chain
import ComponentIdl.Proofs.Lists

/-!
# Enums of a build

A build adds members to the enum it has opened last, and it opens none that was there before it. So
the enums of earlier builds stay as they are, whatever analyses have made of them, and those of this
build have distinct names and no values.
-/

namespace ComponentIdl

/-- An enum as it was written: distinct names, and no member has a value yet. -/
structure EnumType.Written (e : EnumType) : Prop where
  distinct : e.DistinctNames
  unevaluated : e.Unevaluated

namespace EnumType

variable {e : EnumType}

theorem written_new (h : Header) (base : IntegerType) : Written { toHeader := h, base } :=
  ⟨List.nodup_nil, fun m hm => absurd hm (Array.not_mem_empty m)⟩

theorem constant?_ofText (text : Option String) : (ValueState.ofText text).constant? = none := by
  unfold ValueState.ofText
  dsimp only
  split
  · rfl
  · split <;> rfl

theorem Written.push (h : e.Written) {d : Decl.EnumMember} (hfree : e.memberIndex? d.name = none) :
    Written { e with members := e.members.push (.ofDecl d) } := by
  constructor
  · show ((e.members.push (.ofDecl d)).toList.map EnumMember.name).Nodup
    rw [Array.toList_push]
    refine nodup_map_concat h.distinct fun m hm => ?_
    have hname := Array.findIdx?_eq_none_iff.1 hfree m (Array.mem_toList_iff.1 hm)
    exact beq_eq_false_iff_ne.1 hname
  · intro m hm
    rcases Array.mem_push.1 hm with hm | rfl
    · exact h.unevaluated m hm
    · dsimp only [EnumMember.ofDecl]
      exact constant?_ofText d.value

end EnumType

theorem Focus.eq_enum_of_nextSymbol {st : Store} {entity : Entity} {id : EnumId}
    (h : Focus.ofSymbol (st.nextSymbol entity) = .enum id) : id = st.enums.size := by
  cases entity with
  | object o =>
    unfold Store.nextSymbol at h
    dsimp only at h
    split at h <;> exact absurd h (by simp [ofSymbol])
  | struct s => exact absurd h (by simp [Store.nextSymbol, ofSymbol])
  | enum e => exact (Focus.enum.inj h).symm
  | delegate d => exact absurd h (by simp [Store.nextSymbol, ofSymbol])

namespace Builder

variable {b b' : Builder} {v : Visit} {id : EnumId}

theorem focus_focusOn {name : String} {line : Nat} {make : Header → Entity}
    (h : (focusOn (b.declare name line make)).focus = .enum id) : id = b.store.enums.size := by
  unfold focusOn at h
  dsimp only at h
  rcases declare_cases b name line make with ⟨-, -, -, hnone⟩ | ⟨_, _, _, -, -, -, -, -, hsome⟩
  · rw [hnone] at h
    exact absurd h (by simp)
  · rw [hsome] at h
    exact Focus.eq_enum_of_nextSymbol h

theorem focus_openBlock (b : Builder) (d : Decl.Block) : (b.openBlock d).focus = b.focus := by
  unfold openBlock
  rfl

theorem focus_closeObject (b : Builder) : b.closeObject.focus = .nothing := by
  unfold closeObject
  split
  · split <;> rfl
  · rfl

theorem focus_addProperty (b : Builder) (d : Decl.Property) :
    (b.addProperty d).focus = b.focus := by
  unfold addProperty
  split
  · dsimp only
    split
    · rfl
    · split <;> rfl
  · rfl

theorem focus_addEvent (b : Builder) (d : Decl.Event) : (b.addEvent d).focus = b.focus := by
  unfold addEvent
  split
  · split
    · rfl
    · split
      · rfl
      · dsimp only
        split <;> rfl
  · rfl

theorem focus_addField (b : Builder) (d : Decl.Field) : (b.addField d).focus = b.focus := by
  unfold addField
  split
  · split
    · rfl
    · split <;> rfl
  · rfl

theorem focus_addEnumMember (b : Builder) (d : Decl.EnumMember) :
    (b.addEnumMember d).focus = b.focus := by
  unfold addEnumMember
  split
  · split
    · rfl
    · split <;> rfl
  · rfl

/-- A visit turns to no enum but a new one. -/
theorem focus_visit (h : (b.visit v).focus = .enum id) :
    b.focus = .enum id ∨ id = b.store.enums.size := by
  cases v with
  | openUnit u => exact Or.inl h
  | closeUnit u => exact Or.inl h
  | openBlock d => exact Or.inl ((b.focus_openBlock d).symm.trans h)
  | closeBlock d => exact Or.inl h
  | openClass d => exact Or.inr (focus_focusOn h)
  | closeClass d => exact absurd (b.focus_closeObject.symm.trans h) (by simp)
  | openInterface d => exact Or.inr (focus_focusOn h)
  | closeInterface d => exact absurd (b.focus_closeObject.symm.trans h) (by simp)
  | openStruct d => exact Or.inr (focus_focusOn h)
  | closeStruct d => exact absurd h (by simp [visit, leave])
  | openEnum d => exact Or.inr (focus_focusOn h)
  | closeEnum d => exact absurd h (by simp [visit, leave])
  | openDelegate d =>
    left
    rw [← h]
    simp only [visit, openDelegate, declare]
    split
    · rfl
    · split <;> rfl
  | closeDelegate d => exact Or.inl h
  | enumMember d => exact Or.inl ((b.focus_addEnumMember d).symm.trans h)
  | field d => exact Or.inl ((b.focus_addField d).symm.trans h)
  | method d =>
    left
    rw [← h]
    simp only [visit, addMethod]
    split <;> rfl
  | property d => exact Or.inl ((b.focus_addProperty d).symm.trans h)
  | event d => exact Or.inl ((b.focus_addEvent d).symm.trans h)
  | constructor d =>
    left
    rw [← h]
    simp only [visit, addConstructor]
    split <;> rfl

theorem Step.enum {e' : EnumType} (h : Step b v b') (hi : b'.store.enums[id]? = some e') :
    b.store.enums[id]? = some e' ∨
      (b.focus = .enum id ∧ ∃ e, b.store.enums[id]? = some e ∧ (e.Written → e'.Written)) ∨
      (id = b.store.enums.size ∧ e'.Written) := by
  cases h with
  | keep store _ _ => exact Or.inl (store ▸ hi)
  | opened d h =>
    rw [h, (slots_openBlock ..).2.2.1] at hi
    exact Or.inl hi
  | declared node block rest header entity _ _ _ _ isNew store _ _ =>
    rw [store, (slots_declare ..).2.2.1] at hi
    cases entity with
    | enum e =>
      rw [Store.add, Array.getElem?_push] at hi
      split at hi
      · next hid =>
        obtain ⟨base, rfl⟩ := isNew
        exact Or.inr (Or.inr ⟨hid, Option.some.inj hi ▸ EnumType.written_new header base⟩)
      · exact Or.inl hi
    | object o => exact Or.inl hi
    | struct s => exact Or.inl hi
    | delegate d => exact Or.inl hi
  | grown _ _ _ store _ _ =>
    rw [store] at hi
    exact Or.inl hi
  | field _ _ _ store _ _ =>
    rw [store] at hi
    exact Or.inl hi
  | enumMember focused d free store _ _ hfocus =>
    rw [store, Store.modifyEnum, Array.getElem?_modify] at hi
    split at hi
    · next hid =>
      subst hid
      obtain ⟨e, he, rfl⟩ := Option.map_eq_some_iff.1 hi
      exact Or.inr (Or.inl ⟨hfocus, e, he, fun hw => hw.push (free e he)⟩)
    · exact Or.inl hi

/-- The enums that were there at the start are there, and all others are as they were written. -/
structure EnumsKept (start : Array EnumType) (b : Builder) : Prop where
  size : start.size ≤ b.store.enums.size
  focus : ∀ id, b.focus = .enum id → start.size ≤ id
  enum : ∀ (id : EnumId) e, b.store.enums[id]? = some e →
    start[id]? = some e ∨ (start.size ≤ id ∧ e.Written)

theorem EnumsKept.visit {start : Array EnumType} (h : b.EnumsKept start) (v : Visit) :
    (b.visit v).EnumsKept start := by
  have hs := b.step_visit v
  refine ⟨Nat.le_trans h.size hs.continues.enums, ?_, ?_⟩
  · intro id hid
    rcases focus_visit hid with hold | rfl
    · exact h.focus id hold
    · exact h.size
  · intro id e' hi
    rcases hs.enum hi with hold | ⟨hfocus, e, he, hwritten⟩ | ⟨rfl, hwritten⟩
    · exact h.enum id e' hold
    · have hle := h.focus id hfocus
      rcases h.enum id e he with hstart | ⟨-, hw⟩
      · have hlt := (Array.getElem?_eq_some_iff.1 hstart).1
        omega
      · exact Or.inr ⟨hle, hwritten hw⟩
    · exact Or.inr ⟨h.size, hwritten⟩

theorem enumsKept_run (b : Builder) (visits : List Visit) (hfocus : ∀ id, b.focus ≠ .enum id) :
    (b.run visits).EnumsKept b.store.enums := by
  refine run_preserves visits (fun v _ b' h => h.visit v) ⟨Nat.le_refl _, ?_, ?_⟩
  · exact fun id hid => absurd hid (hfocus id)
  · exact fun id e he => Or.inl he

end Builder

end ComponentIdl
