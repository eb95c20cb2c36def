import ComponentIdl.Proofs.Integer
import ComponentIdl.Proofs.Repeat.Evaluation

/-!
# Values in the range of their enum

A value comes from a literal, from zero, from the value before or from the member that is named. The
value that follows another is tested against the greatest one only, so it is of the type because the
other one is. A search keeps this of all values known so far, and so does everything else that is done
with a workspace.
-/

namespace ComponentIdl

theorem IntegerType.fits_of_literal? {t : IntegerType} {text : String} {c : Constant}
    (h : t.literal? text = some c) : t.Fits c := by
  obtain ⟨n, -, hn⟩ := Option.bind_eq_some_iff.1 h
  rw [ofMagnitude?_eq] at hn
  exact (constant?_eq_some_iff.1 hn).1

namespace EnumSearch

variable {base : IntegerType} {s : EnumSearch} {i : Nat} {m : EnumMember} {c : Constant}

/-- The values known so far are constants of the type. -/
def ValuesFit (base : IntegerType) (s : EnumSearch) : Prop :=
  ∀ m ∈ s.members, ∀ c, m.value = .known c → base.Fits c

theorem ValuesFit.outcome? (h : s.ValuesFit base) (hi : s.outcome? i = some (some c)) :
    base.Fits c := by
  unfold EnumSearch.outcome? at hi
  split at hi
  · next value hvalue =>
    obtain ⟨m, hm, hknown⟩ := Option.bind_eq_some_iff.1 hvalue
    obtain rfl : value = c := Option.some.inj (Option.some.inj hi)
    refine h m (Array.mem_of_getElem? hm) value ?_
    cases hv : m.value with
    | known v => rw [hv] at hknown; exact congrArg ValueState.known (Option.some.inj hknown)
    | implicit => rw [hv] at hknown; exact nomatch hknown
    | literal text => rw [hv] at hknown; exact nomatch hknown
    | reference name => rw [hv] at hknown; exact nomatch hknown
  · split at hi
    · exact nomatch hi
    · exact nomatch hi

theorem fitting_eq_assign {value : Option Constant} (h : fitting value = .assign c) :
    value = some c := by
  cases value with
  | some v => exact congrArg some (EnumMove.assign.inj h)
  | none => exact nomatch h

/-- A value that is assigned is of the type, whichever way it comes. -/
theorem ValuesFit.move (h : s.ValuesFit base) (hm : m ∈ s.members)
    (hmove : s.move base i m.value = .assign c) : base.Fits c := by
  cases hv : m.value with
  | known v =>
    rw [hv] at hmove
    exact EnumMove.assign.inj hmove ▸ h m hm v hv
  | literal text =>
    rw [hv] at hmove
    exact IntegerType.fits_of_literal? (fitting_eq_assign hmove)
  | implicit =>
    rw [hv] at hmove
    cases i with
    | zero => exact EnumMove.assign.inj hmove ▸ base.fits_zero
    | succ before =>
      dsimp only [EnumSearch.move] at hmove
      split at hmove
      · next v hbefore => exact (h.outcome? hbefore).next (fitting_eq_assign hmove)
      · exact nomatch hmove
      · exact nomatch hmove
  | reference name =>
    rw [hv] at hmove
    dsimp only [EnumSearch.move] at hmove
    split at hmove
    · exact nomatch hmove
    · split at hmove
      · next v htarget => exact EnumMove.assign.inj hmove ▸ h.outcome? htarget
      · exact nomatch hmove
      · exact nomatch hmove

/-- Only an assignment changes a member, and it changes one. -/
theorem ValuesFit.apply (h : s.ValuesFit base) {move : EnumMove}
    (hmove : ∀ c, move = .assign c → base.Fits c) : (s.apply i m move).ValuesFit base := by
  cases move with
  | assign value =>
    intro m' hm' c hc
    rcases Array.mem_or_eq_of_mem_setIfInBounds hm' with hold | rfl
    · exact h m' hold c hc
    · exact ValueState.known.inj hc ▸ hmove value rfl
  | fail reports =>
    unfold ValuesFit
    rw [members_fail]
    exact h
  | wait on =>
    dsimp only [EnumSearch.apply]
    split
    · split <;> exact h
    · exact h
  | unknown name => exact h

theorem ValuesFit.step (h : s.ValuesFit base) : (s.step base).ValuesFit base := by
  unfold EnumSearch.step
  split
  · exact h
  · split
    · next m hm _ => exact h.apply fun c hc => h.move (Array.mem_of_getElem? hm) hc
    · exact h

theorem ValuesFit.run (h : s.ValuesFit base) (fuel : Nat) : (run base fuel s).ValuesFit base :=
  (loop base).run_preserves (fun _ h _ => h.step) fuel h

theorem ValuesFit.settle (h : s.ValuesFit base) (root : Nat) : (s.settle base root).ValuesFit base :=
  run (s := { s with stack := [root] }) h (2 * s.members.size + 2)

theorem ValuesFit.settleAll (h : s.ValuesFit base) (roots : List Nat) :
    (s.settleAll base roots).ValuesFit base := by
  unfold EnumSearch.settleAll
  induction roots generalizing s with
  | nil => exact h
  | cons root roots ih =>
    rw [List.foldl_cons]
    apply ih
    split
    · exact h
    · exact h.settle root

end EnumSearch

namespace EnumType

variable {e : EnumType}

/-- The values that are known are constants of the type of the enum, as a search finds them. -/
def ValuesFit (e : EnumType) : Prop :=
  EnumSearch.ValuesFit e.base { members := e.members }

theorem ValuesFit.evaluated (h : e.ValuesFit) : e.evaluated.ValuesFit :=
  EnumSearch.ValuesFit.settleAll h (List.range e.members.size)

theorem Written.valuesFit (h : e.Written) : e.ValuesFit := by
  intro m hm c hc
  have hnone := h.unevaluated m hm
  rw [hc] at hnone
  exact nomatch hnone

theorem Evaluable.valuesFit (h : e.Evaluable) : e.ValuesFit := by
  obtain ⟨written, hw, rfl | rfl⟩ := h
  · exact hw.valuesFit
  · exact hw.valuesFit.evaluated

end EnumType

namespace Workspace

/-- In every workspace that is reached, the values of an enum are constants of its type. -/
theorem values_reached (settings : Settings) (catalog : Catalog) (stages : List Stage) :
    ∀ e ∈ (reached settings catalog stages).store.enums, ∀ m ∈ e.members, ∀ c,
      m.value = .known c → e.base.Fits c := by
  intro e he
  have h : ∀ e ∈ (reached settings catalog stages).store.enums, e.Evaluable :=
    invariant_evaluable.reached (P := fun w => ∀ e ∈ w.store.enums, e.Evaluable)
      (fun e he => absurd he (Array.not_mem_empty e)) stages
  exact (h e he).valuesFit

/-- The values of an enum are searched for twice, and a member between others has none. -/
def dialStages : List Stage :=
  [.build [.openBlock ⟨"Home", 1, []⟩, .openEnum ⟨"Dial", 2, .int8, []⟩,
      .enumMember ⟨"High", 3, some "Full"⟩, .enumMember ⟨"Higher", 4, none⟩,
      .enumMember ⟨"Full", 5, some "0x7F"⟩, .enumMember ⟨"Low", 6, some "-128"⟩,
      .enumMember ⟨"Next", 7, none⟩],
    .pass .evaluateEnums, .pass .evaluateEnums]

theorem values_reached_dial :
    ∃ e ∈ (reached {} .empty dialStages).store.enums, e.base = .int8 ∧
      e.members.toList.map EnumMember.value = [.known (.signed 127), .implicit,
        .known (.signed 127), .known (.signed (-128)), .known (.signed (-127))] ∧
      ∃ m ∈ e.members, m.value = .known (.signed (-127)) ∧ e.base.Fits (.signed (-127)) := by
  have hevaluated : ((reached {} .empty dialStages).store.enums[0]?.map fun e : EnumType =>
      (e.base, e.members.toList.map EnumMember.value)) =
        some (.int8, [.known (.signed 127), .implicit, .known (.signed 127),
          .known (.signed (-128)), .known (.signed (-127))]) := by
    decide +kernel
  obtain ⟨e, he, heq⟩ := Option.map_eq_some_iff.1 hevaluated
  obtain ⟨hbase, hvalues⟩ := Prod.mk.inj heq
  have hmem := Array.mem_of_getElem? he
  have hlast : (.known (.signed (-127)) : ValueState) ∈ e.members.toList.map EnumMember.value := by
    rw [hvalues]
    decide
  obtain ⟨m, hm, hvalue⟩ := List.mem_map.1 hlast
  rw [Array.mem_toList_iff] at hm
  exact ⟨e, hmem, hbase, hvalues, m, hm, hvalue,
    values_reached {} .empty dialStages e hmem m hm _ hvalue⟩

end Workspace

end ComponentIdl
