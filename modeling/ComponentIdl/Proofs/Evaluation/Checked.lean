import ComponentIdl.Proofs.Evaluation

/-!
# The search with every index checked

The search for enum values passes over an index that no member has. Here it is run once more with a
check at each place where a member is read or written: the index counts as an integer, so that it can
fall below zero, and one that no member has is an error, which ends everything. While the stack holds
members of the enum no check fails, and the checked step is the step.
-/

namespace ComponentIdl.EnumSearch

/-- The member at an index. An index that no member has is the error. -/
def memberAt (s : EnumSearch) : Int → Except Int EnumMember
  | .ofNat i =>
    match s.members[i]? with
    | some m => .ok m
    | none => .error i
  | .negSucc i => .error (.negSucc i)

def outcomeAt (s : EnumSearch) (index : Int) : Except Int (Option (Option Constant)) := do
  let m ← s.memberAt index
  match m.value.constant? with
  | some value => return some (some value)
  | none => return if s.failed.contains index.toNat then some none else none

def moveAt (base : IntegerType) (s : EnumSearch) (index : Nat) : ValueState → Except Int EnumMove
  | .known value => return .assign value
  | .literal text => return fitting (base.literal? text)
  | .implicit =>
    if index = 0 then return .assign base.zero
    else do
      match ← s.outcomeAt ((index : Int) - 1) with
      | some (some value) => return fitting (base.next? value)
      | some none => return .fail false
      | none => return .wait (index - 1)
  | .reference name =>
    match s.indexOf? name with
    | none => return .unknown name
    | some target => do
      match ← s.outcomeAt target with
      | some (some value) => return .assign value
      | some none => return .fail false
      | none => return .wait target

/-- Only the report of a cycle reads a member besides the one that makes the move. -/
def applyAt (s : EnumSearch) (index : Nat) (m : EnumMember) : EnumMove → Except Int EnumSearch
  | .wait on => do
    let waiting := { s with pending := s.pending.insert index }
    if waiting.pending.contains on then
      let cause ← s.memberAt on
      return { waiting.report .circularEnumField cause.line cause.name with isStopped := true }
    else return { waiting with stack := on :: s.stack }
  | move => return s.apply index m move

def stepAt (base : IntegerType) (s : EnumSearch) : Except Int EnumSearch :=
  match s.stack with
  | [] => return s
  | index :: _ => do
    match ← s.outcomeAt index with
    | some _ => return s.pop
    | none =>
      let m ← s.memberAt index
      let move ← s.moveAt base index m.value
      s.applyAt index m move

def runAt (base : IntegerType) : Nat → EnumSearch → Except Int EnumSearch
  | 0, s => return s
  | fuel + 1, s =>
    if s.stack.isEmpty || s.isStopped then return s
    else do
      let next ← s.stepAt base
      runAt base fuel next

variable {base : IntegerType} {s : EnumSearch} {i : Nat} {m : EnumMember}

theorem memberAt_eq (h : s.members[i]? = some m) : s.memberAt i = .ok m := by
  show (match s.members[i]? with | some m => Except.ok m | none => .error (i : Int)) = .ok m
  rw [h]

theorem outcomeAt_eq (h : i < s.members.size) : s.outcomeAt i = .ok (s.outcome? i) := by
  have hm : s.members[i]? = some s.members[i] := Array.getElem?_eq_getElem h
  unfold outcomeAt outcome?
  rw [memberAt_eq hm, hm, Option.bind_some]
  show (match s.members[i].value.constant? with
    | some value => Except.ok (some (some value))
    | none => Except.ok (if s.failed.contains i then some none else none)) = _
  cases s.members[i].value.constant? <;> rfl

theorem indexOf?_lt {name : String} (h : s.indexOf? name = some i) : i < s.members.size := by
  unfold indexOf? at h
  exact (Array.findIdx?_eq_some_iff_getElem.1 h).1

theorem moveAt_eq (base : IntegerType) (h : i < s.members.size) (v : ValueState) :
    s.moveAt base i v = .ok (s.move base i v) := by
  cases v with
  | known value => rfl
  | literal text => rfl
  | implicit =>
    cases i with
    | zero => rfl
    | succ before =>
      have hbefore : ((before + 1 : Nat) : Int) - 1 = before := by omega
      simp only [moveAt, move]
      rw [if_neg (Nat.succ_ne_zero before), hbefore, outcomeAt_eq (Nat.lt_of_succ_lt h)]
      rcases s.outcome? before with _ | _ | value <;> rfl
  | reference name =>
    simp only [moveAt, move]
    cases hindex : s.indexOf? name with
    | none => rfl
    | some target =>
      dsimp only
      rw [outcomeAt_eq (indexOf?_lt hindex)]
      rcases s.outcome? target with _ | _ | value <;> rfl

theorem applyAt_eq (m : EnumMember) {move : EnumMove}
    (h : ∀ on, move = .wait on → on < s.members.size) :
    s.applyAt i m move = .ok (s.apply i m move) := by
  cases move with
  | assign value => rfl
  | fail reports => rfl
  | unknown name => rfl
  | wait on =>
    have hlt : on < s.members.size := h on rfl
    have hm : s.members[on]? = some s.members[on] := Array.getElem?_eq_getElem hlt
    simp only [applyAt, apply, memberAt_eq hm, hm]
    split <;> rfl

theorem stepAt_eq (base : IntegerType) (h : ∀ i ∈ s.stack, i < s.members.size) :
    s.stepAt base = .ok (s.step base) := by
  cases hs : s.stack with
  | nil => simp [stepAt, step, hs, pure, Except.pure]
  | cons top rest =>
    have htop : top < s.members.size := h top (by rw [hs]; exact List.mem_cons_self)
    have hm : s.members[top]? = some s.members[top] := Array.getElem?_eq_getElem htop
    have hwait := (move_spec base hm).2
    simp only [stepAt, step, hs, outcomeAt_eq htop, hm]
    cases s.outcome? top with
    | some result => rfl
    | none =>
      show (do
        let m ← s.memberAt top
        let move ← s.moveAt base top m.value
        s.applyAt top m move) = _
      rw [memberAt_eq hm]
      show (do
        let move ← s.moveAt base top s.members[top].value
        s.applyAt top s.members[top] move) = _
      rw [moveAt_eq base htop]
      exact applyAt_eq _ fun on hon => (hwait on hon).2

end ComponentIdl.EnumSearch
