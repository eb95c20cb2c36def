import Mathlib.Algebra.Group.Int.Defs
import ComponentIdl.Integer

/-!
# The range of an integer type

A type of so many bits has the integers that two's complement gives a signed type, or those without a
sign. A constant fits a type if it is marked with the signedness of the type and its value is in this
range. The first constant fits, and the constant after one that fits.
-/

namespace ComponentIdl

namespace Constant

def isSigned : Constant → Bool
  | signed _ => true
  | unsigned _ => false

def toInt : Constant → Int
  | signed v => v
  | unsigned v => v

theorem ext {c c' : Constant} (hsign : c.isSigned = c'.isSigned) (hvalue : c.toInt = c'.toInt) :
    c = c' := by
  cases c with
  | signed v =>
    cases c' with
    | signed v' => exact congrArg signed hvalue
    | unsigned v' => exact nomatch hsign
  | unsigned v =>
    cases c' with
    | signed v' => exact nomatch hsign
    | unsigned v' => exact congrArg unsigned (Int.ofNat_inj.1 hvalue)

end Constant

namespace IntegerType

def least (t : IntegerType) : Int := if t.isSigned then t.leastSigned else 0

def greatest (t : IntegerType) : Int :=
  if t.isSigned then t.greatestSigned else t.greatestUnsigned

/-- The constant with the value, if it is in the range of the type. -/
def constant? (t : IntegerType) (n : Int) : Option Constant :=
  if t.least ≤ n ∧ n ≤ t.greatest then
    some (if t.isSigned then .signed n else .unsigned n.toNat)
  else none

def bits : IntegerType → Nat
  | int8 | uint8 => 8
  | int16 | uint16 => 16
  | int32 | uint32 => 32
  | int64 | uint64 => 64

/-- Whether an integer can be written in the bits of the type. -/
def Holds (t : IntegerType) (n : Int) : Prop :=
  if t.isSigned then -2 ^ (t.bits - 1) ≤ n ∧ n < 2 ^ (t.bits - 1) else 0 ≤ n ∧ n < 2 ^ t.bits

instance (t : IntegerType) (n : Int) : Decidable (t.Holds n) :=
  inferInstanceAs (Decidable (if t.isSigned = true then _ else _))

/-- The constant is one of the type. -/
structure Fits (t : IntegerType) (c : Constant) : Prop where
  isSigned : c.isSigned = t.isSigned
  holds : t.Holds c.toInt

variable {t : IntegerType} {c c' : Constant} {n : Int}

theorem range_iff_holds : t.least ≤ n ∧ n ≤ t.greatest ↔ t.Holds n := by
  unfold Holds
  cases t <;> simp [least, leastSigned, greatest, greatestSigned, greatestUnsigned,
    IntegerType.isSigned, bits] <;> omega

theorem Holds.natAbs_le (h : t.Holds n) : n.natAbs ≤ 0xFFFFFFFFFFFFFFFF := by
  unfold Holds at h
  cases t <;> simp [IntegerType.isSigned, bits] at h <;> omega

theorem fits_zero (t : IntegerType) : t.Fits t.zero := by
  cases t <;> exact ⟨rfl, by decide⟩

theorem next?_eq_some (hsign : c.isSigned = t.isSigned) (h : t.next? c = some c') :
    c'.isSigned = t.isSigned ∧ c'.toInt = c.toInt + 1 ∧ c'.toInt ≤ t.greatest := by
  unfold greatest
  rw [← hsign]
  cases c with
  | signed v =>
    obtain ⟨hle, heq⟩ := Option.ite_none_right_eq_some.1 h
    exact Option.some.inj heq ▸ ⟨rfl, rfl, hle⟩
  | unsigned v =>
    obtain ⟨hle, heq⟩ := Option.ite_none_right_eq_some.1 h
    exact Option.some.inj heq ▸ ⟨rfl, rfl, Int.ofNat_le.2 hle⟩

theorem Fits.next (h : t.Fits c) (hnext : t.next? c = some c') : t.Fits c' := by
  obtain ⟨hsign, hvalue, hgreatest⟩ := next?_eq_some h.isSigned hnext
  have hleast := (range_iff_holds.2 h.holds).1
  exact ⟨hsign, range_iff_holds.1 ⟨by omega, hgreatest⟩⟩

theorem isSome_constant? : (t.constant? n).isSome = true ↔ t.Holds n := by
  rw [constant?, Option.isSome_ite, range_iff_holds]

theorem constant?_eq_some_iff : t.constant? n = some c ↔ t.Fits c ∧ c.toInt = n := by
  by_cases hn : t.Holds n
  · -- What the integer is made into fits, and only one constant has its value and signedness.
    have hmade : ∃ made, t.constant? n = some made ∧ made.isSigned = t.isSigned ∧ made.toInt = n := by
      unfold constant?
      rw [if_pos (range_iff_holds.2 hn)]
      unfold Holds at hn
      cases hs : t.isSigned with
      | true => exact ⟨_, rfl, rfl, rfl⟩
      | false =>
        rw [hs] at hn
        exact ⟨_, rfl, rfl, Int.toNat_of_nonneg hn.1⟩
    obtain ⟨made, hconstant, hsign, hvalue⟩ := hmade
    rw [hconstant, Option.some.injEq]
    constructor
    · rintro rfl
      exact ⟨⟨hsign, hvalue.symm ▸ hn⟩, hvalue⟩
    · rintro ⟨hfits, hc⟩
      exact Constant.ext (hsign.trans hfits.isSigned.symm) (hvalue.trans hc.symm)
  · unfold constant?
    rw [if_neg (mt range_iff_holds.1 hn)]
    refine iff_of_false nofun ?_
    rintro ⟨hfits, rfl⟩
    exact hn hfits.holds

theorem constant?_eq_none (h : ¬ t.Holds n) : t.constant? n = none :=
  Option.not_isSome_iff_eq_none.1 (mt isSome_constant?.1 h)

theorem ofMagnitude?_eq (t : IntegerType) (isNegative : Bool) (magnitude : Nat) :
    t.ofMagnitude? isNegative magnitude =
      t.constant? (if isNegative then -magnitude else magnitude) := by
  unfold ofMagnitude? constant? least greatest
  cases t.isSigned with
  | true =>
    simp only [if_true]
    generalize (if isNegative = true then -(magnitude : Int) else magnitude) = value
    by_cases hvalue : t.leastSigned ≤ value ∧ value ≤ t.greatestSigned
    · rw [if_neg (by omega), if_pos hvalue]
    · rw [if_pos (by omega), if_neg hvalue]
  | false =>
    cases isNegative with
    | true =>
      by_cases hzero : magnitude = 0
      · simp [hzero]
      · simp [hzero]
    | false => simp

end IntegerType

end ComponentIdl
