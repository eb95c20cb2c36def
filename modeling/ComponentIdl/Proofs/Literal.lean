import Mathlib.Data.Nat.Digits.Defs
import Mathlib.Tactic.IntervalCases
import Mathlib.Tactic.Ring
import ComponentIdl.Proofs.Integer
import ComponentIdl.Proofs.Lists
import ComponentIdl.Proofs.Text

/-!
# What a literal denotes

A literal is a minus or none, `0x` or `0X` or neither, and digits of the radix that this says; blanks
may stand around it. It denotes one integer, of any size. It is a constant of a type exactly if this
integer is in the range of the type, and then the constant has this value.
-/

namespace ComponentIdl

namespace Literal

/-- The character is the digit of a value below the radix, in a small or a capital letter. -/
def IsDigit (radix : Nat) (c : Char) (value : Nat) : Prop :=
  value < radix ∧ (c = value.digitChar ∨ c = value.digitChar.toUpper)

/-- Digits, the most significant first, and the number that they stand for by position. -/
def Positional (radix : Nat) (cs : List Char) (n : Nat) : Prop :=
  cs ≠ [] ∧ ∃ values, List.Forall₂ (IsDigit radix) cs values ∧ n = Nat.ofDigits radix values.reverse

inductive Magnitude : List Char → Nat → Prop where
  | decimal {cs : List Char} {n : Nat} (h : Positional 10 cs n) : Magnitude cs n
  | hexadecimal {x : Char} {cs : List Char} {n : Nat} (hx : x = 'x' ∨ x = 'X')
      (h : Positional 16 cs n) : Magnitude ('0' :: x :: cs) n

inductive Signed : List Char → Int → Prop where
  | plain {cs : List Char} {n : Nat} (h : Magnitude cs n) : Signed cs n
  | negative {cs : List Char} {n : Nat} (h : Magnitude cs n) : Signed ('-' :: cs) (-n)

/-- The text is a literal for the integer, between blanks. -/
def Denotes (text : String) (n : Int) : Prop :=
  ∃ before core after : List Char, text.toList = before ++ core ++ after ∧
    (∀ c ∈ before, Text.isBlank c = true) ∧ (∀ c ∈ after, Text.isBlank c = true) ∧ Signed core n

variable {radix value n : Nat} {i : Int} {cs : List Char} {c : Char}

theorem isDigit_of_digit? (h : digit? radix c = some value) : IsDigit radix c value := by
  obtain ⟨hlt, heq⟩ := Option.ite_none_right_eq_some.1 h
  obtain rfl := Option.some.inj heq
  have hdecimal : ∀ d < 10, Char.ofNat (d + 48) = d.digitChar := by decide
  have hsmall : ∀ d < 6, Char.ofNat (d + 97) = (d + 10).digitChar := by decide
  have hcapital : ∀ d < 6, Char.ofNat (d + 65) = (d + 10).digitChar.toUpper := by decide
  have hchar : ∀ first ≤ c.toNat, c = Char.ofNat (c.toNat - first + first) := by
    intro first hle
    rw [Nat.sub_add_cancel hle, Char.ofNat_toNat]
  refine ⟨hlt, ?_⟩
  split_ifs at hlt ⊢ with h0 ha hA
  · obtain ⟨hle, hge⟩ : 48 ≤ c.toNat ∧ c.toNat ≤ 57 := h0
    exact Or.inl ((hchar 48 hle).trans (hdecimal _ (by omega)))
  · obtain ⟨hle, hge⟩ : 97 ≤ c.toNat ∧ c.toNat ≤ 102 := ha
    exact Or.inl ((hchar 97 hle).trans (hsmall _ (by omega)))
  · obtain ⟨hle, hge⟩ : 65 ≤ c.toNat ∧ c.toNat ≤ 70 := hA
    exact Or.inr ((hchar 65 hle).trans (hcapital _ (by omega)))
  · omega

theorem IsDigit.digit? (h : IsDigit radix c value) (hradix : radix ≤ 16) :
    digit? radix c = some value := by
  obtain ⟨hlt, hc⟩ := h
  have hvalue : (if '0' ≤ c ∧ c ≤ '9' then c.toNat - '0'.toNat
      else if 'a' ≤ c ∧ c ≤ 'f' then c.toNat - 'a'.toNat + 10
      else if 'A' ≤ c ∧ c ≤ 'F' then c.toNat - 'A'.toNat + 10
      else radix) = value := by
    have hsixteen : value < 16 := by omega
    clear hlt
    interval_cases value <;> rcases hc with rfl | rfl <;> rfl
  unfold Literal.digit?
  dsimp only
  rw [hvalue, if_pos hlt]

theorem IsDigit.not_blank (h : IsDigit radix c value) (hradix : radix ≤ 16) :
    Text.isBlank c = false := by
  obtain ⟨hlt, hc⟩ := h
  have hall : ∀ d < 16,
      Text.isBlank d.digitChar = false ∧ Text.isBlank d.digitChar.toUpper = false := by
    decide
  rcases hc with rfl | rfl
  · exact (hall value (by omega)).1
  · exact (hall value (by omega)).2

/-- The digits to come have the weights below those of the number read so far. -/
theorem digitsAfter?_eq_some_iff (hradix : radix ≤ 16) :
    digitsAfter? radix value cs = some n ↔ ∃ values, List.Forall₂ (IsDigit radix) cs values ∧
      n = value * radix ^ values.length + Nat.ofDigits radix values.reverse := by
  induction cs generalizing value with
  | nil =>
    rw [digitsAfter?, Option.some.injEq]
    constructor
    · rintro rfl
      exact ⟨[], .nil, by simp⟩
    · rintro ⟨values, hvalues, rfl⟩
      cases hvalues
      simp
  | cons c cs ih =>
    have hshift : ∀ (d : Nat) (values : List Nat),
        (value * radix + d) * radix ^ values.length + Nat.ofDigits radix values.reverse =
          value * radix ^ (d :: values).length + Nat.ofDigits radix (d :: values).reverse := by
      intro d values
      rw [List.reverse_cons, Nat.ofDigits_append, Nat.ofDigits_singleton, List.length_reverse,
        List.length_cons]
      ring
    rw [digitsAfter?, Option.bind_eq_some_iff]
    constructor
    · rintro ⟨d, hd, hrest⟩
      obtain ⟨values, hvalues, rfl⟩ := ih.1 hrest
      exact ⟨d :: values, .cons (isDigit_of_digit? hd) hvalues, hshift d values⟩
    · rintro ⟨_, hvalues, rfl⟩
      cases hvalues with
      | cons hd hvalues =>
        exact ⟨_, hd.digit? hradix, ih.2 ⟨_, hvalues, (hshift _ _).symm⟩⟩

theorem natural?_eq_some_iff (hradix : radix ≤ 16) :
    natural? radix cs = some n ↔ Positional radix cs n := by
  unfold natural? Positional
  rw [Option.ite_none_left_eq_some, List.isEmpty_iff, digitsAfter?_eq_some_iff hradix]
  simp only [Nat.zero_mul, Nat.zero_add, ne_eq]

theorem Positional.isDigit (h : Positional radix cs n) (hc : c ∈ cs) : ∃ d, IsDigit radix c d := by
  obtain ⟨-, values, hvalues, -⟩ := h
  obtain ⟨d, -, hd⟩ := mem_right hvalues hc
  exact ⟨d, hd⟩

/-- The number written after `0x` or `0X`, or without them. It may have any size. -/
def unsigned? (cs : List Char) : Option Nat := natural? (splitRadix cs).1 (splitRadix cs).2

/-- The integer that is written. It may have any size. -/
def integer? (cs : List Char) : Option Int :=
  (unsigned? (splitMinus cs).2).map fun n : Nat => if (splitMinus cs).1 then -(n : Int) else n

theorem unsigned?_eq_some_iff : unsigned? cs = some n ↔ Magnitude cs n := by
  constructor
  · intro h
    unfold unsigned? splitRadix at h
    split at h
    · exact .hexadecimal (Or.inl rfl) ((natural?_eq_some_iff (Nat.le_refl 16)).1 h)
    · exact .hexadecimal (Or.inr rfl) ((natural?_eq_some_iff (Nat.le_refl 16)).1 h)
    · exact .decimal ((natural?_eq_some_iff (by decide : 10 ≤ 16)).1 h)
  · intro h
    cases h with
    | hexadecimal hx h =>
      rcases hx with rfl | rfl
      · exact (natural?_eq_some_iff (Nat.le_refl 16)).2 h
      · exact (natural?_eq_some_iff (Nat.le_refl 16)).2 h
    | decimal h =>
      have hx : ∀ x ∈ cs, x ≠ 'x' ∧ x ≠ 'X' := by
        intro x hx
        obtain ⟨d, hd⟩ := h.isDigit hx
        have hdigit := hd.digit? (by decide)
        constructor <;> rintro rfl <;> exact nomatch hdigit
      unfold unsigned? splitRadix
      split
      · exact absurd rfl (hx 'x' (by simp)).1
      · exact absurd rfl (hx 'X' (by simp)).2
      · exact (natural?_eq_some_iff (by decide : 10 ≤ 16)).2 h

theorem Magnitude.not_minus (h : Magnitude cs n) : '-' ∉ cs.head? := by
  cases h with
  | hexadecimal => exact nofun
  | decimal h =>
    intro hminus
    obtain ⟨d, hd⟩ := h.isDigit (List.mem_of_mem_head? hminus)
    exact nomatch hd.digit? (by decide)

theorem integer?_minus (cs : List Char) :
    integer? ('-' :: cs) = (unsigned? cs).map fun n : Nat => -(n : Int) := rfl

theorem integer?_of_not_minus (h : '-' ∉ cs.head?) :
    integer? cs = (unsigned? cs).map fun n : Nat => (n : Int) := by
  have hplain : splitMinus cs = (false, cs) := by
    unfold splitMinus
    split
    · exact absurd rfl h
    · rfl
  unfold integer?
  rw [hplain]
  rfl

theorem integer?_eq_some_iff : integer? cs = some i ↔ Signed cs i := by
  constructor
  · intro h
    by_cases hminus : '-' ∈ cs.head?
    · obtain ⟨rest, rfl⟩ := List.head?_eq_some_iff.1 hminus
      rw [integer?_minus] at h
      obtain ⟨n, hn, rfl⟩ := Option.map_eq_some_iff.1 h
      exact .negative (unsigned?_eq_some_iff.1 hn)
    · rw [integer?_of_not_minus hminus] at h
      obtain ⟨n, hn, rfl⟩ := Option.map_eq_some_iff.1 h
      exact .plain (unsigned?_eq_some_iff.1 hn)
  · intro h
    cases h with
    | negative h =>
      rw [integer?_minus]
      exact Option.map_eq_some_iff.2 ⟨_, unsigned?_eq_some_iff.2 h, rfl⟩
    | plain h =>
      rw [integer?_of_not_minus h.not_minus]
      exact Option.map_eq_some_iff.2 ⟨_, unsigned?_eq_some_iff.2 h, rfl⟩

theorem splitRadix_le (cs : List Char) : (splitRadix cs).1 ≤ 16 := by
  unfold splitRadix
  split <;> simp

theorem word?_of_not_plus (greatest radix : Nat) (h : '+' ∉ cs.head?) :
    word? greatest radix cs = (natural? radix cs).filter (· ≤ greatest) := by
  unfold word?
  split
  · exact absurd rfl h
  · rfl

theorem IsDigit.not_sign (h : IsDigit radix c value) (hradix : radix ≤ 16) : isSign c = false := by
  obtain ⟨hlt, hc⟩ := h
  have hall : ∀ d < 16, isSign d.digitChar = false ∧ isSign d.digitChar.toUpper = false := by decide
  rcases hc with rfl | rfl
  · exact (hall value (by omega)).1
  · exact (hall value (by omega)).2

theorem natural?_sign (hradix : radix ≤ 16) (hc : isSign c = true) :
    natural? radix (c :: cs) = none := by
  refine Option.eq_none_iff_forall_ne_some.2 fun n hn => ?_
  obtain ⟨d, hd⟩ := ((natural?_eq_some_iff hradix).1 hn).isDigit List.mem_cons_self
  rw [hd.not_sign hradix] at hc
  cases hc

/-- A second sign is no digit, so nothing is lost where it is not let in. -/
theorem magnitude?_eq (hradix : radix ≤ 16) (digits : List Char) :
    magnitude? radix digits = (natural? radix digits).filter (· ≤ 0xFFFFFFFFFFFFFFFF) := by
  unfold magnitude?
  cases digits with
  | nil => rfl
  | cons c cs =>
    cases hc : isSign c with
    | true =>
      rw [if_pos (by simp [hc]), natural?_sign hradix hc]
      rfl
    | false =>
      have hplus : '+' ∉ (c :: cs).head? := by
        intro h
        obtain rfl := Option.some.inj h
        cases hc
      rw [if_neg (by simp [hc]), word?_of_not_plus _ _ hplus]

theorem Magnitude.not_blank (h : Magnitude cs n) : ∀ c ∈ cs, Text.isBlank c = false := by
  cases h with
  | decimal h =>
    intro c hc
    obtain ⟨d, hd⟩ := h.isDigit hc
    exact hd.not_blank (by decide)
  | hexadecimal hx h =>
    rintro c (_ | ⟨_, _ | ⟨_, hc⟩⟩)
    · rfl
    · rcases hx with rfl | rfl <;> rfl
    · obtain ⟨d, hd⟩ := h.isDigit hc
      exact hd.not_blank (by decide)

theorem Signed.not_blank (h : Signed cs i) : ∀ c ∈ cs, Text.isBlank c = false := by
  cases h with
  | plain h => exact h.not_blank
  | negative h =>
    rintro c (_ | ⟨_, hc⟩)
    · rfl
    · exact h.not_blank c hc

theorem denotes_iff {text : String} :
    Denotes text i ↔ integer? (Text.strip Text.isBlank text.toList) = some i := by
  rw [integer?_eq_some_iff]
  constructor
  · rintro ⟨before, core, after, htext, hbefore, hafter, hcore⟩
    rwa [htext, Text.strip_between hbefore hafter hcore.not_blank]
  · intro h
    obtain ⟨before, after, hbefore, hafter, htext⟩ := Text.exists_around_strip Text.isBlank text.toList
    exact ⟨before, _, after, htext, hbefore, hafter, h⟩

end Literal

namespace IntegerType

/-- A magnitude beyond 64 bits is in the range of no type, so the bound refuses no constant. -/
theorem literal?_eq (t : IntegerType) (text : String) :
    t.literal? text = (Literal.integer? (Text.strip Text.isBlank text.toList)).bind t.constant? := by
  unfold literal? Literal.integer? Literal.unsigned?
  dsimp only
  rw [Literal.magnitude?_eq (Literal.splitRadix_le _), Option.bind_map]
  cases Literal.natural? _ _ with
  | none => rfl
  | some n =>
    by_cases hn : n ≤ 0xFFFFFFFFFFFFFFFF
    · rw [Option.filter_some_pos (by simpa using hn)]
      exact ofMagnitude?_eq ..
    · rw [Option.filter_some_neg (by simpa using hn)]
      refine (constant?_eq_none fun hholds => hn ?_).symm
      have hbound := hholds.natAbs_le
      dsimp only at hbound
      split at hbound <;> omega

theorem literal?_eq_some_iff {t : IntegerType} {text : String} {c : Constant} :
    t.literal? text = some c ↔
      ∃ n, Literal.Denotes text n ∧ t.Holds n ∧ c.toInt = n ∧ c.isSigned = t.isSigned := by
  rw [literal?_eq, Option.bind_eq_some_iff]
  refine exists_congr fun n => ?_
  rw [Literal.denotes_iff, constant?_eq_some_iff]
  refine and_congr_right fun _ => ?_
  constructor
  · rintro ⟨hfits, rfl⟩
    exact ⟨hfits.holds, rfl, hfits.isSigned⟩
  · rintro ⟨hholds, rfl, hsign⟩
    exact ⟨⟨hsign, hholds⟩, rfl⟩

theorem isSome_literal? {t : IntegerType} {text : String} :
    (t.literal? text).isSome = true ↔ ∃ n, Literal.Denotes text n ∧ t.Holds n := by
  rw [literal?_eq, Option.isSome_bind, Option.any_eq_true]
  refine exists_congr fun n => ?_
  rw [Literal.denotes_iff, isSome_constant?]

/-- A text denotes at most one integer. It is a literal of a type exactly if it denotes an integer in the
range of the type, and it is read as the constant of the type with this value. -/
theorem literal?_exact (t : IntegerType) (text : String) :
    (∃ denoted : Option Int, ∀ n, Literal.Denotes text n ↔ denoted = some n) ∧
      ((t.literal? text).isSome = true ↔ ∃ n, Literal.Denotes text n ∧ t.Holds n) ∧
      ∀ c, t.literal? text = some c ↔
        ∃ n, Literal.Denotes text n ∧ t.Holds n ∧ c.toInt = n ∧ c.isSigned = t.isSigned :=
  ⟨⟨_, fun _ => Literal.denotes_iff⟩, isSome_literal?, fun _ => literal?_eq_some_iff⟩

/-- The least constant is reached from the negative side, and zero may have a minus. -/
example : int8.literal? " -0x0080\t" = some (.signed (-128)) ∧
    uint8.literal? "-00" = some (.unsigned 0) ∧ uint64.literal? "0x10000000000000000" = none := by
  decide

end IntegerType

end ComponentIdl
