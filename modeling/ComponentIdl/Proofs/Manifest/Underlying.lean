import ComponentIdl.Proofs.Literal
import ComponentIdl.Proofs.Manifest

/-!
# The type under an enum

The third column of a manifest line is meant to be the keyword of an integer type, or `0x` and the
hexadecimal digits of its element code. Both forms are read as the type they name, and a plus sign
between `0x` and the digits is passed over, so there is a third form. No other text is read.
-/

namespace ComponentIdl

theorem Primitive.ofKeyword?_eq_some_iff {keyword : String} {p : Primitive} :
    ofKeyword? keyword = some p ↔ keyword = p.keyword := by
  constructor
  · intro h
    have hfound := List.find?_some h
    exact (beq_iff_eq.1 hfound).symm
  · rintro rfl
    exact ofKeyword?_keyword p

theorem Primitive.ofCode?_eq_some_iff {code : Nat} {p : Primitive} :
    ofCode? code = some p ↔ code = p.code := by
  constructor
  · intro h
    have hfound := List.find?_some h
    exact (beq_iff_eq.1 hfound).symm
  · rintro rfl
    exact ofCode?_code p

namespace Manifest

/-- The text names the integer type: it is the keyword, or `0x` and hexadecimal digits, at least one,
that stand for the element code. -/
inductive Names (text : String) (base : IntegerType) : Prop where
  | keyword (h : text = base.keyword)
  | code {digits : List Char} (htext : text.toList = '0' :: 'x' :: digits)
      (hdigits : Literal.Positional 16 digits base.primitive.code)

/-- The text is `0x`, a plus sign and hexadecimal digits that stand for the element code. -/
def NamesWithPlus (text : String) (base : IntegerType) : Prop :=
  ∃ digits, text.toList = '0' :: 'x' :: '+' :: digits ∧
    Literal.Positional 16 digits base.primitive.code

variable {text : String} {base : IntegerType} {cs : List Char} {n : Nat}

theorem not_positional_plus (digits : List Char) : ¬ Literal.Positional 16 ('+' :: digits) n := by
  intro h
  obtain ⟨d, hd⟩ := h.isDigit List.mem_cons_self
  exact nomatch hd.digit? (by decide)

theorem filter_natural?_eq_some_iff (greatest : Nat) :
    (Literal.natural? 16 cs).filter (· ≤ greatest) = some n ↔
      Literal.Positional 16 cs n ∧ n ≤ greatest := by
  rw [Option.filter_eq_some_iff, Literal.natural?_eq_some_iff (by decide), decide_eq_true_iff]

theorem code?_eq_some_iff : code? cs = some n ↔ n ≤ 0xFF ∧
    (Literal.Positional 16 cs n ∨ ∃ digits, cs = '+' :: digits ∧ Literal.Positional 16 digits n) := by
  by_cases hplus : '+' ∈ cs.head?
  · obtain ⟨digits, rfl⟩ := List.head?_eq_some_iff.1 hplus
    have hread : code? ('+' :: digits) = (Literal.natural? 16 digits).filter (· ≤ 0xFF) := rfl
    rw [hread, filter_natural?_eq_some_iff, and_comm]
    refine and_congr_right fun _ => ?_
    constructor
    · exact fun h => Or.inr ⟨digits, rfl, h⟩
    · rintro (h | ⟨digits', heq, h⟩)
      · exact absurd h (not_positional_plus digits)
      · rwa [(List.cons.inj heq).2]
  · rw [code?, Literal.word?_of_not_plus _ _ hplus, filter_natural?_eq_some_iff, and_comm]
    refine and_congr_right fun _ => ?_
    constructor
    · exact Or.inl
    · rintro (h | ⟨digits, rfl, -⟩)
      · exact h
      · exact absurd rfl hplus

/-- Every element code is a byte. -/
theorem code_le (p : Primitive) : p.code ≤ 0xFF := by cases p <;> decide

theorem primitive?_code {code : List Char} (h : text.toList = '0' :: 'x' :: code) :
    primitive? text = (code? code).bind Primitive.ofCode? := by
  unfold primitive?
  rw [h]
  rfl

theorem primitive?_keyword (h : ∀ code, text.toList ≠ '0' :: 'x' :: code) :
    primitive? text = Primitive.ofKeyword? text := by
  unfold primitive?
  split
  · next code hcode => exact absurd hcode (h code)
  · rfl

theorem underlying?_eq_primitive? : underlying? text = some base ↔
    primitive? text = some base.primitive := by
  unfold underlying?
  rw [Option.bind_eq_some_iff]
  simp only [Primitive.integerType?_eq_some_iff]
  constructor
  · rintro ⟨p, hp, rfl⟩
    exact hp
  · exact fun h => ⟨_, h, rfl⟩

theorem keyword_ne_code (base : IntegerType) (code : List Char) :
    base.keyword.toList ≠ '0' :: 'x' :: code := by
  have hhead : base.keyword.toList.head? ≠ some '0' := by cases base <;> decide
  intro h
  exact hhead (by rw [h]; rfl)

theorem names_of_code (h : text.toList = '0' :: 'x' :: cs) :
    Names text base ↔ Literal.Positional 16 cs base.primitive.code := by
  constructor
  · rintro (rfl | ⟨htext, hdigits⟩)
    · exact absurd h (keyword_ne_code base cs)
    · rw [h, List.cons.injEq, List.cons.injEq] at htext
      rwa [htext.2.2]
  · exact .code h

theorem namesWithPlus_of_code (h : text.toList = '0' :: 'x' :: cs) :
    NamesWithPlus text base ↔
      ∃ digits, cs = '+' :: digits ∧ Literal.Positional 16 digits base.primitive.code := by
  unfold NamesWithPlus
  simp only [h, List.cons.injEq, true_and]

theorem names_of_keyword (h : ∀ code, text.toList ≠ '0' :: 'x' :: code) :
    Names text base ↔ text = base.keyword := by
  constructor
  · rintro (hkeyword | ⟨htext, -⟩)
    · exact hkeyword
    · exact absurd htext (h _)
  · exact .keyword

theorem underlying?_eq_some_iff :
    underlying? text = some base ↔ Names text base ∨ NamesWithPlus text base := by
  rw [underlying?_eq_primitive?]
  by_cases hcode : ∃ code, text.toList = '0' :: 'x' :: code
  · obtain ⟨code, hcode⟩ := hcode
    rw [primitive?_code hcode, names_of_code hcode, namesWithPlus_of_code hcode,
      Option.bind_eq_some_iff]
    simp only [Primitive.ofCode?_eq_some_iff, code?_eq_some_iff]
    constructor
    · rintro ⟨n, ⟨-, hn⟩, rfl⟩
      exact hn
    · exact fun h => ⟨_, ⟨code_le _, h⟩, rfl⟩
  · have hkeyword := not_exists.1 hcode
    have hplus : ¬ NamesWithPlus text base := fun ⟨digits, htext, _⟩ => hkeyword _ htext
    rw [primitive?_keyword hkeyword, Primitive.ofKeyword?_eq_some_iff, names_of_keyword hkeyword,
      or_iff_left hplus]
    rfl

/-- A text is read as an integer type exactly if it names the type by its keyword or by its element
code, with or without a plus sign before the digits. Unless it begins with `0x+`, it is read exactly if
it names a type. -/
theorem underlying?_forms (text : String) :
    (∀ base, underlying? text = some base ↔ Names text base ∨ NamesWithPlus text base) ∧
      ((∀ digits, text.toList ≠ '0' :: 'x' :: '+' :: digits) →
        ∀ base, underlying? text = some base ↔ Names text base) := by
  refine ⟨fun base => underlying?_eq_some_iff, fun hplain base => ?_⟩
  have hplus : ¬ NamesWithPlus text base := fun ⟨digits, htext, _⟩ => hplain digits htext
  rw [underlying?_eq_some_iff, or_iff_left hplus]

/-- A code with a leading zero and a capital letter, which names the integers of 64 bits. -/
theorem underlying?_forms_capital :
    (∀ digits, "0x00A".toList ≠ '0' :: 'x' :: '+' :: digits) ∧ Names "0x00A" .int64 ∧
      underlying? "0x00A" = some .int64 := by
  have hplain : ∀ digits, "0x00A".toList ≠ '0' :: 'x' :: '+' :: digits := by simp
  have hdigits : Literal.Positional 16 ['0', '0', 'A'] 0x0A :=
    (Literal.natural?_eq_some_iff (by decide)).1 (by decide)
  have hnames : Names "0x00A" .int64 := .code rfl hdigits
  exact ⟨hplain, hnames, ((underlying?_forms _).2 hplain _).2 hnames⟩

/-- A code with a plus sign is read, but names no integer type. -/
theorem signed_code_read :
    underlying? "0x+9" = some .uint32 ∧ ∀ base, ¬ Names "0x+9" base := by
  refine ⟨by decide, fun base h => ?_⟩
  exact not_positional_plus ['9'] ((names_of_code rfl).1 h)

end Manifest

end ComponentIdl
