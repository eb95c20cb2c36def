import ComponentIdl.Primitive
import ComponentIdl.Proofs.Hash.XxHash
import ComponentIdl.Proofs.Lists

/-!
# Signatures that differ in one component

The parameters of a signature are mixed into the hash of its name one after the other. The product with
the separator, an odd word, can be undone, and so can the sum with a marked parameter. So what is mixed
in afterwards, be it as long as it may, never makes two different hashes equal again.
-/

namespace ComponentIdl.Identity

/-- The word that undoes a product with `separator`. -/
def inverseSeparator : UInt64 := 0xd3f20f0a40208825

theorem separator_mul_inverseSeparator : separator * inverseSeparator = 1 := by decide

variable {hash hash' : UInt64} {position : Nat} {p q : Identity}

theorem mixParameter_hash_inj (h : mixParameter hash position p = mixParameter hash' position p) :
    hash = hash' := by
  have hproduct : hash * separator = hash' * separator := (UInt64.add_left_inj _).1 h
  rw [← Hash.mul_mul_cancel separator_mul_inverseSeparator hash, hproduct,
    Hash.mul_mul_cancel separator_mul_inverseSeparator]

theorem mixParameter_parameter_inj
    (h : mixParameter hash position p = mixParameter hash position q) : p = q := by
  have hmarked : marker position ^^^ p.bits = marker position ^^^ q.bits :=
    (UInt64.add_right_inj _).1 h
  cases p
  cases q
  exact congrArg Identity.mk ((UInt64.xor_right_inj _).1 hmarked)

theorem mixParameters_hash_inj {ps : List Identity}
    (h : mixParameters hash position ps = mixParameters hash' position ps) : hash = hash' := by
  induction ps generalizing hash hash' position with
  | nil => exact h
  | cons p ps ih => exact mixParameter_hash_inj (ih h)

theorem mixParameters_append (hash : UInt64) (position : Nat) (ps qs : List Identity) :
    mixParameters hash position (ps ++ qs) =
      mixParameters (mixParameters hash position ps) (position + ps.length) qs := by
  induction ps generalizing hash position with
  | nil => rfl
  | cons p ps ih =>
    rw [List.cons_append, mixParameters, ih, mixParameters, List.length_cons, Nat.add_assoc,
      Nat.add_comm 1]

/-- Parameters around a place leave what is mixed in there distinguishable. -/
theorem mixParameters_ne (hash : UInt64) (position : Nat) (before after : List Identity) (h : p ≠ q) :
    mixParameters hash position (before ++ p :: after) ≠
      mixParameters hash position (before ++ q :: after) := by
  rw [mixParameters_append, mixParameters_append, mixParameters, mixParameters]
  exact fun heq => h (mixParameter_parameter_inj (mixParameters_hash_inj heq))

/-- Two parameter lists of one length that differ at exactly one position give the same method name
different signatures, and two names of which the hashes differ give the same parameters different
signatures. -/
theorem ofSignature_separates :
    (∀ (name : String) (ps qs : List Identity), ps.length = qs.length → (∃! i : Nat, ps[i]? ≠ qs[i]?) →
      ofSignature name ps ≠ ofSignature name qs) ∧
    ∀ (name name' : String) (ps : List Identity), hashText name ≠ hashText name' →
      ofSignature name ps ≠ ofSignature name' ps := by
  constructor
  · intro name ps qs hlength hone heq
    obtain ⟨before, p, q, after, hne, rfl, rfl⟩ := exists_single_change hlength hone
    exact mixParameters_ne _ 0 before after hne (congrArg bits heq)
  · intro name name' ps hne heq
    have hstart : signatureDomain ^^^ hashText name = signatureDomain ^^^ hashText name' :=
      mixParameters_hash_inj (congrArg bits heq)
    exact hne ((UInt64.xor_right_inj _).1 hstart)

/-- Eighteen parameters, more than there are words to mark positions. -/
def manyParameters : List Identity := .replicate 18 Primitive.int32.identity

theorem ofSignature_separates_last :
    manyParameters.length = (manyParameters.set 17 Primitive.string.identity).length ∧
      ofSignature "Paint" manyParameters ≠
        ofSignature "Paint" (manyParameters.set 17 Primitive.string.identity) ∧
      hashText "Paint" ≠ hashText "Draw" ∧
      ofSignature "Paint" manyParameters ≠ ofSignature "Draw" manyParameters := by
  have hlength : manyParameters.length = (manyParameters.set 17 Primitive.string.identity).length :=
    List.length_set.symm
  have hone : ∃! i : Nat, manyParameters[i]? ≠ (manyParameters.set 17 Primitive.string.identity)[i]? :=
    ⟨17, by decide +kernel, fun j hj => by_contra fun hne => hj (List.getElem?_set_ne (Ne.symm hne)).symm⟩
  have hnames : hashText "Paint" ≠ hashText "Draw" := by decide +kernel
  exact ⟨hlength, ofSignature_separates.1 "Paint" _ _ hlength hone, hnames,
    ofSignature_separates.2 "Paint" "Draw" manyParameters hnames⟩

end ComponentIdl.Identity
