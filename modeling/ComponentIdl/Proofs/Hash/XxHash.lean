import Mathlib.Data.Nat.Digits.Defs
import ComponentIdl.Hash.XxHash

/-!
# The steps of the hash undone

A rotation, the product with an odd word, and the sum modulo two of a word and its own shift are all
one to one on the words of 64 bits. So is each step that ends the hash, and an undoing function is given
for each. Five bytes are hashed as half a lane and one byte more; their hash and the last byte tell the
half lane.
-/

namespace ComponentIdl.Hash

theorem xor_xor_cancel_left (a b : UInt64) : a ^^^ (a ^^^ b) = b := by
  rw [← UInt64.xor_assoc, UInt64.xor_self, UInt64.zero_xor]

theorem xor_xor_cancel_right (a b : UInt64) : a ^^^ b ^^^ b = a := by
  rw [UInt64.xor_assoc, UInt64.xor_self, UInt64.xor_zero]

theorem mul_mul_cancel {m n : UInt64} (h : m * n = 1) (x : UInt64) : x * m * n = x := by
  rw [UInt64.mul_assoc, h, UInt64.mul_one]

theorem toBitVec_rotateLeft (x : UInt64) {r : UInt64} (hpos : 0 < r.toNat) (hlt : r.toNat < 64) :
    (rotateLeft x r).toBitVec = x.toBitVec.rotateLeft r.toNat := by
  have hle : r ≤ 64 := UInt64.le_iff_toNat_le.2 (Nat.le_of_lt hlt)
  have hrest : (64 - r).toNat = 64 - r.toNat := UInt64.toNat_sub_of_le 64 r hle
  have hleft : r.toNat % 64 = r.toNat := Nat.mod_eq_of_lt hlt
  have hright : (64 - r.toNat) % 64 = 64 - r.toNat := Nat.mod_eq_of_lt (by omega)
  show x.toBitVec <<< (r.toNat % 64) ||| x.toBitVec >>> ((64 - r).toNat % 64) = _
  rw [BitVec.rotateLeft_def, hrest, hleft, hright]

/-- Two rotations by 64 bits together bring every bit back to its place. -/
theorem rotateLeft_rotateLeft (x : UInt64) {r s : UInt64} (hr : 0 < r.toNat) (hs : 0 < s.toNat)
    (hsum : r.toNat + s.toNat = 64) : rotateLeft (rotateLeft x r) s = x := by
  rw [← UInt64.toBitVec_inj, toBitVec_rotateLeft _ hs (by omega), toBitVec_rotateLeft _ hr (by omega)]
  apply BitVec.eq_of_getLsbD_eq
  intro i hi
  have hrmod : r.toNat % 64 = r.toNat := Nat.mod_eq_of_lt (by omega)
  have hsmod : s.toNat % 64 = s.toNat := Nat.mod_eq_of_lt (by omega)
  rw [BitVec.getLsbD_rotateLeft, BitVec.getLsbD_rotateLeft, BitVec.getLsbD_rotateLeft, hrmod, hsmod]
  by_cases his : i < s.toNat
  · have hback : ¬ 64 - s.toNat + i < r.toNat := by omega
    have hplace : 64 - s.toNat + i - r.toNat = i := by omega
    have hbound : 64 - s.toNat + i < 64 := by omega
    simp [his, hback, hplace, hbound]
  · have hback : i - s.toNat < r.toNat := by omega
    have hplace : 64 - r.toNat + (i - s.toNat) = i := by omega
    simp [his, hback, hplace, hi]

/-- Undoes the sum modulo two of a word and its shift by at least a third of its bits. -/
def undoShift (k y : UInt64) : UInt64 := y ^^^ (y >>> k ^^^ y >>> k >>> k)

theorem shiftRight_thrice {k : UInt64} (hk : k.toNat < 64) (hthird : 64 ≤ 3 * k.toNat) (x : UInt64) :
    x >>> k >>> k >>> k = 0 := by
  have hmod : k.toNat % 64 = k.toNat := Nat.mod_eq_of_lt hk
  have hlt : x.toNat < 2 ^ (3 * k.toNat) :=
    Nat.lt_of_lt_of_le x.toNat_lt (Nat.pow_le_pow_right (by decide) hthird)
  apply UInt64.toNat_inj.1
  rw [UInt64.toNat_shiftRight, UInt64.toNat_shiftRight, UInt64.toNat_shiftRight, hmod,
    ← Nat.shiftRight_add, ← Nat.shiftRight_add, Nat.shiftRight_eq_div_pow]
  exact Nat.div_eq_of_lt (by convert hlt using 2; omega)

theorem undoShift_xor_shiftRight {k : UInt64} (hk : k.toNat < 64) (hthird : 64 ≤ 3 * k.toNat)
    (x : UInt64) : undoShift k (x ^^^ x >>> k) = x := by
  have hsum : (x ^^^ x >>> k) >>> k ^^^ (x ^^^ x >>> k) >>> k >>> k = x >>> k := by
    rw [UInt64.shiftRight_xor, UInt64.shiftRight_xor, shiftRight_thrice hk hthird, UInt64.xor_zero,
      xor_xor_cancel_right]
  unfold undoShift
  rw [hsum, xor_xor_cancel_right]

def inverse1 : UInt64 := 0x0887493432BADB37
def inverse2 : UInt64 := 0x0BA79078168D4BAF
def inverse3 : UInt64 := 0xE9E9F4C41D6DF849

theorem prime1_mul_inverse1 : prime1 * inverse1 = 1 := by decide
theorem prime2_mul_inverse2 : prime2 * inverse2 = 1 := by decide
theorem prime3_mul_inverse3 : prime3 * inverse3 = 1 := by decide

def undoAvalanche (hash : UInt64) : UInt64 :=
  let h2 := undoShift 32 hash
  let h1 := undoShift 29 (h2 * inverse3)
  undoShift 33 (h1 * inverse2)

theorem undoAvalanche_avalanche (hash : UInt64) : undoAvalanche (avalanche hash) = hash := by
  unfold undoAvalanche avalanche
  dsimp only
  rw [undoShift_xor_shiftRight (by decide) (by decide), mul_mul_cancel prime3_mul_inverse3,
    undoShift_xor_shiftRight (by decide) (by decide), mul_mul_cancel prime2_mul_inverse2,
    undoShift_xor_shiftRight (by decide) (by decide)]

/-- The hash before a byte was absorbed. -/
def undoByte (byte : UInt8) (hash : UInt64) : UInt64 :=
  rotateLeft (hash * inverse1) 53 ^^^ (byte.toUInt64 * prime5)

theorem undoByte_absorbByte (hash : UInt64) (byte : UInt8) :
    undoByte byte (absorbByte hash byte) = hash := by
  unfold undoByte absorbByte
  rw [mul_mul_cancel prime1_mul_inverse1,
    rotateLeft_rotateLeft _ (by decide) (by decide) (by decide), xor_xor_cancel_right]

/-- The half lane that a hash has absorbed to become another. -/
def halfBetween (start hash : UInt64) : UInt64 :=
  (start ^^^ rotateLeft ((hash - prime3) * inverse2) 41) * inverse1

theorem halfBetween_absorbHalf (hash half : UInt64) :
    halfBetween hash (absorbHalf hash half) = half := by
  unfold halfBetween absorbHalf
  rw [UInt64.add_sub_cancel, mul_mul_cancel prime2_mul_inverse2,
    rotateLeft_rotateLeft _ (by decide) (by decide) (by decide), xor_xor_cancel_left,
    mul_mul_cancel prime1_mul_inverse1]

/-- The number of a few bytes is that of their digits to the base 256. -/
theorem ofLittleEndian_eq (bytes : List UInt8) :
    ofLittleEndian bytes = UInt64.ofNat (Nat.ofDigits 256 (bytes.map UInt8.toNat)) := by
  induction bytes with
  | nil => rfl
  | cons b bytes ih =>
    have hshift : ofLittleEndian bytes <<< 8 = 256 * ofLittleEndian bytes := by
      apply UInt64.toNat_inj.1
      rw [UInt64.toNat_shiftLeft, UInt64.toNat_mul, Nat.shiftLeft_eq, Nat.mul_comm]
      rfl
    show b.toUInt64 + ofLittleEndian bytes <<< 8 = _
    rw [hshift, ih, List.map_cons, Nat.ofDigits_cons]
    simp

/-- The hash of five bytes, by the word of the first four. -/
def hashFive (half : UInt64) (last : UInt8) : UInt64 :=
  avalanche (absorbByte (absorbHalf (prime5 + 5) half) last)

theorem xxHash64_five (a b c d e : UInt8) :
    xxHash64 [a, b, c, d, e] = hashFive (ofLittleEndian [a, b, c, d]) e := rfl

/-- The word of the first four bytes, told by the hash and the last byte. -/
def halfOfFive (last : UInt8) (hash : UInt64) : UInt64 :=
  halfBetween (prime5 + 5) (undoByte last (undoAvalanche hash))

theorem halfOfFive_hashFive (half : UInt64) (last : UInt8) :
    halfOfFive last (hashFive half last) = half := by
  unfold halfOfFive hashFive
  rw [undoAvalanche_avalanche, undoByte_absorbByte, halfBetween_absorbHalf]

end ComponentIdl.Hash
