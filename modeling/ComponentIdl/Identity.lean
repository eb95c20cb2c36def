import ComponentIdl.Hash.XxHash

/-!
# Identities

A type has a 64-bit identity: that of its name for a built-in type or an unbound reference, that
of its kind and slot for a declaration. A method signature has one too, mixed from the name and the
ordered identities of the parameter types. Three domain words keep the three uses apart.
-/

namespace ComponentIdl

/-- The 64-bit identity of a type or of a method signature. -/
structure Identity where
  bits : UInt64
deriving DecidableEq

namespace Identity

def nameDomain : UInt64 := 0x2fac10b63a6cc57c
def slotDomain : UInt64 := 0x9a7f3d5e2b8c4601
def signatureDomain : UInt64 := 0x7d3c8b4a92e15f6d

def separator : UInt64 := 0x4bc94d6bd06053ad

/-- The words that mark the first sixteen parameter positions. -/
def markers : List UInt64 :=
  [0x9e3779b97f4a7c15, 0xbf58476d1ce4e5b9, 0x94d049bb133111eb, 0xd6e8feb86659fd93,
   0xe7037ed1a0b428db, 0xc6a4a7935bd1e995, 0x8648dbbc94d49b8d, 0xa2b48b2c69e0d657,
   0x7c3e9f2a5b8d1403, 0x5d8c7b4a3e9f2106, 0x3f1e9d8c7b5a4203, 0x1a2b3c4d5e6f7089,
   0x9f8e7d6c5b4a3210, 0x2468ace013579bdf, 0xfdb97531eca86420, 0x123456789abcdef0]

/-- The mark of a parameter position; from the seventeenth on it counts up from the first mark. -/
def marker (position : Nat) : UInt64 :=
  markers[position]?.getD (0x9e3779b97f4a7c15 + UInt64.ofNat position)

def hashText (text : String) : UInt64 := Hash.xxHash64 text.toUTF8.data.toList

def ofName (name : String) : Identity := ⟨nameDomain ^^^ hashText name⟩

/-- The four bytes of a slot, least significant first. Slots are words of 32 bits. -/
def slotBytes (slot : Nat) : List UInt8 :=
  let word := UInt32.ofNat slot
  [word.toUInt8, (word >>> 8).toUInt8, (word >>> 16).toUInt8, (word >>> 24).toUInt8]

/-- The identity of the declaration of the given kind in the given slot. -/
def ofSlot (kind : UInt8) (slot : Nat) : Identity :=
  ⟨slotDomain ^^^ Hash.xxHash64 (kind :: slotBytes slot)⟩

def mixParameter (hash : UInt64) (position : Nat) (parameter : Identity) : UInt64 :=
  hash * separator + (marker position ^^^ parameter.bits)

/-- The parameters from `position` on are mixed in one after the other. -/
def mixParameters (hash : UInt64) (position : Nat) : List Identity → UInt64
  | [] => hash
  | p :: ps => mixParameters (mixParameter hash position p) (position + 1) ps

/-- The identity of a method signature. The return type takes no part in it. -/
def ofSignature (name : String) (parameters : List Identity) : Identity :=
  ⟨mixParameters (signatureDomain ^^^ hashText name) 0 parameters⟩

def isEmpty (i : Identity) : Bool := i.bits == 0

/-- The hexadecimal digits of a number, at least `width` of them. -/
def hexDigits (width n : Nat) : List Char :=
  let digits := Nat.toDigits 16 n
  List.replicate (width - digits.length) '0' ++ digits

/-- The written form: sixteen hexadecimal digits after `0x`. -/
def render (i : Identity) : String := "0x" ++ String.ofList (hexDigits 16 i.bits.toNat)

def describe (i : Identity) : String := "TypeHash(" ++ i.render ++ ")"

end Identity

end ComponentIdl
