import ComponentIdl.Identity
import ComponentIdl.Integer

/-!
# Built-in types

The fundamental types with their keywords and the codes that stand for them in metadata, and the
opaque object type, which has a keyword only.
-/

namespace ComponentIdl

/-- The fundamental types, in the order of their codes. -/
inductive Primitive where
  | boolean
  | char16
  | int8
  | uint8
  | int16
  | uint16
  | int32
  | uint32
  | int64
  | uint64
  | single
  | double
  | string
deriving DecidableEq

def opaqueKeyword : String := "Object"

namespace Primitive

def all : List Primitive :=
  [boolean, char16, int8, uint8, int16, uint16, int32, uint32, int64, uint64, single, double,
   string]

def keyword : Primitive → String
  | boolean => "Boolean"
  | char16 => "Char16"
  | int8 => "Int8"
  | uint8 => "UInt8"
  | int16 => "Int16"
  | uint16 => "UInt16"
  | int32 => "Int32"
  | uint32 => "UInt32"
  | int64 => "Int64"
  | uint64 => "UInt64"
  | single => "Single"
  | double => "Double"
  | string => "String"

def code : Primitive → Nat
  | boolean => 0x02
  | char16 => 0x03
  | int8 => 0x04
  | uint8 => 0x05
  | int16 => 0x06
  | uint16 => 0x07
  | int32 => 0x08
  | uint32 => 0x09
  | int64 => 0x0A
  | uint64 => 0x0B
  | single => 0x0C
  | double => 0x0D
  | string => 0x0E

def ofKeyword? (keyword : String) : Option Primitive :=
  all.find? fun p => p.keyword == keyword

def ofCode? (code : Nat) : Option Primitive :=
  all.find? fun p => p.code == code

theorem ofKeyword?_keyword (p : Primitive) : ofKeyword? p.keyword = some p := by
  cases p <;> decide

theorem ofCode?_code (p : Primitive) : ofCode? p.code = some p := by
  cases p <;> decide

/-- The integer type that a primitive is, if it is one. -/
def integerType? : Primitive → Option IntegerType
  | int8 => some .int8
  | uint8 => some .uint8
  | int16 => some .int16
  | uint16 => some .uint16
  | int32 => some .int32
  | uint32 => some .uint32
  | int64 => some .int64
  | uint64 => some .uint64
  | _ => none

def identity (p : Primitive) : Identity := Identity.ofName p.keyword

end Primitive

def IntegerType.primitive : IntegerType → Primitive
  | int8 => .int8
  | uint8 => .uint8
  | int16 => .int16
  | uint16 => .uint16
  | int32 => .int32
  | uint32 => .uint32
  | int64 => .int64
  | uint64 => .uint64

def IntegerType.keyword (t : IntegerType) : String := t.primitive.keyword

theorem Primitive.integerType?_eq_some_iff (p : Primitive) (t : IntegerType) :
    p.integerType? = some t ↔ p = t.primitive := by
  cases p <;> cases t <;> decide

end ComponentIdl
