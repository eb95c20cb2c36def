import ComponentIdl.Text.Blank

/-!
# Integer types, their constants and literals

An enum takes its values from one of eight integer types. A literal has a sign, a radix and a magnitude
of at most 64 bits. It is a constant of a type if the magnitude with the sign lies in the range of the
type.
-/

namespace ComponentIdl

/-- The integer types by width and signedness. -/
inductive IntegerType where
  | int8
  | uint8
  | int16
  | uint16
  | int32
  | uint32
  | int64
  | uint64
deriving DecidableEq

/-- A value of an integer type, marked with the signedness of its type. -/
inductive Constant where
  | signed (value : Int)
  | unsigned (value : Nat)
deriving DecidableEq

def Constant.render : Constant → String
  | .signed v => toString v
  | .unsigned v => toString v

namespace IntegerType

def isSigned : IntegerType → Bool
  | int8 | int16 | int32 | int64 => true
  | uint8 | uint16 | uint32 | uint64 => false

/-- The greatest signed constant; an unsigned type has the range of 64 bits. -/
def greatestSigned : IntegerType → Int
  | int8 => 0x7F
  | int16 => 0x7FFF
  | int32 => 0x7FFFFFFF
  | _ => 0x7FFFFFFFFFFFFFFF

/-- The greatest unsigned constant; a signed type has the range of 64 bits. -/
def greatestUnsigned : IntegerType → Nat
  | uint8 => 0xFF
  | uint16 => 0xFFFF
  | uint32 => 0xFFFFFFFF
  | _ => 0xFFFFFFFFFFFFFFFF

def leastSigned (t : IntegerType) : Int := -t.greatestSigned - 1

def zero (t : IntegerType) : Constant :=
  if t.isSigned then .signed 0 else .unsigned 0

/-- The constant with a sign and a magnitude, if it is in the range of the type. -/
def ofMagnitude? (t : IntegerType) (isNegative : Bool) (magnitude : Nat) : Option Constant :=
  if t.isSigned then
    let value : Int := if isNegative then -magnitude else magnitude
    if value < t.leastSigned ∨ t.greatestSigned < value then none else some (.signed value)
  else if isNegative ∧ magnitude ≠ 0 then none
  else if magnitude ≤ t.greatestUnsigned then some (.unsigned magnitude) else none

/-- The constant that follows, if it is not beyond the greatest of its signedness. -/
def next? (t : IntegerType) : Constant → Option Constant
  | .signed v => if v + 1 ≤ t.greatestSigned then some (.signed (v + 1)) else none
  | .unsigned v => if v + 1 ≤ t.greatestUnsigned then some (.unsigned (v + 1)) else none

end IntegerType

namespace Literal

/-- The value of a digit, for radix up to sixteen; capitals and small letters count alike. -/
def digit? (radix : Nat) (c : Char) : Option Nat :=
  let value :=
    if '0' ≤ c ∧ c ≤ '9' then c.toNat - '0'.toNat
    else if 'a' ≤ c ∧ c ≤ 'f' then c.toNat - 'a'.toNat + 10
    else if 'A' ≤ c ∧ c ≤ 'F' then c.toNat - 'A'.toNat + 10
    else radix
  if value < radix then some value else none

/-- The digits read after the number `value`, most significant first. -/
def digitsAfter? (radix value : Nat) : List Char → Option Nat
  | [] => some value
  | c :: cs => (digit? radix c).bind fun d => digitsAfter? radix (value * radix + d) cs

def natural? (radix : Nat) (cs : List Char) : Option Nat :=
  if cs.isEmpty then none else digitsAfter? radix 0 cs

/-- The number that is read into an unsigned machine word with the given greatest value: digits, after a
plus or none. -/
def word? (greatest radix : Nat) : List Char → Option Nat
  | '+' :: cs => (natural? radix cs).filter (· ≤ greatest)
  | cs => (natural? radix cs).filter (· ≤ greatest)

/-- Whether a minus comes first, and what follows it. -/
def splitMinus : List Char → Bool × List Char
  | '-' :: cs => (true, cs)
  | cs => (false, cs)

/-- The radix, which is sixteen after `0x` or `0X` and ten otherwise, and the digits. -/
def splitRadix : List Char → Nat × List Char
  | '0' :: 'x' :: cs => (16, cs)
  | '0' :: 'X' :: cs => (16, cs)
  | cs => (10, cs)

def isSign (c : Char) : Bool := c == '+' || c == '-'

/-- The digits of a magnitude of 64 bits. A second sign is not for them to begin with. -/
def magnitude? (radix : Nat) (digits : List Char) : Option Nat :=
  if digits.isEmpty || digits.head?.any isSign then none
  else word? 0xFFFFFFFFFFFFFFFF radix digits

end Literal

/-- The constant written by a literal, blanks around it aside. -/
def IntegerType.literal? (t : IntegerType) (text : String) : Option Constant :=
  let (isNegative, unsigned) := Literal.splitMinus (Text.strip Text.isBlank text.toList)
  let (radix, digits) := Literal.splitRadix unsigned
  (Literal.magnitude? radix digits).bind (t.ofMagnitude? isNegative)

end ComponentIdl
