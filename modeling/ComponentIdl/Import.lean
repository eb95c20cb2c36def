import ComponentIdl.Primitive

/-!
# Imported types

A declaration known from metadata. It can be named and required, but nothing of what it holds is
known; of an enum the type under it may be.
-/

namespace ComponentIdl

/-- The kinds of imported declarations. -/
inductive ImportKind where
  | runtimeClass
  | interface
  | struct
  | enum
  | delegate
deriving DecidableEq

namespace ImportKind

def keyword : ImportKind → String
  | runtimeClass => "class"
  | interface => "interface"
  | struct => "struct"
  | enum => "enum"
  | delegate => "delegate"

/-- Reads a keyword; `runtimeclass` is a second keyword for classes. -/
def ofKeyword? : String → Option ImportKind
  | "class" => some runtimeClass
  | "runtimeclass" => some runtimeClass
  | "interface" => some interface
  | "struct" => some struct
  | "enum" => some enum
  | "delegate" => some delegate
  | _ => none

end ImportKind

/-- An imported declaration under its dotted name. -/
structure Import where
  name : String
  kind : ImportKind
  underlying : Option IntegerType
  source : String
deriving DecidableEq

end ComponentIdl
