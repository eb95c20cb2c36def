import ComponentIdl.Integer

/-!
# Declarations as written

The tree a parser hands over: namespace blocks that hold type declarations and further blocks in
source order. Types are written by name; enum values and accessor kinds are written as text. Nothing
here is checked.
-/

namespace ComponentIdl

/-- How an argument is passed. -/
inductive Passing where
  | input
  | output
  | byRef
  | byConstRef
deriving DecidableEq

/-- Class modifiers. A static class may hold static members only. -/
structure Modifiers where
  isSealed : Bool := false
  isStatic : Bool := false
deriving DecidableEq

namespace Decl

structure Parameter where
  name : String
  line : Nat
  passing : Passing
  type : String

/-- A method; one without a result type returns nothing. -/
structure Method where
  name : String
  line : Nat
  isStatic : Bool
  result : Option String
  parameters : List Parameter

/-- The keyword of an accessor inside a property or event body. -/
inductive AccessorWord where
  | get
  | set
  | add
  | remove
  | other (keyword : String)
deriving DecidableEq

structure Accessor where
  word : AccessorWord
  line : Nat

/-- A property. Without a body it asks for both accessors; an empty body is not the same as none. -/
structure Property where
  name : String
  line : Nat
  isStatic : Bool
  type : String
  accessors : Option (List Accessor)

structure Event where
  name : String
  line : Nat
  isStatic : Bool
  type : String
  accessors : Option (List Accessor)

structure Constructor where
  line : Nat
  parameters : List Parameter

/-- A member of a class or interface body. -/
inductive Member where
  | method (m : Method)
  | property (p : Property)
  | event (e : Event)
  | constructor (c : Constructor)

structure Class where
  name : String
  line : Nat
  modifiers : Modifiers
  requires : List String
  members : List Member

structure Interface where
  name : String
  line : Nat
  requires : List String
  members : List Member

structure Field where
  name : String
  line : Nat
  type : String

structure Struct where
  name : String
  line : Nat
  fields : List Field

/-- An enum member with the text of its initializer, if it has one. -/
structure EnumMember where
  name : String
  line : Nat
  value : Option String

structure Enum where
  name : String
  line : Nat
  base : IntegerType
  members : List EnumMember

structure Delegate where
  name : String
  line : Nat
  result : Option String
  parameters : List Parameter

/-- A declaration of a type. -/
inductive TypeDecl where
  | classDecl (d : Class)
  | interfaceDecl (d : Interface)
  | structDecl (d : Struct)
  | enumDecl (d : Enum)
  | delegateDecl (d : Delegate)

def TypeDecl.name : TypeDecl → String
  | classDecl d => d.name
  | interfaceDecl d => d.name
  | structDecl d => d.name
  | enumDecl d => d.name
  | delegateDecl d => d.name

def TypeDecl.line : TypeDecl → Nat
  | classDecl d => d.line
  | interfaceDecl d => d.line
  | structDecl d => d.line
  | enumDecl d => d.line
  | delegateDecl d => d.line

/-- What a namespace block holds: a type, or a nested block of its own name and line. -/
inductive Item where
  | type (d : TypeDecl)
  | block (name : String) (line : Nat) (items : List Item)

/-- One namespace block; its name is dotted and relative to the block around it. -/
structure Block where
  name : String
  line : Nat
  items : List Item

def Block.typeNames (b : Block) : List String :=
  b.items.filterMap fun
    | .type d => some d.name
    | .block .. => none

def Block.nestedCount (b : Block) : Nat :=
  b.items.countP fun
    | .type _ => false
    | .block .. => true

/-- The root of a source file, with the number of syntax errors met on reading it. -/
structure Unit where
  blocks : List Block
  syntaxErrors : Nat

end Decl

end ComponentIdl
