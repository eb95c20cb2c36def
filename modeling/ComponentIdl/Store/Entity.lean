import ComponentIdl.DottedName
import ComponentIdl.Graph
import ComponentIdl.Store.Member

/-!
# Types of the store

Classes and interfaces, structs, enums and delegates. Each has a header that says what it is called
and where it comes from. Cycle states and enum values start unknown and are filled in by analyses.
-/

namespace ComponentIdl

/-- Name, namespace, line and assembly of a declaration. -/
structure Header where
  name : String
  /-- The dotted name of the namespace. -/
  scope : String
  line : Nat
  assembly : String
deriving DecidableEq

def Header.dottedName (h : Header) : String := (DottedName.within h.scope h.name).render

/-- The interfaces derived from a class. -/
structure Derived where
  default : Option ObjectId := none
  statics : Option ObjectId := none
  factory : Option ObjectId := none
deriving DecidableEq

/-- What only a class has. -/
structure ClassPart where
  modifiers : Modifiers
  constructors : List Constructor := []
  derived : Derived := {}
deriving DecidableEq

/-- A class or an interface; an interface has no class part. -/
structure ObjectType extends Header where
  classPart : Option ClassPart
  /-- The required interfaces in the order of declaration. -/
  requires : List Reference := []
  /-- The methods in the order of declaration, accessors included. -/
  methods : List Method := []
  properties : List Property := []
  events : List Event := []
  cycle : Circularity := .unknown
  /-- The class that an interface was derived from. -/
  derivedFrom : Option ObjectId := none
deriving DecidableEq

namespace ObjectType

def isClass (o : ObjectType) : Bool := o.classPart.isSome

def isInterface (o : ObjectType) : Bool := o.classPart.isNone

theorem isInterface_eq (o : ObjectType) : o.isInterface = !o.isClass := by
  unfold isInterface isClass
  cases o.classPart <;> rfl

def isStaticClass (o : ObjectType) : Bool :=
  o.classPart.any fun c => c.modifiers.isStatic

def constructors (o : ObjectType) : List Constructor :=
  match o.classPart with
  | some c => c.constructors
  | none => []

/-- The object with a method at the end of its list; its position is the former length. -/
def pushMethod (o : ObjectType) (m : Method) : ObjectType :=
  { o with methods := o.methods ++ [m] }

/-- A class with one more constructor; an interface takes none. -/
def pushConstructor (o : ObjectType) (c : Constructor) : ObjectType :=
  { o with classPart := o.classPart.map fun p => { p with constructors := p.constructors ++ [c] } }

/-- The property of a name, with its position. -/
def property? (o : ObjectType) (name : String) : Option (Property × Nat) :=
  o.properties.zipIdx.find? fun p => p.1.name == name

/-- The event of a name, with its position. -/
def event? (o : ObjectType) (name : String) : Option (Event × Nat) :=
  o.events.zipIdx.find? fun e => e.1.name == name

def writtenMethods (o : ObjectType) : List (Method × Nat) :=
  o.methods.zipIdx.filter fun m => m.1.isWritten

def bases (o : ObjectType) : List ObjectId :=
  o.requires.filterMap Reference.interface?

def references (o : ObjectType) : List Reference :=
  o.methods.flatMap Method.references ++ o.properties.map Property.type ++
    o.events.map Event.type ++
    o.constructors.flatMap fun c => c.parameters.map Parameter.type

end ObjectType

structure StructType extends Header where
  fields : List Field := []
  cycle : Circularity := .unknown
deriving DecidableEq

namespace StructType

def hasFieldNamed (s : StructType) (name : String) : Bool :=
  s.fields.any fun f => f.name == name

def parts (s : StructType) : List StructId :=
  s.fields.filterMap fun f => f.type.struct?

end StructType

/-- How the value of an enum member is given, or the value itself. -/
inductive ValueState where
  /-- No initializer: zero at first, else one more than the member before. -/
  | implicit
  /-- The text of a literal. -/
  | literal (text : String)
  /-- The name of a member of the same enum. -/
  | reference (name : String)
  | known (value : Constant)
deriving DecidableEq

def ValueState.constant? : ValueState → Option Constant
  | .known value => some value
  | _ => none

structure EnumMember where
  name : String
  line : Nat
  value : ValueState
deriving DecidableEq

structure EnumType extends Header where
  base : IntegerType
  members : Array EnumMember := #[]
deriving DecidableEq

namespace EnumType

def memberIndex? (e : EnumType) (name : String) : Option Nat :=
  e.members.findIdx? fun m => m.name == name

/-- The value of the named member, once it is known. -/
def valueOf? (e : EnumType) (name : String) : Option Constant :=
  (e.memberIndex? name).bind fun i => (e.members[i]?).bind fun m => m.value.constant?

def isComplete (e : EnumType) : Bool :=
  e.members.all fun m => m.value.constant?.isSome

end EnumType

structure DelegateType extends Header where
  result : Option Reference := none
  parameters : List Parameter := []
deriving DecidableEq

/-- The references of a delegate: its result, then its parameters. -/
def DelegateType.references (d : DelegateType) : List Reference :=
  d.result.toList ++ d.parameters.map Parameter.type

end ComponentIdl
