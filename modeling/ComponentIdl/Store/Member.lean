import ComponentIdl.Decl
import ComponentIdl.Reference

/-!
# Members of classes and interfaces

Methods, properties and events. A property or event owns no code of its own: its accessors are
methods in the method list of its owner, and the property or event holds their positions there.
-/

namespace ComponentIdl

/-- The dotted name of the type of the tokens that event adders return. -/
def registrationToken : String := "Foundation.EventRegistrationToken"

/-- The two accessors of a property. -/
inductive PropertyRole where
  | get
  | set
deriving DecidableEq

/-- The two accessors of an event. -/
inductive EventRole where
  | add
  | remove
deriving DecidableEq

/-- The name of the method that serves the role for the property `name`. -/
def PropertyRole.methodName (name : String) : PropertyRole → String
  | get => "get_" ++ name
  | set => "put_" ++ name

/-- The name of the method that serves the role for the event `name`. -/
def EventRole.methodName (name : String) : EventRole → String
  | add => "add_" ++ name
  | remove => "remove_" ++ name

/-- A member of a class or interface by its position in the list that holds members of its sort. -/
structure MemberLink where
  owner : ObjectId
  index : Nat
deriving DecidableEq

structure Parameter where
  name : String
  line : Nat
  passing : Passing
  type : Reference
deriving DecidableEq

/-- Whether a method was written, or made for a property or an event. -/
inductive MethodOrigin where
  | written
  | property
  | event
deriving DecidableEq

structure Method where
  name : String
  line : Nat
  isStatic : Bool
  origin : MethodOrigin
  result : Option Reference
  parameters : List Parameter
  /-- The method of an interface that this one stands for. -/
  overrides : Option MemberLink
deriving DecidableEq

namespace Method

def isWritten (m : Method) : Bool := m.origin == .written

/-- The identity of name and parameter types; return types do not tell methods apart. -/
def signature (m : Method) : Identity :=
  Identity.ofSignature m.name (m.parameters.map fun p => p.type.identity)

/-- The references of a method: its result, then its parameters. -/
def references (m : Method) : List Reference :=
  m.result.toList ++ m.parameters.map Parameter.type

end Method

structure Property where
  name : String
  line : Nat
  isStatic : Bool
  type : Reference
  getter : Option Nat
  setter : Option Nat
  overrides : Option MemberLink
deriving DecidableEq

namespace Property

def position? (p : Property) : PropertyRole → Option Nat
  | .get => p.getter
  | .set => p.setter

def has (p : Property) (role : PropertyRole) : Bool := (p.position? role).isSome

def setPosition (p : Property) (position : Nat) : PropertyRole → Property
  | .get => { p with getter := some position }
  | .set => { p with setter := some position }

/-- The method that serves a role, declared at `line`: a getter returns the value, a setter takes
it. -/
def accessor (p : Property) (role : PropertyRole) (line : Nat) : Method where
  name := role.methodName p.name
  line := line
  isStatic := p.isStatic
  origin := .property
  result := match role with
    | .get => some p.type
    | .set => none
  parameters := match role with
    | .get => []
    | .set => [{ name := "value", line, passing := .input, type := p.type }]
  overrides := none

end Property

/-- An event; both of its accessors always exist. -/
structure Event where
  name : String
  line : Nat
  isStatic : Bool
  type : Reference
  adder : Nat
  remover : Nat
  overrides : Option MemberLink
deriving DecidableEq

/-- The method that serves a role: adding registers a handler and returns a token, removing gives
the token back. -/
def Event.accessor (e : Event) (role : EventRole) : Method where
  name := role.methodName e.name
  line := e.line
  isStatic := e.isStatic
  origin := .event
  result := match role with
    | .add => some (.named registrationToken)
    | .remove => none
  parameters := match role with
    | .add => [{ name := "handler", line := e.line, passing := .input, type := e.type }]
    | .remove =>
      [{ name := "token", line := e.line, passing := .input, type := .named registrationToken }]
  overrides := none

structure Constructor where
  line : Nat
  parameters : List Parameter
deriving DecidableEq

structure Field where
  name : String
  line : Nat
  type : Reference
deriving DecidableEq

end ComponentIdl
