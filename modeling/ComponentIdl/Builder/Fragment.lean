import ComponentIdl.Builder.Member
import ComponentIdl.Diagnostic

/-!
# Property fragments

A property may be declared in two fragments, each giving one of its accessors. A fragment is either
taken whole or rejected whole; what is wrong with its accessor body is reported besides. Events have
no fragments: both accessors come at once.
-/

namespace ComponentIdl

/-- What the accessor body of a property asks for, and what is wrong with it. -/
structure AccessorRequest where
  /-- The accessors with their lines, in written order, each at most once. -/
  asked : List (PropertyRole × Nat) := []
  found : List Diagnostic := []
  /-- Whether the body is empty or holds something other than a getter or setter. -/
  isMalformed : Bool := false

namespace AccessorRequest

/-- Asks for one accessor; asking again is an error at the line of the second one. -/
def ask (request : AccessorRequest) (p : Decl.Property) (role : PropertyRole) (line : Nat) :
    AccessorRequest :=
  if request.asked.any fun a => a.1 == role then
    { request with found := request.found ++ [.of .duplicatePropertyAccessor line p.name] }
  else { request with asked := request.asked ++ [(role, line)] }

def reject (request : AccessorRequest) (p : Decl.Property) : AccessorRequest :=
  { request with
    found := request.found ++ [.of .invalidPropertyAccessor p.line p.name]
    isMalformed := true }

def read (p : Decl.Property) (request : AccessorRequest) (a : Decl.Accessor) : AccessorRequest :=
  match a.word with
  | .get => request.ask p .get a.line
  | .set => request.ask p .set a.line
  | _ => request.reject p

/-- The request of a property. Without a body it gets both accessors; an empty body is malformed. -/
def ofDecl (p : Decl.Property) : AccessorRequest :=
  match p.accessors with
  | none => { asked := [(.get, p.line), (.set, p.line)] }
  | some [] => ({} : AccessorRequest).reject p
  | some body => body.foldl (read p) {}

end AccessorRequest

/-- Whether two references written in one namespace stand for one type. Unbound ones are compared
by the name under which they will be looked up. -/
def sameMeaning (scope : String) (a b : Reference) : Bool :=
  if a.isBound || b.isBound then a.agrees b
  else absoluteName scope a.text == absoluteName scope b.text

namespace ObjectType

/-- Adds an accessor of the property at `index` to the methods, and links it to the property. -/
def addAccessor (o : ObjectType) (index : Nat) (role : PropertyRole) (line : Nat) : ObjectType :=
  match o.properties[index]? with
  | none => o
  | some p =>
    { o.pushMethod (p.accessor role line) with
      properties := o.properties.modify index fun q => q.setPosition o.methods.length role }

def addAccessors (o : ObjectType) (index : Nat) (asked : List (PropertyRole × Nat)) : ObjectType :=
  asked.foldl (fun o a => o.addAccessor index a.1 a.2) o

/-- Adds a fragment of a property, `count` of whose fragments have been met by now. A second
fragment may add an accessor to a property of the same type and the same static flag; a third may
not. -/
def addFragment (o : ObjectType) (p : Decl.Property) (count : Nat)
    (asked : List (PropertyRole × Nat)) : Except Diagnostic.Kind ObjectType :=
  let type := Reference.parse p.type
  if (o.event? p.name).isSome then .error .duplicateTypeMember
  else
    match o.property? p.name with
    | none =>
      let fresh : Property :=
        { name := p.name, line := p.line, isStatic := p.isStatic, type,
          getter := none, setter := none, overrides := none }
      .ok ({ o with properties := o.properties ++ [fresh] }.addAccessors o.properties.length asked)
    | some (existing, index) =>
      if count ≥ 3 || !sameMeaning o.scope existing.type type ||
          existing.isStatic != p.isStatic then
        .error .duplicateTypeMember
      else if asked.any fun a => existing.has a.1 then .error .repeatedPropertyAccessor
      else .ok (o.addAccessors index asked)

def addEvent (o : ObjectType) (e : Decl.Event) : ObjectType :=
  let event : Event :=
    { name := e.name, line := e.line, isStatic := e.isStatic, type := .parse e.type,
      adder := o.methods.length, remover := o.methods.length + 1, overrides := none }
  { (o.pushMethod (event.accessor .add)).pushMethod (event.accessor .remove) with
    events := o.events ++ [event] }

/-- Reports the properties without a getter, unless their accessor bodies were malformed. -/
def missingGetters (o : ObjectType) (malformed : List String) : List Diagnostic :=
  (o.properties.filter fun p => p.getter.isNone && !malformed.contains p.name).map fun p =>
    .of .invalidPropertyAccessor p.line p.name

end ObjectType

end ComponentIdl
