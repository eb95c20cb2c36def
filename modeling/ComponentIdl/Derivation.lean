import ComponentIdl.Workspace

/-!
# Derived interfaces

Of each class up to three interfaces are derived: one with its instance members, one with its static
members, and a factory with a method for each constructor that takes arguments. A derived interface
is declared beside its class, in the same block, under a name made of that of the class. If the name
is taken, that is reported and the interface is left out.

Members keep the order of the class, so accessors stay among the other methods as they are declared.
-/

namespace ComponentIdl

structure DerivationTally where
  interfaces : Nat := 0
deriving DecidableEq

/-- The members of a derived interface. -/
structure MemberSet where
  methods : List Method := []
  properties : List Property := []
  events : List Event := []

namespace ObjectType

/-- The new position of the method at `index` when only the static methods are kept, or only the
instance methods. -/
def keptPosition? (o : ObjectType) (statics : Bool) (index : Nat) : Option Nat :=
  (o.methods[index]?).bind fun m =>
    if m.isStatic = statics then
      some ((o.methods.take index).countP fun n => n.isStatic == statics)
    else none

/-- The copy of an event, if both of its accessors are kept. -/
def keptEvent? (o : ObjectType) (statics : Bool) (e : Event) : Option Event :=
  match o.keptPosition? statics e.adder, o.keptPosition? statics e.remover with
  | some adder, some remover =>
    some { e with isStatic := false, adder, remover, overrides := none }
  | _, _ => none

/-- Copies of the static members of a class, or of its instance members, as instance members. -/
def keep (o : ObjectType) (statics : Bool) : MemberSet where
  methods := (o.methods.filter fun m => m.isStatic == statics).map fun m =>
    { m with isStatic := false, overrides := none }
  properties := (o.properties.filter fun p => p.isStatic == statics).map fun p =>
    { p with
      isStatic := false
      getter := p.getter.bind (o.keptPosition? statics)
      setter := p.setter.bind (o.keptPosition? statics)
      overrides := none }
  events := (o.events.filter fun e => e.isStatic == statics).filterMap (o.keptEvent? statics)

end ObjectType

/-- The name of a factory method; the first one has no number. -/
def creatorName : Nat → String
  | 0 => "CreateInstance"
  | n + 1 => "CreateInstance" ++ toString (n + 2)

/-- The method that makes an instance of `id` with the arguments of a constructor. -/
def factoryMethod (id : ObjectId) (o : ObjectType) (c : Constructor × Nat) : Method where
  name := creatorName c.2
  line := c.1.line
  isStatic := false
  origin := .written
  result := some (.bound o.dottedName (.runtimeClass id))
  parameters := c.1.parameters
  overrides := none

def ObjectType.factory (id : ObjectId) (o : ObjectType) : MemberSet :=
  { methods := (o.constructors.filter fun c => !c.parameters.isEmpty).zipIdx.map
      (factoryMethod id o) }

/-- What a derived interface is for. -/
inductive DerivedRole where
  | default
  | statics
  | factory
deriving DecidableEq

namespace DerivedRole

def interfaceNamed (className : String) : DerivedRole → String
  | default => "I" ++ className
  | statics => "I" ++ className ++ "Statics"
  | factory => "I" ++ className ++ "Factory"

def record (d : Derived) (id : ObjectId) : DerivedRole → Derived
  | default => { d with default := some id }
  | statics => { d with statics := some id }
  | factory => { d with factory := some id }

end DerivedRole

/-- The roles a class qualifies for, with the members of each interface. A class that requires
interfaces has no default one; a static class has neither a default one nor a factory. -/
def ObjectType.derivedRoles (id : ObjectId) (o : ObjectType) : List (DerivedRole × MemberSet) :=
  (if !o.isStaticClass && o.requires.isEmpty then [(.default, o.keep false)] else []) ++
  (if (o.keep true).methods.isEmpty then [] else [(.statics, o.keep true)]) ++
  (if !o.isStaticClass && !(o.factory id).methods.isEmpty then [(.factory, o.factory id)] else [])

/-- Whether interfaces are still to be derived: from classes that have none yet. -/
def ObjectType.awaitsDerivation (o : ObjectType) : Bool :=
  match o.classPart with
  | some c => c.derived == {} && o.derivedFrom.isNone
  | none => false

/-- The derivation of interfaces, with what it found and how many it made. -/
structure Derivation where
  store : Store
  symbols : NameTable
  found : List Diagnostic := []
  interfaces : Nat := 0

namespace Derivation

/-- The interface of a role, before it has a slot. -/
def interfaceOf (id : ObjectId) (o : ObjectType) (role : DerivedRole) (members : MemberSet) :
    ObjectType :=
  { toHeader := { o.toHeader with name := role.interfaceNamed o.name }
    classPart := none
    methods := members.methods
    properties := members.properties
    events := members.events
    cycle := .clear
    derivedFrom := some id }

/-- Declares the interface of a role beside its class, unless the name is taken. -/
def declare (id : ObjectId) (o : ObjectType) (s : Derivation) (plan : DerivedRole × MemberSet) :
    Derivation :=
  let interface := interfaceOf id o plan.1 plan.2
  match s.store.namespaces.path? (segments o.scope) with
  | none => s
  | some node =>
    match s.store.namespaces.symbol? node interface.name with
    | some _ =>
      { s with
        found := s.found ++ [.of .duplicateNamespaceMember o.line interface.dottedName] }
    | none =>
      match s.store.namespaces.blockOf? node (.runtimeClass id) with
      | none => s
      | some block =>
        let slot := s.store.objects.size
        let declared := s.store.declare node block interface.name (.object interface)
        { s with
          store := declared.modifyObject id fun c =>
            { c with
              classPart := c.classPart.map fun p =>
                { p with derived := plan.1.record p.derived slot } }
          symbols := s.symbols.insert interface.dottedName (.interface slot)
          interfaces := s.interfaces + 1 }

/-- Derives the interfaces of the class `id`. -/
def deriveFrom (s : Derivation) (id : ObjectId) : Derivation :=
  match s.store.objects[id]? with
  | none => s
  | some o =>
    if o.awaitsDerivation then (o.derivedRoles id).foldl (declare id o) s else s

/-- Derives the interfaces of all classes; those that are derived are not visited themselves. -/
def run (s : Derivation) : Derivation := (List.range s.store.objects.size).foldl deriveFrom s

end Derivation

def Workspace.deriveInterfaces (w : Workspace) : Workspace × DerivationTally :=
  let done := Derivation.run { store := w.store, symbols := w.symbols }
  ({ w with store := done.store, symbols := done.symbols, report := w.report.add done.found },
   { interfaces := done.interfaces })

end ComponentIdl
