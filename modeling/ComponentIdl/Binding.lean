import ComponentIdl.Workspace

/-!
# Binding references

Every reference of the store is looked up under its key, objects first, then structs and delegates,
and within each in the order of declaration. A reference that is bound already stays as it is.
Imported types take their slots in the order in which they are first looked up.

The accessors of a property or event repeat its type, so a failure is reported for the property or
event alone. What a requires list names has to be an interface, the type of an event a delegate.
-/

namespace ComponentIdl

structure BindingTally where
  bound : Nat := 0
  unbound : Nat := 0
deriving DecidableEq

/-- Replaces the items of a list one after the other, passing a state along. -/
def threadMap {σ α : Type} (f : σ → α → α × σ) : σ → List α → List α × σ
  | s, [] => ([], s)
  | s, x :: xs =>
    let head := f s x
    let tail := threadMap f head.2 xs
    (head.1 :: tail.1, tail.2)

/-- The name table under look-ups, with what they found wrong so far. -/
structure Binder where
  symbols : NameTable
  found : List Diagnostic := []
  tally : BindingTally := {}

namespace Binder

def report (s : Binder) (kind : Diagnostic.Kind) (line : Nat) (symbol : String) : Binder :=
  { s with found := s.found ++ [.of kind line symbol] }

def countBound (s : Binder) : Binder :=
  { s with tally := { s.tally with bound := s.tally.bound + 1 } }

def countUnbound (s : Binder) : Binder :=
  { s with tally := { s.tally with unbound := s.tally.unbound + 1 } }

def lookup (s : Binder) (key : String) : Option Symbol × Binder :=
  let answer := s.symbols.lookup key
  (answer.1, { s with symbols := answer.2 })

/-- Binds a reference that stands in the namespace `scope`. If nothing is found, `reports` says
whether that is reported. -/
def bindReference (scope : String) (line : Nat) (reports : Bool) (s : Binder) (r : Reference) :
    Reference × Binder :=
  if r.isBound then (r, s)
  else
    let key := absoluteName scope r.text
    let answer := s.lookup key
    match answer.1 with
    | some symbol => (r.bindTo symbol.target, answer.2.countBound)
    | none =>
      (r, if reports then answer.2.countUnbound.report .unresolvedType line key
          else answer.2.countUnbound)

/-- Binds an entry of a requires list, if it names an interface. -/
def bindRequired (scope : String) (line : Nat) (s : Binder) (r : Reference) :
    Reference × Binder :=
  if r.isBound then (r, s)
  else
    let key := absoluteName scope r.text
    let answer := s.lookup key
    match answer.1 with
    | some symbol =>
      if symbol.isInterface then (r.bindTo symbol.target, answer.2.countBound)
      else (r, answer.2.report .typeNotInterface line key)
    | none => (r, answer.2.countUnbound.report .unresolvedType line key)

def bindParameter (scope : String) (line : Nat) (reports : Bool) (s : Binder)
    (p : Parameter) : Parameter × Binder :=
  let type := s.bindReference scope line reports p.type
  ({ p with type := type.1 }, type.2)

/-- Binds the type of a result, if there is one. -/
def bindResult (scope : String) (line : Nat) (reports : Bool) (s : Binder) :
    Option Reference → Option Reference × Binder
  | none => (none, s)
  | some r =>
    let type := s.bindReference scope line reports r
    (some type.1, type.2)

/-- Binds result and parameters of a method. Only a written method reports. -/
def bindMethod (scope : String) (s : Binder) (m : Method) : Method × Binder :=
  let result := s.bindResult scope m.line m.isWritten m.result
  let parameters := threadMap (bindParameter scope m.line m.isWritten) result.2 m.parameters
  ({ m with result := result.1, parameters := parameters.1 }, parameters.2)

def bindProperty (scope : String) (s : Binder) (p : Property) : Property × Binder :=
  let type := s.bindReference scope p.line true p.type
  ({ p with type := type.1 }, type.2)

/-- Binds the type of an event. A type found now that is no delegate is reported, but stays. -/
def bindEvent (scope : String) (s : Binder) (e : Event) : Event × Binder :=
  let type := s.bindReference scope e.line true e.type
  let key := absoluteName scope e.type.text
  let misfit :=
    !e.type.isBound && (s.lookup key).1.any fun symbol => !symbol.isDelegate
  ({ e with type := type.1 },
    if misfit then type.2.report .typeNotDelegate e.line key else type.2)

def bindConstructor (scope : String) (s : Binder) (c : Constructor) :
    Constructor × Binder :=
  let parameters := threadMap (bindParameter scope c.line true) s c.parameters
  ({ c with parameters := parameters.1 }, parameters.2)

def bindClassPart (scope : String) (s : Binder) :
    Option ClassPart → Option ClassPart × Binder
  | none => (none, s)
  | some c =>
    let constructors := threadMap (bindConstructor scope) s c.constructors
    (some { c with constructors := constructors.1 }, constructors.2)

def bindObject (s : Binder) (o : ObjectType) : ObjectType × Binder :=
  let requires := threadMap (bindRequired o.scope o.line) s o.requires
  let methods := threadMap (bindMethod o.scope) requires.2 o.methods
  let properties := threadMap (bindProperty o.scope) methods.2 o.properties
  let events := threadMap (bindEvent o.scope) properties.2 o.events
  let classPart := events.2.bindClassPart o.scope o.classPart
  ({ o with
     requires := requires.1, methods := methods.1, properties := properties.1,
     events := events.1, classPart := classPart.1 }, classPart.2)

def bindField (scope : String) (s : Binder) (f : Field) : Field × Binder :=
  let type := s.bindReference scope f.line true f.type
  ({ f with type := type.1 }, type.2)

def bindStruct (s : Binder) (t : StructType) : StructType × Binder :=
  let fields := threadMap (bindField t.scope) s t.fields
  ({ t with fields := fields.1 }, fields.2)

def bindDelegate (s : Binder) (d : DelegateType) : DelegateType × Binder :=
  let result := s.bindResult d.scope d.line true d.result
  let parameters := threadMap (bindParameter d.scope d.line true) result.2 d.parameters
  ({ d with result := result.1, parameters := parameters.1 }, parameters.2)

def bindStore (s : Binder) (st : Store) : Store × Binder :=
  let objects := threadMap bindObject s st.objects.toList
  let structs := threadMap bindStruct objects.2 st.structs.toList
  let delegates := threadMap bindDelegate structs.2 st.delegates.toList
  ({ st with
     objects := objects.1.toArray, structs := structs.1.toArray,
     delegates := delegates.1.toArray }, delegates.2)

end Binder

def Workspace.bindReferences (w : Workspace) : Workspace × BindingTally :=
  let done := Binder.bindStore { symbols := w.symbols } w.store
  ({ w with
     store := done.1, symbols := done.2.symbols, report := w.report.add done.2.found },
   done.2.tally)

end ComponentIdl
