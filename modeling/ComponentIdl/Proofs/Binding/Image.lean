import ComponentIdl.Diagnostic
import ComponentIdl.NameTable
import ComponentIdl.Store

/-!
# Bound declarations, as images under a name table

Under a fixed name table every reference has the meaning of its key, and what is wrong with it can be
read off the reference itself. The functions here say so for whole declarations, beside the keys that
a declaration is looked up by.
-/

namespace ComponentIdl

namespace Reference

/-- The keys under which a reference is looked up: none if it is bound already. -/
def keys (scope : String) (r : Reference) : List String :=
  if r.isBound then [] else [absoluteName scope r.text]

/-- The reference with the meaning of its key. -/
def boundIn (t : NameTable) (scope : String) (r : Reference) : Reference :=
  if r.isBound then r
  else match t.get? (absoluteName scope r.text) with
    | some symbol => r.bindTo symbol.target
    | none => r

/-- The entry of a requires list with the meaning of its key, if that is an interface. -/
def requiredIn (t : NameTable) (scope : String) (r : Reference) : Reference :=
  if r.isBound then r
  else match t.get? (absoluteName scope r.text) with
    | some symbol => if symbol.isInterface then r.bindTo symbol.target else r
    | none => r

/-- What is wrong with a reference: that its key means nothing. -/
def faults (t : NameTable) (scope : String) (line : Nat) (r : Reference) : List Diagnostic :=
  if r.isBound || (t.get? (absoluteName scope r.text)).isSome then []
  else [.of .unresolvedType line (absoluteName scope r.text)]

/-- What is wrong with an entry of a requires list: its key means nothing, or no interface. -/
def requiredFaults (t : NameTable) (scope : String) (line : Nat) (r : Reference) :
    List Diagnostic :=
  if r.isBound then []
  else match t.get? (absoluteName scope r.text) with
    | some symbol =>
      if symbol.isInterface then [] else [.of .typeNotInterface line (absoluteName scope r.text)]
    | none => [.of .unresolvedType line (absoluteName scope r.text)]

theorem isBound_boundIn (t : NameTable) (scope : String) (r : Reference) :
    (r.boundIn t scope).isBound = (r.isBound || (t.get? (absoluteName scope r.text)).isSome) := by
  unfold boundIn
  cases hb : r.isBound with
  | true => simp [hb]
  | false =>
    cases hget : t.get? (absoluteName scope r.text) with
    | none => simp [hb]
    | some symbol => simp [isBound, bindTo]

theorem faults_eq_nil {t : NameTable} {scope : String} {line : Nat} {r : Reference} :
    r.faults t scope line = [] ↔ (r.boundIn t scope).isBound = true := by
  rw [isBound_boundIn, faults]
  split <;> simp_all

end Reference

section Image

variable (t : NameTable) (scope : String)

def Parameter.boundIn (p : Parameter) : Parameter := { p with type := p.type.boundIn t scope }

def Method.boundIn (m : Method) : Method :=
  { m with
    result := m.result.map (Reference.boundIn t scope)
    parameters := m.parameters.map (Parameter.boundIn t scope) }

def Property.boundIn (p : Property) : Property := { p with type := p.type.boundIn t scope }

def Event.boundIn (e : Event) : Event := { e with type := e.type.boundIn t scope }

def Constructor.boundIn (c : Constructor) : Constructor :=
  { c with parameters := c.parameters.map (Parameter.boundIn t scope) }

def ClassPart.boundIn (c : ClassPart) : ClassPart :=
  { c with constructors := c.constructors.map (Constructor.boundIn t scope) }

def Field.boundIn (f : Field) : Field := { f with type := f.type.boundIn t scope }

def ObjectType.boundIn (o : ObjectType) : ObjectType :=
  { o with
    requires := o.requires.map (Reference.requiredIn t o.scope)
    methods := o.methods.map (Method.boundIn t o.scope)
    properties := o.properties.map (Property.boundIn t o.scope)
    events := o.events.map (Event.boundIn t o.scope)
    classPart := o.classPart.map (ClassPart.boundIn t o.scope) }

def StructType.boundIn (s : StructType) : StructType :=
  { s with fields := s.fields.map (Field.boundIn t s.scope) }

def DelegateType.boundIn (d : DelegateType) : DelegateType :=
  { d with
    result := d.result.map (Reference.boundIn t d.scope)
    parameters := d.parameters.map (Parameter.boundIn t d.scope) }

/-- The store in which every reference has the meaning of its key. -/
def Store.boundIn (st : Store) : Store :=
  { st with
    objects := st.objects.map (ObjectType.boundIn t)
    structs := st.structs.map (StructType.boundIn t)
    delegates := st.delegates.map (DelegateType.boundIn t) }

def Method.keys (m : Method) : List String := m.references.flatMap (Reference.keys scope)

def Constructor.keys (c : Constructor) : List String :=
  c.parameters.flatMap fun p => p.type.keys scope

def ObjectType.keys (o : ObjectType) : List String :=
  o.requires.flatMap (Reference.keys o.scope) ++ o.methods.flatMap (Method.keys o.scope) ++
    o.properties.flatMap (fun p => p.type.keys o.scope) ++
    o.events.flatMap (fun e => e.type.keys o.scope) ++
    o.constructors.flatMap (Constructor.keys o.scope)

def StructType.keys (s : StructType) : List String := s.fields.flatMap fun f => f.type.keys s.scope

def DelegateType.keys (d : DelegateType) : List String :=
  d.references.flatMap (Reference.keys d.scope)

/-- The keys of all references of a store. -/
def Store.keys (st : Store) : List String :=
  st.objects.toList.flatMap ObjectType.keys ++ st.structs.toList.flatMap StructType.keys ++
    st.delegates.toList.flatMap DelegateType.keys

/-- Only a written method answers for its references. -/
def Method.faults (m : Method) : List Diagnostic :=
  if m.isWritten then m.references.flatMap (Reference.faults t scope m.line) else []

def Property.faults (p : Property) : List Diagnostic := p.type.faults t scope p.line

/-- The type of an event is missing, or found and no delegate. -/
def Event.faults (e : Event) : List Diagnostic :=
  let key := absoluteName scope e.type.text
  e.type.faults t scope e.line ++
    if !e.type.isBound && (t.get? key).any fun symbol => !symbol.isDelegate then
      [.of .typeNotDelegate e.line key]
    else []

def Constructor.faults (c : Constructor) : List Diagnostic :=
  c.parameters.flatMap fun p => p.type.faults t scope c.line

def Field.faults (f : Field) : List Diagnostic := f.type.faults t scope f.line

def ObjectType.faults (o : ObjectType) : List Diagnostic :=
  o.requires.flatMap (Reference.requiredFaults t o.scope o.line) ++
    o.methods.flatMap (Method.faults t o.scope) ++
    o.properties.flatMap (Property.faults t o.scope) ++
    o.events.flatMap (Event.faults t o.scope) ++
    o.constructors.flatMap (Constructor.faults t o.scope)

def StructType.faults (s : StructType) : List Diagnostic :=
  s.fields.flatMap (Field.faults t s.scope)

def DelegateType.faults (d : DelegateType) : List Diagnostic :=
  d.references.flatMap (Reference.faults t d.scope d.line)

def Store.bindingFaults (st : Store) : List Diagnostic :=
  st.objects.toList.flatMap (ObjectType.faults t) ++
    st.structs.toList.flatMap (StructType.faults t) ++
    st.delegates.toList.flatMap (DelegateType.faults t)

end Image

end ComponentIdl
