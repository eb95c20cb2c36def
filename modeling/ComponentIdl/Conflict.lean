import ComponentIdl.Inheritance

/-!
# Checking members

The members of a class or interface are checked against each other and against those of all
inherited interfaces. A class that declares an inherited member again, with the same type, is linked
to it; every other clash is reported. A static class reports each of its instance members.

What is found wrong depends on no link, so the remarks of all declarations are taken from the same
store.
-/

namespace ComponentIdl

structure MemberTally where
  conflicts : Nat := 0
  overrides : Nat := 0
deriving DecidableEq

/-- What the check of one member says. -/
inductive Remark where
  | report (d : Diagnostic)
  /-- The method at this position may not be an overload. -/
  | overload (index : Nat)
  | linkMethod (index : Nat) (base : MemberLink)
  | linkProperty (index : Nat) (base : MemberLink)
  | linkEvent (index : Nat) (base : MemberLink)

namespace Remark

/-- The remarks without the overloads already in `seen`, and without repeated overloads. -/
def withoutRepeats : List Nat → List Remark → List Remark
  | _, [] => []
  | seen, .overload index :: rest =>
    if seen.contains index then withoutRepeats seen rest
    else .overload index :: withoutRepeats (index :: seen) rest
  | seen, remark :: rest => remark :: withoutRepeats seen rest

/-- The diagnostic of a remark about the methods given, if it has one. -/
def diagnostic? (methods : List Method) : Remark → Option Diagnostic
  | .report d => some d
  | .overload index =>
    (methods[index]?).map fun m => .of .cannotOverload m.line m.name
  | _ => none

def isLink : Remark → Bool
  | .linkMethod .. => true
  | .linkProperty .. => true
  | .linkEvent .. => true
  | _ => false

def link (o : ObjectType) : Remark → ObjectType
  | .linkMethod index base =>
    { o with methods := o.methods.modify index fun m => { m with overrides := some base } }
  | .linkProperty index base =>
    { o with properties := o.properties.modify index fun p => { p with overrides := some base } }
  | .linkEvent index base =>
    { o with events := o.events.modify index fun e => { e with overrides := some base } }
  | _ => o

end Remark

/-- Whether two results agree; two methods without a result do. -/
def resultsAgree : Option Reference → Option Reference → Bool
  | none, none => true
  | some a, some b => a.agrees b
  | _, _ => false

namespace ObjectType

/-- A written method with the signature of an earlier one clashes with the first of them. -/
def signatureClashes (o : ObjectType) : List Remark :=
  let signed := o.writtenMethods.map fun m => (m.1.signature, m.2)
  signed.flatMap fun m =>
    match signed.find? fun first => first.1 == m.1 with
    | some first => if first.2 = m.2 then [] else [.overload first.2, .overload m.2]
    | none => []

/-- A method may not be called like an accessor that the property has. -/
def propertyClash (m : Method × Nat) (p : Property) : List Remark :=
  if [PropertyRole.get, .set].any fun role => p.has role && m.1.name == role.methodName p.name then
    [.report (.of .duplicatePropertyAccessor p.line p.name), .overload m.2]
  else []

def eventClash (m : Method × Nat) (e : Event) : List Remark :=
  if [EventRole.add, .remove].any fun role => m.1.name == role.methodName e.name then
    [.report (.of .conflictingEventAccessor e.line e.name), .overload m.2]
  else []

def accessorClashes (o : ObjectType) : List Remark :=
  o.writtenMethods.flatMap fun m =>
    o.properties.flatMap (propertyClash m) ++ o.events.flatMap (eventClash m)

/-- The first method of an interface with the signature, with its link. -/
def signed? (signature : Identity) (base : ObjectId × ObjectType) : Option (Method × MemberLink) :=
  (base.2.methods.zipIdx.find? fun m => m.1.signature == signature).map fun m =>
    (m.1, ⟨base.1, m.2⟩)

/-- A written method stands for the nearest inherited method with its signature, or clashes with it.
-/
def methodRemarks (o : ObjectType) (bases : List (ObjectId × ObjectType)) (m : Method × Nat) :
    List Remark :=
  match bases.findSome? (signed? m.1.signature) with
  | none => []
  | some inherited =>
    if o.isClass && inherited.1.isWritten && resultsAgree inherited.1.result m.1.result then
      [.linkMethod m.2 inherited.2]
    else [.overload m.2]

/-- Links an accessor to the one of an inherited member, if both exist. -/
def accessorLink (base : ObjectId) : Option Nat → Option Nat → List Remark
  | some own, some inherited => [.linkMethod own ⟨base, inherited⟩]
  | _, _ => []

def hasWrittenMethod (o : ObjectType) (name : String) : Bool :=
  o.methods.any fun m => m.isWritten && m.name == name

/-- What an inherited interface says about a property; `none` if it has no member of the name. -/
def propertyVerdict (o : ObjectType) (p : Property × Nat) (base : ObjectId × ObjectType) :
    Option (List Remark) :=
  match base.2.property? p.1.name with
  | some inherited =>
    if o.isClass && inherited.1.type.agrees p.1.type then
      some (.linkProperty p.2 ⟨base.1, inherited.2⟩ ::
        accessorLink base.1 p.1.getter inherited.1.getter ++
        accessorLink base.1 p.1.setter inherited.1.setter)
    else some [.report (.of .duplicateTypeMember p.1.line p.1.name)]
  | none =>
    if base.2.hasWrittenMethod p.1.name || (base.2.event? p.1.name).isSome then
      some [.report (.of .conflictingInheritance p.1.line p.1.name)]
    else none

/-- What an inherited interface says about an event; `none` if it has no member of the name. -/
def eventVerdict (o : ObjectType) (e : Event × Nat) (base : ObjectId × ObjectType) :
    Option (List Remark) :=
  match base.2.event? e.1.name with
  | some inherited =>
    if o.isClass && inherited.1.type.agrees e.1.type then
      some [.linkEvent e.2 ⟨base.1, inherited.2⟩,
        .linkMethod e.1.adder ⟨base.1, inherited.1.adder⟩,
        .linkMethod e.1.remover ⟨base.1, inherited.1.remover⟩]
    else some [.report (.of .duplicateTypeMember e.1.line e.1.name)]
  | none =>
    if base.2.hasWrittenMethod e.1.name || (base.2.property? e.1.name).isSome then
      some [.report (.of .conflictingInheritance e.1.line e.1.name)]
    else none

/-- What the nearest interface that says anything about the property says. -/
def propertyRemarks (o : ObjectType) (bases : List (ObjectId × ObjectType)) (p : Property × Nat) :
    List Remark :=
  (bases.findSome? (o.propertyVerdict p)).getD []

/-- What the nearest interface that says anything about the event says. -/
def eventRemarks (o : ObjectType) (bases : List (ObjectId × ObjectType)) (e : Event × Nat) :
    List Remark :=
  (bases.findSome? (o.eventVerdict e)).getD []

/-- The instance members of a static class, and all of its constructors. -/
def instanceMembers (o : ObjectType) : List Remark :=
  if o.isStaticClass then
    ((o.methods.filter fun m => m.isWritten && !m.isStatic).map fun m =>
      .report (.of .staticMemberOnly m.line m.name)) ++
    ((o.properties.filter fun p => !p.isStatic).map fun p =>
      .report (.of .staticMemberOnly p.line p.name)) ++
    ((o.events.filter fun e => !e.isStatic).map fun e =>
      .report (.of .staticMemberOnly e.line e.name)) ++
    o.constructors.map fun c => .report (.of .staticMemberOnly c.line o.name)
  else []

/-- All that the checks of a class or interface say, given its inherited interfaces. -/
def remarks (o : ObjectType) (bases : List (ObjectId × ObjectType)) : List Remark :=
  Remark.withoutRepeats []
    (o.signatureClashes ++ o.accessorClashes ++
      o.writtenMethods.flatMap (o.methodRemarks bases) ++
      o.properties.zipIdx.flatMap (o.propertyRemarks bases) ++
      o.events.zipIdx.flatMap (o.eventRemarks bases) ++
      o.instanceMembers)

end ObjectType

namespace Store

/-- The classes and interfaces, each with what its checks say. -/
def memberRemarks (st : Store) : List (ObjectType × List Remark) :=
  st.objects.toList.mapIdx fun id o => (o, o.remarks (st.ancestors id))

end Store

def Workspace.checkMembers (w : Workspace) : Workspace × MemberTally :=
  let remarks := w.store.memberRemarks
  let found := remarks.flatMap fun c => c.2.filterMap (Remark.diagnostic? c.1.methods)
  let linked := remarks.map fun c => c.2.foldl Remark.link c.1
  ({ w with
     store := { w.store with objects := linked.toArray }, report := w.report.add found },
   { conflicts := found.length
     overrides := (remarks.flatMap Prod.snd).countP Remark.isLink })

end ComponentIdl
