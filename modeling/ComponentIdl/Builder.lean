import ComponentIdl.Builder.Fragment
import ComponentIdl.Decl.Visit
import ComponentIdl.Workspace

/-!
# Building the store

A builder follows the visits of a declaration tree. It opens namespaces, gives every declaration
whose name is free a slot and a symbol, and fills in members as they come. A declaration whose name
is taken is reported and its members are passed over. References are kept by name; nothing is looked
up.

Every visit is one step of the builder, whatever came before it, so a builder can be run over any
list of visits.
-/

namespace ComponentIdl

/-- What a build did: blocks opened, declarations added, declarations passed over. -/
structure DeclarationTally where
  blocks : Nat := 0
  declarations : Nat := 0
  skipped : Nat := 0
deriving DecidableEq

/-- The declaration whose members are being visited. -/
inductive Focus where
  | nothing
  /-- A declaration that was passed over, with all its members. -/
  | skipped
  | object (id : ObjectId)
  | struct (id : StructId)
  | enum (id : EnumId)

def Focus.ofSymbol : Symbol → Focus
  | .runtimeClass id => .object id
  | .interface id => .object id
  | .struct id => .struct id
  | .enum id => .enum id
  | .delegate _ => .skipped
  | .imported _ _ => .skipped

/-- A store under construction. -/
structure Builder where
  assembly : String
  store : Store
  symbols : NameTable
  found : List Diagnostic := []
  /-- The open blocks, each a namespace and the number of its block, innermost first. -/
  openBlocks : List (NamespaceId × Nat) := []
  focus : Focus := .nothing
  /-- The name of every property fragment met in the current body. -/
  fragments : List String := []
  /-- The properties of the current body with a malformed accessor body. -/
  malformed : List String := []
  tally : DeclarationTally := {}

/-- A namespace being opened segment by segment. -/
structure Opening where
  tree : Namespaces
  node : NamespaceId
  found : List Diagnostic := []

/-- Enters the child `segment`. A new child is reported if a sibling differs from it by case only.
-/
def Opening.enter (line : Nat) (o : Opening) (segment : String) : Opening :=
  let clash :=
    (o.tree.child? o.node segment).isNone && (o.tree.caseVariant? o.node segment).isSome
  let fullName := (DottedName.within (o.tree.nameOf o.node) segment).render
  let added := o.tree.addChild o.node segment
  { tree := added.1
    node := added.2
    found := if clash then o.found ++ [.of .namespaceCaseConflict line fullName] else o.found }

namespace Builder

def report (b : Builder) (kind : Diagnostic.Kind) (line : Nat) (symbol : String) : Builder :=
  { b with found := b.found ++ [.of kind line symbol] }

/-- Opens a block in the innermost open namespace, or in the root. -/
def openBlock (b : Builder) (d : Decl.Block) : Builder :=
  let start := match b.openBlocks with
    | [] => Namespaces.root
    | (node, _) :: _ => node
  let opened := (segments d.name).foldl (Opening.enter d.line) ⟨b.store.namespaces, start, []⟩
  let opening := opened.tree.openBlock opened.node d.line
  { b with
    store := { b.store with namespaces := opening.1 }
    found := b.found ++ opened.found
    openBlocks := (opened.node, opening.2) :: b.openBlocks
    tally := { b.tally with blocks := b.tally.blocks + 1 } }

def closeBlock (b : Builder) : Builder := { b with openBlocks := b.openBlocks.tail }

/-- Declares a type in the innermost block. A name that is taken is reported; outside all blocks the
declaration is ignored. The symbol is that of the new declaration. -/
def declare (b : Builder) (name : String) (line : Nat) (make : Header → Entity) :
    Builder × Option Symbol :=
  match b.openBlocks with
  | [] => (b, none)
  | (node, block) :: _ =>
    let header : Header :=
      { name, scope := b.store.namespaces.nameOf node, line, assembly := b.assembly }
    match b.store.namespaces.symbol? node name with
    | some _ =>
      ({ b.report .duplicateNamespaceMember line header.dottedName with
         tally := { b.tally with skipped := b.tally.skipped + 1 } }, none)
    | none =>
      let entity := make header
      let symbol := b.store.nextSymbol entity
      ({ b with
         store := b.store.declare node block name entity
         symbols := b.symbols.insert header.dottedName symbol
         tally := { b.tally with declarations := b.tally.declarations + 1 } }, some symbol)

/-- Turns to the members of the type just declared, or away from those of one passed over. -/
def focusOn (declared : Builder × Option Symbol) : Builder :=
  { declared.1 with
    focus := match declared.2 with
      | some symbol => Focus.ofSymbol symbol
      | none => .skipped }

def clearFragments (b : Builder) : Builder := { b with fragments := [], malformed := [] }

def openClass (b : Builder) (d : Decl.Class) : Builder :=
  (focusOn (b.declare d.name d.line fun h => .object
    { toHeader := h, classPart := some { modifiers := d.modifiers },
      requires := d.requires.map Reference.named })).clearFragments

def openInterface (b : Builder) (d : Decl.Interface) : Builder :=
  (focusOn (b.declare d.name d.line fun h => .object
    { toHeader := h, classPart := none,
      requires := d.requires.map Reference.named })).clearFragments

def openStruct (b : Builder) (d : Decl.Struct) : Builder :=
  focusOn (b.declare d.name d.line fun h => .struct { toHeader := h })

def openEnum (b : Builder) (d : Decl.Enum) : Builder :=
  focusOn (b.declare d.name d.line fun h => .enum { toHeader := h, base := d.base })

/-- Declares a delegate, which is complete at once. -/
def openDelegate (b : Builder) (d : Decl.Delegate) : Builder :=
  (b.declare d.name d.line fun h => .delegate
    { toHeader := h, result := d.result.map Reference.parse,
      parameters := d.parameters.map Parameter.ofDecl }).1

def leave (b : Builder) : Builder := { b with focus := .nothing }

/-- Leaves the body of a class or interface, reporting properties without a getter. -/
def closeObject (b : Builder) : Builder :=
  match b.focus with
  | .object id =>
    match b.store.objects[id]? with
    | some o => { b.leave with found := b.found ++ o.missingGetters b.malformed }
    | none => b.leave
  | _ => b.leave

def addMethod (b : Builder) (d : Decl.Method) : Builder :=
  match b.focus with
  | .object id => { b with store := b.store.modifyObject id fun o => o.pushMethod (.ofDecl d) }
  | _ => b

def addConstructor (b : Builder) (d : Decl.Constructor) : Builder :=
  match b.focus with
  | .object id => { b with store := b.store.modifyObject id fun o => o.pushConstructor (.ofDecl d) }
  | _ => b

def addProperty (b : Builder) (d : Decl.Property) : Builder :=
  match b.focus with
  | .object id =>
    let request := AccessorRequest.ofDecl d
    let noted :=
      { b with
        found := b.found ++ request.found
        fragments := d.name :: b.fragments
        malformed := if request.isMalformed then d.name :: b.malformed else b.malformed }
    match b.store.objects[id]? with
    | none => noted
    | some o =>
      match o.addFragment d (noted.fragments.count d.name) request.asked with
      | .error kind => noted.report kind d.line d.name
      | .ok grown => { noted with store := b.store.modifyObject id fun _ => grown }
  | _ => b

/-- Adds an event. An accessor body is reported, but the event stays. -/
def addEvent (b : Builder) (d : Decl.Event) : Builder :=
  match b.focus with
  | .object id =>
    match b.store.objects[id]? with
    | none => b
    | some o =>
      if (o.event? d.name).isSome || (o.property? d.name).isSome then
        b.report .duplicateTypeMember d.line d.name
      else
        let noted :=
          if d.accessors.isSome then b.report .conflictingEventAccessor d.line d.name else b
        { noted with store := b.store.modifyObject id fun o => o.addEvent d }
  | _ => b

def addField (b : Builder) (d : Decl.Field) : Builder :=
  match b.focus with
  | .struct id =>
    match b.store.structs[id]? with
    | none => b
    | some s =>
      if s.hasFieldNamed d.name then b.report .duplicateField d.line d.name
      else
        { b with
          store := b.store.modifyStruct id fun s =>
            { s with fields := s.fields ++ [⟨d.name, d.line, .parse d.type⟩] } }
  | _ => b

def addEnumMember (b : Builder) (d : Decl.EnumMember) : Builder :=
  match b.focus with
  | .enum id =>
    match b.store.enums[id]? with
    | none => b
    | some e =>
      if (e.memberIndex? d.name).isSome then b.report .duplicateTypeMember d.line d.name
      else
        { b with
          store := b.store.modifyEnum id fun e =>
            { e with members := e.members.push (.ofDecl d) } }
  | _ => b

def visit (b : Builder) : Visit → Builder
  | .openUnit _ => b
  | .closeUnit _ => b
  | .openBlock d => b.openBlock d
  | .closeBlock _ => b.closeBlock
  | .openClass d => b.openClass d
  | .closeClass _ => b.closeObject
  | .openInterface d => b.openInterface d
  | .closeInterface _ => b.closeObject
  | .openStruct d => b.openStruct d
  | .closeStruct _ => b.leave
  | .openEnum d => b.openEnum d
  | .closeEnum _ => b.leave
  | .openDelegate d => b.openDelegate d
  | .closeDelegate _ => b
  | .enumMember d => b.addEnumMember d
  | .field d => b.addField d
  | .method d => b.addMethod d
  | .property d => b.addProperty d
  | .event d => b.addEvent d
  | .constructor d => b.addConstructor d

def run (b : Builder) (visits : List Visit) : Builder := visits.foldl visit b

end Builder

namespace Workspace

def builder (w : Workspace) : Builder :=
  { assembly := w.settings.assembly, store := w.store, symbols := w.symbols }

def ofBuilder (w : Workspace) (b : Builder) : Workspace :=
  { w with store := b.store, symbols := b.symbols, report := w.report.add b.found }

def declareVisits (w : Workspace) (visits : List Visit) : Workspace × DeclarationTally :=
  let b := w.builder.run visits
  (w.ofBuilder b, b.tally)

def declare (w : Workspace) (u : Decl.Unit) : Workspace × DeclarationTally :=
  w.declareVisits u.visits

end Workspace

end ComponentIdl
