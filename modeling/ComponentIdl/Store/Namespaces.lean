import ComponentIdl.DottedName
import ComponentIdl.NameMap
import ComponentIdl.Reference

/-!
# The namespace tree

Namespaces are nodes numbered in the order of their creation; node zero is the global namespace and
the root. A node lists its children with the latest first. It keeps the symbols by simple name,
merged over all blocks that open the namespace, and for each block the declarations it adds.
Operations on a node that does not exist change nothing.
-/

namespace ComponentIdl

abbrev NamespaceId := Nat

/-- One block that opens a namespace, with its declarations in order. -/
structure NamespaceBlock where
  line : Nat
  declarations : List Symbol := []
deriving DecidableEq

structure Namespace where
  /-- The dotted name; that of the root is empty. -/
  name : String
  parent : Option NamespaceId := none
  /-- The children by simple name, latest first. -/
  children : List (String × NamespaceId) := []
  /-- The blocks in source order. -/
  blocks : List NamespaceBlock := []
  /-- The declarations of all blocks by simple name. -/
  symbols : NameMap Symbol := {}

structure Namespaces where
  nodes : Array Namespace

namespace Namespaces

def empty : Namespaces := ⟨#[{ name := "" }]⟩

def root : NamespaceId := 0

def size (t : Namespaces) : Nat := t.nodes.size

def isEmpty (t : Namespaces) : Bool := t.size ≤ 1

def node? (t : Namespaces) (n : NamespaceId) : Option Namespace := t.nodes[n]?

def children (t : Namespaces) (n : NamespaceId) : List (String × NamespaceId) :=
  match t.node? n with
  | some node => node.children
  | none => []

def parent? (t : Namespaces) (n : NamespaceId) : Option NamespaceId :=
  (t.node? n).bind Namespace.parent

def nameOf (t : Namespaces) (n : NamespaceId) : String :=
  match t.node? n with
  | some node => node.name
  | none => ""

def child? (t : Namespaces) (n : NamespaceId) (name : String) : Option NamespaceId :=
  (t.children n).lookup name

/-- A child whose name differs from `name` by the case of ASCII letters only. -/
def caseVariant? (t : Namespaces) (n : NamespaceId) (name : String) : Option String :=
  ((t.children n).map Prod.fst).find? fun other =>
    other != name && Text.sameIgnoringCase other name

/-- The namespace at the end of a path from `n`. -/
def walk? (t : Namespaces) (n : NamespaceId) : List String → Option NamespaceId
  | [] => some n
  | name :: path => (t.child? n name).bind fun c => t.walk? c path

def path? (t : Namespaces) (path : List String) : Option NamespaceId := t.walk? root path

/-- The namespace of a dotted name. -/
def find? (t : Namespaces) (name : String) : Option NamespaceId := t.path? (segments name)

def symbol? (t : Namespaces) (n : NamespaceId) (name : String) : Option Symbol :=
  (t.node? n).bind fun node => node.symbols.get? name

/-- The dotted name of a child called `name`. -/
def childName (parent name : String) : String :=
  if parent = "" then name else parent ++ "." ++ name

def modify (t : Namespaces) (n : NamespaceId) (f : Namespace → Namespace) :
    Namespaces :=
  ⟨t.nodes.modify n f⟩

/-- The tree with the child `name` of `n`, and the number of that child. -/
def addChild (t : Namespaces) (n : NamespaceId) (name : String) :
    Namespaces × NamespaceId :=
  match t.child? n name with
  | some c => (t, c)
  | none =>
    match t.node? n with
    | none => (t, n)
    | some node =>
      let linked := t.modify n fun p => { p with children := (name, t.size) :: p.children }
      (⟨linked.nodes.push { name := childName node.name name, parent := some n }⟩, t.size)

/-- The tree with the whole path from `n`, and the number of its end. -/
def addWalk (t : Namespaces) (n : NamespaceId) : List String → Namespaces × NamespaceId
  | [] => (t, n)
  | name :: path =>
    let step := t.addChild n name
    step.1.addWalk step.2 path

/-- The tree with the whole path from the root, and the number of its end. -/
def addPath (t : Namespaces) (path : List String) : Namespaces × NamespaceId :=
  t.addWalk root path

def nextBlock (t : Namespaces) (n : NamespaceId) : Nat :=
  match t.node? n with
  | some node => node.blocks.length
  | none => 0

/-- The tree with a new block of the namespace `n`, and the number of that block. -/
def openBlock (t : Namespaces) (n : NamespaceId) (line : Nat) : Namespaces × Nat :=
  (t.modify n fun node => { node with blocks := node.blocks ++ [{ line }] }, t.nextBlock n)

/-- The node with a named declaration in the block `block`. A block that does not exist records
nothing. -/
def Namespace.addSymbol (node : Namespace) (block : Nat) (name : String) (symbol : Symbol) :
    Namespace :=
  { node with
    symbols := node.symbols.insertNew name symbol
    blocks := node.blocks.modify block fun b =>
      { b with declarations := b.declarations ++ [symbol] } }

/-- The tree with a named declaration in a block of `n`, or the symbol that has the name already. -/
def addSymbol (t : Namespaces) (n : NamespaceId) (block : Nat) (name : String)
    (symbol : Symbol) : Except Symbol Namespaces :=
  match t.symbol? n name with
  | some existing => .error existing
  | none => .ok (t.modify n fun node => Namespace.addSymbol node block name symbol)

/-- The tree with another dotted name for the node `n`. -/
def rename (t : Namespaces) (n : NamespaceId) (name : String) : Namespaces :=
  t.modify n fun node => { node with name }

/-- The first block of `n` that declares the symbol. -/
def blockOf? (t : Namespaces) (n : NamespaceId) (symbol : Symbol) : Option Nat :=
  (t.node? n).bind fun node =>
    node.blocks.findIdx? fun b => b.declarations.contains symbol

/-- The written form, with the number of namespaces. -/
def describe (t : Namespaces) : String :=
  "NamespaceTree \x7b namespaces: " ++ toString t.size ++ " \x7d"

end Namespaces

end ComponentIdl
