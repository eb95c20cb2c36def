import ComponentIdl.Proofs.Builder.Reordering

/-!
# Declarations in the order of a walk

A walk over a source file meets its types one by one, each at a path of namespaces, and on the way it
enters the namespaces of the blocks, segment by segment. What a build does with a type depends on the
types met before it, and not on the blocks it met them in: so what is to hold of a build is told of the
list of types met so far, or of the list of namespaces entered so far.
-/

namespace ComponentIdl

namespace Decl

/-- A type with the path of the namespace that it stands in. -/
structure Placed where
  path : List String
  type : TypeDecl

/-- What no two declarations may share. -/
def Placed.key (p : Placed) : List String × String := (p.path, p.type.name)

mutual

def Item.placed (path : List String) : Item → List Placed
  | .type d => [⟨path, d⟩]
  | .block name _ items => itemsPlaced (path ++ segments name) items

/-- The types of the items in the order of a walk, in and below the namespace at the path. -/
def itemsPlaced (path : List String) : List Item → List Placed
  | [] => []
  | i :: is => i.placed path ++ itemsPlaced path is

end

def Unit.placed (u : Unit) : List Placed := itemsPlaced [] u.items

/-- A namespace entered by a block: its path, and the line of the block. -/
structure Entry where
  path : List String
  line : Nat
deriving DecidableEq

/-- The namespaces entered one inside the other, the first one in that at the path. -/
def entriesAlong (line : Nat) (path : List String) : List String → List Entry
  | [] => []
  | name :: names => ⟨path ++ [name], line⟩ :: entriesAlong line (path ++ [name]) names

mutual

def Item.entries (path : List String) : Item → List Entry
  | .type _ => []
  | .block name line items =>
    entriesAlong line path (segments name) ++ itemsEntries (path ++ segments name) items

/-- The namespaces that a walk of the items enters, in and below the namespace at the path. -/
def itemsEntries (path : List String) : List Item → List Entry
  | [] => []
  | i :: is => i.entries path ++ itemsEntries path is

end

def Unit.entries (u : Unit) : List Entry := itemsEntries [] u.items

def Item.isBlock : Item → Bool
  | .type _ => false
  | .block .. => true

theorem Unit.isBlock_of_mem {u : Unit} {i : Item} (hi : i ∈ u.items) : i.isBlock = true := by
  obtain ⟨b, -, rfl⟩ := List.mem_map.1 hi
  rfl

end Decl

namespace Builder

open Decl (Placed Entry)

variable {b : Builder} {path : List String}

/-- The path leads to the innermost namespace, or to the root if no block is open. -/
def StandsAt (b : Builder) (path : List String) : Prop :=
  b.store.namespaces.path? path = some (b.innermost?.getD Namespaces.root)

theorem StandsAt.acceptItems (h : b.StandsAt path) (is : List Decl.Item) :
    (b.acceptItems is).StandsAt path := by
  unfold StandsAt
  rw [innermost?_acceptItems]
  exact (keepsChildren_acceptItems b is).walk? h

theorem StandsAt.openBlock (h : b.StandsAt path) (hb : b.Registered) (d : Decl.Block) :
    (b.openBlock d).StandsAt (path ++ segments d.name) := by
  have hopened := (Namespaces.sameShape_openBlock (b.opening d).tree (b.opening d).node
    d.line).keepsChildren
  have hstart : (b.openBlock d).store.namespaces.path? path =
      some (b.innermost?.getD Namespaces.root) := (keepsChildren_openBlock b d).walk? h
  have hwalk : (b.openBlock d).store.namespaces.walk? (b.innermost?.getD Namespaces.root)
      (segments d.name) = some (b.opening d).node := by
    rw [namespaces_openBlock]
    exact hopened.walk? (walk?_opening hb d)
  unfold StandsAt
  rw [Namespaces.path?, Namespaces.walk?_append, ← Namespaces.path?, hstart, Option.bind_some, hwalk,
    innermost?_openBlock, Option.getD_some]

/-- A relation of a build, the types it has met and the namespaces it has entered that every next type
and block keeps. -/
structure Walked (P : List Placed → List Entry → Builder → Prop) : Prop where
  registered : ∀ ps es b, P ps es b → b.Registered
  accept : ∀ ps es b path node d, P ps es b → b.innermost? = some node →
    b.store.namespaces.path? path = some node → P (ps ++ [⟨path, d⟩]) es (b.accept d)
  openBlock : ∀ ps es b path d, P ps es b → b.StandsAt path →
    P ps (es ++ Decl.entriesAlong d.line path (segments d.name)) (b.openBlock d)
  closeBlock : ∀ ps es b, P ps es b → P ps es b.closeBlock

section Walks

variable {P : List Placed → List Entry → Builder → Prop}

mutual

theorem Walked.item (h : Walked P) (i : Decl.Item) (path : List String) (ps : List Placed)
    (es : List Entry) (b : Builder) (hb : P ps es b) (hstand : b.StandsAt path)
    (htop : b.innermost? = none → i.isBlock = true) :
    P (ps ++ i.placed path) (es ++ i.entries path) (b.acceptItem i) := by
  cases i with
  | type d =>
    cases hnode : b.innermost? with
    | none => exact absurd (htop hnode) Bool.false_ne_true
    | some node =>
      unfold StandsAt at hstand
      rw [hnode] at hstand
      rw [Decl.Item.placed, Decl.Item.entries, List.append_nil, acceptItem]
      exact h.accept ps es b path node d hb hnode hstand
  | block name line items =>
    have hopened := h.openBlock ps es b path ⟨name, line, items⟩ hb hstand
    have hstand' := hstand.openBlock (h.registered ps es b hb) ⟨name, line, items⟩
    have hinside : (b.openBlock ⟨name, line, items⟩).innermost? = none →
        ∀ i ∈ items, i.isBlock = true := by
      rw [innermost?_openBlock]
      exact nofun
    rw [Decl.Item.placed, Decl.Item.entries, ← List.append_assoc, acceptItem]
    exact h.closeBlock _ _ _ (Walked.items h items _ ps _ _ hopened hstand' hinside)

theorem Walked.items (h : Walked P) (is : List Decl.Item) (path : List String) (ps : List Placed)
    (es : List Entry) (b : Builder) (hb : P ps es b) (hstand : b.StandsAt path)
    (htop : b.innermost? = none → ∀ i ∈ is, i.isBlock = true) :
    P (ps ++ Decl.itemsPlaced path is) (es ++ Decl.itemsEntries path is) (b.acceptItems is) := by
  cases is with
  | nil =>
    rw [Decl.itemsPlaced, Decl.itemsEntries, List.append_nil, List.append_nil]
    exact hb
  | cons i is =>
    have hfirst := Walked.item h i path ps es b hb hstand fun hnone => htop hnone i List.mem_cons_self
    have hstand' : (b.acceptItem i).StandsAt path := hstand.acceptItems [i]
    have hinnermost : (b.acceptItem i).innermost? = b.innermost? := innermost?_acceptItems b [i]
    have hrest := Walked.items h is path _ _ (b.acceptItem i) hfirst hstand' fun hnone j hj =>
      htop (hinnermost.symm.trans hnone) j (List.mem_cons_of_mem i hj)
    rw [Decl.itemsPlaced, Decl.itemsEntries, ← List.append_assoc, ← List.append_assoc, acceptItems]
    exact hrest

end

end Walks

theorem standsAt_root (b : Builder) (hopen : b.openBlocks = []) : b.StandsAt [] := by
  unfold StandsAt innermost?
  rw [hopen]
  rfl

/-- What holds of an empty build without a walk holds of the build of a source file and its walk. -/
theorem Walked.unit {P : List Placed → List Entry → Builder → Prop} (h : Walked P) (u : Decl.Unit)
    (hb : P [] [] b) (hopen : b.openBlocks = []) :
    P u.placed u.entries (b.acceptItems u.items) :=
  Walked.items h u.items [] [] [] b hb (standsAt_root b hopen) fun _ _ hi =>
    Decl.Unit.isBlock_of_mem hi

/-- A relation of a build and the types it has met that every next type keeps. Blocks are of no account
to it. -/
structure Met (P : List Placed → Builder → Prop) : Prop where
  registered : ∀ ps b, P ps b → b.Registered
  accept : ∀ ps b path node d, P ps b → b.innermost? = some node →
    b.store.namespaces.path? path = some node → P (ps ++ [⟨path, d⟩]) (b.accept d)
  openBlock : ∀ ps b d, P ps b → P ps (b.openBlock d)
  closeBlock : ∀ ps b, P ps b → P ps b.closeBlock

variable {P : List Placed → Builder → Prop} {ps : List Placed}

theorem Met.walked (h : Met P) : Walked fun ps _ b => P ps b where
  registered ps _ b hb := h.registered ps b hb
  accept ps _ b path node d hb hnode hpath := h.accept ps b path node d hb hnode hpath
  openBlock ps _ b _ d hb _ := h.openBlock ps b d hb
  closeBlock ps _ b hb := h.closeBlock ps b hb

theorem Met.items (h : Met P) (is : List Decl.Item) (path : List String) (ps : List Placed)
    (b : Builder) (hb : P ps b) (hstand : b.StandsAt path)
    (htop : b.innermost? = none → ∀ i ∈ is, i.isBlock = true) :
    P (ps ++ Decl.itemsPlaced path is) (b.acceptItems is) :=
  h.walked.items is path ps [] b hb hstand htop

/-- What holds of an empty build without types met holds of the build of a source file and its types. -/
theorem Met.unit (h : Met P) (u : Decl.Unit) (hb : P [] b) (hopen : b.openBlocks = []) :
    P u.placed (b.acceptItems u.items) :=
  h.walked.unit u hb hopen

end Builder

end ComponentIdl
