/-!
# Graphs over slots

A graph gives each slot the list of its successors, in order and with repetitions. `nearestFirst`
lists what can be reached from a slot, by distance.
-/

namespace ComponentIdl

/-- What is known of the cycles that a node reaches. -/
inductive Circularity where
  | unknown
  | clear
  | circular
deriving DecidableEq

/-- A directed graph whose nodes are slots. -/
structure Graph where
  successors : Array (List Nat)

namespace Graph

def size (g : Graph) : Nat := g.successors.size

/-- The successors of a node; a node that does not exist has none. -/
def next (g : Graph) (node : Nat) : List Nat :=
  match g.successors[node]? with
  | some nodes => nodes
  | none => []

def edgeCount (g : Graph) : Nat := g.successors.toList.flatten.length

/-- The nodes of a queue that were not seen, each followed later by its own successors. -/
def spread (g : Graph) : Nat → List Nat → List Nat → List Nat
  | 0, _, _ => []
  | _ + 1, [], _ => []
  | fuel + 1, node :: queue, seen =>
    if seen.contains node then g.spread fuel queue seen
    else node :: g.spread fuel (queue ++ g.next node) (node :: seen)

/-- The nodes other than `node` that can be reached from it, the nearest first. Every edge is
followed once at most, so the number of edges bounds the search. -/
def nearestFirst (g : Graph) (node : Nat) : List Nat :=
  g.spread g.edgeCount (g.next node) [node]

end Graph

end ComponentIdl
