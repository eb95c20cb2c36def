import ComponentIdl.Graph
import ComponentIdl.Loop

/-!
# Searching for cycles

A node is circular if some way along the edges leads from it into a cycle, whether or not the node
lies on the cycle, and clear if no way does.

The search from one node goes depth first over a stack of frames and remembers what it learns: a
node left with no successor to try is clear, and once a cycle is met all nodes of the stack are
circular. What is known of a node is never asked again.
-/

namespace ComponentIdl

/-- A node on the way of the search, with the successors still to be tried. -/
structure Frame where
  node : Nat
  rest : List Nat

/-- A search for a cycle. -/
structure CycleSearch where
  /-- What is known of every node. -/
  memo : Array Circularity
  /-- The nodes on the way from the root to the topmost frame. -/
  path : List Nat
  /-- The frames of these nodes, the topmost first. -/
  stack : List Frame
  /-- Whether a cycle has been met. -/
  isCircular : Bool := false

/-- What is known of a node. -/
def stateOf (memo : Array Circularity) (node : Nat) : Circularity :=
  match memo[node]? with
  | some state => state
  | none => .unknown

namespace CycleSearch

/-- A search that starts at `root`. -/
def start (g : Graph) (memo : Array Circularity) (root : Nat) : CycleSearch :=
  { memo, path := [root], stack := [⟨root, g.next root⟩] }

/-- Ends the search at a cycle: every node of the stack leads to it. -/
def blame (s : CycleSearch) : CycleSearch :=
  { s with
    memo := s.stack.foldl (fun memo f => memo.setIfInBounds f.node .circular) s.memo
    stack := []
    isCircular := true }

/-- One step: the topmost frame tries its next successor, or is left as clear. -/
def step (g : Graph) (s : CycleSearch) : CycleSearch :=
  match s.stack with
  | [] => s
  | ⟨node, []⟩ :: below =>
    { s with
      memo := s.memo.setIfInBounds node .clear
      path := s.path.erase node
      stack := below }
  | ⟨node, next :: rest⟩ :: below =>
    match stateOf s.memo next with
    | .circular => s.blame
    | .clear => { s with stack := ⟨node, rest⟩ :: below }
    | .unknown =>
      if s.path.contains next then s.blame
      else
        { s with
          path := next :: s.path
          stack := ⟨next, g.next next⟩ :: ⟨node, rest⟩ :: below }

/-- The search is over when its stack is empty. -/
def loop (g : Graph) : Loop CycleSearch where
  step := step g
  isOver s := s.stack.isEmpty

/-- Steps until the stack is empty, `fuel` times at most. -/
def run (g : Graph) : Nat → CycleSearch → CycleSearch := (loop g).run

end CycleSearch

/-- The search from `root`, at its end. Each node of the graph gets one frame at most, and each edge
is tried once; an edge that leads out of the graph may cost a frame of its own. -/
def Graph.searchCycle (g : Graph) (memo : Array Circularity) (root : Nat) : CycleSearch :=
  (CycleSearch.start g memo root).run g (g.size + 2 * g.edgeCount + 1)

def Graph.explore (g : Graph) (memo : Array Circularity) (node : Nat) : Array Circularity :=
  match stateOf memo node with
  | .unknown => (g.searchCycle memo node).memo
  | _ => memo

/-- Classifies nodes in turn; the second part lists the circular ones. -/
def Graph.exploreAll (g : Graph) : Array Circularity → List Nat → Array Circularity × List Nat
  | memo, [] => (memo, [])
  | memo, node :: nodes =>
    let known := g.explore memo node
    let others := g.exploreAll known nodes
    (others.1,
      if stateOf known node = .circular then node :: others.2 else others.2)

end ComponentIdl
