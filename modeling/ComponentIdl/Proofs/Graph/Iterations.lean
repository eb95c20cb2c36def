import ComponentIdl.Proofs.Graph.CycleSearch

/-!
# The iterations of the search for cycles

A memo is coherent if it is right about every node, given what it says of the successors. From a
coherent memo and an unknown root, every iteration of the search begins with a stack that is a way of
the graph from the root and repeats no node. Nothing is known of the nodes on the way; the successors
they have tried are clear, except the one that the way goes on to. So every write keeps the memo
coherent.

A node is unknown and off the way when it is pushed, and will not be both again. So no node is pushed
twice, and the search ends.
-/

namespace ComponentIdl

/-- Every edge leads to a node of the graph. -/
def Graph.Closed (g : Graph) : Prop := ∀ a b, g.Edge a b → b < g.size

/-- A clear node has only clear successors, and a circular node has a circular successor. -/
structure Coherent (g : Graph) (memo : Array Circularity) : Prop where
  clear : ∀ a b, stateOf memo a = .clear → g.Edge a b → stateOf memo b = .clear
  circular : ∀ a, stateOf memo a = .circular → ∃ b, g.Edge a b ∧ stateOf memo b = .circular

theorem Graph.closed_iff {g : Graph} : g.Closed ↔ ∀ a < g.size, ∀ b ∈ g.next a, b < g.size :=
  ⟨fun h a _ b hb => h a b hb, fun h a b hb => h a (edge_lt hb) b hb⟩

instance (g : Graph) : Decidable g.Closed := decidable_of_iff _ Graph.closed_iff.symm

theorem lt_of_circular {memo : Array Circularity} {n : Nat} (h : stateOf memo n = .circular) :
    n < memo.size := by
  by_contra hn
  have hnone : memo[n]? = none := Array.getElem?_eq_none (Nat.not_lt.1 hn)
  simp [stateOf, hnone] at h

theorem coherent_iff {g : Graph} {memo : Array Circularity} : Coherent g memo ↔
    (∀ a < g.size, stateOf memo a = .clear → ∀ b ∈ g.next a, stateOf memo b = .clear) ∧
      ∀ a < memo.size, stateOf memo a = .circular → ∃ b ∈ g.next a, stateOf memo b = .circular := by
  constructor
  · exact fun h => ⟨fun a _ ha b hb => h.clear a b ha hb, fun a _ ha => h.circular a ha⟩
  · rintro ⟨hclear, hcircular⟩
    exact ⟨fun a b ha hb => hclear a (Graph.edge_lt hb) ha b hb,
      fun a ha => hcircular a (lt_of_circular ha) ha⟩

instance (g : Graph) (memo : Array Circularity) : Decidable (Coherent g memo) :=
  decidable_of_iff _ coherent_iff.symm

section Writes

variable {g : Graph} {memo : Array Circularity} {node n : Nat}

theorem stateOf_set_clear (h : stateOf memo n = .clear) (node : Nat) :
    stateOf (memo.setIfInBounds node .clear) n = .clear := by
  rw [stateOf_set]
  split
  · rfl
  · exact h

theorem Coherent.set_clear (h : Coherent g memo) (hnode : stateOf memo node = .unknown)
    (hnext : ∀ b, g.Edge node b → stateOf memo b = .clear) :
    Coherent g (memo.setIfInBounds node .clear) := by
  constructor
  · intro a b ha hb
    apply stateOf_set_clear
    rw [stateOf_set] at ha
    split at ha
    · next hc => exact hnext b (hc.1 ▸ hb)
    · exact h.clear a b ha hb
  · intro a ha
    rw [stateOf_set] at ha
    split at ha
    · cases ha
    · obtain ⟨b, hb, hcircular⟩ := h.circular a ha
      refine ⟨b, hb, ?_⟩
      rw [stateOf_set, if_neg]
      · exact hcircular
      · rintro ⟨rfl, -⟩
        rw [hnode] at hcircular
        cases hcircular

end Writes

namespace CycleSearch

variable {g : Graph} {root node next n : Nat} {rest : List Nat} {below frames : List Frame}
  {memo memo' : Array Circularity} {above : Option Nat} {s : CycleSearch}

/-- Each frame has tried the successors of its node up to the rest. They are clear, except the last
one where a frame lies above, which is the node of this frame. -/
def Advanced (g : Graph) (memo : Array Circularity) : Option Nat → List Frame → Prop
  | _, [] => True
  | above, f :: below =>
    (∃ tried, g.next f.node = tried ++ above.toList ++ f.rest ∧
        ∀ b ∈ tried, stateOf memo b = .clear) ∧
      Advanced g memo (some f.node) below

/-- What holds at the head of an iteration of the search from `root`. -/
structure Iteration (g : Graph) (root : Nat) (s : CycleSearch) : Prop where
  way : (s.stack.map Frame.node).IsChain fun upper lower => g.Edge lower upper
  bottom : ∀ n, (s.stack.map Frame.node).getLast? = some n → n = root
  distinct : (s.stack.map Frame.node).Nodup
  path : ∀ n, n ∈ s.path ↔ n ∈ s.stack.map Frame.node
  unknown : ∀ f ∈ s.stack, stateOf s.memo f.node = .unknown
  advanced : Advanced g s.memo none s.stack

/-- The nodes on the way, the latest first. -/
def nodes (s : CycleSearch) : List Nat := s.stack.map Frame.node

/-- The nodes pushed in the next `fuel` iterations. -/
def pushes (g : Graph) : Nat → CycleSearch → List Nat := (loop g).pushes nodes

theorem advanced_mono (h : Advanced g memo above frames)
    (hclear : ∀ n, stateOf memo n = .clear → stateOf memo' n = .clear) :
    Advanced g memo' above frames := by
  induction frames generalizing above with
  | nil => trivial
  | cons f below ih =>
    obtain ⟨⟨tried, hnext, htried⟩, hbelow⟩ := h
    exact ⟨⟨tried, hnext, fun b hb => hclear b (htried b hb)⟩, ih hbelow⟩

/-- The node that lay above is clear by now, so it is one of those tried. -/
theorem advanced_uncover (h : Advanced g memo (some node) frames)
    (hnode : stateOf memo node = .clear) : Advanced g memo none frames := by
  cases frames with
  | nil => trivial
  | cons f below =>
    obtain ⟨⟨tried, hnext, htried⟩, hbelow⟩ := h
    refine ⟨⟨tried ++ [node], ?_, ?_⟩, hbelow⟩
    · rw [hnext, Option.toList_some, Option.toList_none, List.append_nil]
    · exact List.forall_mem_append.2 ⟨htried, List.forall_mem_singleton.2 hnode⟩

theorem advanced_skip (h : Advanced g memo none (⟨node, next :: rest⟩ :: below))
    (hnext : stateOf memo next = .clear) : Advanced g memo none (⟨node, rest⟩ :: below) := by
  obtain ⟨⟨tried, heq, htried⟩, hbelow⟩ := h
  refine ⟨⟨tried ++ [next], ?_, ?_⟩, hbelow⟩
  · rw [heq]
    simp
  · exact List.forall_mem_append.2 ⟨htried, List.forall_mem_singleton.2 hnext⟩

theorem advanced_enter (h : Advanced g memo none (⟨node, next :: rest⟩ :: below)) :
    Advanced g memo none (⟨next, g.next next⟩ :: ⟨node, rest⟩ :: below) := by
  obtain ⟨⟨tried, heq, htried⟩, hbelow⟩ := h
  refine ⟨⟨[], by simp, by simp⟩, ⟨tried, ?_, htried⟩, hbelow⟩
  rw [heq]
  simp

/-- A frame with nothing left to try has clear successors only. -/
theorem clear_of_advanced (h : Advanced g memo none (⟨node, []⟩ :: below)) {b : Nat}
    (hb : g.Edge node b) : stateOf memo b = .clear := by
  obtain ⟨⟨tried, heq, htried⟩, -⟩ := h
  apply htried b
  simpa [Graph.Edge, heq] using hb

/-- Every node of the stack but the topmost has the one above it as a successor. -/
theorem exists_next_in_stack (h : Linked g frames) {f : Frame} (hf : f ∈ frames.tail) :
    ∃ f' ∈ frames, g.Edge f.node f'.node := by
  induction frames with
  | nil => cases hf
  | cons upper below ih =>
    cases below with
    | nil => cases hf
    | cons lower below =>
      rcases List.mem_cons.1 hf with rfl | hf
      · exact ⟨upper, List.mem_cons_self, h.1⟩
      · obtain ⟨f', hf', hedge⟩ := ih h.2 hf
        exact ⟨f', List.mem_cons_of_mem _ hf', hedge⟩

/-- A node of the way has the next one as a successor, and the last has one that is circular or on the
way. -/
theorem exists_next_of_mem_path (h : Inv g root s) (hs : s.stack = ⟨node, next :: rest⟩ :: below)
    (hnext : stateOf s.memo next = .circular ∨ next ∈ s.path) (hn : n ∈ s.path) :
    ∃ b, g.Edge n b ∧ (stateOf s.memo b = .circular ∨ b ∈ s.path) := by
  rw [h.path, hs] at hn
  obtain ⟨f, hf, rfl⟩ := List.mem_map.1 hn
  rcases List.mem_cons.1 hf with rfl | hf
  · exact ⟨next, edge_of_top h hs, hnext⟩
  · obtain ⟨f', hf', hedge⟩ := exists_next_in_stack h.linked (f := f) (by rw [hs]; exact hf)
    refine ⟨f'.node, hedge, Or.inr ?_⟩
    rw [h.path]
    exact List.mem_map_of_mem hf'

theorem stateOf_blame_path (h : Inv g root s) (hinside : ∀ n ∈ s.path, n < g.size) (n : Nat) :
    stateOf s.blame.memo n = if n ∈ s.path then .circular else stateOf s.memo n := by
  rw [stateOf_blame, ← h.path, h.size]
  by_cases hn : n ∈ s.path
  · rw [if_pos ⟨hn, hinside n hn⟩, if_pos hn]
  · rw [if_neg fun hc => hn hc.1, if_neg hn]

theorem coherent_blame (h : Coherent g s.memo) (hi : Inv g root s)
    (hinside : ∀ n ∈ s.path, n < g.size) (hs : s.stack = ⟨node, next :: rest⟩ :: below)
    (hnext : stateOf s.memo next = .circular ∨ next ∈ s.path) : Coherent g s.blame.memo := by
  have hstate := stateOf_blame_path hi hinside
  have hcircular : ∀ n, stateOf s.memo n = .circular ∨ n ∈ s.path →
      stateOf s.blame.memo n = .circular := by
    intro n hn
    rw [hstate]
    split
    · rfl
    · next hc => exact hn.resolve_right hc
  constructor
  · intro a b ha hb
    rw [hstate] at ha
    split at ha
    · cases ha
    · -- what is clear is not on the way
      have hclear := h.clear a b ha hb
      have hoff : b ∉ s.path := by
        intro hpath
        rw [hi.unknown b hpath] at hclear
        cases hclear
      rwa [hstate, if_neg hoff]
  · intro a ha
    by_cases hpath : a ∈ s.path
    · obtain ⟨b, hb, hnext⟩ := exists_next_of_mem_path hi hs hnext hpath
      exact ⟨b, hb, hcircular b hnext⟩
    · rw [hstate, if_neg hpath] at ha
      obtain ⟨b, hb, hnext⟩ := h.circular a ha
      exact ⟨b, hb, hcircular b (Or.inl hnext)⟩

/-! ### One iteration -/

/-- The invariant of a search that has met no cycle. -/
structure Searching (g : Graph) (root : Nat) (s : CycleSearch) : Prop where
  inv : Inv g root s
  inside : ∀ n ∈ s.path, n < g.size
  advanced : Advanced g s.memo none s.stack
  coherent : Coherent g s.memo

/-- A search that has met a cycle. -/
structure Blamed (g : Graph) (root : Nat) (s : CycleSearch) : Prop where
  isCircular : s.isCircular = true
  stack : s.stack = []
  coherent : Coherent g s.memo
  root : stateOf s.memo root = .circular

theorem isChain_of_linked (h : Linked g frames) :
    (frames.map Frame.node).IsChain fun upper lower => g.Edge lower upper := by
  induction frames with
  | nil => exact .nil
  | cons upper below ih =>
    cases below with
    | nil => exact .singleton _
    | cons lower below => exact .cons_cons h.1 (ih h.2)

theorem Searching.iteration (h : Searching g root s) : Iteration g root s where
  way := isChain_of_linked h.inv.linked
  bottom n hn := h.inv.bottom n (h.inv.path ▸ hn)
  distinct := h.inv.path ▸ h.inv.nodup
  path n := by rw [h.inv.path]
  unknown f hf := h.inv.unknown _ (h.inv.path ▸ List.mem_map_of_mem hf)
  advanced := h.advanced

theorem searching_start (hsize : memo.size = g.size) (h : Coherent g memo) (hroot : root < g.size)
    (hu : stateOf memo root = .unknown) : Searching g root (start g memo root) where
  inv := inv_start memo hsize hu
  inside n hn := by rwa [List.mem_singleton.1 hn]
  advanced := ⟨⟨[], rfl, by simp⟩, trivial⟩
  coherent := h

theorem searching_leave (h : Searching g root s) (hs : s.stack = ⟨node, []⟩ :: below) :
    Searching g root { s with
      memo := s.memo.setIfInBounds node .clear
      path := s.path.erase node
      stack := below } := by
  have hmem : node ∈ s.path := by
    rw [h.inv.path, hs]
    exact List.mem_cons_self
  have hadvanced : Advanced g s.memo none (⟨node, []⟩ :: below) := hs ▸ h.advanced
  have hleft : stateOf (s.memo.setIfInBounds node .clear) node = .clear := by
    rw [stateOf_set, if_pos ⟨rfl, h.inv.size ▸ h.inside node hmem⟩]
  refine ⟨inv_leave h.inv hs, fun n hn => h.inside n (List.mem_of_mem_erase hn), ?_, ?_⟩
  · have hbelow := advanced_mono hadvanced.2 fun n hn => stateOf_set_clear hn node
    exact advanced_uncover hbelow hleft
  · exact h.coherent.set_clear (h.inv.unknown node hmem) fun b hb => clear_of_advanced hadvanced hb

theorem searching_step (hclosed : g.Closed) (h : Searching g root s) (hs : s.stack ≠ []) :
    Searching g root (s.step g) ∨ Blamed g root (s.step g) := by
  rcases step_cases hs with ⟨node, below, hst, he⟩ | ⟨node, next, rest, below, hst, hc, he⟩ |
    ⟨node, next, rest, below, hst, hu, hn, he⟩ | ⟨node, next, rest, below, hst, hn, he⟩
  · rw [he]
    exact Or.inl (searching_leave h hst)
  · have hadvanced := advanced_skip (hst ▸ h.advanced) hc
    rw [he]
    exact Or.inl ⟨inv_skip h.inv hst hc, h.inside, hadvanced, h.coherent⟩
  · have hlt := hclosed node next (edge_of_top h.inv hst)
    have hadvanced := advanced_enter (hst ▸ h.advanced)
    rw [he]
    exact Or.inl ⟨inv_enter h.inv hst hu hn, List.forall_mem_cons.2 ⟨hlt, h.inside⟩, hadvanced,
      h.coherent⟩
  · have hroot : root ∈ s.path := h.inv.path ▸ root_mem h.inv hs
    rw [he]
    refine Or.inr ⟨rfl, rfl, coherent_blame h.coherent h.inv h.inside hst hn, ?_⟩
    rw [stateOf_blame_path h.inv h.inside, if_pos hroot]

theorem searching_of_not_isOver (h : Searching g root s ∨ Blamed g root s)
    (hover : ¬ (loop g).isOver s) : s.stack ≠ [] ∧ Searching g root s := by
  refine ⟨mt isOver_loop.2 hover, h.resolve_right fun h => ?_⟩
  exact hover (isOver_loop.2 h.stack)

theorem searching_or_blamed_step (hclosed : g.Closed) (h : Searching g root s ∨ Blamed g root s)
    (hover : ¬ (loop g).isOver s) : Searching g root (s.step g) ∨ Blamed g root (s.step g) := by
  obtain ⟨hs, h⟩ := searching_of_not_isOver h hover
  exact searching_step hclosed h hs

theorem searching_run (hclosed : g.Closed) (fuel : Nat) (h : Searching g root s) :
    Searching g root (run g fuel s) ∨ Blamed g root (run g fuel s) :=
  Loop.run_preserves (fun _ => searching_or_blamed_step hclosed) fuel (Or.inl h)

/-! ### Nodes pushed -/

/-- The node may still be pushed: it is a node of the graph, unknown and off the way. -/
def Fresh (g : Graph) (s : CycleSearch) (n : Nat) : Prop :=
  n < g.size ∧ stateOf s.memo n = .unknown ∧ n ∉ s.path

theorem pushed?_of_length (h : (s.step g).stack.length ≤ s.stack.length) :
    (loop g).pushed? nodes s = none :=
  Loop.pushed?_of_le (by simpa [nodes, loop] using h)

/-- A step makes no node fresh, and a node that it pushes was fresh and is so no more. -/
theorem fresh_step (hclosed : g.Closed) (h : Searching g root s) (hs : s.stack ≠ []) :
    (∀ n, Fresh g (s.step g) n → Fresh g s n) ∧
      ∀ n ∈ (loop g).pushed? nodes s, Fresh g s n ∧ ¬ Fresh g (s.step g) n := by
  rcases step_cases (g := g) hs with ⟨node, below, hst, he⟩ |
    ⟨node, next, rest, below, hst, hc, he⟩ | ⟨node, next, rest, below, hst, hu, hn, he⟩ |
    ⟨node, next, rest, below, hst, hn, he⟩
  · rw [pushed?_of_length (by simp [he, hst]), he]
    refine ⟨?_, nofun⟩
    rintro n ⟨hlt, hunknown, hpath⟩
    have hne : n ≠ node := by
      rintro rfl
      rw [stateOf_set, if_pos ⟨rfl, h.inv.size ▸ hlt⟩] at hunknown
      cases hunknown
    rw [stateOf_set, if_neg fun hx => hne hx.1.symm] at hunknown
    exact ⟨hlt, hunknown, fun hmem => hpath ((List.mem_erase_of_ne hne).2 hmem)⟩
  · rw [pushed?_of_length (by simp [he, hst]), he]
    exact ⟨fun _ hfresh => hfresh, nofun⟩
  · have hpushed : (loop g).pushed? nodes s = some next := by
      refine Loop.pushed?_of_cons ?_
      show nodes (s.step g) = _
      rw [he]
      simp [nodes, hst]
    rw [hpushed, he]
    constructor
    · rintro n ⟨hlt, hunknown, hpath⟩
      exact ⟨hlt, hunknown, fun hmem => hpath (List.mem_cons_of_mem next hmem)⟩
    · intro n hn'
      obtain rfl := Option.some.inj hn'
      exact ⟨⟨hclosed node next (edge_of_top h.inv hst), hu, hn⟩,
        fun hfresh => hfresh.2.2 List.mem_cons_self⟩
  · rw [pushed?_of_length (by simp [he, blame]), he]
    refine ⟨?_, nofun⟩
    rintro n ⟨hlt, hunknown, hpath⟩
    rw [stateOf_blame] at hunknown
    split at hunknown
    · cases hunknown
    · exact ⟨hlt, hunknown, hpath⟩

theorem pushes_nodup (hclosed : g.Closed) (fuel : Nat) (h : Searching g root s) :
    (pushes g fuel s).Nodup ∧ ∀ n ∈ pushes g fuel s, Fresh g s n := by
  refine Loop.pushes_fresh (fun _ => searching_or_blamed_step hclosed) (fun s h hover => ?_)
    (fun s h hover => ?_) fuel (Or.inl h)
  · obtain ⟨hs, h⟩ := searching_of_not_isOver h hover
    exact (fresh_step hclosed h hs).1
  · obtain ⟨hs, h⟩ := searching_of_not_isOver h hover
    exact (fresh_step hclosed h hs).2

end CycleSearch

/-- From a coherent memo and an unknown root: whatever the number of iterations, the memo is coherent, and
unless a cycle has been met the stack is as it must be at the head of an iteration. No node is pushed
twice, the root included, and none that the graph does not have. The search has an end, which more
iterations do not change; it has met a cycle if the root is circular then, and none if the root is
clear. -/
theorem Graph.searchCycle_iterations {g : Graph} {memo : Array Circularity} {root : Nat}
    (hclosed : g.Closed) (hsize : memo.size = g.size) (hcoherent : Coherent g memo)
    (hroot : root < g.size) (hu : stateOf memo root = .unknown) :
    (∀ k, let s := (CycleSearch.start g memo root).run g k
      Coherent g s.memo ∧ (s.isCircular = false → s.Iteration g root)) ∧
    (∀ k, (root :: (CycleSearch.start g memo root).pushes g k).Nodup ∧
      ∀ n ∈ (CycleSearch.start g memo root).pushes g k, n < g.size) ∧
    (g.searchCycle memo root).stack = [] ∧
    (∀ k, g.size + 2 * g.edgeCount + 1 ≤ k →
      (CycleSearch.start g memo root).run g k = g.searchCycle memo root) ∧
    ((g.searchCycle memo root).isCircular = true ↔
      stateOf (g.searchCycle memo root).memo root = .circular) ∧
    ((g.searchCycle memo root).isCircular = false ↔
      stateOf (g.searchCycle memo root).memo root = .clear) := by
  have hstart := CycleSearch.searching_start hsize hcoherent hroot hu
  have hdone : CycleSearch.Done g root memo (g.searchCycle memo root) :=
    CycleSearch.run_done _ hstart.inv (CycleSearch.cost_start memo root)
  refine ⟨fun k => ?_, fun k => ?_, hdone.stack, fun k hk => ?_, ?_⟩
  · rcases CycleSearch.searching_run hclosed k hstart with h | h
    · exact ⟨h.coherent, fun _ => h.iteration⟩
    · refine ⟨h.coherent, fun hlive => ?_⟩
      rw [h.isCircular] at hlive
      cases hlive
  · obtain ⟨hdistinct, hfresh⟩ := CycleSearch.pushes_nodup hclosed k hstart
    refine ⟨List.nodup_cons.2 ⟨fun hmem => ?_, hdistinct⟩, fun n hn => (hfresh n hn).1⟩
    -- the root is on the way from the start
    exact (hfresh root hmem).2.2 List.mem_cons_self
  · exact Loop.run_enough _ (CycleSearch.isOver_loop.2 hdone.stack) k hk
  · have hend : (g.searchCycle memo root).Searching g root ∨ (g.searchCycle memo root).Blamed g root :=
      CycleSearch.searching_run hclosed _ hstart
    rcases hend with h | h
    · have hclear : stateOf (g.searchCycle memo root).memo root = .clear := by
        refine (h.inv.ended hdone.stack).resolve_right ?_
        rw [hdone.size]
        omega
      simp [hclear, h.inv.live]
    · simp [h.root, h.isCircular]

/-- The last node is known to be clear. The first has it as a successor and then one of two nodes that
are successors of each other. -/
def roundabout : Graph := ⟨#[[3, 1], [2], [1], []]⟩

theorem Graph.searchCycle_iterations_roundabout :
    let memo := #[.unknown, .unknown, .unknown, .clear]
    let start := CycleSearch.start roundabout memo 0
    roundabout.Closed ∧ memo.size = roundabout.size ∧ Coherent roundabout memo ∧
      stateOf memo 0 = .unknown ∧
      (start.run roundabout 3).Iteration roundabout 0 ∧ start.pushes roundabout 3 = [1, 2] ∧
      [0, 1, 2].Nodup ∧ stateOf (roundabout.searchCycle memo 0).memo 0 = .circular := by
  intro memo start
  have hclosed : roundabout.Closed := by decide
  have hcoherent : Coherent roundabout memo := by decide
  have hu : stateOf memo 0 = .unknown := by decide
  have hpushes : start.pushes roundabout 3 = [1, 2] := by decide
  obtain ⟨hhead, hdistinct, -, -, hcircular, -⟩ :=
    searchCycle_iterations hclosed rfl hcoherent (by decide) hu
  refine ⟨hclosed, rfl, hcoherent, hu, (hhead 3).2 (by decide), hpushes, ?_, hcircular.1 (by decide)⟩
  have hthree := (hdistinct 3).1
  rwa [show CycleSearch.pushes roundabout 3 _ = [1, 2] from hpushes] at hthree

end ComponentIdl
