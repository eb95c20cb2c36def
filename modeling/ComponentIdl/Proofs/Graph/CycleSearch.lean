import ComponentIdl.Graph.CycleSearch
import ComponentIdl.Proofs.Graph.Reach
import ComponentIdl.Proofs.Loop

/-!
# What the search for cycles finds

At the head of every step of a search the frames form a way of the graph that starts at the root and
repeats no node, the path lists their nodes, nothing is known of these nodes, and a successor that is
no longer to be tried has been passed or lies directly above. So what is known of a node never
changes, and a memo that tells the truth keeps telling it: a node is left as clear only when no
successor leads to a cycle, and blamed only when the top of the stack leads to one.

The measure counts two for each successor to be tried and one for each frame, those of the nodes not
met yet included; every step lowers it, so the fuel of a search never runs out.
-/

namespace ComponentIdl

theorem stateOf_set (memo : Array Circularity) (i n : Nat) (c : Circularity) :
    stateOf (memo.setIfInBounds i c) n = if i = n ∧ n < memo.size then c else stateOf memo n := by
  unfold stateOf
  rw [Array.getElem?_setIfInBounds]
  by_cases hi : i = n
  · subst hi
    by_cases hn : i < memo.size
    · simp [hn]
    · simp [hn]
  · simp [hi]

/-- A node that the search need not enter: known to be clear, or no node of the graph. -/
def Passed (memo : Array Circularity) (node : Nat) : Prop :=
  stateOf memo node = .clear ∨ memo.size ≤ node

/-- What the memo says of a node is so. -/
structure Truthful (g : Graph) (memo : Array Circularity) : Prop where
  clear : ∀ n, stateOf memo n = .clear → ¬ g.LeadsToCycle n
  circular : ∀ n, stateOf memo n = .circular → g.LeadsToCycle n

theorem Truthful.passed {g : Graph} {memo : Array Circularity} {n : Nat} (t : Truthful g memo)
    (hs : memo.size = g.size) (h : Passed memo n) : ¬ g.LeadsToCycle n := by
  rcases h with h | h
  · exact t.clear n h
  · intro hl
    have hn := Graph.leadsToCycle_lt hl
    omega

theorem Truthful.set_clear {g : Graph} {memo : Array Circularity} {node : Nat}
    (t : Truthful g memo) (h : ¬ g.LeadsToCycle node) :
    Truthful g (memo.setIfInBounds node .clear) := by
  constructor
  · intro n hn
    rw [stateOf_set] at hn
    split at hn
    · next hc => exact hc.1 ▸ h
    · exact t.clear n hn
  · intro n hn
    rw [stateOf_set] at hn
    split at hn
    · cases hn
    · exact t.circular n hn

namespace CycleSearch

variable {g : Graph} {root : Nat} {s : CycleSearch}

/-- Each frame but the topmost has an edge to the one above it. -/
def Linked (g : Graph) : List Frame → Prop
  | upper :: lower :: below => g.Edge lower.node upper.node ∧ Linked g (lower :: below)
  | _ => True

/-- A successor of a frame is still to be tried, or it lies directly above, or it was passed. -/
def Tried (g : Graph) (memo : Array Circularity) : Option Nat → List Frame → Prop
  | _, [] => True
  | above, f :: below =>
    (∀ b, g.Edge f.node b → b ∈ f.rest ∨ above = some b ∨ Passed memo b) ∧
      Tried g memo (some f.node) below

/-- What holds at the head of every step of a search from `root` that has met no cycle. -/
structure Inv (g : Graph) (root : Nat) (s : CycleSearch) : Prop where
  live : s.isCircular = false
  linked : Linked g s.stack
  rest : ∀ f ∈ s.stack, ∀ b ∈ f.rest, g.Edge f.node b
  bottom : ∀ n, s.path.getLast? = some n → n = root
  ended : s.stack = [] → Passed s.memo root
  path : s.path = s.stack.map Frame.node
  nodup : s.path.Nodup
  unknown : ∀ n ∈ s.path, stateOf s.memo n = .unknown
  tried : Tried g s.memo none s.stack
  size : s.memo.size = g.size

theorem inv_start (memo : Array Circularity) (hs : memo.size = g.size)
    (hu : stateOf memo root = .unknown) : Inv g root (start g memo root) where
  live := rfl
  linked := trivial
  rest f hf b hb := by
    simp only [start, List.mem_singleton] at hf
    subst hf
    exact hb
  bottom n hn := by
    simp only [start, List.getLast?_singleton, Option.some.injEq] at hn
    exact hn.symm
  ended h := by simp [start] at h
  path := rfl
  nodup := by simp [start]
  unknown n hn := by
    simp only [start, List.mem_singleton] at hn
    rw [hn]
    exact hu
  tried := ⟨fun b hb => Or.inl hb, trivial⟩
  size := hs

theorem edge_of_top {node next : Nat} {rest : List Nat} {below : List Frame} (h : Inv g root s)
    (hs : s.stack = ⟨node, next :: rest⟩ :: below) : g.Edge node next :=
  h.rest _ (by rw [hs]; exact List.mem_cons_self) next List.mem_cons_self

theorem linked_way {top : Frame} {below : List Frame} (h : Linked g (top :: below)) :
    ∀ f ∈ top :: below, Relation.ReflTransGen g.Edge f.node top.node := by
  induction below generalizing top with
  | nil =>
    intro f hf
    rw [List.mem_singleton.1 hf]
  | cons lower below ih =>
    intro f hf
    rcases List.mem_cons.1 hf with rfl | hf
    · exact .refl
    · exact (ih h.2 f hf).tail h.1

theorem linked_tail {top : Frame} {below : List Frame} (h : Linked g (top :: below)) :
    Linked g below := by
  cases below with
  | nil => trivial
  | cons lower below => exact h.2

theorem linked_retop {node : Nat} {rest rest' : List Nat} {below : List Frame}
    (h : Linked g (⟨node, rest⟩ :: below)) : Linked g (⟨node, rest'⟩ :: below) := by
  cases below with
  | nil => trivial
  | cons lower below => exact h

theorem rest_retop {node next : Nat} {rest : List Nat} {below : List Frame}
    (h : ∀ f ∈ ⟨node, next :: rest⟩ :: below, ∀ b ∈ f.rest, g.Edge f.node b) :
    ∀ f ∈ ⟨node, rest⟩ :: below, ∀ b ∈ f.rest, g.Edge f.node b := by
  intro f hf b hb
  rcases List.mem_cons.1 hf with rfl | hf
  · exact h _ (List.mem_cons_self ..) b (List.mem_cons_of_mem _ hb)
  · exact h f (List.mem_cons_of_mem _ hf) b hb

theorem tried_mono {memo memo' : Array Circularity} {above above' : Option Nat}
    (hp : ∀ n, Passed memo n → Passed memo' n)
    (ha : ∀ n, above = some n → above' = some n ∨ Passed memo' n) {frames : List Frame}
    (h : Tried g memo above frames) : Tried g memo' above' frames := by
  induction frames generalizing above above' with
  | nil => trivial
  | cons f below ih =>
    refine ⟨?_, ih (fun n hn => Or.inl hn) h.2⟩
    intro b hb
    rcases h.1 b hb with h1 | h1 | h1
    · exact Or.inl h1
    · exact Or.inr (ha b h1)
    · exact Or.inr (Or.inr (hp b h1))

theorem blame_memo (frames : List Frame) (memo : Array Circularity) :
    (frames.foldl (fun m f => m.setIfInBounds f.node .circular) memo).size = memo.size ∧
    ∀ n, stateOf (frames.foldl (fun m f => m.setIfInBounds f.node .circular) memo) n =
      if n ∈ frames.map Frame.node ∧ n < memo.size then .circular else stateOf memo n := by
  induction frames generalizing memo with
  | nil => simp
  | cons f frames ih =>
    obtain ⟨hsize, hstate⟩ := ih (memo.setIfInBounds f.node .circular)
    rw [Array.size_setIfInBounds] at hsize hstate
    refine ⟨hsize, ?_⟩
    intro n
    rw [List.foldl_cons, hstate n, stateOf_set]
    by_cases hn : n = f.node
    · by_cases hlt : n < memo.size <;> simp [hn ▸ hlt, hn]
    · simp [hn, Ne.symm hn]

theorem size_blame (s : CycleSearch) : s.blame.memo.size = s.memo.size :=
  (blame_memo s.stack s.memo).1

theorem stateOf_blame (s : CycleSearch) (n : Nat) :
    stateOf s.blame.memo n =
      if n ∈ s.stack.map Frame.node ∧ n < s.memo.size then .circular else stateOf s.memo n :=
  (blame_memo s.stack s.memo).2 n

/-! ### One step -/

theorem passed_set_clear {memo : Array Circularity} (node n : Nat) (h : Passed memo n) :
    Passed (memo.setIfInBounds node .clear) n := by
  rcases h with h | h
  · left
    rw [stateOf_set]
    split <;> simp [h]
  · right
    rw [Array.size_setIfInBounds]
    exact h

theorem passed_left (memo : Array Circularity) (node : Nat) :
    Passed (memo.setIfInBounds node .clear) node := by
  by_cases hn : node < memo.size
  · left
    rw [stateOf_set]
    simp [hn]
  · right
    rw [Array.size_setIfInBounds]
    omega

theorem inv_leave {node : Nat} {below : List Frame} (h : Inv g root s)
    (hs : s.stack = ⟨node, []⟩ :: below) :
    Inv g root { s with
      memo := s.memo.setIfInBounds node .clear
      path := s.path.erase node
      stack := below } := by
  have hp : s.path = node :: below.map Frame.node := by rw [h.path, hs]; rfl
  have hnd : (node :: below.map Frame.node).Nodup := hp ▸ h.nodup
  have herase : s.path.erase node = below.map Frame.node := by simp [hp]
  have htried : Tried g s.memo none (⟨node, []⟩ :: below) := hs ▸ h.tried
  have hbottom := h.bottom
  rw [hp] at hbottom
  refine ⟨h.live, linked_tail (hs ▸ h.linked), ?_, ?_, ?_, herase, ?_, ?_, ?_, ?_⟩
  · intro f hf
    exact h.rest f (by rw [hs]; exact List.mem_cons_of_mem _ hf)
  · intro n hn
    rw [herase] at hn
    apply hbottom n
    rw [List.getLast?_cons, hn]
    rfl
  · rintro (rfl : below = [])
    exact hbottom node rfl ▸ passed_left s.memo node
  · rw [herase]
    exact (List.nodup_cons.1 hnd).2
  · intro n hn
    rw [herase] at hn
    have hne : node ≠ n := fun he => (List.nodup_cons.1 hnd).1 (he ▸ hn)
    rw [stateOf_set, if_neg (fun hc => hne hc.1)]
    exact h.unknown n (hp ▸ List.mem_cons_of_mem _ hn)
  · refine tried_mono (passed_set_clear node) ?_ htried.2
    intro n hn
    right
    rw [← Option.some.inj hn]
    exact passed_left s.memo node
  · rw [Array.size_setIfInBounds]
    exact h.size

theorem inv_skip {node next : Nat} {rest : List Nat} {below : List Frame} (h : Inv g root s)
    (hs : s.stack = ⟨node, next :: rest⟩ :: below) (hc : stateOf s.memo next = .clear) :
    Inv g root { s with stack := ⟨node, rest⟩ :: below } := by
  have htried : Tried g s.memo none (⟨node, next :: rest⟩ :: below) := hs ▸ h.tried
  have hlinked : Linked g (⟨node, next :: rest⟩ :: below) := hs ▸ h.linked
  refine ⟨h.live, linked_retop hlinked, rest_retop (hs ▸ h.rest), h.bottom, by simp, ?_,
    h.nodup, h.unknown, ⟨?_, htried.2⟩, h.size⟩
  · rw [h.path, hs]
    rfl
  · intro b hb
    rcases htried.1 b hb with h1 | h1 | h1
    · rcases List.mem_cons.1 h1 with rfl | h1
      · exact Or.inr (Or.inr (Or.inl hc))
      · exact Or.inl h1
    · exact Or.inr (Or.inl h1)
    · exact Or.inr (Or.inr h1)

theorem inv_enter {node next : Nat} {rest : List Nat} {below : List Frame} (h : Inv g root s)
    (hs : s.stack = ⟨node, next :: rest⟩ :: below) (hu : stateOf s.memo next = .unknown)
    (hn : next ∉ s.path) :
    Inv g root { s with
      path := next :: s.path
      stack := ⟨next, g.next next⟩ :: ⟨node, rest⟩ :: below } := by
  have htried : Tried g s.memo none (⟨node, next :: rest⟩ :: below) := hs ▸ h.tried
  have hlinked : Linked g (⟨node, next :: rest⟩ :: below) := hs ▸ h.linked
  have hrest : ∀ f ∈ ⟨node, next :: rest⟩ :: below, ∀ b ∈ f.rest, g.Edge f.node b := hs ▸ h.rest
  have hedge : g.Edge node next := hrest _ (List.mem_cons_self ..) next (List.mem_cons_self ..)
  refine ⟨h.live, ⟨hedge, linked_retop hlinked⟩, ?_, ?_, by simp, ?_,
    List.nodup_cons.2 ⟨hn, h.nodup⟩, ?_, ⟨fun b hb => Or.inl hb, ?_, htried.2⟩, h.size⟩
  · intro f hf
    rcases List.mem_cons.1 hf with rfl | hf
    · exact fun b hb => hb
    · exact rest_retop hrest f hf
  · intro n hl
    apply h.bottom n
    have hp : s.path = node :: below.map Frame.node := by rw [h.path, hs]; rfl
    rw [hp] at hl ⊢
    rw [List.getLast?_cons_cons] at hl
    exact hl
  · show next :: s.path = _
    rw [h.path, hs]
    rfl
  · intro n hm
    rcases List.mem_cons.1 hm with rfl | hm
    · exact hu
    · exact h.unknown n hm
  · intro b hb
    rcases htried.1 b hb with h1 | h1 | h1
    · rcases List.mem_cons.1 h1 with rfl | h1
      · exact Or.inr (Or.inl rfl)
      · exact Or.inl h1
    · cases h1
    · exact Or.inr (Or.inr h1)

/-- The four things a step does to a stack that is not empty. -/
theorem step_cases (hs : s.stack ≠ []) :
    (∃ node below, s.stack = ⟨node, []⟩ :: below ∧
      s.step g = { s with
        memo := s.memo.setIfInBounds node .clear, path := s.path.erase node, stack := below }) ∨
    (∃ node next rest below, s.stack = ⟨node, next :: rest⟩ :: below ∧
      stateOf s.memo next = .clear ∧ s.step g = { s with stack := ⟨node, rest⟩ :: below }) ∨
    (∃ node next rest below, s.stack = ⟨node, next :: rest⟩ :: below ∧
      stateOf s.memo next = .unknown ∧ next ∉ s.path ∧
      s.step g = { s with
        path := next :: s.path, stack := ⟨next, g.next next⟩ :: ⟨node, rest⟩ :: below }) ∨
    (∃ node next rest below, s.stack = ⟨node, next :: rest⟩ :: below ∧
      (stateOf s.memo next = .circular ∨ next ∈ s.path) ∧ s.step g = s.blame) := by
  match hst : s.stack with
  | [] => exact absurd hst hs
  | ⟨node, []⟩ :: below =>
    exact Or.inl ⟨node, below, rfl, by simp only [step, hst]⟩
  | ⟨node, next :: rest⟩ :: below =>
    right
    cases hc : stateOf s.memo next with
    | clear => exact Or.inl ⟨node, next, rest, below, rfl, hc, by simp only [step, hst, hc]⟩
    | circular =>
      exact Or.inr (Or.inr ⟨node, next, rest, below, rfl, Or.inl hc, by simp only [step, hst, hc]⟩)
    | unknown =>
      right
      by_cases hp : next ∈ s.path
      · refine Or.inr ⟨node, next, rest, below, rfl, Or.inr hp, ?_⟩
        simp [step, hst, hc, hp]
      · refine Or.inl ⟨node, next, rest, below, rfl, hc, hp, ?_⟩
        simp [step, hst, hc, hp]

theorem inv_step (h : Inv g root s) (hs : s.stack ≠ []) :
    Inv g root (s.step g) ∨ s.step g = s.blame := by
  rcases step_cases hs with ⟨_, _, hst, he⟩ | ⟨_, _, _, _, hst, hc, he⟩ |
    ⟨_, _, _, _, hst, hu, hn, he⟩ | ⟨_, _, _, _, _, _, he⟩
  · exact Or.inl (he ▸ inv_leave h hst)
  · exact Or.inl (he ▸ inv_skip h hst hc)
  · exact Or.inl (he ▸ inv_enter h hst hu hn)
  · exact Or.inr he

/-! ### The memo tells the truth -/

theorem stack_leadsToCycle {node next : Nat} {rest : List Nat} {below : List Frame}
    (h : Inv g root s) (t : Truthful g s.memo) (hs : s.stack = ⟨node, next :: rest⟩ :: below)
    (hn : stateOf s.memo next = .circular ∨ next ∈ s.path) :
    ∀ f ∈ s.stack, g.LeadsToCycle f.node := by
  have hedge : g.Edge node next := edge_of_top h hs
  have hway := linked_way (hs ▸ h.linked)
  have htop : g.LeadsToCycle node := by
    rcases hn with hn | hn
    · exact Graph.leadsToCycle_of_edge hedge (t.circular next hn)
    · rw [h.path, hs] at hn
      obtain ⟨f, hf, rfl⟩ := List.mem_map.1 hn
      have hcycle : g.OnCycle f.node := Relation.TransGen.tail' (hway f hf) hedge
      exact Graph.leadsToCycle_of_edge hedge (Graph.onCycle_leadsToCycle hcycle)
  intro f hf
  exact Graph.leadsToCycle_of_way (hway f (hs ▸ hf)) htop

theorem truthful_blame (t : Truthful g s.memo) (h : ∀ f ∈ s.stack, g.LeadsToCycle f.node) :
    Truthful g s.blame.memo := by
  constructor
  · intro n hn
    rw [stateOf_blame] at hn
    split at hn
    · cases hn
    · exact t.clear n hn
  · intro n hn
    rw [stateOf_blame] at hn
    split at hn
    · next hc =>
      obtain ⟨f, hf, rfl⟩ := List.mem_map.1 hc.1
      exact h f hf
    · exact t.circular n hn

theorem truthful_step (h : Inv g root s) (t : Truthful g s.memo) (hs : s.stack ≠ []) :
    Truthful g (s.step g).memo := by
  rcases step_cases hs with ⟨node, below, hst, he⟩ | ⟨_, _, _, _, _, _, he⟩ |
    ⟨_, _, _, _, _, _, _, he⟩ | ⟨_, _, _, _, hst, hn, he⟩
  · rw [he]
    apply t.set_clear
    have htried : Tried g s.memo none (⟨node, []⟩ :: below) := hst ▸ h.tried
    intro hl
    obtain ⟨b, hb, hlb⟩ := Graph.leadsToCycle_next hl
    -- nothing is left to try and nothing lies above, so `b` was passed
    rcases htried.1 b hb with h1 | h1 | h1
    · simp at h1
    · cases h1
    · exact t.passed h.size h1 hlb
  · rw [he]
    exact t
  · rw [he]
    exact t
  · rw [he]
    exact truthful_blame t (stack_leadsToCycle h t hst hn)

theorem state_step (h : Inv g root s) {n : Nat} (hn : stateOf s.memo n ≠ .unknown) :
    stateOf (s.step g).memo n = stateOf s.memo n := by
  -- nothing is known of a node of the stack, and a step writes to no other
  have hapart : ∀ f ∈ s.stack, f.node ≠ n := by
    rintro f hf rfl
    exact hn (h.unknown f.node (h.path ▸ List.mem_map_of_mem hf))
  by_cases hs : s.stack = []
  · rw [step, hs]
  · rcases step_cases hs with ⟨node, below, hst, he⟩ | ⟨_, _, _, _, _, _, he⟩ |
      ⟨_, _, _, _, _, _, _, he⟩ | ⟨_, _, _, _, _, _, he⟩
    · have hne : node ≠ n := hapart ⟨node, []⟩ (by rw [hst]; exact List.mem_cons_self)
      rw [he, stateOf_set, if_neg fun hc => hne hc.1]
    · rw [he]
    · rw [he]
    · rw [he, stateOf_blame, if_neg]
      rintro ⟨hmem, -⟩
      obtain ⟨f, hf, hnode⟩ := List.mem_map.1 hmem
      exact hapart f hf hnode

/-- Two for each successor to be tried, one for each frame. -/
def weight (frames : List Frame) : Nat := (frames.map fun f => 2 * f.rest.length + 1).sum

/-- What the frames of the nodes that may still be entered will weigh. -/
def unmet (g : Graph) (memo : Array Circularity) (path : List Nat) : Nat :=
  g.weightLeft (fun n => stateOf memo n = .unknown ∧ n ∉ path) fun n => 2 * (g.next n).length + 1

def cost (g : Graph) (s : CycleSearch) : Nat := weight s.stack + unmet g s.memo s.path

theorem weight_cons (f : Frame) (frames : List Frame) :
    weight (f :: frames) = 2 * f.rest.length + 1 + weight frames := by
  simp [weight]

theorem cost_step (h : Inv g root s) (hs : s.stack ≠ []) : cost g (s.step g) < cost g s := by
  unfold cost
  rcases step_cases hs with ⟨node, below, hst, he⟩ | ⟨node, next, rest, below, hst, _, he⟩ |
    ⟨node, next, rest, below, hst, hu, hn, he⟩ | ⟨node, next, rest, below, hst, _, he⟩
  · have hle : unmet g (s.memo.setIfInBounds node .clear) (s.path.erase node)
        ≤ unmet g s.memo s.path := by
      apply Graph.weightLeft_le
      intro n hlt hc
      rw [stateOf_set] at hc
      -- a node of the graph that was left is known, any other is where it was
      by_cases hne : node = n
      · subst hne
        simp [h.size ▸ hlt] at hc
      · rw [if_neg (fun hx => hne hx.1)] at hc
        exact ⟨hc.1, fun hp => hc.2 ((List.mem_erase_of_ne (Ne.symm hne)).2 hp)⟩
    rw [he, hst, weight_cons]
    simp only [List.length_nil]
    omega
  · rw [he, hst, weight_cons, weight_cons, List.length_cons]
    simp only
    omega
  · rw [he, hst, weight_cons, weight_cons, weight_cons, List.length_cons]
    simp only
    by_cases hlt : next < g.size
    · have hle : unmet g s.memo (next :: s.path) + (2 * (g.next next).length + 1)
          ≤ unmet g s.memo s.path :=
        Graph.weightLeft_take ⟨hu, hn⟩ (by simp) hlt
          fun n _ hc => ⟨hc.1, fun hp => hc.2 (List.mem_cons_of_mem _ hp)⟩
      omega
    · have hnil : (g.next next).length = 0 := by
        rw [Graph.next_of_le (by omega)]
        rfl
      have hle : unmet g s.memo (next :: s.path) ≤ unmet g s.memo s.path :=
        Graph.weightLeft_le fun n _ hc => ⟨hc.1, fun hp => hc.2 (List.mem_cons_of_mem _ hp)⟩
      omega
  · have hle : unmet g s.blame.memo s.blame.path ≤ unmet g s.memo s.path := by
      apply Graph.weightLeft_le
      intro n _ hc
      rw [stateOf_blame] at hc
      split at hc
      · cases hc.1
      · exact hc
    have hzero : weight s.blame.stack = 0 := rfl
    rw [he, hst, weight_cons]
    omega

theorem cost_start (memo : Array Circularity) (root : Nat) :
    cost g (start g memo root) ≤ g.size + 2 * g.edgeCount + 1 := by
  have htotal : g.weightLeft (fun _ => True) (fun n => 2 * (g.next n).length + 1)
      = g.size + 2 * g.edgeCount := by
    rw [Graph.weightLeft_all fun _ _ => trivial, Finset.sum_add_distrib, ← Finset.mul_sum,
      ← Graph.edgeCount_eq_sum, ← Finset.card_eq_sum_ones, Finset.card_range, Nat.add_comm]
  have hw : weight (start g memo root).stack = 2 * (g.next root).length + 1 := by
    simp [weight, start]
  unfold cost
  rw [hw, ← htotal]
  show _ + unmet g memo [root] ≤ _
  by_cases hlt : root < g.size
  · have hrest : unmet g memo [root] + (2 * (g.next root).length + 1)
        ≤ g.weightLeft (fun _ => True) fun n => 2 * (g.next n).length + 1 :=
      Graph.weightLeft_take trivial (by simp) hlt fun _ _ _ => trivial
    omega
  · have hall : unmet g memo [root]
        ≤ g.weightLeft (fun _ => True) fun n => 2 * (g.next n).length + 1 :=
      Graph.weightLeft_le fun _ _ _ => trivial
    have hnil : (g.next root).length = 0 := by
      rw [Graph.next_of_le (by omega)]
      rfl
    omega

/-! ### A whole search -/

theorem isOver_loop : (loop g).isOver s ↔ s.stack = [] := List.isEmpty_iff

theorem cost_pos (hs : s.stack ≠ []) : 0 < cost g s := by
  obtain ⟨f, frames, hst⟩ := List.exists_cons_of_ne_nil hs
  unfold cost
  rw [hst, weight_cons]
  omega

/-- What is known of the nodes once a search has come to its end. -/
structure Done (g : Graph) (root : Nat) (before : Array Circularity) (s : CycleSearch) : Prop where
  stack : s.stack = []
  size : s.memo.size = g.size
  root : root < g.size → stateOf s.memo root ≠ .unknown
  kept : ∀ n, stateOf before n ≠ .unknown → stateOf s.memo n = stateOf before n

theorem root_mem (h : Inv g root s) (hs : s.stack ≠ []) : root ∈ s.stack.map Frame.node := by
  have hne : s.path ≠ [] := by simpa [h.path] using hs
  have hlast := List.getLast?_eq_some_getLast hne
  rw [← h.path, ← h.bottom _ hlast]
  exact List.getLast_mem hne

theorem done_of_blame (h : Inv g root s) (hs : s.stack ≠ []) : Done g root s.memo s.blame where
  stack := rfl
  size := (size_blame s).trans h.size
  root hlt := by
    rw [stateOf_blame, if_pos ⟨root_mem h hs, h.size ▸ hlt⟩]
    simp
  kept n hn := by
    rw [stateOf_blame, if_neg]
    exact fun hc => hn (h.unknown n (h.path ▸ hc.1))

theorem done_of_empty (h : Inv g root s) (hs : s.stack = []) : Done g root s.memo s where
  stack := hs
  size := h.size
  root hlt := by
    rcases h.ended hs with hc | hc
    · simp [hc]
    · have hsize := h.size
      omega
  kept _ _ := rfl

/-- A search that has met no cycle, with what was known before it. -/
structure Underway (g : Graph) (root : Nat) (before : Array Circularity) (s : CycleSearch) :
    Prop where
  inv : Inv g root s
  kept : ∀ n, stateOf before n ≠ .unknown → stateOf s.memo n = stateOf before n

theorem Underway.done {before : Array Circularity} (h : Underway g root before s)
    (hs : s.stack = []) : Done g root before s :=
  { done_of_empty h.inv hs with kept := h.kept }

theorem underway_step {before : Array Circularity} (h : Underway g root before s)
    (hs : s.stack ≠ []) : Underway g root before (s.step g) ∨ Done g root before (s.step g) := by
  have hkept : ∀ n, stateOf before n ≠ .unknown → stateOf (s.step g).memo n = stateOf before n := by
    intro n hn
    have hold := h.kept n hn
    rw [state_step h.inv (by rwa [hold]), hold]
  rcases inv_step h.inv hs with hi | he
  · exact Or.inl ⟨hi, hkept⟩
  · rw [he] at hkept ⊢
    exact Or.inr { done_of_blame h.inv hs with kept := hkept }

theorem run_done (fuel : Nat) (h : Inv g root s) (hf : cost g s ≤ fuel) :
    Done g root s.memo (run g fuel s) := by
  have hstep : ∀ t, Underway g root s.memo t ∨ Done g root s.memo t → ¬ (loop g).isOver t →
      Underway g root s.memo (t.step g) ∨ Done g root s.memo (t.step g) := by
    rintro t (ht | ht) hover
    · exact underway_step ht (mt isOver_loop.2 hover)
    · exact absurd (isOver_loop.2 ht.stack) hover
  have hstart : Underway g root s.memo s ∨ Done g root s.memo s := Or.inl ⟨h, fun _ _ => rfl⟩
  have hover : (loop g).isOver (run g fuel s) := by
    refine Loop.isOver_run hstep (fun t ht => cost_pos (mt isOver_loop.2 ht)) ?_ fuel hstart hf
    rintro t (ht | ht) hover
    · exact Or.inl (cost_step ht.inv (mt isOver_loop.2 hover))
    · exact absurd (isOver_loop.2 ht.stack) hover
  rcases Loop.run_preserves hstep fuel hstart with hrun | hrun
  · exact hrun.done (isOver_loop.1 hover)
  · exact hrun

theorem truthful_run (fuel : Nat) (h : Inv g root s) (t : Truthful g s.memo) :
    Truthful g (run g fuel s).memo := by
  have hstep : ∀ s, (Inv g root s ∨ s.stack = []) ∧ Truthful g s.memo → ¬ (loop g).isOver s →
      (Inv g root (s.step g) ∨ (s.step g).stack = []) ∧ Truthful g (s.step g).memo := by
    rintro s ⟨h, t⟩ hover
    have hs : s.stack ≠ [] := mt isOver_loop.2 hover
    have h := h.resolve_right hs
    refine ⟨?_, truthful_step h t hs⟩
    rcases inv_step h hs with hi | he
    · exact Or.inl hi
    · exact Or.inr (by rw [he]; rfl)
  exact (Loop.run_preserves hstep fuel ⟨Or.inl h, t⟩).2

end CycleSearch

namespace Graph

variable {g : Graph} {memo : Array Circularity}

theorem explore_known {node : Nat} (h : stateOf memo node ≠ .unknown) :
    g.explore memo node = memo := by
  unfold explore
  cases hc : stateOf memo node with
  | unknown => exact absurd hc h
  | clear => rfl
  | circular => rfl

theorem explore_unknown {node : Nat} (h : stateOf memo node = .unknown) :
    g.explore memo node = (g.searchCycle memo node).memo := by
  unfold explore
  rw [h]

/-- Exploring a node finds its state out and keeps the states that are known. -/
theorem explore_spec (node : Nat) (hs : memo.size = g.size) :
    (g.explore memo node).size = g.size ∧
      (node < g.size → stateOf (g.explore memo node) node ≠ .unknown) ∧
      ∀ n, stateOf memo n ≠ .unknown → stateOf (g.explore memo node) n = stateOf memo n := by
  by_cases hu : stateOf memo node = .unknown
  · rw [explore_unknown hu]
    have hd := CycleSearch.run_done _ (CycleSearch.inv_start memo hs hu)
      (CycleSearch.cost_start memo node)
    exact ⟨hd.size, hd.root, hd.kept⟩
  · rw [explore_known hu]
    exact ⟨hs, fun _ => hu, fun _ _ => rfl⟩

theorem truthful_explore (node : Nat) (hs : memo.size = g.size) (t : Truthful g memo) :
    Truthful g (g.explore memo node) := by
  by_cases hu : stateOf memo node = .unknown
  · rw [explore_unknown hu]
    exact CycleSearch.truthful_run _ (CycleSearch.inv_start memo hs hu) t
  · rw [explore_known hu]
    exact t

/-- Classifying nodes in turn: afterwards all of them are known, what was known is as it was, and the
list keeps those that are circular, in their order. -/
theorem exploreAll_settles (nodes : List Nat) (hs : memo.size = g.size)
    (hn : ∀ n ∈ nodes, n < g.size) :
    (g.exploreAll memo nodes).1.size = g.size ∧
      (∀ n, stateOf memo n ≠ .unknown → stateOf (g.exploreAll memo nodes).1 n = stateOf memo n) ∧
      (∀ n ∈ nodes, stateOf (g.exploreAll memo nodes).1 n ≠ .unknown) ∧
      (g.exploreAll memo nodes).2 =
        nodes.filter fun n => stateOf (g.exploreAll memo nodes).1 n == .circular := by
  induction nodes generalizing memo with
  | nil => exact ⟨hs, fun _ _ => rfl, fun n h => absurd h List.not_mem_nil, rfl⟩
  | cons node nodes ih =>
    obtain ⟨hsize, hnode, hkeep⟩ := explore_spec node hs
    obtain ⟨hsize', hkeep', hknown, hlist⟩ := ih hsize fun n h => hn n (List.mem_cons_of_mem _ h)
    have hnode' := hnode (hn node List.mem_cons_self)
    have hsame : stateOf (g.exploreAll memo (node :: nodes)).1 node =
        stateOf (g.explore memo node) node := hkeep' node hnode'
    refine ⟨hsize', ?_, ?_, ?_⟩
    · intro n h
      have h' := hkeep n h
      rw [← h']
      exact hkeep' n (by rw [h']; exact h)
    · intro n h
      rcases List.mem_cons.1 h with rfl | h
      · rw [hsame]
        exact hnode'
      · exact hknown n h
    · rw [List.filter_cons, hsame]
      simp only [exploreAll]
      by_cases hc : stateOf (g.explore memo node) node = .circular
      · rw [if_pos hc, if_pos (by simpa using hc)]
        exact congrArg (node :: ·) hlist
      · rw [if_neg hc, if_neg (by simpa using hc)]
        exact hlist

/-- Known nodes are classified by what is known. -/
theorem exploreAll_known {nodes : List Nat} (h : ∀ n ∈ nodes, stateOf memo n ≠ .unknown) :
    g.exploreAll memo nodes = (memo, nodes.filter fun n => stateOf memo n == .circular) := by
  induction nodes with
  | nil => rfl
  | cons node nodes ih =>
    have hnode := explore_known (g := g) (h node List.mem_cons_self)
    simp only [exploreAll, hnode, ih fun n hn => h n (List.mem_cons_of_mem _ hn),
      List.filter_cons, beq_iff_eq]

theorem truthful_exploreAll (nodes : List Nat) (hs : memo.size = g.size) (t : Truthful g memo) :
    Truthful g (g.exploreAll memo nodes).1 := by
  induction nodes generalizing memo with
  | nil => exact t
  | cons node nodes ih => exact ih (explore_spec node hs).1 (truthful_explore node hs t)

theorem exploreAll_spec (nodes : List Nat) (hs : memo.size = g.size) (t : Truthful g memo)
    (hn : ∀ n ∈ nodes, n < g.size) :
    Truthful g (g.exploreAll memo nodes).1 ∧
      (∀ n, n ∈ nodes ∨ stateOf memo n ≠ .unknown →
        stateOf (g.exploreAll memo nodes).1 n ≠ .unknown) ∧
      (g.exploreAll memo nodes).2 =
        nodes.filter fun n => stateOf (g.exploreAll memo nodes).1 n == .circular := by
  obtain ⟨-, hkeep, hknown, hlist⟩ := exploreAll_settles nodes hs hn
  refine ⟨truthful_exploreAll nodes hs t, ?_, hlist⟩
  rintro n (h | h)
  · exact hknown n h
  · rw [hkeep n h]
    exact h

end Graph

end ComponentIdl
