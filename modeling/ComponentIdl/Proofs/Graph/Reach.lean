import Mathlib.Algebra.BigOperators.Ring.Finset
import Mathlib.Algebra.Order.BigOperators.Group.Finset
import Mathlib.Logic.Relation
import ComponentIdl.Graph

/-!
# Ways, cycles and edges counted

The vocabulary of all statements about graphs over slots. A node leads to a cycle if some way along
the edges, of any length, reaches a node that lies on one. A slot outside the graph has no edges, so
nothing is assumed about the successors a node lists.
-/

namespace ComponentIdl.Graph

variable {g : Graph} {a b node : Nat}

def Edge (g : Graph) (a b : Nat) : Prop := b ∈ g.next a

/-- A way of at least one edge leads from the node back to it. -/
def OnCycle (g : Graph) (node : Nat) : Prop := Relation.TransGen g.Edge node node

/-- Some way leads from the node to a node on a cycle. -/
def LeadsToCycle (g : Graph) (node : Nat) : Prop :=
  ∃ m, Relation.ReflTransGen g.Edge node m ∧ g.OnCycle m

theorem leadsToCycle_of_way (way : Relation.ReflTransGen g.Edge a b) (hb : g.LeadsToCycle b) :
    g.LeadsToCycle a := by
  obtain ⟨m, hm, hc⟩ := hb
  exact ⟨m, way.trans hm, hc⟩

theorem leadsToCycle_of_edge (h : g.Edge a b) (hb : g.LeadsToCycle b) : g.LeadsToCycle a :=
  leadsToCycle_of_way (.single h) hb

theorem onCycle_leadsToCycle (h : g.OnCycle node) : g.LeadsToCycle node := ⟨node, .refl, h⟩

theorem leadsToCycle_next (h : g.LeadsToCycle a) : ∃ b, g.Edge a b ∧ g.LeadsToCycle b := by
  obtain ⟨m, way, hc⟩ := h
  rcases way.cases_head with rfl | ⟨b, hab, hbm⟩
  · obtain ⟨b, hab, hba⟩ := Relation.TransGen.head'_iff.1 hc
    exact ⟨b, hab, a, hba, hc⟩
  · exact ⟨b, hab, m, hbm, hc⟩

/-- A relation that takes a node to one node of the other graph at most, and its edges to edges. -/
structure Simulation (g g' : Graph) (R : Nat → Nat → Prop) : Prop where
  forth : ∀ a b a', R a a' → g.Edge a b → ∃ b', g'.Edge a' b' ∧ R b b'
  unique : ∀ a a' b', R a a' → R a b' → a' = b'

section Simulation

variable {g' : Graph} {R : Nat → Nat → Prop} {a' : Nat}

theorem Simulation.onCycle (h : Simulation g g' R) (hr : R a a') (hc : g.OnCycle a) :
    g'.OnCycle a' := by
  have hway : ∀ b, Relation.TransGen g.Edge a b →
      ∃ b', Relation.TransGen g'.Edge a' b' ∧ R b b' := by
    intro b way
    induction way with
    | single hab =>
      obtain ⟨b', hab', hb⟩ := h.forth _ _ _ hr hab
      exact ⟨b', .single hab', hb⟩
    | tail _ hbc ih =>
      obtain ⟨b', way', hb⟩ := ih
      obtain ⟨c', hbc', hc⟩ := h.forth _ _ _ hb hbc
      exact ⟨c', way'.tail hbc', hc⟩
  obtain ⟨b', way', hb⟩ := hway a hc
  obtain rfl := h.unique a a' b' hr hb
  exact way'

theorem Simulation.leadsToCycle (h : Simulation g g' R) (hr : R a a')
    (hc : g.LeadsToCycle a) : g'.LeadsToCycle a' := by
  obtain ⟨m, way, hm⟩ := hc
  induction way using Relation.ReflTransGen.head_induction_on generalizing a' with
  | refl => exact ⟨a', .refl, h.onCycle hr hm⟩
  | head hab _ ih =>
    obtain ⟨b', hab', hb⟩ := h.forth _ _ _ hr hab
    exact leadsToCycle_of_edge hab' (ih hb)

end Simulation

theorem edge_map {α : Type} {slots : Array α} {successors : α → List Nat} :
    Edge ⟨slots.map successors⟩ a b ↔ ∃ x, slots[a]? = some x ∧ b ∈ successors x := by
  unfold Edge next
  dsimp only
  rw [Array.getElem?_map]
  cases slots[a]? <;> simp

theorem next_of_le (h : g.size ≤ node) : g.next node = [] := by
  have hn : g.successors[node]? = none := Array.getElem?_eq_none h
  simp [next, hn]

theorem edge_lt (h : g.Edge a b) : a < g.size := by
  by_contra hn
  rw [Edge, next_of_le (by omega)] at h
  simp at h

theorem leadsToCycle_lt (h : g.LeadsToCycle a) : a < g.size := by
  obtain ⟨b, hab, -⟩ := leadsToCycle_next h
  exact edge_lt hab

theorem map_next_range (g : Graph) : (List.range g.size).map g.next = g.successors.toList := by
  apply List.ext_getElem
  · simp [size]
  · intro i h1 h2
    have hi : i < g.successors.size := by simpa using h2
    simp [next, hi]

theorem edgeCount_eq_sum (g : Graph) :
    g.edgeCount = ∑ n ∈ Finset.range g.size, (g.next n).length := by
  have h : (List.range g.size).map (fun n => (g.next n).length)
      = g.successors.toList.map List.length := by
    rw [← map_next_range, List.map_map]
    rfl
  rw [edgeCount, List.length_flatten, ← h]
  rfl

/-- The total weight of the nodes of the graph that are left. -/
def weightLeft (g : Graph) (left : Nat → Prop) [DecidablePred left] (weight : Nat → Nat) : Nat :=
  ∑ n ∈ Finset.range g.size, if left n then weight n else 0

section Weights

variable {left left' : Nat → Prop} [DecidablePred left] [DecidablePred left'] {weight : Nat → Nat}

theorem weightLeft_le (h : ∀ n < g.size, left' n → left n) :
    g.weightLeft left' weight ≤ g.weightLeft left weight := by
  apply Finset.sum_le_sum
  intro n hn
  by_cases hc : left' n
  · rw [if_pos hc, if_pos (h n (Finset.mem_range.1 hn) hc)]
  · rw [if_neg hc]
    exact Nat.zero_le _

theorem weightLeft_take (hl : left node) (hl' : ¬ left' node) (hlt : node < g.size)
    (h : ∀ n < g.size, left' n → left n) :
    g.weightLeft left' weight + weight node ≤ g.weightLeft left weight := by
  have hmem : node ∈ Finset.range g.size := Finset.mem_range.2 hlt
  unfold weightLeft
  rw [← Finset.add_sum_erase _ _ hmem,
    ← Finset.add_sum_erase _ (fun n => if left n then weight n else 0) hmem, if_neg hl', if_pos hl]
  have hrest : ∑ n ∈ (Finset.range g.size).erase node, (if left' n then weight n else 0)
      ≤ ∑ n ∈ (Finset.range g.size).erase node, (if left n then weight n else 0) := by
    apply Finset.sum_le_sum
    intro n hn
    have hn' : n < g.size := Finset.mem_range.1 (Finset.mem_of_mem_erase hn)
    by_cases hc : left' n
    · rw [if_pos hc, if_pos (h n hn' hc)]
    · rw [if_neg hc]
      exact Nat.zero_le _
  omega

theorem weightLeft_all (hall : ∀ n < g.size, left n) :
    g.weightLeft left weight = ∑ n ∈ Finset.range g.size, weight n := by
  apply Finset.sum_congr rfl
  intro n hn
  rw [if_pos (hall n (Finset.mem_range.1 hn))]

end Weights

theorem weightLeft_le_edgeCount (left : Nat → Prop) [DecidablePred left] :
    g.weightLeft left (fun n => (g.next n).length) ≤ g.edgeCount := by
  rw [edgeCount_eq_sum]
  apply Finset.sum_le_sum
  intro n _
  by_cases hc : left n
  · rw [if_pos hc]
  · rw [if_neg hc]
    exact Nat.zero_le _

end ComponentIdl.Graph
