import ComponentIdl.Proofs.Graph.Reach

/-!
# What is reached, nearest first

`nearestFirst` lists exactly the nodes, other than its root, that some way of at least one edge leads
to. Every entry of the queue belongs to an edge, and the edges of a node enter it once, so the number
of edges is fuel enough.
-/

namespace ComponentIdl.Graph

variable {g : Graph} {root x : Nat} {fuel : Nat} {queue seen : List Nat}

/-- The edges of the nodes not seen yet. -/
def unread (g : Graph) (seen : List Nat) : Nat :=
  g.weightLeft (· ∉ seen) fun n => (g.next n).length

theorem unread_cons (g : Graph) (seen : List Nat) (node : Nat) (hn : node ∉ seen) :
    g.unread (node :: seen) + (g.next node).length ≤ g.unread seen := by
  have hmono : ∀ n < g.size, n ∉ node :: seen → n ∉ seen :=
    fun n _ h hs => h (List.mem_cons_of_mem _ hs)
  by_cases hlt : node < g.size
  · exact weightLeft_take hn (by simp) hlt hmono
  · rw [next_of_le (by omega)]
    exact weightLeft_le hmono

theorem spread_seen {node : Nat} (hn : node ∈ seen) :
    g.spread (fuel + 1) (node :: queue) seen = g.spread fuel queue seen := by
  rw [spread, if_pos (by simpa using hn)]

theorem spread_new {node : Nat} (hn : node ∉ seen) :
    g.spread (fuel + 1) (node :: queue) seen =
      node :: g.spread fuel (queue ++ g.next node) (node :: seen) := by
  rw [spread, if_neg (by simpa using hn)]

theorem spread_sound (h : x ∈ g.spread fuel queue seen) :
    x ∉ seen ∧ ∃ q ∈ queue, Relation.ReflTransGen g.Edge q x := by
  induction fuel generalizing queue seen with
  | zero => simp [spread] at h
  | succ fuel ih =>
    cases queue with
    | nil => simp [spread] at h
    | cons node queue =>
      by_cases hn : node ∈ seen
      · rw [spread_seen hn] at h
        obtain ⟨hx, q, hq, way⟩ := ih h
        exact ⟨hx, q, List.mem_cons_of_mem _ hq, way⟩
      · rw [spread_new hn] at h
        rcases List.mem_cons.1 h with rfl | h
        · exact ⟨hn, x, List.mem_cons_self .., .refl⟩
        · obtain ⟨hx, q, hq, way⟩ := ih h
          refine ⟨fun hs => hx (List.mem_cons_of_mem _ hs), ?_⟩
          rcases List.mem_append.1 hq with hq | hq
          · exact ⟨q, List.mem_cons_of_mem _ hq, way⟩
          · exact ⟨node, List.mem_cons_self .., way.head hq⟩

-- The fuel pays one for each entry of the queue and one for each edge that may still enter it.
theorem spread_closed (hf : queue.length + g.unread seen ≤ fuel) :
    (∀ q ∈ queue, q ∈ seen ∨ q ∈ g.spread fuel queue seen) ∧
      ∀ a ∈ g.spread fuel queue seen, ∀ b, g.Edge a b → b ∈ seen ∨ b ∈ g.spread fuel queue seen := by
  induction fuel generalizing queue seen with
  | zero =>
    have hq : queue = [] := List.length_eq_zero_iff.1 (by omega)
    simp [hq, spread]
  | succ fuel ih =>
    cases queue with
    | nil => simp [spread]
    | cons node queue =>
      rw [List.length_cons] at hf
      by_cases hn : node ∈ seen
      · rw [spread_seen hn]
        have hpay : queue.length + g.unread seen ≤ fuel := by omega
        obtain ⟨hqueue, hedge⟩ := ih hpay
        refine ⟨?_, hedge⟩
        intro q hq
        rcases List.mem_cons.1 hq with rfl | hq
        · exact Or.inl hn
        · exact hqueue q hq
      · rw [spread_new hn]
        have hpay : (queue ++ g.next node).length + g.unread (node :: seen) ≤ fuel := by
          have hleft := unread_cons g seen node hn
          rw [List.length_append]
          omega
        obtain ⟨hqueue, hedge⟩ := ih hpay
        have hmove : ∀ b, (b ∈ node :: seen ∨ b ∈ g.spread fuel (queue ++ g.next node) (node :: seen)) →
            b ∈ seen ∨ b ∈ node :: g.spread fuel (queue ++ g.next node) (node :: seen) := by
          intro b hb
          simp only [List.mem_cons] at hb ⊢
          tauto
        constructor
        · intro q hq
          rcases List.mem_cons.1 hq with rfl | hq
          · exact Or.inr (List.mem_cons_self ..)
          · exact hmove q (hqueue q (List.mem_append_left _ hq))
        · intro a ha b hb
          rcases List.mem_cons.1 ha with rfl | ha
          · exact hmove b (hqueue b (List.mem_append_right _ hb))
          · exact hmove b (hedge a ha b hb)

theorem fuel_nearestFirst (g : Graph) (root : Nat) :
    (g.next root).length + g.unread [root] ≤ g.edgeCount := by
  have h := unread_cons g [] root (by simp)
  have hall := weightLeft_le_edgeCount (g := g) (· ∉ ([] : List Nat))
  unfold unread at h ⊢
  omega

theorem mem_nearestFirst : x ∈ g.nearestFirst root ↔ x ≠ root ∧ Relation.TransGen g.Edge root x := by
  constructor
  · intro h
    obtain ⟨hx, q, hq, way⟩ := spread_sound h
    exact ⟨by simpa using hx, Relation.TransGen.head' hq way⟩
  · rintro ⟨hne, way⟩
    obtain ⟨hqueue, hedge⟩ := spread_closed (fuel_nearestFirst g root)
    have hfirst : ∀ b, g.Edge root b → b = root ∨ b ∈ g.nearestFirst root :=
      fun b hb => (hqueue b hb).imp_left List.mem_singleton.1
    have hreach : x = root ∨ x ∈ g.nearestFirst root := by
      clear hne
      induction way with
      | single hab => exact hfirst _ hab
      | tail _ hbc ih =>
        rcases ih with rfl | hb
        · exact hfirst _ hbc
        · exact (hedge _ hb _ hbc).imp_left List.mem_singleton.1
    exact hreach.resolve_left hne

theorem edgeCount_eq_sum_of_le {size : Nat} (h : g.size ≤ size) :
    g.edgeCount = ∑ n ∈ Finset.range size, (g.next n).length := by
  rw [edgeCount_eq_sum]
  apply Finset.sum_subset (Finset.range_subset_range.2 h)
  intro n _ hn
  rw [next_of_le (Nat.le_of_not_lt fun hlt => hn (Finset.mem_range.2 hlt)), List.length_nil]

theorem nearestFirst_congr {g' : Graph} (h : ∀ a, g'.next a = g.next a) (root : Nat) :
    g'.nearestFirst root = g.nearestFirst root := by
  have hcount : g'.edgeCount = g.edgeCount := by
    rw [edgeCount_eq_sum_of_le (Nat.le_max_left g'.size g.size),
      edgeCount_eq_sum_of_le (Nat.le_max_right g'.size g.size)]
    simp only [h]
  have hspread : ∀ fuel queue seen, g'.spread fuel queue seen = g.spread fuel queue seen := by
    intro fuel
    induction fuel with
    | zero => exact fun _ _ => rfl
    | succ fuel ih =>
      intro queue seen
      cases queue with
      | nil => rfl
      | cons node queue =>
        unfold spread
        rw [ih, ih, h]
  unfold nearestFirst
  rw [hcount, h, hspread]

end ComponentIdl.Graph
