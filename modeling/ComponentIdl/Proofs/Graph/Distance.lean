import Mathlib.Logic.Function.Iterate
import Mathlib.Order.Lattice.Nat
import ComponentIdl.Proofs.Graph.NearestFirst

/-!
# The order of the search

`nearestFirst` takes in its queue layer by layer: while the queue holds what is one edge behind the
nodes at some distance, the new nodes in it are those at the next distance. So nothing is listed
before what is nearer, and the first layer is the successors of the root. The loop that keeps a queue,
the nodes seen and the nodes listed ends with the same list, after at most as many rounds as the graph
has edges.
-/

namespace ComponentIdl

/-- A way of exactly `n` steps leads from `a` to `b`. -/
inductive Steps {α : Type} (R : α → α → Prop) (a : α) : Nat → α → Prop where
  | refl : Steps R a 0 a
  | tail {n : Nat} {b c : α} : Steps R a n b → R b c → Steps R a (n + 1) c

/-- The number of steps of a shortest way. -/
noncomputable def distance {α : Type} (R : α → α → Prop) (a b : α) : Nat :=
  sInf {n | Steps R a n b}

theorem distance_eq {α : Type} {R : α → α → Prop} {a b : α} {n : Nat} (h : Steps R a n b)
    (hleast : ∀ m < n, ¬ Steps R a m b) : distance R a b = n := by
  have hmem : Steps R a (distance R a b) b := Nat.sInf_mem (s := {n | Steps R a n b}) ⟨n, h⟩
  have hle : distance R a b ≤ n := Nat.sInf_le (s := {n | Steps R a n b}) h
  by_contra hne
  exact hleast _ (by omega) hmem

namespace Graph

variable {g : Graph} {root x d fuel : Nat} {queue rest seen : List Nat}

/-- The nodes of a queue that were not seen, each at its first place. -/
def fresh (seen queue : List Nat) : List Nat :=
  (queue.filter fun node => !seen.contains node).eraseDups

theorem fresh_seen {node : Nat} (hn : node ∈ seen) : fresh seen (node :: queue) = fresh seen queue := by
  unfold fresh
  rw [List.filter_cons_of_neg (by simpa using hn)]

theorem fresh_new {node : Nat} (hn : node ∉ seen) :
    fresh seen (node :: queue) = node :: fresh (node :: seen) queue := by
  unfold fresh
  rw [List.filter_cons_of_pos (by simpa using hn), List.eraseDups_cons, List.filter_filter]
  congr 3
  funext other
  rw [List.contains_cons, Bool.not_or]

theorem mem_fresh : x ∈ fresh seen queue ↔ x ∈ queue ∧ x ∉ seen := by
  simp [fresh]

/-- A queue is worked off before what is added behind it. -/
theorem spread_append :
    g.spread (fuel + queue.length) (queue ++ rest) seen =
      fresh seen queue ++
        g.spread fuel (rest ++ (fresh seen queue).flatMap g.next) ((fresh seen queue).reverse ++ seen) := by
  induction queue generalizing rest seen with
  | nil => simp [fresh]
  | cons node queue ih =>
    rw [List.length_cons, ← Nat.add_assoc, List.cons_append]
    by_cases hn : node ∈ seen
    · rw [spread_seen hn, fresh_seen hn, ih]
    · rw [spread_new hn, fresh_new hn, List.append_assoc, ih, List.flatMap_cons,
        List.reverse_cons, List.cons_append, List.append_assoc, List.append_assoc,
        List.singleton_append]

theorem spread_whole :
    g.spread (fuel + queue.length) queue seen =
      fresh seen queue ++
        g.spread fuel ((fresh seen queue).flatMap g.next) ((fresh seen queue).reverse ++ seen) := by
  have hsplit : g.spread (fuel + queue.length) (queue ++ []) seen = _ := spread_append
  rwa [List.append_nil, List.nil_append] at hsplit

theorem unread_fresh (g : Graph) (queue seen : List Nat) :
    g.unread ((fresh seen queue).reverse ++ seen) + ((fresh seen queue).flatMap g.next).length ≤
      g.unread seen := by
  induction queue generalizing seen with
  | nil => simp [fresh]
  | cons node queue ih =>
    by_cases hn : node ∈ seen
    · rw [fresh_seen hn]
      exact ih seen
    · rw [fresh_new hn, List.reverse_cons, List.append_assoc, List.singleton_append,
        List.flatMap_cons, List.length_append]
      have hnode := unread_cons g seen node hn
      have hqueue := ih (node :: seen)
      omega

/-- The nodes seen are those nearer than `d`, and the queue holds all those at distance `d`. -/
structure Layer (g : Graph) (root d : Nat) (queue seen : List Nat) : Prop where
  nearer : ∀ x, x ∈ seen ↔ ∃ n < d, Steps g.Edge root n x
  sound : ∀ q ∈ queue, Steps g.Edge root d q
  complete : ∀ x, Steps g.Edge root d x → x ∈ seen ∨ x ∈ queue

theorem layer_start (g : Graph) (root : Nat) : g.Layer root 1 (g.next root) [root] := by
  have hzero : ∀ {x}, Steps g.Edge root 0 x → x = root := by
    intro x h
    cases h
    rfl
  refine ⟨?_, fun q hq => .tail .refl hq, ?_⟩
  · intro x
    rw [List.mem_singleton]
    constructor
    · rintro rfl
      exact ⟨0, Nat.one_pos, .refl⟩
    · rintro ⟨n, hn, way⟩
      obtain rfl : n = 0 := by omega
      exact hzero way
  · intro x way
    cases way with
    | tail way hedge => exact Or.inr (hzero way ▸ hedge)

theorem Layer.distance_fresh (h : g.Layer root d queue seen) (hx : x ∈ fresh seen queue) :
    distance g.Edge root x = d := by
  obtain ⟨hqueue, hseen⟩ := mem_fresh.1 hx
  refine distance_eq (h.sound x hqueue) fun m hm way => ?_
  exact hseen ((h.nearer x).2 ⟨m, hm, way⟩)

/-- Behind a layer comes the next one. -/
theorem Layer.next (h : g.Layer root d queue seen) :
    g.Layer root (d + 1) ((fresh seen queue).flatMap g.next) ((fresh seen queue).reverse ++ seen) := by
  have hnow : ∀ x, Steps g.Edge root d x → x ∈ (fresh seen queue).reverse ++ seen := by
    intro x way
    rw [List.mem_append, List.mem_reverse, mem_fresh]
    have hmem := h.complete x way
    tauto
  have hnearer : ∀ x, x ∈ (fresh seen queue).reverse ++ seen ↔ ∃ n < d + 1, Steps g.Edge root n x := by
    intro x
    constructor
    · rw [List.mem_append, List.mem_reverse, mem_fresh, h.nearer]
      rintro (⟨hqueue, -⟩ | ⟨n, hn, way⟩)
      · exact ⟨d, Nat.lt_succ_self d, h.sound x hqueue⟩
      · exact ⟨n, Nat.lt_succ_of_lt hn, way⟩
    · rintro ⟨n, hn, way⟩
      rcases Nat.lt_succ_iff_lt_or_eq.1 hn with hn | rfl
      · exact List.mem_append_right _ ((h.nearer x).2 ⟨n, hn, way⟩)
      · exact hnow x way
  refine ⟨hnearer, ?_, ?_⟩
  · intro q hq
    obtain ⟨node, hnode, hedge⟩ := List.mem_flatMap.1 hq
    exact .tail (h.sound node (mem_fresh.1 hnode).1) hedge
  · intro x way
    cases way with
    | @tail _ b _ way hedge =>
      rcases List.mem_append.1 (hnow b way) with hfresh | hseen
      · exact Or.inr (List.mem_flatMap.2 ⟨b, List.mem_reverse.1 hfresh, hedge⟩)
      · -- What a nearer node leads to is seen by now.
        obtain ⟨n, hn, short⟩ := (h.nearer b).1 hseen
        exact Or.inl ((hnearer x).2 ⟨n + 1, Nat.succ_lt_succ hn, .tail short hedge⟩)

theorem Layer.sorted (h : g.Layer root d queue seen) (hf : queue.length + g.unread seen ≤ fuel) :
    (∀ x ∈ g.spread fuel queue seen, d ≤ distance g.Edge root x) ∧
      (g.spread fuel queue seen).Pairwise fun a b =>
        distance g.Edge root a ≤ distance g.Edge root b := by
  induction fuel using Nat.strong_induction_on generalizing d queue seen with
  | _ fuel ih =>
    cases hqueue : queue with
    | nil => cases fuel <;> simp [spread]
    | cons node others =>
      have hpos : 0 < queue.length := by simp [hqueue]
      rw [← hqueue]
      obtain ⟨left, rfl⟩ : ∃ left, fuel = left + queue.length := ⟨fuel - queue.length, by omega⟩
      have hleft := unread_fresh g queue seen
      obtain ⟨hfar, hsorted⟩ := ih left (by omega) h.next (by omega)
      rw [spread_whole]
      constructor
      · intro x hx
        rcases List.mem_append.1 hx with hx | hx
        · exact Nat.le_of_eq (h.distance_fresh hx).symm
        · exact Nat.le_of_succ_le (hfar x hx)
      · refine List.pairwise_append.2 ⟨?_, hsorted, ?_⟩
        · refine List.pairwise_of_forall_mem_list fun a ha b hb => ?_
          rw [h.distance_fresh ha, h.distance_fresh hb]
        · intro a ha b hb
          rw [h.distance_fresh ha]
          exact Nat.le_of_succ_le (hfar b hb)

theorem nearestFirst_sorted (g : Graph) (root : Nat) :
    (g.nearestFirst root).Pairwise fun a b => distance g.Edge root a ≤ distance g.Edge root b :=
  ((layer_start g root).sorted (fuel_nearestFirst g root)).2

theorem nearestFirst_direct (g : Graph) (root : Nat) :
    ((g.next root).filter (· ≠ root)).eraseDups <+: g.nearestFirst root := by
  have hfresh : ((g.next root).filter (· ≠ root)).eraseDups = fresh [root] (g.next root) := by
    unfold fresh
    congr 2
    funext node
    simp
  have hfuel := fuel_nearestFirst g root
  obtain ⟨left, hleft⟩ : ∃ left, g.edgeCount = left + (g.next root).length :=
    ⟨g.edgeCount - (g.next root).length, by omega⟩
  unfold nearestFirst
  rw [hfresh, hleft, spread_whole]
  exact List.prefix_append _ _

example : (⟨#[[2, 1, 2, 0], [3, 0], [1], [2]]⟩ : Graph).nearestFirst 0 = [2, 1, 3] := by decide

theorem spread_nodup : (g.spread fuel queue seen).Nodup := by
  induction fuel generalizing queue seen with
  | zero => exact List.nodup_nil
  | succ fuel ih =>
    cases queue with
    | nil => exact List.nodup_nil
    | cons node queue =>
      by_cases hn : node ∈ seen
      · rw [spread_seen hn]
        exact ih
      · rw [spread_new hn]
        exact List.nodup_cons.2 ⟨fun h => (spread_sound h).1 List.mem_cons_self, ih⟩

/-- What the loop holds: the nodes to look at, those seen, and those listed. -/
structure Round where
  queue : List Nat
  seen : List Nat
  listed : List Nat

/-- One round of the loop: the first node of the queue is listed unless it was seen. -/
def Round.turn (g : Graph) (r : Round) : Round :=
  match r.queue with
  | [] => r
  | node :: queue =>
    if node ∈ r.seen then { r with queue }
    else ⟨queue ++ g.next node, node :: r.seen, r.listed ++ [node]⟩

theorem Round.turn_seen {node : Nat} {listed : List Nat} (hn : node ∈ seen) :
    turn g ⟨node :: queue, seen, listed⟩ = ⟨queue, seen, listed⟩ :=
  if_pos hn

theorem Round.turn_new {node : Nat} {listed : List Nat} (hn : node ∉ seen) :
    turn g ⟨node :: queue, seen, listed⟩ = ⟨queue ++ g.next node, node :: seen, listed ++ [node]⟩ :=
  if_neg hn

theorem exists_rounds (hf : queue.length + g.unread seen ≤ fuel) (listed : List Nat) :
    ∃ n ≤ fuel, ∃ all,
      (Round.turn g)^[n] ⟨queue, seen, listed⟩ = ⟨[], all, listed ++ g.spread fuel queue seen⟩ := by
  induction fuel generalizing queue seen listed with
  | zero =>
    have hq : queue = [] := List.length_eq_zero_iff.1 (by omega)
    exact ⟨0, Nat.le_refl 0, seen, by simp [hq, spread]⟩
  | succ fuel ih =>
    cases queue with
    | nil => exact ⟨0, Nat.zero_le _, seen, by simp [spread]⟩
    | cons node queue =>
      rw [List.length_cons] at hf
      by_cases hn : node ∈ seen
      · obtain ⟨n, hle, all, hrun⟩ := @ih queue seen (by omega) listed
        refine ⟨n + 1, Nat.succ_le_succ hle, all, ?_⟩
        rw [Function.iterate_succ_apply, Round.turn_seen hn, hrun, spread_seen hn]
      · have hpay : (queue ++ g.next node).length + g.unread (node :: seen) ≤ fuel := by
          have hleft := unread_cons g seen node hn
          rw [List.length_append]
          omega
        obtain ⟨n, hle, all, hrun⟩ := ih hpay (listed ++ [node])
        refine ⟨n + 1, Nat.succ_le_succ hle, all, ?_⟩
        rw [Function.iterate_succ_apply, Round.turn_new hn, hrun, spread_new hn,
          List.append_assoc, List.singleton_append]

/-- The loop ends, and with the list of `nearestFirst`. -/
theorem nearestFirst_rounds (g : Graph) (root : Nat) :
    ∃ n ≤ g.edgeCount, ∃ seen,
      (Round.turn g)^[n] ⟨g.next root, [root], []⟩ = ⟨[], seen, g.nearestFirst root⟩ :=
  exists_rounds (fuel_nearestFirst g root) []

end Graph

end ComponentIdl
