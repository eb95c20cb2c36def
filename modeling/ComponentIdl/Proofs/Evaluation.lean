import Mathlib.Data.Finset.Card
import Mathlib.Data.Finset.Range
import Mathlib.Data.List.Nodup
import ComponentIdl.Evaluation
import ComponentIdl.Proofs.Loop

/-!
# The search for enum values comes to an end

A step either leaves the topmost member, which is settled by then, or pushes an unsettled member that
is not on the stack, or stops the search. Counting the stack once and the unsettled members below it
twice, every step lowers the sum, so the fuel of a search never runs out. A member that fails and a
search that stops leave a diagnostic behind; without any, every member has its value.
-/

namespace ComponentIdl

namespace EnumSearch

variable {base : IntegerType} {s : EnumSearch} {top i : Nat} {rest : List Nat}

/-- Whether it is known of the member that it has a value, or that it has none. -/
def Settled (s : EnumSearch) (i : Nat) : Prop := (s.outcome? i).isSome

/-- A member that is out of the way: settled, or no member of the enum. -/
def Passed (s : EnumSearch) (i : Nat) : Prop := s.Settled i ∨ s.members.size ≤ i

theorem failed_of_outcome? (h : s.outcome? i = some none) : i ∈ s.failed := by
  unfold outcome? at h
  split at h
  · simp at h
  · split at h
    · simpa using ‹s.failed.contains i = true›
    · simp at h

theorem outcome?_assign {m : EnumMember} (value : Constant) (hm : s.members[top]? = some m)
    (j : Nat) :
    (s.apply top m (.assign value)).outcome? j =
      if j = top then some (some value) else s.outcome? j := by
  have hlt : top < s.members.size := (Array.getElem?_eq_some_iff.1 hm).1
  unfold apply outcome? pop
  dsimp only
  rw [Array.getElem?_setIfInBounds]
  by_cases hj : j = top
  · subst hj
    simp [hlt, ValueState.constant?]
  · have hne : top ≠ j := fun h => hj h.symm
    simp [hj, hne]

theorem members_fail (m : EnumMember) (reports : Bool) :
    (s.apply top m (.fail reports)).members = s.members := by
  cases reports <;> rfl

theorem failed_fail (m : EnumMember) (reports : Bool) :
    (s.apply top m (.fail reports)).failed = top :: s.failed := by
  cases reports <;> rfl

theorem outcome?_fail (m : EnumMember) (reports : Bool) (hu : s.outcome? top = none) (j : Nat) :
    (s.apply top m (.fail reports)).outcome? j =
      if j = top then some none else s.outcome? j := by
  unfold outcome? at hu ⊢
  rw [members_fail, failed_fail]
  by_cases hj : j = top
  · subst hj
    split at hu
    · simp at hu
    · simp_all
  · rw [if_neg hj, List.contains_cons]
    have hb : (j == top) = false := by simpa using hj
    rw [hb, Bool.false_or]

theorem move_spec (base : IntegerType) {m : EnumMember} (hm : s.members[top]? = some m) :
    (s.move base top m.value = .fail false → s.failed ≠ []) ∧
      ∀ on, s.move base top m.value = .wait on → s.outcome? on = none ∧ on < s.members.size := by
  have hlt : top < s.members.size := (Array.getElem?_eq_some_iff.1 hm).1
  have hfit : ∀ c : Option Constant, fitting c ≠ .fail false ∧ ∀ on, fitting c ≠ .wait on := by
    intro c
    cases c <;> simp [fitting]
  cases hv : m.value with
  | known value => simp [move]
  | literal text => exact ⟨fun h => absurd h (hfit _).1, fun on h => absurd h ((hfit _).2 on)⟩
  | implicit =>
    cases top with
    | zero => simp [move]
    | succ before =>
      simp only [move]
      cases ho : s.outcome? before with
      | none =>
        refine ⟨by simp, ?_⟩
        intro on hon
        rw [EnumMove.wait.injEq] at hon
        subst hon
        exact ⟨ho, by omega⟩
      | some result =>
        cases result with
        | none => exact ⟨fun _ => List.ne_nil_of_mem (failed_of_outcome? ho), by simp⟩
        | some value =>
          exact ⟨fun h => absurd h (hfit _).1, fun on h => absurd h ((hfit _).2 on)⟩
  | reference name =>
    simp only [move]
    cases hi : s.indexOf? name with
    | none => simp
    | some target =>
      have htarget : target < s.members.size := by
        unfold indexOf? at hi
        rw [Array.findIdx?_eq_some_iff_getElem] at hi
        obtain ⟨hlt, -⟩ := hi
        exact hlt
      cases ho : s.outcome? target with
      | none =>
        refine ⟨by simp [ho], ?_⟩
        intro on hon
        simp only [ho, EnumMove.wait.injEq] at hon
        subst hon
        exact ⟨ho, htarget⟩
      | some result =>
        cases result with
        | none => exact ⟨fun _ => List.ne_nil_of_mem (failed_of_outcome? ho), by simp [ho]⟩
        | some value => simp [ho]

/-! ### Steps -/

/-- At the head of every step the stack repeats no member, all below its top wait, and a failure or a
stop has left a diagnostic. -/
structure Inv (s : EnumSearch) : Prop where
  distinct : s.stack.Nodup
  waiting : ∀ i ∈ s.stack.tail, i ∈ s.pending
  told : s.failed ≠ [] ∨ s.isStopped = true → s.found ≠ []

/-- The topmost member is left, out of the way by now; of other members nothing new is known. -/
structure Leaves (s s' : EnumSearch) (top : Nat) (rest : List Nat) : Prop where
  stack : s'.stack = rest
  size : s'.members.size = s.members.size
  passed : s'.Passed top
  others : ∀ i, s.Settled i ∨ i ≠ top → s'.outcome? i = s.outcome? i
  pending : ∀ i ∈ s.pending, i ≠ top → i ∈ s'.pending
  stopped : s'.isStopped = s.isStopped
  failed : s'.failed ≠ [] → s.failed ≠ [] ∨ s'.found ≠ []
  found : s.found ≠ [] → s'.found ≠ []

/-- The search stops where it is. -/
structure Stops (s s' : EnumSearch) : Prop where
  stack : s'.stack = s.stack
  members : s'.members = s.members
  pending : ∀ i ∈ s.pending, i ∈ s'.pending
  failed : s'.failed = s.failed
  stopped : s'.isStopped = true
  found : s'.found ≠ []

theorem Stops.settled_iff {s' : EnumSearch} (h : s.Stops s') : s'.Settled i ↔ s.Settled i := by
  unfold Settled outcome?
  rw [h.members, h.failed]

theorem leaves_pop (hs : s.stack = top :: rest) (hp : s.Passed top) : s.Leaves s.pop top rest :=
  { stack := by rw [pop, hs, List.tail_cons]
    size := rfl
    passed := hp
    others := fun _ _ => rfl
    pending := fun _ hi _ => hi
    stopped := rfl
    failed := fun hf => Or.inl hf
    found := fun hf => hf }

theorem leaves_assign {m : EnumMember} (value : Constant) (hs : s.stack = top :: rest)
    (hm : s.members[top]? = some m) (hu : s.outcome? top = none) :
    s.Leaves (s.apply top m (.assign value)) top rest := by
  have hout := outcome?_assign value hm
  refine ⟨?_, ?_, Or.inl ?_, ?_, ?_, rfl, fun hf => Or.inl hf, fun hf => hf⟩
  · show s.stack.tail = rest
    rw [hs, List.tail_cons]
  · exact Array.size_setIfInBounds ..
  · unfold Settled
    rw [hout, if_pos rfl]
    rfl
  · intro i hi
    rw [hout, if_neg]
    rintro rfl
    rcases hi with hi | hi
    · simp [Settled, hu] at hi
    · exact hi rfl
  · intro i hi hne
    exact (List.mem_erase_of_ne hne).2 hi

theorem leaves_fail {m : EnumMember} {reports : Bool} (hs : s.stack = top :: rest)
    (hu : s.outcome? top = none) (hr : reports = false → s.failed ≠ []) :
    s.Leaves (s.apply top m (.fail reports)) top rest := by
  have hout := outcome?_fail m reports hu
  refine ⟨?_, ?_, Or.inl ?_, ?_, ?_, ?_, ?_, ?_⟩
  · cases reports <;> simp [apply, pop, report, hs]
  · rw [members_fail]
  · unfold Settled
    rw [hout, if_pos rfl]
    rfl
  · intro i hi
    rw [hout, if_neg]
    rintro rfl
    rcases hi with hi | hi
    · simp [Settled, hu] at hi
    · exact hi rfl
  · intro i hi hne
    exact (List.mem_erase_of_ne hne).2 hi
  · cases reports <;> rfl
  · intro _
    cases reports with
    | true => exact Or.inr (by simp [apply, pop, report])
    | false => exact Or.inl (hr rfl)
  · intro hf
    cases reports with
    | true => simp [apply, pop, report]
    | false => exact hf

/-- The three things a step can do: leave the topmost member, push another one, or stop. -/
theorem step_cases (base : IntegerType) (h : Inv s) (hs : s.stack = top :: rest) :
    s.Leaves (s.step base) top rest ∨
    (∃ on, on ∉ s.stack ∧ on < s.members.size ∧ ¬ s.Settled on ∧
      s.step base = { s with stack := on :: s.stack, pending := s.pending.insert top }) ∨
    s.Stops (s.step base) := by
  cases hm : s.members[top]? with
  | none =>
    have hp : s.Passed top := Or.inr (by simpa using hm)
    have hstep : s.step base = s.pop := by simp [step, hs, hm]
    rw [hstep]
    exact Or.inl (leaves_pop hs hp)
  | some m =>
    cases hu : s.outcome? top with
    | some result =>
      have hp : s.Passed top := Or.inl (by simp [Settled, hu])
      have hstep : s.step base = s.pop := by simp [step, hs, hm, hu]
      rw [hstep]
      exact Or.inl (leaves_pop hs hp)
    | none =>
      have hstep : s.step base = s.apply top m (s.move base top m.value) := by
        simp [step, hs, hm, hu]
      obtain ⟨hfail, hwait⟩ := move_spec base hm
      rw [hstep]
      cases hmove : s.move base top m.value with
      | assign value => exact Or.inl (leaves_assign value hs hm hu)
      | fail reports => exact Or.inl (leaves_fail hs hu fun hr => hfail (by rw [hmove, hr]))
      | unknown name =>
        exact Or.inr (Or.inr ⟨rfl, rfl, fun _ hi => hi, rfl, rfl, by simp [apply, report]⟩)
      | wait on =>
        obtain ⟨hon, hlt⟩ := hwait on hmove
        simp only [apply]
        by_cases hc : (s.pending.insert top).contains on = true
        · rw [if_pos hc, Array.getElem?_eq_getElem hlt]
          exact Or.inr (Or.inr
            ⟨rfl, rfl, fun _ hi => List.mem_insert_of_mem hi, rfl, rfl, by simp [report]⟩)
        · rw [if_neg hc]
          refine Or.inr (Or.inl ⟨on, ?_, hlt, by simp [Settled, hon], rfl⟩)
          -- Every member of the stack waits, the topmost one by now.
          rw [List.contains_iff_mem] at hc
          rw [hs]
          intro hmem
          rcases List.mem_cons.1 hmem with rfl | hmem
          · exact hc List.mem_insert_self
          · exact hc (List.mem_insert_of_mem (h.waiting on (by simpa [hs] using hmem)))

theorem inv_step (h : Inv s) (hs : s.stack = top :: rest) : Inv (s.step base) := by
  have hdistinct := h.distinct
  rw [hs] at hdistinct
  have htop : top ∉ rest := (List.nodup_cons.1 hdistinct).1
  have hrest : ∀ i ∈ rest, i ∈ s.pending := by
    intro i hi
    apply h.waiting
    rw [hs]
    exact hi
  rcases step_cases base h hs with hl | ⟨on, hon, -, -, hstep⟩ | hstop
  · constructor
    · rw [hl.stack]
      exact hdistinct.of_cons
    · rw [hl.stack]
      intro i hi
      have hi' := List.mem_of_mem_tail hi
      exact hl.pending i (hrest i hi') (ne_of_mem_of_not_mem hi' htop)
    · rintro (hf | hf)
      · rcases hl.failed hf with hf | hf
        · exact hl.found (h.told (Or.inl hf))
        · exact hf
      · rw [hl.stopped] at hf
        exact hl.found (h.told (Or.inr hf))
  · rw [hstep]
    refine ⟨List.nodup_cons.2 ⟨hon, h.distinct⟩, ?_, h.told⟩
    show ∀ i ∈ s.stack, i ∈ s.pending.insert top
    rw [hs]
    intro i hi
    rcases List.mem_cons.1 hi with rfl | hi
    · exact List.mem_insert_self
    · exact List.mem_insert_of_mem (hrest i hi)
  · refine ⟨?_, ?_, fun _ => hstop.found⟩
    · rw [hstop.stack]
      exact h.distinct
    · rw [hstop.stack]
      exact fun i hi => hstop.pending i (h.waiting i hi)

/-- What no step undoes, seen from the start of a search. -/
structure Follows (s s' : EnumSearch) : Prop where
  size : s'.members.size = s.members.size
  settled : ∀ i, s.Settled i → s'.Settled i
  stack : ∀ i ∈ s.stack, i ∈ s'.stack ∨ s'.Passed i
  found : s.found ≠ [] → s'.found ≠ []

theorem Follows.refl (s : EnumSearch) : s.Follows s :=
  ⟨rfl, fun _ h => h, fun _ h => Or.inl h, fun h => h⟩

theorem Follows.passed {s' : EnumSearch} (h : s.Follows s') (hp : s.Passed i) : s'.Passed i := by
  rcases hp with hp | hp
  · exact Or.inl (h.settled i hp)
  · exact Or.inr (h.size ▸ hp)

theorem Follows.trans {s' s'' : EnumSearch} (h : s.Follows s') (h' : s'.Follows s'') :
    s.Follows s'' := by
  refine ⟨h'.size.trans h.size, fun i hi => h'.settled i (h.settled i hi), ?_,
    fun hf => h'.found (h.found hf)⟩
  intro i hi
  rcases h.stack i hi with hi | hi
  · exact h'.stack i hi
  · exact Or.inr (h'.passed hi)

theorem follows_step (base : IntegerType) (h : Inv s) (hs : s.stack = top :: rest) :
    s.Follows (s.step base) := by
  rcases step_cases base h hs with hl | ⟨on, -, -, -, hstep⟩ | hstop
  · refine ⟨hl.size, ?_, ?_, hl.found⟩
    · intro i hi
      unfold Settled
      rw [hl.others i (Or.inl hi)]
      exact hi
    · intro i hi
      rw [hs] at hi
      rw [hl.stack]
      rcases List.mem_cons.1 hi with rfl | hi
      · exact Or.inr hl.passed
      · exact Or.inl hi
  · rw [hstep]
    exact ⟨rfl, fun _ h => h, fun i hi => Or.inl (List.mem_cons_of_mem _ hi), fun hf => hf⟩
  · exact ⟨by rw [hstop.members], fun i hi => hstop.settled_iff.2 hi,
      fun i hi => Or.inl (by rw [hstop.stack]; exact hi), fun _ => hstop.found⟩

instance (s : EnumSearch) (i : Nat) : Decidable (s.Settled i) :=
  inferInstanceAs (Decidable (_ = true))

/-- The members that may still be pushed. -/
def ahead (s : EnumSearch) : Finset Nat :=
  (Finset.range s.members.size).filter fun i => ¬ s.Settled i ∧ i ∉ s.stack

def cost (s : EnumSearch) : Nat := s.stack.length + 2 * s.ahead.card

theorem mem_ahead : i ∈ s.ahead ↔ i < s.members.size ∧ ¬ s.Settled i ∧ i ∉ s.stack := by
  simp [ahead]

/-- The member just left is settled or out of range, so it is none of those ahead. -/
theorem Leaves.ahead_subset {s' : EnumSearch} (hl : s.Leaves s' top rest)
    (hs : s.stack = top :: rest) : s'.ahead ⊆ s.ahead := by
  intro i hi
  rw [mem_ahead, hl.size, hl.stack] at hi
  obtain ⟨hlt, hset, hrest⟩ := hi
  have hne : i ≠ top := by
    rintro rfl
    rcases hl.passed with hp | hp
    · exact hset hp
    · rw [hl.size] at hp
      omega
  have hset' : ¬ s.Settled i := by
    unfold Settled at hset ⊢
    rwa [hl.others i (Or.inr hne)] at hset
  rw [mem_ahead, hs]
  exact ⟨hlt, hset', by simp [hne, hrest]⟩

theorem Stops.ahead {s' : EnumSearch} (h : s.Stops s') : s'.ahead = s.ahead := by
  ext i
  rw [mem_ahead, mem_ahead, h.settled_iff, h.members, h.stack]

theorem ahead_push (on : Nat) (pending : List Nat) :
    ahead { s with stack := on :: s.stack, pending } = s.ahead.erase on := by
  ext i
  have hset : Settled { s with stack := on :: s.stack, pending } i ↔ s.Settled i := Iff.rfl
  rw [Finset.mem_erase, mem_ahead, mem_ahead, hset, List.mem_cons, not_or]
  tauto

theorem cost_step (base : IntegerType) (h : Inv s) (hs : s.stack = top :: rest) :
    (s.step base).cost < s.cost ∨ (s.step base).isStopped = true := by
  rcases step_cases base h hs with hl | ⟨on, hon, hlt, hu, hstep⟩ | hstop
  · left
    have hcard := Finset.card_le_card (hl.ahead_subset hs)
    unfold cost
    rw [hl.stack, hs, List.length_cons]
    omega
  · left
    have hcard := Finset.card_erase_lt_of_mem (mem_ahead.2 ⟨hlt, hu, hon⟩)
    rw [hstep, cost, cost, ahead_push, List.length_cons]
    omega
  · exact Or.inr hstop.stopped

/-! ### Runs -/

theorem isOver_loop : (loop base).isOver s ↔ s.stack = [] ∨ s.isStopped = true := by
  simp [loop]

theorem exists_top (h : ¬ (loop base).isOver s) :
    ∃ top rest, s.stack = top :: rest ∧ s.isStopped = false := by
  obtain ⟨hstack, hstopped⟩ := not_or.1 (mt isOver_loop.2 h)
  obtain ⟨top, rest, hs⟩ := List.exists_cons_of_ne_nil hstack
  exact ⟨top, rest, hs, Bool.eq_false_iff.2 hstopped⟩

theorem inv_run (base : IntegerType) (fuel : Nat) (h : Inv s) :
    Inv (run base fuel s) ∧ s.Follows (run base fuel s) := by
  refine (loop base).run_preserves (P := fun t => Inv t ∧ s.Follows t) (fun t ht hover => ?_) fuel
    ⟨h, Follows.refl s⟩
  obtain ⟨top, rest, hs, -⟩ := exists_top hover
  exact ⟨inv_step ht.1 hs, ht.2.trans (follows_step base ht.1 hs)⟩

theorem isOver_run (base : IntegerType) (fuel : Nat) (h : Inv s) (hf : s.cost ≤ fuel) :
    (loop base).isOver (run base fuel s) := by
  refine Loop.isOver_run (P := Inv) (μ := cost) (fun t ht hover => ?_) (fun t hover => ?_)
    (fun t ht hover => ?_) fuel h hf
  · obtain ⟨top, rest, hs, -⟩ := exists_top hover
    exact inv_step ht hs
  · obtain ⟨top, rest, hs, -⟩ := exists_top hover
    rw [cost, hs, List.length_cons]
    omega
  · obtain ⟨top, rest, hs, -⟩ := exists_top hover
    exact (cost_step base ht hs).imp_right fun hstopped => isOver_loop.2 (Or.inr hstopped)

theorem run_done (base : IntegerType) (fuel : Nat) (h : Inv s) (hf : s.cost ≤ fuel) :
    Inv (run base fuel s) ∧ s.Follows (run base fuel s) ∧
      ((run base fuel s).stack = [] ∨ (run base fuel s).isStopped = true) := by
  obtain ⟨hinv, hfollows⟩ := inv_run base fuel h
  exact ⟨hinv, hfollows, isOver_loop.1 (isOver_run base fuel h hf)⟩

theorem cost_start (s : EnumSearch) (root : Nat) :
    cost { s with stack := [root] } ≤ 2 * s.members.size + 2 := by
  have hcard := Finset.card_filter_le (Finset.range s.members.size)
    fun i => ¬ Settled { s with stack := [root] } i ∧ i ∉ [root]
  rw [Finset.card_range] at hcard
  unfold cost ahead
  simp only [List.length_cons, List.length_nil]
  omega

theorem settle_stack (base : IntegerType) (root : Nat)
    (ht : s.failed ≠ [] ∨ s.isStopped = true → s.found ≠ []) :
    (s.settle base root).stack = [] ∨ (s.settle base root).isStopped = true := by
  have hinv : Inv { s with stack := [root] } := ⟨by simp, by simp, ht⟩
  exact (run_done base _ hinv (cost_start s root)).2.2

theorem settle_done (base : IntegerType) (root : Nat)
    (ht : s.failed ≠ [] ∨ s.isStopped = true → s.found ≠ []) :
    let s' := s.settle base root
    (s'.failed ≠ [] ∨ s'.isStopped = true → s'.found ≠ []) ∧
      s'.members.size = s.members.size ∧ (∀ i, s.Settled i → s'.Settled i) ∧
      (s.found ≠ [] → s'.found ≠ []) ∧ (s'.Passed root ∨ s'.isStopped = true) := by
  intro s'
  have hinv : Inv { s with stack := [root] } := ⟨by simp, by simp, ht⟩
  obtain ⟨hrun, hfollow, hend⟩ := run_done base _ hinv (cost_start s root)
  refine ⟨hrun.told, hfollow.size, hfollow.settled, hfollow.found, ?_⟩
  rcases hend with hend | hend
  · rcases hfollow.stack root List.mem_cons_self with hroot | hroot
    · rw [hend] at hroot
      simp at hroot
    · exact Or.inl hroot
  · exact Or.inr hend

theorem settleAll_stopped (base : IntegerType) (roots : List Nat) (h : s.isStopped = true) :
    s.settleAll base roots = s := by
  induction roots with
  | nil => rfl
  | cons root roots ih => simpa [settleAll, h] using ih

theorem settleAll_done (base : IntegerType) (roots : List Nat)
    (hr : ∀ r ∈ roots, r < s.members.size)
    (ht : s.failed ≠ [] ∨ s.isStopped = true → s.found ≠ [])
    (hfound : (s.settleAll base roots).found = []) :
    let s' := s.settleAll base roots
    s'.failed = [] ∧ s'.members.size = s.members.size ∧ (∀ i, s.Settled i → s'.Settled i) ∧
      ∀ r ∈ roots, s'.Settled r := by
  intro s'
  induction roots generalizing s with
  | nil =>
    refine ⟨?_, rfl, fun _ h => h, by simp⟩
    by_contra hf
    exact ht (Or.inl hf) hfound
  | cons root roots ih =>
    by_cases hstop : s.isStopped = true
    · rw [settleAll_stopped base _ hstop] at hfound
      exact absurd hfound (ht (Or.inr hstop))
    · have hnext : s.settleAll base (root :: roots) = (s.settle base root).settleAll base roots := by
        simp [settleAll, hstop]
      obtain ⟨htold, hsize, hset, -, hroot⟩ := settle_done base root ht
      rw [hnext] at hfound
      obtain ⟨hfailed, hsize', hset', hall⟩ := ih (s := s.settle base root)
        (fun r hr' => hsize ▸ hr r (List.mem_cons_of_mem _ hr')) htold hfound
      have hs' : s' = (s.settle base root).settleAll base roots := hnext
      rw [hs']
      refine ⟨hfailed, hsize'.trans hsize, fun i hi => hset' i (hset i hi), ?_⟩
      intro r hmem
      rcases List.mem_cons.1 hmem with rfl | hmem
      · rcases hroot with (hroot | hroot) | hroot
        · exact hset' r hroot
        · have hlt := hr r List.mem_cons_self
          omega
        · rw [settleAll_stopped base roots hroot] at hfound
          exact absurd hfound (htold (Or.inr hroot))
      · exact hall r hmem

end EnumSearch

/-- An enum whose evaluation finds nothing wrong gets all of its values. -/
theorem EnumType.evaluated_complete {e : EnumType} (h : e.search.found = []) :
    ∀ m ∈ e.evaluated.members, ∃ value, m.value = .known value := by
  obtain ⟨hfailed, hsize, -, hall⟩ := EnumSearch.settleAll_done e.base
    (s := { members := e.members }) (List.range e.members.size) (by simp) (by simp) h
  intro m hm
  obtain ⟨i, hlt, rfl⟩ := Array.mem_iff_getElem.1 hm
  have hi : e.search.Settled i := hall i (List.mem_range.2 (hsize ▸ hlt))
  have hget : e.search.members[i]? = some e.evaluated.members[i] := Array.getElem?_eq_getElem hlt
  unfold EnumSearch.Settled EnumSearch.outcome? at hi
  rw [hget] at hi
  cases hv : e.evaluated.members[i].value with
  | known value => exact ⟨value, rfl⟩
  | implicit => simp [hv, ValueState.constant?, search, hfailed] at hi
  | literal text => simp [hv, ValueState.constant?, search, hfailed] at hi
  | reference name => simp [hv, ValueState.constant?, search, hfailed] at hi

end ComponentIdl
