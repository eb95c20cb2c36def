import ComponentIdl.Proofs.Evaluation.Checked
import ComponentIdl.Proofs.Evaluation.Search

/-!
# The iterations of the search for enum values

Whatever has been evaluated before, the search from a root goes along its dependency chain: the stack
is the chain as far as it has been followed, each member of it waits for the one above, and only a root
that was settled beforehand is ever on the stack when it is settled. A member is marked as pending when
it is found to wait, which is when the next one is pushed, and stays so until it is settled itself; so
a member that is waited for is on the stack exactly if it is pending by then.

No member is pushed twice, and the search ends, on a cycle too. If it is not stopped, nothing is
pending then, as the search from the next root requires.
-/

namespace ComponentIdl

namespace EnumSearch

variable {e : EnumType} {s s' start : EnumSearch} {top root on i : Nat} {rest : List Nat}
  {r : Option Constant} {m : EnumMember}

/-- The search from a root, before its first iteration. -/
def begun (s : EnumSearch) (root : Nat) : EnumSearch := { s with stack := [root] }

/-- What holds at the head of an iteration of the search from `root`. `start` is the search before. -/
structure Iteration (e : EnumType) (root : Nat) (start s : EnumSearch) : Prop where
  chain : s.stack ≠ [] → e.Way root s.stack
  distinct : s.stack.Nodup
  waiting : ∀ i ∈ s.stack.tail, i ∈ s.pending
  pending : ∀ i ∈ s.pending, i ∈ s.stack
  -- the topmost member may be pending, but only once it has nothing left to wait for
  served : ∀ i ∈ s.stack.head?, i ∈ s.pending →
    (∃ j, e.DependsOn i j) ∧ ∀ j, e.DependsOn i j → s.Settled j
  -- a root that an earlier search settled is found so at the first iteration, and popped
  settled : ∀ i ∈ s.stack, s.Settled i → s = start.begun root
  inRange : ∀ i ∈ s.stack, i < s.members.size

/-- The members pushed in the next `fuel` iterations. -/
def pushes (base : IntegerType) : Nat → EnumSearch → List Nat := (loop base).pushes stack

/-- The members have their names, and those that are not settled have their initializers. -/
structure Keeps (e : EnumType) (s : EnumSearch) : Prop where
  size : s.members.size = e.members.size
  name : ∀ i, (s.members[i]?).map EnumMember.name = e.memberName? i
  unsettled : ∀ i, ¬ s.Settled i → s.members[i]? = e.members[i]?

theorem keeps_start (e : EnumType) : Keeps e { members := e.members } :=
  ⟨rfl, fun _ => rfl, fun _ _ => rfl⟩

theorem Keeps.assign (h : s.Keeps e) (value : Constant) (hm : s.members[top]? = some m) :
    (s.apply top m (.assign value)).Keeps e := by
  have hg := gives_assign value hm
  have hget : ∀ i, (s.apply top m (.assign value)).members[i]? =
      if top = i then some { m with value := .known value } else s.members[i]? := by
    intro i
    show (s.members.setIfInBounds top _)[i]? = _
    rw [Array.getElem?_setIfInBounds]
    by_cases heq : top = i
    · subst heq
      rw [if_pos rfl, if_pos (Array.getElem?_eq_some_iff.1 hm).1, if_pos rfl]
    · rw [if_neg heq, if_neg heq]
  refine ⟨hg.size.trans h.size, fun i => ?_, fun i hi => ?_⟩
  · rw [hget, ← h.name i]
    split
    · next heq =>
      rw [← heq, hm]
      rfl
    · rfl
  · rw [hg.settled_iff, not_or] at hi
    rw [hget, if_neg (Ne.symm hi.2)]
    exact h.unsettled i hi.1

theorem Keeps.fail (h : s.Keeps e) (m : EnumMember) (reports : Bool) (hu : s.outcome? top = none) :
    (s.apply top m (.fail reports)).Keeps e := by
  have hg := gives_fail m reports hu
  have hmembers : (s.apply top m (.fail reports)).members = s.members := members_fail m reports
  refine ⟨hg.size.trans h.size, fun i => ?_, fun i hi => ?_⟩
  · rw [hmembers]
    exact h.name i
  · rw [hg.settled_iff, not_or] at hi
    rw [hmembers]
    exact h.unsettled i hi.1

/-- What a member waits for is its dependency. -/
theorem Keeps.dependsOn (h : s.Keeps e) (hm : s.members[top]? = some m)
    (hu : s.outcome? top = none) (hwait : s.move e.base top m.value = .wait on) :
    e.DependsOn top on := by
  have hfit : ∀ value : Option Constant, fitting value ≠ .wait on := by
    intro value
    cases value <;> simp [fitting]
  have hinitializer : e.initializer? top = some m.value := by
    rw [EnumType.initializer?, ← h.unsettled top (by simp [Settled, hu]), hm]
    rfl
  cases hv : m.value with
  | known value =>
    rw [hv] at hwait
    cases hwait
  | literal text =>
    rw [hv] at hwait
    exact absurd hwait (hfit _)
  | implicit =>
    rw [hv] at hwait hinitializer
    cases top with
    | zero => cases hwait
    | succ before =>
      simp only [move] at hwait
      split at hwait
      · exact absurd hwait (hfit _)
      · cases hwait
      · cases hwait
        exact .before hinitializer
  | reference name =>
    rw [hv] at hwait hinitializer
    simp only [move] at hwait
    split at hwait
    · cases hwait
    · next target hindex =>
      split at hwait
      · cases hwait
      · cases hwait
      · cases hwait
        refine .named hinitializer ?_
        obtain ⟨hlt, hname, -⟩ := Array.findIdx?_eq_some_iff_getElem.1 hindex
        rw [← h.name, Array.getElem?_eq_getElem hlt]
        exact congrArg some (beq_iff_eq.1 hname)

/-! ### One iteration -/

/-- The invariant of a search that has not been stopped. -/
structure Walking (e : EnumType) (root : Nat) (start s : EnumSearch) : Prop where
  inv : Inv s
  keeps : s.Keeps e
  way : s.stack ≠ [] → e.Way root s.stack
  pendingDistinct : s.pending.Nodup
  pending : ∀ i ∈ s.pending, i ∈ s.stack
  served : ∀ i ∈ s.stack.head?, i ∈ s.pending → ∃ j, e.DependsOn i j ∧ s.Settled j
  settled : ∀ i ∈ s.stack, s.Settled i → s = start.begun root
  inRange : ∀ i ∈ s.stack, i < s.members.size

theorem Walking.iteration (hn : e.DistinctNames) (h : Walking e root start s) :
    Iteration e root start s where
  chain := h.way
  distinct := h.inv.distinct
  waiting := h.inv.waiting
  pending := h.pending
  served i hi hpending := by
    obtain ⟨j, hj, hsettled⟩ := h.served i hi hpending
    exact ⟨⟨j, hj⟩, fun k hk => hj.unique hn hk ▸ hsettled⟩
  settled := h.settled
  inRange := h.inRange

/-- Only the first iteration can find its member settled: it is the root then, and nothing is pending. -/
theorem Walking.pop (h : Walking e root start s) (hstart : start.pending = [])
    (hs : s.stack = top :: rest) (hset : s.Settled top) : Walking e root start s.pop := by
  have hfirst := h.settled top (by rw [hs]; exact List.mem_cons_self) hset
  have hstack : s.pop.stack = [] := by rw [hfirst]; rfl
  have hpending : s.pop.pending = [] := by rw [hfirst]; exact hstart
  have hkeeps : s.pop.Keeps e := ⟨h.keeps.size, h.keeps.name, h.keeps.unsettled⟩
  refine ⟨⟨?_, ?_, h.inv.told⟩, hkeeps, ?_, ?_, ?_, ?_, ?_, ?_⟩ <;> simp [hstack, hpending]

/-- A member that is settled leaves the stack to the one that waits for it. -/
theorem Walking.gives (h : Walking e root start s) (hinv : Inv s') (hkeeps : s'.Keeps e)
    (hs : s.stack = top :: rest) (hg : s.Gives s' top r) : Walking e root start s' := by
  have hstack : s'.stack = rest := by rw [hg.stack, hs, List.tail_cons]
  have hdistinct := h.inv.distinct
  have hway : e.Way root (top :: rest) := hs ▸ h.way (by rw [hs]; exact List.cons_ne_nil _ _)
  rw [hs] at hdistinct
  obtain ⟨htop, -⟩ := List.nodup_cons.1 hdistinct
  have hmem : ∀ i ∈ rest, i ∈ s.stack := fun i hi => by rw [hs]; exact List.mem_cons_of_mem _ hi
  refine ⟨hinv, hkeeps, ?_, ?_, ?_, ?_, ?_, ?_⟩
  · rw [hstack]
    exact hway.tail
  · rw [hg.pending]
    exact h.pendingDistinct.erase _
  · rw [hstack, hg.pending]
    intro i hi
    obtain ⟨hne, hi⟩ := (List.Nodup.mem_erase_iff h.pendingDistinct).1 hi
    have hi' := h.pending i hi
    rw [hs] at hi'
    exact (List.mem_cons.1 hi').resolve_left hne
  · rw [hstack]
    intro i hi _
    obtain ⟨below, rfl⟩ := List.head?_eq_some_iff.1 hi
    have hwhole : e.Way root ([] ++ top :: i :: below) := hway
    exact ⟨top, hwhole.dependsOn, (hg.settled_iff top).2 (Or.inr rfl)⟩
  · rw [hstack]
    intro i hi hset
    rcases (hg.settled_iff i).1 hset with hset | rfl
    · -- a settled member is on the stack at the start only, and there it is the topmost one
      have hfirst := h.settled i (hmem i hi) hset
      rw [hfirst] at hs
      obtain ⟨-, rfl⟩ := List.cons.inj hs
      cases hi
    · exact absurd hi htop
  · rw [hstack, hg.size]
    exact fun i hi => h.inRange i (hmem i hi)

theorem Walking.push (h : Walking e root start s) (hs : s.stack = top :: rest)
    (hu : ¬ s.Settled top) (hd : e.DependsOn top on) (hon : ¬ s.Settled on)
    (hlt : on < s.members.size) (hnew : on ∉ s.pending.insert top)
    (hinv : Inv { s with stack := on :: s.stack, pending := s.pending.insert top }) :
    Walking e root start { s with stack := on :: s.stack, pending := s.pending.insert top } := by
  have hway : e.Way root (top :: rest) := hs ▸ h.way (by rw [hs]; exact List.cons_ne_nil _ _)
  refine ⟨hinv, ⟨h.keeps.size, h.keeps.name, h.keeps.unsettled⟩, fun _ => ?_,
    h.pendingDistinct.insert, ?_, ?_, ?_, ?_⟩
  · show e.Way root (on :: s.stack)
    rw [hs]
    exact hway.next hd
  · intro i hi
    rcases List.mem_insert_iff.1 hi with rfl | hi
    · show i ∈ on :: s.stack
      rw [hs]
      exact List.mem_cons_of_mem _ List.mem_cons_self
    · exact List.mem_cons_of_mem _ (h.pending i hi)
  · intro i hi hpending
    obtain rfl : on = i := Option.some.inj hi
    exact absurd hpending hnew
  · intro i hi hset
    rcases List.mem_cons.1 hi with rfl | hi
    · exact absurd hset hon
    · have hfirst := h.settled i hi hset
      have hroot : s.stack = [root] := by rw [hfirst]; rfl
      rw [hroot] at hi hs
      rw [List.mem_singleton.1 hi, (List.cons.inj hs).1] at hset
      exact absurd hset hu
  · exact List.forall_mem_cons.2 ⟨hlt, h.inRange⟩

theorem walking_step (h : Walking e root start s) (hstart : start.pending = [])
    (hs : s.stack = top :: rest) :
    ((s.step e.base).isStopped = s.isStopped ∧ Walking e root start (s.step e.base)) ∨
      (s.step e.base).isStopped = true := by
  have hlt : top < s.members.size := h.inRange top (by rw [hs]; exact List.mem_cons_self)
  have hm : s.members[top]? = some s.members[top] := Array.getElem?_eq_getElem hlt
  have hinv : Inv (s.step e.base) := inv_step h.inv hs
  cases hu : s.outcome? top with
  | some result =>
    have hstep : s.step e.base = s.pop := by simp [step, hs, hm, hu]
    rw [hstep]
    exact Or.inl ⟨rfl, h.pop hstart hs (by simp [Settled, hu])⟩
  | none =>
    have hstep : s.step e.base = s.apply top s.members[top] (s.move e.base top s.members[top].value) := by
      simp [step, hs, hm, hu]
    rw [hstep] at hinv ⊢
    cases hmove : s.move e.base top s.members[top].value with
    | assign value =>
      rw [hmove] at hinv
      exact Or.inl ⟨rfl, h.gives hinv (h.keeps.assign value hm) hs (gives_assign value hm)⟩
    | fail reports =>
      rw [hmove] at hinv
      refine Or.inl ⟨by cases reports <;> rfl, ?_⟩
      exact h.gives hinv (h.keeps.fail _ reports hu) hs (gives_fail _ reports hu)
    | unknown name => exact Or.inr rfl
    | wait on =>
      obtain ⟨hon, hlt'⟩ := (move_spec e.base hm).2 on hmove
      rw [hmove] at hinv
      by_cases hc : on ∈ s.pending.insert top
      · right
        simp only [apply, List.contains_iff_mem.2 hc, if_true, Array.getElem?_eq_getElem hlt']
      · have hpush : s.apply top s.members[top] (.wait on) =
            { s with stack := on :: s.stack, pending := s.pending.insert top } := by
          simp [apply, hc]
        rw [hpush] at hinv ⊢
        exact Or.inl ⟨rfl, h.push hs (by simp [Settled, hu]) (h.keeps.dependsOn hm hu hmove)
          (by simp [Settled, hon]) hlt' hc hinv⟩

theorem runAt_of_isOver (base : IntegerType) (fuel : Nat) (h : (loop base).isOver s) :
    runAt base fuel s = .ok s := by
  cases fuel with
  | zero => rfl
  | succ fuel => exact if_pos h

theorem walking_run (hstart : start.pending = []) (fuel : Nat) (h : Walking e root start s)
    (hrunning : s.isStopped = false) :
    runAt e.base fuel s = .ok (run e.base fuel s) ∧
      ((run e.base fuel s).isStopped = true ∨ Walking e root start (run e.base fuel s)) := by
  induction fuel generalizing s with
  | zero => exact ⟨rfl, Or.inr h⟩
  | succ fuel ih =>
    by_cases hover : (loop e.base).isOver s
    · rw [runAt_of_isOver _ _ hover, run, Loop.run_of_isOver _ hover]
      exact ⟨rfl, Or.inr h⟩
    · obtain ⟨top, rest, hs, -⟩ := exists_top hover
      have hchecked : runAt e.base (fuel + 1) s = runAt e.base fuel (s.step e.base) := by
        simp only [runAt, hs, hrunning, stepAt_eq e.base h.inRange]
        rfl
      have hrun : run e.base (fuel + 1) s = run e.base fuel (s.step e.base) :=
        Loop.run_succ fuel hover
      rw [hchecked, hrun]
      rcases walking_step h hstart hs with ⟨hsame, hnext⟩ | hstopped
      · exact ih hnext (hsame.trans hrunning)
      · have hlast : (loop e.base).isOver (s.step e.base) := isOver_loop.2 (Or.inr hstopped)
        rw [runAt_of_isOver _ fuel hlast, run, Loop.run_of_isOver fuel hlast]
        exact ⟨rfl, Or.inl hstopped⟩

/-- A step puts no member ahead of the search, and one that it pushes was ahead and is so no more. -/
theorem ahead_step (base : IntegerType) (h : Inv s) (hs : s.stack = top :: rest) :
    (s.step base).ahead ⊆ s.ahead ∧
      ∀ i ∈ (loop base).pushed? stack s, i ∈ s.ahead ∧ i ∉ (s.step base).ahead := by
  rcases step_cases base h hs with hl | ⟨on, hon, hlt, hu, hstep⟩ | hstop
  · have hnone : (loop base).pushed? stack s = none :=
      Loop.pushed?_of_le (by simp [loop, hl.stack, hs])
    rw [hnone]
    exact ⟨hl.ahead_subset hs, fun i hi => absurd hi (Option.not_mem_none i)⟩
  · have hsome : (loop base).pushed? stack s = some on :=
      Loop.pushed?_of_cons (by simp [loop, hstep])
    rw [hsome, hstep, ahead_push]
    refine ⟨Finset.erase_subset on _, fun i hi => ?_⟩
    obtain rfl := Option.some.inj hi
    exact ⟨mem_ahead.2 ⟨hlt, hu, hon⟩, Finset.notMem_erase on _⟩
  · have hnone : (loop base).pushed? stack s = none :=
      Loop.pushed?_of_le (by simp [loop, hstop.stack])
    rw [hnone, hstop.ahead]
    exact ⟨Finset.Subset.refl _, fun i hi => absurd hi (Option.not_mem_none i)⟩

theorem pushes_ahead (base : IntegerType) (fuel : Nat) (h : Inv s) :
    (pushes base fuel s).Nodup ∧ ∀ i ∈ pushes base fuel s, i ∈ s.ahead := by
  refine Loop.pushes_fresh (P := Inv) (F := fun s i => i ∈ s.ahead) (fun s h hover => ?_)
    (fun s h hover => ?_) (fun s h hover => ?_) fuel h
  all_goals obtain ⟨top, rest, hs, -⟩ := exists_top hover
  · exact inv_step h hs
  · exact fun i hi => (ahead_step base h hs).1 hi
  · exact (ahead_step base h hs).2

/-! ### One root after another -/

/-- What a search is like before it turns to another root. -/
structure Poised (e : EnumType) (s : EnumSearch) : Prop where
  keeps : s.Keeps e
  pending : s.pending = []
  told : s.failed ≠ [] ∨ s.isStopped = true → s.found ≠ []

theorem poised_start (e : EnumType) : Poised e { members := e.members } :=
  ⟨keeps_start e, rfl, by simp⟩

theorem Poised.walking (h : s.Poised e) (hroot : root < e.members.size) :
    Walking e root s (s.begun root) where
  inv := ⟨List.nodup_singleton root, nofun, h.told⟩
  keeps := ⟨h.keeps.size, h.keeps.name, h.keeps.unsettled⟩
  way _ := .start
  pendingDistinct := by
    rw [show (s.begun root).pending = [] from h.pending]
    exact List.nodup_nil
  pending i hi := by
    rw [show (s.begun root).pending = [] from h.pending] at hi
    cases hi
  served i _ hi := by
    rw [show (s.begun root).pending = [] from h.pending] at hi
    cases hi
  settled _ _ _ := rfl
  inRange i hi := by
    rw [List.mem_singleton.1 hi]
    exact h.keeps.size ▸ hroot

theorem Walking.poised (h : Walking e root start s) (hs : s.stack = []) : s.Poised e := by
  refine ⟨h.keeps, List.eq_nil_iff_forall_not_mem.2 fun i hi => ?_, h.inv.told⟩
  have hmem := h.pending i hi
  rw [hs] at hmem
  cases hmem

theorem Poised.settle (h : s.Poised e) (hrunning : s.isStopped = false)
    (hroot : root < e.members.size) :
    (s.settle e.base root).isStopped = true ∨ (s.settle e.base root).Poised e := by
  rcases (walking_run h.pending _ (h.walking hroot) hrunning).2 with hstopped | hwalking
  · exact Or.inl hstopped
  · rcases settle_stack e.base root h.told with hs | hstopped
    · exact Or.inr (Walking.poised hwalking hs)
    · exact Or.inl hstopped

theorem Poised.settleAll (h : s.Poised e) (hrunning : s.isStopped = false) (roots : List Nat)
    (hroots : ∀ r ∈ roots, r < e.members.size) :
    (s.settleAll e.base roots).isStopped = true ∨ (s.settleAll e.base roots).Poised e := by
  induction roots generalizing s with
  | nil => exact Or.inr h
  | cons root roots ih =>
    obtain ⟨hroot, hroots⟩ := List.forall_mem_cons.1 hroots
    have hnext : s.settleAll e.base (root :: roots) =
        (s.settle e.base root).settleAll e.base roots := by
      simp [EnumSearch.settleAll, hrunning]
    rw [hnext]
    cases hstopped : (s.settle e.base root).isStopped with
    | true =>
      rw [settleAll_stopped e.base roots hstopped]
      exact Or.inl hstopped
    | false =>
      have hpoised := (h.settle hrunning hroot).resolve_left (by simp [hstopped])
      exact ih hpoised hstopped hroots

end EnumSearch

/-- The search from a root of an enum, whichever roots have been settled before, if they did not stop it.
Whatever the number of iterations, the search with every index checked has gone the same way without an
error, and unless it is stopped the stack and the pending members are as they must be at the head of an
iteration. No member is pushed twice, the root included, and none that the enum does not have. The
search has an end, which more iterations do not change, and nothing is pending then unless it is
stopped. -/
theorem EnumType.settle_iterations (e : EnumType) (hn : e.DistinctNames) (before : List Nat)
    (hbefore : ∀ r ∈ before, r < e.members.size) (root : Nat) (hroot : root < e.members.size) :
    let start := EnumSearch.settleAll e.base { members := e.members } before
    start.isStopped = false →
      (∀ k, let s := EnumSearch.run e.base k (start.begun root)
        EnumSearch.runAt e.base k (start.begun root) = .ok s ∧
          (s.isStopped = false → EnumSearch.Iteration e root start s)) ∧
      (∀ k, (root :: EnumSearch.pushes e.base k (start.begun root)).Nodup ∧
        ∀ i ∈ EnumSearch.pushes e.base k (start.begun root), i < e.members.size) ∧
      ((start.settle e.base root).stack = [] ∨ (start.settle e.base root).isStopped = true) ∧
      (∀ k, 2 * e.members.size + 2 ≤ k →
        EnumSearch.run e.base k (start.begun root) = start.settle e.base root) ∧
      ((start.settle e.base root).isStopped = false → (start.settle e.base root).pending = []) := by
  intro start hrunning
  have hpoised : start.Poised e :=
    ((EnumSearch.poised_start e).settleAll rfl before hbefore).resolve_left
      (ne_true_of_eq_false hrunning)
  have hwalking := hpoised.walking hroot
  have hend := EnumSearch.settle_stack e.base root hpoised.told
  refine ⟨fun k => ?_, fun k => ?_, hend, fun k hk => ?_, fun hlive => ?_⟩
  · obtain ⟨hchecked, hhead⟩ := EnumSearch.walking_run hpoised.pending k hwalking hrunning
    refine ⟨hchecked, fun hlive => ?_⟩
    exact (hhead.resolve_left (by simp [hlive])).iteration hn
  · obtain ⟨hdistinct, hahead⟩ := EnumSearch.pushes_ahead e.base k hwalking.inv
    refine ⟨List.nodup_cons.2 ⟨fun hmem => ?_, hdistinct⟩, fun i hi => ?_⟩
    · -- the root is on the stack from the start
      exact (EnumSearch.mem_ahead.1 (hahead root hmem)).2.2 List.mem_cons_self
    · exact hpoised.keeps.size ▸ (EnumSearch.mem_ahead.1 (hahead i hi)).1
  · rw [← hpoised.keeps.size] at hk
    exact Loop.run_enough _ (EnumSearch.isOver_loop.2 hend) k hk
  · exact ((hpoised.settle hrunning hroot).resolve_left (by simp [hlive])).pending

/-- A first member named after the third, which comes one after the second. -/
def relay : EnumType :=
  { name := "Relay", scope := "N", line := 1, assembly := "default", base := .int32,
    members := #[⟨"Start", 2, .reference "Finish"⟩, ⟨"Turn", 3, .literal "5"⟩,
      ⟨"Finish", 4, .implicit⟩] }

theorem EnumType.settle_iterations_relay :
    let fresh : EnumSearch := { members := relay.members }
    let s := EnumSearch.run relay.base 2 (fresh.begun 0)
    relay.DistinctNames ∧ fresh.isStopped = false ∧ s.stack = [1, 2, 0] ∧ s.pending = [2, 0] ∧
      EnumSearch.runAt relay.base 2 (fresh.begun 0) = .ok s ∧ EnumSearch.Iteration relay 0 fresh s ∧
      [0, 2, 1].Nodup ∧ (fresh.settle relay.base 0).pending = [] := by
  intro fresh s
  have hn : relay.DistinctNames := by
    unfold DistinctNames
    decide
  obtain ⟨hheads, hpushes, -, -, hpending⟩ :=
    settle_iterations relay hn [] (by simp) 0 (by decide) rfl
  have htwo : EnumSearch.pushes relay.base 2 (fresh.begun 0) = [2, 1] := by decide +kernel
  refine ⟨hn, rfl, by decide +kernel, by decide +kernel, (hheads 2).1, ?_, ?_, ?_⟩
  · exact (hheads 2).2 (by decide +kernel)
  · exact htwo ▸ (hpushes 2).1
  · exact hpending (by decide +kernel)

end ComponentIdl
