import ComponentIdl.Proofs.Evaluation
import ComponentIdl.Proofs.Evaluation.Chain

/-!
# The search follows the chains

What the search knows of a member is its value by recursion, and the stack is the chain of the
member that is being settled, with every member below the topmost one pending. A member that is
waited for is pending exactly if the chain has been there before, so the search stops at the first
member that its chain visits twice, or at a name that no member has. A chain that leads astray has
no settled member, so nothing is lost by the stop.
-/

namespace ComponentIdl

theorem EnumMember.name_given (m : EnumMember) (r : Option Constant) : (m.given r).name = m.name := by
  cases r <;> rfl

theorem EnumMember.line_given (m : EnumMember) (r : Option Constant) : (m.given r).line = m.line := by
  cases r <;> rfl

namespace EnumSearch

variable {e : EnumType} {s s' start : EnumSearch} {top root i : Nat} {rest : List Nat}
  {r : Option Constant} {m : EnumMember}

/-- What the search knows agrees with the enum, and with what has been reported. -/
structure Tracks (e : EnumType) (s : EnumSearch) : Prop where
  size : s.members.size = e.members.size
  member : ∀ i (m : EnumMember), e.members[i]? = some m →
    s.members[i]? = some (m.given ((s.outcome? i).getD none))
  value : ∀ i r, s.outcome? i = some r → e.HasValue i r
  closed : ∀ i j, e.DependsOn i j → s.Settled i → s.Settled j
  found : e.Reports (· ∈ s.failed) s.found

/-- The stack is the chain of `root` as far as it has been followed. `start` is the search before. -/
structure Walks (e : EnumType) (root : Nat) (start s : EnumSearch) : Prop where
  way : s.stack ≠ [] → e.Way root s.stack
  distinct : s.stack.Nodup
  unsettled : ∀ i ∈ s.stack, ¬ s.Settled i
  pendingDistinct : s.pending.Nodup
  waiting : ∀ i ∈ s.stack.tail, i ∈ s.pending
  pending : ∀ i ∈ s.pending, i ∈ s.stack
  old : ∀ i, start.Settled i → s.Settled i
  news : ∀ i, s.Settled i → start.Settled i ∨ e.OnChain root i

structure Halts (e : EnumType) (root : Nat) (s s' : EnumSearch) : Prop where
  members : s'.members = s.members
  failed : s'.failed = s.failed
  stopped : s'.isStopped = true
  found : ∃ d, e.Cause root d ∧ s'.found = s.found ++ [d]

theorem Halts.settled_iff (h : s.Halts e root s') (i : Nat) : s'.Settled i ↔ s.Settled i := by
  unfold Settled outcome?
  rw [h.members, h.failed]

theorem settled_of_failed (h : i ∈ s.failed) : s.Settled i := by
  unfold Settled outcome?
  split
  · rfl
  · rw [if_pos (List.contains_iff_mem.2 h)]
    rfl

theorem Tracks.getElem?_unsettled (ht : s.Tracks e) (hm : s.members[top]? = some m)
    (hu : s.outcome? top = none) : e.members[top]? = some m := by
  have hlt : top < e.members.size := ht.size ▸ (Array.getElem?_eq_some_iff.1 hm).1
  have hget : e.members[top]? = some e.members[top] := Array.getElem?_eq_getElem hlt
  have hsame := ht.member top _ hget
  rw [hm, hu] at hsame
  rw [hget, Option.some.inj hsame]
  rfl

theorem Tracks.memberName?_eq (ht : s.Tracks e) (i : Nat) :
    (s.members[i]?).map EnumMember.name = e.memberName? i := by
  unfold EnumType.memberName?
  cases hm : e.members[i]? with
  | none =>
    have hle : s.members.size ≤ i := ht.size ▸ Array.getElem?_eq_none_iff.1 hm
    rw [Array.getElem?_eq_none hle, Option.map_none]
  | some m =>
    rw [ht.member i m hm]
    exact congrArg some (m.name_given _)

theorem Tracks.indexOf?_some (ht : s.Tracks e) {name : String} (h : s.indexOf? name = some i) :
    e.memberName? i = some name := by
  unfold indexOf? at h
  obtain ⟨hlt, hname, -⟩ := Array.findIdx?_eq_some_iff_getElem.1 h
  rw [← ht.memberName?_eq i, Array.getElem?_eq_getElem hlt]
  exact congrArg some (beq_iff_eq.1 hname)

theorem Tracks.indexOf?_none (ht : s.Tracks e) {name : String} (h : s.indexOf? name = none) :
    ∀ j, e.memberName? j ≠ some name := by
  intro j hj
  unfold indexOf? at h
  rw [← ht.memberName?_eq j] at hj
  obtain ⟨m, hm, hname⟩ := Option.map_eq_some_iff.1 hj
  have hnone := Array.findIdx?_eq_none_iff.1 h m (Array.mem_of_getElem? hm)
  simp [hname] at hnone

inductive Meant (e : EnumType) (s : EnumSearch) (top : Nat) : EnumMove → Prop where
  | assign {value : Constant} (h : e.HasValue top (some value))
      (hd : ∀ j, e.DependsOn top j → s.Settled j) : Meant e s top (.assign value)
  | fail {reports : Bool} (h : e.HasValue top none) (hr : reports = true ↔ e.FailsAt top)
      (hd : ∀ j, e.DependsOn top j → s.Settled j) : Meant e s top (.fail reports)
  | wait {on : Nat} (h : e.DependsOn top on) (hu : ¬ s.Settled on) : Meant e s top (.wait on)
  | unknown {name : String} (h : e.NamesNothing top name) : Meant e s top (.unknown name)

theorem meant_fitting {value : Option Constant} (h : e.HasValue top value)
    (hfail : value = none → e.FailsAt top) (hd : ∀ j, e.DependsOn top j → s.Settled j) :
    s.Meant e top (fitting value) := by
  cases value with
  | none => exact .fail h (iff_of_true rfl (hfail rfl)) hd
  | some value => exact .assign h hd

theorem meant_literal {text : String} (hi : e.initializer? top = some (.literal text)) :
    s.Meant e top (fitting (e.base.literal? text)) :=
  meant_fitting (.literal hi) (fun hfail => .literal hi hfail) fun _ hd =>
    absurd hd (EnumType.IsGround.not_dependsOn (Or.inl ⟨text, hi⟩))

theorem settled_of_dependsOn {on : Nat} (hn : e.DistinctNames) (hd : e.DependsOn top on)
    (ho : s.outcome? on = some r) : ∀ j, e.DependsOn top j → s.Settled j := by
  intro j hj
  rw [hj.unique hn hd, Settled, ho]
  rfl

theorem meant_implicit (hn : e.DistinctNames) (ht : s.Tracks e)
    (hi : e.initializer? top = some .implicit) : s.Meant e top (s.move e.base top .implicit) := by
  cases top with
  | zero =>
    exact .assign (.first hi) fun _ hd =>
      absurd hd (EnumType.IsGround.not_dependsOn (Or.inr ⟨rfl, hi⟩))
  | succ before =>
    simp only [move]
    cases ho : s.outcome? before with
    | none => exact .wait (.before hi) (by simp [Settled, ho])
    | some result =>
      have hvalue := ht.value before result ho
      have hsettled := settled_of_dependsOn hn (.before hi) ho
      cases result with
      | some value =>
        exact meant_fitting (.next hi hvalue) (fun hfail => .next hi hvalue hfail) hsettled
      | none =>
        refine .fail (.next hi hvalue) (iff_of_false Bool.false_ne_true ?_) hsettled
        intro hfails
        cases hfails with
        | literal h => simp [hi] at h
        | next _ hr _ => exact absurd (hr.unique hn hvalue) (by simp)

theorem meant_reference (hn : e.DistinctNames) (ht : s.Tracks e) {name : String}
    (hi : e.initializer? top = some (.reference name)) :
    s.Meant e top (s.move e.base top (.reference name)) := by
  simp only [move]
  cases hindex : s.indexOf? name with
  | none => exact .unknown ⟨hi, ht.indexOf?_none hindex⟩
  | some target =>
    have hname := ht.indexOf?_some hindex
    dsimp only
    cases ho : s.outcome? target with
    | none => exact .wait (.named hi hname) (by simp [Settled, ho])
    | some result =>
      have hvalue := ht.value target result ho
      have hsettled := settled_of_dependsOn hn (.named hi hname) ho
      cases result with
      | some value => exact .assign (.reference hi hname hvalue) hsettled
      | none =>
        refine .fail (.reference hi hname hvalue) (iff_of_false Bool.false_ne_true ?_) hsettled
        intro hfails
        cases hfails with
        | literal h => simp [hi] at h
        | next h _ _ => simp [hi] at h

theorem meant_move (hn : e.DistinctNames) (ht : s.Tracks e) (hm : s.members[top]? = some m)
    (hu : s.outcome? top = none) : s.Meant e top (s.move e.base top m.value) := by
  have hi : e.initializer? top = some m.value :=
    EnumType.initializer?_eq_some.2 ⟨m, ht.getElem?_unsettled hm hu, rfl⟩
  cases hv : m.value with
  | known value => simp [outcome?, hm, hv, ValueState.constant?] at hu
  | literal text => exact meant_literal (hv ▸ hi)
  | implicit => exact meant_implicit hn ht (hv ▸ hi)
  | reference name => exact meant_reference hn ht (hv ▸ hi)

/-! ### Steps -/

structure Gives (s s' : EnumSearch) (top : Nat) (r : Option Constant) : Prop where
  outcome : ∀ j, s'.outcome? j = if j = top then some r else s.outcome? j
  size : s'.members.size = s.members.size
  stack : s'.stack = s.stack.tail
  pending : s'.pending = s.pending.erase top

theorem Gives.settled_iff (h : s.Gives s' top r) (j : Nat) :
    s'.Settled j ↔ s.Settled j ∨ j = top := by
  unfold Settled
  rw [h.outcome]
  split
  · next hj => simp [hj]
  · next hj => simp [hj]

theorem gives_assign (value : Constant) (hm : s.members[top]? = some m) :
    s.Gives (s.apply top m (.assign value)) top (some value) :=
  ⟨outcome?_assign value hm, Array.size_setIfInBounds .., rfl, rfl⟩

theorem gives_fail (m : EnumMember) (reports : Bool) (hu : s.outcome? top = none) :
    s.Gives (s.apply top m (.fail reports)) top none := by
  refine ⟨outcome?_fail m reports hu, ?_, ?_, rfl⟩
  · rw [members_fail]
  · cases reports <;> rfl

theorem Tracks.gives (ht : s.Tracks e) (hg : s.Gives s' top r) (hr : e.HasValue top r)
    (hd : ∀ j, e.DependsOn top j → s.Settled j)
    (hmember : ∀ i (m : EnumMember), e.members[i]? = some m →
      s'.members[i]? = some (m.given ((s'.outcome? i).getD none)))
    (hfound : e.Reports (· ∈ s'.failed) s'.found) : s'.Tracks e := by
  refine ⟨hg.size.trans ht.size, hmember, ?_, ?_, hfound⟩
  · intro i r' hi
    rw [hg.outcome] at hi
    split at hi
    · next heq =>
      rw [heq, ← Option.some.inj hi]
      exact hr
    · exact ht.value i r' hi
  · intro i j hij hi
    rw [hg.settled_iff] at hi ⊢
    left
    rcases hi with hi | rfl
    · exact ht.closed i j hij hi
    · exact hd j hij

theorem Tracks.assign (ht : s.Tracks e) {value : Constant} (hm : s.members[top]? = some m)
    (hu : s.outcome? top = none) (hr : e.HasValue top (some value))
    (hd : ∀ j, e.DependsOn top j → s.Settled j) :
    (s.apply top m (.assign value)).Tracks e := by
  have hg := gives_assign value hm
  refine ht.gives hg hr hd ?_ ht.found
  intro i m' hi
  rw [hg.outcome]
  show (s.members.setIfInBounds top { m with value := .known value })[i]? = _
  rw [Array.getElem?_setIfInBounds]
  by_cases htop : top = i
  · subst htop
    have hlt := (Array.getElem?_eq_some_iff.1 hm).1
    have hsame := ht.getElem?_unsettled hm hu
    rw [hi, Option.some.injEq] at hsame
    rw [if_pos rfl, if_pos hlt, if_pos rfl, hsame]
    rfl
  · rw [if_neg htop, if_neg fun h => htop h.symm]
    exact ht.member i m' hi

-- A failure that starts here is new in the list of failures, one that is passed on is never reported.
theorem reports_fail (ht : s.Tracks e) {reports : Bool} (hm : s.members[top]? = some m)
    (hu : s.outcome? top = none) (hr : reports = true ↔ e.FailsAt top) :
    e.Reports (· ∈ (s.apply top m (.fail reports)).failed)
      (s.apply top m (.fail reports)).found := by
  rw [failed_fail]
  cases reports with
  | false =>
    refine ht.found.congr fun i hfails => ⟨List.mem_cons_of_mem top, fun hi => ?_⟩
    rcases List.mem_cons.1 hi with rfl | hi
    · exact absurd (hr.2 hfails) Bool.false_ne_true
    · exact hi
  | true =>
    have hnew : top ∉ s.failed := by
      intro htop
      have hsettled := settled_of_failed htop
      simp [Settled, hu] at hsettled
    have hfound := ht.found.concat hnew (hr.1 rfl) (ht.getElem?_unsettled hm hu)
    exact hfound.congr fun i _ => List.mem_cons.symm

theorem Tracks.fail (ht : s.Tracks e) {reports : Bool} (hm : s.members[top]? = some m)
    (hu : s.outcome? top = none) (hv : e.HasValue top none) (hr : reports = true ↔ e.FailsAt top)
    (hd : ∀ j, e.DependsOn top j → s.Settled j) :
    (s.apply top m (.fail reports)).Tracks e := by
  have hg := gives_fail m reports hu
  refine ht.gives hg hv hd ?_ (reports_fail ht hm hu hr)
  intro i m' hi
  rw [hg.outcome, members_fail, ht.member i m' hi]
  split
  · next heq =>
    rw [heq, hu]
    rfl
  · rfl

theorem Walks.way_cons (hw : Walks e root start s) (hs : s.stack = top :: rest) :
    e.Way root (top :: rest) := by
  rw [← hs]
  exact hw.way (by rw [hs]; exact List.cons_ne_nil top rest)

theorem Walks.gives (hw : Walks e root start s) (hs : s.stack = top :: rest)
    (hg : s.Gives s' top r) : Walks e root start s' := by
  have hway := hw.way_cons hs
  obtain ⟨-, hdistinct, hunsettled, hpd, hwaiting, hpending, hold, hnews⟩ := hw
  have hstack : s'.stack = rest := by rw [hg.stack, hs, List.tail_cons]
  rw [hs] at hdistinct hunsettled hwaiting hpending
  obtain ⟨htop, hrest⟩ := List.nodup_cons.1 hdistinct
  constructor
  · rw [hstack]
    exact hway.tail
  · rw [hstack]
    exact hrest
  · rw [hstack]
    intro i hi hset
    rw [hg.settled_iff] at hset
    rcases hset with hset | rfl
    · exact hunsettled i (List.mem_cons_of_mem _ hi) hset
    · exact htop hi
  · rw [hg.pending]
    exact hpd.erase _
  · rw [hstack, hg.pending]
    intro i hi
    have hi' := List.mem_of_mem_tail hi
    exact (List.mem_erase_of_ne (ne_of_mem_of_not_mem hi' htop)).2 (hwaiting i hi')
  · rw [hstack, hg.pending]
    intro i hi
    obtain ⟨hne, hi'⟩ := (List.Nodup.mem_erase_iff hpd).1 hi
    exact (List.mem_cons.1 (hpending i hi')).resolve_left hne
  · intro i hi
    rw [hg.settled_iff]
    exact Or.inl (hold i hi)
  · intro i hi
    rw [hg.settled_iff] at hi
    rcases hi with hi | rfl
    · exact hnews i hi
    · exact Or.inr (hway.onChain i List.mem_cons_self)

theorem Walks.push (hw : Walks e root start s) (hs : s.stack = top :: rest) {on : Nat}
    (hd : e.DependsOn top on) (hu : ¬ s.Settled on) (hnew : on ∉ s.pending.insert top) :
    Walks e root start { s with stack := on :: s.stack, pending := s.pending.insert top } := by
  have hway := hw.way_cons hs
  obtain ⟨-, hdistinct, hunsettled, hpd, hwaiting, hpending, hold, hnews⟩ := hw
  rw [hs] at hdistinct hunsettled hwaiting hpending ⊢
  have hstack : ∀ i ∈ top :: rest, i ∈ s.pending.insert top := by
    intro i hi
    rcases List.mem_cons.1 hi with rfl | hi
    · exact List.mem_insert_self
    · exact List.mem_insert_of_mem (hwaiting i hi)
  refine ⟨?_, ?_, ?_, hpd.insert, hstack, ?_, hold, hnews⟩
  · exact fun _ => hway.next hd
  · exact List.nodup_cons.2 ⟨fun hmem => hnew (hstack on hmem), hdistinct⟩
  · intro i hi
    rcases List.mem_cons.1 hi with rfl | hi
    · exact hu
    · exact hunsettled i hi
  · intro i hi
    rcases List.mem_insert_iff.1 hi with rfl | hi
    · exact List.mem_cons_of_mem _ List.mem_cons_self
    · exact List.mem_cons_of_mem _ (hpending i hi)

theorem Walks.firstTwice (hw : Walks e root start s) (hs : s.stack = top :: rest) {on : Nat}
    (hd : e.DependsOn top on) (hpending : on ∈ s.pending.insert top) : e.FirstTwice root on := by
  have hdistinct := hw.distinct
  rw [hs] at hdistinct
  refine ⟨top, rest, hw.way_cons hs, hdistinct, hd, ?_⟩
  rcases List.mem_insert_iff.1 hpending with rfl | hmem
  · exact List.mem_cons_self
  · exact hs ▸ hw.pending on hmem

theorem step_tracks (hn : e.DistinctNames) (hroot : root < e.members.size) (ht : s.Tracks e)
    (hw : Walks e root start s) (hs : s.stack = top :: rest) :
    ((s.step e.base).isStopped = s.isStopped ∧ (s.step e.base).Tracks e ∧
      Walks e root start (s.step e.base)) ∨ s.Halts e root (s.step e.base) := by
  have hchain := (hw.way_cons hs).onChain top List.mem_cons_self
  have hu : s.outcome? top = none := by
    have hnot := hw.unsettled top (by rw [hs]; exact List.mem_cons_self)
    simpa [Settled] using hnot
  obtain ⟨m, hm⟩ : ∃ m, s.members[top]? = some m :=
    ⟨_, Array.getElem?_eq_getElem (ht.size ▸ hchain.lt hroot)⟩
  have hstep : s.step e.base = s.apply top m (s.move e.base top m.value) := by
    simp [step, hs, hm, hu]
  have hmeant := meant_move hn ht hm hu
  rw [hstep]
  generalize s.move e.base top m.value = move at hmeant
  cases hmeant with
  | assign h hd =>
    exact Or.inl ⟨rfl, ht.assign hm hu h hd, hw.gives hs (gives_assign _ hm)⟩
  | @fail reports h hr hd =>
    refine Or.inl ⟨?_, ht.fail hm hu h hr hd, hw.gives hs (gives_fail m reports hu)⟩
    cases reports <;> rfl
  | @wait on hd hunsettled =>
    -- The member waited for is pending exactly if it is on the stack, that is on the way so far.
    by_cases hc : on ∈ s.pending.insert top
    · obtain ⟨m', hm'⟩ : ∃ m', e.members[on]? = some m' :=
        ⟨_, Array.getElem?_eq_getElem hd.lt.2⟩
      have hget := ht.member on m' hm'
      have hcause : e.Cause root (.of .circularEnumField m'.line m'.name) :=
        .circular (hw.firstTwice hs hd hc) hm'
      right
      simp only [apply, List.contains_iff_mem.2 hc, if_true, hget]
      refine ⟨rfl, rfl, rfl, _, hcause, ?_⟩
      show s.found ++ [_] = _
      rw [EnumMember.name_given, EnumMember.line_given]
    · have hpush : s.apply top m (.wait on) =
          { s with stack := on :: s.stack, pending := s.pending.insert top } := by
        simp [apply, hc]
      rw [hpush]
      left
      exact ⟨rfl, ⟨ht.size, ht.member, ht.value, ht.closed, ht.found⟩,
        hw.push hs hd hunsettled hc⟩
  | @unknown name h =>
    exact Or.inr ⟨rfl, rfl, rfl, _, .unknown hchain (ht.getElem?_unsettled hm hu) h, rfl⟩

/-! ### Runs -/

theorem run_tracks (hn : e.DistinctNames) (hroot : root < e.members.size) (fuel : Nat)
    (ht : s.Tracks e) (hw : Walks e root start s) (hstop : s.isStopped = false) :
    ((run e.base fuel s).isStopped = false ∧ (run e.base fuel s).Tracks e ∧
      Walks e root start (run e.base fuel s)) ∨
    ∃ last : EnumSearch, last.Tracks e ∧ Walks e root start last ∧ last.Halts e root (run e.base fuel s) := by
  refine (loop e.base).run_preserves (P := fun s =>
    (s.isStopped = false ∧ s.Tracks e ∧ Walks e root start s) ∨
      ∃ last : EnumSearch, last.Tracks e ∧ Walks e root start last ∧ last.Halts e root s)
    (fun s h hover => ?_) fuel (Or.inl ⟨hstop, ht, hw⟩)
  obtain ⟨top, rest, hs, hrunning⟩ := exists_top hover
  rcases h with ⟨-, ht, hw⟩ | ⟨last, -, -, hhalt⟩
  · rcases step_tracks hn hroot ht hw hs with ⟨hsame, ht', hw'⟩ | hhalt
    · exact Or.inl ⟨hsame.trans hrunning, ht', hw'⟩
    · exact Or.inr ⟨s, ht, hw, hhalt⟩
  · rw [hhalt.stopped] at hrunning
    cases hrunning

/-- Between two roots: nothing is pending, and a failure has been reported. -/
structure Ready (e : EnumType) (s : EnumSearch) : Prop where
  tracks : s.Tracks e
  pending : s.pending = []
  running : s.isStopped = false
  told : s.failed ≠ [] → s.found ≠ []

theorem Tracks.onChain {j : Nat} (ht : s.Tracks e) (hchain : e.OnChain i j) (hi : s.Settled i) :
    s.Settled j := by
  induction hchain with
  | refl => exact hi
  | tail _ hd ih => exact ht.closed _ _ hd ih

theorem Tracks.ends (ht : s.Tracks e) (hi : s.Settled i) : e.Ends i := by
  obtain ⟨r, hr⟩ := Option.isSome_iff_exists.1 hi
  exact (ht.value i r hr).ends

theorem Ready.walks (h : s.Ready e) (hroot : ¬ s.Settled root) :
    Walks e root s { s with stack := [root] } := by
  have hpending : ∀ i, i ∉ s.pending := by
    rw [h.pending]
    exact fun i => List.not_mem_nil
  refine ⟨fun _ => .start, List.nodup_singleton root, ?_, ?_, ?_, ?_, fun _ hi => hi,
    fun _ hi => Or.inl hi⟩
  · intro i hi
    rw [List.mem_singleton.1 hi]
    exact hroot
  · rw [show _ = s.pending from rfl, h.pending]
    exact List.nodup_nil
  · intro i hi
    exact absurd hi List.not_mem_nil
  · exact fun i hi => absurd hi (hpending i)

theorem Walks.settled_iff {last : EnumSearch} (hn : e.DistinctNames)
    (hw : Walks e root start last) (ht : last.Tracks e) (hastray : e.Astray root) (i : Nat) :
    last.Settled i ↔ start.Settled i := by
  refine ⟨fun hi => (hw.news i hi).resolve_right ?_, hw.old i⟩
  -- A settled member has a chain that ends, and then the chain of the root would end too.
  intro hchain
  exact ((ht.ends hi).of_onChain hchain).not_astray hn hastray

theorem settle_settled (base : IntegerType) (hset : s.Settled root) (hstop : s.isStopped = false) :
    s.settle base root = { s with stack := [] } := by
  obtain ⟨r, hr⟩ := Option.isSome_iff_exists.1 hset
  have hr' : outcome? { s with stack := [root] } root = some r := hr
  have hstep : step base { s with stack := [root] } = { s with stack := [] } := by
    unfold step
    dsimp only
    rw [hr']
    cases s.members[root]? <;> rfl
  have hrest : ∀ fuel, run base fuel { s with stack := [] } = { s with stack := [] } := fun fuel =>
    Loop.run_of_isOver fuel (isOver_loop.2 (Or.inl rfl))
  have hlive : ¬ (loop base).isOver { s with stack := [root] } := by
    simp [isOver_loop, hstop]
  exact (Loop.run_succ _ hlive).trans ((congrArg (run base _) hstep).trans (hrest _))

theorem settle_tracks (hn : e.DistinctNames) (hroot : root < e.members.size) (h : s.Ready e) :
    ((s.settle e.base root).Ready e ∧
      ∀ i, (s.settle e.base root).Settled i ↔ s.Settled i ∨ e.OnChain root i) ∨
    ∃ last : EnumSearch, last.Tracks e ∧ (∀ i, last.Settled i ↔ s.Settled i) ∧
      last.Halts e root (s.settle e.base root) := by
  have htold : s.failed ≠ [] ∨ s.isStopped = true → s.found ≠ [] := by
    rintro (hf | hf)
    · exact h.told hf
    · simp [h.running] at hf
  have htracks : ∀ stack, Tracks e { s with stack := stack } := fun _ =>
    ⟨h.tracks.size, h.tracks.member, h.tracks.value, h.tracks.closed, h.tracks.found⟩
  by_cases hset : s.Settled root
  · -- Nothing is left to do: with the root its whole chain is settled.
    rw [settle_settled e.base hset h.running]
    left
    refine ⟨⟨htracks [], h.pending, h.running, h.told⟩, fun i => ⟨Or.inl, ?_⟩⟩
    rintro (hi | hchain)
    · exact hi
    · exact h.tracks.onChain hchain hset
  · rcases run_tracks hn hroot (2 * s.members.size + 2) (htracks [root]) (h.walks hset) h.running
      with ⟨hrunning, ht, hw⟩ | ⟨last, ht, hw, hhalt⟩
    · obtain ⟨htold', -, hold, -, hpassed⟩ := settle_done e.base root htold
      have hrunning' : ¬ (s.settle e.base root).isStopped = true := by
        rw [settle, hrunning]
        exact Bool.false_ne_true
      have hstack := (settle_stack e.base root htold).resolve_right hrunning'
      have hpending : (s.settle e.base root).pending = [] := by
        refine List.eq_nil_iff_forall_not_mem.2 fun i hi => ?_
        have hmem : i ∈ (s.settle e.base root).stack := hw.pending i hi
        rw [hstack] at hmem
        exact List.not_mem_nil hmem
      have hsettled : (s.settle e.base root).Settled root := by
        rcases hpassed.resolve_right hrunning' with hsettled | hbeyond
        · exact hsettled
        · have hsize : (s.settle e.base root).members.size = e.members.size := ht.size
          omega
      left
      refine ⟨⟨ht, hpending, hrunning, fun hf => htold' (Or.inl hf)⟩, fun i => ⟨hw.news i, ?_⟩⟩
      rintro (hi | hchain)
      · exact hold i hi
      · exact Tracks.onChain ht hchain hsettled
    · obtain ⟨d, hcause, -⟩ := hhalt.found
      exact Or.inr ⟨last, ht, hw.settled_iff hn ht hcause.astray, hhalt⟩

theorem outcome?_start (hu : e.Unevaluated) (i : Nat) :
    outcome? { members := e.members } i = none := by
  unfold outcome?
  cases hm : e.members[i]? with
  | none => simp
  | some m => simp [hu m (Array.mem_of_getElem? hm)]

theorem ready_start (hu : e.Unevaluated) : Ready e { members := e.members } := by
  refine ⟨⟨rfl, ?_, ?_, ?_, ?_⟩, rfl, rfl, fun hf => absurd rfl hf⟩
  · intro i m hm
    rw [outcome?_start hu]
    exact hm
  · intro i r hi
    simp [outcome?_start hu] at hi
  · intro i j _ hi
    simp [Settled, outcome?_start hu] at hi
  · exact ⟨[], List.nodup_nil, by simp, rfl⟩

theorem settleAll_succ (base : IntegerType) (s : EnumSearch) (n : Nat) :
    s.settleAll base (List.range (n + 1)) =
      if (s.settleAll base (List.range n)).isStopped then s.settleAll base (List.range n)
      else (s.settleAll base (List.range n)).settle base n := by
  unfold settleAll
  rw [List.range_succ, List.foldl_append]
  rfl

/-- Whatever is known at first: the roots are settled in their order, until a chain leads astray. -/
theorem Ready.settleAll_range {start : EnumSearch} (hn : e.DistinctNames) (h : start.Ready e)
    (n : Nat) (hle : n ≤ e.members.size) :
    let s := settleAll e.base start (List.range n)
    (s.Ready e ∧ ∀ i, s.Settled i ↔ start.Settled i ∨ ∃ j < n, e.OnChain j i) ∨
    ∃ (r : Nat) (last : EnumSearch), r < n ∧ last.Tracks e ∧
      (∀ i, last.Settled i ↔ start.Settled i ∨ ∃ j < r, e.OnChain j i) ∧ last.Halts e r s := by
  intro s
  induction n with
  | zero => exact Or.inl ⟨h, fun i => by simp [s, settleAll]⟩
  | succ n ih =>
    have hs : s = _ := settleAll_succ e.base start n
    rcases ih (by omega) with ⟨hready, hsettled⟩ | ⟨r, last, hr, ht, hsettled, hhalt⟩
    · rw [if_neg (by simp [hready.running])] at hs
      rw [hs]
      have hsplit : ∀ i, (∃ j < n + 1, e.OnChain j i) ↔
          (∃ j < n, e.OnChain j i) ∨ e.OnChain n i := by
        intro i
        constructor
        · rintro ⟨j, hj, hchain⟩
          rcases Nat.lt_succ_iff_lt_or_eq.1 hj with hj | rfl
          · exact Or.inl ⟨j, hj, hchain⟩
          · exact Or.inr hchain
        · rintro (⟨j, hj, hchain⟩ | hchain)
          · exact ⟨j, by omega, hchain⟩
          · exact ⟨n, by omega, hchain⟩
      have hroot : n < e.members.size := by omega
      rcases settle_tracks hn hroot hready with ⟨hready', hsettled'⟩ |
        ⟨last, ht, hsettled', hhalt⟩
      · refine Or.inl ⟨hready', fun i => ?_⟩
        rw [hsettled', hsettled, hsplit, or_assoc]
      · exact Or.inr ⟨n, last, by omega, ht, fun i => (hsettled' i).trans (hsettled i), hhalt⟩
    · rw [if_pos hhalt.stopped] at hs
      rw [hs]
      exact Or.inr ⟨r, last, by omega, ht, hsettled, hhalt⟩

theorem settleAll_range (hn : e.DistinctNames) (hu : e.Unevaluated) (n : Nat)
    (hle : n ≤ e.members.size) :
    let s := settleAll e.base { members := e.members } (List.range n)
    (s.Ready e ∧ ∀ i, s.Settled i ↔ ∃ j < n, e.OnChain j i) ∨
    ∃ (r : Nat) (last : EnumSearch), r < n ∧ last.Tracks e ∧
      (∀ i, last.Settled i ↔ ∃ j < r, e.OnChain j i) ∧ last.Halts e r s := by
  have hstart : ∀ i, ¬ Settled { members := e.members } i := by
    intro i hi
    simp [Settled, outcome?_start hu] at hi
  simpa only [hstart, false_or] using (ready_start hu).settleAll_range hn n hle

end EnumSearch

end ComponentIdl
