import ComponentIdl.Proofs.Evaluation.Search

/-!
# What evaluation makes of an enum

Where every chain ends, each member gets the value of the recursion along its chain. Else the search
stops at the first member whose chain leads astray: the chains of the members before it are
evaluated, and no other member changes. Enums do not know of each other.
-/

namespace ComponentIdl

namespace EnumType

def ReachedBefore (e : EnumType) (r i : Nat) : Prop := ∃ j < r, e.OnChain j i

/-- Reached members have the outcome of their recursion, the other ones are as they were. -/
structure EvaluatedTo (e e' : EnumType) (reached : Nat → Prop) : Prop where
  kept : e' = { e with members := e'.members }
  size : e'.members.size = e.members.size
  evaluated : ∀ i m, e.members[i]? = some m → reached i →
    ∃ r, e.HasValue i r ∧ (∀ r', e.HasValue i r' → r' = r) ∧ e'.members[i]? = some (m.given r)
  untouched : ∀ i m, e.members[i]? = some m → ¬ reached i → e'.members[i]? = some m

/-- What is reported of the first member `r` whose chain leads astray. -/
structure BlamedFor (e : EnumType) (r : Nat) (d : Diagnostic) : Prop where
  circular : e.EntersCycle r → ∃ i m, e.FirstTwice r i ∧ (∀ j, e.FirstTwice r j → j = i) ∧
    Relation.TransGen e.DependsOn i i ∧ e.members[i]? = some m ∧
    d = .of .circularEnumField m.line m.name
  unknown : ∀ i m name, e.OnChain r i → e.members[i]? = some m → e.NamesNothing i name →
    d = .of .unresolvedType m.line name

variable {e : EnumType} {s last : EnumSearch} {r i : Nat} {d : Diagnostic} {reached : Nat → Prop}

theorem Cause.blamedFor (hn : e.DistinctNames) (h : e.Cause r d) : e.BlamedFor r d := by
  cases h with
  | @circular i m htwice hm =>
    refine ⟨fun _ => ⟨i, m, htwice, fun j hj => hj.unique hn htwice, htwice.onCycle, hm, rfl⟩, ?_⟩
    intro j m' name hj _ hname
    exact absurd htwice.entersCycle (hj.not_entersCycle hn fun _ => hname.not_dependsOn)
  | @unknown i m name hi hm hname =>
    constructor
    · intro hcycle
      exact absurd hcycle (hi.not_entersCycle hn fun _ => hname.not_dependsOn)
    · intro j m' name' hj hm' hname'
      obtain rfl := hi.end_unique hn hj (fun _ => hname.not_dependsOn)
        fun _ => hname'.not_dependsOn
      have hsame : some (ValueState.reference name) = some (.reference name') :=
        hname.1.symm.trans hname'.1
      have hline : some m = some m' := hm.symm.trans hm'
      cases hsame
      cases hline
      rfl

theorem evaluatedTo_of_tracks (hn : e.DistinctNames) (ht : s.Tracks e)
    (hsettled : ∀ i, s.Settled i ↔ reached i) (hmembers : e.search.members = s.members) :
    e.EvaluatedTo e.evaluated reached := by
  have hget : ∀ i (m : EnumMember), e.members[i]? = some m →
      e.evaluated.members[i]? = some (m.given ((s.outcome? i).getD none)) := by
    intro i m hm
    rw [show e.evaluated.members = s.members from hmembers]
    exact ht.member i m hm
  refine ⟨rfl, (congrArg Array.size hmembers).trans ht.size, ?_, ?_⟩
  · intro i m hm hi
    obtain ⟨r, hr⟩ := Option.isSome_iff_exists.1 ((hsettled i).2 hi)
    have hvalue := ht.value i r hr
    refine ⟨r, hvalue, fun r' hr' => hr'.unique hn hvalue, ?_⟩
    rw [hget i m hm, hr]
    rfl
  · intro i m hm hi
    have hnone : s.outcome? i = none := by
      rw [← hsettled] at hi
      simpa [EnumSearch.Settled] using hi
    rw [hget i m hm, hnone]
    rfl

theorem reports_of_tracks (hn : e.DistinctNames) (ht : s.Tracks e)
    (hsettled : ∀ i, s.Settled i ↔ reached i) : e.Reports reached s.found := by
  refine ht.found.congr fun i hfails => ?_
  rw [← hsettled]
  refine ⟨EnumSearch.settled_of_failed, fun hi => ?_⟩
  obtain ⟨r, hr⟩ := Option.isSome_iff_exists.1 hi
  obtain rfl := (ht.value i r hr).unique hn hfails.hasValue
  exact EnumSearch.failed_of_outcome? hr

theorem search_cases (hn : e.DistinctNames) (hu : e.Unevaluated) :
    (e.search.isStopped = false ∧ e.search.Tracks e ∧
      ∀ i, e.search.Settled i ↔ e.ReachedBefore e.members.size i) ∨
    ∃ (r : Nat) (last : EnumSearch), e.search.isStopped = true ∧ (∀ j < r, ¬ e.Astray j) ∧
      last.Tracks e ∧ (∀ i, last.Settled i ↔ e.ReachedBefore r i) ∧
      last.Halts e r e.search := by
  rcases EnumSearch.settleAll_range hn hu e.members.size le_rfl with
    ⟨hready, hsettled⟩ | ⟨r, last, -, ht, hsettled, hhalt⟩
  · exact Or.inl ⟨hready.running, hready.tracks, hsettled⟩
  · refine Or.inr ⟨r, last, hhalt.stopped, fun j hj => ?_, ht, hsettled, hhalt⟩
    exact (ht.ends ((hsettled j).2 ⟨j, hj, .refl⟩)).not_astray hn

theorem isStopped_iff (hn : e.DistinctNames) (hu : e.Unevaluated) :
    e.search.isStopped = true ↔ ∃ i, e.Astray i := by
  rcases search_cases hn hu with ⟨hrunning, ht, hsettled⟩ | ⟨r, last, hstop, -, -, -, hhalt⟩
  · rw [hrunning]
    refine iff_of_false Bool.false_ne_true ?_
    rintro ⟨i, hi⟩
    have hends := ht.ends ((hsettled i).2 ⟨i, hi.lt, .refl⟩)
    exact hends.not_astray hn hi
  · obtain ⟨d, hcause, -⟩ := hhalt.found
    exact iff_of_true hstop ⟨r, hcause.astray⟩

theorem search_ends (hn : e.DistinctNames) (hu : e.Unevaluated)
    (hends : ∀ i < e.members.size, e.Ends i) :
    e.search.Tracks e ∧ ∀ i, e.search.Settled i ↔ e.ReachedBefore e.members.size i := by
  rcases search_cases hn hu with ⟨-, ht, hsettled⟩ | ⟨r, last, -, -, -, -, hhalt⟩
  · exact ⟨ht, hsettled⟩
  · obtain ⟨d, hcause, -⟩ := hhalt.found
    exact absurd hcause.astray ((hends r hcause.astray.lt).not_astray hn)

theorem search_astray (hn : e.DistinctNames) (hu : e.Unevaluated) (hr : e.Astray r)
    (hfirst : ∀ j < r, ¬ e.Astray j) :
    ∃ last : EnumSearch, last.Tracks e ∧ (∀ i, last.Settled i ↔ e.ReachedBefore r i) ∧
      last.Halts e r e.search := by
  rcases search_cases hn hu with ⟨hrunning, -, -⟩ | ⟨r', last, -, hfirst', ht, hsettled, hhalt⟩
  · have hstop := (isStopped_iff hn hu).2 ⟨r, hr⟩
    simp [hrunning] at hstop
  · -- The search stops at a member whose chain leads astray, after members whose chains end.
    obtain ⟨d, hcause, -⟩ := hhalt.found
    obtain hlt | rfl | hlt := Nat.lt_trichotomy r r'
    · exact absurd hr (hfirst' r hlt)
    · exact ⟨last, ht, hsettled, hhalt⟩
    · exact absurd hcause.astray (hfirst r' hlt)

end EnumType

def Workspace.withEnums (w : Workspace) (enums : List EnumType) : Workspace :=
  { w with store := { w.store with enums := enums.toArray } }

/-- Evaluation turns the enum between `pre` and `post` into `e'` with the diagnostics `found`, and
the other enums into what they become without it. -/
structure Workspace.EvaluatesApart (w : Workspace) (pre post : List EnumType) (e' : EnumType)
    (found : List Diagnostic) : Prop where
  enums : w.evaluateEnums.1.store.enums.toList =
    pre.map EnumType.evaluated ++ e' :: post.map EnumType.evaluated
  report : w.evaluateEnums.1.report = w.report.add
    ((pre.flatMap fun e => e.search.found) ++ found ++ post.flatMap fun e => e.search.found)
  otherEnums : (w.withEnums (pre ++ post)).evaluateEnums.1.store.enums.toList =
    pre.map EnumType.evaluated ++ post.map EnumType.evaluated
  otherReport : (w.withEnums (pre ++ post)).evaluateEnums.1.report = w.report.add
    ((pre.flatMap fun e => e.search.found) ++ post.flatMap fun e => e.search.found)

variable {w : Workspace} {pre post : List EnumType} {e : EnumType}

theorem Workspace.evaluatesApart (hw : w.store.enums.toList = pre ++ e :: post) :
    w.EvaluatesApart pre post e.evaluated e.search.found := by
  constructor
  · simp [evaluateEnums, Store.evaluateEnums, hw]
  · simp [evaluateEnums, Store.enumDiagnostics, hw]
  · simp [evaluateEnums, Store.evaluateEnums, withEnums]
  · simp [evaluateEnums, Store.enumDiagnostics, withEnums]

/-- Where every chain ends, each member has the value of the recursion along its chain, and a
failure is reported once, at the member where it starts. -/
theorem evaluateEnums_exact (hw : w.store.enums.toList = pre ++ e :: post) (hn : e.DistinctNames)
    (hu : e.Unevaluated) (hends : ∀ i < e.members.size, e.Ends i) :
    ∃ e' found, w.EvaluatesApart pre post e' found ∧
      e.EvaluatedTo e' (fun i => i < e.members.size) ∧
      e.Reports (fun i => i < e.members.size) found := by
  obtain ⟨ht, hsettled⟩ := EnumType.search_ends hn hu hends
  have hall : ∀ i, e.search.Settled i ↔ i < e.members.size := by
    intro i
    rw [hsettled]
    refine ⟨?_, fun hi => ⟨i, hi, .refl⟩⟩
    rintro ⟨j, hj, hchain⟩
    exact hchain.lt hj
  exact ⟨e.evaluated, e.search.found, w.evaluatesApart hw,
    EnumType.evaluatedTo_of_tracks hn ht hall rfl, EnumType.reports_of_tracks hn ht hall⟩

def ladder : EnumType where
  name := "Ladder"
  scope := "Scale"
  line := 1
  assembly := ""
  base := .uint8
  members := #[⟨"Top", 2, .reference "High"⟩, ⟨"Over", 3, .implicit⟩, ⟨"Huge", 4, .literal "300"⟩,
    ⟨"High", 5, .literal "254"⟩, ⟨"Last", 6, .implicit⟩, ⟨"Beyond", 7, .implicit⟩,
    ⟨"After", 8, .implicit⟩, ⟨"Same", 9, .reference "Huge"⟩]

theorem ladder_ends : ∀ i < ladder.members.size, ladder.Ends i := by
  have huge : ladder.Ends 2 := ⟨2, .refl, Or.inl ⟨"300", rfl⟩⟩
  have high : ladder.Ends 3 := ⟨3, .refl, Or.inl ⟨"254", rfl⟩⟩
  have top : ladder.Ends 0 := .of_dependsOn (.named rfl rfl) high
  have last : ladder.Ends 4 := .of_dependsOn (.before rfl) high
  have beyond : ladder.Ends 5 := .of_dependsOn (.before rfl) last
  intro i hi
  match i, hi with
  | 0, _ => exact top
  | 1, _ => exact .of_dependsOn (.before rfl) top
  | 2, _ => exact huge
  | 3, _ => exact high
  | 4, _ => exact last
  | 5, _ => exact beyond
  | 6, _ => exact .of_dependsOn (.before rfl) beyond
  | 7, _ => exact .of_dependsOn (.named rfl rfl) huge

/-- Two failures start, at `Huge` and at `Beyond`; two other members depend on them. -/
theorem evaluateEnums_exact_ladder :
    let w := (Workspace.ofCatalog {} .empty).withEnums [ladder]
    ladder.search.found =
      [.of .enumFieldOutOfRange 4 "Huge", .of .enumFieldOutOfRange 7 "Beyond"] ∧
    ∃ e' found, w.EvaluatesApart [] [] e' found ∧
      ladder.EvaluatedTo e' (fun i => i < ladder.members.size) ∧
      ladder.Reports (fun i => i < ladder.members.size) found := by
  intro w
  have hdistinct : ladder.DistinctNames := by
    unfold EnumType.DistinctNames
    decide
  have hnew : ladder.Unevaluated := by
    unfold EnumType.Unevaluated
    decide
  exact ⟨by decide +kernel, evaluateEnums_exact rfl hdistinct hnew ladder_ends⟩

/-- The search stops exactly if a chain leads astray. Then the first such member is blamed, and the
chains of the members before it are evaluated. -/
theorem evaluateEnums_astray (hw : w.store.enums.toList = pre ++ e :: post)
    (hn : e.DistinctNames) (hu : e.Unevaluated) :
    (e.search.isStopped = true ↔ ∃ i, e.Astray i) ∧
    ∀ r, e.Astray r → (∀ j < r, ¬ e.Astray j) →
      ∃ e' failures cause, w.EvaluatesApart pre post e' (failures ++ [cause]) ∧
        e.BlamedFor r cause ∧ (∀ i, e.search.Settled i ↔ e.ReachedBefore r i) ∧
        e.EvaluatedTo e' (e.ReachedBefore r) ∧ e.Reports (e.ReachedBefore r) failures := by
  refine ⟨EnumType.isStopped_iff hn hu, fun r hr hfirst => ?_⟩
  obtain ⟨last, ht, hsettled, hhalt⟩ := EnumType.search_astray hn hu hr hfirst
  obtain ⟨cause, hcause, hfound⟩ := hhalt.found
  have hapart := w.evaluatesApart hw
  rw [hfound] at hapart
  exact ⟨e.evaluated, last.found, cause, hapart, hcause.blamedFor hn,
    fun i => (hhalt.settled_iff i).trans (hsettled i),
    EnumType.evaluatedTo_of_tracks hn ht hsettled hhalt.members,
    EnumType.reports_of_tracks hn ht hsettled⟩

def carousel : EnumType where
  name := "Carousel"
  scope := "Scale"
  line := 1
  assembly := ""
  base := .uint8
  members := #[⟨"Sound", 2, .literal "7"⟩, ⟨"Start", 3, .reference "Third"⟩,
    ⟨"Second", 4, .reference "Fourth"⟩, ⟨"Third", 5, .implicit⟩, ⟨"Fourth", 6, .implicit⟩,
    ⟨"Huge", 7, .literal "300"⟩]

/-- The chain of `Start` enters a cycle at `Third`, and `Huge` is no longer reached. -/
theorem evaluateEnums_astray_carousel :
    let w := (Workspace.ofCatalog {} .empty).withEnums [carousel]
    carousel.search.isStopped = true ∧
    ∃ e' failures, w.EvaluatesApart [] [] e' (failures ++ [.of .circularEnumField 5 "Third"]) ∧
      carousel.EvaluatedTo e' (carousel.ReachedBefore 1) ∧
      carousel.Reports (carousel.ReachedBefore 1) failures := by
  intro w
  have hdistinct : carousel.DistinctNames := by
    unfold EnumType.DistinctNames
    decide
  have hnew : carousel.Unevaluated := by
    unfold EnumType.Unevaluated
    decide
  have hthird : carousel.DependsOn 1 3 := .named rfl rfl
  have hsecond : carousel.DependsOn 3 2 := .before rfl
  have hfourth : carousel.DependsOn 2 4 := .named rfl rfl
  have hback : carousel.DependsOn 4 3 := .before rfl
  have hway : carousel.Way 1 [4, 2, 3, 1] :=
    ((EnumType.Way.start.next hthird).next hsecond).next hfourth
  have htwice : carousel.FirstTwice 1 3 := ⟨4, [2, 3, 1], hway, by decide, hback, by decide⟩
  have hfirst : ∀ j < 1, ¬ carousel.Astray j := by
    intro j hj
    obtain rfl : j = 0 := by omega
    exact EnumType.Ends.not_astray hdistinct ⟨0, .refl, Or.inl ⟨"7", rfl⟩⟩
  have hw : w.store.enums.toList = [] ++ carousel :: [] := rfl
  obtain ⟨hstops, hblame⟩ := evaluateEnums_astray hw hdistinct hnew
  obtain ⟨e', failures, cause, hapart, hcause, -, hevaluated, hreports⟩ :=
    hblame 1 (Or.inl htwice.entersCycle) hfirst
  obtain ⟨i, m, hi, -, -, hm, rfl⟩ := hcause.circular htwice.entersCycle
  obtain rfl := hi.unique hdistinct htwice
  cases hm
  exact ⟨hstops.2 ⟨1, Or.inl htwice.entersCycle⟩, e', failures, hapart, hevaluated, hreports⟩

end ComponentIdl
