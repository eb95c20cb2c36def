import ComponentIdl.Proofs.Binding
import ComponentIdl.Proofs.Builder.Enums
import ComponentIdl.Proofs.Derivation.Step
import ComponentIdl.Proofs.Evaluation.Exact
import ComponentIdl.Proofs.Reached

/-!
# Evaluation repeated

A second search starts with the values that the first one found, but has forgotten what failed. It
fails at the same members again and stops at the same chain, so it settles the same members, and a
member has one value at most.
-/

namespace ComponentIdl

namespace EnumType

variable {e : EnumType} {i j : Nat}

/-- A search gets to the member before a chain leads astray. -/
def Reached (e : EnumType) (i : Nat) : Prop :=
  ∃ r ≤ e.members.size, (∀ k < r, ¬ e.Astray k) ∧ e.ReachedBefore r i

theorem ReachedBefore.mono {r r' : Nat} (h : e.ReachedBefore r i) (hle : r ≤ r') :
    e.ReachedBefore r' i := by
  obtain ⟨j, hj, hchain⟩ := h
  exact ⟨j, Nat.lt_of_lt_of_le hj hle, hchain⟩

theorem reached_iff_all (h : ∀ k < e.members.size, ¬ e.Astray k) :
    e.Reached i ↔ e.ReachedBefore e.members.size i := by
  constructor
  · rintro ⟨r, hr, -, hreached⟩
    exact hreached.mono hr
  · exact fun hreached => ⟨_, Nat.le_refl _, h, hreached⟩

theorem reached_iff_before {r : Nat} (hr : e.Astray r) (h : ∀ k < r, ¬ e.Astray k) :
    e.Reached i ↔ e.ReachedBefore r i := by
  constructor
  · rintro ⟨r', -, hr', hreached⟩
    refine hreached.mono ?_
    by_contra hlt
    exact hr' r (by omega) hr
  · exact fun hreached => ⟨r, Nat.le_of_lt hr.lt, h, hreached⟩

/-- A value comes from a value. -/
theorem HasValue.of_value {value : Constant} (hn : e.DistinctNames) (h : e.HasValue i (some value))
    (hd : e.DependsOn i j) : ∃ value', e.HasValue j (some value') := by
  generalize hr : some value = r at h
  cases h with
  | literal h => exact absurd hd (IsGround.not_dependsOn (Or.inl ⟨_, h⟩))
  | first h => exact absurd hd (IsGround.not_dependsOn (Or.inr ⟨rfl, h⟩))
  | next h hbefore =>
    obtain rfl := hd.unique hn (.before h)
    obtain ⟨value', rfl, -⟩ := Option.bind_eq_some_iff.1 hr.symm
    exact ⟨value', hbefore⟩
  | reference h hj hvalue =>
    obtain rfl := hd.unique hn (.named h hj)
    exact ⟨value, hr ▸ hvalue⟩

end EnumType

namespace EnumSearch

variable {e : EnumType} {s s' start : EnumSearch} {i : Nat}

theorem outcome?_restart (s : EnumSearch) (i : Nat) :
    outcome? { members := s.members } i = (s.outcome? i).filter Option.isSome := by
  unfold outcome?
  dsimp only
  cases (s.members[i]?).bind fun m => m.value.constant? with
  | some value => rfl
  | none => cases s.failed.contains i <;> rfl

theorem outcome?_of_restart {r : Option Constant}
    (h : outcome? { members := s.members } i = some r) :
    s.outcome? i = some r ∧ ∃ value, r = some value := by
  rw [outcome?_restart] at h
  obtain ⟨ho, hr⟩ := Option.filter_eq_some_iff.1 h
  exact ⟨ho, Option.isSome_iff_exists.1 hr⟩

theorem settled_of_restart (h : Settled { members := s.members } i) : s.Settled i := by
  obtain ⟨r, hr⟩ := Option.isSome_iff_exists.1 h
  exact Option.isSome_iff_exists.2 ⟨r, (outcome?_of_restart hr).1⟩

theorem Tracks.restart (hn : e.DistinctNames) (ht : s.Tracks e) :
    Ready e { members := s.members } := by
  refine ⟨⟨ht.size, ?_, ?_, ?_, ?_⟩, rfl, rfl, fun hf => absurd rfl hf⟩
  · intro i m hm
    rw [outcome?_restart]
    have hmember := ht.member i m hm
    cases ho : s.outcome? i with
    | none =>
      rw [ho] at hmember
      exact hmember
    | some r =>
      rw [ho] at hmember
      cases r <;> exact hmember
  · intro i r hi
    exact ht.value i r (outcome?_of_restart hi).1
  · intro i j hd hi
    obtain ⟨r, hr⟩ := Option.isSome_iff_exists.1 hi
    obtain ⟨ho, value, rfl⟩ := outcome?_of_restart hr
    obtain ⟨value', hvalue'⟩ := (ht.value i _ ho).of_value hn hd
    obtain ⟨r', hr'⟩ := Option.isSome_iff_exists.1 (ht.closed i j hd (by rw [Settled, ho]; rfl))
    obtain rfl := (ht.value j r' hr').unique hn hvalue'
    rw [Settled, outcome?_restart, hr']
    rfl
  · exact ⟨[], List.nodup_nil, by simp, rfl⟩

theorem Ready.complete (hn : e.DistinctNames) (h : s.Ready e)
    (hstart : ∀ i, start.Settled i → e.Reached i)
    (hsettled : ∀ i, s.Settled i ↔ start.Settled i ∨ e.ReachedBefore e.members.size i) :
    (∀ i, s.Settled i ↔ e.Reached i) ∧ ∀ k < e.members.size, ¬ e.Astray k := by
  have hends : ∀ k < e.members.size, ¬ e.Astray k := fun k hk =>
    (h.tracks.ends ((hsettled k).2 (Or.inr ⟨k, hk, .refl⟩))).not_astray hn
  refine ⟨fun i => ?_, hends⟩
  have hall := EnumType.reached_iff_all hends (i := i)
  rw [hsettled, ← hall]
  exact or_iff_right_of_imp (hstart i)

/-- Searches that settle nothing else at first settle the same members. -/
theorem Ready.settleAll (hn : e.DistinctNames) (h : start.Ready e)
    (hstart : ∀ i, start.Settled i → e.Reached i) :
    ∃ last : EnumSearch, last.Tracks e ∧ (∀ i, last.Settled i ↔ e.Reached i) ∧
      (settleAll e.base start (List.range e.members.size)).members = last.members := by
  rcases h.settleAll_range hn e.members.size le_rfl with
    ⟨hready, hsettled⟩ | ⟨r, last, -, ht, hsettled, hhalt⟩
  · exact ⟨_, hready.tracks, (hready.complete hn hstart hsettled).1, rfl⟩
  · obtain ⟨d, hcause, -⟩ := hhalt.found
    have hends : ∀ k < r, ¬ e.Astray k := fun k hk =>
      (ht.ends ((hsettled k).2 (Or.inr ⟨k, hk, .refl⟩))).not_astray hn
    refine ⟨last, ht, fun i => ?_, hhalt.members⟩
    have hbefore := EnumType.reached_iff_before hcause.astray hends (i := i)
    rw [hsettled, ← EnumType.ReachedBefore, ← hbefore]
    exact or_iff_right_of_imp (hstart i)

theorem Tracks.members_eq (hn : e.DistinctNames) (ht : s.Tracks e) (ht' : s'.Tracks e)
    (h : ∀ i, s.Settled i ↔ s'.Settled i) : s'.members = s.members := by
  have houtcome : ∀ i, s'.outcome? i = s.outcome? i := by
    intro i
    have hi := h i
    unfold Settled at hi
    cases ho : s.outcome? i with
    | none =>
      rw [ho] at hi
      simpa using hi
    | some r =>
      rw [ho] at hi
      obtain ⟨r', hr'⟩ := Option.isSome_iff_exists.1 (hi.1 rfl)
      rw [hr', (ht'.value i r' hr').unique hn (ht.value i r ho)]
  apply Array.ext_getElem?
  intro i
  cases hm : e.members[i]? with
  | none =>
    have hle := Array.getElem?_eq_none_iff.1 hm
    have hsize := ht.size
    have hsize' := ht'.size
    rw [Array.getElem?_eq_none (by omega), Array.getElem?_eq_none (by omega)]
  | some m => rw [ht.member i m hm, ht'.member i m hm, houtcome]

end EnumSearch

namespace EnumType

variable {e : EnumType}

theorem search_tracks (h : e.Written) :
    ∃ last : EnumSearch, last.Tracks e ∧ (∀ i, last.Settled i ↔ e.Reached i) ∧
      e.search.members = last.members := by
  refine (EnumSearch.ready_start h.unevaluated).settleAll h.distinct fun i hi => ?_
  simp [EnumSearch.Settled, EnumSearch.outcome?_start h.unevaluated] at hi

theorem size_evaluated (h : e.Written) : e.evaluated.members.size = e.members.size := by
  obtain ⟨last, ht, -, hmembers⟩ := search_tracks h
  exact (congrArg Array.size hmembers).trans ht.size

/-- The second search of an enum. -/
theorem search_evaluated (h : e.Written) :
    e.evaluated.search = EnumSearch.settleAll e.base { members := e.search.members }
      (List.range e.members.size) := by
  unfold search
  rw [size_evaluated h]
  rfl

theorem ready_again (h : e.Written) :
    EnumSearch.Ready e { members := e.search.members } ∧
      ∀ i, EnumSearch.Settled { members := e.search.members } i → e.Reached i := by
  obtain ⟨last, ht, hsettled, hmembers⟩ := search_tracks h
  rw [hmembers]
  exact ⟨ht.restart h.distinct, fun i hi => (hsettled i).1 (EnumSearch.settled_of_restart hi)⟩

/-- A second evaluation changes nothing. -/
theorem evaluated_evaluated (h : e.Written) : e.evaluated.evaluated = e.evaluated := by
  obtain ⟨first, ht, hsettled, hmembers⟩ := search_tracks h
  obtain ⟨hready, hstart⟩ := ready_again h
  obtain ⟨second, ht', hsettled', hmembers'⟩ := hready.settleAll h.distinct hstart
  rw [← search_evaluated h] at hmembers'
  have hsame : e.evaluated.search.members = e.search.members := by
    rw [hmembers', hmembers]
    exact ht.members_eq h.distinct ht' fun i => (hsettled i).trans (hsettled' i).symm
  show { e.evaluated with members := e.evaluated.search.members } = e.evaluated
  rw [hsame]
  rfl

/-- Where the first search reports nothing, the second one reports nothing. -/
theorem found_evaluated (h : e.Written) (hfound : e.search.found = []) :
    e.evaluated.search.found = [] := by
  obtain ⟨hready', hstart'⟩ := ready_again h
  have hstart : ∀ i, EnumSearch.Settled { members := e.members } i → e.Reached i := by
    intro i hi
    simp [EnumSearch.Settled, EnumSearch.outcome?_start h.unevaluated] at hi
  rcases (EnumSearch.ready_start h.unevaluated).settleAll_range h.distinct e.members.size le_rfl with
    ⟨hready, hsettled⟩ | ⟨r, last, -, -, -, hhalt⟩
  · obtain ⟨hall, hends⟩ := hready.complete h.distinct hstart hsettled
    have hfailed : e.search.failed = [] := by
      by_contra hne
      exact hready.told hne hfound
    have hfits : ∀ i, e.Reached i → ¬ e.FailsAt i := by
      intro i hi hfails
      obtain ⟨r, hr⟩ := Option.isSome_iff_exists.1 ((hall i).2 hi)
      obtain rfl := (hready.tracks.value i r hr).unique h.distinct hfails.hasValue
      have hmem : i ∈ e.search.failed := EnumSearch.failed_of_outcome? hr
      exact absurd (hfailed ▸ hmem) List.not_mem_nil
    rw [search_evaluated h]
    rcases hready'.settleAll_range h.distinct e.members.size le_rfl with
      ⟨hready₂, hsettled₂⟩ | ⟨r, last, hr, -, -, hhalt⟩
    · obtain ⟨hall₂, -⟩ := hready₂.complete h.distinct hstart' hsettled₂
      obtain ⟨order, -, hmem, hreports⟩ := hready₂.tracks.found
      have hnone : order = [] := by
        refine List.eq_nil_iff_forall_not_mem.2 fun i hi => ?_
        obtain ⟨hi, hfails⟩ := (hmem i).1 hi
        exact hfits i ((hall₂ i).1 (EnumSearch.settled_of_failed hi)) hfails
      rw [hreports, hnone]
      rfl
    · obtain ⟨d, hcause, -⟩ := hhalt.found
      exact absurd hcause.astray (hends r hr)
  · obtain ⟨d, -, hd⟩ := hhalt.found
    exact absurd (hd.symm.trans hfound) (by simp)

end EnumType

/-- The enum is as it was written, or it has been evaluated since. -/
def EnumType.Evaluable (e : EnumType) : Prop :=
  ∃ written : EnumType, written.Written ∧ (e = written ∨ e = written.evaluated)

theorem EnumType.Evaluable.again {e : EnumType} (h : e.Evaluable) :
    e.evaluated.evaluated = e.evaluated ∧ (e.search.found = [] → e.evaluated.search.found = []) := by
  obtain ⟨written, hw, rfl | rfl⟩ := h
  · exact ⟨evaluated_evaluated hw, found_evaluated hw⟩
  · have hsame := evaluated_evaluated hw
    refine ⟨congrArg EnumType.evaluated hsame, fun hfound => ?_⟩
    rw [hsame]
    exact hfound

theorem EnumType.Evaluable.evaluated {e : EnumType} (h : e.Evaluable) : e.evaluated.Evaluable := by
  obtain ⟨written, hw, rfl | rfl⟩ := h
  · exact ⟨_, hw, Or.inr rfl⟩
  · exact ⟨written, hw, Or.inr (evaluated_evaluated hw)⟩

theorem Derivation.enums_run (s : Derivation) : s.run.store.enums = s.store.enums := by
  refine run_preserves (P := fun s' => s'.store.enums = s.store.enums) (Q := fun _ _ => True)
    (fun _ _ _ _ _ _ => trivial) ?_ rfl
  intro t t' id o plan ht _ _ hstep
  cases hstep with
  | passed => exact ht
  | taken d => exact ht
  | declared node block path free beside => exact (Builder.slots_declare ..).2.2.1.trans ht

namespace Workspace

theorem invariant_evaluable : Invariant fun w => ∀ e ∈ w.store.enums, e.Evaluable where
  build w visits h := by
    intro e he
    obtain ⟨id, hid⟩ := Array.mem_iff_getElem?.1 he
    have hkept := Builder.enumsKept_run w.builder visits fun id => by simp [builder]
    rcases hkept.enum id e hid with hold | ⟨-, hwritten⟩
    · exact h e (Array.mem_of_getElem? hold)
    · exact ⟨e, hwritten, Or.inl rfl⟩
  bindReferences w h := by
    rw [w.bindReferences_eq]
    exact h
  evaluateEnums w h := by
    intro e' he'
    obtain ⟨e, he, rfl⟩ := Array.mem_map.1 he'
    exact (h e he).evaluated
  findCycles w h := h
  checkMembers w h := h
  deriveInterfaces w h := by
    have hsame := Derivation.enums_run { store := w.store, symbols := w.symbols }
    exact fun e he => h e (hsame ▸ he)

/-- A second evaluation changes nothing, and reports nothing if the first one reported nothing. -/
theorem evaluateEnums_again {w : Workspace} (h : ∀ e ∈ w.store.enums, e.Evaluable) :
    w.evaluateEnums.1.evaluateEnums.1 = { w.evaluateEnums.1 with
      report := w.evaluateEnums.1.report.add w.store.evaluateEnums.enumDiagnostics } ∧
    (w.store.enumDiagnostics = [] → w.store.evaluateEnums.enumDiagnostics = []) := by
  constructor
  · have henums : (w.store.enums.map EnumType.evaluated).map EnumType.evaluated =
        w.store.enums.map EnumType.evaluated := by
      rw [Array.map_map]
      exact Array.map_congr_left fun e he => (h e he).again.1
    have hstore : w.store.evaluateEnums.evaluateEnums = w.store.evaluateEnums :=
      congrArg (fun enums => { w.store with enums }) henums
    unfold evaluateEnums
    dsimp only
    rw [hstore]
  · intro hfound
    unfold Store.enumDiagnostics Store.evaluateEnums at *
    rw [List.flatMap_eq_nil_iff] at hfound ⊢
    rw [Array.toList_map]
    refine List.forall_mem_map.2 fun e he => ?_
    exact (h e (Array.mem_toList_iff.1 he)).again.2 (hfound e he)

end Workspace

end ComponentIdl
