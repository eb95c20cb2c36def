import Mathlib.Data.List.Nodup
import Mathlib.Logic.Relation
import ComponentIdl.Diagnostic
import ComponentIdl.Store.Entity

/-!
# Dependency chains of enum members

A member without an initializer takes its value from the member before it, a member that names
another one from that member. With distinct names there is at most one member to wait for, so a
member has one dependency chain. The chain ends at a literal or at a first member without an
initializer, meets a name that no member has, or enters a cycle.
-/

namespace ComponentIdl

/-- The member once its outcome is known; without a value it keeps its initializer. -/
def EnumMember.given (m : EnumMember) : Option Constant → EnumMember
  | some value => { m with value := .known value }
  | none => m

namespace EnumType

def initializer? (e : EnumType) (i : Nat) : Option ValueState := (e.members[i]?).map EnumMember.value

def memberName? (e : EnumType) (i : Nat) : Option String := (e.members[i]?).map EnumMember.name

def DistinctNames (e : EnumType) : Prop := (e.members.toList.map EnumMember.name).Nodup

def Unevaluated (e : EnumType) : Prop := ∀ m ∈ e.members, m.value.constant? = none

inductive DependsOn (e : EnumType) : Nat → Nat → Prop where
  | before {i : Nat} (h : e.initializer? (i + 1) = some .implicit) : DependsOn e (i + 1) i
  | named {i j : Nat} {name : String} (h : e.initializer? i = some (.reference name))
      (hj : e.memberName? j = some name) : DependsOn e i j

/-- The second member lies on the dependency chain of the first. -/
def OnChain (e : EnumType) : Nat → Nat → Prop := Relation.ReflTransGen e.DependsOn

/-- The value of a member by recursion on its chain, `none` if it has none. -/
inductive HasValue (e : EnumType) : Nat → Option Constant → Prop where
  | literal {i : Nat} {text : String} (h : e.initializer? i = some (.literal text)) :
      HasValue e i (e.base.literal? text)
  | first (h : e.initializer? 0 = some .implicit) : HasValue e 0 (some e.base.zero)
  | next {i : Nat} {r : Option Constant} (h : e.initializer? (i + 1) = some .implicit)
      (hr : HasValue e i r) : HasValue e (i + 1) (r.bind e.base.next?)
  | reference {i j : Nat} {name : String} {r : Option Constant}
      (h : e.initializer? i = some (.reference name)) (hj : e.memberName? j = some name)
      (hr : HasValue e j r) : HasValue e i r

/-- A member without a value whose chain has no other failure: its literal is none of the type, or
the member before has a value that nothing follows. -/
inductive FailsAt (e : EnumType) : Nat → Prop where
  | literal {i : Nat} {text : String} (h : e.initializer? i = some (.literal text))
      (hfail : e.base.literal? text = none) : FailsAt e i
  | next {i : Nat} {value : Constant} (h : e.initializer? (i + 1) = some .implicit)
      (hr : e.HasValue i (some value)) (hfail : e.base.next? value = none) : FailsAt e (i + 1)

/-- The member has its value by itself: a literal, or no initializer at the first place. -/
def IsGround (e : EnumType) (i : Nat) : Prop :=
  (∃ text, e.initializer? i = some (.literal text)) ∨ (i = 0 ∧ e.initializer? 0 = some .implicit)

def NamesNothing (e : EnumType) (i : Nat) (name : String) : Prop :=
  e.initializer? i = some (.reference name) ∧ ∀ j, e.memberName? j ≠ some name

def Ends (e : EnumType) (i : Nat) : Prop := ∃ j, e.OnChain i j ∧ e.IsGround j

def EntersCycle (e : EnumType) (i : Nat) : Prop :=
  ∃ j, e.OnChain i j ∧ Relation.TransGen e.DependsOn j j

def MeetsUnknown (e : EnumType) (i : Nat) : Prop :=
  ∃ j name, e.OnChain i j ∧ e.NamesNothing j name

def Astray (e : EnumType) (i : Nat) : Prop := e.EntersCycle i ∨ e.MeetsUnknown i

/-- The chain of `root` as far as it has been followed, the latest member first. -/
inductive Way (e : EnumType) (root : Nat) : List Nat → Prop where
  | start : Way e root [root]
  | next {i j : Nat} {way : List Nat} (h : Way e root (i :: way)) (hd : e.DependsOn i j) :
      Way e root (j :: i :: way)

/-- The first member that the chain of `root` visits twice. -/
def FirstTwice (e : EnumType) (root j : Nat) : Prop :=
  ∃ i way, e.Way root (i :: way) ∧ (i :: way).Nodup ∧ e.DependsOn i j ∧ j ∈ i :: way

/-- Why the evaluation of `root` stops everything: its chain returns to a member, or names none. -/
inductive Cause (e : EnumType) (root : Nat) : Diagnostic → Prop where
  | circular {i : Nat} {m : EnumMember} (h : e.FirstTwice root i) (hm : e.members[i]? = some m) :
      Cause e root (.of .circularEnumField m.line m.name)
  | unknown {i : Nat} {m : EnumMember} {name : String} (h : e.OnChain root i)
      (hm : e.members[i]? = some m) (hname : e.NamesNothing i name) :
      Cause e root (.of .unresolvedType m.line name)

def outOfRange? (e : EnumType) (i : Nat) : Option Diagnostic :=
  (e.members[i]?).map fun m => .of .enumFieldOutOfRange m.line m.name

/-- One diagnostic for each of the `reached` members at which a failure starts, and nothing else. -/
def Reports (e : EnumType) (reached : Nat → Prop) (found : List Diagnostic) : Prop :=
  ∃ order : List Nat, order.Nodup ∧ (∀ i, i ∈ order ↔ reached i ∧ e.FailsAt i) ∧
    found = order.filterMap e.outOfRange?

variable {e : EnumType} {i j k root : Nat} {r r' : Option Constant} {name : String}
  {way : List Nat}

theorem initializer?_eq_some {v : ValueState} :
    e.initializer? i = some v ↔ ∃ m, e.members[i]? = some m ∧ m.value = v :=
  Option.map_eq_some_iff

theorem memberName?_eq_some :
    e.memberName? i = some name ↔ ∃ m, e.members[i]? = some m ∧ m.name = name :=
  Option.map_eq_some_iff

theorem DistinctNames.unique (h : e.DistinctNames) (hi : e.memberName? i = some name)
    (hj : e.memberName? j = some name) : i = j := by
  have hget : ∀ i, (e.members.toList.map EnumMember.name)[i]? = e.memberName? i := by
    intro i
    rw [List.getElem?_map, Array.getElem?_toList]
    rfl
  have hlt : i < (e.members.toList.map EnumMember.name).length := by
    rw [← hget] at hi
    exact (List.getElem?_eq_some_iff.1 hi).1
  exact (List.getElem?_inj hlt h).1 (by rw [hget, hget, hi, hj])

theorem DependsOn.unique (hn : e.DistinctNames) (h : e.DependsOn i j) (h' : e.DependsOn i k) :
    j = k := by
  cases h with
  | before h =>
    cases h' with
    | before h' => rfl
    | named h' hk => simp [h] at h'
  | named h hj =>
    cases h' with
    | before h' => simp [h] at h'
    | named h' hk =>
      rw [h, Option.some.injEq, ValueState.reference.injEq] at h'
      exact hn.unique hj (h' ▸ hk)

theorem HasValue.unique (hn : e.DistinctNames) (h : e.HasValue i r) (h' : e.HasValue i r') :
    r = r' := by
  induction h generalizing r' with
  | literal h =>
    cases h' with
    | literal h' =>
      rw [h, Option.some.injEq, ValueState.literal.injEq] at h'
      rw [h']
    | first h' => simp [h] at h'
    | next h' hr' => simp [h] at h'
    | reference h' hj' hr' => simp [h] at h'
  | first h =>
    cases h' with
    | literal h' => simp [h] at h'
    | first h' => rfl
    | reference h' hj' hr' => simp [h] at h'
  | next h hr ih =>
    cases h' with
    | literal h' => simp [h] at h'
    | next h' hr' => rw [ih hr']
    | reference h' hj' hr' => simp [h] at h'
  | reference h hj hr ih =>
    cases h' with
    | literal h' => simp [h] at h'
    | first h' => simp [h] at h'
    | next h' hr' => simp [h] at h'
    | reference h' hj' hr' =>
      rw [h, Option.some.injEq, ValueState.reference.injEq] at h'
      have hsame := hn.unique hj (h' ▸ hj')
      exact ih (hsame ▸ hr')

theorem FailsAt.hasValue (h : e.FailsAt i) : e.HasValue i none := by
  cases h with
  | literal h hfail => exact hfail ▸ .literal h
  | next h hr hfail =>
    have hnext := HasValue.next h hr
    rwa [Option.bind_some, hfail] at hnext

theorem Ends.of_onChain (h : e.OnChain i j) (hj : e.Ends j) : e.Ends i := by
  obtain ⟨k, hk, hground⟩ := hj
  exact ⟨k, h.trans hk, hground⟩

theorem Ends.of_dependsOn (h : e.DependsOn i j) (hj : e.Ends j) : e.Ends i :=
  hj.of_onChain (.single h)

theorem HasValue.ends (h : e.HasValue i r) : e.Ends i := by
  induction h with
  | literal h => exact ⟨_, .refl, Or.inl ⟨_, h⟩⟩
  | first h => exact ⟨0, .refl, Or.inr ⟨rfl, h⟩⟩
  | next h _ ih => exact ih.of_dependsOn (.before h)
  | reference h hj _ ih => exact ih.of_dependsOn (.named h hj)

theorem IsGround.not_dependsOn (h : e.IsGround i) : ¬ e.DependsOn i j := by
  intro hd
  rcases h with ⟨text, h⟩ | ⟨rfl, h⟩
  · cases hd with
    | before hd => simp [h] at hd
    | named hd _ => simp [h] at hd
  · cases hd with
    | named hd _ => simp [h] at hd

theorem NamesNothing.not_dependsOn (h : e.NamesNothing i name) : ¬ e.DependsOn i j := by
  intro hd
  cases hd with
  | before hd => simp [h.1] at hd
  | named hd hj =>
    rw [h.1, Option.some.injEq, ValueState.reference.injEq] at hd
    exact h.2 j (hd ▸ hj)

theorem NamesNothing.not_isGround (h : e.NamesNothing i name) : ¬ e.IsGround i := by
  rintro (⟨text, hi⟩ | ⟨rfl, hi⟩)
  · simp [h.1] at hi
  · simp [h.1] at hi

theorem OnChain.end_unique (hn : e.DistinctNames) (hj : e.OnChain i j) (hk : e.OnChain i k)
    (hjend : ∀ l, ¬ e.DependsOn j l) (hkend : ∀ l, ¬ e.DependsOn k l) : j = k := by
  have hfunctional : Relator.RightUnique e.DependsOn := fun _ _ _ h h' => h.unique hn h'
  rcases Relation.ReflTransGen.total_of_right_unique hfunctional hj hk with h | h
  · rcases h.cases_head with rfl | ⟨l, hl, -⟩
    · rfl
    · exact absurd hl (hjend l)
  · rcases h.cases_head with rfl | ⟨l, hl, -⟩
    · rfl
    · exact absurd hl (hkend l)

theorem EntersCycle.next (hn : e.DistinctNames) (hd : e.DependsOn i j) (h : e.EntersCycle i) :
    e.EntersCycle j := by
  obtain ⟨k, hk, hcycle⟩ := h
  rcases hk.cases_head with rfl | ⟨l, hl, hlk⟩
  · obtain ⟨l, hl, hback⟩ := Relation.TransGen.head'_iff.1 hcycle
    obtain rfl := hd.unique hn hl
    exact ⟨i, hback, hcycle⟩
  · obtain rfl := hd.unique hn hl
    exact ⟨k, hlk, hcycle⟩

theorem EntersCycle.dependsOn (h : e.EntersCycle i) : ∃ j, e.DependsOn i j := by
  obtain ⟨k, hk, hcycle⟩ := h
  rcases hk.cases_head with rfl | ⟨l, hl, -⟩
  · obtain ⟨l, hl, -⟩ := Relation.TransGen.head'_iff.1 hcycle
    exact ⟨l, hl⟩
  · exact ⟨l, hl⟩

theorem OnChain.not_entersCycle (hn : e.DistinctNames) (hj : e.OnChain i j)
    (hend : ∀ l, ¬ e.DependsOn j l) : ¬ e.EntersCycle i := by
  induction hj using Relation.ReflTransGen.head_induction_on with
  | refl =>
    intro hcycle
    obtain ⟨l, hl⟩ := hcycle.dependsOn
    exact hend l hl
  | head hd _ ih => exact fun hcycle => ih (hcycle.next hn hd)

theorem Ends.not_astray (hn : e.DistinctNames) (h : e.Ends i) : ¬ e.Astray i := by
  obtain ⟨j, hj, hground⟩ := h
  rintro (hcycle | ⟨k, name, hk, hnothing⟩)
  · exact hj.not_entersCycle hn (fun _ => hground.not_dependsOn) hcycle
  · obtain rfl := hj.end_unique hn hk (fun _ => hground.not_dependsOn)
      fun _ => hnothing.not_dependsOn
    exact hnothing.not_isGround hground

theorem Way.tail (h : e.Way root (i :: way)) (hne : way ≠ []) : e.Way root way := by
  cases h with
  | start => exact absurd rfl hne
  | next h _ => exact h

theorem Way.onChain (h : e.Way root way) : ∀ i ∈ way, e.OnChain root i := by
  induction h with
  | start =>
    intro i hi
    rw [List.mem_singleton.1 hi]
    exact .refl
  | next _ hd ih =>
    intro k hk
    rcases List.mem_cons.1 hk with rfl | hk
    · exact (ih _ List.mem_cons_self).tail hd
    · exact ih k hk

theorem Way.onChain_head (h : e.Way root (i :: way)) : ∀ j ∈ i :: way, e.OnChain j i := by
  intro j hj
  generalize hl : i :: way = l at h hj
  induction h generalizing i way with
  | start =>
    cases hl
    rw [List.mem_singleton.1 hj]
    exact .refl
  | next h hd ih =>
    cases hl
    rcases List.mem_cons.1 hj with rfl | hj
    · exact .refl
    · exact (ih rfl hj).tail hd

theorem Way.last (h : e.Way root way) : [root] <:+ way := by
  induction h with
  | start => exact List.suffix_rfl
  | next _ _ ih => exact ih.trans (List.suffix_cons _ _)

theorem Way.dependsOn {before : List Nat} (h : e.Way root (before ++ j :: i :: way)) :
    e.DependsOn i j := by
  generalize hl : before ++ j :: i :: way = l at h
  induction h generalizing before with
  | start =>
    have hlength := congrArg List.length hl
    simp only [List.length_append, List.length_cons, List.length_nil] at hlength
    omega
  | next h hd ih =>
    cases before with
    | nil =>
      cases hl
      exact hd
    | cons k before => exact ih (List.cons.inj hl).2

theorem Way.comparable {way' : List Nat} (hn : e.DistinctNames) (h : e.Way root way)
    (h' : e.Way root way') : way <:+ way' ∨ way' <:+ way := by
  induction h with
  | start => exact Or.inl h'.last
  | @next i j way h hd ih =>
    rcases ih with hsuffix | hsuffix
    · -- The other way is as long as this one was, or went on from `i`, where there is one way on.
      rcases hsuffix with ⟨before, rfl⟩
      rcases List.eq_nil_or_concat before with rfl | ⟨before, k, rfl⟩
      · exact Or.inr (List.suffix_cons j _)
      · rw [List.concat_eq_append, List.append_assoc] at h' ⊢
        obtain rfl := hd.unique hn h'.dependsOn
        exact Or.inl (List.suffix_append _ _)
    · exact Or.inr (hsuffix.trans (List.suffix_cons j _))

theorem DependsOn.eq_of_suffix {i' : Nat} {way' : List Nat} (hn : e.DistinctNames)
    (hd : e.DependsOn i j) (hj : j ∈ i :: way) (hway' : e.Way root (i' :: way'))
    (hdistinct' : (i' :: way').Nodup) (hd' : e.DependsOn i' k)
    (hsuffix : i :: way <:+ i' :: way') : j = k := by
  obtain ⟨before, hbefore⟩ := hsuffix
  rcases List.eq_nil_or_concat before with rfl | ⟨before, l, rfl⟩
  · cases hbefore
    exact hd.unique hn hd'
  · -- The longer way goes on to `j`, which it has been to.
    rw [List.concat_eq_append, List.append_assoc] at hbefore
    rw [← hbefore] at hway' hdistinct'
    obtain rfl := hd.unique hn hway'.dependsOn
    have htwice := (List.nodup_append.1 hdistinct').2.1
    exact absurd hj (List.nodup_cons.1 htwice).1

theorem FirstTwice.unique (hn : e.DistinctNames) (h : e.FirstTwice root j)
    (h' : e.FirstTwice root k) : j = k := by
  obtain ⟨i, way, hway, hdistinct, hd, hj⟩ := h
  obtain ⟨i', way', hway', hdistinct', hd', hk⟩ := h'
  rcases hway.comparable hn hway' with hsuffix | hsuffix
  · exact hd.eq_of_suffix hn hj hway' hdistinct' hd' hsuffix
  · exact (hd'.eq_of_suffix hn hk hway hdistinct hd hsuffix).symm

theorem FirstTwice.onCycle (h : e.FirstTwice root j) : Relation.TransGen e.DependsOn j j := by
  obtain ⟨i, way, hway, -, hd, hj⟩ := h
  exact Relation.TransGen.tail' (hway.onChain_head j hj) hd

theorem FirstTwice.entersCycle (h : e.FirstTwice root j) : e.EntersCycle root := by
  obtain ⟨i, way, hway, -, hd, hj⟩ := id h
  exact ⟨j, hway.onChain j hj, h.onCycle⟩

theorem Cause.astray {d : Diagnostic} (h : e.Cause root d) : e.Astray root := by
  cases h with
  | circular h hm => exact Or.inl h.entersCycle
  | unknown h hm hname => exact Or.inr ⟨_, _, h, hname⟩

theorem lt_of_initializer? {v : ValueState} (h : e.initializer? i = some v) :
    i < e.members.size := by
  obtain ⟨m, hm, -⟩ := initializer?_eq_some.1 h
  exact (Array.getElem?_eq_some_iff.1 hm).1

theorem DependsOn.lt (h : e.DependsOn i j) : i < e.members.size ∧ j < e.members.size := by
  cases h with
  | before h =>
    have hlt := lt_of_initializer? h
    omega
  | named h hj =>
    obtain ⟨m, hm, -⟩ := memberName?_eq_some.1 hj
    exact ⟨lt_of_initializer? h, (Array.getElem?_eq_some_iff.1 hm).1⟩

theorem OnChain.lt (h : e.OnChain i j) (hi : i < e.members.size) : j < e.members.size := by
  rcases h.cases_tail with rfl | ⟨k, -, hd⟩
  · exact hi
  · exact hd.lt.2

theorem Astray.lt (h : e.Astray i) : i < e.members.size := by
  rcases h with hcycle | ⟨j, name, hj, hname⟩
  · obtain ⟨j, hd⟩ := hcycle.dependsOn
    exact hd.lt.1
  · rcases hj.cases_head with rfl | ⟨k, hd, -⟩
    · exact lt_of_initializer? hname.1
    · exact hd.lt.1

theorem Reports.concat {reached : Nat → Prop} {found : List Diagnostic} {m : EnumMember}
    (h : e.Reports reached found) (hi : ¬ reached i) (hfails : e.FailsAt i)
    (hm : e.members[i]? = some m) :
    e.Reports (fun j => j = i ∨ reached j)
      (found ++ [.of .enumFieldOutOfRange m.line m.name]) := by
  obtain ⟨order, hdistinct, hmem, rfl⟩ := h
  refine ⟨order ++ [i], ?_, ?_, by simp [outOfRange?, hm]⟩
  · rw [← List.concat_eq_append]
    exact hdistinct.concat fun hmember => hi ((hmem i).1 hmember).1
  · intro j
    rw [List.mem_append, hmem, List.mem_singleton]
    constructor
    · rintro (⟨hj, hfailsj⟩ | rfl)
      · exact ⟨Or.inr hj, hfailsj⟩
      · exact ⟨Or.inl rfl, hfails⟩
    · rintro ⟨rfl | hj, hfailsj⟩
      · exact Or.inr rfl
      · exact Or.inl ⟨hj, hfailsj⟩

theorem Reports.congr {reached reached' : Nat → Prop} {found : List Diagnostic}
    (h : e.Reports reached found) (heq : ∀ i, e.FailsAt i → (reached i ↔ reached' i)) :
    e.Reports reached' found := by
  obtain ⟨order, hdistinct, hmem, hfound⟩ := h
  refine ⟨order, hdistinct, fun i => (hmem i).trans ?_, hfound⟩
  exact and_congr_left fun hfail => heq i hfail

end EnumType

end ComponentIdl
