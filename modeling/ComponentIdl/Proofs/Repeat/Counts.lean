import ComponentIdl.Binding
import ComponentIdl.Evaluation
import ComponentIdl.Proofs.Loop

/-!
# Passes count what they change

A reference is counted as bound when it gets a target, and a member as evaluated when it gets a
value. So a binding or an evaluation that leaves the store as it was has counted nothing.
-/

namespace ComponentIdl

namespace Binder

/-- A binding function counts no reference as bound if it leaves its argument as it was. -/
def CountsChanges {α : Type} (f : Binder → α → α × Binder) : Prop :=
  ∀ s x, (f s x).1 = x → (f s x).2.tally.bound = s.tally.bound

theorem CountsChanges.threadMap {α : Type} {f : Binder → α → α × Binder} (h : CountsChanges f) :
    CountsChanges (threadMap f) := by
  intro s xs hsame
  induction xs generalizing s with
  | nil => rfl
  | cons x xs ih =>
    obtain ⟨hx, hxs⟩ := List.cons.inj hsame
    exact (ih _ hxs).trans (h s x hx)

theorem bindTo_ne {r : Reference} (target : Target) (h : ¬ r.isBound = true) :
    r.bindTo target ≠ r := by
  intro hsame
  have hbound : (r.bindTo target).isBound = true := rfl
  exact h (hsame ▸ hbound)

theorem countsChanges_reference (scope : String) (line : Nat) (reports : Bool) :
    CountsChanges (bindReference scope line reports) := by
  intro s r hsame
  unfold bindReference at hsame ⊢
  split at hsame
  · next hbound => rw [if_pos hbound]
  · next hunbound =>
    rw [if_neg hunbound]
    dsimp only at hsame ⊢
    cases hanswer : (s.lookup (absoluteName scope r.text)).1 with
    | some symbol =>
      rw [hanswer] at hsame
      exact absurd hsame (bindTo_ne _ hunbound)
    | none => cases reports <;> rfl

theorem countsChanges_required (scope : String) (line : Nat) :
    CountsChanges (bindRequired scope line) := by
  intro s r hsame
  unfold bindRequired at hsame ⊢
  split at hsame
  · next hbound => rw [if_pos hbound]
  · next hunbound =>
    rw [if_neg hunbound]
    dsimp only at hsame ⊢
    cases hanswer : (s.lookup (absoluteName scope r.text)).1 with
    | some symbol =>
      rw [hanswer] at hsame
      dsimp only at hsame ⊢
      split at hsame
      · exact absurd hsame (bindTo_ne _ hunbound)
      · next hkind =>
        rw [if_neg hkind]
        rfl
    | none => rfl

section Members

variable (scope : String) (line : Nat) (reports : Bool)

theorem countsChanges_parameter : CountsChanges (bindParameter scope line reports) :=
  fun s p hsame =>
    countsChanges_reference scope line reports s p.type (congrArg Parameter.type hsame)

theorem countsChanges_result : CountsChanges (bindResult scope line reports) := by
  intro s r hsame
  cases r with
  | none => rfl
  | some r => exact countsChanges_reference scope line reports s r (Option.some.inj hsame)

theorem countsChanges_method : CountsChanges (bindMethod scope) := by
  intro s m hsame
  have hresult := congrArg Method.result hsame
  have hparameters := congrArg Method.parameters hsame
  exact ((countsChanges_parameter scope m.line m.isWritten).threadMap _ _ hparameters).trans
    (countsChanges_result scope m.line m.isWritten s _ hresult)

theorem countsChanges_property : CountsChanges (bindProperty scope) := fun s p hsame =>
  countsChanges_reference scope p.line true s p.type (congrArg Property.type hsame)

theorem countsChanges_field : CountsChanges (bindField scope) := fun s f hsame =>
  countsChanges_reference scope f.line true s f.type (congrArg Field.type hsame)

theorem countsChanges_event : CountsChanges (bindEvent scope) := by
  intro s e hsame
  have htype := countsChanges_reference scope e.line true s e.type (congrArg Event.type hsame)
  unfold bindEvent
  dsimp only
  split <;> exact htype

theorem countsChanges_constructor : CountsChanges (bindConstructor scope) := by
  intro s c hsame
  have hparameters := congrArg Constructor.parameters hsame
  exact (countsChanges_parameter scope c.line true).threadMap s _ hparameters

theorem countsChanges_classPart : CountsChanges (bindClassPart scope) := by
  intro s c hsame
  cases c with
  | none => rfl
  | some c =>
    have hconstructors := congrArg ClassPart.constructors (Option.some.inj hsame)
    exact (countsChanges_constructor scope).threadMap s c.constructors hconstructors

end Members

theorem countsChanges_object : CountsChanges bindObject := by
  intro s o hsame
  have hrequires := congrArg ObjectType.requires hsame
  have hmethods := congrArg ObjectType.methods hsame
  have hproperties := congrArg ObjectType.properties hsame
  have hevents := congrArg ObjectType.events hsame
  have hclassPart := congrArg ObjectType.classPart hsame
  calc (bindObject s o).2.tally.bound
    _ = _ := countsChanges_classPart o.scope _ _ hclassPart
    _ = _ := (countsChanges_event o.scope).threadMap _ _ hevents
    _ = _ := (countsChanges_property o.scope).threadMap _ _ hproperties
    _ = _ := (countsChanges_method o.scope).threadMap _ _ hmethods
    _ = s.tally.bound := (countsChanges_required o.scope o.line).threadMap s _ hrequires

theorem countsChanges_struct : CountsChanges bindStruct := by
  intro s t hsame
  have hfields := congrArg StructType.fields hsame
  exact (countsChanges_field t.scope).threadMap s _ hfields

theorem countsChanges_delegate : CountsChanges bindDelegate := by
  intro s d hsame
  have hresult := congrArg DelegateType.result hsame
  have hparameters := congrArg DelegateType.parameters hsame
  exact ((countsChanges_parameter d.scope d.line true).threadMap _ _ hparameters).trans
    (countsChanges_result d.scope d.line true s _ hresult)

theorem countsChanges_store : CountsChanges bindStore := by
  intro s st hsame
  have hobjects := congrArg (fun st => st.objects.toList) hsame
  have hstructs := congrArg (fun st => st.structs.toList) hsame
  have hdelegates := congrArg (fun st => st.delegates.toList) hsame
  calc (bindStore s st).2.tally.bound
    _ = _ := countsChanges_delegate.threadMap _ _ hdelegates
    _ = _ := countsChanges_struct.threadMap _ _ hstructs
    _ = s.tally.bound := countsChanges_object.threadMap s _ hobjects

end Binder

theorem Workspace.bound_eq_zero {w : Workspace} (h : w.bindReferences.1.store = w.store) :
    w.bindReferences.2.bound = 0 :=
  Binder.countsChanges_store { symbols := w.symbols } w.store h

namespace EnumSearch

variable {base : IntegerType} {s : EnumSearch}

/-- The number of members with a value. -/
def valued (s : EnumSearch) : Nat := s.members.countP fun m => m.value.constant?.isSome

/-- From `s` to `t` as many members got a value as are counted. -/
def Counts (s t : EnumSearch) : Prop := t.valued + s.evaluated = s.valued + t.evaluated

theorem Counts.trans {s t u : EnumSearch} (h : s.Counts t) (h' : t.Counts u) : s.Counts u := by
  unfold Counts at *
  omega

theorem counts_of_members {s t : EnumSearch} (hmembers : t.members = s.members)
    (hevaluated : t.evaluated = s.evaluated) : s.Counts t := by
  unfold Counts valued
  rw [hmembers, hevaluated]

theorem counts_assign {index : Nat} {m : EnumMember} (value : Constant)
    (hm : s.members[index]? = some m) (hnone : s.outcome? index = none) :
    s.Counts (s.apply index m (.assign value)) := by
  obtain ⟨hlt, hget⟩ := Array.getElem?_eq_some_iff.1 hm
  have hunknown : m.value.constant? = none := by
    unfold outcome? at hnone
    rw [hm, Option.bind_some] at hnone
    cases hc : m.value.constant? with
    | none => rfl
    | some value => simp [hc] at hnone
  unfold Counts valued apply pop
  dsimp only
  rw [Array.setIfInBounds, dif_pos hlt, Array.countP_set, hget, hunknown]
  simp [ValueState.constant?]
  omega

theorem counts_step (base : IntegerType) (s : EnumSearch) : s.Counts (s.step base) := by
  unfold step
  split
  · exact counts_of_members rfl rfl
  · next index _ _ =>
    split
    · next m hm hnone =>
      cases s.move base index m.value with
      | assign value => exact counts_assign value hm hnone
      | fail reports => cases reports <;> exact counts_of_members rfl rfl
      | wait on =>
        unfold apply
        dsimp only
        split
        · split <;> exact counts_of_members rfl rfl
        · exact counts_of_members rfl rfl
      | unknown name => exact counts_of_members rfl rfl
    · exact counts_of_members rfl rfl

theorem counts_run (base : IntegerType) (fuel : Nat) (s : EnumSearch) :
    s.Counts (run base fuel s) :=
  (loop base).run_preserves (P := s.Counts) (fun t h _ => h.trans (counts_step base t)) fuel
    (counts_of_members rfl rfl)

theorem counts_settleAll (base : IntegerType) (s : EnumSearch) (roots : List Nat) :
    s.Counts (settleAll base s roots) := by
  unfold settleAll
  induction roots generalizing s with
  | nil => exact counts_of_members rfl rfl
  | cons root roots ih =>
    refine Counts.trans ?_ (ih _)
    dsimp only
    split
    · exact counts_of_members rfl rfl
    · exact Counts.trans (counts_of_members rfl rfl) (counts_run base _ { s with stack := [root] })

end EnumSearch

theorem EnumType.evaluated_eq_zero {e : EnumType} (h : e.evaluated = e) :
    e.search.evaluated = 0 := by
  have hcounts := EnumSearch.counts_settleAll e.base { members := e.members }
    (List.range e.members.size)
  have hmembers : e.search.members = e.members := congrArg EnumType.members h
  unfold EnumSearch.Counts EnumSearch.valued at hcounts
  rw [← search, hmembers] at hcounts
  dsimp only at hcounts
  omega

theorem Workspace.evaluated_eq_zero {w : Workspace} (h : w.evaluateEnums.1.store = w.store) :
    w.evaluateEnums.2.evaluated = 0 := by
  have henums : w.store.enums.map EnumType.evaluated = w.store.enums := congrArg Store.enums h
  refine Array.foldl_induction (fun _ n => n = 0) rfl ?_
  intro i n hn
  have hsame : w.store.enums[i].evaluated = w.store.enums[i] := by
    have hget := congrArg (·[i.1]?) henums
    simpa using hget
  rw [hn, EnumType.evaluated_eq_zero hsame]

end ComponentIdl
