import ComponentIdl.Proofs.Graph.CycleSearch
import ComponentIdl.SelfReference

/-!
# Cycle states are exact

Starting from states that are all unknown, the analysis classifies every declaration: circular if
its edges lead to a cycle, clear if they do not. It changes nothing but these states, and it reports
exactly the circular structs and then exactly the circular interfaces, in the order of their slots.
-/

namespace ComponentIdl

open Classical in
/-- What is to be found out about a node. -/
noncomputable def Graph.verdict (g : Graph) (node : Nat) : Circularity :=
  if g.LeadsToCycle node then .circular else .clear

theorem Truthful.state_eq {g : Graph} {memo : Array Circularity} {n : Nat} (t : Truthful g memo)
    (hn : stateOf memo n ≠ .unknown) : stateOf memo n = g.verdict n := by
  unfold Graph.verdict
  cases h : stateOf memo n with
  | unknown => exact absurd h hn
  | clear => rw [if_neg (t.clear n h)]
  | circular => rw [if_pos (t.circular n h)]

theorem Graph.verdict_eq_circular {g : Graph} {n : Nat} :
    g.verdict n = .circular ↔ g.LeadsToCycle n := by
  unfold verdict
  split <;> simp [*]

theorem truthful_of_unknown {g : Graph} {memo : Array Circularity} (h : ∀ c ∈ memo, c = .unknown) :
    Truthful g memo := by
  have hu : ∀ n, stateOf memo n = .unknown := by
    intro n
    unfold stateOf
    cases hn : memo[n]? with
    | none => rfl
    | some c => exact h c (Array.mem_of_getElem? hn)
  constructor
  · intro n hn
    rw [hu n] at hn
    cases hn
  · intro n hn
    rw [hu n] at hn
    cases hn

theorem mapIdx_eq_filterMap {α β : Type} (f : Nat → α → β) (items : List α) :
    items.mapIdx f = (List.range items.length).filterMap fun i => (items[i]?).map (f i) := by
  induction items generalizing f with
  | nil => rfl
  | cons a items ih =>
    rw [List.mapIdx_cons, ih, List.length_cons, List.range_succ_eq_map, List.filterMap_cons,
      List.filterMap_map]
    rfl

theorem filter_mapIdx {α β : Type} (slots : Array α) (f : Nat → α → β) (p : Nat → Bool)
    (q : β → Bool) (hq : ∀ i a, slots[i]? = some a → q (f i a) = p i) :
    (slots.mapIdx f).toList.filter q =
      ((List.range slots.size).filter p).filterMap fun i => (slots[i]?).map (f i) := by
  rw [Array.toList_mapIdx, mapIdx_eq_filterMap, List.filter_filterMap, List.filterMap_filter,
    Array.length_toList]
  apply List.filterMap_congr
  intro i _
  rw [Array.getElem?_toList]
  cases hi : slots[i]? with
  | none => simp
  | some a =>
    rw [Option.map_some, Option.filter_some, hq i a hi]

section Slots

variable {α : Type} {g : Graph} {slots : Array α} {cycle : α → Circularity}

theorem exploreAll_unknown (hsize : g.size = slots.size) (h : ∀ a ∈ slots, cycle a = .unknown) :
    (∀ i < slots.size,
      stateOf (g.exploreAll (slots.map cycle) (List.range slots.size)).1 i = g.verdict i) ∧
    (g.exploreAll (slots.map cycle) (List.range slots.size)).2 =
      (List.range slots.size).filter fun i => g.verdict i == .circular := by
  have hu : ∀ c ∈ slots.map cycle, c = .unknown := by
    intro c hc
    obtain ⟨a, ha, rfl⟩ := Array.mem_map.1 hc
    exact h a ha
  obtain ⟨htrue, hknown, hlist⟩ := Graph.exploreAll_spec (List.range slots.size)
    (by rw [Array.size_map, hsize]) (truthful_of_unknown hu)
    fun n hn => hsize ▸ List.mem_range.1 hn
  have hstate : ∀ i < slots.size,
      stateOf (g.exploreAll (slots.map cycle) (List.range slots.size)).1 i = g.verdict i :=
    fun i hi => htrue.state_eq (hknown i (Or.inl (List.mem_range.2 hi)))
  refine ⟨hstate, ?_⟩
  rw [hlist]
  apply List.filter_congr
  intro i hi
  rw [hstate i (List.mem_range.1 hi)]

theorem mapIdx_stateOf (mark : α → Circularity → α) {memo : Array Circularity}
    (h : ∀ i < slots.size, stateOf memo i = g.verdict i) :
    (slots.mapIdx fun i a => mark a (stateOf memo i)) =
      slots.mapIdx fun i a => mark a (g.verdict i) := by
  apply Array.ext_getElem?
  intro i
  rw [Array.getElem?_mapIdx, Array.getElem?_mapIdx]
  apply Option.map_congr
  intro a hi
  rw [h i (Array.getElem?_eq_some_iff.1 hi).1]

theorem filter_circular (g : Graph) (slots : Array α) (mark : α → Circularity → α)
    (state : α → Circularity) (hmark : ∀ a c, state (mark a c) = c) :
    (slots.mapIdx fun i a => mark a (g.verdict i)).toList.filter (fun a => state a == .circular) =
      (((List.range slots.size).filter fun i => g.verdict i == .circular).filterMap
        fun i => slots[i]?).map fun a => mark a .circular := by
  rw [filter_mapIdx slots _ (fun i => g.verdict i == .circular) _
    (fun i a _ => by rw [hmark]), List.map_filterMap]
  apply List.filterMap_congr
  intro i hi
  have hc : g.verdict i = .circular := by simpa using (List.mem_filter.1 hi).2
  rw [hc]

end Slots

namespace Store

/-- The structs, each with the cycle state that its fields give it. -/
noncomputable def classifiedStructs (st : Store) : Array StructType :=
  st.structs.mapIdx fun i s => { s with cycle := st.containment.verdict i }

/-- The classes and interfaces, each with the cycle state that its requires list gives it. -/
noncomputable def classifiedObjects (st : Store) : Array ObjectType :=
  st.objects.mapIdx fun i o => { o with cycle := st.requirement.verdict i }

variable {st : Store}

theorem containment_size (st : Store) : st.containment.size = st.structs.size := by
  simp [containment, Graph.size]

theorem requirement_size (st : Store) : st.requirement.size = st.objects.size := by
  simp [requirement, Graph.size]

theorem withCycles_unknown (hs : ∀ s ∈ st.structs, s.cycle = .unknown)
    (ho : ∀ o ∈ st.objects, o.cycle = .unknown) :
    st.withCycles = { st with structs := st.classifiedStructs, objects := st.classifiedObjects } := by
  have hstructs := mapIdx_stateOf (fun (s : StructType) c => { s with cycle := c })
    (exploreAll_unknown st.containment_size hs).1
  have hobjects := mapIdx_stateOf (fun (o : ObjectType) c => { o with cycle := c })
    (exploreAll_unknown st.requirement_size ho).1
  unfold withCycles classifiedStructs classifiedObjects structCycles objectCycles
  simp only [hstructs, hobjects]

theorem circularStructs_unknown (h : ∀ s ∈ st.structs, s.cycle = .unknown) :
    st.classifiedStructs.toList.filter (fun s => s.cycle == .circular) =
      st.circularStructs.map fun s => { s with cycle := .circular } := by
  have hlist := (exploreAll_unknown st.containment_size h).2
  unfold circularStructs structCycles classifiedStructs
  rw [hlist]
  exact filter_circular st.containment st.structs (fun s c => { s with cycle := c }) StructType.cycle
    fun _ _ => rfl

theorem circularInterfaces_unknown (h : ∀ o ∈ st.objects, o.cycle = .unknown) :
    st.classifiedObjects.toList.filter (fun o => o.isInterface && o.cycle == .circular) =
      st.circularInterfaces.map fun o => { o with cycle := .circular } := by
  have hlist := (exploreAll_unknown st.requirement_size h).2
  have hall := filter_circular st.requirement st.objects (fun o c => { o with cycle := c })
    ObjectType.cycle (fun _ _ => rfl)
  unfold circularInterfaces objectCycles classifiedObjects
  rw [hlist, ← List.filter_filter, hall, List.filter_map]
  rfl

end Store

/-- From states that are all unknown the analysis gives every struct, class and interface the state
that its edges determine, and changes nothing else of the store. It reports one error for each
circular struct and then one for each circular interface, in the order of slots, and counts them. -/
theorem findCycles_exact (w : Workspace) (hs : ∀ s ∈ w.store.structs, s.cycle = .unknown)
    (ho : ∀ o ∈ w.store.objects, o.cycle = .unknown) :
    let structs := w.store.structs.mapIdx fun i s => { s with cycle := w.store.containment.verdict i }
    let objects := w.store.objects.mapIdx fun i o => { o with cycle := w.store.requirement.verdict i }
    let circularStructs := structs.toList.filter fun s => s.cycle == .circular
    let circularInterfaces := objects.toList.filter fun o => o.isInterface && o.cycle == .circular
    w.findCycles =
      ({ w with
         store := { w.store with structs, objects }
         report := w.report.add
          ((circularStructs.map fun s => .of .circularStructField s.line s.dottedName) ++
            circularInterfaces.map fun o => .of .circularInterface o.line o.dottedName) },
       { structs := circularStructs.length, interfaces := circularInterfaces.length }) := by
  intro structs objects circularStructs circularInterfaces
  have hst : circularStructs = w.store.circularStructs.map fun s => { s with cycle := .circular } :=
    Store.circularStructs_unknown hs
  have hob : circularInterfaces
      = w.store.circularInterfaces.map fun o => { o with cycle := .circular } :=
    Store.circularInterfaces_unknown ho
  have hstore : w.store.withCycles = { w.store with structs, objects } :=
    Store.withCycles_unknown hs ho
  rw [hst, hob, List.map_map, List.map_map, List.length_map, List.length_map]
  unfold Workspace.findCycles
  rw [hstore]
  rfl

/-- Four structs: the first holds the second twice, the second and the third hold each other, the
fourth holds none. A class and an interface require an interface that requires itself. -/
def tangled : Workspace where
  settings := {}
  store :=
    { structs := #[
        { name := "A", scope := "N", line := 1, assembly := "default",
          fields := [⟨"x", 2, .bound "B" (.struct 1)⟩, ⟨"y", 3, .bound "B" (.struct 1)⟩] },
        { name := "B", scope := "N", line := 4, assembly := "default",
          fields := [⟨"x", 5, .bound "C" (.struct 2)⟩] },
        { name := "C", scope := "N", line := 6, assembly := "default",
          fields := [⟨"x", 7, .bound "B" (.struct 1)⟩, ⟨"y", 8, .bound "D" (.struct 3)⟩] },
        { name := "D", scope := "N", line := 9, assembly := "default" }]
      objects := #[
        { name := "K", scope := "N", line := 10, assembly := "default", classPart := some ⟨{}, [], {}⟩,
          requires := [.bound "I" (.interface 2)] },
        { name := "J", scope := "N", line := 11, assembly := "default", classPart := none,
          requires := [.bound "I" (.interface 2)] },
        { name := "I", scope := "N", line := 12, assembly := "default", classPart := none,
          requires := [.bound "I" (.interface 2)] }] }

theorem findCycles_exact_tangled :
    (∀ s ∈ tangled.store.structs, s.cycle = .unknown) ∧
      (∀ o ∈ tangled.store.objects, o.cycle = .unknown) ∧
      tangled.store.containment.LeadsToCycle 0 ∧ ¬ tangled.store.containment.LeadsToCycle 3 ∧
      tangled.findCycles.2 = { structs := 3, interfaces := 2 } := by
  have hs : ∀ s ∈ tangled.store.structs, s.cycle = .unknown := by decide
  have ho : ∀ o ∈ tangled.store.objects, o.cycle = .unknown := by decide
  have hrun : tangled.findCycles.1.store.structs.toList.map StructType.cycle
      = [.circular, .circular, .circular, .clear] := by decide +kernel
  rw [findCycles_exact tangled hs ho] at hrun
  have hstate : [tangled.store.containment.verdict 0, tangled.store.containment.verdict 1,
      tangled.store.containment.verdict 2, tangled.store.containment.verdict 3]
      = [.circular, .circular, .circular, .clear] := by
    simpa [Array.toList_mapIdx, tangled] using hrun
  simp only [List.cons.injEq] at hstate
  refine ⟨hs, ho, Graph.verdict_eq_circular.1 hstate.1, ?_, by decide +kernel⟩
  intro h
  rw [Graph.verdict_eq_circular.2 h] at hstate
  exact absurd hstate.2.2.2.1 (by decide)

end ComponentIdl
