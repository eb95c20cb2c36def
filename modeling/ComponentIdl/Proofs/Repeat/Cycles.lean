import ComponentIdl.Proofs.Graph.CycleSearch
import ComponentIdl.Proofs.Store.Similar

/-!
# The search for cycles repeated

After a search every slot has a state, and a state that is known is never looked for again. So a
second search finds the same states and circular declarations, whatever states the first one started
from: those of an earlier search may no longer be true of the store.
-/

namespace ComponentIdl

section Slots

variable {α : Type} {g : Graph} {slots : Array α} {cycle : α → Circularity}

/-- The states after a search, for slots that hold them. -/
theorem exploreAll_again (hsize : g.size = slots.size) :
    g.exploreAll (g.exploreAll (slots.map cycle) (List.range slots.size)).1
        (List.range slots.size) =
      g.exploreAll (slots.map cycle) (List.range slots.size) := by
  have hmemo : (slots.map cycle).size = g.size := by rw [Array.size_map, hsize]
  obtain ⟨-, -, hknown, hlist⟩ := Graph.exploreAll_settles (List.range slots.size) hmemo fun n hn =>
    hsize ▸ List.mem_range.1 hn
  rw [Graph.exploreAll_known hknown, ← hlist]

theorem map_mapIdx_stateOf {memo : Array Circularity} {put : Nat → α → α}
    (hsize : memo.size = slots.size) (hput : ∀ i a, cycle (put i a) = stateOf memo i) :
    (slots.mapIdx put).map cycle = memo := by
  apply Array.ext_getElem?
  intro i
  rw [Array.getElem?_map, Array.getElem?_mapIdx, Option.map_map]
  cases hi : slots[i]? with
  | none =>
    have hle := Array.getElem?_eq_none_iff.1 hi
    rw [Option.map_none, Array.getElem?_eq_none (by omega)]
  | some a =>
    have hlt := (Array.getElem?_eq_some_iff.1 hi).1
    rw [Option.map_some, Function.comp_apply, hput, stateOf,
      Array.getElem?_eq_getElem (by omega)]

/-- A search over slots that hold the states of an earlier one finds what that one found. -/
theorem exploreAll_mapIdx {put : Nat → α → α} (hsize : g.size = slots.size)
    (hput : ∀ i a, cycle (put i a) =
      stateOf (g.exploreAll (slots.map cycle) (List.range slots.size)).1 i) :
    g.exploreAll ((slots.mapIdx put).map cycle) (List.range (slots.mapIdx put).size) =
      g.exploreAll (slots.map cycle) (List.range slots.size) := by
  have hmemo : (slots.map cycle).size = g.size := by rw [Array.size_map, hsize]
  have hstates := (Graph.exploreAll_settles (List.range slots.size) hmemo fun n hn =>
    hsize ▸ List.mem_range.1 hn).1
  rw [map_mapIdx_stateOf (hstates.trans hsize) hput, Array.size_mapIdx]
  exact exploreAll_again hsize

end Slots

namespace Store

variable (st : Store)

theorem size_containment : st.containment.size = st.structs.size := Array.size_map

theorem size_requirement : st.requirement.size = st.objects.size := Array.size_map

theorem structCycles_withCycles : st.withCycles.structCycles = st.structCycles := by
  unfold structCycles
  rw [st.similar_withCycles.containment]
  exact exploreAll_mapIdx st.size_containment fun _ _ => rfl

theorem objectCycles_withCycles : st.withCycles.objectCycles = st.objectCycles := by
  unfold objectCycles
  rw [st.similar_withCycles.requirement]
  exact exploreAll_mapIdx st.size_requirement fun _ _ => rfl

theorem withCycles_withCycles : st.withCycles.withCycles = st.withCycles := by
  have hagain : ∀ st' : Store, st'.withCycles = { st' with
      structs := st'.structs.mapIdx fun i s => { s with cycle := stateOf st'.structCycles.1 i }
      objects := st'.objects.mapIdx fun i o => { o with cycle := stateOf st'.objectCycles.1 i } } :=
    fun _ => rfl
  rw [hagain st.withCycles, structCycles_withCycles, objectCycles_withCycles]
  unfold withCycles
  simp only [Array.mapIdx_mapIdx]
  rfl

theorem circularStructs_withCycles :
    st.withCycles.circularStructs.map StructType.toHeader =
      st.circularStructs.map StructType.toHeader := by
  unfold circularStructs
  rw [structCycles_withCycles, List.map_filterMap, List.map_filterMap]
  refine congrArg (List.filterMap · _) (funext fun id => ?_)
  unfold withCycles
  rw [Array.getElem?_mapIdx, Option.map_map]
  rfl

theorem circularInterfaces_withCycles :
    st.withCycles.circularInterfaces.map ObjectType.toHeader =
      st.circularInterfaces.map ObjectType.toHeader := by
  unfold circularInterfaces
  rw [objectCycles_withCycles, List.filter_filterMap, List.filter_filterMap, List.map_filterMap,
    List.map_filterMap]
  refine congrArg (List.filterMap · _) (funext fun id => ?_)
  unfold withCycles
  rw [Array.getElem?_mapIdx]
  cases st.objects[id]? with
  | none => rfl
  | some o =>
    have hsame : ({ o with cycle := stateOf st.objectCycles.1 id } : ObjectType).isInterface =
        o.isInterface := rfl
    rw [Option.map_some, Option.filter_some, Option.filter_some, hsame]
    cases o.isInterface <;> rfl

theorem cycleDiagnostics_withCycles : st.withCycles.cycleDiagnostics = st.cycleDiagnostics := by
  have hstructs := congrArg (List.map fun h : Header =>
    Diagnostic.of .circularStructField h.line h.dottedName) st.circularStructs_withCycles
  have hinterfaces := congrArg (List.map fun h : Header =>
    Diagnostic.of .circularInterface h.line h.dottedName) st.circularInterfaces_withCycles
  rw [List.map_map, List.map_map] at hstructs hinterfaces
  unfold cycleDiagnostics
  exact congrArg₂ (· ++ ·) hstructs hinterfaces

end Store

/-- A second search changes nothing and reports what the first one did. -/
theorem Workspace.findCycles_again (w : Workspace) :
    w.findCycles.1.findCycles.1 =
      { w.findCycles.1 with report := w.findCycles.1.report.add w.store.cycleDiagnostics } := by
  unfold findCycles
  dsimp only
  rw [w.store.withCycles_withCycles, w.store.cycleDiagnostics_withCycles]

end ComponentIdl
