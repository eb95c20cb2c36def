import ComponentIdl.Conflict
import ComponentIdl.Evaluation
import ComponentIdl.Proofs.Conflict.Sound
import ComponentIdl.Proofs.Store.Registry

/-!
# Passes that only add to declarations

Evaluation, the search for cycles and the check of members fill in values, cycle states and links.
Two stores that differ in nothing else are similar: they hold the same references, and their graphs
are the same.
-/

namespace ComponentIdl

/-- A struct without its cycle state. -/
def StructType.core (s : StructType) : StructType := { s with cycle := .unknown }

theorem StructType.fields_core (s : StructType) : s.core.fields = s.fields := rfl

namespace Store

variable {st st' : Store}

/-- The stores differ in links, cycle states, derived interfaces and enum values only. -/
structure Similar (st st' : Store) : Prop where
  objects : st'.objects.map ObjectType.core = st.objects.map ObjectType.core
  structs : st'.structs.map StructType.core = st.structs.map StructType.core
  enums : st'.enums.map EnumType.toHeader = st.enums.map EnumType.toHeader
  delegates : st'.delegates = st.delegates
  namespaces : st'.namespaces = st.namespaces

theorem Similar.trans {st'' : Store} (h : st.Similar st') (h' : st'.Similar st'') :
    st.Similar st'' :=
  ⟨h'.objects.trans h.objects, h'.structs.trans h.structs, h'.enums.trans h.enums,
    h'.delegates.trans h.delegates, h'.namespaces.trans h.namespaces⟩

theorem getElem?_of_map_eq {α β : Type} {f : α → β} {as bs : Array α} (h : bs.map f = as.map f)
    (i : Nat) : (bs[i]?).map f = (as[i]?).map f := by
  rw [← Array.getElem?_map, h, Array.getElem?_map]

theorem Similar.object (h : st.Similar st') {i : Nat} {o' : ObjectType}
    (ho : st'.objects[i]? = some o') : ∃ o, st.objects[i]? = some o ∧ o'.core = o.core := by
  have hi := getElem?_of_map_eq h.objects i
  rw [ho, Option.map_some] at hi
  obtain ⟨o, hold, hcore⟩ := Option.map_eq_some_iff.1 hi.symm
  exact ⟨o, hold, hcore.symm⟩

theorem Similar.struct (h : st.Similar st') {i : Nat} {s' : StructType}
    (hs : st'.structs[i]? = some s') : ∃ s, st.structs[i]? = some s ∧ s'.core = s.core := by
  have hi := getElem?_of_map_eq h.structs i
  rw [hs, Option.map_some] at hi
  obtain ⟨s, hold, hcore⟩ := Option.map_eq_some_iff.1 hi.symm
  exact ⟨s, hold, hcore.symm⟩

theorem Similar.symm (h : st.Similar st') : st'.Similar st :=
  ⟨h.objects.symm, h.structs.symm, h.enums.symm, h.delegates.symm, h.namespaces.symm⟩

theorem Similar.sameHeaders (h : st.Similar st') : st.SameHeaders st' := by
  have hlabel : ∀ o : ObjectType, label o = label o.core := by
    intro o
    unfold label ObjectType.isClass ObjectType.core
    cases o.classPart <;> rfl
  refine ⟨?_, ?_, getElem?_of_map_eq h.enums, fun i => by rw [h.delegates]⟩
  · intro i
    have hi := congrArg (Option.map label) (getElem?_of_map_eq h.objects i)
    rw [Option.map_map, Option.map_map] at hi
    rw [funext hlabel]
    exact hi
  · intro i
    have hi := congrArg (Option.map StructType.toHeader) (getElem?_of_map_eq h.structs i)
    rw [Option.map_map, Option.map_map] at hi
    exact hi

theorem Similar.requirement (h : st.Similar st') : st'.requirement = st.requirement := by
  have hbases := congrArg (Array.map ObjectType.bases) h.objects
  rw [Array.map_map, Array.map_map] at hbases
  exact congrArg Graph.mk hbases

theorem Similar.containment (h : st.Similar st') : st'.containment = st.containment := by
  have hparts := congrArg (Array.map StructType.parts) h.structs
  rw [Array.map_map, Array.map_map] at hparts
  exact congrArg Graph.mk hparts

theorem similar_evaluateEnums (st : Store) : st.Similar st.evaluateEnums := by
  refine ⟨rfl, rfl, ?_, rfl, rfl⟩
  unfold evaluateEnums
  rw [Array.map_map]
  rfl

theorem similar_withCycles (st : Store) : st.Similar st.withCycles := by
  refine ⟨?_, ?_, rfl, rfl, rfl⟩
  · unfold withCycles
    apply Array.ext_getElem?
    intro i
    simp only [Array.getElem?_map, Array.getElem?_mapIdx, Option.map_map]
    rfl
  · unfold withCycles
    apply Array.ext_getElem?
    intro i
    simp only [Array.getElem?_map, Array.getElem?_mapIdx, Option.map_map]
    rfl

theorem getElem?_checkMembers (w : Workspace) (i : Nat) :
    w.checkMembers.1.store.objects[i]? = (w.store.objects[i]?).map fun o =>
      (o.remarks (w.store.ancestors i)).foldl Remark.link o := by
  unfold Workspace.checkMembers Store.memberRemarks
  simp only [List.getElem?_toArray, List.getElem?_map, List.getElem?_mapIdx,
    Array.getElem?_toList, Option.map_map]
  rfl

theorem core_of_unlinked {o o' : ObjectType} (h : o'.unlinked = o.unlinked) : o'.core = o.core := by
  have hcore : ∀ o : ObjectType, o.core = o.unlinked.core := by
    intro o
    unfold ObjectType.core ObjectType.unlinked
    simp only [List.map_map]
    rfl
  rw [hcore, h, ← hcore]

theorem similar_checkMembers (w : Workspace) : w.store.Similar w.checkMembers.1.store := by
  refine ⟨?_, rfl, rfl, rfl, rfl⟩
  apply Array.ext_getElem?
  intro i
  rw [Array.getElem?_map, Array.getElem?_map, getElem?_checkMembers, Option.map_map]
  apply Option.map_congr
  intro o _
  exact core_of_unlinked (Remark.unlinked_foldl o _)

end Store

end ComponentIdl
