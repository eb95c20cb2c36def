import ComponentIdl.Proofs.Binding.Bound
import ComponentIdl.Proofs.Compile
import ComponentIdl.Proofs.Evaluation
import ComponentIdl.Proofs.SelfReference
import ComponentIdl.Proofs.Store.Similar

/-!
# Analyses that report nothing

What a workspace is like after references, enums and cycles if none of the three passes has reported
anything: every reference is bound, every enum member has a value, and neither graph has a cycle.
-/

namespace ComponentIdl

namespace Store

variable {st st' : Store} {imports : Array Import}

theorem not_leadsToCycle_struct (hs : ∀ s ∈ st.structs, s.cycle = .unknown)
    (hnone : st.circularStructs = []) (id : StructId) : ¬ st.containment.LeadsToCycle id := by
  intro hcycle
  have hlt : id < st.structs.size := st.containment_size ▸ Graph.leadsToCycle_lt hcycle
  have hempty := circularStructs_unknown hs
  rw [hnone, List.map_nil, List.filter_eq_nil_iff] at hempty
  have hmem : { st.structs[id] with cycle := st.containment.verdict id } ∈
      st.classifiedStructs.toList := by
    refine Array.mem_toList_iff.2 (Array.mem_of_getElem? (i := id) ?_)
    unfold classifiedStructs
    rw [Array.getElem?_mapIdx, Array.getElem?_eq_getElem hlt]
    rfl
  exact hempty _ hmem (beq_iff_eq.2 (Graph.verdict_eq_circular.2 hcycle))

theorem not_leadsToCycle_interface (ho : ∀ o ∈ st.objects, o.cycle = .unknown)
    (hnone : st.circularInterfaces = []) {id : ObjectId} {o : ObjectType}
    (hid : st.objects[id]? = some o) (hi : o.isInterface = true) :
    ¬ st.requirement.LeadsToCycle id := by
  intro hcycle
  have hempty := circularInterfaces_unknown ho
  rw [hnone, List.map_nil, List.filter_eq_nil_iff] at hempty
  have hmem : { o with cycle := st.requirement.verdict id } ∈ st.classifiedObjects.toList := by
    refine Array.mem_toList_iff.2 (Array.mem_of_getElem? (i := id) ?_)
    unfold classifiedObjects
    rw [Array.getElem?_mapIdx, hid]
    rfl
  refine hempty _ hmem ?_
  rw [Bool.and_eq_true, beq_iff_eq]
  exact ⟨hi, Graph.verdict_eq_circular.2 hcycle⟩

theorem mem_next_requirement {a b : ObjectId} (h : st.requirement.Edge a b) :
    ∃ o, st.objects[a]? = some o ∧ b ∈ o.bases :=
  Graph.edge_map.1 h

theorem Bound.interface_of_edge (h : st.Bound imports) {a b : ObjectId}
    (hedge : st.requirement.Edge a b) : ∃ o, st.objects[b]? = some o ∧ o.isInterface = true := by
  obtain ⟨o, ho, hb⟩ := mem_next_requirement hedge
  obtain ⟨r, hr, hbase⟩ := List.mem_filterMap.1 hb
  obtain ⟨target, htarget, hi⟩ := h.requires o (Array.mem_of_getElem? ho) r hr
  obtain rfl : target = .interface b :=
    Option.some.inj (htarget.symm.trans (Reference.interface?_eq_some.1 hbase))
  exact hi

theorem Bound.interface_of_onCycle (h : st.Bound imports) {id : ObjectId}
    (hcycle : st.requirement.OnCycle id) : ∃ o, st.objects[id]? = some o ∧ o.isInterface = true := by
  obtain ⟨a, -, hedge⟩ := Relation.TransGen.tail'_iff.1 hcycle
  exact h.interface_of_edge hedge

theorem Bound.acyclic (h : st.Bound imports) (hs : ∀ s ∈ st.structs, s.cycle = .unknown)
    (ho : ∀ o ∈ st.objects, o.cycle = .unknown) (hnone : st.cycleDiagnostics = []) :
    (∀ id, ¬ st.containment.OnCycle id) ∧ ∀ id, ¬ st.requirement.OnCycle id := by
  unfold cycleDiagnostics at hnone
  simp only [List.append_eq_nil_iff, List.map_eq_nil_iff] at hnone
  constructor
  · intro id hcycle
    exact not_leadsToCycle_struct hs hnone.1 id (Graph.onCycle_leadsToCycle hcycle)
  · intro id hcycle
    obtain ⟨o, hid, hi⟩ := h.interface_of_onCycle hcycle
    exact not_leadsToCycle_interface ho hnone.2 hid hi (Graph.onCycle_leadsToCycle hcycle)

theorem IsInterface.of_similar {target : Target} (h : st.IsInterface imports target)
    (hs : st.Similar st') : st'.IsInterface imports target := by
  cases target with
  | interface id =>
    obtain ⟨o, ho, hi⟩ := h
    obtain ⟨o', ho', hcore⟩ := hs.symm.object ho
    exact ⟨o', ho', by rw [← o'.isInterface_core, ← hcore, o.isInterface_core, hi]⟩
  | _ => exact h

theorem Bound.of_similar (h : st.Bound imports) (hs : st.Similar st') : st'.Bound imports := by
  constructor
  · intro o' ho'
    obtain ⟨i, hi⟩ := Array.mem_iff_getElem?.1 ho'
    obtain ⟨o, ho, hcore⟩ := hs.object hi
    rw [← o'.references_core, hcore, o.references_core]
    exact h.references o (Array.mem_of_getElem? ho)
  · intro o' ho' r hr
    obtain ⟨i, hi⟩ := Array.mem_iff_getElem?.1 ho'
    obtain ⟨o, ho, hcore⟩ := hs.object hi
    rw [← o'.requires_core, hcore, o.requires_core] at hr
    obtain ⟨target, htarget, hinterface⟩ := h.requires o (Array.mem_of_getElem? ho) r hr
    exact ⟨target, htarget, hinterface.of_similar hs⟩
  · intro s' hs' f hf
    obtain ⟨i, hi⟩ := Array.mem_iff_getElem?.1 hs'
    obtain ⟨s, hsold, hcore⟩ := hs.struct hi
    rw [← s'.fields_core, hcore, s.fields_core] at hf
    exact h.fields s (Array.mem_of_getElem? hsold) f hf
  · intro d hd
    rw [hs.delegates] at hd
    exact h.delegates d hd

end Store

/-- A store that no analysis has anything to say about. -/
structure Store.Clean (st : Store) (imports : Array Import) : Prop where
  bound : st.Bound imports
  wired : ∀ o ∈ st.objects, o.Wired
  getters : ∀ o ∈ st.objects, o.HasGetters
  enums : ∀ e ∈ st.enums, ∀ m ∈ e.members, ∃ value, m.value = .known value
  containment : ∀ id, ¬ st.containment.OnCycle id
  requirement : ∀ id, ¬ st.requirement.OnCycle id
  namespaces : st.namespaces.CaseDistinct

/-- The name of the token means the same in every scope. -/
theorem absoluteName_registrationToken (scope : String) :
    absoluteName scope registrationToken = registrationToken := by
  unfold absoluteName
  rw [if_pos (by decide)]

theorem Workspace.bound_token {w : Workspace} {o : ObjectType} (ho : o ∈ w.store.objects)
    {m : Method} (hm : m ∈ o.methods) {r : Reference} (hr : r ∈ m.references)
    (htext : r.text = registrationToken) :
    (r.boundIn w.boundSymbols o.scope).isBound = true := by
  rw [Reference.isBound_boundIn]
  cases hb : r.isBound with
  | true => rfl
  | false =>
    have hdotted := absoluteName_registrationToken o.scope
    have hkey : registrationToken ∈ w.store.keys := by
      unfold Store.keys ObjectType.keys Method.keys
      simp only [List.mem_append, List.mem_flatMap, Array.mem_toList_iff]
      refine Or.inl (Or.inl ⟨o, ho, Or.inl (Or.inl (Or.inl (Or.inr ⟨m, hm, r, hr, ?_⟩)))⟩)
      rw [Reference.keys, hb, htext, hdotted]
      exact List.mem_cons_self
    have hcontains : w.store.keys.contains registrationToken = true := List.contains_iff_mem.2 hkey
    rw [Bool.false_or, htext, hdotted, boundSymbols, NameTable.isSome_get?_lookupAll, hcontains,
      NameTable.import?_registrationToken, Bool.true_and, Bool.or_true]

theorem ObjectType.HasGetters.boundIn {o : ObjectType} (h : o.HasGetters) (t : NameTable) :
    (o.boundIn t).HasGetters :=
  List.forall_mem_map.2 h

theorem ObjectType.HasGetters.of_core {o o' : ObjectType} (h : o.HasGetters)
    (hcore : o'.core = o.core) : o'.HasGetters := by
  intro p' hp'
  have hproperties : o'.properties.map Property.unlinked = o.properties.map Property.unlinked :=
    congrArg ObjectType.properties hcore
  obtain ⟨p, hp, hpp⟩ := mem_right (forall₂_of_map_eq hproperties) hp'
  have hget := congrArg Property.getter hpp
  have hsome := h p hp
  exact hget ▸ hsome

namespace Workspace

variable {w : Workspace}

theorem Declared.bound (h : w.Declared) (hnone : w.store.bindingFaults w.boundSymbols = []) :
    (w.store.boundIn w.boundSymbols).Bound w.boundSymbols.imports := by
  refine Store.bound_boundIn h.wired (fun o ho => (h.fresh o ho).requires)
    (fun o ho m hm r hr => bound_token ho hm hr) ?_ hnone
  intro name σ hget
  rcases h.entry hget with ⟨header, hheader, -⟩ | ⟨-, hremembers⟩
  · exact Or.inl ⟨header, hheader⟩
  · exact Or.inr hremembers

/-- Analyses that report nothing leave a clean store. -/
theorem Declared.clean (h : w.Declared) (hgetters : ∀ o ∈ w.store.objects, o.HasGetters)
    (hcase : w.store.namespaces.CaseDistinct) (hnone : w.analyzed.report.entries = []) :
    w.analyzed.store.Clean w.analyzed.symbols.imports := by
  rw [analyzed_eq] at hnone ⊢
  have hentries : ((w.report.entries ++ w.store.bindingFaults w.boundSymbols) ++
      (w.store.boundIn w.boundSymbols).enumDiagnostics) ++
        (w.store.boundIn w.boundSymbols).evaluateEnums.cycleDiagnostics = [] := hnone
  simp only [List.append_eq_nil_iff] at hentries
  obtain ⟨⟨⟨-, hfaults⟩, henums⟩, hcycles⟩ := hentries
  have hevaluate := (w.store.boundIn w.boundSymbols).similar_evaluateEnums
  have hclassify := (w.store.boundIn w.boundSymbols).evaluateEnums.similar_withCycles
  have hsimilar := hevaluate.trans hclassify
  have hbound := h.bound hfaults
  have hacyclic := (hbound.of_similar hevaluate).acyclic
    (Array.forall_mem_map.2 fun s hs => h.structs s hs)
    (Array.forall_mem_map.2 fun o ho => (h.fresh o ho).cycle) hcycles
  -- A class or interface comes from a declared one, whose references were bound.
  have hsource : ∀ o' ∈ (w.store.boundIn w.boundSymbols).evaluateEnums.withCycles.objects,
      ∃ o ∈ w.store.objects, o'.core = (o.boundIn w.boundSymbols).core := by
    intro o' ho'
    obtain ⟨i, hi⟩ := Array.mem_iff_getElem?.1 ho'
    obtain ⟨bound, hmem, hcore⟩ := hsimilar.object hi
    obtain ⟨o, ho, rfl⟩ := Array.mem_map.1 (Array.mem_of_getElem? hmem)
    exact ⟨o, ho, hcore⟩
  refine ⟨hbound.of_similar hsimilar, ?_, ?_, ?_, ?_, ?_, hcase⟩
  · intro o' ho'
    obtain ⟨o, ho, hcore⟩ := hsource o' ho'
    exact ((h.wired o ho).boundIn _).of_core hcore
  · intro o' ho'
    obtain ⟨o, ho, hcore⟩ := hsource o' ho'
    exact ((hgetters o ho).boundIn _).of_core hcore
  · intro e' he'
    obtain ⟨e, he, rfl⟩ := Array.mem_map.1 he'
    exact EnumType.evaluated_complete
      (List.flatMap_eq_nil_iff.1 henums e (Array.mem_toList_iff.2 he))
  · intro id
    rw [hclassify.containment]
    exact hacyclic.1 id
  · intro id
    rw [hclassify.requirement]
    exact hacyclic.2 id

end Workspace

end ComponentIdl
