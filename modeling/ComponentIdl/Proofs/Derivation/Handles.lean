import ComponentIdl.Proofs.Builder.Handles
import ComponentIdl.Proofs.Derivation.Members
import ComponentIdl.Proofs.Derivation.Step

/-!
# Handles through the derivation of interfaces

A derived interface takes over references of its class and links none of its members; a factory
method also refers to the class. An interface is recorded in a slot of its class that was free, so
classes and derived interfaces point at each other.
-/

namespace ComponentIdl

theorem ObjectType.references_keep {o : ObjectType} {statics : Bool} {id : ObjectId}
    {role : DerivedRole} {r : Reference}
    (h : r ∈ (Derivation.interfaceOf id o role (o.keep statics)).references) : r ∈ o.references := by
  rcases mem_references.1 h with ⟨m', hm', hr⟩ | ⟨p', hp', rfl⟩ | ⟨e', he', rfl⟩ | ⟨c, hc, -⟩
  · obtain ⟨m, hm, rfl⟩ := List.mem_map.1 hm'
    exact mem_references.2 (Or.inl ⟨m, List.mem_of_mem_filter hm, hr⟩)
  · obtain ⟨p, hp, rfl⟩ := List.mem_map.1 hp'
    exact mem_references.2 (Or.inr (Or.inl ⟨p, List.mem_of_mem_filter hp, rfl⟩))
  · obtain ⟨e, he, hkept⟩ := List.mem_filterMap.1 he'
    exact mem_references.2 (Or.inr (Or.inr (Or.inl
      ⟨e, List.mem_of_mem_filter he, (keptEvent?_type hkept).symm⟩)))
  · exact absurd hc List.not_mem_nil

theorem ObjectType.references_factory {o : ObjectType} {id : ObjectId} {role : DerivedRole}
    {r : Reference} (h : r ∈ (Derivation.interfaceOf id o role (o.factory id)).references) :
    r ∈ o.references ∨ r.target = some (.runtimeClass id) := by
  rcases mem_references.1 h with ⟨m, hm, hr⟩ | ⟨p, hp, -⟩ | ⟨e, he, -⟩ | ⟨c, hc, -⟩
  · obtain ⟨⟨c, n⟩, hc, rfl⟩ := List.mem_map.1 hm
    have hmem : c ∈ o.constructors :=
      List.mem_of_mem_filter (List.mem_of_getElem? (List.mem_zipIdx_iff_getElem?.1 hc))
    rcases List.mem_append.1 hr with hr | hr
    · rw [show r = _ from List.mem_singleton.1 hr]
      exact Or.inr rfl
    · obtain ⟨p, hp, rfl⟩ := List.mem_map.1 hr
      exact Or.inl (mem_references.2 (Or.inr (Or.inr (Or.inr ⟨c, hmem, p, hp, rfl⟩))))
  · exact absurd hp List.not_mem_nil
  · exact absurd he List.not_mem_nil
  · exact absurd hc List.not_mem_nil

theorem ObjectType.references_derived {o : ObjectType} {id : ObjectId}
    {plan : DerivedRole × MemberSet} (hplan : plan ∈ o.derivedRoles id) {r : Reference}
    (h : r ∈ (Derivation.interfaceOf id o plan.1 plan.2).references) :
    r ∈ o.references ∨ r.target = some (.runtimeClass id) := by
  rcases mem_derivedRoles hplan with rfl | rfl | rfl
  · exact Or.inl (references_keep h)
  · exact Or.inl (references_keep h)
  · exact references_factory h

/-- No member of a derived interface has a link. -/
theorem ObjectType.links_derived {o : ObjectType} {id : ObjectId}
    {plan : DerivedRole × MemberSet} (hplan : plan ∈ o.derivedRoles id) :
    (Derivation.interfaceOf id o plan.1 plan.2).inheritedMethods = [] ∧
      (Derivation.interfaceOf id o plan.1 plan.2).inheritedProperties = [] ∧
      (Derivation.interfaceOf id o plan.1 plan.2).inheritedEvents = [] := by
  have hkeep : ∀ statics role,
      (Derivation.interfaceOf id o role (o.keep statics)).inheritedMethods = [] ∧
        (Derivation.interfaceOf id o role (o.keep statics)).inheritedProperties = [] ∧
        (Derivation.interfaceOf id o role (o.keep statics)).inheritedEvents = [] := by
    intro statics role
    refine ⟨?_, ?_, ?_⟩
    · refine List.filterMap_eq_nil_iff.2 fun m' hm' => ?_
      obtain ⟨m, -, rfl⟩ := List.mem_map.1 hm'
      rfl
    · refine List.filterMap_eq_nil_iff.2 fun p' hp' => ?_
      obtain ⟨p, -, rfl⟩ := List.mem_map.1 hp'
      rfl
    · refine List.filterMap_eq_nil_iff.2 fun e' he' => ?_
      obtain ⟨e, -, hkept⟩ := List.mem_filterMap.1 he'
      unfold keptEvent? at hkept
      split at hkept
      · rw [← Option.some.inj hkept]
      · exact absurd hkept (by simp)
  rcases mem_derivedRoles hplan with rfl | rfl | rfl
  · exact hkeep false .default
  · exact hkeep true .statics
  · refine ⟨List.filterMap_eq_nil_iff.2 fun m hm => ?_, rfl, rfl⟩
    obtain ⟨c, -, rfl⟩ := List.mem_map.1 hm
    rfl

namespace Derivation

variable {s s' : Derivation} {st : Store} {imports : Array Import} {id : ObjectId} {o : ObjectType}

theorem continues_withInterface (st : Store) (imports : Array Import) (node : NamespaceId)
    (block id slot : Nat) (role : DerivedRole) (interface : ObjectType) :
    st.Continues imports (withInterface st node block id slot role interface) imports := by
  obtain ⟨-, hstructs, henums, hdelegates⟩ :=
    Builder.slots_declare st node block interface.name (.object interface)
  refine ⟨?_, Nat.le_of_eq ?_, Nat.le_of_eq ?_, Nat.le_of_eq ?_, fun _ _ hi => hi⟩
  · intro i o ho
    obtain ⟨o', ho', hcore, -⟩ := old_withInterface ho
    exact ⟨o', ho', ObjectType.continues_of_core hcore⟩
  · exact congrArg Array.size hstructs.symm
  · exact congrArg Array.size henums.symm
  · exact congrArg Array.size hdelegates.symm

theorem anchored_recorded {c : ObjectType} (h : c.Anchored st imports) (role : DerivedRole)
    (slot : ObjectId) : (recorded role slot c).Anchored st imports := by
  refine h.of_links ?_ (fun r hr => Or.inl hr) ⟨rfl, rfl, rfl⟩
  intro r hr
  rw [← ObjectType.references_core, core_recorded, ObjectType.references_core] at hr
  exact Or.inl hr

/-- Handles lead somewhere, as to declarations and name table. -/
structure Anchored (s : Derivation) : Prop where
  store : s.store.Anchored s.symbols.imports
  table : ∀ name σ, s.symbols.get? name = some σ → s.store.HasSymbol s.symbols.imports σ

/-- The class has its place, and its references lead somewhere. -/
structure ClassAnchored (s : Derivation) (id : ObjectId) (o : ObjectType)
    (plans : List (DerivedRole × MemberSet)) : Prop where
  plans : plans ⊆ o.derivedRoles id
  references : ∀ r ∈ o.references, r.Anchored s.store s.symbols.imports
  class_ : s.store.HasTarget s.symbols.imports (.runtimeClass id)

theorem ClassAnchored.interfaceOf {plan : DerivedRole × MemberSet}
    {plans : List (DerivedRole × MemberSet)} (h : ClassAnchored s id o (plan :: plans)) :
    (interfaceOf id o plan.1 plan.2).Anchored s.store s.symbols.imports := by
  have hplan := h.plans List.mem_cons_self
  obtain ⟨hmethods, hproperties, hevents⟩ := ObjectType.links_derived hplan
  refine ⟨?_, fun r hr => absurd hr List.not_mem_nil, ?_, ?_, ?_⟩
  · intro r hr
    rcases ObjectType.references_derived hplan hr with hold | hclass
    · exact h.references r hold
    · intro target htarget
      rw [← Option.some.inj (hclass.symm.trans htarget)]
      exact h.class_
  · exact fun link hl => absurd (hmethods ▸ hl) List.not_mem_nil
  · exact fun link hl => absurd (hproperties ▸ hl) List.not_mem_nil
  · exact fun link hl => absurd (hevents ▸ hl) List.not_mem_nil

theorem invariant_anchored : Invariant Anchored ClassAnchored where
  turn s id o hs ho hawaits :=
    ⟨List.Subset.refl _, (hs.store.objects o (Array.mem_of_getElem? ho)).references, o, ho,
      isClass_of_awaitsDerivation hawaits⟩
  step s s' id o plan plans hs hq hstep := by
    have hrest : plans ⊆ o.derivedRoles id := fun p hp => hq.plans (List.mem_cons_of_mem _ hp)
    cases hstep with
    | passed => exact ⟨hs, hrest, hq.references, hq.class_⟩
    | taken d => exact ⟨⟨hs.store, hs.table⟩, hrest, hq.references, hq.class_⟩
    | declared node block path free beside =>
      obtain ⟨-, hstructs, -, hdelegates⟩ := Builder.slots_declare s.store node block
        (Derivation.interfaceOf id o plan.1 plan.2).name
        (.object (Derivation.interfaceOf id o plan.1 plan.2))
      have hc := continues_withInterface s.store s.symbols.imports node block id
        s.store.objects.size plan.1 (Derivation.interfaceOf id o plan.1 plan.2)
      refine ⟨⟨⟨?_, ?_, ?_⟩, ?_⟩, hrest, fun r hr => (hq.references r hr).mono hc,
        hc.hasTarget hq.class_⟩
      · intro c' hc'
        obtain ⟨i, hi⟩ := Array.mem_iff_getElem?.1 hc'
        rw [getElem?_withInterface] at hi
        obtain ⟨c, hpushed, rfl⟩ := Option.map_eq_some_iff.1 hi
        have hanchored : c.Anchored s.store s.symbols.imports := by
          rw [Array.getElem?_push] at hpushed
          split at hpushed
          · exact Option.some.inj hpushed ▸ hq.interfaceOf
          · exact hs.store.objects c (Array.mem_of_getElem? hpushed)
        refine ObjectType.Anchored.mono ?_ hc
        split
        · exact anchored_recorded hanchored plan.1 _
        · exact hanchored
      · intro t ht f hf
        exact (hs.store.fields t (hstructs ▸ ht) f hf).mono hc
      · intro d hd r hr
        exact (hs.store.delegates d (hdelegates ▸ hd) r hr).mono hc
      · intro name σ hget
        rcases NameTable.get?_insert_cases hget with hold | ⟨-, rfl⟩
        · exact hc.hasSymbol (hs.table name σ hold)
        · refine ⟨if id = s.store.objects.size then recorded plan.1 s.store.objects.size
            (Derivation.interfaceOf id o plan.1 plan.2) else
            Derivation.interfaceOf id o plan.1 plan.2, ?_, ?_⟩
          · rw [getElem?_withInterface, Array.getElem?_push, if_pos rfl, Option.map_some]
          · split <;> rfl

theorem anchored_run (h : s.Anchored) : s.run.Anchored := invariant_anchored.slots h _

end Derivation

end ComponentIdl
