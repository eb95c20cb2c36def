import ComponentIdl.Proofs.Accessors
import ComponentIdl.Proofs.Builder.Handles
import ComponentIdl.Proofs.Conflict.Handles
import ComponentIdl.Proofs.Derivation.Descent
import ComponentIdl.Proofs.Derivation.Handles

/-!
# No handle is left dangling

Targets, symbols, positions, links and slots of derived interfaces are plain numbers, written by
different passes at different times. Nothing that a number may name is ever removed or changes its
kind, so in every workspace that is reached all of them lead to what they say.
-/

namespace ComponentIdl

/-- Every handle of a workspace leads to something that is there and is of its kind. -/
structure Workspace.Leads (w : Workspace) : Prop where
  references : ∀ o ∈ w.store.objects, ∀ r ∈ o.references, ∀ target, r.target = some target →
    w.store.HasTarget w.symbols.imports target
  fields : ∀ s ∈ w.store.structs, ∀ f ∈ s.fields, ∀ target, f.type.target = some target →
    w.store.HasTarget w.symbols.imports target
  delegates : ∀ d ∈ w.store.delegates, ∀ r ∈ d.references, ∀ target, r.target = some target →
    w.store.HasTarget w.symbols.imports target
  requires : ∀ o ∈ w.store.objects, ∀ r ∈ o.requires, ∀ target, r.target = some target →
    w.store.IsInterface w.symbols.imports target
  symbols : ∀ name σ, w.symbols.get? name = some σ → w.store.HasSymbol w.symbols.imports σ
  accessors : ∀ o ∈ w.store.objects, ∀ place i, o.accessorAt? place = some i → i < o.methods.length
  methods : ∀ o ∈ w.store.objects, ∀ m ∈ o.methods, ∀ link, m.overrides = some link →
    w.store.HasMethod link
  properties : ∀ o ∈ w.store.objects, ∀ p ∈ o.properties, ∀ link, p.overrides = some link →
    w.store.HasProperty link
  events : ∀ o ∈ w.store.objects, ∀ e ∈ o.events, ∀ link, e.overrides = some link →
    w.store.HasEvent link
  derived : w.store.DerivedMatch

/-- Handles lead somewhere, as to declarations and name table; accessors are in order. -/
structure Workspace.Anchored (w : Workspace) : Prop where
  store : w.store.Anchored w.symbols.imports
  table : ∀ name σ, w.symbols.get? name = some σ → w.store.HasSymbol w.symbols.imports σ
  wired : ∀ o ∈ w.store.objects, o.Wired

namespace Workspace

variable {w : Workspace}

theorem continues_boundIn (st : Store) (imports : Array Import) (t : NameTable) :
    st.Continues imports (st.boundIn t) imports := by
  refine ⟨?_, Nat.le_of_eq Array.size_map.symm, Nat.le_refl _, Nat.le_of_eq Array.size_map.symm,
    fun _ _ hi => hi⟩
  intro i o ho
  refine ⟨o.boundIn t, ?_, o.continues_boundIn t⟩
  show (st.objects.map _)[i]? = _
  rw [Array.getElem?_map, ho, Option.map_some]

theorem continues_lookupAll (st : Store) (t : NameTable) (keys : List String) :
    st.Continues t.imports st (t.lookupAll keys).imports :=
  ⟨fun _ o ho => ⟨o, ho, .refl o⟩, Nat.le_refl _, Nat.le_refl _, Nat.le_refl _,
    fun _ _ hi => NameTable.imports_lookupAll keys hi⟩

theorem Anchored.bind (h : w.Anchored) : w.bindReferences.1.Anchored := by
  have hlookup := continues_lookupAll w.store w.symbols w.store.keys
  have htable : ∀ name σ, (w.symbols.lookupAll w.store.keys).get? name = some σ →
      w.store.HasSymbol (w.symbols.lookupAll w.store.keys).imports σ := by
    intro name σ hget
    rcases NameTable.entry_lookupAll w.store.keys hget with hold | ⟨-, id, i, rfl, hi, -⟩
    · exact hlookup.hasSymbol (h.table name σ hold)
    · exact ⟨i, hi, rfl⟩
  have hanchored : w.store.Anchored (w.symbols.lookupAll w.store.keys).imports :=
    ⟨fun o ho => (h.store.objects o ho).mono hlookup,
      fun s hs f hf => (h.store.fields s hs f hf).mono hlookup,
      fun d hd r hr => (h.store.delegates d hd r hr).mono hlookup⟩
  have hbound := continues_boundIn w.store (w.symbols.lookupAll w.store.keys).imports
    (w.symbols.lookupAll w.store.keys)
  refine ⟨?_, ?_, invariant_wired.bindReferences w h.wired⟩
  · rw [w.bindReferences_eq]
    exact hanchored.boundIn htable hbound
  · rw [w.bindReferences_eq]
    exact fun name σ hget => hbound.hasSymbol (htable name σ hget)

/-- An analysis fills in what is no handle. -/
theorem Anchored.similar (h : w.Anchored) {st' : Store} (hs : w.store.Similar st')
    (hlinks : ∀ (i : ObjectId) o o', w.store.objects[i]? = some o → st'.objects[i]? = some o' →
      o.SameLinks o') : Anchored { w with store := st' } :=
  ⟨h.store.of_similar hs hlinks,
    fun name σ hget => (Store.continues_of_similar _ hs).hasSymbol (h.table name σ hget),
    wired_of_similar h.wired hs⟩

theorem invariant_anchored : Invariant Anchored where
  build w visits h := by
    have hb := Builder.Anchored.run (b := w.builder) ⟨h.store, h.table⟩ visits
    exact ⟨hb.store, hb.table, invariant_wired.build w visits h.wired⟩
  bindReferences w h := h.bind
  evaluateEnums w h := by
    have hsame := h.similar w.store.similar_evaluateEnums fun i o o' ho ho' => by
      obtain rfl : o = o' := Option.some.inj (ho.symm.trans ho')
      exact ⟨rfl, rfl, rfl⟩
    exact ⟨hsame.store, hsame.table, hsame.wired⟩
  findCycles w h := by
    have hsame := h.similar w.store.similar_withCycles fun i o o' ho ho' => by
      unfold Store.withCycles at ho'
      rw [Array.getElem?_mapIdx, ho, Option.map_some] at ho'
      rw [← Option.some.inj ho']
      exact ⟨rfl, rfl, rfl⟩
    exact ⟨hsame.store, hsame.table, hsame.wired⟩
  checkMembers w h := by
    have hc := Store.continues_of_similar w.symbols.imports (Store.similar_checkMembers w)
    exact ⟨anchored_checkMembers h.wired h.store,
      fun name σ hget => hc.hasSymbol (h.table name σ hget),
      invariant_wired.checkMembers w h.wired⟩
  deriveInterfaces w h := by
    have hd := Derivation.anchored_run (s := { store := w.store, symbols := w.symbols })
      ⟨h.store, h.table⟩
    exact ⟨hd.store, hd.table, invariant_wired.deriveInterfaces w h.wired⟩

theorem anchored_ofCatalog (settings : Settings) (catalog : Catalog) :
    (ofCatalog settings catalog).Anchored := by
  refine ⟨⟨?_, ?_, ?_⟩, ?_, ?_⟩
  · exact fun o ho => absurd ho (Array.not_mem_empty o)
  · exact fun s hs => absurd hs (Array.not_mem_empty s)
  · exact fun d hd => absurd hd (Array.not_mem_empty d)
  · intro name σ hget
    have hnone : (ofCatalog settings catalog).symbols.get? name = none := rfl
    exact absurd (hnone.symm.trans hget) (by simp)
  · exact fun o ho => absurd ho (Array.not_mem_empty o)

theorem derivedMatch_empty : Store.DerivedMatch {} :=
  ⟨fun _ _ _ _ hc => absurd hc (by simp), fun _ _ _ ho => absurd ho (by simp)⟩

theorem Anchored.leads (h : w.Anchored) (hd : w.store.DerivedMatch) : w.Leads where
  references o ho r hr := (h.store.objects o ho).references r hr
  fields s hs f hf := h.store.fields s hs f hf
  delegates d hd r hr := h.store.delegates d hd r hr
  requires o ho r hr := (h.store.objects o ho).requires r hr
  symbols := h.table
  accessors o ho place i hplace := by
    rcases (h.wired o ho).accessorAt? hplace with
      ⟨-, -, -, m, -, -, hm, -⟩ | ⟨-, -, -, m, -, -, hm, -⟩
    · exact (List.getElem?_eq_some_iff.1 hm).1
    · exact (List.getElem?_eq_some_iff.1 hm).1
  methods o ho m hm link hlink :=
    (h.store.objects o ho).methods link (List.mem_filterMap.2 ⟨m, hm, hlink⟩)
  properties o ho p hp link hlink :=
    (h.store.objects o ho).properties link (List.mem_filterMap.2 ⟨p, hp, hlink⟩)
  events o ho e he link hlink :=
    (h.store.objects o ho).events link (List.mem_filterMap.2 ⟨e, he, hlink⟩)
  derived := hd

/-- In every workspace that is reached, every handle leads to what it says. -/
theorem leads_reached (settings : Settings) (catalog : Catalog) (stages : List Stage) :
    (reached settings catalog stages).Leads := by
  have hanchored := invariant_anchored.reached (anchored_ofCatalog settings catalog) stages
  have hderived : (reached settings catalog stages).store.DerivedMatch :=
    invariant_derivedMatch.reached (P := fun w => w.store.DerivedMatch) derivedMatch_empty stages
  exact hanchored.leads hderived

end Workspace

end ComponentIdl
