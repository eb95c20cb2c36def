import ComponentIdl.Proofs.Binding.Exact
import ComponentIdl.Proofs.Builder.Handles
import ComponentIdl.Proofs.Builder.Reordering
import ComponentIdl.Proofs.Store.Outcomes

/-!
# References of declarations in another order

Two workspaces have the same declarations under the same names, but in other slots. A name that is
looked up then stands for the same declaration in both, or for the same import; so each reference is
bound to what is the same but for its slot, and the same is reported of it.
-/

namespace ComponentIdl

theorem ObjectType.reference_sites {o : ObjectType} {s : Site} (h : s ∈ o.sites) :
    s.reference ∈ o.requires ∨ s.reference ∈ o.references := by
  unfold ObjectType.sites Method.sites Constructor.sites at h
  simp only [List.mem_append, List.mem_map, List.mem_flatMap] at h
  rw [mem_references]
  rcases h with (((⟨r, hr, rfl⟩ | ⟨m, hm, r, hr, rfl⟩) | ⟨p, hp, rfl⟩) | ⟨e, he, rfl⟩) |
    ⟨c, hc, p, hp, rfl⟩
  · exact Or.inl hr
  · exact Or.inr (Or.inl ⟨m, hm, hr⟩)
  · exact Or.inr (Or.inr (Or.inl ⟨p, hp, rfl⟩))
  · exact Or.inr (Or.inr (Or.inr (Or.inl ⟨e, he, rfl⟩)))
  · exact Or.inr (Or.inr (Or.inr (Or.inr ⟨c, hc, p, hp, rfl⟩)))

namespace Workspace

variable {w w' : Workspace} {σ σ' : Symbol} {e e' : Entity} {key : String} {s : Site}

/-- What declarations leave if all their names are segments. -/
structure Named (w : Workspace) : Prop where
  declared : w.Declared
  entry : ∀ σ h, w.store.header? σ = some h → w.symbols.get? h.dottedName = some σ
  slotless : w.builder.Slotless

theorem Named.unique (h : w.Named) (hσ : w.store.Holds σ e) (hσ' : w.store.Holds σ' e')
    (heq : e.header.dottedName = e'.header.dottedName) : σ = σ' := by
  have hentry := h.entry σ e.header hσ.header?
  rw [heq, h.entry σ' e'.header hσ'.header?] at hentry
  exact (Option.some.inj hentry).symm

/-- Before anything is looked up, what is bound is bound to a built-in type. -/
theorem Named.slotless_site (h : w.Named) (hs : s ∈ w.store.sites) : s.reference.Slotless := by
  unfold Store.sites at hs
  simp only [List.mem_append, List.mem_flatMap, Array.mem_toList_iff] at hs
  rcases hs with (⟨o, ho, hs⟩ | ⟨t, ht, hs⟩) | ⟨d, hd, hs⟩
  · rcases ObjectType.reference_sites hs with hr | hr
    · have hunbound := (h.declared.fresh o ho).requires _ hr
      intro target htarget
      simp [Reference.isBound, htarget] at hunbound
    · exact h.slotless.objects o ho _ hr
  · obtain ⟨f, hf, rfl⟩ := List.mem_map.1 hs
    exact h.slotless.fields t ht f hf
  · obtain ⟨r, hr, rfl⟩ := List.mem_map.1 hs
    exact h.slotless.delegates d hd r hr

/-- Two workspaces with the same declarations under the same names. -/
structure Reordered (w w' : Workspace) : Prop where
  left : w.Named
  right : w'.Named
  catalog : w'.symbols.catalog = w.symbols.catalog
  tabled : ∀ key, w'.builder.tabled? key = w.builder.tabled? key
  entities : w.store.entities.Perm w'.store.entities
  report : w.report.entries.Perm w'.report.entries

theorem Reordered.symm (h : w.Reordered w') : w'.Reordered w :=
  ⟨h.right, h.left, h.catalog.symm, fun key => (h.tabled key).symm, h.entities.symm, h.report.symm⟩

/-- What is declared in the one is declared in the other. -/
theorem Reordered.fellow (h : w.Reordered w') (hσ : w.store.Holds σ e) :
    ∃ σ', w'.store.Holds σ' e :=
  Store.mem_entities.1 (h.entities.mem_iff.1 (Store.mem_entities.2 ⟨σ, hσ⟩))

/-- Two symbols for the same declaration, or for the same import. -/
inductive Corresponds (w w' : Workspace) : Symbol → Symbol → Prop where
  | declared {σ σ' : Symbol} {e : Entity} (h : w.store.Holds σ e) (h' : w'.store.Holds σ' e) :
      Corresponds w w' σ σ'
  | imported {id id' : ImportId} {i : Import} (h : w.boundSymbols.imports[id]? = some i)
      (h' : w'.boundSymbols.imports[id']? = some i) :
      Corresponds w w' (.imported id i.kind) (.imported id' i.kind)

theorem Corresponds.isInterface (h : w.Corresponds w' σ σ') : σ'.isInterface = σ.isInterface := by
  cases h with
  | declared h h' => rw [h.isInterface, h'.isInterface]
  | @imported _ _ i _ _ => cases i.kind <;> rfl

theorem Corresponds.isDelegate (h : w.Corresponds w' σ σ') : σ'.isDelegate = σ.isDelegate := by
  cases h with
  | declared h h' => rw [h.isDelegate, h'.isDelegate]
  | @imported _ _ i _ _ => cases i.kind <;> rfl

theorem Declared.tabled (h : w.Declared) (hget : w.symbols.get? key = some σ) :
    ∃ e, w.store.Holds σ e := by
  obtain ⟨header, hheader, -⟩ := h.table key σ hget
  obtain ⟨e, he, -⟩ := Store.holds_of_header? hheader
  exact ⟨e, he⟩

theorem tabled?_eq (hget : w.symbols.get? key = some σ) (hσ : w.store.Holds σ e) :
    w.builder.tabled? key = some e := by
  unfold Builder.tabled?
  rw [show w.builder.symbols.get? key = some σ from hget]
  exact Store.holds_iff.1 hσ

theorem Declared.tabled?_eq_none (h : w.Declared) :
    w.builder.tabled? key = none ↔ w.symbols.get? key = none := by
  cases hget : w.symbols.get? key with
  | none =>
    unfold Builder.tabled?
    rw [show w.builder.symbols.get? key = none from hget]
    simp
  | some σ =>
    obtain ⟨e, he⟩ := h.tabled hget
    simp [tabled?_eq hget he]

/-- A name that stands for nothing at first stands for its import once it is looked up. -/
theorem boundSymbols_get?_new (hget : w.symbols.get? key = none) (hk : key ∈ w.store.keys) :
    (w.symbols.import? key = none ∧ w.boundSymbols.get? key = none) ∨
      ∃ i id, w.symbols.import? key = some i ∧ w.boundSymbols.imports[id]? = some i ∧
        w.boundSymbols.get? key = some (.imported id i.kind) := by
  have hsome := NameTable.isSome_get?_lookupAll w.symbols w.store.keys key
  rw [hget, List.contains_iff_mem.2 hk] at hsome
  cases hafter : w.boundSymbols.get? key with
  | none =>
    rw [show (w.symbols.lookupAll w.store.keys).get? key = none from hafter] at hsome
    cases hi : w.symbols.import? key with
    | none => exact Or.inl ⟨rfl, rfl⟩
    | some i => simp [hi] at hsome
  | some σ =>
    rcases NameTable.entry_lookupAll w.store.keys hafter with hold | ⟨-, id, i, rfl, hi, himport⟩
    · simp [hget] at hold
    · rw [NameTable.import?_lookupAll] at himport
      exact Or.inr ⟨i, id, himport, hi, rfl⟩

theorem Reordered.lookup (h : w.Reordered w') (hk : key ∈ w.store.keys)
    (hk' : key ∈ w'.store.keys) :
    Option.Rel (w.Corresponds w') (w.boundSymbols.get? key) (w'.boundSymbols.get? key) := by
  have htabled := h.tabled key
  cases hget : w.symbols.get? key with
  | some σ =>
    obtain ⟨e, he⟩ := h.left.declared.tabled hget
    rw [tabled?_eq hget he] at htabled
    obtain ⟨σ', hget', he'⟩ := Option.bind_eq_some_iff.1 htabled
    have hafter : w.boundSymbols.get? key = some σ :=
      (NameTable.grows_lookupAll w.symbols w.store.keys).get? hget
    have hafter' : w'.boundSymbols.get? key = some σ' :=
      (NameTable.grows_lookupAll w'.symbols w'.store.keys).get? hget'
    rw [hafter, hafter']
    exact .some (.declared he (Store.holds_iff.2 he'))
  | none =>
    rw [h.left.declared.tabled?_eq_none.2 hget, h.right.declared.tabled?_eq_none] at htabled
    have himport : w'.symbols.import? key = w.symbols.import? key := by
      unfold NameTable.import?
      rw [h.catalog]
    rcases boundSymbols_get?_new hget hk with ⟨hi, hafter⟩ | ⟨i, id, hi, hslot, hafter⟩
    · rcases boundSymbols_get?_new htabled hk' with ⟨-, hafter'⟩ | ⟨i', id', hi', -, -⟩
      · rw [hafter, hafter']
        exact .none
      · simp [himport, hi] at hi'
    · rcases boundSymbols_get?_new htabled hk' with ⟨hi', -⟩ | ⟨i', id', hi', hslot', hafter'⟩
      · simp [himport, hi] at hi'
      · obtain rfl : i = i' := Option.some.inj ((hi.symm.trans himport.symm).trans hi')
        rw [hafter, hafter']
        exact .some (.imported hslot hslot')

theorem Reordered.mem_sites (h : w.Reordered w') (hs : s ∈ w.store.sites) : s ∈ w'.store.sites := by
  rw [Store.sites_eq] at hs ⊢
  obtain ⟨e, he, hs⟩ := List.mem_flatMap.1 hs
  exact List.mem_flatMap.2 ⟨e, h.entities.mem_iff.1 he, hs⟩

theorem Reordered.lookup_site (h : w.Reordered w') (hs : s ∈ w.store.sites)
    (hb : s.reference.isBound = false) :
    Option.Rel (w.Corresponds w') (w.boundSymbols.get? s.key) (w'.boundSymbols.get? s.key) := by
  have hkey : ∀ {w : Workspace}, s ∈ w.store.sites → s.key ∈ w.store.keys := by
    intro w hs
    rw [Store.keys_eq]
    exact List.mem_flatMap_of_mem hs (Site.mem_keys hb)
  exact h.lookup (hkey hs) (hkey (h.mem_sites hs))

theorem Reordered.faults (h : w.Reordered w') (hs : s ∈ w.store.sites) :
    s.faults w.boundSymbols = s.faults w'.boundSymbols := by
  cases hb : s.reference.isBound with
  | true =>
    unfold Site.faults
    cases s.role <;> simp [Reference.faults, Reference.requiredFaults, Site.misfit, hb]
  | false =>
    have hlookup := h.lookup_site hs hb
    unfold Site.key at hlookup
    unfold Site.faults Reference.faults Reference.requiredFaults Site.misfit Site.key
    generalize w.boundSymbols.get? (absoluteName s.scope s.reference.text) = found at hlookup ⊢
    generalize w'.boundSymbols.get? (absoluteName s.scope s.reference.text) = found' at hlookup ⊢
    cases hlookup with
    | none => rfl
    | some hσ =>
      simp only [Option.any_some, Option.isSome_some, hσ.isInterface, hσ.isDelegate]

theorem Reordered.bindingFaults (h : w.Reordered w') :
    (w.store.bindingFaults w.boundSymbols).Perm (w'.store.bindingFaults w'.boundSymbols) := by
  rw [Store.bindingFaults_entities, Store.bindingFaults_entities]
  have hsame : w.store.entities.flatMap (fun e => e.sites.flatMap (Site.faults w.boundSymbols)) =
      w.store.entities.flatMap fun e => e.sites.flatMap (Site.faults w'.boundSymbols) := by
    refine List.flatMap_congr fun e he => List.flatMap_congr fun s hs => h.faults ?_
    rw [Store.sites_eq]
    exact List.mem_flatMap_of_mem he hs
  rw [hsame]
  exact h.entities.flatMap_right _

/-- Two targets that are the same but for their slots. -/
inductive Agrees (w w' : Workspace) : Target → Target → Prop where
  | builtin {target : Target} (h : target.isBuiltin = true) : Agrees w w' target target
  | symbol {σ σ' : Symbol} (h : w.Corresponds w' σ σ') : Agrees w w' σ.target σ'.target

theorem Reordered.target (h : w.Reordered w') (hs : s ∈ w.store.sites) :
    Option.Rel (w.Agrees w') (s.boundIn w.boundSymbols).reference.target
      (s.boundIn w'.boundSymbols).reference.target := by
  cases hb : s.reference.isBound with
  | true =>
    rw [Site.reference_boundIn_old _ hb, Site.reference_boundIn_old _ hb]
    obtain ⟨target, htarget⟩ := Option.isSome_iff_exists.1 hb
    rw [htarget]
    exact .some (.builtin (h.left.slotless_site hs target htarget))
  | false =>
    rw [Site.target_boundIn hb, Site.target_boundIn hb]
    have hlookup := h.lookup_site hs hb
    generalize w.boundSymbols.get? s.key = found at hlookup ⊢
    generalize w'.boundSymbols.get? s.key = found' at hlookup ⊢
    cases hlookup with
    | none => exact .none
    | some hσ =>
      rw [Option.bind_some, Option.bind_some, hσ.isInterface]
      split
      · exact .none
      · exact .some (.symbol hσ)

theorem Reordered.target_some (h : w.Reordered w') (hs : s ∈ w.store.sites) {target : Target}
    (htarget : (s.boundIn w.boundSymbols).reference.target = some target) :
    ∃ target', (s.boundIn w'.boundSymbols).reference.target = some target' ∧
      w.Agrees w' target target' := by
  have hrel := h.target hs
  rw [htarget] at hrel
  generalize (s.boundIn w'.boundSymbols).reference.target = target' at hrel ⊢
  cases hrel with
  | some hagrees => exact ⟨_, rfl, hagrees⟩

end Workspace

end ComponentIdl
