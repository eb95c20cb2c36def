import ComponentIdl.Proofs.Derivation.Step
import ComponentIdl.Proofs.NameTable.History
import ComponentIdl.Proofs.Reached
import ComponentIdl.Proofs.Shadowing

/-!
# A symbol has one name

A declaration enters the name table once, under its own dotted name, and an import under the name that
it was looked up by. A slot is given out once. So the name of an entry can be read off what it stands
for, in every workspace that is reached, and no symbol is stored under two names.
-/

namespace ComponentIdl

/-- Every entry of the table stands for the declaration, or for the import, of its name. -/
structure Store.Titles (st : Store) (t : NameTable) : Prop where
  declared : ∀ name σ, t.get? name = some σ → σ.isLocal = true →
    ∃ h, st.header? σ = some h ∧ h.dottedName = name
  imported : t.Numbered

theorem Symbol.eq_of_target {σ σ' : Symbol} (hlocal : σ.isLocal = true)
    (htarget : σ'.target = σ.target) : σ' = σ := by
  cases σ <;> cases σ' <;> simp_all [Symbol.target, Symbol.isLocal]

theorem Symbol.exists_imported {σ : Symbol} (h : σ.isLocal = false) :
    ∃ id kind, σ = .imported id kind := by
  cases σ with
  | imported id kind => exact ⟨id, kind, rfl⟩
  | _ => exact nomatch h

namespace Store

variable {st st' : Store} {t : NameTable} {name name' : String} {σ σ' : Symbol}

theorem isLocal_nextSymbol (st : Store) (e : Entity) : (st.nextSymbol e).isLocal = true := by
  cases e with
  | object o => cases hc : o.isClass <;> simp [nextSymbol, hc, Symbol.isLocal]
  | _ => rfl

/-- Two entries with one target have one name: imports differ in kind only if they differ in name. -/
theorem Titles.name_eq (h : st.Titles t) (hσ : t.get? name = some σ) (hσ' : t.get? name' = some σ')
    (htarget : σ'.target = σ.target) : name = name' := by
  cases hlocal : σ.isLocal with
  | true =>
    obtain rfl := Symbol.eq_of_target hlocal htarget
    obtain ⟨header, hheader, rfl⟩ := h.declared name _ hσ hlocal
    obtain ⟨header', hheader', rfl⟩ := h.declared name' _ hσ' hlocal
    rw [Option.some.inj (hheader.symm.trans hheader')]
  | false =>
    obtain ⟨id, kind, rfl⟩ := Symbol.exists_imported hlocal
    have hlocal' : σ'.isLocal = false := by
      cases hσlocal : σ'.isLocal with
      | false => rfl
      | true => exact absurd (Symbol.eq_of_target hσlocal htarget.symm ▸ hσlocal) (by simp [hlocal])
    obtain ⟨id', kind', rfl⟩ := Symbol.exists_imported hlocal'
    obtain rfl : id' = id := Target.imported.inj htarget
    obtain ⟨i, hi, rfl, -⟩ := h.imported name id' kind hσ
    obtain ⟨i', hi', rfl, -⟩ := h.imported name' id' kind' hσ'
    rw [Option.some.inj (hi.symm.trans hi')]

theorem titles_ofCatalog (st : Store) (catalog : Catalog) : st.Titles (.ofCatalog catalog) :=
  ⟨fun _ _ hget => absurd hget (by simp [NameTable.ofCatalog, NameTable.get?, NameMap.get?]),
    NameTable.numbered_ofCatalog catalog⟩

theorem Titles.of_sameHeaders (h : st.Titles t) (hs : st.SameHeaders st') : st'.Titles t := by
  refine ⟨fun name σ hget hlocal => ?_, h.imported⟩
  obtain ⟨header, hheader, hname⟩ := h.declared name σ hget hlocal
  exact ⟨header, (hs.header? σ).trans hheader, hname⟩

/-- A new declaration enters the table under its own name. -/
theorem Titles.insert {e : Entity} (h : st.Titles t)
    (hheader : ∀ σ, st'.header? σ = if σ = st.nextSymbol e then some e.header else st.header? σ) :
    st'.Titles (t.insert e.header.dottedName (st.nextSymbol e)) := by
  refine ⟨fun name σ hget hlocal => ?_, h.imported.insert (st.isLocal_nextSymbol e) _⟩
  rcases NameTable.get?_insert_cases hget with hold | ⟨rfl, rfl⟩
  · obtain ⟨header, hold, hname⟩ := h.declared name σ hold hlocal
    -- The slot of the new declaration is one that nothing had before.
    have hne : σ ≠ st.nextSymbol e := by
      rintro rfl
      rw [header?_nextSymbol] at hold
      exact nomatch hold
    exact ⟨header, by rw [hheader, if_neg hne, hold], hname⟩
  · exact ⟨e.header, by rw [hheader, if_pos rfl], rfl⟩

theorem Titles.lookup (h : st.Titles t) (key : String) : st.Titles (t.lookup key).2 := by
  refine ⟨fun name σ hget hlocal => ?_, h.imported.lookup key⟩
  rcases NameTable.entry_call (c := .lookup key) hget with hold | hcall | himport
  · exact h.declared name σ hold hlocal
  · exact nomatch hcall
  · exact absurd (hlocal.symm.trans himport) (by simp)

theorem Titles.lookupAll (h : st.Titles t) (keys : List String) : st.Titles (t.lookupAll keys) := by
  induction keys generalizing t with
  | nil => exact h
  | cons key keys ih => exact ih (h.lookup key)

end Store

theorem Builder.titles_run {b : Builder} (h : b.store.Titles b.symbols) (visits : List Visit) :
    (b.run visits).store.Titles (b.run visits).symbols := by
  refine run_preserves (P := fun b => b.store.Titles b.symbols) visits ?_ h
  intro v _ b hb
  rcases (step_visit b v).header_cases with ⟨hsame, -, hsymbols, -⟩ | ⟨d, hd⟩ | ⟨_, block, e, hd⟩
  · rw [hsymbols]
    exact hb.of_sameHeaders hsame
  · rw [hd, symbols_openBlock]
    exact hb.of_sameHeaders (b.sameHeaders_openBlock d)
  · rw [hd.store, hd.symbols]
    exact hb.insert (Store.header?_declare block hd.free)

theorem Derivation.titles_run {s : Derivation} (h : s.store.Titles s.symbols) :
    s.run.store.Titles s.run.symbols := by
  refine run_preserves (P := fun s => s.store.Titles s.symbols) (Q := fun _ _ => True)
    (fun _ _ _ _ _ _ => trivial) ?_ h
  intro s s' id o plan hs _ _ hstep
  cases hstep with
  | passed => exact hs
  | taken d => exact hs
  | declared node block path free beside =>
    have hinsert := hs.insert (e := .object (interfaceOf id o plan.1 plan.2))
      (Store.header?_declare block free)
    exact hinsert.of_sameHeaders (sameHeaders_withInterface _ node block id _ plan.1 _)

namespace Workspace

theorem invariant_titles : Invariant fun w => w.store.Titles w.symbols where
  build w visits h := Builder.titles_run (b := w.builder) h visits
  bindReferences w h := by
    rw [w.bindReferences_eq]
    exact (h.lookupAll w.store.keys).of_sameHeaders (w.store.sameHeaders_boundIn _)
  evaluateEnums w h := h.of_sameHeaders w.store.similar_evaluateEnums.sameHeaders
  findCycles w h := h.of_sameHeaders w.store.similar_withCycles.sameHeaders
  checkMembers w h := h.of_sameHeaders (Store.similar_checkMembers w).sameHeaders
  deriveInterfaces w h :=
    Derivation.titles_run (s := { store := w.store, symbols := w.symbols }) h

theorem titles_reached (settings : Settings) (catalog : Catalog) (stages : List Stage) :
    (reached settings catalog stages).store.Titles (reached settings catalog stages).symbols :=
  invariant_titles.reached (P := fun w => w.store.Titles w.symbols)
    (Store.titles_ofCatalog {} catalog) stages

end Workspace

end ComponentIdl
