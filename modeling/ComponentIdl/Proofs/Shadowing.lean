import ComponentIdl.Proofs.Binding.Bound
import ComponentIdl.Proofs.Compile
import ComponentIdl.Proofs.Derivation.Step
import ComponentIdl.Proofs.Store.Similar

/-!
# Declarations, imports and one name for both

A declaration is found by its dotted name in the store. The name table agrees for everything that
was written, since it was there before the first look-up. A derived interface comes later: if a
reference was looked up under its name before and an import has that name, the table keeps the
import.
-/

namespace ComponentIdl

/-- No written declaration has the name, but some reference is looked up under it, and an imported
type has it. -/
def Workspace.TakenByImport (w : Workspace) (name : String) : Prop :=
  w.symbols.get? name = none ∧ name ∈ w.store.keys ∧ (w.symbols.import? name).isSome = true

theorem Store.sameHeaders_boundIn (st : Store) (t : NameTable) : st.SameHeaders (st.boundIn t) := by
  have hmap : ∀ {α β : Type} (f : α → α) (g : α → β) (hfg : ∀ a, g (f a) = g a) (as : Array α)
      (i : Nat), ((as.map f)[i]?).map g = (as[i]?).map g := by
    intro α β f g hfg as i
    rw [Array.getElem?_map, Option.map_map]
    exact Option.map_congr fun a _ => hfg a
  refine ⟨hmap (ObjectType.boundIn t) _ ?_ _, hmap (StructType.boundIn t) _ (fun _ => rfl) _,
    fun _ => rfl, hmap (DelegateType.boundIn t) _ (fun _ => rfl) _⟩
  intro o
  unfold label
  rw [o.isClass_boundIn t]
  rfl

namespace Workspace

/-- The workspace has the declarations of another one, found in the same places. -/
structure SamePlaces (w w' : Workspace) : Prop where
  headers : w.store.SameHeaders w'.store
  namespaces : w'.store.namespaces = w.store.namespaces

theorem samePlaces_analyzed (w : Workspace) : w.SamePlaces w.analyzed := by
  have hsimilar := (w.store.boundIn w.boundSymbols).similar_evaluateEnums.trans
    (w.store.boundIn w.boundSymbols).evaluateEnums.similar_withCycles
  rw [analyzed_eq]
  exact ⟨(w.store.sameHeaders_boundIn w.boundSymbols).trans hsimilar.sameHeaders,
    hsimilar.namespaces⟩

theorem samePlaces_checkMembers (w : Workspace) : w.SamePlaces w.checkMembers.1 :=
  ⟨(Store.similar_checkMembers w).sameHeaders, (Store.similar_checkMembers w).namespaces⟩

theorem SamePlaces.trans {w w' w'' : Workspace} (h : w.SamePlaces w') (h' : w'.SamePlaces w'') :
    w.SamePlaces w'' :=
  ⟨h.headers.trans h'.headers, h'.namespaces.trans h.namespaces⟩

theorem finished_samePlaces (w : Workspace) : ∃ checked, w.SamePlaces checked ∧
    checked.symbols = w.boundSymbols ∧ w.analyzed.finished =
      if w.settings.derivesInterfaces then checked.deriveInterfaces.1 else checked := by
  have hsettings : w.analyzed.settings = w.settings := rfl
  have hsymbols : w.analyzed.symbols = w.boundSymbols := by
    rw [analyzed_eq]
  unfold finished
  rw [hsettings]
  cases w.settings.validatesMembers with
  | true =>
    exact ⟨_, w.samePlaces_analyzed.trans w.analyzed.samePlaces_checkMembers, hsymbols, rfl⟩
  | false => exact ⟨_, w.samePlaces_analyzed, hsymbols, rfl⟩

end Workspace

/-- How a name table agrees with a store, given the declarations written in `w`: every declaration
has its entry unless an import has taken the name, and there are no other entries. -/
structure Agreement (w : Workspace) (st : Store) (symbols : NameTable) : Prop where
  registered : st.Registered
  shape : w.store.namespaces.SameShape st.namespaces
  segment : ∀ σ h, st.header? σ = some h → IsSegment h.name
  entry : ∀ σ h, st.header? σ = some h →
    w.TakenByImport h.dottedName ∨ symbols.get? h.dottedName = some σ
  imported : ∀ name, w.TakenByImport name →
    ∃ id kind, symbols.get? name = some (.imported id kind)
  table : ∀ name σ, symbols.get? name = some σ →
    (∃ h, st.header? σ = some h ∧ h.dottedName = name) ∨ w.TakenByImport name

variable {w : Workspace} {st : Store} {symbols : NameTable}

theorem Agreement.lookup (h : Agreement w st symbols) {σ : Symbol} {header : Header}
    (hσ : st.header? σ = some header) :
    st.lookup? header.dottedName = some σ ∧
      (symbols.get? header.dottedName = some σ ↔ ¬ w.TakenByImport header.dottedName) := by
  refine ⟨h.registered.lookup? hσ (h.segment σ header hσ), ?_, (h.entry σ header hσ).resolve_left⟩
  intro hget htaken
  obtain ⟨id, kind, himported⟩ := h.imported _ htaken
  rw [hget, Option.some.injEq] at himported
  subst himported
  simp [Store.header?] at hσ

theorem Workspace.takenByImport_of_get? {name : String}
    (hnone : w.symbols.get? name = none) {σ : Symbol}
    (hget : w.boundSymbols.get? name = some σ) : w.TakenByImport name := by
  have hsome := NameTable.isSome_get?_lookupAll w.symbols w.store.keys name
  have hleft : (w.symbols.lookupAll w.store.keys).get? name = some σ := hget
  rw [hleft, hnone] at hsome
  simp only [Option.isSome_some, Option.isSome_none, Bool.false_or] at hsome
  obtain ⟨hkeys, himport⟩ := Bool.and_eq_true_iff.1 hsome.symm
  exact ⟨hnone, List.contains_iff_mem.1 hkeys, himport⟩

theorem Workspace.Declared.agreement (hd : w.Declared)
    (hsegment : ∀ σ h, w.store.header? σ = some h → IsSegment h.name)
    (hentry : ∀ σ h, w.store.header? σ = some h → w.symbols.get? h.dottedName = some σ)
    {w' : Workspace} (hsame : w.SamePlaces w') : Agreement w w'.store w.boundSymbols := by
  have hheader := hsame.headers.header?
  constructor
  · exact hd.registered.of_sameHeaders hsame.headers hsame.namespaces
  · rw [hsame.namespaces]
    exact ⟨rfl, fun _ => rfl, fun _ => rfl, fun _ => rfl⟩
  · intro σ h hσ
    exact hsegment σ h (hheader σ ▸ hσ)
  · intro σ h hσ
    rw [hheader σ] at hσ
    exact Or.inr ((NameTable.grows_lookupAll w.symbols w.store.keys).get? (hentry σ h hσ))
  · rintro name ⟨hnone, hkeys, himport⟩
    have hsome : (w.boundSymbols.get? name).isSome = true := by
      unfold Workspace.boundSymbols
      rw [NameTable.isSome_get?_lookupAll, List.contains_iff_mem.2 hkeys, himport, Bool.true_and,
        Bool.or_true]
    obtain ⟨σ, hσ⟩ := Option.isSome_iff_exists.1 hsome
    rcases hd.entry hσ with ⟨header, hheader', rfl⟩ | ⟨-, id, imported, rfl, -, -⟩
    · rw [hentry σ header hheader'] at hnone
      simp at hnone
    · exact ⟨id, imported.kind, hσ⟩
  · intro name σ hget
    rcases hd.entry hget with ⟨header, hheader', rfl⟩ | ⟨hnone, -⟩
    · exact Or.inl ⟨header, (hheader σ).trans hheader', rfl⟩
    · exact Or.inr (Workspace.takenByImport_of_get? hnone hget)

namespace Derivation

theorem isSegment_interfaceNamed (role : DerivedRole) {name : String} (h : IsSegment name) :
    IsSegment (role.interfaceNamed name) := by
  constructor
  · intro hempty
    have hchars := congrArg String.toList hempty
    cases role <;> simp [DerivedRole.interfaceNamed, String.toList_append] at hchars
  · cases role <;> simp [DerivedRole.interfaceNamed, String.toList_append, h.2]

section WithInterface

variable (block : Nat) (id : ObjectId) (role : DerivedRole) {node : NamespaceId}
  {interface : ObjectType}

theorem agreement_withInterface (h : Agreement w st symbols) (hnode : node < st.namespaces.size)
    (hscope : st.namespaces.nameOf node = interface.scope)
    (hfree : st.namespaces.symbol? node interface.name = none)
    (hinterface : interface.isClass = false) (hname : IsSegment interface.name) :
    Agreement w (withInterface st node block id st.objects.size role interface)
      (symbols.insert interface.dottedName (.interface st.objects.size)) := by
  obtain ⟨hregistered, hheader⟩ :=
    registered_withInterface block id role h.registered hnode hscope hfree hinterface
  have hslot : st.header? (.interface st.objects.size) = none := by
    simp [Store.header?]
  -- An entry under the new name is that of an import.
  have htaken : ∀ σ, symbols.get? interface.dottedName = some σ →
      w.TakenByImport interface.dottedName := by
    intro σ hget
    refine (h.table _ σ hget).resolve_left ?_
    rintro ⟨old, hold, heq⟩
    have hne : old.dottedName ≠ interface.toHeader.dottedName :=
      h.registered.dottedName_ne hnode hscope hfree hname hold (h.segment σ old hold)
    exact hne heq
  refine ⟨hregistered, ?_, ?_, ?_, ?_, ?_⟩
  · exact h.shape.trans (st.sameShape_declare node block interface.name (.object interface))
  · intro σ header hσ
    rw [hheader] at hσ
    split at hσ
    · exact Option.some.inj hσ ▸ hname
    · exact h.segment σ header hσ
  · intro σ header hσ
    rw [hheader] at hσ
    split at hσ
    · next hnew =>
      obtain rfl : interface.toHeader = header := Option.some.inj hσ
      cases hget : symbols.get? interface.dottedName with
      | some old => exact Or.inl (htaken old hget)
      | none =>
        right
        rw [NameTable.get?_insert, if_pos rfl, hget, hnew]
        rfl
    · exact (h.entry σ header hσ).imp_right fun hget => NameTable.get?_insert_old hget _ _
  · intro name hname'
    obtain ⟨i, kind, hget⟩ := h.imported name hname'
    exact ⟨i, kind, NameTable.get?_insert_old hget _ _⟩
  · intro name σ hget
    rcases NameTable.get?_insert_cases hget with hold | ⟨rfl, rfl⟩
    · refine (h.table name σ hold).imp_left ?_
      rintro ⟨header, hheader', heq⟩
      refine ⟨header, ?_, heq⟩
      rw [hheader, if_neg, hheader']
      rintro rfl
      simp [hslot] at hheader'
    · refine Or.inl ⟨interface.toHeader, ?_, rfl⟩
      rw [hheader, if_pos rfl]

end WithInterface

theorem agreement_run {s : Derivation} (h : Agreement w s.store s.symbols) :
    Agreement w s.run.store s.run.symbols := by
  refine run_preserves (P := fun s => Agreement w s.store s.symbols)
    (Q := fun _ o => IsSegment o.name ∧
      ∃ n < w.store.namespaces.size, w.store.namespaces.nameOf n = o.scope) ?_ ?_ h
  · intro s id o hs ho hclass
    have hheader : s.store.header? (.runtimeClass id) = some o.toHeader := by
      simp [Store.header?, ho, hclass]
    obtain ⟨n, hn, hscope, -⟩ := hs.registered.complete _ _ hheader
    rw [hs.shape.size] at hn
    rw [hs.shape.nameOf] at hscope
    exact ⟨hs.segment _ _ hheader, n, hn, hscope⟩
  · rintro s s' id o plan hs ⟨hname, n, hn, hscope⟩ - hstep
    cases hstep with
    | passed => exact hs
    | taken d => exact hs
    | declared node block path free =>
      rw [← hs.shape.size] at hn
      rw [← hs.shape.nameOf] at hscope
      have hpath := hs.registered.tree.path?_nameOf hn
      rw [hscope, path] at hpath
      obtain rfl : node = n := Option.some.inj hpath
      exact agreement_withInterface block id plan.1 hs hn hscope free rfl
        (isSegment_interfaceNamed plan.1 hname)

end Derivation

/-- Every declaration of a compiled source file, derived or not, is found in the store by its dotted
name. The name table has it exactly if no import has taken that name. -/
theorem compile_lookup (settings : Settings) (catalog : Catalog) (u : Decl.Unit)
    (hnames : ∀ v ∈ u.visits, ∀ name, v.typeName? = some name → IsSegment name)
    {σ : Symbol} {header : Header}
    (hσ : (compile settings catalog u).store.header? σ = some header) :
    (compile settings catalog u).store.lookup? header.dottedName = some σ ∧
      ((compile settings catalog u).symbols.get? header.dottedName = some σ ↔
        ¬ (declared settings catalog u).TakenByImport header.dottedName) := by
  by_cases herrors : u.syntaxErrors = 0
  · have hd := declared_declared settings catalog u
    have hnamed := declared_named settings catalog u hnames
    obtain ⟨checked, hplaces, hsymbols, hfinished⟩ :=
      (declared settings catalog u).finished_samePlaces
    have hagreement : Agreement (declared settings catalog u) checked.store checked.symbols := by
      rw [hsymbols]
      exact hd.agreement hnamed.1 hnamed.2 hplaces
    rw [compile_eq_finished settings catalog u herrors] at hσ ⊢
    refine Agreement.lookup ?_ hσ
    rw [hfinished]
    split
    · exact Derivation.agreement_run (s := { store := checked.store, symbols := checked.symbols })
        hagreement
    · exact hagreement
  · rw [compile_syntaxErrors settings catalog u (Nat.pos_of_ne_zero herrors)] at hσ
    cases σ <;> simp [Store.header?, Workspace.ofCatalog] at hσ

/-- An imported interface with the name that the interface derived from the class `N.C` gets. -/
def outside : Catalog where
  types := [{ name := "N.IC", kind := .interface, underlying := none, source := "m" }]
  distinct := List.nodup_singleton _

/-- The class `N.C`, and a struct with a field of the imported type. -/
def crossed : Decl.Unit where
  syntaxErrors := 0
  blocks := [⟨"N", 1, [
    .type (.classDecl ⟨"C", 2, {}, [], [.method ⟨"M", 3, false, none, []⟩]⟩),
    .type (.structDecl ⟨"S", 4, [⟨"f", 5, "IC"⟩]⟩)]⟩]

theorem segments_crossed :
    ∀ v ∈ crossed.visits, ∀ name, v.typeName? = some name → IsSegment name := by
  have hnames : ∀ name ∈ crossed.visits.filterMap Visit.typeName?, IsSegment name := by
    decide +kernel
  exact fun v hv name hname => hnames name (List.mem_filterMap.2 ⟨v, hv, hname⟩)

theorem compile_lookup_crossed :
    (∀ v ∈ crossed.visits, ∀ name, v.typeName? = some name → IsSegment name) ∧
      (compile {} outside crossed).store.header? (.runtimeClass 0) = some ⟨"C", "N", 2, "default"⟩ ∧
      (compile {} outside crossed).store.lookup? "N.C" = some (.runtimeClass 0) ∧
      (compile {} outside crossed).symbols.get? "N.C" = some (.runtimeClass 0) := by
  have hσ : (compile {} outside crossed).store.header? (.runtimeClass 0) =
      some ⟨"C", "N", 2, "default"⟩ := by decide +kernel
  have hname : Header.dottedName ⟨"C", "N", 2, "default"⟩ = "N.C" := by decide +kernel
  obtain ⟨hlookup, hentry⟩ := compile_lookup {} outside crossed segments_crossed hσ
  rw [hname] at hlookup hentry
  refine ⟨segments_crossed, hσ, hlookup, hentry.2 ?_⟩
  rintro ⟨hnone, -, -⟩
  have hsome : ((declared {} outside crossed).symbols.get? "N.C").isSome = true := by decide +kernel
  rw [hnone] at hsome
  simp at hsome

/-- The derived interface is in the store under its name, and the table still has the import. -/
theorem derived_interface_hidden :
    (∀ v ∈ crossed.visits, ∀ name, v.typeName? = some name → IsSegment name) ∧
      (compile {} outside crossed).report.entries = [] ∧
      (compile {} outside crossed).store.header? (.interface 1) = some ⟨"IC", "N", 2, "default"⟩ ∧
      Header.dottedName ⟨"IC", "N", 2, "default"⟩ = "N.IC" ∧
      (compile {} outside crossed).store.lookup? "N.IC" = some (.interface 1) ∧
      (compile {} outside crossed).symbols.get? "N.IC" = some (.imported 0 .interface) :=
  ⟨segments_crossed, by decide +kernel, by decide +kernel, by decide +kernel, by decide +kernel,
    by decide +kernel⟩

end ComponentIdl
