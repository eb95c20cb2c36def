import ComponentIdl.Proofs.Reordering.Cycles

/-!
# The order of declarations does not matter

A reference may stand before or after what it names. So two neighbours in a namespace block can change
places: slots of declarations and imports are numbered otherwise, and diagnostics come in another
order, but apart from this the compilation is the same, as long as members are not checked and no
interfaces are derived.
-/

namespace ComponentIdl

/-- Two neighbouring declarations of different names have changed places. -/
structure Decl.Unit.Reorders (u u' : Decl.Unit) : Prop where
  items : Decl.Within Decl.Reorders u.items u'.items
  syntaxErrors : u'.syntaxErrors = u.syntaxErrors

/-- The same target: a primitive type, the type of all objects, a declaration of the same kind and
dotted name, or an import of the same name. -/
inductive Target.Same (w w' : Workspace) : Target → Target → Prop where
  | primitive (p : Primitive) : Same w w' (.primitive p) (.primitive p)
  | object : Same w w' .object .object
  | declared {σ σ' : Symbol} {e e' : Entity} (h : w.store.Holds σ e) (h' : w'.store.Holds σ' e')
      (hkind : e'.keyword = e.keyword) (hname : e'.header.dottedName = e.header.dottedName) :
      Same w w' σ.target σ'.target
  | imported {id id' : ImportId} {i i' : Import} (h : w.symbols.imports[id]? = some i)
      (h' : w'.symbols.imports[id']? = some i') (hname : i'.name = i.name) :
      Same w w' (.imported id) (.imported id')

/-- The same reference in the same place, bound in neither workspace or bound to the same target. -/
structure Site.Same (w w' : Workspace) (s s' : Site) : Prop where
  scope : s'.scope = s.scope
  line : s'.line = s.line
  role : s'.role = s.role
  text : s'.reference.text = s.reference.text
  target : Option.Rel (Target.Same w w') s.reference.target s'.reference.target

/-- The same declaration, with the same references, enum values and cycle state. -/
structure Entity.Same (w w' : Workspace) (e e' : Entity) : Prop where
  header : e'.header = e.header
  keyword : e'.keyword = e.keyword
  references : List.Forall₂ (Site.Same w w') e.sites e'.sites
  members : e'.members = e.members
  cycle : e'.cycle? = e.cycle?

/-- The workspaces have the same declarations under the same dotted names, and the same diagnostics
in some order. -/
structure Workspace.SameButOrder (w w' : Workspace) : Prop where
  syntaxErrors : w'.report.syntaxErrors = w.report.syntaxErrors
  diagnostics : w.report.entries.Perm w'.report.entries
  left : ∀ e ∈ w.store.entities, ∃ e' ∈ w'.store.entities,
    e'.header.dottedName = e.header.dottedName
  right : ∀ e' ∈ w'.store.entities, ∃ e ∈ w.store.entities,
    e'.header.dottedName = e.header.dottedName
  same : ∀ e ∈ w.store.entities, ∀ e' ∈ w'.store.entities,
    e'.header.dottedName = e.header.dottedName → e.Same w w' e'

/-- The names of the types are the same, in another order. -/
theorem Decl.Within.typeNames {is is' : List Decl.Item} (h : Decl.Within Decl.Reorders is is') :
    ((Decl.itemsVisits is).filterMap Visit.typeName?).Perm
      ((Decl.itemsVisits is').filterMap Visit.typeName?) := by
  induction h with
  | here h =>
    cases h with
    | swap d d' _ =>
      simp only [Decl.itemsVisits, Decl.Item.visits, List.append_nil, List.filterMap_append]
      exact List.perm_append_comm
  | among before after _ ih =>
    rw [Decl.itemsVisits_eq_flatMap, Decl.itemsVisits_eq_flatMap] at ih ⊢
    simp only [List.flatMap_append, List.filterMap_append]
    exact (ih.append_left _).append_right _
  | inside name line _ ih =>
    simp only [Decl.itemsVisits, Decl.Item.visits, List.append_nil, List.filterMap_append,
      List.filterMap_cons, Visit.typeName?]
    exact ih.append_right _

section Declared

variable (settings : Settings) (catalog : Catalog) {u u' : Decl.Unit}

theorem Decl.Unit.Reorders.names (h : u.Reorders u')
    (hnames : ∀ v ∈ u.visits, ∀ name, v.typeName? = some name → IsSegment name) :
    ∀ v ∈ u'.visits, ∀ name, v.typeName? = some name → IsSegment name := by
  have hvisits : ∀ u : Decl.Unit, u.visits.filterMap Visit.typeName? =
      (Decl.itemsVisits u.items).filterMap Visit.typeName? := by
    intro u
    rw [u.visits_eq]
    simp [List.filterMap_append, List.filterMap_cons, Visit.typeName?]
  intro v' hv' name hname
  have hmem : name ∈ u'.visits.filterMap Visit.typeName? := List.mem_filterMap.2 ⟨v', hv', hname⟩
  rw [hvisits, ← h.items.typeNames.mem_iff, ← hvisits] at hmem
  obtain ⟨v, hv, hname⟩ := List.mem_filterMap.1 hmem
  exact hnames v hv name hname

theorem named_declared
    (hnames : ∀ v ∈ u.visits, ∀ name, v.typeName? = some name → IsSegment name) :
    (declared settings catalog u).Named := by
  have hempty : (Workspace.ofCatalog settings catalog).builder.Slotless :=
    ⟨fun o ho => absurd ho (Array.not_mem_empty o), fun s hs => absurd hs (Array.not_mem_empty s),
      fun d hd => absurd hd (Array.not_mem_empty d)⟩
  have hslotless := hempty.run u.visits
  exact ⟨declared_declared settings catalog u, (declared_named settings catalog u hnames).2,
    hslotless.objects, hslotless.fields, hslotless.delegates⟩

theorem declared_reordered (h : u.Reorders u')
    (hnames : ∀ v ∈ u.visits, ∀ name, v.typeName? = some name → IsSegment name) :
    (declared settings catalog u).Reordered (declared settings catalog u') := by
  have hstart : (Workspace.ofCatalog settings catalog).builder.Sound :=
    ⟨builder_registered settings catalog, Workspace.recording_builder Store.recorded_empty⟩
  have hbuilt := Builder.Reordered.within h.items (.refl hstart)
  have hleft := named_declared settings catalog hnames
  have hright := named_declared settings catalog (h.names hnames)
  unfold declared at hleft hright ⊢
  rw [Workspace.declare_eq] at hleft hright ⊢
  rw [Workspace.declare_eq]
  exact ⟨hleft, hright, hbuilt.catalog, hbuilt.tabled, hbuilt.entities, hbuilt.found.append_left _⟩

end Declared

namespace Workspace

variable {w w' : Workspace} {σ σ' : Symbol} {e : Entity}

theorem symbols_analyzed (w : Workspace) : w.analyzed.symbols = w.boundSymbols := by
  rw [analyzed_eq]

theorem Reordered.target_same (h : w.Reordered w') {target target' : Target}
    (hagrees : w.Agrees w' target target') :
    Target.Same w.analyzed w'.analyzed target target' := by
  cases hagrees with
  | builtin hb =>
    cases target with
    | primitive p => exact .primitive p
    | object => exact .object
    | _ => exact absurd hb Bool.false_ne_true
  | symbol hσ =>
    cases hσ with
    | declared hσ hσ' =>
      refine .declared (h.left.declared.holds hσ) (h.right.declared.holds hσ') ?_ ?_
      · rw [outcome, outcome, Entity.keyword_analyzed, Entity.keyword_analyzed]
      · rw [outcome, outcome, Entity.header_analyzed, Entity.header_analyzed]
    | imported hi hi' =>
      rw [← symbols_analyzed] at hi hi'
      exact .imported hi hi' rfl

theorem Reordered.site_same (h : w.Reordered w') {s : Site} (hs : s ∈ w.store.sites) :
    (s.boundIn w.boundSymbols).Same w.analyzed w'.analyzed (s.boundIn w'.boundSymbols) := by
  refine ⟨rfl, rfl, rfl, ?_, ?_⟩
  · rw [Site.text_boundIn, Site.text_boundIn]
  · have htarget := h.target hs
    generalize (s.boundIn w.boundSymbols).reference.target = target at htarget ⊢
    generalize (s.boundIn w'.boundSymbols).reference.target = target' at htarget ⊢
    cases htarget with
    | none => exact .none
    | some hagrees => exact .some (h.target_same hagrees)

/-- The analyses make the same of a declaration, whatever its slot. -/
theorem Reordered.outcome_same (h : w.Reordered w') (hσ : w.store.Holds σ e)
    (hσ' : w'.store.Holds σ' e) :
    (w.outcome σ e).Same w.analyzed w'.analyzed (w'.outcome σ' e) := by
  unfold outcome
  refine ⟨?_, ?_, ?_, ?_, ?_⟩
  · rw [Entity.header_analyzed, Entity.header_analyzed]
  · rw [Entity.keyword_analyzed, Entity.keyword_analyzed]
  · rw [Entity.sites_analyzed, Entity.sites_analyzed, List.forall₂_map_left_iff,
      List.forall₂_map_right_iff, List.forall₂_same]
    intro s hs
    apply h.site_same
    rw [Store.sites_eq]
    exact List.mem_flatMap_of_mem (Store.mem_entities.2 ⟨σ, hσ⟩) hs
  · rw [h.verdictAt hσ hσ']
    exact e.members_analyzed _ _ _
  · rw [Entity.cycle?_analyzed, Entity.cycle?_analyzed, h.verdictAt hσ hσ']

theorem Reordered.diagnostics (h : w.Reordered w') :
    w.analyzed.report.entries.Perm w'.analyzed.report.entries := by
  have henums : (w.store.boundIn w.boundSymbols).enumDiagnostics.Perm
      (w'.store.boundIn w'.boundSymbols).enumDiagnostics := by
    rw [Store.enumDiagnostics_boundIn, Store.enumDiagnostics_boundIn]
    exact h.entities.flatMap_right _
  rw [analyzed_eq, analyzed_eq]
  exact ((h.report.append h.bindingFaults).append henums).append h.cycleDiagnostics

theorem Named.mem_entities_analyzed (h : w.Named) {f : Entity} (hf : f ∈ w.analyzed.store.entities) :
    ∃ σ e, w.store.Holds σ e ∧ f = w.outcome σ e ∧ f.header = e.header := by
  obtain ⟨σ, hσ⟩ := Store.mem_entities.1 hf
  obtain ⟨e, he, rfl⟩ := h.declared.holds_analyzed hσ
  exact ⟨σ, e, he, rfl, e.header_analyzed _ _⟩

theorem Reordered.matched (h : w.Reordered w') {f : Entity}
    (hf : f ∈ w.analyzed.store.entities) :
    ∃ f' ∈ w'.analyzed.store.entities, f'.header.dottedName = f.header.dottedName := by
  obtain ⟨σ, e, he, rfl, hheader⟩ := h.left.mem_entities_analyzed hf
  obtain ⟨σ', he'⟩ := h.fellow he
  refine ⟨w'.outcome σ' e, Store.mem_entities.2 ⟨σ', h.right.declared.holds he'⟩, ?_⟩
  rw [hheader, outcome, Entity.header_analyzed]

theorem Reordered.sameButOrder (h : w.Reordered w')
    (herrors : w'.report.syntaxErrors = w.report.syntaxErrors) :
    w.analyzed.SameButOrder w'.analyzed := by
  refine ⟨?_, h.diagnostics, fun f hf => h.matched hf, ?_, ?_⟩
  · rw [analyzed_eq, analyzed_eq]
    exact herrors
  · intro f' hf'
    obtain ⟨f, hf, hname⟩ := h.symm.matched hf'
    exact ⟨f, hf, hname.symm⟩
  · intro f hf f' hf' hname
    obtain ⟨σ, e, he, rfl, hheader⟩ := h.left.mem_entities_analyzed hf
    obtain ⟨σ', e', he', rfl, hheader'⟩ := h.right.mem_entities_analyzed hf'
    rw [hheader, hheader'] at hname
    -- The declaration of this name is the same in both workspaces.
    obtain ⟨σ'', hfellow⟩ := h.fellow he
    obtain rfl : σ' = σ'' := h.right.unique he' hfellow hname
    obtain rfl : e = e' := hfellow.unique he'
    exact h.outcome_same he he'

end Workspace

theorem Settings.finished_plain {w : Workspace} (hvalidates : w.settings.validatesMembers = false)
    (hderives : w.settings.derivesInterfaces = false) : w.finished = w := by
  unfold Workspace.finished
  rw [hvalidates, hderives]
  rfl

/-- If two neighbouring declarations of a namespace block change places, the compilation has the same
declarations, with the same references, enum values and cycle states, and the same diagnostics in
some order. -/
theorem compile_reordered (settings : Settings) (catalog : Catalog) {u u' : Decl.Unit}
    (h : u.Reorders u')
    (hnames : ∀ v ∈ u.visits, ∀ name, v.typeName? = some name → IsSegment name)
    (hvalidates : settings.validatesMembers = false)
    (hderives : settings.derivesInterfaces = false) :
    (compile settings catalog u).SameButOrder (compile settings catalog u') := by
  by_cases herrors : u.syntaxErrors = 0
  · have hreordered := declared_reordered settings catalog h hnames
    rw [compile_eq_finished settings catalog u herrors,
      compile_eq_finished settings catalog u' (h.syntaxErrors.trans herrors),
      Settings.finished_plain hvalidates hderives, Settings.finished_plain hvalidates hderives]
    exact hreordered.sameButOrder rfl
  · have hpos : u.syntaxErrors > 0 := Nat.pos_of_ne_zero herrors
    have hpos' : u'.syntaxErrors > 0 := h.syntaxErrors ▸ hpos
    rw [compile_syntaxErrors settings catalog u hpos, compile_syntaxErrors settings catalog u' hpos']
    have hnone : ∀ e, e ∉ Store.entities {} := fun e => List.not_mem_nil
    exact ⟨h.syntaxErrors, .refl _, fun e he => absurd he (hnone e), fun e he => absurd he (hnone e),
      fun e he => absurd he (hnone e)⟩

/-- A struct that holds the next one, and an imported one. -/
def raft : Decl.TypeDecl :=
  .structDecl ⟨"Raft", 2, [⟨"line", 3, "Rope"⟩, ⟨"mast", 4, "Sea.Mast"⟩]⟩

/-- A struct that holds the one before, and an imported one. -/
def rope : Decl.TypeDecl :=
  .structDecl ⟨"Rope", 5, [⟨"load", 6, "Raft"⟩, ⟨"knot", 7, "Sea.Knot"⟩]⟩

def moored (first second : Decl.TypeDecl) : Decl.Unit :=
  ⟨[⟨"Port", 1, [.type first, .type second]⟩], 0⟩

def chandlery : Catalog :=
  .ofList [⟨"Sea.Knot", .struct, none, "sea"⟩, ⟨"Sea.Mast", .struct, none, "sea"⟩]

/-- Slots of structs and of imports, and the diagnostics, come in the order of the declarations. -/
theorem compile_reordered_moored :
    let plain : Settings := { validatesMembers := false, derivesInterfaces := false }
    let w := compile plain chandlery (moored raft rope)
    let w' := compile plain chandlery (moored rope raft)
    (moored raft rope).Reorders (moored rope raft) ∧
      (∀ v ∈ (moored raft rope).visits, ∀ name, v.typeName? = some name → IsSegment name) ∧
      w.store.structs.map (·.name) = #["Raft", "Rope"] ∧
      w'.store.structs.map (·.name) = #["Rope", "Raft"] ∧
      w.symbols.imports.map (·.name) = #["Sea.Mast", "Sea.Knot"] ∧
      w'.symbols.imports.map (·.name) = #["Sea.Knot", "Sea.Mast"] ∧
      w.report.entries.map (·.symbol) = ["Port.Raft", "Port.Rope"] ∧
      w'.report.entries.map (·.symbol) = ["Port.Rope", "Port.Raft"] ∧ w.SameButOrder w' := by
  intro plain w w'
  have hswap : (moored raft rope).Reorders (moored rope raft) :=
    ⟨.inside "Port" 1 (.here (.swap raft rope (by decide))), rfl⟩
  have hnames : ∀ name ∈ (moored raft rope).visits.filterMap Visit.typeName?, IsSegment name := by
    decide +kernel
  have hsegments : ∀ v ∈ (moored raft rope).visits, ∀ name, v.typeName? = some name →
      IsSegment name :=
    fun v hv name hname => hnames name (List.mem_filterMap.2 ⟨v, hv, hname⟩)
  exact ⟨hswap, hsegments, by decide +kernel, by decide +kernel, by decide +kernel,
    by decide +kernel, by decide +kernel, by decide +kernel,
    compile_reordered plain chandlery hswap hsegments rfl rfl⟩

end ComponentIdl
