import ComponentIdl.Compile
import ComponentIdl.Proofs.Binding
import ComponentIdl.Proofs.Builder.Fresh
import ComponentIdl.Proofs.Builder.Getters
import ComponentIdl.Proofs.Builder.Registry
import ComponentIdl.Proofs.Builder.Wiring

/-!
# A compilation, pass by pass

What the declarations of a source file leave to the other passes, and the workspace after the three
analyses that always run. The report only grows, so a compilation without diagnostics had none after
any pass.
-/

namespace ComponentIdl

/-- The workspace after the declarations of a source file. -/
def declared (settings : Settings) (catalog : Catalog) (u : Decl.Unit) : Workspace :=
  ((Workspace.ofCatalog settings catalog).declare u).1

namespace Workspace

/-- The workspace after references, enums and cycles. -/
def analyzed (w : Workspace) : Workspace := w.bindReferences.1.evaluateEnums.1.findCycles.1

/-- The workspace after the passes that the settings ask for. -/
def finished (w : Workspace) : Workspace :=
  let checked := if w.settings.validatesMembers then w.checkMembers.1 else w
  if w.settings.derivesInterfaces then checked.deriveInterfaces.1 else checked

end Workspace

variable (settings : Settings) (catalog : Catalog) (u : Decl.Unit)

theorem compile_syntaxErrors (h : u.syntaxErrors > 0) :
    compile settings catalog u =
      { Workspace.ofCatalog settings catalog with report := { syntaxErrors := u.syntaxErrors } } := by
  unfold compile
  rw [if_pos h]
  simp [Report.addSyntaxErrors, Workspace.ofCatalog]

theorem compile_eq_finished (h : u.syntaxErrors = 0) :
    compile settings catalog u = (declared settings catalog u).analyzed.finished := by
  have hnone : ¬ u.syntaxErrors > 0 := by omega
  have hsame : { Workspace.ofCatalog settings catalog with
      report := (Workspace.ofCatalog settings catalog).report.addSyntaxErrors u.syntaxErrors } =
        Workspace.ofCatalog settings catalog := by
    rw [h]
    rfl
  unfold compile
  rw [if_neg hnone, hsame]
  unfold Settings.passes
  have hsettings : (declared settings catalog u).analyzed.settings = settings := rfl
  unfold Workspace.finished
  rw [hsettings]
  cases settings.validatesMembers <;> cases settings.derivesInterfaces <;> rfl

/-- The passes after the declarations do not look at the source file. -/
theorem compile_of_declared {u u' : Decl.Unit} (herrors : u'.syntaxErrors = u.syntaxErrors)
    (h : declared settings catalog u' = declared settings catalog u) :
    compile settings catalog u' = compile settings catalog u := by
  by_cases hnone : u.syntaxErrors = 0
  · rw [compile_eq_finished settings catalog u hnone,
      compile_eq_finished settings catalog u' (herrors.trans hnone), h]
  · have hpos : u.syntaxErrors > 0 := Nat.pos_of_ne_zero hnone
    rw [compile_syntaxErrors settings catalog u hpos,
      compile_syntaxErrors settings catalog u' (herrors ▸ hpos), herrors]

/-- What declarations leave to the analyses: names in order, accessors in order, nothing known yet. -/
structure Workspace.Declared (w : Workspace) : Prop where
  registered : w.store.Registered
  table : ∀ name σ, w.symbols.get? name = some σ →
    ∃ h, w.store.header? σ = some h ∧ h.dottedName = name
  wired : ∀ o ∈ w.store.objects, o.Wired
  fresh : ∀ o ∈ w.store.objects, o.Fresh
  structs : ∀ s ∈ w.store.structs, s.cycle = .unknown

theorem builder_registered : (Workspace.ofCatalog settings catalog).builder.Registered := by
  refine ⟨Store.registered_empty, ?_, ?_⟩
  · intro x hx
    exact absurd hx List.not_mem_nil
  · intro name σ hget
    exact absurd hget (by simp [Workspace.ofCatalog, Workspace.builder, NameTable.ofCatalog,
      NameTable.get?, NameMap.get?])

theorem declared_declared : (declared settings catalog u).Declared := by
  have hrun := (builder_registered settings catalog).run u.visits
  refine ⟨hrun.store, hrun.table, ?_, ?_, ?_⟩
  · exact Builder.run_wired _ _ fun o ho => absurd ho (Array.not_mem_empty o)
  · exact Builder.run_fresh _ _ fun o ho => absurd ho (Array.not_mem_empty o)
  · exact Builder.run_structCycle _ _ fun s hs => absurd hs (Array.not_mem_empty s)

/-- Without diagnostics, properties have getters and sibling namespaces differ in more than case. -/
theorem declared_complete (h : (declared settings catalog u).report.entries = []) :
    (∀ o ∈ (declared settings catalog u).store.objects, o.HasGetters) ∧
      (declared settings catalog u).store.namespaces.CaseDistinct := by
  have hfound : ((Workspace.ofCatalog settings catalog).builder.run u.visits).found = [] :=
    (List.append_eq_nil_iff.1 h).2
  constructor
  · have htidy : (Workspace.ofCatalog settings catalog).builder.Tidy :=
      fun _ o ho => absurd ho (Array.not_mem_empty o)
    exact htidy.unit u hfound
  · exact Builder.caseDistinct_run (builder_registered settings catalog)
      Namespaces.caseDistinct_empty u.visits hfound

/-- Where type names are segments, every declaration has an entry under its dotted name. -/
theorem declared_named
    (hnames : ∀ v ∈ u.visits, ∀ name, v.typeName? = some name → IsSegment name) :
    (∀ σ h, (declared settings catalog u).store.header? σ = some h → IsSegment h.name) ∧
      ∀ σ h, (declared settings catalog u).store.header? σ = some h →
        (declared settings catalog u).symbols.get? h.dottedName = some σ := by
  have hempty : (Workspace.ofCatalog settings catalog).builder.Named := by
    constructor <;> intro σ h hσ <;> cases σ <;>
      simp [Workspace.ofCatalog, Workspace.builder, Store.header?] at hσ
  have hnamed := hempty.run (builder_registered settings catalog) u.visits hnames
  exact ⟨hnamed.segment, hnamed.entry⟩

namespace Workspace

variable (w : Workspace)

/-- The name table after all references have been looked up. -/
def boundSymbols : NameTable := w.symbols.lookupAll w.store.keys

theorem analyzed_eq :
    w.analyzed =
      { w with
        store := (w.store.boundIn w.boundSymbols).evaluateEnums.withCycles
        symbols := w.boundSymbols
        report := ((w.report.add (w.store.bindingFaults w.boundSymbols)).add
          (w.store.boundIn w.boundSymbols).enumDiagnostics).add
            (w.store.boundIn w.boundSymbols).evaluateEnums.cycleDiagnostics } := by
  unfold analyzed
  rw [bindReferences_eq]
  rfl

theorem Declared.entry {w : Workspace} (h : w.Declared) {name : String} {σ : Symbol}
    (hget : w.boundSymbols.get? name = some σ) :
    (∃ header, w.store.header? σ = some header ∧ header.dottedName = name) ∨
      (w.symbols.get? name = none ∧ w.boundSymbols.Remembers name σ) := by
  rcases NameTable.entry_lookupAll w.store.keys hget with hold | hnew
  · exact Or.inl (h.table name σ hold)
  · exact Or.inr hnew

end Workspace

end ComponentIdl
