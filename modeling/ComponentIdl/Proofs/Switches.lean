import ComponentIdl.Proofs.Derivation.Added
import ComponentIdl.Proofs.Derivation.Links
import ComponentIdl.Proofs.Repeat.Members

/-!
# The two switches of a compilation

The check of members adds links and diagnostics, the derivation of interfaces adds interfaces and
diagnostics, and neither looks at what the other adds. So each can be switched off by itself: the
compilation is then the one with the switch on, less what that pass has added.
-/

namespace ComponentIdl

/-- `on` is a compilation with members checked, `off` the same without. Both go through the workspace
`bare`, whose members are checked in the one, and add the same to its report afterwards. -/
structure Workspace.AddsLinks (bare off on : Workspace) : Prop where
  store : off.store = on.store.unlinked
  symbols : off.symbols = on.symbols
  report : ∃ later, off.report = bare.report.add later ∧
    on.report = bare.checkMembers.1.report.add later

/-- `on` is a compilation with interfaces derived, `off` the same without. -/
structure Workspace.AddsInterfaces (off on : Workspace) : Prop where
  store : off.store.Added on.store
  report : on.report = off.report.add off.derivation.run.found

namespace Workspace

variable {w : Workspace}

theorem unlinked_checkMembers (hplain : ∀ o ∈ w.store.objects, o.Plain) :
    w.checkMembers.1.store.unlinked = w.store := by
  have hobjects : w.checkMembers.1.store.objects.map ObjectType.unlinked = w.store.objects := by
    apply Array.ext_getElem?
    intro i
    rw [Array.getElem?_map, Store.getElem?_checkMembers, Option.map_map]
    cases hi : w.store.objects[i]? with
    | none => rfl
    | some o =>
      rw [Option.map_some, Function.comp_apply, Remark.unlinked_foldl,
        (hplain o (Array.mem_of_getElem? hi)).unlinked]
  exact congrArg (fun objects => { w.store with objects }) hobjects

theorem original_checkMembers (horiginal : ∀ o ∈ w.store.objects, o.Original) :
    ∀ o ∈ w.checkMembers.1.store.objects, o.Original := by
  intro o ho
  obtain ⟨i, hi⟩ := Array.mem_iff_getElem?.1 ho
  rw [Store.getElem?_checkMembers] at hi
  obtain ⟨o', ho', rfl⟩ := Option.map_eq_some_iff.1 hi
  exact (horiginal o' (Array.mem_of_getElem? ho')).of_unlinked (Remark.unlinked_foldl o' _)

/-- The check of members, with the derivation of interfaces after it or without. -/
theorem addsLinks_finished (hplain : ∀ o ∈ w.store.objects, o.Plain) (derives : Bool) :
    w.AddsLinks
      (if derives then w.deriveInterfaces.1 else w)
      (if derives then w.checkMembers.1.deriveInterfaces.1 else w.checkMembers.1) := by
  have hunlinked := unlinked_checkMembers hplain
  cases derives with
  | false =>
    exact ⟨hunlinked.symm, rfl, [], by simp [Report.add], by simp [Report.add]⟩
  | true =>
    have hstart : w.derivation = w.checkMembers.1.derivation.unlinked := by
      unfold derivation Derivation.unlinked
      rw [hunlinked]
      rfl
    have hrun : w.derivation.run = w.checkMembers.1.derivation.run.unlinked := by
      rw [hstart, Derivation.run_unlinked]
    have hstore := congrArg Derivation.store hrun
    have hsymbols := congrArg Derivation.symbols hrun
    have hfound := congrArg Derivation.found hrun
    exact ⟨hstore, hsymbols, w.derivation.run.found, rfl,
      congrArg w.checkMembers.1.report.add hfound.symm⟩

theorem addsInterfaces_deriveInterfaces (h : w.store.Recorded)
    (horiginal : ∀ o ∈ w.store.objects, o.Original) : w.AddsInterfaces w.deriveInterfaces.1 :=
  ⟨Derivation.added_run (s := w.derivation) h horiginal, rfl⟩

end Workspace

variable (settings : Settings) (catalog : Catalog) (u : Decl.Unit)

theorem recorded_analyzed : (declared settings catalog u).analyzed.store.Recorded := by
  have hreached : (declared settings catalog u).analyzed =
      Workspace.reached settings catalog [.pass (.declare u), .pass .bindReferences,
        .pass .evaluateEnums, .pass .findCycles] := rfl
  rw [hreached]
  exact Workspace.invariant_recorded.reached (P := fun w => w.store.Recorded)
    Store.recorded_empty _

theorem compile_switched (herrors : u.syntaxErrors = 0) (checks derives : Bool) :
    let w := { (declared settings catalog u).analyzed with
      settings := { settings with validatesMembers := checks, derivesInterfaces := derives } }
    let checked := if checks then w.checkMembers.1 else w
    compile { settings with validatesMembers := checks, derivesInterfaces := derives } catalog u =
      if derives then checked.deriveInterfaces.1 else checked :=
  compile_eq_finished _ catalog u herrors

/-- With the check of members off, a compilation leaves the store of the one with the check on, less
all links, the same name table, and the same report less what the check reports. With the derivation
off it leaves the store less derived interfaces, and the report less what the derivation reports. -/
theorem compile_switches :
    (compile { settings with validatesMembers := false, derivesInterfaces := false }
        catalog u).AddsLinks
      (compile { settings with validatesMembers := false } catalog u)
      (compile { settings with validatesMembers := true } catalog u) ∧
    (compile { settings with derivesInterfaces := false } catalog u).AddsInterfaces
      (compile { settings with derivesInterfaces := true } catalog u) := by
  obtain ⟨assembly, checks, derives⟩ := settings
  by_cases herrors : u.syntaxErrors = 0
  · have hcompile := compile_switched ⟨assembly, checks, derives⟩ catalog u herrors
    have hplain := analyzed_plain ⟨assembly, checks, derives⟩ catalog u
    have hrecorded := recorded_analyzed ⟨assembly, checks, derives⟩ catalog u
    constructor
    · have hlinks := Workspace.addsLinks_finished hplain derives
      rw [show compile ⟨assembly, false, false⟩ catalog u = _ from hcompile false false,
        show compile ⟨assembly, false, derives⟩ catalog u = _ from hcompile false derives,
        show compile ⟨assembly, true, derives⟩ catalog u = _ from hcompile true derives]
      cases derives <;> exact ⟨hlinks.store, hlinks.symbols, hlinks.report⟩
    · have horiginal := fun o ho => (hplain o ho).toOriginal
      rw [show compile ⟨assembly, checks, false⟩ catalog u = _ from hcompile checks false,
        show compile ⟨assembly, checks, true⟩ catalog u = _ from hcompile checks true]
      cases checks with
      | false =>
        have hadds := Workspace.addsInterfaces_deriveInterfaces hrecorded horiginal
        exact ⟨hadds.store, hadds.report⟩
      | true =>
        have hadds := Workspace.addsInterfaces_deriveInterfaces
          (Workspace.invariant_recorded.checkMembers _ hrecorded)
          (Workspace.original_checkMembers horiginal)
        exact ⟨hadds.store, hadds.report⟩
  · -- A file with syntax errors leaves an empty store, which neither pass adds anything to.
    have hempty := fun settings =>
      compile_syntaxErrors settings catalog u (Nat.pos_of_ne_zero herrors)
    have hlinks := Workspace.addsLinks_finished (w := { settings := {} })
      (fun o ho => absurd ho (Array.not_mem_empty o)) false
    have hadds := Workspace.addsInterfaces_deriveInterfaces (w := { settings := {} })
      Store.recorded_empty fun o ho => absurd ho (Array.not_mem_empty o)
    rw [hempty, hempty, hempty, hempty, hempty]
    exact ⟨⟨hlinks.store, rfl, [], rfl, rfl⟩, hadds.store, rfl⟩

end ComponentIdl
