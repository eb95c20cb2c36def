import ComponentIdl.Proofs.Analyses
import ComponentIdl.Proofs.Derivation.Members
import ComponentIdl.Proofs.Derivation.Step

/-!
# Accepted source files

A compilation that checks members and reports nothing leaves a sound store. The analyses and the
check account for what was written. The interfaces derived at the end are checked by no pass; they
are sound because the classes are that they are derived from.
-/

namespace ComponentIdl

/-- Members are sound, references are bound, what is required are interfaces, structs and requires
lists form no cycle, enum members have values, and sibling namespaces differ in more than case. -/
structure Store.Sound (st : Store) (imports : Array Import) : Prop where
  objects : ∀ o ∈ st.objects, o.Sound
  requires : ∀ o ∈ st.objects, ∀ r ∈ o.requires,
    ∃ target, r.target = some target ∧ st.IsInterface imports target
  fields : ∀ s ∈ st.structs, ∀ f ∈ s.fields, f.type.isBound = true
  delegates : ∀ d ∈ st.delegates, ∀ r ∈ d.references, r.isBound = true
  containment : ∀ id, ¬ st.containment.OnCycle id
  requirement : ∀ id, ¬ st.requirement.OnCycle id
  enums : ∀ e ∈ st.enums, ∀ m ∈ e.members, ∃ value, m.value = .known value
  namespaces : st.namespaces.CaseDistinct

namespace Workspace

variable {w : Workspace}

theorem silent_of_checkMembers (h : w.checkMembers.1.report.entries = []) {id : ObjectId}
    {o : ObjectType} (ho : w.store.objects[id]? = some o) : o.Silent (w.store.ancestors id) := by
  have hfound : w.report.entries ++ w.store.memberRemarks.flatMap
      (fun c => c.2.filterMap (Remark.diagnostic? c.1.methods)) = [] := h
  have hnone := List.flatMap_eq_nil_iff.1 (List.append_eq_nil_iff.1 hfound).2
  have hmem : (o, o.remarks (w.store.ancestors id)) ∈ w.store.memberRemarks := by
    refine List.mem_of_getElem? (i := id) ?_
    unfold Store.memberRemarks
    rw [List.getElem?_mapIdx, Array.getElem?_toList, ho]
    rfl
  intro remark hremark
  exact List.filterMap_eq_nil_iff.1 (hnone _ hmem) remark hremark

theorem sound_checkMembers {imports : Array Import} (hclean : w.store.Clean imports)
    (h : w.checkMembers.1.report.entries = []) :
    w.checkMembers.1.store.Sound imports ∧ ∀ o ∈ w.checkMembers.1.store.objects, o.Wired := by
  have hsimilar := Store.similar_checkMembers w
  have hbound := hclean.bound.of_similar hsimilar
  have hobjects : ∀ o' ∈ w.checkMembers.1.store.objects, o'.Sound ∧ o'.Wired := by
    intro o' ho'
    obtain ⟨i, hi⟩ := Array.mem_iff_getElem?.1 ho'
    obtain ⟨o, ho, hcore⟩ := hsimilar.object hi
    have hmem := Array.mem_of_getElem? ho
    have hwired := hclean.wired o hmem
    have hsound := (silent_of_checkMembers h ho).sound hwired (hclean.bound.references o hmem)
      (hclean.getters o hmem)
    exact ⟨hsound.of_core hcore, hwired.of_core hcore⟩
  refine ⟨⟨fun o ho => (hobjects o ho).1, hbound.requires, hbound.fields, hbound.delegates, ?_, ?_,
    hclean.enums, hclean.namespaces⟩, fun o ho => (hobjects o ho).2⟩
  · exact hsimilar.containment ▸ hclean.containment
  · exact hsimilar.requirement ▸ hclean.requirement

end Workspace

namespace Derivation

variable {st : Store} {node : NamespaceId} {block id slot : Nat} {role : DerivedRole}
  {interface : ObjectType}

theorem Kept.isInterface {st st' : Store} (h : Kept st st') {imports : Array Import} {target : Target}
    (hi : st.IsInterface imports target) : st'.IsInterface imports target := by
  cases target with
  | interface id =>
    obtain ⟨o, ho, ho'⟩ := hi
    obtain ⟨o₁, ho₁, hcore, -⟩ := h.old id o ho
    exact ⟨o₁, ho₁, by rw [← o₁.isInterface_core, hcore, o.isInterface_core, ho']⟩
  | _ => exact hi

theorem sound_withInterface {imports : Array Import} (h : st.Sound imports)
    (hinterface : interface.Sound) (hrequires : interface.requires = []) :
    (withInterface st node block id slot role interface).Sound imports := by
  have hkept : Kept st (withInterface st node block id slot role interface) :=
    kept_withInterface hrequires
  obtain ⟨-, hstructs, henums, hdelegates⟩ :=
    Builder.slots_declare st node block interface.name (.object interface)
  constructor
  · intro o' ho'
    obtain ⟨i, hi⟩ := Array.mem_iff_getElem?.1 ho'
    rcases cases_withInterface hi with ⟨o, ho, hcore⟩ | ⟨-, hcore⟩
    · exact (h.objects o (Array.mem_of_getElem? ho)).of_core hcore
    · exact hinterface.of_core hcore
  · intro o' ho' r hr
    obtain ⟨i, hi⟩ := Array.mem_iff_getElem?.1 ho'
    rcases cases_withInterface hi with ⟨o, ho, hcore⟩ | ⟨-, hcore⟩
    · rw [← o'.requires_core, hcore, o.requires_core] at hr
      obtain ⟨target, htarget, htype⟩ := h.requires o (Array.mem_of_getElem? ho) r hr
      exact ⟨target, htarget, hkept.isInterface htype⟩
    · rw [← o'.requires_core, hcore, interface.requires_core, hrequires] at hr
      exact absurd hr List.not_mem_nil
  · exact hstructs.symm ▸ h.fields
  · exact hdelegates.symm ▸ h.delegates
  · have hgraph : (withInterface st node block id slot role interface).containment =
        st.containment := congrArg (fun structs => Store.containment { st with structs }) hstructs
    exact hgraph ▸ h.containment
  · intro base hcycle
    unfold Graph.OnCycle at hcycle
    rw [hkept.edge_requirement] at hcycle
    exact h.requirement base hcycle
  · exact henums.symm ▸ h.enums
  · exact h.namespaces.of_sameShape
      (st.sameShape_declare node block interface.name (.object interface))

theorem sound_run {s : Derivation} (h : s.store.Sound s.symbols.imports)
    (hw : ∀ o ∈ s.store.objects, o.Wired) : s.run.store.Sound s.run.symbols.imports := by
  have hboth := run_preserves (s := s)
    (P := fun s => s.store.Sound s.symbols.imports ∧
      ∀ o ∈ s.store.objects, o.isClass = true → o.Wired)
    (Q := fun _ o => o.Sound ∧ o.Wired) ?_ ?_ ⟨h, fun o ho _ => hw o ho⟩
  · exact hboth.1
  · intro s id o hs ho hclass
    have hmem := Array.mem_of_getElem? ho
    exact ⟨hs.1.objects o hmem, hs.2 o hmem hclass⟩
  · intro s s' id o plan hs ho hplan hstep
    cases hstep with
    | passed => exact hs
    | taken d => exact hs
    | declared node block path free =>
      have hinterface := (ho.1.derivedRoles ho.2 id hplan).interfaceOf id o plan.1
      refine ⟨sound_withInterface hs.1 hinterface rfl, ?_⟩
      intro o' ho' hclass
      obtain ⟨i, hi⟩ := Array.mem_iff_getElem?.1 ho'
      rcases cases_withInterface hi with ⟨old, hold, hcore⟩ | ⟨-, hcore⟩
      · have hold' : old.isClass = true := by
          rw [← old.isClass_core, ← hcore, o'.isClass_core, hclass]
        exact (hs.2 old (Array.mem_of_getElem? hold) hold').of_core hcore
      · rw [← o'.isClass_core, hcore, ObjectType.isClass_core] at hclass
        exact absurd hclass Bool.false_ne_true

end Derivation

theorem Workspace.sound_deriveInterfaces {w : Workspace} (h : w.store.Sound w.symbols.imports)
    (hw : ∀ o ∈ w.store.objects, o.Wired) :
    w.deriveInterfaces.1.store.Sound w.deriveInterfaces.1.symbols.imports := by
  unfold Workspace.deriveInterfaces
  exact Derivation.sound_run (s := { store := w.store, symbols := w.symbols }) h hw

theorem Store.sound_empty (imports : Array Import) : Store.Sound {} imports := by
  have hedge : ∀ {g : Graph} {id : Nat}, g.size = 0 → ¬ g.OnCycle id := by
    intro g id hsize hcycle
    have hlt := Graph.leadsToCycle_lt (Graph.onCycle_leadsToCycle hcycle)
    omega
  refine ⟨?_, ?_, ?_, ?_, fun _ => hedge (containment_size _),
    fun _ => hedge (requirement_size _), ?_, Namespaces.caseDistinct_empty⟩
  · exact fun o ho => absurd ho (Array.not_mem_empty o)
  · exact fun o ho => absurd ho (Array.not_mem_empty o)
  · exact fun s hs => absurd hs (Array.not_mem_empty s)
  · exact fun d hd => absurd hd (Array.not_mem_empty d)
  · exact fun e he => absurd he (Array.not_mem_empty e)

/-- What an accepted source file without syntax errors has gone through. -/
theorem compile_accepted (settings : Settings) (catalog : Catalog) (u : Decl.Unit)
    (hchecks : settings.validatesMembers = true) (herrors : u.syntaxErrors = 0)
    (hnone : (compile settings catalog u).report.entries = []) :
    let w := (declared settings catalog u).analyzed
    compile settings catalog u =
        (if settings.derivesInterfaces then w.checkMembers.1.deriveInterfaces.1
         else w.checkMembers.1) ∧
      w.store.Clean w.symbols.imports ∧ w.checkMembers.1.report.entries = [] := by
  intro w
  have hfinished : compile settings catalog u =
      if settings.derivesInterfaces then w.checkMembers.1.deriveInterfaces.1
      else w.checkMembers.1 := by
    have hsettings : w.settings = settings := rfl
    rw [compile_eq_finished settings catalog u herrors, Workspace.finished, hsettings, hchecks]
    rfl
  rw [hfinished] at hnone
  -- No pass has reported anything, from the last one back to the first.
  have hchecked : w.checkMembers.1.report.entries = [] := by
    split at hnone
    · exact (List.append_eq_nil_iff.1 hnone).1
    · exact hnone
  have hanalyzed : w.report.entries = [] := (List.append_eq_nil_iff.1 hchecked).1
  have hdeclared : (declared settings catalog u).report.entries = [] := by
    have hreport : w = _ := Workspace.analyzed_eq (declared settings catalog u)
    rw [hreport] at hanalyzed
    exact (List.append_eq_nil_iff.1 (List.append_eq_nil_iff.1
      (List.append_eq_nil_iff.1 hanalyzed).1).1).1
  obtain ⟨hgetters, hcase⟩ := declared_complete settings catalog u hdeclared
  exact ⟨hfinished, (declared_declared settings catalog u).clean hgetters hcase hanalyzed, hchecked⟩

/-- An accepted source file leaves a sound store, derived interfaces included. -/
theorem compile_sound (settings : Settings) (catalog : Catalog) (u : Decl.Unit)
    (hchecks : settings.validatesMembers = true)
    (hnone : (compile settings catalog u).report.entries = []) :
    (compile settings catalog u).store.Sound (compile settings catalog u).symbols.imports := by
  by_cases herrors : u.syntaxErrors = 0
  · obtain ⟨hcompile, hclean, hchecked⟩ := compile_accepted settings catalog u hchecks herrors hnone
    obtain ⟨hsound, hwired⟩ := Workspace.sound_checkMembers hclean hchecked
    rw [hcompile]
    split
    · exact Workspace.sound_deriveInterfaces hsound hwired
    · exact hsound
  · rw [compile_syntaxErrors settings catalog u (Nat.pos_of_ne_zero herrors)]
    exact Store.sound_empty _

/-- A namespace with one type of each kind: a class that requires an interface and redeclares its
method, with a property, an event and a constructor, from which a factory is derived. -/
def home : Decl.Unit where
  syntaxErrors := 0
  blocks := [⟨"Home", 1, [
    .type (.enumDecl ⟨"Mode", 2, .int32,
      [⟨"Off", 3, none⟩, ⟨"On", 4, some "1"⟩, ⟨"Full", 5, some "On"⟩]⟩),
    .type (.structDecl ⟨"Level", 6, [⟨"mode", 7, "Mode"⟩]⟩),
    .type (.delegateDecl ⟨"Changed", 8, none, [⟨"level", 8, .input, "Level"⟩]⟩),
    .type (.interfaceDecl ⟨"Light", 9, [],
      [.method ⟨"Set", 10, false, none, [⟨"level", 10, .input, "Level"⟩]⟩]⟩),
    .type (.classDecl ⟨"Lamp", 11, {}, ["Light"], [
      .constructor ⟨12, [⟨"mode", 12, .input, "Mode"⟩]⟩,
      .method ⟨"Set", 13, false, none, [⟨"level", 13, .input, "Level"⟩]⟩,
      .property ⟨"Mode", 14, false, "Mode", none⟩,
      .event ⟨"OnChange", 15, false, "Changed", none⟩]⟩)]⟩]

theorem compile_sound_home :
    ({} : Settings).validatesMembers = true ∧ (compile {} .empty home).report.entries = [] ∧
      (compile {} .empty home).store.objects.map (fun o : ObjectType => o.name) =
        #["Light", "Lamp", "ILampFactory"] ∧
      (compile {} .empty home).store.Sound (compile {} .empty home).symbols.imports := by
  have hnone : (compile {} .empty home).report.entries = [] := by decide +kernel
  have hnames : (compile {} .empty home).store.objects.map (fun o : ObjectType => o.name) =
      #["Light", "Lamp", "ILampFactory"] := by decide +kernel
  exact ⟨rfl, hnone, hnames, compile_sound {} .empty home rfl hnone⟩

end ComponentIdl
