import Mathlib.Logic.Relation
import ComponentIdl.Proofs.Builder.Regrouping
import ComponentIdl.Proofs.Derivation.Ledger
import ComponentIdl.Proofs.Derivation.Simulation
import ComponentIdl.Proofs.Switches

/-!
# How namespaces are written does not matter

The passes after the build do not look at blocks, but for the derivation: it declares an interface in
the block of its class. The block only has to be there, and it always is. So a source file whose
blocks are split or nested differently is compiled to the same workspace, but for the blocks.
-/

namespace ComponentIdl

/-- The source files differ in how one of their blocks is written. -/
structure Decl.Unit.Regroups (u u' : Decl.Unit) : Prop where
  items : Decl.Within Decl.Regroups u.items u'.items
  syntaxErrors : u'.syntaxErrors = u.syntaxErrors

namespace Derivation

variable {s s' : Derivation} {st : Store} {id : ObjectId} {o : ObjectType}
  {plan : DerivedRole × MemberSet}

/-- Two derivations that record what they derive, over the classes of `st`, and that differ in blocks
only. -/
structure Regrouped (st : Store) (s s' : Derivation) : Prop where
  left : Recording st s
  right : Recording st s'
  store : s'.store.withoutBlocks = s.store.withoutBlocks
  symbols : s'.symbols = s.symbols
  found : s'.found = s.found

theorem Regrouped.objects (h : Regrouped st s s') : s'.store.objects = s.store.objects :=
  (Store.mk.inj h.store).2.1

theorem Regrouped.tree (h : Regrouped st s s') :
    s'.store.namespaces.withoutBlocks = s.store.namespaces.withoutBlocks :=
  (Store.mk.inj h.store).1

theorem Regrouped.path? (h : Regrouped st s s') (path : List String) :
    s'.store.namespaces.path? path = s.store.namespaces.path? path :=
  (Namespaces.sameShape_of_withoutBlocks h.tree).walk? Namespaces.root path

theorem Regrouped.symbol? (h : Regrouped st s s') (n : NamespaceId) (name : String) :
    s'.store.namespaces.symbol? n name = s.store.namespaces.symbol? n name :=
  Namespaces.symbol?_of_withoutBlocks h.tree n name

theorem withoutBlocks_withInterface (st : Store) (node : NamespaceId) (block block' id slot : Nat)
    (role : DerivedRole) (interface : ObjectType)
    (hfree : st.namespaces.symbol? node interface.name = none) :
    (withInterface st node block id slot role interface).withoutBlocks =
      withInterface st.withoutBlocks node block' id slot role interface :=
  congrArg (fun st => st.modifyObject id (recorded role slot))
    (st.withoutBlocks_declare node block block' _ _ hfree)

/-- An interface is derived the same, whatever the block of its class. -/
theorem Regrouped.declare (h : Regrouped st s s')
    (hclass : st.header? (.runtimeClass id) = some o.toHeader) (plan : DerivedRole × MemberSet) :
    Regrouped st (declare id o s plan) (declare id o s' plan) := by
  obtain ⟨node, block, hpath, -, hblock, -⟩ := h.left.place hclass
  obtain ⟨node', block', hpath', -, hblock', -⟩ := h.right.place hclass
  obtain rfl : node = node' := Option.some.inj (hpath.symm.trans ((h.path? _).symm.trans hpath'))
  have hleft := h.left.step hclass (step_declare id o s plan)
  have hright := h.right.step hclass (step_declare id o s' plan)
  have hsame := h.symbol? node (interfaceOf id o plan.1 plan.2).name
  cases hfree : s.store.namespaces.symbol? node (interfaceOf id o plan.1 plan.2).name with
  | some σ =>
    rw [declare_taken hpath hfree] at hleft ⊢
    rw [declare_taken hpath' (hsame.trans hfree)] at hright ⊢
    exact ⟨hleft, hright, h.store, h.symbols, congrArg (· ++ _) h.found⟩
  | none =>
    have hfree' := hsame.trans hfree
    rw [declare_free hpath hfree hblock] at hleft ⊢
    rw [declare_free hpath' hfree' hblock'] at hright ⊢
    refine ⟨hleft, hright, ?_, ?_, h.found⟩
    · dsimp only
      rw [withoutBlocks_withInterface _ _ _ block _ _ _ _ hfree', h.store, h.objects,
        withoutBlocks_withInterface _ _ _ block _ _ _ _ hfree]
    · dsimp only
      rw [h.symbols, h.objects]

theorem simulation_regrouped (st : Store) :
    Simulation (Regrouped st) fun id o o' =>
      o' = o ∧ st.header? (.runtimeClass id) = some o.toHeader where
  slots s s' hs := by rw [hs.objects]
  objects s s' id o o' hs ho ho' := by
    rw [hs.objects] at ho'
    obtain rfl : o = o' := Option.some.inj (ho.symm.trans ho')
    exact ⟨rfl, fun hawaits => ⟨rfl, (invariant_recording st).turn s id o hs.left ho hawaits⟩⟩
  roles id o o' ho := by rw [ho.1]
  declare s s' id o o' plan hs ho _ := by
    rw [ho.1]
    exact hs.declare ho.2 plan

end Derivation

namespace Workspace

variable {w w' : Workspace}

theorem analyzed_withoutBlocks (w : Workspace) :
    w.withoutBlocks.analyzed = w.analyzed.withoutBlocks := by
  rw [analyzed_eq, analyzed_eq]
  rfl

theorem checkMembers_withoutBlocks (w : Workspace) :
    w.withoutBlocks.checkMembers.1 = w.checkMembers.1.withoutBlocks := rfl

theorem header?_withoutBlocks (st : Store) (σ : Symbol) :
    st.withoutBlocks.header? σ = st.header? σ := by
  cases σ <;> rfl

theorem deriveInterfaces_regrouped (h : w.store.Recorded) (h' : w'.store.Recorded)
    (hsame : w'.withoutBlocks = w.withoutBlocks) :
    w'.deriveInterfaces.1.withoutBlocks = w.deriveInterfaces.1.withoutBlocks := by
  obtain ⟨hsettings, hstore, hsymbols, hreport⟩ := Workspace.mk.inj hsame
  have hclasses : ∀ id, w'.store.header? (.runtimeClass id) = w.store.header? (.runtimeClass id) := by
    intro id
    rw [← header?_withoutBlocks, hstore, header?_withoutBlocks]
  have hstart : Derivation.Regrouped w.store w.derivation w'.derivation :=
    ⟨⟨h, fun _ => rfl⟩, ⟨h', hclasses⟩, hstore, hsymbols, rfl⟩
  have hrun := (Derivation.simulation_regrouped w.store).run hstart
  rw [deriveInterfaces_eq, deriveInterfaces_eq]
  unfold withoutBlocks
  dsimp only
  rw [hsettings, hreport, hrun.store, hrun.symbols, hrun.found]

theorem finished_regrouped (h : w.store.Recorded) (h' : w'.store.Recorded)
    (hsame : w'.withoutBlocks = w.withoutBlocks) :
    w'.finished.withoutBlocks = w.finished.withoutBlocks := by
  have hsettings : w'.settings = w.settings := (Workspace.mk.inj hsame).1
  have hchecked : w'.checkMembers.1.withoutBlocks = w.checkMembers.1.withoutBlocks := by
    rw [← checkMembers_withoutBlocks, hsame, checkMembers_withoutBlocks]
  have hrecorded := invariant_recorded.checkMembers w h
  have hrecorded' := invariant_recorded.checkMembers w' h'
  unfold finished
  rw [hsettings]
  cases w.settings.validatesMembers <;> cases w.settings.derivesInterfaces
  · exact hsame
  · exact deriveInterfaces_regrouped h h' hsame
  · exact hchecked
  · exact deriveInterfaces_regrouped hrecorded hrecorded' hchecked

end Workspace

variable (settings : Settings) (catalog : Catalog) {u u' : Decl.Unit}

theorem declared_regrouped (h : u.Regroups u') :
    (declared settings catalog u').withoutBlocks = (declared settings catalog u).withoutBlocks := by
  have hstart := builder_registered settings catalog
  have hbuilt := (Builder.Regrouped.within h.items ⟨hstart, hstart, .refl _⟩).alike
  unfold declared
  rw [Workspace.declare_eq, Workspace.declare_eq]
  unfold Workspace.ofBuilder Workspace.withoutBlocks
  dsimp only
  rw [hbuilt.store, hbuilt.symbols, hbuilt.found]

theorem compile_regrouped (h : u.Regroups u') :
    (compile settings catalog u').withoutBlocks = (compile settings catalog u).withoutBlocks := by
  by_cases herrors : u.syntaxErrors = 0
  · have hanalyzed : (declared settings catalog u').analyzed.withoutBlocks =
        (declared settings catalog u).analyzed.withoutBlocks := by
      rw [← Workspace.analyzed_withoutBlocks, declared_regrouped settings catalog h,
        Workspace.analyzed_withoutBlocks]
    rw [compile_eq_finished settings catalog u herrors,
      compile_eq_finished settings catalog u' (h.syntaxErrors.trans herrors)]
    exact Workspace.finished_regrouped (recorded_analyzed settings catalog u)
      (recorded_analyzed settings catalog u') hanalyzed
  · have hpos : u.syntaxErrors > 0 := Nat.pos_of_ne_zero herrors
    have hpos' : u'.syntaxErrors > 0 := h.syntaxErrors ▸ hpos
    rw [compile_syntaxErrors settings catalog u hpos, compile_syntaxErrors settings catalog u' hpos',
      h.syntaxErrors]

/-- Source files whose blocks are split or nested differently, in one place or in many, are compiled
to workspaces that differ in the blocks of namespaces and in nothing else. -/
theorem compile_withoutBlocks (h : Relation.EqvGen Decl.Unit.Regroups u u') :
    (compile settings catalog u).withoutBlocks = (compile settings catalog u').withoutBlocks := by
  induction h with
  | rel u u' h => exact (compile_regrouped settings catalog h).symm
  | refl u => rfl
  | symm u u' _ ih => exact ih.symm
  | trans u u' u'' _ _ ih ih' => exact ih.trans ih'

def crane : Decl.Item :=
  .type (.classDecl ⟨"Crane", 2, {}, [], [.method ⟨"Lift", 3, false, none, []⟩]⟩)

def cargo : Decl.Item :=
  .type (.structDecl ⟨"Load", 4, [⟨"tons", 5, "Int32"⟩]⟩)

/-- A class and a struct in one block. -/
def quay : Decl.Unit := ⟨[⟨"Sea.Port", 1, [crane, cargo]⟩], 0⟩

/-- The same class in a block of a block, and the struct in a block of its own. -/
def spreadQuay : Decl.Unit :=
  ⟨[⟨"Sea", 1, [.block "Port" 1 [crane]]⟩, ⟨"Sea.Port", 1, [cargo]⟩], 0⟩

theorem compile_withoutBlocks_quay :
    Relation.EqvGen Decl.Unit.Regroups quay spreadQuay ∧
      ((compile {} {} quay).store.namespaces.blocks 2).map (·.declarations) =
        [[.runtimeClass 0, .struct 0, .interface 1]] ∧
      ((compile {} {} spreadQuay).store.namespaces.blocks 2).map (·.declarations) =
        [[.runtimeClass 0, .interface 1], [.struct 0]] ∧
      (compile {} {} quay).withoutBlocks = (compile {} {} spreadQuay).withoutBlocks := by
  have hsplit := Decl.Regroups.split "Sea.Port" 1 [crane] [cargo]
  have hnest := Decl.Regroups.nest "Sea" "Port" 1 [crane]
  let middle : Decl.Unit := ⟨[⟨"Sea.Port", 1, [crane]⟩, ⟨"Sea.Port", 1, [cargo]⟩], 0⟩
  have hfirst : quay.Regroups middle := ⟨.here hsplit, rfl⟩
  have hsecond : middle.Regroups spreadQuay := ⟨.among [] [_] (.here hnest), rfl⟩
  have hsame : Relation.EqvGen Decl.Unit.Regroups quay spreadQuay :=
    .trans _ _ _ (.rel _ _ hfirst) (.rel _ _ hsecond)
  exact ⟨hsame, by decide +kernel, by decide +kernel, compile_withoutBlocks {} {} hsame⟩

end ComponentIdl
