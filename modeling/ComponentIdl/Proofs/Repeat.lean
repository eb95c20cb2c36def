import ComponentIdl.Proofs.Repeat.Binding
import ComponentIdl.Proofs.Repeat.Counts
import ComponentIdl.Proofs.Repeat.Cycles
import ComponentIdl.Proofs.Repeat.Derivation
import ComponentIdl.Proofs.Repeat.Evaluation
import ComponentIdl.Proofs.Repeat.Members

/-!
# Passes repeated

A build adds what it is given each time. Every other pass has done all it can do after one run: a
second run in a row leaves store and name table as they are, and has something to report only if the
first one had.
-/

namespace ComponentIdl

theorem Report.add_nil (r : Report) : r.add [] = r := by
  rw [add, List.append_nil]

theorem Report.add_eq_self {r : Report} {found : List Diagnostic} (h : r.add found = r) :
    found = [] :=
  List.append_right_eq_self.1 (congrArg Report.entries h)

/-- The passes that come after a build. -/
def laterPasses : List Pass :=
  [.bindReferences, .evaluateEnums, .findCycles, .checkMembers, .deriveInterfaces]

namespace Workspace

variable {w : Workspace} {p : Pass}

/-- A second run of the pass changes neither store nor name table, and reports nothing if the first
run reported nothing. -/
structure Settles (w : Workspace) (p : Pass) : Prop where
  store : ((w.run p).run p).store = (w.run p).store
  symbols : ((w.run p).run p).symbols = (w.run p).symbols
  silent : (w.run p).report = w.report → ((w.run p).run p).report = (w.run p).report

/-- Every pass but a build settles, and what it has done before it does not count as done again. -/
structure Repeatable (w : Workspace) : Prop where
  passes : ∀ p ∈ laterPasses, w.Settles p
  bound : w.bindReferences.1.bindReferences.2.bound = 0
  evaluated : w.evaluateEnums.1.evaluateEnums.2.evaluated = 0
  interfaces : w.deriveInterfaces.1.deriveInterfaces.2.interfaces = 0

theorem settles_of_again {first second : List Diagnostic}
    (hfirst : (w.run p).report = w.report.add first)
    (hsecond : (w.run p).run p = { w.run p with report := (w.run p).report.add second })
    (hsilent : first = [] → second = []) : w.Settles p := by
  refine ⟨by rw [hsecond], by rw [hsecond], fun hsame => ?_⟩
  rw [hsecond, hsilent (Report.add_eq_self (hfirst.symm.trans hsame))]
  exact Report.add_nil _

theorem settles_bindReferences (w : Workspace) : w.Settles .bindReferences := by
  have hfirst := w.bindReferences_eq
  dsimp only at hfirst
  refine settles_of_again (congrArg Workspace.report hfirst) w.bindReferences_again fun hnone => ?_
  rw [hfirst]
  exact Store.bindingFaults_boundIn hnone

theorem settles_evaluateEnums (h : ∀ e ∈ w.store.enums, e.Evaluable) :
    w.Settles .evaluateEnums := by
  obtain ⟨hagain, hsilent⟩ := evaluateEnums_again h
  exact settles_of_again rfl hagain hsilent

theorem settles_findCycles (w : Workspace) : w.Settles .findCycles :=
  settles_of_again rfl w.findCycles_again fun hnone => hnone

theorem settles_checkMembers (w : Workspace) : w.Settles .checkMembers :=
  settles_of_again rfl w.checkMembers_again fun hnone => hnone

theorem settles_deriveInterfaces (h : w.store.Recorded) : w.Settles .deriveInterfaces := by
  obtain ⟨⟨hagain, -⟩, hsilent⟩ := deriveInterfaces_again h
  exact settles_of_again rfl hagain hsilent

theorem repeatable (hrecorded : w.store.Recorded) (henums : ∀ e ∈ w.store.enums, e.Evaluable) :
    w.Repeatable where
  passes p hp := by
    unfold laterPasses at hp
    simp only [List.mem_cons, List.not_mem_nil, or_false] at hp
    rcases hp with rfl | rfl | rfl | rfl | rfl
    · exact w.settles_bindReferences
    · exact settles_evaluateEnums henums
    · exact w.settles_findCycles
    · exact w.settles_checkMembers
    · exact settles_deriveInterfaces hrecorded
  bound := bound_eq_zero w.settles_bindReferences.store
  evaluated := evaluated_eq_zero (settles_evaluateEnums henums).store
  interfaces := (deriveInterfaces_again hrecorded).1.2

/-- In every workspace that is reached, each pass but a build has done its work after one run. -/
theorem repeatable_reached (settings : Settings) (catalog : Catalog) (stages : List Stage) :
    (reached settings catalog stages).Repeatable := by
  have hrecorded : (reached settings catalog stages).store.Recorded :=
    invariant_recorded.reached (P := fun w => w.store.Recorded) Store.recorded_empty stages
  have henums : ∀ e ∈ (reached settings catalog stages).store.enums, e.Evaluable :=
    invariant_evaluable.reached (P := fun w => ∀ e ∈ w.store.enums, e.Evaluable)
      (fun e he => absurd he (Array.not_mem_empty e)) stages
  exact repeatable hrecorded henums

end Workspace

end ComponentIdl
