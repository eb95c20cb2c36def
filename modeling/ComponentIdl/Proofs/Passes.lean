import ComponentIdl.Proofs.Compile
import ComponentIdl.Proofs.Derivation.Step
import ComponentIdl.Proofs.NameTable.History

/-!
# The name table through any passes

Passes in any order and number touch the name table by insertions and look-ups alone, so what holds of
a table over any history holds of it: the catalog under it stays, and no two imports share a name.
-/

namespace ComponentIdl

theorem Builder.evolves_visit (b : Builder) (v : Visit) :
    b.symbols.Evolves (b.visit v).symbols := by
  cases b.step_visit v with
  | keep _ symbols _ => exact symbols ▸ .refl
  | opened d h =>
    rw [h, symbols_openBlock]
    exact .refl
  | declared _ _ _ h entity _ _ _ _ _ _ symbols _ => exact symbols ▸ .insert .refl _ _
  | grown _ _ _ _ symbols _ => exact symbols ▸ .refl
  | field _ _ _ _ symbols _ => exact symbols ▸ .refl
  | enumMember _ _ _ _ symbols _ => exact symbols ▸ .refl

theorem Derivation.evolves_run (s : Derivation) : s.symbols.Evolves s.run.symbols := by
  refine run_preserves (P := fun s' => s.symbols.Evolves s'.symbols) (Q := fun _ _ => True)
    (fun _ _ _ _ _ _ => trivial) ?_ .refl
  intro s' s'' id o plan h _ _ hstep
  cases hstep with
  | passed => exact h
  | taken d => exact h
  | declared => exact h.insert _ _

namespace Workspace

theorem evolves_run (w : Workspace) (p : Pass) : w.symbols.Evolves (w.run p).symbols := by
  cases p with
  | declare u =>
    exact Builder.run_preserves (P := fun b => w.symbols.Evolves b.symbols) u.visits
      (fun v _ b h => h.trans (b.evolves_visit v)) .refl
  | bindReferences =>
    show w.symbols.Evolves w.bindReferences.1.symbols
    rw [w.bindReferences_eq]
    exact w.symbols.evolves_lookupAll _
  | evaluateEnums => exact .refl
  | findCycles => exact .refl
  | checkMembers => exact .refl
  | deriveInterfaces =>
    exact Derivation.evolves_run { store := w.store, symbols := w.symbols }

theorem evolves_passes (w : Workspace) (passes : List Pass) :
    w.symbols.Evolves (passes.foldl run w).symbols := by
  induction passes generalizing w with
  | nil => exact .refl
  | cons p passes ih => exact (w.evolves_run p).trans (ih _)

end Workspace

end ComponentIdl
