import ComponentIdl.Compile

/-!
# Workspaces that can be reached

A session starts from a workspace without declarations. Each of its stages is a build, driven by any
visits in any order, or a pass. What a build and each later pass keep holds of all workspaces that
are reached.
-/

namespace ComponentIdl

/-- What is done next with a workspace. -/
inductive Stage where
  /-- A build that follows the visits, which need not be those of a declaration tree. -/
  | build (visits : List Visit)
  | pass (p : Pass)

namespace Workspace

def advance (w : Workspace) : Stage → Workspace
  | .build visits => (w.declareVisits visits).1
  | .pass p => w.run p

/-- The workspace after some stages. -/
def reached (settings : Settings) (catalog : Catalog) (stages : List Stage) : Workspace :=
  stages.foldl advance (.ofCatalog settings catalog)

/-- A property of workspaces that a build keeps, and each of the passes after it. -/
structure Invariant (P : Workspace → Prop) : Prop where
  build : ∀ w visits, P w → P (w.declareVisits visits).1
  bindReferences : ∀ w, P w → P w.bindReferences.1
  evaluateEnums : ∀ w, P w → P w.evaluateEnums.1
  findCycles : ∀ w, P w → P w.findCycles.1
  checkMembers : ∀ w, P w → P w.checkMembers.1
  deriveInterfaces : ∀ w, P w → P w.deriveInterfaces.1

variable {P : Workspace → Prop}

theorem Invariant.advance (h : Invariant P) {w : Workspace} (hw : P w) (stage : Stage) :
    P (w.advance stage) := by
  cases stage with
  | build visits => exact h.build w visits hw
  | pass p =>
    cases p with
    | declare u => exact h.build w u.visits hw
    | bindReferences => exact h.bindReferences w hw
    | evaluateEnums => exact h.evaluateEnums w hw
    | findCycles => exact h.findCycles w hw
    | checkMembers => exact h.checkMembers w hw
    | deriveInterfaces => exact h.deriveInterfaces w hw

theorem Invariant.reached (h : Invariant P) {settings : Settings} {catalog : Catalog}
    (hstart : P (.ofCatalog settings catalog)) (stages : List Stage) :
    P (reached settings catalog stages) := by
  unfold Workspace.reached
  generalize Workspace.ofCatalog settings catalog = w at hstart
  induction stages generalizing w with
  | nil => exact hstart
  | cons stage stages ih => exact ih _ (h.advance hstart stage)

end Workspace

end ComponentIdl
