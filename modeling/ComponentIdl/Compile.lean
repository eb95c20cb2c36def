import ComponentIdl.Builder
import ComponentIdl.Evaluation
import ComponentIdl.Conflict
import ComponentIdl.Binding
import ComponentIdl.Derivation

/-!
# Compiling a source file

The passes in their order: declare, bind references, evaluate enums, find cycles, and then, as far
as the settings ask for it, check members and derive interfaces. A file with syntax errors is not
looked at: the errors are counted and the workspace stays empty.
-/

namespace ComponentIdl

/-- A pass over a workspace. -/
inductive Pass where
  | declare (u : Decl.Unit)
  | bindReferences
  | evaluateEnums
  | findCycles
  | checkMembers
  | deriveInterfaces

def Workspace.run (w : Workspace) : Pass → Workspace
  | .declare u => (w.declare u).1
  | .bindReferences => w.bindReferences.1
  | .evaluateEnums => w.evaluateEnums.1
  | .findCycles => w.findCycles.1
  | .checkMembers => w.checkMembers.1
  | .deriveInterfaces => w.deriveInterfaces.1

/-- The passes that the settings ask for, in order. -/
def Settings.passes (s : Settings) (u : Decl.Unit) : List Pass :=
  [.declare u, .bindReferences, .evaluateEnums, .findCycles] ++
    (if s.validatesMembers then [.checkMembers] else []) ++
    (if s.derivesInterfaces then [.deriveInterfaces] else [])

/-- Compiles a source file against a catalog of imported types. -/
def compile (settings : Settings) (catalog : Catalog) (u : Decl.Unit) : Workspace :=
  let start := Workspace.ofCatalog settings catalog
  let counted := { start with report := start.report.addSyntaxErrors u.syntaxErrors }
  if u.syntaxErrors > 0 then counted
  else (settings.passes u).foldl Workspace.run counted

end ComponentIdl
