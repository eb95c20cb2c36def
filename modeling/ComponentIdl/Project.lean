import ComponentIdl.Compile
import ComponentIdl.Text.Quoted

/-!
# Projects

A project names the settings and the sources of imported types. Loading it reads every source once
and yields an environment, in which any number of source files are compiled, each in a workspace of
its own over the same catalog.
-/

namespace ComponentIdl

/-- All that has to be known before a source file is compiled. -/
structure Project where
  settings : Settings := {}
  sources : List Source := []

/-- Why a project cannot be loaded. -/
inductive LoadError where
  | metadata (cause : SourceError)

def LoadError.message : LoadError → String
  | metadata cause => "failed to load imported metadata: " ++ cause.message

/-- The settings of a project with the imported types of all its sources. -/
structure Environment where
  settings : Settings
  catalog : Catalog

def Environment.compile (e : Environment) (u : Decl.Unit) : Workspace :=
  ComponentIdl.compile e.settings e.catalog u

namespace Project

/-- The written form, with the names of the sources. -/
def describe (p : Project) : String :=
  let names := p.sources.map fun s => Text.quote s.name
  "CompilerOptions \x7b assembly_name: " ++ Text.quote p.settings.assembly ++
    ", sources: [" ++ ", ".intercalate names ++ "]" ++
    ", synthesize_runtimeclasses: " ++ toString p.settings.derivesInterfaces ++
    ", validate_members: " ++ toString p.settings.validatesMembers ++ " \x7d"

def load (p : Project) : Except LoadError Environment :=
  match Catalog.ofSources p.sources with
  | .ok catalog => .ok { settings := p.settings, catalog }
  | .error cause => .error (.metadata cause)

end Project

end ComponentIdl
