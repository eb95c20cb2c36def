import ComponentIdl.Diagnostic
import ComponentIdl.Store
import ComponentIdl.NameTable

/-!
# Workspaces

What the passes of one compilation share: the settings, the store, the name table and the report.
-/

namespace ComponentIdl

/-- The switches of a compilation. -/
structure Settings where
  /-- The assembly recorded on every declaration. -/
  assembly : String := "default"
  /-- Whether members are checked against each other and against inherited members. -/
  validatesMembers : Bool := true
  /-- Whether interfaces are derived from classes. -/
  derivesInterfaces : Bool := true

structure Workspace where
  settings : Settings
  store : Store := {}
  symbols : NameTable := {}
  report : Report := {}

/-- A workspace without declarations, over a catalog of imported types. -/
def Workspace.ofCatalog (settings : Settings) (catalog : Catalog) : Workspace :=
  { settings, symbols := .ofCatalog catalog }

end ComponentIdl
