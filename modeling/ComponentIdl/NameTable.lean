import ComponentIdl.Import.Catalog
import ComponentIdl.Store.Member
import ComponentIdl.NameMap

/-!
# The name table

What each dotted name stands for in one compilation: local declarations and the imported types
looked up so far. A look-up that finds nothing local takes the type from the catalog, or from the
few intrinsic types, gives it a slot and remembers it, so a name keeps the meaning it once had.
-/

namespace ComponentIdl

structure NameTable where
  symbols : NameMap Symbol := {}
  /-- The imported types looked up so far, by slot. -/
  imports : Array Import := #[]
  catalog : Catalog := {}

namespace NameTable

/-- The types that can be named without any metadata. -/
def builtins : List Import :=
  [{ name := registrationToken, kind := .struct, underlying := none, source := "<intrinsic>" }]

def ofCatalog (catalog : Catalog) : NameTable := { catalog }

/-- What a name stands for, without looking beyond the table. -/
def get? (t : NameTable) (name : String) : Option Symbol := t.symbols.get? name

def contains (t : NameTable) (name : String) : Bool := t.symbols.contains name

def size (t : NameTable) : Nat := t.symbols.size

def isEmpty (t : NameTable) : Bool := t.size == 0

/-- Gives a name a meaning, if it has none. -/
def insert (t : NameTable) (name : String) (symbol : Symbol) : NameTable :=
  { t with symbols := t.symbols.insertNew name symbol }

/-- The same insertion with its answer: whether the name had no meaning before. -/
def tryInsert (t : NameTable) (name : String) (symbol : Symbol) : Bool × NameTable :=
  (!t.contains name, t.insert name symbol)

/-- The imported type of a name; the catalog comes before the intrinsic types. -/
def import? (t : NameTable) (name : String) : Option Import :=
  (t.catalog.get? name).or (builtins.find? fun i => i.name == name)

/-- What a name stands for, and the table that remembers it. -/
def lookup (t : NameTable) (name : String) : Option Symbol × NameTable :=
  match t.get? name with
  | some symbol => (some symbol, t)
  | none =>
    match t.import? name with
    | none => (none, t)
    | some i =>
      let symbol := Symbol.imported t.imports.size i.kind
      (some symbol, { t.insert name symbol with imports := t.imports.push i })

end NameTable

end ComponentIdl
