import ComponentIdl.Import.Manifest

/-!
# Sources of imported types, and the catalog made of them

A source is a database in memory or a manifest file. A catalog holds the types of all sources by
name. Where two entries share a name the earlier one stays, in the order of the sources and of the
entries in each.
-/

namespace ComponentIdl

/-- A database of imported types held in memory. -/
structure Database where
  name : String
  types : List Import := []

namespace Database

def addType (d : Database) (name : String) (kind : ImportKind) : Database :=
  { d with types := d.types ++ [{ name, kind, underlying := none, source := d.name }] }

def addEnum (d : Database) (name : String) (base : IntegerType) : Database :=
  { d with
    types := d.types ++ [{ name, kind := .enum, underlying := some base, source := d.name }] }

def isEmpty (d : Database) : Bool := d.types.isEmpty

def size (d : Database) : Nat := d.types.length

end Database

/-- A manifest file under its path; a file that does not exist has no content. -/
structure ManifestFile where
  path : String
  content : Option (List UInt8)

/-- Anything that yields imported types. -/
inductive Source where
  | database (d : Database)
  | manifest (f : ManifestFile)

namespace Source

def name : Source → String
  | database d => d.name
  | manifest f => f.path

/-- The types of a source. A manifest file has to exist and to hold text in UTF-8. -/
def load : Source → Except SourceError (List Import)
  | database d => .ok d.types
  | manifest f =>
    match f.content with
    | none => .error (.unreadable f.path .missing)
    | some bytes =>
      match String.fromUTF8? ⟨bytes.toArray⟩ with
      | none => .error (.unreadable f.path .notText)
      | some text => Manifest.parse f.path text

end Source

/-- Imported types by name; each name has one entry. -/
structure Catalog where
  types : List Import := []
  distinct : (types.map Import.name).Nodup := by exact List.nodup_nil

namespace Catalog

def empty : Catalog := {}

def get? (c : Catalog) (name : String) : Option Import :=
  c.types.find? fun t => t.name == name

def contains (c : Catalog) (name : String) : Bool := (c.get? name).isSome

def size (c : Catalog) : Nat := c.types.length

theorem get?_eq_none_iff (c : Catalog) (name : String) :
    c.get? name = none ↔ name ∉ c.types.map Import.name := by
  simp [get?]

/-- The catalog with a new entry at the end; a name that has an entry keeps it. -/
def insertNew (c : Catalog) (t : Import) : Catalog :=
  if h : c.get? t.name = none then
    { types := c.types ++ [t]
      distinct := by
        have hn := (get?_eq_none_iff c t.name).1 h
        rw [List.map_append, List.nodup_append]
        refine ⟨c.distinct, by simp, ?_⟩
        intro a ha b hb hab
        simp only [List.map_cons, List.map_nil, List.mem_singleton] at hb
        exact hn (hb ▸ hab ▸ ha) }
  else c

/-- The catalog of a list of entries: the first entry of each name. -/
def ofList (types : List Import) : Catalog := types.foldl insertNew empty

/-- The types of all sources, one source after the other. -/
def loadAll : List Source → Except SourceError (List Import)
  | [] => .ok []
  | s :: ss =>
    match s.load with
    | .error e => .error e
    | .ok types =>
      match loadAll ss with
      | .error e => .error e
      | .ok rest => .ok (types ++ rest)

/-- The catalog of all sources, if every source can be loaded. -/
def ofSources (sources : List Source) : Except SourceError Catalog :=
  (loadAll sources).map ofList

theorem get?_insertNew (c : Catalog) (t : Import) (name : String) :
    (c.insertNew t).get? name =
      if name = t.name then some ((c.get? name).getD t) else c.get? name := by
  unfold insertNew
  by_cases h : c.get? t.name = none
  · rw [dif_pos h]
    simp only [get?, List.find?_append] at h ⊢
    by_cases hn : name = t.name
    · subst hn
      simp [h]
    · have hb : (t.name == name) = false := by simpa using Ne.symm hn
      simp [hn, hb]
  · rw [dif_neg h]
    by_cases hn : name = t.name
    · subst hn
      cases hg : c.get? t.name with
      | none => exact absurd hg h
      | some v => simp
    · simp [hn]

end Catalog

end ComponentIdl
