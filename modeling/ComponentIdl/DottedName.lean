import ComponentIdl.Text.Blank

/-!
# Dotted names

A declaration is named by a simple name inside a path of namespaces. The written form joins path and
name with dots. Reading drops empty segments, so `A..B` and `.A.B` name the same declaration.
-/

namespace ComponentIdl

/-- A simple name in a path of namespaces; the path of a global name is empty. -/
structure DottedName where
  scope : List String
  name : String
deriving DecidableEq

def segments (text : String) : List String :=
  (Text.words (· == '.') text.toList).map String.ofList

namespace DottedName

def ofGlobal (name : String) : DottedName := ⟨[], name⟩

/-- Reads a dotted text: its last segment is the name. A text without segments is the empty
global name. -/
def parse (text : String) : DottedName :=
  match (segments text).getLast? with
  | some name => ⟨(segments text).dropLast, name⟩
  | none => ofGlobal ""

/-- The name `name`, taken as it is, inside the namespace written `scope`. -/
def within (scope name : String) : DottedName := ⟨segments scope, name⟩

def scopeText (q : DottedName) : String := ".".intercalate q.scope

def render (q : DottedName) : String := ".".intercalate (q.scope ++ [q.name])

def isGlobal (q : DottedName) : Bool := q.scope.isEmpty

/-- A name directly inside `q`, taken as a namespace. -/
def child (q : DottedName) (name : String) : DottedName := ⟨q.scope ++ [q.name], name⟩

/-- The namespace that holds `q`; a global name has none. -/
def parent? (q : DottedName) : Option DottedName :=
  q.scope.getLast?.map fun name => ⟨q.scope.dropLast, name⟩

/-- Names are ordered by simple name, then by path. -/
protected def compare (p q : DottedName) : Ordering :=
  (Ord.compare p.name q.name).then (Ord.compare p.scope q.scope)

instance : Ord DottedName := ⟨DottedName.compare⟩

end DottedName

/-- Whether a written name says its namespace itself. -/
def isDotted (text : String) : Bool := text.toList.contains '.'

/-- The name under which a reference written `text` in the namespace `scope` is looked up: a dotted
text stands for itself, any other is relative to the namespace that holds it. -/
def absoluteName (scope text : String) : String :=
  if isDotted text then text else (DottedName.within scope text).render

end ComponentIdl
