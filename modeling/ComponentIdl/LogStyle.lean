import ComponentIdl.Text.Blank

/-!
# Forms of log output

Log output is plain text, an indented tree or one JSON value a line. A form is read from its name.
-/

namespace ComponentIdl

/-- The forms of log output. -/
inductive LogStyle where
  | text
  | tree
  | json
deriving DecidableEq

/-- The text names no form of log output; it is kept with its letters made small. -/
structure UnknownLogStyle where
  text : String

def UnknownLogStyle.message (e : UnknownLogStyle) : String :=
  "unknown log format '" ++ e.text ++ "'"

/-- Reads the name of a form, whatever the case of its letters. -/
def LogStyle.parse (text : String) : Except UnknownLogStyle LogStyle :=
  match Text.lower text with
  | "text" => .ok .text
  | "tree" => .ok .tree
  | "json" => .ok .json
  | other => .error ⟨other⟩

end ComponentIdl
