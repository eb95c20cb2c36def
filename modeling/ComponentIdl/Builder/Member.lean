import ComponentIdl.Store.Entity

/-!
# Written members as members of the store

Types are read as references, of which those to built-in types are bound at once. Whether the text
of an enum initializer is a literal or a name is told by its first character.
-/

namespace ComponentIdl

def Parameter.ofDecl (p : Decl.Parameter) : Parameter :=
  { name := p.name, line := p.line, passing := p.passing, type := .parse p.type }

def Method.ofDecl (m : Decl.Method) : Method where
  name := m.name
  line := m.line
  isStatic := m.isStatic
  origin := .written
  result := m.result.map Reference.parse
  parameters := m.parameters.map Parameter.ofDecl
  overrides := none

def Constructor.ofDecl (c : Decl.Constructor) : Constructor :=
  { line := c.line, parameters := c.parameters.map Parameter.ofDecl }

/-- Whether the text of an initializer is a literal: it starts with a digit or a sign. -/
def startsLiteral : List Char → Bool
  | c :: _ => c.isDigit || c == '-' || c == '+'
  | [] => false

/-- The initializer of an enum member; blanks alone are no initializer. -/
def ValueState.ofText (text : Option String) : ValueState :=
  let trimmed := Text.trim (text.getD "")
  if trimmed = "" then .implicit
  else if startsLiteral trimmed.toList then .literal trimmed
  else .reference trimmed

def EnumMember.ofDecl (m : Decl.EnumMember) : EnumMember :=
  { name := m.name, line := m.line, value := .ofText m.value }

end ComponentIdl
