import ComponentIdl.Import

/-!
# Manifests

A manifest is a text with one imported declaration a line: a category, a dotted name and, for an
enum, the type under it as a keyword or an element code. Blank lines and lines that start with `#`
say nothing. The first line that is no entry is the error of the whole text. An interface, and two
enums over the same type:

    interface Shapes.IOutline
    enum      Shapes.Edge   UInt32
    enum      Shapes.Corner 0x09
-/

namespace ComponentIdl

/-- Why a metadata file cannot be read. -/
inductive ReadFailure where
  | missing
  | notText

def ReadFailure.message : ReadFailure → String
  | missing => "No such file or directory (os error 2)"
  | notText => "stream did not contain valid UTF-8"

/-- What is wrong with the columns of a manifest line. -/
inductive EntryFault where
  | missingName
  | badUnderlying (text : String)

def EntryFault.message : EntryFault → String
  | missingName => "expected '<category> <qualified name>'"
  | badUnderlying text => "invalid enum underlying type '" ++ text ++ "'"

/-- Why a source of imported types cannot be loaded. Lines count from one. -/
inductive SourceError where
  | unreadable (source : String) (failure : ReadFailure)
  | malformed (source : String) (line : Nat) (fault : EntryFault)
  | unknownCategory (source keyword : String)

def SourceError.message : SourceError → String
  | unreadable source failure =>
    "failed to read metadata file '" ++ source ++ "': " ++ failure.message
  | malformed source line fault =>
    source ++ ":" ++ toString line ++ ": malformed metadata entry: " ++ fault.message
  | unknownCategory source keyword =>
    source ++ ": unknown type category '" ++ keyword ++ "'"

namespace Manifest

/-- An element code of one byte in hexadecimal digits; a plus sign before them says nothing. -/
def code? : List Char → Option Nat := Literal.word? 0xFF 16

/-- The primitive written as an element code after `0x`, or as a keyword. -/
def primitive? (text : String) : Option Primitive :=
  match text.toList with
  | '0' :: 'x' :: code => (code? code).bind Primitive.ofCode?
  | _ => Primitive.ofKeyword? text

def underlying? (text : String) : Option IntegerType :=
  (primitive? text).bind Primitive.integerType?

/-- The entry in the columns of a line; columns after the third are ignored. -/
def entry (source : String) (line : Nat) : List String → Except SourceError Import
  | keyword :: name :: rest =>
    match ImportKind.ofKeyword? keyword with
    | none => .error (.unknownCategory source keyword)
    | some kind =>
      match rest with
      | [] => .ok { name, kind, underlying := none, source }
      | text :: _ =>
        match if kind = .enum then underlying? text else none with
        | none => .error (.malformed source line (.badUnderlying text))
        | some base => .ok { name, kind, underlying := some base, source }
  | _ => .error (.malformed source line .missingName)

/-- Whether a line says nothing: it is blank or its first character that is no blank is `#`. -/
def isSilent (line : String) : Bool :=
  match (Text.trim line).toList with
  | [] => true
  | c :: _ => c == '#'

/-- The entries of the lines that say something, of which the first has the given number. -/
def entries (source : String) (number : Nat) : List String → Except SourceError (List Import)
  | [] => .ok []
  | line :: rest =>
    if isSilent line then entries source (number + 1) rest
    else
      match entry source number (Text.columns line) with
      | .error e => .error e
      | .ok found =>
        match entries source (number + 1) rest with
        | .error e => .error e
        | .ok others => .ok (found :: others)

/-- Reads a manifest; `source` labels its entries and errors. -/
def parse (source text : String) : Except SourceError (List Import) :=
  entries source 1 (Text.lines text)

end Manifest

end ComponentIdl
