/-!
# Diagnostics

A semantic error is recorded, never thrown, so one compilation shows as many independent errors as
possible. A diagnostic names the kind of error, its line and the offending symbol. A report lists
the diagnostics in the order of their discovery beside a count of syntax errors.
-/

namespace ComponentIdl

namespace Diagnostic

/-- The kinds of semantic errors. -/
inductive Kind where
  /-- A reference names nothing that is known. -/
  | unresolvedType
  /-- Two declarations of one namespace have one name. -/
  | duplicateNamespaceMember
  /-- Two members of a type have one name illegally. -/
  | duplicateTypeMember
  /-- Two fields of a struct have one name. -/
  | duplicateField
  /-- The value of an enum member depends on itself. -/
  | circularEnumField
  /-- A struct contains itself by value. -/
  | circularStructField
  /-- An interface requires itself. -/
  | circularInterface
  /-- An enum value does not fit the type under the enum. -/
  | enumFieldOutOfRange
  /-- The accessor body of a property is malformed. -/
  | invalidPropertyAccessor
  /-- A property accessor is declared twice. -/
  | duplicatePropertyAccessor
  /-- A second fragment of a property gives an accessor that exists. -/
  | repeatedPropertyAccessor
  /-- An event accessor collides with a method or with a body. -/
  | conflictingEventAccessor
  /-- Two methods have one name and parameter list. -/
  | cannotOverload
  /-- A member collides with an inherited member of another kind. -/
  | conflictingInheritance
  /-- A static class has an instance member. -/
  | staticMemberOnly
  /-- A required type is no interface. -/
  | typeNotInterface
  /-- The type of an event is no delegate. -/
  | typeNotDelegate
  /-- Two sibling namespaces differ by letter case only. -/
  | namespaceCaseConflict
deriving DecidableEq

namespace Kind

def all : List Kind :=
  [unresolvedType, duplicateNamespaceMember, duplicateTypeMember, duplicateField,
   circularEnumField, circularStructField, circularInterface, enumFieldOutOfRange,
   invalidPropertyAccessor, duplicatePropertyAccessor, repeatedPropertyAccessor,
   conflictingEventAccessor, cannotOverload, conflictingInheritance, staticMemberOnly,
   typeNotInterface, typeNotDelegate, namespaceCaseConflict]

def identifier : Kind → String
  | unresolvedType => "UNRESOLVED_TYPE"
  | duplicateNamespaceMember => "DUPLICATE_NAMESPACE_MEMBER"
  | duplicateTypeMember => "DUPLICATE_TYPE_MEMBER_ID"
  | duplicateField => "DUPLICATE_FIELD_ID"
  | circularEnumField => "CIRCULAR_ENUM_FIELD"
  | circularStructField => "CIRCULAR_STRUCT_FIELD"
  | circularInterface => "CIRCULAR_INTERFACE_INHERITANCE"
  | enumFieldOutOfRange => "ENUM_FIELD_OUT_OF_RANGE"
  | invalidPropertyAccessor => "INVALID_PROPERTY_ACCESSOR"
  | duplicatePropertyAccessor => "DUPLICATE_PROPERTY_ACCESSOR"
  | repeatedPropertyAccessor => "INVALID_OR_DUPLICATE_PROPERTY_ACCESSOR"
  | conflictingEventAccessor => "CONFLICTING_EVENT_ACCESSOR_METHODS"
  | cannotOverload => "CANNOT_OVERLOAD_METHOD"
  | conflictingInheritance => "CONFLICTING_INHERITANCE_MEMBER"
  | staticMemberOnly => "STATIC_MEMBER_ONLY"
  | typeNotInterface => "TYPE_NOT_INTERFACE"
  | typeNotDelegate => "TYPE_NOT_DELEGATE"
  | namespaceCaseConflict => "NAMESPACE_CASE_CONFLICT"

def description : Kind → String
  | unresolvedType => "unresolved type"
  | duplicateNamespaceMember => "duplicate namespace member"
  | duplicateTypeMember => "duplicate type member"
  | duplicateField => "duplicate struct field"
  | circularEnumField => "circular enum member value"
  | circularStructField => "struct contains itself"
  | circularInterface => "interface requires itself"
  | enumFieldOutOfRange => "enum member value out of range"
  | invalidPropertyAccessor => "invalid property accessor"
  | duplicatePropertyAccessor => "duplicate property accessor"
  | repeatedPropertyAccessor => "invalid or duplicate property accessor"
  | conflictingEventAccessor => "conflicting event accessor methods"
  | cannotOverload => "cannot overload method"
  | conflictingInheritance => "conflicts with inherited member"
  | staticMemberOnly => "static class may only contain static members"
  | typeNotInterface => "type is not an interface"
  | typeNotDelegate => "type is not a delegate"
  | namespaceCaseConflict => "namespace differs from an existing namespace only by case"

def ofIdentifier? (text : String) : Option Kind :=
  all.find? fun k => k.identifier == text

end Kind

end Diagnostic

/-- A recorded semantic error. -/
structure Diagnostic where
  kind : Diagnostic.Kind
  line : Nat
  symbol : String
  message : String
deriving DecidableEq

namespace Diagnostic

def of (kind : Kind) (line : Nat) (symbol : String) : Diagnostic :=
  { kind, line, symbol, message := kind.description ++ ": '" ++ symbol ++ "'" }

def render (d : Diagnostic) : String :=
  "line " ++ toString d.line ++ ": error " ++ d.kind.identifier ++ ": " ++ d.message

end Diagnostic

/-- The diagnostics of a compilation, in the order of their discovery, and its syntax errors. -/
structure Report where
  entries : List Diagnostic := []
  syntaxErrors : Nat := 0

namespace Report

def add (r : Report) (found : List Diagnostic) : Report :=
  { r with entries := r.entries ++ found }

def addSyntaxErrors (r : Report) (count : Nat) : Report :=
  { r with syntaxErrors := r.syntaxErrors + count }

/-- Whether an error of this kind, line and symbol was recorded, whatever its message. -/
def mentions (r : Report) (kind : Diagnostic.Kind) (line : Nat) (symbol : String) : Bool :=
  r.entries.any fun d => d.kind == kind && d.line == line && d.symbol == symbol

def countOf (r : Report) (kind : Diagnostic.Kind) : Nat :=
  r.entries.countP fun d => d.kind == kind

def isEmpty (r : Report) : Bool := r.entries.isEmpty && r.syntaxErrors == 0

def hasErrors (r : Report) : Bool := r.syntaxErrors > 0 || !r.entries.isEmpty

def render (r : Report) : String :=
  String.join (r.entries.map fun d => d.render ++ "\n")

end Report

end ComponentIdl
