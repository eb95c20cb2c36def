import ComponentIdl.Loop
import ComponentIdl.Workspace

/-!
# The values of enum members

Members get their values in the order of declaration. A member without an initializer is zero at
first, else one more than the member before; a member that names another takes the value of that
one, which is found first. A stack holds the members that wait for each other, so a long chain costs
no depth of recursion.

A member whose value does not fit fails alone, and those that depend on it fail silently. A cycle or
an unknown name stops the search for the whole enum.
-/

namespace ComponentIdl

structure EnumTally where
  /-- The members that got a value. -/
  evaluated : Nat := 0
  /-- The enums with a member that has no value. -/
  incomplete : Nat := 0
deriving DecidableEq

/-- The search for the values of one enum. -/
structure EnumSearch where
  members : Array EnumMember
  /-- The members that wait, the latest first. -/
  stack : List Nat := []
  /-- The members that wait for another member. -/
  pending : List Nat := []
  /-- The members that have failed. -/
  failed : List Nat := []
  evaluated : Nat := 0
  found : List Diagnostic := []
  /-- Whether a cycle or an unknown name has stopped the search. -/
  isStopped : Bool := false

/-- What comes next for a member without a value. -/
inductive EnumMove where
  | assign (value : Constant)
  /-- The member has no value; `reports` says whether the failure starts here. -/
  | fail (reports : Bool)
  /-- The member needs the value of another one. -/
  | wait (on : Nat)
  /-- The member names no member. -/
  | unknown (name : String)

namespace EnumSearch

/-- What is known of a member: nothing yet, that it failed, or its value. -/
def outcome? (s : EnumSearch) (index : Nat) : Option (Option Constant) :=
  match (s.members[index]?).bind fun m => m.value.constant? with
  | some value => some (some value)
  | none => if s.failed.contains index then some none else none

def indexOf? (s : EnumSearch) (name : String) : Option Nat :=
  s.members.findIdx? fun m => m.name == name

/-- The value, or a failure that starts here. -/
def fitting : Option Constant → EnumMove
  | some value => .assign value
  | none => .fail true

/-- What comes next for the member `index` with the given initializer. -/
def move (base : IntegerType) (s : EnumSearch) (index : Nat) : ValueState → EnumMove
  | .known value => .assign value
  | .literal text => fitting (base.literal? text)
  | .implicit =>
    match index with
    | 0 => .assign base.zero
    | before + 1 =>
      match s.outcome? before with
      | some (some value) => fitting (base.next? value)
      | some none => .fail false
      | none => .wait before
  | .reference name =>
    match s.indexOf? name with
    | none => .unknown name
    | some target =>
      match s.outcome? target with
      | some (some value) => .assign value
      | some none => .fail false
      | none => .wait target

def report (s : EnumSearch) (kind : Diagnostic.Kind) (line : Nat) (symbol : String) : EnumSearch :=
  { s with found := s.found ++ [.of kind line symbol] }

def pop (s : EnumSearch) : EnumSearch := { s with stack := s.stack.tail }

def apply (s : EnumSearch) (index : Nat) (m : EnumMember) : EnumMove → EnumSearch
  | .assign value =>
    { s.pop with
      members := s.members.setIfInBounds index { m with value := .known value }
      pending := s.pending.erase index
      evaluated := s.evaluated + 1 }
  | .fail reports =>
    let noted := if reports then s.report .enumFieldOutOfRange m.line m.name else s
    { noted.pop with
      pending := s.pending.erase index
      failed := index :: s.failed }
  | .wait on =>
    let waiting := { s with pending := s.pending.insert index }
    if waiting.pending.contains on then
      match s.members[on]? with
      | some cause =>
        { waiting.report .circularEnumField cause.line cause.name with isStopped := true }
      | none => { waiting with isStopped := true }
    else { waiting with stack := on :: s.stack }
  | .unknown name => { s.report .unresolvedType m.line name with isStopped := true }

/-- One step: the topmost member is left if it is settled, else it makes its move. -/
def step (base : IntegerType) (s : EnumSearch) : EnumSearch :=
  match s.stack with
  | [] => s
  | index :: _ =>
    match s.members[index]?, s.outcome? index with
    | some m, none => s.apply index m (s.move base index m.value)
    | _, _ => s.pop

/-- The search is over when its stack is empty or it has stopped. -/
def loop (base : IntegerType) : Loop EnumSearch where
  step := step base
  isOver s := s.stack.isEmpty || s.isStopped

/-- Steps until the stack is empty or the search has stopped, `fuel` times at most. -/
def run (base : IntegerType) : Nat → EnumSearch → EnumSearch := (loop base).run

/-- Settles one member and all it depends on. Each member is pushed once at most and left once. -/
def settle (base : IntegerType) (s : EnumSearch) (root : Nat) : EnumSearch :=
  run base (2 * s.members.size + 2) { s with stack := [root] }

def settleAll (base : IntegerType) (s : EnumSearch) (roots : List Nat) : EnumSearch :=
  roots.foldl (fun s root => if s.isStopped then s else s.settle base root) s

end EnumSearch

/-- The search for the values of an enum, at its end. -/
def EnumType.search (e : EnumType) : EnumSearch :=
  EnumSearch.settleAll e.base { members := e.members } (List.range e.members.size)

def EnumType.evaluated (e : EnumType) : EnumType := { e with members := e.search.members }

namespace Store

def evaluateEnums (st : Store) : Store := { st with enums := st.enums.map EnumType.evaluated }

def enumDiagnostics (st : Store) : List Diagnostic :=
  st.enums.toList.flatMap fun e => e.search.found

def enumTally (st : Store) : EnumTally where
  evaluated := st.enums.foldl (fun n e => n + e.search.evaluated) 0
  incomplete := st.enums.toList.countP fun e => !e.evaluated.isComplete

end Store

def Workspace.evaluateEnums (w : Workspace) : Workspace × EnumTally :=
  ({ w with
     store := w.store.evaluateEnums, report := w.report.add w.store.enumDiagnostics },
   w.store.enumTally)

end ComponentIdl
