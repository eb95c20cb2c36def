import ComponentIdl.Import

/-!
# Symbols and references

Declarations are addressed by the slots they fill in the store. A symbol is what a dotted name
stands for; a target is what a bound reference points at, which may also be a built-in type.
Two bound references agree if their targets do, two unbound ones if they are spelled alike.
-/

namespace ComponentIdl

/-- The slot of a class or interface; both share one series of slots. -/
abbrev ObjectId := Nat
abbrev StructId := Nat
abbrev EnumId := Nat
abbrev DelegateId := Nat
abbrev ImportId := Nat

/-- What a dotted name stands for. -/
inductive Symbol where
  | runtimeClass (id : ObjectId)
  | interface (id : ObjectId)
  | struct (id : StructId)
  | enum (id : EnumId)
  | delegate (id : DelegateId)
  | imported (id : ImportId) (kind : ImportKind)
deriving DecidableEq

/-- What a bound reference points at. -/
inductive Target where
  | runtimeClass (id : ObjectId)
  | interface (id : ObjectId)
  | struct (id : StructId)
  | enum (id : EnumId)
  | delegate (id : DelegateId)
  | imported (id : ImportId)
  | primitive (p : Primitive)
  | object
deriving DecidableEq

namespace Symbol

def isInterface : Symbol → Bool
  | interface _ => true
  | imported _ .interface => true
  | _ => false

def isDelegate : Symbol → Bool
  | delegate _ => true
  | imported _ .delegate => true
  | _ => false

def keyword : Symbol → String
  | runtimeClass _ => "class"
  | interface _ => "interface"
  | struct _ => "struct"
  | enum _ => "enum"
  | delegate _ => "delegate"
  | imported _ kind => kind.keyword

def target : Symbol → Target
  | runtimeClass id => .runtimeClass id
  | interface id => .interface id
  | struct id => .struct id
  | enum id => .enum id
  | delegate id => .delegate id
  | imported id _ => .imported id

end Symbol

namespace Target

def identity : Target → Identity
  | runtimeClass id => Identity.ofSlot 1 id
  | interface id => Identity.ofSlot 2 id
  | struct id => Identity.ofSlot 3 id
  | enum id => Identity.ofSlot 4 id
  | delegate id => Identity.ofSlot 5 id
  | imported id => Identity.ofSlot 6 id
  | primitive p => p.identity
  | object => Identity.ofName opaqueKeyword

def interface? : Target → Option ObjectId
  | interface id => some id
  | _ => none

def struct? : Target → Option StructId
  | struct id => some id
  | _ => none

end Target

/-- A reference to a type as it is spelled, with its target once that is known. -/
structure Reference where
  text : String
  target : Option Target
deriving DecidableEq

namespace Reference

def named (text : String) : Reference := ⟨text, none⟩

def primitive (p : Primitive) : Reference := ⟨p.keyword, some (.primitive p)⟩

def object : Reference := ⟨opaqueKeyword, some .object⟩

def bound (text : String) (target : Target) : Reference := ⟨text, some target⟩

/-- The reference for a written type: the keywords of built-in types need no lookup. -/
def parse (text : String) : Reference :=
  match Primitive.ofKeyword? text with
  | some p => primitive p
  | none => if text = opaqueKeyword then object else named text

def isBound (r : Reference) : Bool := r.target.isSome

/-- The reference with a target; one that it has already stays. -/
def bindTo (r : Reference) (target : Target) : Reference :=
  { r with target := some (r.target.getD target) }

/-- Whether two references agree. A bound reference never agrees with an unbound one. -/
def agrees (a b : Reference) : Bool :=
  match a.target, b.target with
  | none, none => a.text == b.text
  | some s, some t => s == t
  | _, _ => false

theorem agrees_self (r : Reference) : r.agrees r = true := by
  unfold agrees
  cases r.target with
  | none => exact beq_self_eq_true r.text
  | some target => exact beq_self_eq_true target

def identity (r : Reference) : Identity :=
  match r.target with
  | some t => t.identity
  | none => Identity.ofName r.text

def interface? (r : Reference) : Option ObjectId := r.target.bind Target.interface?

theorem interface?_eq_some {r : Reference} {id : ObjectId} :
    r.interface? = some id ↔ r.target = some (.interface id) := by
  have htarget : ∀ target : Target, target.interface? = some id ↔ target = .interface id := by
    intro target
    cases target <;> simp [Target.interface?]
  simp [interface?, Option.bind_eq_some_iff, htarget]

def struct? (r : Reference) : Option StructId := r.target.bind Target.struct?

end Reference

end ComponentIdl
