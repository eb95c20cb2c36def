import ComponentIdl.Decl

/-!
# Visits

A walk over a declaration tree is a list of visits in source order: every block and every type is
opened and closed around what it holds, and a nested block keeps its place among the types.
-/

namespace ComponentIdl

/-- One step of a walk over a declaration tree. -/
inductive Visit where
  | openUnit (u : Decl.Unit)
  | closeUnit (u : Decl.Unit)
  | openBlock (b : Decl.Block)
  | closeBlock (b : Decl.Block)
  | openClass (d : Decl.Class)
  | closeClass (d : Decl.Class)
  | openInterface (d : Decl.Interface)
  | closeInterface (d : Decl.Interface)
  | openStruct (d : Decl.Struct)
  | closeStruct (d : Decl.Struct)
  | openEnum (d : Decl.Enum)
  | closeEnum (d : Decl.Enum)
  | openDelegate (d : Decl.Delegate)
  | closeDelegate (d : Decl.Delegate)
  | enumMember (d : Decl.EnumMember)
  | field (d : Decl.Field)
  | method (d : Decl.Method)
  | property (d : Decl.Property)
  | event (d : Decl.Event)
  | constructor (d : Decl.Constructor)

namespace Decl

def Member.visit : Member → Visit
  | .method d => .method d
  | .property d => .property d
  | .event d => .event d
  | .constructor d => .constructor d

def TypeDecl.visits : TypeDecl → List Visit
  | .classDecl d => .openClass d :: d.members.map Member.visit ++ [.closeClass d]
  | .interfaceDecl d => .openInterface d :: d.members.map Member.visit ++ [.closeInterface d]
  | .structDecl d => .openStruct d :: d.fields.map Visit.field ++ [.closeStruct d]
  | .enumDecl d => .openEnum d :: d.members.map Visit.enumMember ++ [.closeEnum d]
  | .delegateDecl d => [.openDelegate d, .closeDelegate d]

mutual

def Item.visits : Item → List Visit
  | .type d => d.visits
  | .block name line items =>
    .openBlock ⟨name, line, items⟩ :: itemsVisits items ++ [.closeBlock ⟨name, line, items⟩]

/-- The visits of the items of a block, one item after the other. -/
def itemsVisits : List Item → List Visit
  | [] => []
  | i :: is => i.visits ++ itemsVisits is

end

def Block.visits (b : Block) : List Visit :=
  .openBlock b :: itemsVisits b.items ++ [.closeBlock b]

def Unit.visits (u : Unit) : List Visit :=
  .openUnit u :: u.blocks.flatMap Block.visits ++ [.closeUnit u]

theorem itemsVisits_eq_flatMap (items : List Item) :
    itemsVisits items = items.flatMap Item.visits := by
  induction items with
  | nil => rfl
  | cons i is ih => simp [itemsVisits, ih]

theorem Item.visits_block (name : String) (line : Nat) (items : List Item) :
    (Item.block name line items).visits = Block.visits ⟨name, line, items⟩ := by
  simp [Item.visits, Block.visits]

end Decl

end ComponentIdl
