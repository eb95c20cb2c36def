import ComponentIdl.Proofs.Accessors
import ComponentIdl.Proofs.Derivation.Copies
import ComponentIdl.Proofs.Derivation.Settled

/-!
# Members of derived interfaces in the order of the class

The order of methods is the layout of an interface. In a first derivation the default interface of a class
gets copies of all instance members and the one for statics copies of all static members, both in the
order of the class, and every accessor is found again in its copy. A factory has a method for each
constructor with parameters, in their order.
-/

namespace ComponentIdl

/-- The interfaces that are derived from the class `c` in the slot `id` have its members. -/
structure Store.HasCopies (st : Store) (id : ObjectId) (c : ObjectType) (d : Derived) : Prop where
  default : ∀ slot, d.default = some slot →
    ∃ o, st.objects[slot]? = some o ∧ c.Carries false o
  statics : ∀ slot, d.statics = some slot →
    ∃ o, st.objects[slot]? = some o ∧ c.Carries true o
  factory : ∀ slot, d.factory = some slot →
    ∃ o, st.objects[slot]? = some o ∧ c.Constructs id o
  /-- A method of the class has one place, in one of the first two. -/
  once : ∀ (i : Nat) m, c.methods[i]? = some m → ∃! x : Bool × Nat, c.Moves x.1 i x.2

namespace Derivation

variable {s : Derivation} {st : Store} {symbols : NameTable} {v : Verdicts}

/-- What a class has for a role is the interface of its candidate. -/
theorem Settled.interface (h : Settled st symbols v s) {id : ObjectId} {c : ObjectType} {d : Derived}
    (hc : st.objects[id]? = some c) (hrecords : Records v st.objects.size id d) (role : DerivedRole)
    {slot : ObjectId} (hslot : d.slot? role = some slot) :
    s.store.objects[slot]? = some (interfaceOf id c role (c.membersFor id role)) := by
  obtain ⟨k, x, hx, rfl, rfl, rfl⟩ := (hrecords role slot).1 hslot
  obtain rfl : c = x.owner :=
    Option.some.inj (hc.symm.trans (h.owners x (List.mem_of_getElem? hx)))
  exact (h.new k x hx).1

theorem Settled.hasCopies (h : Settled st symbols v s) {id : ObjectId} {c : ObjectType} {d : Derived}
    (hc : st.objects[id]? = some c) (hrecords : Records v st.objects.size id d) (hwired : c.Wired) :
    s.store.HasCopies id c d where
  default _ hslot :=
    ⟨_, h.interface hc hrecords .default hslot, hwired.carries false id .default⟩
  statics _ hslot :=
    ⟨_, h.interface hc hrecords .statics hslot, hwired.carries true id .statics⟩
  factory _ hslot :=
    ⟨_, h.interface hc hrecords .factory hslot, c.constructs_factory id .factory⟩
  once _ _ hm := ObjectType.moves_once hm

end Derivation

namespace Workspace

/-- A first derivation copies the members of every class into its interfaces, in the order of the
class. -/
theorem copies_reached (settings : Settings) (catalog : Catalog) {stages : List Stage}
    (hfirst : Stage.pass .deriveInterfaces ∉ stages) :
    let w := reached settings catalog stages
    ∀ (id : ObjectId) c, w.store.objects[id]? = some c → ∃ c',
      w.deriveInterfaces.1.store.objects[id]? = some c' ∧ c'.underived = c ∧
        w.deriveInterfaces.1.store.HasCopies id c c'.derived := by
  intro w id c hc
  have hrecorded : w.store.Recorded :=
    invariant_recorded.reached (P := fun w => w.store.Recorded) Store.recorded_empty stages
  have hwired : ∀ o ∈ w.store.objects, o.Wired :=
    invariant_wired.reached (P := fun w => ∀ o ∈ w.store.objects, o.Wired)
      (fun o ho => absurd ho (Array.not_mem_empty o)) stages
  have h := settled hrecorded (original_reached settings catalog hfirst)
  obtain ⟨c', hc', hsame, hrecords⟩ := h.old id c hc
  exact ⟨c', hc', hsame, h.hasCopies hc hrecords (hwired c (Array.mem_of_getElem? hc))⟩

/-- A class with static members among the others, a property in two fragments, and constructors. -/
def ferry : Decl.Unit :=
  ⟨[⟨"Sea", 1, [.type (.classDecl ⟨"Ferry", 2, {}, [],
    [.constructor ⟨3, []⟩, .constructor ⟨4, [⟨"name", 4, .input, "String"⟩]⟩,
      .method ⟨"Count", 5, true, some "Int32", []⟩,
      .property ⟨"Speed", 6, false, "Int32", some [⟨.set, 6⟩]⟩,
      .event ⟨"Sailed", 7, true, "Sailing", none⟩, .method ⟨"Sail", 8, false, none, []⟩,
      .property ⟨"Speed", 9, false, "Int32", some [⟨.get, 9⟩]⟩,
      .constructor ⟨10, [⟨"deck", 10, .input, "Int32"⟩]⟩]⟩)]⟩], 0⟩

theorem copies_reached_ferry :
    let w := reached {} .empty [.pass (.declare ferry)]
    (∀ (id : ObjectId) c, w.store.objects[id]? = some c → ∃ c',
      w.deriveInterfaces.1.store.objects[id]? = some c' ∧ c'.underived = c ∧
        w.deriveInterfaces.1.store.HasCopies id c c'.derived) ∧
      (w.deriveInterfaces.1.store.objects.toList.map fun o => o.methods.map Method.name) =
        [["Count", "put_Speed", "add_Sailed", "remove_Sailed", "Sail", "get_Speed"],
          ["put_Speed", "Sail", "get_Speed"], ["Count", "add_Sailed", "remove_Sailed"],
          ["CreateInstance", "CreateInstance2"]] := by
  refine ⟨copies_reached {} .empty ?_, ?_⟩
  · simp
  · decide +kernel

end Workspace

end ComponentIdl
