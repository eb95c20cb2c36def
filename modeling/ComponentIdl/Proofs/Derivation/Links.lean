import ComponentIdl.Proofs.Conflict.Remarks
import ComponentIdl.Proofs.Derivation.Handles
import ComponentIdl.Proofs.Derivation.Simulation

/-!
# Derivation looks at no link

A derived interface copies members without their links, so the same interfaces are derived from a
class whether its members are linked or not, and links are found afterwards where they were before.
-/

namespace ComponentIdl

namespace ObjectType

variable (o : ObjectType)

theorem keptPosition?_unlinked (statics : Bool) (index : Nat) :
    o.unlinked.keptPosition? statics index = o.keptPosition? statics index := by
  unfold keptPosition? unlinked
  dsimp only
  rw [List.getElem?_map, Option.bind_map, ← List.map_take, List.countP_map]
  rfl

theorem keptEvent?_unlinked (statics : Bool) (e : Event) :
    o.unlinked.keptEvent? statics e.unlinked = o.keptEvent? statics e := by
  unfold keptEvent?
  rw [keptPosition?_unlinked, keptPosition?_unlinked]
  rfl

theorem keep_unlinked (statics : Bool) : o.unlinked.keep statics = o.keep statics := by
  have hposition : o.unlinked.keptPosition? statics = o.keptPosition? statics :=
    funext (o.keptPosition?_unlinked statics)
  have hevents : ((o.events.map Event.unlinked).filter fun e => e.isStatic == statics).filterMap
      (o.unlinked.keptEvent? statics) =
        (o.events.filter fun e => e.isStatic == statics).filterMap (o.keptEvent? statics) := by
    rw [List.filter_map, List.filterMap_map]
    exact congrArg (List.filterMap · _) (funext (o.keptEvent?_unlinked statics))
  unfold keep
  rw [hposition]
  unfold unlinked at hevents ⊢
  rw [hevents, List.filter_map, List.map_map, List.filter_map, List.map_map]
  rfl

theorem derivedRoles_unlinked (id : ObjectId) :
    o.unlinked.derivedRoles id = o.derivedRoles id := by
  unfold derivedRoles
  rw [keep_unlinked, keep_unlinked]
  rfl

theorem unlinked_interfaceOf {id : ObjectId} {plan : DerivedRole × MemberSet}
    (hplan : plan ∈ o.derivedRoles id) :
    (Derivation.interfaceOf id o plan.1 plan.2).unlinked =
      Derivation.interfaceOf id o plan.1 plan.2 := by
  obtain ⟨hmethods, hproperties, hevents⟩ := links_derived hplan
  exact unlinked_eq_self (List.filterMap_eq_nil_iff.1 hmethods)
    (List.filterMap_eq_nil_iff.1 hproperties) (List.filterMap_eq_nil_iff.1 hevents)

end ObjectType

namespace Store

/-- The store without the links of members. -/
def unlinked (st : Store) : Store := { st with objects := st.objects.map ObjectType.unlinked }

theorem declare_unlinked (st : Store) (n : NamespaceId) (block : Nat) (name : String)
    {o : ObjectType} (ho : o.unlinked = o) :
    st.unlinked.declare n block name (.object o) =
      (st.declare n block name (.object o)).unlinked := by
  have hadd : st.unlinked.add (.object o) = (st.add (.object o)).unlinked := by
    unfold add unlinked
    rw [Array.map_push, ho]
  have hnext : st.unlinked.nextSymbol (.object o) = st.nextSymbol (.object o) := by
    simp only [nextSymbol, unlinked, Array.size_map]
  unfold declare
  rw [hadd, hnext, show st.unlinked.namespaces = st.namespaces from rfl]
  cases st.namespaces.addSymbol n block name (st.nextSymbol (.object o)) <;> rfl

theorem modifyObject_unlinked (st : Store) (id : ObjectId) {f : ObjectType → ObjectType}
    (hf : ∀ o, f o.unlinked = (f o).unlinked) :
    st.unlinked.modifyObject id f = (st.modifyObject id f).unlinked := by
  have hobjects : (st.objects.map ObjectType.unlinked).modify id f =
      (st.objects.modify id f).map ObjectType.unlinked := by
    apply Array.ext_getElem?
    intro i
    simp only [Array.getElem?_modify, Array.getElem?_map]
    split
    · simp only [Option.map_map, Function.comp_def, hf]
    · rfl
  exact congrArg (fun objects => { st with objects }) hobjects

end Store

namespace Derivation

variable (s : Derivation) {id : ObjectId} {o : ObjectType}

def unlinked : Derivation := { s with store := s.store.unlinked }

theorem withInterface_unlinked (st : Store) (node : NamespaceId) (block id slot : Nat)
    (role : DerivedRole) {interface : ObjectType} (h : interface.unlinked = interface) :
    withInterface st.unlinked node block id slot role interface =
      (withInterface st node block id slot role interface).unlinked := by
  unfold withInterface
  rw [Store.declare_unlinked st node block _ h]
  exact Store.modifyObject_unlinked _ id fun _ => rfl

theorem declare_unlinked {plan : DerivedRole × MemberSet} (hplan : plan ∈ o.derivedRoles id) :
    declare id o.unlinked s.unlinked plan = (declare id o s plan).unlinked := by
  cases hpath : s.store.namespaces.path? (segments o.scope) with
  | none =>
    rw [declare_homeless hpath]
    exact declare_homeless (s := s.unlinked) hpath
  | some node =>
    cases hfree : s.store.namespaces.symbol? node (interfaceOf id o plan.1 plan.2).name with
    | some σ =>
      rw [declare_taken hpath hfree]
      exact declare_taken (s := s.unlinked) hpath hfree
    | none =>
      cases hblock : s.store.namespaces.blockOf? node (.runtimeClass id) with
      | none =>
        rw [declare_astray hpath hfree hblock]
        exact declare_astray (s := s.unlinked) hpath hfree hblock
      | some block =>
        have hsize : s.unlinked.store.objects.size = s.store.objects.size := Array.size_map
        have hstore := withInterface_unlinked s.store node block id s.store.objects.size plan.1
          (o.unlinked_interfaceOf hplan)
        rw [declare_free hpath hfree hblock]
        refine (declare_free (s := s.unlinked) hpath hfree hblock).trans ?_
        rw [hsize]
        exact congrArg (fun store => { s with
          store, symbols := _, interfaces := s.interfaces + 1 : Derivation }) hstore

theorem simulation_unlinked :
    Simulation (fun s s' => s' = s.unlinked) fun _ o o' => o' = o.unlinked where
  slots s s' hs := by
    subst hs
    exact Array.size_map
  objects s s' id o o' hs ho ho' := by
    subst hs
    have hmap : s.unlinked.store.objects[id]? = (s.store.objects[id]?).map ObjectType.unlinked :=
      Array.getElem?_map
    rw [hmap, ho] at ho'
    obtain rfl := Option.some.inj ho'
    exact ⟨rfl, fun _ => rfl⟩
  roles id o o' ho := by rw [ho, o.derivedRoles_unlinked]
  declare s s' id o o' plan hs ho hplan := by rw [hs, ho, declare_unlinked s hplan]

/-- Deriving without links is deriving and erasing the links afterwards. -/
theorem run_unlinked : s.unlinked.run = s.run.unlinked := simulation_unlinked.run rfl

end Derivation

end ComponentIdl
