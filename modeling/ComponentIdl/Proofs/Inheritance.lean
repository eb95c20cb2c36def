import ComponentIdl.Inheritance
import ComponentIdl.Proofs.Graph.Distance

/-!
# Inherited interfaces, nearest first

The inherited interfaces of a class or interface are all those that it requires, directly or through
others, itself left out: each once, none before a nearer one, and those that it names itself in the
order in which it names them. Nothing is assumed of the store, so interfaces may require each other or
name one twice.
-/

namespace ComponentIdl

namespace Store

variable {st : Store} {id base : ObjectId}

/-- A reference in the requires list of `id` is bound to the interface `base`. -/
def Requires (st : Store) (id base : ObjectId) : Prop :=
  ∃ o, st.objects[id]? = some o ∧ ∃ r ∈ o.requires, r.target = some (.interface base)

theorem edge_requirement_eq (st : Store) : st.requirement.Edge = st.Requires := by
  funext id base
  apply propext
  unfold requirement Requires ObjectType.bases
  simp only [Graph.edge_map, List.mem_filterMap, Reference.interface?_eq_some]

/-- The list holds the interfaces that `id` requires, directly or through others, by distance. -/
structure ListsRequired (st : Store) (id : ObjectId) (found : List ObjectId) : Prop where
  nodup : found.Nodup
  mem_iff : ∀ base, base ∈ found ↔ base ≠ id ∧ Relation.TransGen st.Requires id base
  sorted : found.Pairwise fun a b => distance st.Requires id a ≤ distance st.Requires id b
  direct : ∀ o, st.objects[id]? = some o →
    ((o.requires.filterMap Reference.interface?).filter (· ≠ id)).eraseDups <+: found

theorem listsRequired_inherited (st : Store) (id : ObjectId) :
    st.ListsRequired id (st.inherited id) := by
  have hedge := edge_requirement_eq st
  refine ⟨Graph.spread_nodup, ?_, ?_, ?_⟩
  · intro base
    rw [← hedge]
    exact Graph.mem_nearestFirst
  · rw [← hedge]
    exact Graph.nearestFirst_sorted st.requirement id
  · intro o ho
    have hnext : st.requirement.next id = o.requires.filterMap Reference.interface? := by
      unfold Graph.next requirement
      rw [Array.getElem?_map, ho]
      rfl
    rw [← hnext]
    exact Graph.nearestFirst_direct st.requirement id

/-- An interface that `id` requires, directly or through others, with its place in the store. -/
def HasAncestor (st : Store) (id : ObjectId) (b : ObjectId × ObjectType) : Prop :=
  b.1 ≠ id ∧ Relation.TransGen st.Requires id b.1 ∧ st.objects[b.1]? = some b.2

theorem mem_ancestors_iff {b : ObjectId × ObjectType} :
    b ∈ st.ancestors id ↔ st.HasAncestor id b := by
  unfold ancestors
  rw [List.mem_filterMap]
  constructor
  · rintro ⟨base, hmem, hmap⟩
    obtain ⟨o, ho, rfl⟩ := Option.map_eq_some_iff.1 hmap
    obtain ⟨hne, hreach⟩ := ((st.listsRequired_inherited id).mem_iff base).1 hmem
    exact ⟨hne, hreach, ho⟩
  · rintro ⟨hne, hreach, ho⟩
    refine ⟨b.1, ((st.listsRequired_inherited id).mem_iff b.1).2 ⟨hne, hreach⟩, ?_⟩
    rw [ho]
    rfl

/-- The search for inherited interfaces ends, after as many rounds as there are bound requirements at
most, with the list of all that are required, the nearest first. -/
theorem inherited_required (st : Store) (id : ObjectId) :
    (∃ n ≤ st.requirement.edgeCount, ∃ seen,
      (Graph.Round.turn st.requirement)^[n] ⟨st.requirement.next id, [id], []⟩ =
        ⟨[], seen, st.inherited id⟩) ∧
      st.ListsRequired id (st.inherited id) :=
  ⟨Graph.nearestFirst_rounds st.requirement id, st.listsRequired_inherited id⟩

end Store

end ComponentIdl
