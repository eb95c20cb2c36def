import ComponentIdl.Proofs.Acceptance
import ComponentIdl.Proofs.Conflict.Links
import ComponentIdl.Proofs.Graph.NearestFirst

/-!
# Inherited methods

An accepted source file may have a method with the name and the parameter types of an inherited one.
A written method is then linked to an inherited one. An accessor is linked only by way of the
property or event that it serves, and may be left without a link: its inherited counterpart may be a
written method, or belong to an interface farther away than another one with the property.
-/

namespace ComponentIdl

namespace ObjectType

variable {o : ObjectType} {bases : List (ObjectId × ObjectType)} {i : Nat}

theorem property?_core (o : ObjectType) (name : String) :
    o.core.property? name = (o.property? name).map fun q => (q.1.unlinked, q.2) :=
  find?_zipIdx_map o.properties name

theorem event?_core (o : ObjectType) (name : String) :
    o.core.event? name = (o.event? name).map fun d => (d.1.unlinked, d.2) :=
  find?_zipIdx_map o.events name

/-- Inherited interfaces without what analyses add to them. -/
def cores (bases : List (ObjectId × ObjectType)) : List (ObjectId × ObjectType) :=
  bases.map fun b => (b.1, b.2.core)

theorem nearestProperty?_cores (bases : List (ObjectId × ObjectType)) (name : String) :
    nearestProperty? (cores bases) name =
      (nearestProperty? bases name).map fun q => (q.1.unlinked, q.2) := by
  unfold nearestProperty? cores
  rw [List.findSome?_map, List.map_findSome?]
  apply congrArg (List.findSome? · bases)
  funext b
  exact b.2.property?_core name

theorem nearestEvent?_cores (bases : List (ObjectId × ObjectType)) (name : String) :
    nearestEvent? (cores bases) name =
      (nearestEvent? bases name).map fun d => (d.1.unlinked, d.2) := by
  unfold nearestEvent? cores
  rw [List.findSome?_map, List.map_findSome?]
  apply congrArg (List.findSome? · bases)
  funext b
  exact b.2.event?_core name

theorem leftOut_core : o.core.LeftOut (cores bases) i ↔ o.LeftOut bases i := by
  unfold LeftOut
  simp only [nearestProperty?_cores, nearestEvent?_cores, Option.map_eq_none_iff,
    Option.map_eq_some_iff, forall_exists_index, and_imp]
  apply or_congr
  · constructor
    · rintro ⟨p', hp', role, hrole, hlacks⟩
      obtain ⟨p, hp, rfl⟩ := List.mem_map.1 hp'
      exact ⟨p, hp, role, by cases role <;> exact hrole,
        fun q hq => by cases role <;> exact hlacks (q.1.unlinked, q.2) q hq rfl⟩
    · rintro ⟨p, hp, role, hrole, hlacks⟩
      refine ⟨p.unlinked, List.mem_map_of_mem hp, role, by cases role <;> exact hrole, ?_⟩
      rintro _ q hq rfl
      cases role <;> exact hlacks q hq
  · constructor
    · rintro ⟨e', he', role, hrole, hnone⟩
      obtain ⟨e, he, rfl⟩ := List.mem_map.1 he'
      exact ⟨e, he, role, by cases role <;> exact hrole, hnone⟩
    · rintro ⟨e, he, role, hrole, hnone⟩
      exact ⟨e.unlinked, List.mem_map_of_mem he, role, by cases role <;> exact hrole, hnone⟩

theorem LeftOut.congr {o' : ObjectType} {bases' : List (ObjectId × ObjectType)}
    (ho : o'.core = o.core) (hbases : cores bases' = cores bases) :
    o'.LeftOut bases' i ↔ o.LeftOut bases i := by
  rw [← leftOut_core, ho, hbases, leftOut_core]

end ObjectType

namespace Store

variable {st st' : Store} {imports : Array Import} {id base : ObjectId} {o b : ObjectType}

theorem cores_ancestors (hnext : ∀ a, st'.requirement.next a = st.requirement.next a)
    (hcore : ∀ base ∈ st.inherited id,
      (st'.objects[base]?).map ObjectType.core = (st.objects[base]?).map ObjectType.core) :
    ObjectType.cores (st'.ancestors id) = ObjectType.cores (st.ancestors id) := by
  have hinherited : st'.inherited id = st.inherited id := Graph.nearestFirst_congr hnext id
  unfold ancestors ObjectType.cores
  rw [hinherited, List.map_filterMap, List.map_filterMap]
  apply List.filterMap_congr
  intro base hbase
  have hmap := congrArg (Option.map fun c => (base, c)) (hcore base hbase)
  rw [Option.map_map, Option.map_map] at hmap
  rw [Option.map_map, Option.map_map]
  exact hmap

theorem mem_ancestors (hacyclic : ¬ st.requirement.OnCycle id)
    (hbase : Relation.TransGen st.requirement.Edge id base) (hb : st.objects[base]? = some b) :
    (base, b) ∈ st.ancestors id := by
  have hne : base ≠ id := by
    rintro rfl
    exact hacyclic hbase
  refine List.mem_filterMap.2 ⟨base, Graph.mem_nearestFirst.2 ⟨hne, hbase⟩, ?_⟩
  rw [hb]
  rfl

end Store

/-- A method with the name and the parameter types of one of an interface required, directly or
through others, is linked, unless it is left out. -/
def Store.Linked (st : Store) : Prop :=
  ∀ (id base : ObjectId) (o b : ObjectType) (i : Nat) (m n : Method),
    st.objects[id]? = some o → o.methods[i]? = some m →
    Relation.TransGen st.requirement.Edge id base → st.objects[base]? = some b → n ∈ b.methods →
    m.Alike n → (m.overrides.isSome = true ↔ ¬ o.LeftOut (st.ancestors id) i)

namespace Workspace

variable {w : Workspace} {imports : Array Import}

theorem Declared.overrides_analyzed (h : w.Declared) : ∀ o ∈ w.analyzed.store.objects,
    ∀ m ∈ o.methods, m.overrides = none := by
  rw [analyzed_eq]
  intro o ho m hm
  obtain ⟨k, hk⟩ := Array.mem_iff_getElem?.1 ho
  have hcycles : ((w.store.boundIn w.boundSymbols).objects.mapIdx fun k o =>
      { o with cycle := stateOf (w.store.boundIn w.boundSymbols).evaluateEnums.objectCycles.1 k })[k]?
        = some o := hk
  rw [Array.getElem?_mapIdx] at hcycles
  obtain ⟨bound, hbound, rfl⟩ := Option.map_eq_some_iff.1 hcycles
  obtain ⟨old, hold, rfl⟩ := Array.mem_map.1 (Array.mem_of_getElem? hbound)
  obtain ⟨source, hsource, rfl⟩ := List.mem_map.1 hm
  exact (h.fresh old hold).methods source hsource

theorem linked_checkMembers (hclean : w.store.Clean imports)
    (hunlinked : ∀ o ∈ w.store.objects, ∀ m ∈ o.methods, m.overrides = none)
    (hnone : w.checkMembers.1.report.entries = []) : w.checkMembers.1.store.Linked := by
  intro id base o' b' i m' n' ho' hm' hbase hb' hn' halike
  have hsimilar := Store.similar_checkMembers w
  rw [Store.getElem?_checkMembers] at ho'
  obtain ⟨o, ho, rfl⟩ := Option.map_eq_some_iff.1 ho'
  have hmem := Array.mem_of_getElem? ho
  have hcore := Store.core_of_unlinked (Remark.unlinked_foldl o (o.remarks (w.store.ancestors id)))
  have hmethods : ((o.remarks (w.store.ancestors id)).foldl Remark.link o).methods.map
      Method.unlinked = o.methods.map Method.unlinked := by
    rw [← ObjectType.methods_core, hcore, ObjectType.methods_core]
  obtain ⟨m, hm, hmm⟩ := getElem?_right (forall₂_of_map_eq hmethods) hm'
  obtain ⟨b, hb, hbcore⟩ := hsimilar.object hb'
  have hbmethods : b'.methods.map Method.unlinked = b.methods.map Method.unlinked := by
    rw [← b'.methods_core, hbcore, b.methods_core]
  obtain ⟨n, hn, hnn⟩ := mem_right (forall₂_of_map_eq hbmethods) hn'
  -- The methods were alike before the check.
  have hbefore : m.Alike n := by
    have hlinks : m'.unlinked.Alike n'.unlinked := halike
    rw [hmm, hnn] at hlinks
    exact hlinks
  rw [hsimilar.requirement] at hbase
  have hancestor := Store.mem_ancestors (hclean.requirement id) hbase hb
  have hlinked := Remark.linked_foldl (o.remarks (w.store.ancestors id)) hm
  rw [hm', Option.bind_some, hunlinked o hmem m (List.mem_of_getElem? hm)] at hlinked
  have hbases : ObjectType.cores (w.checkMembers.1.store.ancestors id) =
      ObjectType.cores (w.store.ancestors id) := by
    apply Store.cores_ancestors
    · intro a
      rw [hsimilar.requirement]
    · exact fun base _ => Store.getElem?_of_map_eq hsimilar.objects base
  rw [hlinked, ObjectType.LeftOut.congr hcore hbases, ← (silent_of_checkMembers hnone ho).linked_iff
    (hclean.wired o hmem) hm fun _ => ⟨_, hancestor, n, hn, hbefore⟩]
  simp

end Workspace

namespace Derivation

variable {st st' : Store} {imports : Array Import}

theorem Kept.linked (h : Kept st st') (hbound : st.Bound imports) (hlinked : st.Linked) :
    st'.Linked := by
  intro id base o' b' i m n ho' hm hbase hb' hn halike
  rw [h.edge_requirement] at hbase
  -- What requires and what is required was there before.
  have hold : ∀ {base : ObjectId}, Relation.TransGen st.requirement.Edge id base →
      ∃ b, st.objects[base]? = some b := by
    intro base hbase
    obtain ⟨a, -, hedge⟩ := Relation.TransGen.tail'_iff.1 hbase
    obtain ⟨b, hb, -⟩ := hbound.interface_of_edge hedge
    exact ⟨b, hb⟩
  obtain ⟨first, hedge, -⟩ := Relation.TransGen.head'_iff.1 hbase
  obtain ⟨o, ho, -⟩ := Store.mem_next_requirement hedge
  obtain ⟨b, hb⟩ := hold hbase
  obtain ⟨o₁, ho₁, hcore, hmethods⟩ := h.old id o ho
  obtain ⟨b₁, hb₁, -, hbmethods⟩ := h.old base b hb
  obtain rfl : o' = o₁ := Option.some.inj (ho'.symm.trans ho₁)
  obtain rfl : b' = b₁ := Option.some.inj (hb'.symm.trans hb₁)
  have hbases : ObjectType.cores (st'.ancestors id) = ObjectType.cores (st.ancestors id) := by
    apply Store.cores_ancestors h.next_requirement
    intro k hk
    obtain ⟨c, hc⟩ := hold (Graph.mem_nearestFirst.1 hk).2
    obtain ⟨c₁, hc₁, hccore, -⟩ := h.old k c hc
    rw [hc, hc₁, Option.map_some, Option.map_some, hccore]
  rw [hmethods] at hm
  rw [hbmethods] at hn
  rw [ObjectType.LeftOut.congr hcore hbases]
  exact hlinked id base o b i m n ho hm hbase hb hn halike

end Derivation

theorem Workspace.kept_deriveInterfaces (w : Workspace) :
    Derivation.Kept w.store w.deriveInterfaces.1.store := by
  unfold Workspace.deriveInterfaces
  exact Derivation.kept_run { store := w.store, symbols := w.symbols }

/-- In an accepted source file, exactly the methods left out are like an inherited method without a
link. -/
theorem compile_linked (settings : Settings) (catalog : Catalog) (u : Decl.Unit)
    (hchecks : settings.validatesMembers = true)
    (hnone : (compile settings catalog u).report.entries = []) :
    (compile settings catalog u).store.Linked := by
  by_cases herrors : u.syntaxErrors = 0
  · obtain ⟨hcompile, hclean, hchecked⟩ := compile_accepted settings catalog u hchecks herrors hnone
    have hunlinked := (declared_declared settings catalog u).overrides_analyzed
    have hlinked := Workspace.linked_checkMembers hclean hunlinked hchecked
    have hbound := hclean.bound.of_similar (Store.similar_checkMembers _)
    rw [hcompile]
    split
    · exact (Workspace.kept_deriveInterfaces _).linked hbound hlinked
    · exact hlinked
  · rw [compile_syntaxErrors settings catalog u (Nat.pos_of_ne_zero herrors)]
    intro id base o b i m n ho
    simp [Workspace.ofCatalog] at ho

theorem compile_linked_home :
    ({} : Settings).validatesMembers = true ∧ (compile {} .empty home).report.entries = [] ∧
      ((compile {} .empty home).store.objects[1]?.bind fun o : ObjectType =>
        o.methods[0]?.bind Method.overrides) =
        some ⟨0, 0⟩ ∧
      (compile {} .empty home).store.Linked := by
  have hnone : (compile {} .empty home).report.entries = [] := by decide +kernel
  have hlink : ((compile {} .empty home).store.objects[1]?.bind fun o : ObjectType =>
      o.methods[0]?.bind Method.overrides) = some ⟨0, 0⟩ := by decide +kernel
  exact ⟨rfl, hnone, hlink, compile_linked {} .empty home rfl hnone⟩

/-- An interface with a method that is called like an accessor but returns a text, and a class that
requires the interface and has a property with that accessor. -/
def boxed : Decl.Unit where
  syntaxErrors := 0
  blocks := [⟨"N", 1, [
    .type (.interfaceDecl ⟨"Sized", 2, [], [.method ⟨"get_Size", 3, false, some "String", []⟩]⟩),
    .type (.classDecl ⟨"Box", 4, {}, ["Sized"],
      [.property ⟨"Size", 5, false, "Int32", some [⟨.get, 5⟩]⟩]⟩)]⟩]

/-- Nothing is reported for them, and the accessor is not linked. -/
theorem accessor_not_linked :
    (compile {} .empty boxed).report.entries = [] ∧
      ∃ box sized m n, (compile {} .empty boxed).store.objects[1]? = some box ∧
        box.methods[0]? = some m ∧
        Relation.TransGen (compile {} .empty boxed).store.requirement.Edge 1 0 ∧
        (compile {} .empty boxed).store.objects[0]? = some sized ∧ n ∈ sized.methods ∧
        m.Alike n ∧ m.overrides = none := by
  have hbox : ((compile {} .empty boxed).store.objects[1]?.bind fun o : ObjectType => o.methods[0]?) =
      some ⟨"get_Size", 5, false, .property, some (.primitive .int32), [], none⟩ := by
    decide +kernel
  have hsized : ((compile {} .empty boxed).store.objects[0]?.bind fun o : ObjectType => o.methods[0]?) =
      some ⟨"get_Size", 3, false, .written, some (.primitive .string), [], none⟩ := by
    decide +kernel
  have hedge : 0 ∈ (compile {} .empty boxed).store.requirement.next 1 := by decide +kernel
  obtain ⟨box, hobject, hm⟩ := Option.bind_eq_some_iff.1 hbox
  obtain ⟨sized, hinterface, hn⟩ := Option.bind_eq_some_iff.1 hsized
  exact ⟨by decide +kernel, box, sized, _, _, hobject, hm, .single hedge, hinterface,
    List.mem_of_getElem? hn, ⟨rfl, .nil⟩, rfl⟩

end ComponentIdl
