import ComponentIdl.Proofs.Binding
import ComponentIdl.Proofs.Binding.Bound
import ComponentIdl.Proofs.Builder.Wiring
import ComponentIdl.Proofs.Derivation.Wiring
import ComponentIdl.Proofs.Reached
import ComponentIdl.Proofs.Store.Similar

/-!
# Members and the positions of their accessors

An accessor is a copy of its member's type in another list, found again by position alone. Fragments
add positions, binding changes member and accessor apart from each other, and derivation moves them;
the check of members and the analyses leave them alone. In every workspace that is reached a position
leads to the accessor it was made for, and an accessor is led to from one place.
-/

namespace ComponentIdl

/-- A place that may hold the position of an accessor: a property or an event by its own position,
with the role of the accessor. -/
inductive AccessorPlace where
  | property (index : Nat) (role : PropertyRole)
  | event (index : Nat) (role : EventRole)

/-- Type and accessor agree: a getter returns the type, a setter takes it as its only parameter. -/
def PropertyRole.Agrees (type : Reference) (m : Method) : PropertyRole → Prop
  | get => ∃ r, m.result = some r ∧ r.agrees type = true
  | set => ∃ q, m.parameters = [q] ∧ q.type.agrees type = true

/-- Type and accessor agree: an adder takes a handler of the type as its only parameter. -/
def EventRole.Agrees (type : Reference) (m : Method) : EventRole → Prop
  | add => ∃ q, m.parameters = [q] ∧ q.type.agrees type = true
  | remove => True

theorem Parameter.agrees_of_types {parameters : List Parameter} {type : Reference}
    (h : parameters.map Parameter.type = [type]) :
    ∃ q, parameters = [q] ∧ q.type.agrees type = true := by
  obtain ⟨q, hq, rfl⟩ := List.map_eq_singleton_iff.1 h
  exact ⟨q, hq, q.type.agrees_self⟩

theorem Property.Served.agrees {p : Property} {role : PropertyRole} {m : Method}
    (h : p.Served role m) : role.Agrees p.type m := by
  cases role with
  | get => exact ⟨p.type, h.result, p.type.agrees_self⟩
  | set => exact Parameter.agrees_of_types h.types

theorem Event.Served.agrees {e : Event} {role : EventRole} {m : Method} (h : e.Served role m) :
    role.Agrees e.type m := by
  cases role with
  | add => exact Parameter.agrees_of_types (h.handler rfl)
  | remove => trivial

namespace ObjectType

variable {o : ObjectType}

/-- The position that a place holds. -/
def accessorAt? (o : ObjectType) : AccessorPlace → Option Nat
  | .property k role => (o.properties[k]?).bind fun p => p.position? role
  | .event k role => (o.events[k]?).map fun e => e.position role

/-- Members have names of their own, positions lead to accessors that match, and accessors are led
to from one place each. -/
structure AccessorsMatch (o : ObjectType) : Prop where
  propertyNames : (o.properties.map Property.name).Nodup
  eventNames : (o.events.map Event.name).Nodup
  apart : ∀ p ∈ o.properties, ∀ e ∈ o.events, p.name ≠ e.name
  property : ∀ p ∈ o.properties, ∀ role i, p.position? role = some i →
    ∃ m, o.methods[i]? = some m ∧ m.name = role.methodName p.name ∧ m.origin = .property ∧
      m.isStatic = p.isStatic ∧ role.Agrees p.type m
  event : ∀ e ∈ o.events, ∀ role,
    ∃ m, o.methods[e.position role]? = some m ∧ m.name = role.methodName e.name ∧
      m.origin = .event ∧ m.isStatic = e.isStatic ∧ role.Agrees e.type m
  accessor : ∀ i m, o.methods[i]? = some m → m.isWritten = false →
    ∃! place, o.accessorAt? place = some i
  written : ∀ i m, o.methods[i]? = some m → m.isWritten = true →
    ∀ place, o.accessorAt? place ≠ some i

/-- The accessor that a place leads to. -/
theorem Wired.accessorAt? (h : o.Wired) {place : AccessorPlace} {i : Nat}
    (hplace : o.accessorAt? place = some i) :
    (∃ k p role m, place = .property k role ∧ o.properties[k]? = some p ∧
      o.methods[i]? = some m ∧ p.Served role m) ∨
    ∃ k e role m, place = .event k role ∧ o.events[k]? = some e ∧
      o.methods[i]? = some m ∧ e.Served role m := by
  cases place with
  | property k role =>
    obtain ⟨p, hp, hi⟩ := Option.bind_eq_some_iff.1 hplace
    obtain ⟨m, hm, hserved⟩ := h.property p (List.mem_of_getElem? hp) role i hi
    exact Or.inl ⟨k, p, role, m, rfl, hp, hm, hserved⟩
  | event k role =>
    obtain ⟨e, he, rfl⟩ := Option.map_eq_some_iff.1 hplace
    obtain ⟨m, hm, hserved⟩ := h.event e (List.mem_of_getElem? he) role
    exact Or.inr ⟨k, e, role, m, rfl, he, hm, hserved⟩

theorem index_of_nodup {α : Type} {key : α → String} {as : List α} {i j : Nat} {a b : α}
    (hnodup : (as.map key).Nodup) (ha : as[i]? = some a) (hb : as[j]? = some b)
    (heq : key a = key b) : i = j := by
  have hlt : i < (as.map key).length := by
    rw [List.length_map]
    exact (List.getElem?_eq_some_iff.1 ha).1
  apply (List.getElem?_inj hlt hnodup).1
  rw [List.getElem?_map, List.getElem?_map, ha, hb, Option.map_some, Option.map_some, heq]

theorem Wired.place_unique (h : o.Wired) {place place' : AccessorPlace} {i : Nat}
    (hplace : o.accessorAt? place = some i) (hplace' : o.accessorAt? place' = some i) :
    place = place' := by
  rcases h.accessorAt? hplace with ⟨k, p, role, m, rfl, hk, hm, hs⟩ | ⟨k, e, role, m, rfl, hk, hm, hs⟩
  <;> rcases h.accessorAt? hplace' with
    ⟨k', p', role', m', rfl, hk', hm', hs'⟩ | ⟨k', e', role', m', rfl, hk', hm', hs'⟩
  <;> obtain rfl : m = m' := Option.some.inj (hm.symm.trans hm')
  · -- Both places are of properties: the name of the accessor tells role and property.
    obtain ⟨rfl, hname⟩ := PropertyRole.methodName_inj (hs.name.symm.trans hs'.name)
    rw [index_of_nodup h.propertyNames hk hk' hname]
  · exact absurd (hs.origin.symm.trans hs'.origin) (by simp)
  · exact absurd (hs.origin.symm.trans hs'.origin) (by simp)
  · obtain ⟨rfl, hname⟩ := EventRole.methodName_inj (hs.name.symm.trans hs'.name)
    rw [index_of_nodup h.eventNames hk hk' hname]

theorem Wired.exists_place (h : o.Wired) {i : Nat} {m : Method} (hm : o.methods[i]? = some m)
    (hmade : m.isWritten = false) : ∃ place, o.accessorAt? place = some i := by
  rcases h.served_cases hm with hwritten | ⟨p, hp, role, hi, -⟩ | ⟨e, he, role, hi, -⟩
  · simp [Method.isWritten, hwritten] at hmade
  · obtain ⟨k, hk⟩ := List.mem_iff_getElem?.1 hp
    exact ⟨.property k role, by rw [ObjectType.accessorAt?, hk, Option.bind_some, hi]⟩
  · obtain ⟨k, hk⟩ := List.mem_iff_getElem?.1 he
    exact ⟨.event k role, by rw [ObjectType.accessorAt?, hk, Option.map_some, hi]⟩

theorem Wired.accessorsMatch (h : o.Wired) : o.AccessorsMatch := by
  refine ⟨h.propertyNames, h.eventNames, h.apart, ?_, ?_, ?_, ?_⟩
  · intro p hp role i hi
    obtain ⟨m, hm, hs⟩ := h.property p hp role i hi
    exact ⟨m, hm, hs.name, hs.origin, hs.isStatic, hs.agrees⟩
  · intro e he role
    obtain ⟨m, hm, hs⟩ := h.event e he role
    exact ⟨m, hm, hs.name, hs.origin, hs.isStatic, hs.agrees⟩
  · intro i m hm hmade
    obtain ⟨place, hplace⟩ := h.exists_place hm hmade
    exact ⟨place, hplace, fun other hother => h.place_unique hother hplace⟩
  · intro i m hm hwritten place hplace
    rcases h.accessorAt? hplace with ⟨-, p, role, m', -, -, hm', hs⟩ | ⟨-, e, role, m', -, -, hm', hs⟩
    <;> obtain rfl : m = m' := Option.some.inj (hm.symm.trans hm')
    · simp [Method.isWritten, hs.origin] at hwritten
    · simp [Method.isWritten, hs.origin] at hwritten

end ObjectType

namespace Workspace

theorem wired_of_similar {st st' : Store} (h : ∀ o ∈ st.objects, o.Wired) (hs : st.Similar st') :
    ∀ o ∈ st'.objects, o.Wired := by
  intro o' ho'
  obtain ⟨i, hi⟩ := Array.mem_iff_getElem?.1 ho'
  obtain ⟨o, ho, hcore⟩ := hs.object hi
  exact (h o (Array.mem_of_getElem? ho)).of_core hcore

theorem invariant_wired : Invariant fun w => ∀ o ∈ w.store.objects, o.Wired where
  build w visits h := Builder.run_wired w.builder visits h
  bindReferences w h := by
    rw [w.bindReferences_eq]
    intro o' ho'
    obtain ⟨o, ho, rfl⟩ := Array.mem_map.1 ho'
    exact (h o ho).boundIn _
  evaluateEnums w h := h
  findCycles w h := wired_of_similar h w.store.similar_withCycles
  checkMembers w h := wired_of_similar h (Store.similar_checkMembers w)
  deriveInterfaces w h := Derivation.wired_run (s := { store := w.store, symbols := w.symbols }) h

/-- In every class and interface of every workspace that is reached, members and accessors match. -/
theorem accessors_reached (settings : Settings) (catalog : Catalog) (stages : List Stage) :
    ∀ o ∈ (reached settings catalog stages).store.objects, o.AccessorsMatch := by
  intro o ho
  have h : ∀ o ∈ (reached settings catalog stages).store.objects, o.Wired :=
    invariant_wired.reached (P := fun w => ∀ o ∈ w.store.objects, o.Wired)
      (fun o ho => absurd ho (Array.not_mem_empty o)) stages
  exact (h o ho).accessorsMatch

/-- A class whose property comes in two fragments with an event between them, bound and derived. -/
def lampStages : List Stage :=
  [.build [.openBlock ⟨"Home", 1, []⟩, .openClass ⟨"Lamp", 2, {}, [], []⟩,
      .property ⟨"Mode", 3, false, "Int32", some [⟨.set, 3⟩]⟩,
      .event ⟨"OnChange", 4, false, "Changed", none⟩,
      .property ⟨"Mode", 5, false, "Int32", some [⟨.get, 5⟩]⟩],
    .pass .bindReferences, .pass .deriveInterfaces]

theorem accessors_reached_lamp :
    ∃ o ∈ (reached {} .empty lampStages).store.objects, o.name = "ILamp" ∧
      o.methods.map Method.name = ["put_Mode", "add_OnChange", "remove_OnChange", "get_Mode"] ∧
      o.AccessorsMatch := by
  have hderived : ((reached {} .empty lampStages).store.objects[1]?.map fun o : ObjectType =>
      (o.name, o.methods.map Method.name)) =
        some ("ILamp", ["put_Mode", "add_OnChange", "remove_OnChange", "get_Mode"]) := by
    decide +kernel
  obtain ⟨o, ho, heq⟩ := Option.map_eq_some_iff.1 hderived
  obtain ⟨hname, hmethods⟩ := Prod.mk.inj heq
  have hmem := Array.mem_of_getElem? ho
  exact ⟨o, hmem, hname, hmethods, accessors_reached {} .empty lampStages o hmem⟩

end Workspace

end ComponentIdl
