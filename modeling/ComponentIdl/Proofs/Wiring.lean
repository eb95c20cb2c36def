import Mathlib.Data.List.Nodup
import ComponentIdl.Proofs.Lists
import ComponentIdl.Store.Entity

/-!
# Accessors and the members they serve

A property or event holds positions in the method list of its owner. The positions are in order if
the methods found there are the accessors of that member, no two members share a name, and every
accessor serves some member. Changes of links and of references keep the order, as long as a member
and its accessors change alike.
-/

namespace ComponentIdl

theorem PropertyRole.methodName_inj {role role' : PropertyRole} {a b : String}
    (h : role.methodName a = role'.methodName b) : role = role' ∧ a = b := by
  have hchars := congrArg String.toList h
  cases role <;> cases role' <;>
    simp [PropertyRole.methodName, String.toList_append, ← String.toList_inj] at hchars ⊢
  · exact hchars
  · exact hchars

theorem EventRole.methodName_inj {role role' : EventRole} {a b : String}
    (h : role.methodName a = role'.methodName b) : role = role' ∧ a = b := by
  have hchars := congrArg String.toList h
  cases role <;> cases role' <;>
    simp [EventRole.methodName, String.toList_append, ← String.toList_inj] at hchars ⊢
  · exact hchars
  · exact hchars

theorem methodName_ne (role : PropertyRole) (role' : EventRole) (a b : String) :
    role.methodName a ≠ role'.methodName b := by
  intro h
  have hchars := congrArg String.toList h
  cases role <;> cases role' <;>
    simp [PropertyRole.methodName, EventRole.methodName, String.toList_append] at hchars

/-- The result of an accessor of a property. -/
def PropertyRole.result (type : Reference) : PropertyRole → Option Reference
  | get => some type
  | set => none

/-- The parameter types of an accessor of a property. -/
def PropertyRole.types (type : Reference) : PropertyRole → List Reference
  | get => []
  | set => [type]

/-- The method serves the property in the role. -/
structure Property.Served (p : Property) (role : PropertyRole) (m : Method) : Prop where
  name : m.name = role.methodName p.name
  origin : m.origin = .property
  isStatic : m.isStatic = p.isStatic
  result : m.result = role.result p.type
  types : m.parameters.map Parameter.type = role.types p.type

/-- The position of the method that serves a role. -/
def Event.position (e : Event) : EventRole → Nat
  | .add => e.adder
  | .remove => e.remover

/-- How the result of an accessor of an event is spelled. -/
def EventRole.result : EventRole → Option String
  | add => some registrationToken
  | remove => none

/-- The method serves the event in the role; what it says of the token is only how it is spelled. -/
structure Event.Served (e : Event) (role : EventRole) (m : Method) : Prop where
  name : m.name = role.methodName e.name
  origin : m.origin = .event
  isStatic : m.isStatic = e.isStatic
  result : m.result.map Reference.text = role.result
  handler : role = .add → m.parameters.map Parameter.type = [e.type]
  token : role = .remove → m.parameters.map (fun p => p.type.text) = [registrationToken]

theorem Property.served_accessor (p : Property) (role : PropertyRole) (line : Nat) :
    p.Served role (p.accessor role line) := by
  cases role <;> exact ⟨rfl, rfl, rfl, rfl, rfl⟩

theorem Event.served_accessor (e : Event) (role : EventRole) : e.Served role (e.accessor role) := by
  cases role <;> exact ⟨rfl, rfl, rfl, rfl, by simp [accessor], by simp [accessor, Reference.named]⟩

theorem Property.position?_setPosition (p : Property) (i : Nat) (role other : PropertyRole) :
    (p.setPosition i role).position? other = if other = role then some i else p.position? other := by
  cases role <;> cases other <;> simp [setPosition, position?]

theorem Property.name_setPosition (p : Property) (i : Nat) (role : PropertyRole) :
    (p.setPosition i role).name = p.name := by
  cases role <;> rfl

theorem Property.Served.setPosition {p : Property} {role other : PropertyRole} {m : Method}
    (h : p.Served role m) (i : Nat) : (p.setPosition i other).Served role m := by
  cases other <;> exact ⟨h.name, h.origin, h.isStatic, h.result, h.types⟩

/-- The positions of a class or interface are in order. -/
structure ObjectType.Wired (o : ObjectType) : Prop where
  propertyNames : (o.properties.map Property.name).Nodup
  eventNames : (o.events.map Event.name).Nodup
  apart : ∀ p ∈ o.properties, ∀ e ∈ o.events, p.name ≠ e.name
  property : ∀ p ∈ o.properties, ∀ role i, p.position? role = some i →
    ∃ m, o.methods[i]? = some m ∧ p.Served role m
  event : ∀ e ∈ o.events, ∀ role, ∃ m, o.methods[e.position role]? = some m ∧ e.Served role m
  ofProperty : ∀ i m, o.methods[i]? = some m → m.origin = .property →
    ∃ p ∈ o.properties, ∃ role, p.position? role = some i
  ofEvent : ∀ i m, o.methods[i]? = some m → m.origin = .event →
    ∃ e ∈ o.events, ∃ role, e.position role = i

namespace ObjectType

variable {o o' : ObjectType}

theorem Wired.property_served (h : o.Wired) {i : Nat} {m : Method} (hm : o.methods[i]? = some m)
    {p : Property} (hp : p ∈ o.properties) {role : PropertyRole} (hi : p.position? role = some i) :
    p.Served role m := by
  obtain ⟨m', hm', hserved⟩ := h.property p hp role i hi
  obtain rfl : m = m' := Option.some.inj (hm.symm.trans hm')
  exact hserved

theorem Wired.event_served (h : o.Wired) {i : Nat} {m : Method} (hm : o.methods[i]? = some m)
    {e : Event} (he : e ∈ o.events) {role : EventRole} (hi : e.position role = i) :
    e.Served role m := by
  obtain ⟨m', hm', hserved⟩ := h.event e he role
  rw [hi] at hm'
  obtain rfl : m = m' := Option.some.inj (hm.symm.trans hm')
  exact hserved

theorem Wired.served_cases (h : o.Wired) {i : Nat} {m : Method} (hm : o.methods[i]? = some m) :
    m.origin = .written ∨
      (∃ p ∈ o.properties, ∃ role, p.position? role = some i ∧ p.Served role m) ∨
      ∃ e ∈ o.events, ∃ role, e.position role = i ∧ e.Served role m := by
  cases ho : m.origin with
  | written => exact Or.inl rfl
  | property =>
    obtain ⟨p, hp, role, hi⟩ := h.ofProperty i m hm ho
    exact Or.inr (Or.inl ⟨p, hp, role, hi, h.property_served hm hp hi⟩)
  | event =>
    obtain ⟨e, he, role, hi⟩ := h.ofEvent i m hm ho
    exact Or.inr (Or.inr ⟨e, he, role, hi, h.event_served hm he hi⟩)

theorem Wired.property_unique (h : o.Wired) {p q : Property} {role role' : PropertyRole} {i : Nat}
    (hp : p ∈ o.properties) (hq : q ∈ o.properties) (hi : p.position? role = some i)
    (hi' : q.position? role' = some i) : p = q ∧ role = role' := by
  obtain ⟨m, hm, hserved⟩ := h.property p hp role i hi
  have hserved' := h.property_served hm hq hi'
  obtain ⟨hrole, hname⟩ := PropertyRole.methodName_inj (hserved.name.symm.trans hserved'.name)
  exact ⟨List.inj_on_of_nodup_map h.propertyNames hp hq hname, hrole⟩

theorem Wired.event_unique (h : o.Wired) {d e : Event} {role role' : EventRole}
    (hd : d ∈ o.events) (he : e ∈ o.events) (hi : d.position role = e.position role') :
    d = e ∧ role = role' := by
  obtain ⟨m, hm, hserved⟩ := h.event e he role'
  have hserved' := h.event_served hm hd hi
  obtain ⟨hrole, hname⟩ := EventRole.methodName_inj (hserved'.name.symm.trans hserved.name)
  exact ⟨List.inj_on_of_nodup_map h.eventNames hd he hname, hrole⟩

/-- Members and accessors may change, as long as positions and names stay and an accessor still
serves its member. -/
theorem Wired.transfer (h : o.Wired) {M : Method → Method → Prop} {P : Property → Property → Prop}
    {E : Event → Event → Prop} (hm : List.Forall₂ M o.methods o'.methods)
    (hp : List.Forall₂ P o.properties o'.properties) (he : List.Forall₂ E o.events o'.events)
    (horigin : ∀ m m', M m m' → m'.origin = m.origin)
    (hproperty : ∀ p p', P p p' → p'.name = p.name ∧ ∀ role, p'.position? role = p.position? role)
    (hevent : ∀ e e', E e e' → e'.name = e.name ∧ ∀ role, e'.position role = e.position role)
    (hserved : ∀ p p' m m' role, P p p' → M m m' → p.Served role m → p'.Served role m')
    (hserved' : ∀ e e' m m' role, E e e' → M m m' → e.Served role m → e'.Served role m') :
    o'.Wired := by
  constructor
  · rw [map_eq_of_forall₂ hp fun p p' hpp => (hproperty p p' hpp).1]
    exact h.propertyNames
  · rw [map_eq_of_forall₂ he fun e e' hee => (hevent e e' hee).1]
    exact h.eventNames
  · intro p' hp' e' he'
    obtain ⟨p, hpm, hpp⟩ := mem_left hp hp'
    obtain ⟨e, hem, hee⟩ := mem_left he he'
    rw [(hproperty p p' hpp).1, (hevent e e' hee).1]
    exact h.apart p hpm e hem
  · intro p' hp' role i hi
    obtain ⟨p, hpm, hpp⟩ := mem_left hp hp'
    rw [(hproperty p p' hpp).2] at hi
    obtain ⟨m, hmi, hs⟩ := h.property p hpm role i hi
    obtain ⟨m', hmi', hmm⟩ := getElem?_right hm hmi
    exact ⟨m', hmi', hserved p p' m m' role hpp hmm hs⟩
  · intro e' he' role
    obtain ⟨e, hem, hee⟩ := mem_left he he'
    rw [(hevent e e' hee).2]
    obtain ⟨m, hmi, hs⟩ := h.event e hem role
    obtain ⟨m', hmi', hmm⟩ := getElem?_right hm hmi
    exact ⟨m', hmi', hserved' e e' m m' role hee hmm hs⟩
  · intro i m' hmi' ho
    obtain ⟨m, hmi, hmm⟩ := getElem?_left hm hmi'
    rw [horigin m m' hmm] at ho
    obtain ⟨p, hpm, role, hrole⟩ := h.ofProperty i m hmi ho
    obtain ⟨p', hpm', hpp⟩ := mem_right hp hpm
    exact ⟨p', hpm', role, by rw [(hproperty p p' hpp).2, hrole]⟩
  · intro i m' hmi' ho
    obtain ⟨m, hmi, hmm⟩ := getElem?_left hm hmi'
    rw [horigin m m' hmm] at ho
    obtain ⟨e, hem, role, hrole⟩ := h.ofEvent i m hmi ho
    obtain ⟨e', hem', hee⟩ := mem_right he hem
    exact ⟨e', hem', role, by rw [(hevent e e' hee).2, hrole]⟩

theorem property?_eq_none {name : String} :
    o.property? name = none ↔ ∀ p ∈ o.properties, p.name ≠ name :=
  find?_zipIdx_eq_none

theorem property?_eq_some {name : String} {p : Property} {i : Nat}
    (h : o.property? name = some (p, i)) : o.properties[i]? = some p ∧ p.name = name := by
  have hname := List.find?_some h
  have hmem := List.mem_of_find?_eq_some h
  exact ⟨List.mem_zipIdx_iff_getElem?.1 hmem, by simpa using hname⟩

theorem event?_eq_none {name : String} :
    o.event? name = none ↔ ∀ e ∈ o.events, e.name ≠ name :=
  find?_zipIdx_eq_none

theorem event?_eq_some {name : String} {e : Event × Nat} (h : o.event? name = some e) :
    o.events[e.2]? = some e.1 ∧ e.1.name = name := by
  have hname := List.find?_some h
  have hmem := List.mem_of_find?_eq_some h
  exact ⟨List.mem_zipIdx_iff_getElem?.1 hmem, by simpa using hname⟩

end ObjectType

end ComponentIdl
