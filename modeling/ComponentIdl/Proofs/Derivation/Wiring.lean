import ComponentIdl.Proofs.Derivation.Members
import ComponentIdl.Proofs.Derivation.Step

/-!
# Accessors of derived interfaces

A derived interface takes over the methods of one kind, so its accessors move to new positions. A
property moves to the positions of its own accessors: a member and its accessors are static together,
and what is kept stays in order. A factory has no members but methods.
-/

namespace ComponentIdl

namespace ObjectType

variable {o : ObjectType} {statics : Bool}

theorem isStatic_of_keptPosition? {i k : Nat} (h : o.keptPosition? statics i = some k) :
    ∃ m, o.methods[i]? = some m ∧ m.isStatic = statics := by
  obtain ⟨m, hm, hk⟩ := Option.bind_eq_some_iff.1 h
  refine ⟨m, hm, ?_⟩
  by_contra hne
  rw [if_neg hne] at hk
  exact absurd hk (by simp)

/-- A kept method at its old position and at its new one. -/
theorem kept_method {k : Nat} {m' : Method} (h : (o.keep statics).methods[k]? = some m') :
    ∃ i m, o.methods[i]? = some m ∧ m.isStatic = statics ∧ o.keptPosition? statics i = some k ∧
      m' = { m with isStatic := false, overrides := none } := by
  have hmap : ((o.methods.filter fun m => m.isStatic == statics).map fun m =>
      ({ m with isStatic := false, overrides := none } : Method))[k]? = some m' := h
  rw [List.getElem?_map] at hmap
  obtain ⟨m, hm, rfl⟩ := Option.map_eq_some_iff.1 hmap
  obtain ⟨i, hi, hstatic, hcount⟩ := getElem?_of_filter hm
  refine ⟨i, m, hi, beq_iff_eq.1 hstatic, ?_, rfl⟩
  unfold keptPosition?
  rw [hi, Option.bind_some, if_pos (beq_iff_eq.1 hstatic), hcount]

/-- The copy of a property. -/
theorem kept_property {p' : Property} (h : p' ∈ (o.keep statics).properties) :
    ∃ p ∈ o.properties, p.isStatic = statics ∧ p'.name = p.name ∧ p'.type = p.type ∧
      p'.isStatic = false ∧
      ∀ role, p'.position? role = (p.position? role).bind (o.keptPosition? statics) := by
  obtain ⟨p, hp, rfl⟩ := List.mem_map.1 h
  obtain ⟨hmem, hstatic⟩ := List.mem_filter.1 hp
  refine ⟨p, hmem, beq_iff_eq.1 hstatic, rfl, rfl, rfl, ?_⟩
  intro role
  cases role <;> rfl

theorem keptEvent?_eq_some {e e' : Event} (h : o.keptEvent? statics e = some e') :
    e'.name = e.name ∧ e'.type = e.type ∧ e'.isStatic = false ∧
      ∀ role, o.keptPosition? statics (e.position role) = some (e'.position role) := by
  unfold keptEvent? at h
  split at h
  · next adder remover hadd hremove =>
    obtain rfl := Option.some.inj h
    refine ⟨rfl, rfl, rfl, ?_⟩
    intro role
    cases role
    · exact hadd
    · exact hremove
  · exact absurd h (by simp)

/-- An event whose accessors are of the kept kind is kept. -/
theorem keptEvent?_isSome (h : o.Wired) {e : Event} (he : e ∈ o.events)
    (hstatic : e.isStatic = statics) : ∃ e', o.keptEvent? statics e = some e' := by
  have hkept : ∀ role, ∃ k, o.keptPosition? statics (e.position role) = some k := by
    intro role
    obtain ⟨m, hm, hserved⟩ := h.event e he role
    obtain ⟨k, hk, -⟩ := keptPosition?_of_isStatic hm (hserved.isStatic.trans hstatic)
    exact ⟨k, hk⟩
  obtain ⟨adder, hadd⟩ := hkept .add
  obtain ⟨remover, hremove⟩ := hkept .remove
  refine ⟨{ e with isStatic := false, adder, remover, overrides := none }, ?_⟩
  unfold keptEvent?
  rw [show o.keptPosition? statics e.adder = some adder from hadd,
    show o.keptPosition? statics e.remover = some remover from hremove]

/-- The copy of an event. -/
theorem kept_event {e' : Event} (h : e' ∈ (o.keep statics).events) :
    ∃ e ∈ o.events, e.isStatic = statics ∧ o.keptEvent? statics e = some e' := by
  obtain ⟨e, he, hkept⟩ := List.mem_filterMap.1 h
  obtain ⟨hmem, hstatic⟩ := List.mem_filter.1 he
  exact ⟨e, hmem, beq_iff_eq.1 hstatic, hkept⟩

theorem nodup_keptNames (h : o.Wired) :
    ((o.keep statics).properties.map Property.name).Nodup ∧
      ((o.keep statics).events.map Event.name).Nodup := by
  constructor
  · have hnames : (o.keep statics).properties.map Property.name =
        (o.properties.filter fun p => p.isStatic == statics).map Property.name := List.map_map
    rw [hnames]
    exact h.propertyNames.sublist (List.filter_sublist.map _)
  · have hnames : ∀ es : List Event, ((es.filterMap (o.keptEvent? statics)).map Event.name).Sublist
        (es.map Event.name) := by
      intro es
      induction es with
      | nil => exact .slnil
      | cons e es ih =>
        rw [List.filterMap_cons]
        cases hkept : o.keptEvent? statics e with
        | none => exact ih.cons _
        | some e' =>
          rw [List.map_cons, (keptEvent?_eq_some hkept).1]
          exact ih.cons_cons _
    exact h.eventNames.sublist ((hnames _).trans (List.filter_sublist.map _))

/-- The accessors that a derived interface takes over are in order. -/
theorem Wired.keep (h : o.Wired) (statics : Bool) (id : ObjectId) (role : DerivedRole) :
    (Derivation.interfaceOf id o role (o.keep statics)).Wired := by
  constructor
  · exact (nodup_keptNames h).1
  · exact (nodup_keptNames h).2
  · intro p' hp' e' he'
    obtain ⟨p, hp, -, hname, -⟩ := kept_property hp'
    obtain ⟨e, he, -, hkept⟩ := kept_event he'
    rw [hname, (keptEvent?_eq_some hkept).1]
    exact h.apart p hp e he
  · intro p' hp' role' k hk
    obtain ⟨p, hp, -, hname, htype, hstatic, hposition⟩ := kept_property hp'
    rw [hposition] at hk
    obtain ⟨i, hi, hkept⟩ := Option.bind_eq_some_iff.1 hk
    obtain ⟨m, hm, hmstatic⟩ := isStatic_of_keptPosition? hkept
    have hserved := h.property_served hm hp hi
    obtain ⟨k', hk', hm'⟩ := keptPosition?_of_isStatic hm hmstatic
    obtain rfl : k = k' := Option.some.inj (hkept.symm.trans hk')
    exact ⟨_, hm', hname ▸ hserved.name, hserved.origin, hstatic.symm, htype ▸ hserved.result,
      htype ▸ hserved.types⟩
  · intro e' he' role'
    obtain ⟨e, he, -, hkept⟩ := kept_event he'
    obtain ⟨hname, htype, hstatic, hposition⟩ := keptEvent?_eq_some hkept
    obtain ⟨m, hm, hmstatic⟩ := isStatic_of_keptPosition? (hposition role')
    have hserved := h.event_served hm he rfl
    obtain ⟨k, hk, hm'⟩ := keptPosition?_of_isStatic hm hmstatic
    obtain rfl : e'.position role' = k := Option.some.inj ((hposition role').symm.trans hk)
    exact ⟨_, hm', hname ▸ hserved.name, hserved.origin, hstatic.symm, hserved.result,
      htype ▸ hserved.handler, hserved.token⟩
  · intro k m' hm' horigin
    obtain ⟨i, m, hm, hstatic, hk, rfl⟩ := kept_method hm'
    obtain ⟨p, hp, role', hi⟩ := h.ofProperty i m hm horigin
    have hp' : (p.isStatic == statics) = true := by
      rw [← (h.property_served hm hp hi).isStatic, hstatic]
      exact beq_self_eq_true statics
    refine ⟨_, List.mem_map.2 ⟨p, List.mem_filter.2 ⟨hp, hp'⟩, rfl⟩, role', ?_⟩
    cases role' with
    | get => exact (congrArg (Option.bind · (o.keptPosition? statics)) hi).trans hk
    | set => exact (congrArg (Option.bind · (o.keptPosition? statics)) hi).trans hk
  · intro k m' hm' horigin
    obtain ⟨i, m, hm, hstatic, hk, rfl⟩ := kept_method hm'
    obtain ⟨e, he, role', hi⟩ := h.ofEvent i m hm horigin
    have hestatic : e.isStatic = statics := by
      rw [← (h.event_served hm he hi).isStatic, hstatic]
    obtain ⟨e', he'⟩ := keptEvent?_isSome h he hestatic
    refine ⟨e', List.mem_filterMap.2 ⟨e, List.mem_filter.2 ⟨he, ?_⟩, he'⟩, role', ?_⟩
    · rw [hestatic]
      exact beq_self_eq_true statics
    · have hposition := (keptEvent?_eq_some he').2.2.2 role'
      rw [hi, hk] at hposition
      exact (Option.some.inj hposition).symm

theorem wired_factory (o : ObjectType) (id : ObjectId) (role : DerivedRole) :
    (Derivation.interfaceOf id o role (o.factory id)).Wired := by
  have hwritten : ∀ (i : Nat) m, (o.factory id).methods[i]? = some m → m.origin = .written := by
    intro i m hm
    obtain ⟨c, -, rfl⟩ := List.mem_map.1 (List.mem_of_getElem? hm)
    rfl
  refine ⟨List.nodup_nil, List.nodup_nil, by simp [Derivation.interfaceOf, factory],
    by simp [Derivation.interfaceOf, factory], by simp [Derivation.interfaceOf, factory], ?_, ?_⟩
  · intro i m hm horigin
    rw [hwritten i m hm] at horigin
    exact absurd horigin (by simp)
  · intro i m hm horigin
    rw [hwritten i m hm] at horigin
    exact absurd horigin (by simp)

theorem Wired.derivedRoles (h : o.Wired) {id : ObjectId} {plan : DerivedRole × MemberSet}
    (hplan : plan ∈ o.derivedRoles id) : (Derivation.interfaceOf id o plan.1 plan.2).Wired := by
  rcases mem_derivedRoles hplan with rfl | rfl | rfl
  · exact h.keep false id .default
  · exact h.keep true id .statics
  · exact o.wired_factory id .factory

end ObjectType

/-- Derived interfaces have their accessors in order if the classes do. -/
theorem Derivation.wired_run {s : Derivation} (h : ∀ o ∈ s.store.objects, o.Wired) :
    ∀ o ∈ s.run.store.objects, o.Wired := by
  refine run_preserves (P := fun s => ∀ o ∈ s.store.objects, o.Wired) (Q := fun _ o => o.Wired)
    (fun s id o hs ho _ => hs o (Array.mem_of_getElem? ho)) ?_ h
  intro s s' id o plan hs ho hplan hstep
  cases hstep with
  | passed => exact hs
  | taken d => exact hs
  | declared node block path free beside =>
    intro o' ho'
    obtain ⟨i, hi⟩ := Array.mem_iff_getElem?.1 ho'
    rcases cases_withInterface hi with ⟨old, hold, hcore⟩ | ⟨-, hcore⟩
    · exact (hs old (Array.mem_of_getElem? hold)).of_core hcore
    · exact (ho.derivedRoles hplan).of_core hcore

end ComponentIdl
