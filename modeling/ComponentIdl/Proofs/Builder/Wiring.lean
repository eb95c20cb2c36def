import ComponentIdl.Proofs.Builder.Step
import ComponentIdl.Proofs.Wiring

/-!
# Positions are in order while a class or interface grows

Every visit that adds a member adds its accessors at the end of the method list and records where they
are. An accessor body asks for a role once at most and a second fragment for none that is there, so
no position is overwritten.
-/

namespace ComponentIdl

theorem AccessorRequest.nodup_ask (request : AccessorRequest) (d : Decl.Property)
    (role : PropertyRole) (line : Nat) (h : (request.asked.map Prod.fst).Nodup) :
    ((request.ask d role line).asked.map Prod.fst).Nodup := by
  unfold ask
  split
  · exact h
  · next hfresh =>
    refine nodup_map_concat h fun a ha heq => ?_
    exact hfresh (List.any_eq_true.2 ⟨a, ha, by simpa using heq⟩)

theorem AccessorRequest.nodup_read (d : Decl.Property) (request : AccessorRequest)
    (a : Decl.Accessor) (h : (request.asked.map Prod.fst).Nodup) :
    ((request.read d a).asked.map Prod.fst).Nodup := by
  unfold read
  split
  · exact nodup_ask request d .get a.line h
  · exact nodup_ask request d .set a.line h
  · exact h

theorem AccessorRequest.nodup_ofDecl (d : Decl.Property) :
    ((ofDecl d).asked.map Prod.fst).Nodup := by
  have hfold : ∀ (body : List Decl.Accessor) (request : AccessorRequest),
      (request.asked.map Prod.fst).Nodup →
      ((body.foldl (AccessorRequest.read d) request).asked.map Prod.fst).Nodup := by
    intro body
    induction body with
    | nil => exact fun _ h => h
    | cons a body ih => exact fun request h => ih _ (nodup_read d request a h)
  unfold ofDecl
  split
  · simp
  · simp [reject]
  · exact hfold _ _ (by simp)

namespace ObjectType

variable {o o' : ObjectType}

theorem wired_of_new {header : Header} (h : o.IsNew header) : o.Wired := by
  constructor
  · simp [h.properties]
  · simp [h.events]
  · simp [h.properties]
  · simp [h.properties]
  · simp [h.events]
  · simp [h.methods]
  · simp [h.methods]

theorem Wired.property_append (h : o.Wired) {p : Property} (hp : p ∈ o.properties)
    {role : PropertyRole} {i : Nat} (hi : p.position? role = some i) (more : List Method) :
    ∃ m, (o.methods ++ more)[i]? = some m ∧ p.Served role m := by
  obtain ⟨m, hm, hserved⟩ := h.property p hp role i hi
  exact ⟨m, getElem?_append_old _ hm, hserved⟩

theorem Wired.event_append (h : o.Wired) {e : Event} (he : e ∈ o.events) (role : EventRole)
    (more : List Method) :
    ∃ m, (o.methods ++ more)[e.position role]? = some m ∧ e.Served role m := by
  obtain ⟨m, hm, hserved⟩ := h.event e he role
  exact ⟨m, getElem?_append_old _ hm, hserved⟩

theorem Wired.ofProperty_append (h : o.Wired) {more : List Method}
    (hmore : ∀ m ∈ more, m.origin ≠ .property) {i : Nat} {m : Method}
    (hm : (o.methods ++ more)[i]? = some m) (ho : m.origin = .property) :
    ∃ p ∈ o.properties, ∃ role, p.position? role = some i := by
  rcases getElem?_append_cases hm with hm | ⟨k, -, hk⟩
  · exact h.ofProperty i m hm ho
  · exact absurd ho (hmore m (List.mem_of_getElem? hk))

theorem Wired.ofEvent_append (h : o.Wired) {more : List Method}
    (hmore : ∀ m ∈ more, m.origin ≠ .event) {i : Nat} {m : Method}
    (hm : (o.methods ++ more)[i]? = some m) (ho : m.origin = .event) :
    ∃ e ∈ o.events, ∃ role, e.position role = i := by
  rcases getElem?_append_cases hm with hm | ⟨k, -, hk⟩
  · exact h.ofEvent i m hm ho
  · exact absurd ho (hmore m (List.mem_of_getElem? hk))

theorem Wired.pushMethod (h : o.Wired) {m : Method} (hm : m.origin = .written) :
    (o.pushMethod m).Wired := by
  have horigin : ∀ n ∈ [m], n.origin = .written := by
    intro n hn
    rw [List.mem_singleton.1 hn, hm]
  refine ⟨h.propertyNames, h.eventNames, h.apart, ?_, ?_, ?_, ?_⟩
  · exact fun p hp role i hi => h.property_append hp hi [m]
  · exact fun e he role => h.event_append he role [m]
  · exact fun i n => h.ofProperty_append fun n hn => by simp [horigin n hn]
  · exact fun i n => h.ofEvent_append fun n hn => by simp [horigin n hn]

section Accessor

variable {index : Nat} {role : PropertyRole} {p : Property}

theorem addAccessor_eq (hp : o.properties[index]? = some p) (role : PropertyRole) (line : Nat) :
    o.addAccessor index role line =
      { o with
        methods := o.methods ++ [p.accessor role line]
        properties := o.properties.modify index fun q => q.setPosition o.methods.length role } := by
  unfold addAccessor
  rw [hp]
  rfl

theorem mem_setPosition (hp : o.properties[index]? = some p) {q' : Property}
    (hq' : q' ∈ o.properties.modify index fun q => q.setPosition o.methods.length role) :
    q' = p.setPosition o.methods.length role ∨ q' ∈ o.properties := by
  rcases mem_modify hq' with ⟨q, hq, rfl⟩ | hq
  · obtain rfl : q = p := Option.some.inj (hq.symm.trans hp)
    exact Or.inl rfl
  · exact Or.inr hq

theorem Wired.property_setPosition (h : o.Wired) (hmem : p ∈ o.properties) (line : Nat)
    {role' : PropertyRole} {i : Nat}
    (hi : (p.setPosition o.methods.length role).position? role' = some i) :
    ∃ m, (o.methods ++ [p.accessor role line])[i]? = some m ∧
      (p.setPosition o.methods.length role).Served role' m := by
  rw [Property.position?_setPosition] at hi
  by_cases hr : role' = role
  · subst hr
    rw [if_pos rfl, Option.some.injEq] at hi
    subst hi
    exact ⟨_, List.getElem?_concat_length, (p.served_accessor role' line).setPosition _⟩
  · rw [if_neg hr] at hi
    obtain ⟨n, hn, hserved⟩ := h.property_append hmem hi [p.accessor role line]
    exact ⟨n, hn, hserved.setPosition _⟩

theorem Wired.ofProperty_setPosition (h : o.Wired) (hp : o.properties[index]? = some p)
    (hfree : p.position? role = none) {i : Nat} {m : Method} (hm : o.methods[i]? = some m)
    (ho : m.origin = .property) :
    ∃ q ∈ o.properties.modify index fun q => q.setPosition o.methods.length role,
      ∃ role', q.position? role' = some i := by
  obtain ⟨q, hq, role', hi⟩ := h.ofProperty i m hm ho
  rcases mem_modify_of_mem (f := fun q => q.setPosition o.methods.length role) (i := index) hq with
    ⟨hq', hpq⟩ | hq'
  · obtain rfl : p = q := Option.some.inj (hp.symm.trans hpq)
    refine ⟨_, hq', role', ?_⟩
    rw [Property.position?_setPosition, if_neg]
    · exact hi
    · rintro rfl
      simp [hfree] at hi
  · exact ⟨q, hq', role', hi⟩

theorem Wired.addAccessor (h : o.Wired) (line : Nat) (hp : o.properties[index]? = some p)
    (hfree : p.position? role = none) : (o.addAccessor index role line).Wired := by
  have hmem : p ∈ o.properties := List.mem_of_getElem? hp
  have hname : ∀ q : Property, (q.setPosition o.methods.length role).name = q.name :=
    fun q => q.name_setPosition _ role
  rw [addAccessor_eq hp]
  refine ⟨?_, h.eventNames, ?_, ?_, ?_, ?_, ?_⟩
  · show ((o.properties.modify index _).map Property.name).Nodup
    rw [map_modify _ _ hname]
    exact h.propertyNames
  · intro q' hq' e he
    rcases mem_setPosition hp hq' with rfl | hq
    · rw [hname]
      exact h.apart p hmem e he
    · exact h.apart q' hq e he
  · intro q' hq' role' i hi
    rcases mem_setPosition hp hq' with rfl | hq
    · exact h.property_setPosition hmem line hi
    · exact h.property_append hq hi _
  · exact fun e he role' => h.event_append he role' _
  · intro i n hn ho
    rcases getElem?_append_cases hn with hn | ⟨k, hik, hk⟩
    · exact h.ofProperty_setPosition hp hfree hn ho
    · have hlt := (List.getElem?_eq_some_iff.1 hk).1
      have hk0 : k = 0 := by simpa using hlt
      refine ⟨p.setPosition o.methods.length role, ?_, role, ?_⟩
      · exact List.mem_iff_getElem?.2 ⟨index, by simp [hp]⟩
      · rw [Property.position?_setPosition, if_pos rfl, hik, hk0, Nat.add_zero]
  · exact fun i n => h.ofEvent_append (by simp [Property.accessor])

theorem properties_addAccessor (line : Nat) (hp : o.properties[index]? = some p) :
    (o.addAccessor index role line).properties[index]? =
      some (p.setPosition o.methods.length role) := by
  rw [addAccessor_eq hp]
  simp [hp]

end Accessor

theorem Wired.addAccessors (h : o.Wired) {index : Nat} {p : Property}
    (asked : List (PropertyRole × Nat)) (hp : o.properties[index]? = some p)
    (hnodup : (asked.map Prod.fst).Nodup) (hfree : ∀ a ∈ asked, p.position? a.1 = none) :
    (o.addAccessors index asked).Wired := by
  induction asked generalizing o p with
  | nil => exact h
  | cons a asked ih =>
    rw [List.map_cons, List.nodup_cons] at hnodup
    have hnext := h.addAccessor a.2 hp (hfree a List.mem_cons_self)
    apply ih hnext (properties_addAccessor a.2 hp) hnodup.2
    intro a' ha'
    rw [Property.position?_setPosition, if_neg]
    · exact hfree a' (List.mem_cons_of_mem _ ha')
    · intro heq
      exact hnodup.1 (List.mem_map.2 ⟨a', ha', heq⟩)

theorem Wired.addProperty (h : o.Wired) {p : Property} (hget : p.getter = none)
    (hset : p.setter = none) (hp : o.property? p.name = none) (he : o.event? p.name = none) :
    ({ o with properties := o.properties ++ [p] } : ObjectType).Wired := by
  have hnone : ∀ role, p.position? role = none := by
    intro role
    cases role
    · exact hget
    · exact hset
  refine ⟨?_, h.eventNames, ?_, ?_, h.event, ?_, h.ofEvent⟩
  · exact nodup_map_concat h.propertyNames (property?_eq_none.1 hp)
  · intro q hq e hmem
    rcases List.mem_append.1 hq with hq | hq
    · exact h.apart q hq e hmem
    · obtain rfl := List.mem_singleton.1 hq
      exact fun heq => event?_eq_none.1 he e hmem heq.symm
  · intro q hq role i hi
    rcases List.mem_append.1 hq with hq | hq
    · exact h.property q hq role i hi
    · obtain rfl := List.mem_singleton.1 hq
      rw [hnone] at hi
      simp at hi
  · intro i m hm ho
    obtain ⟨q, hq, hrole⟩ := h.ofProperty i m hm ho
    exact ⟨q, List.mem_append_left _ hq, hrole⟩

theorem Wired.addFragment (h : o.Wired) (d : Decl.Property) (count : Nat)
    (ho : o.addFragment d count (AccessorRequest.ofDecl d).asked = .ok o') : o'.Wired := by
  have hnodup := AccessorRequest.nodup_ofDecl d
  obtain ⟨he, ⟨hp, rfl⟩ | ⟨p, index, hp, -, -, -, hfree, rfl⟩⟩ := addFragment_cases ho
  · refine (h.addProperty rfl rfl hp he).addAccessors _ List.getElem?_concat_length hnodup ?_
    intro a _
    cases a.1 <;> rfl
  · refine h.addAccessors _ (property?_eq_some hp).1 hnodup ?_
    intro a ha
    exact Option.isNone_iff_eq_none.1 (Option.isSome_eq_false_iff.1 (hfree a ha))

theorem addEvent_eq (o : ObjectType) (d : Decl.Event) : ∃ e : Event,
    e.name = d.name ∧ e.adder = o.methods.length ∧ e.remover = o.methods.length + 1 ∧
      o.addEvent d =
        { o with
          methods := o.methods ++ [e.accessor .add, e.accessor .remove]
          events := o.events ++ [e] } := by
  refine ⟨⟨d.name, d.line, d.isStatic, .parse d.type, o.methods.length, o.methods.length + 1, none⟩,
    rfl, rfl, rfl, ?_⟩
  unfold addEvent pushMethod
  dsimp only
  rw [List.append_assoc]
  rfl

theorem Wired.addEvent (h : o.Wired) (d : Decl.Event) (he : o.event? d.name = none)
    (hp : o.property? d.name = none) : (o.addEvent d).Wired := by
  obtain ⟨fresh, hname, hadd, hremove, heq⟩ := o.addEvent_eq d
  rw [← hname] at he hp
  rw [heq]
  refine ⟨h.propertyNames, ?_, ?_, ?_, ?_, ?_, ?_⟩
  · exact nodup_map_concat h.eventNames (event?_eq_none.1 he)
  · intro p hmem e hmem'
    rcases List.mem_append.1 hmem' with hmem' | hmem'
    · exact h.apart p hmem e hmem'
    · obtain rfl := List.mem_singleton.1 hmem'
      exact property?_eq_none.1 hp p hmem
  · exact fun p hmem role i hi => h.property_append hmem hi _
  · intro e hmem role
    rcases List.mem_append.1 hmem with hmem | hmem
    · exact h.event_append hmem role _
    · obtain rfl := List.mem_singleton.1 hmem
      refine ⟨_, ?_, Event.served_accessor _ role⟩
      cases role <;> simp [Event.position, hadd, hremove]
  · exact fun i n => h.ofProperty_append (by simp [Event.accessor])
  · intro i n hn ho
    rcases getElem?_append_cases hn with hn | ⟨k, hik, hk⟩
    · obtain ⟨e, hmem, role, hi⟩ := h.ofEvent i n hn ho
      exact ⟨e, List.mem_append_left _ hmem, role, hi⟩
    · -- Only the two accessors of the new event are new.
      have hlt := (List.getElem?_eq_some_iff.1 hk).1
      rw [List.length_cons, List.length_singleton] at hlt
      refine ⟨fresh, List.mem_append_right _ List.mem_cons_self, ?_⟩
      obtain rfl | rfl : k = 0 ∨ k = 1 := by omega
      · exact ⟨.add, by rw [Event.position, hadd, hik, Nat.add_zero]⟩
      · exact ⟨.remove, by rw [Event.position, hremove, hik]⟩

theorem Wired.grows (h : o.Wired) (hg : o.Grows o') : o'.Wired := by
  cases hg with
  | method d => exact h.pushMethod rfl
  | constructor d => exact ⟨h.propertyNames, h.eventNames, h.apart, h.property, h.event, h.ofProperty,
      h.ofEvent⟩
  | fragment d count ho => exact h.addFragment d count ho
  | event d he hp => exact h.addEvent d he hp

end ObjectType

/-- Whatever is visited, positions are in order in every class and interface that is built. -/
theorem Builder.run_wired (b : Builder) (visits : List Visit)
    (h : ∀ o ∈ b.store.objects, o.Wired) : ∀ o ∈ (b.run visits).store.objects, o.Wired :=
  run_objects visits (fun _ _ => ObjectType.wired_of_new) (fun _ _ hg h => h.grows hg) h

end ComponentIdl
