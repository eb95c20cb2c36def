import ComponentIdl.Proofs.Builder.Tokens
import ComponentIdl.Proofs.Conflict.Reports

/-!
# Where links come from

A method is linked for its own sake, or as an accessor of a linked property or event. The links of
all three lists are read off one inherited interface, so they name members that correspond, and no
two remarks link one method to different members.
-/

namespace ComponentIdl

/-- One signature, one result and one origin. -/
structure Method.Corresponds (m n : Method) : Prop where
  signature : m.signature = n.signature
  result : resultsAgree n.result m.result = true
  origin : m.origin = n.origin

theorem Method.signature_eq {m n : Method} (hname : m.name = n.name)
    (htypes : (m.parameters.map Parameter.type).map Reference.identity =
      (n.parameters.map Parameter.type).map Reference.identity) : m.signature = n.signature := by
  rw [List.map_map, List.map_map] at htypes
  unfold signature
  rw [hname]
  exact congrArg (Identity.ofSignature n.name) htypes

theorem Property.Served.corresponds {p q : Property} {role : PropertyRole} {m n : Method}
    (hm : p.Served role m) (hn : q.Served role n) (hname : q.name = p.name)
    (htype : q.type.agrees p.type = true) : m.Corresponds n := by
  refine ⟨Method.signature_eq ?_ ?_, ?_, hm.origin.trans hn.origin.symm⟩
  · rw [hm.name, hn.name, hname]
  · rw [hm.types, hn.types]
    cases role with
    | get => rfl
    | set => exact congrArg (fun identity => [identity]) (Reference.identity_of_agrees htype).symm
  · rw [hm.result, hn.result]
    cases role with
    | get => exact htype
    | set => rfl

theorem Event.Served.corresponds {d e : Event} {role : EventRole} {m n : Method} {token : Reference}
    (hm : e.Served role m) (hn : d.Served role n)
    (hresult : m.result = role.issued token) (hresult' : n.result = role.issued token)
    (htypes : m.parameters.map Parameter.type = role.taken e.type token)
    (htypes' : n.parameters.map Parameter.type = role.taken d.type token)
    (hname : d.name = e.name) (htype : d.type.agrees e.type = true) : m.Corresponds n := by
  refine ⟨Method.signature_eq ?_ ?_, ?_, hm.origin.trans hn.origin.symm⟩
  · rw [hm.name, hn.name, hname]
  · rw [htypes, htypes']
    cases role with
    | add => exact congrArg (fun identity => [identity]) (Reference.identity_of_agrees htype).symm
    | remove => rfl
  · rw [hresult, hresult']
    cases role with
    | add => exact token.agrees_self
    | remove => rfl

namespace ObjectType

variable {o : ObjectType} {bases : List (ObjectId × ObjectType)} {m : Method} {i k : Nat}
  {link : MemberLink}

theorem linkMethod_propertyLinks {p : Property} {base : ObjectId} {q : Property × Nat} :
    .linkMethod i link ∈ propertyLinks p k base q ↔
      ∃ role j, p.position? role = some i ∧ q.1.position? role = some j ∧ link = ⟨base, j⟩ := by
  unfold propertyLinks
  simp only [List.cons_append, List.mem_cons, reduceCtorEq, false_or, List.mem_append,
    mem_accessorLink]
  constructor
  · rintro (⟨hown, j, hj, hlink⟩ | ⟨hown, j, hj, hlink⟩)
    · exact ⟨.get, j, hown, hj, hlink⟩
    · exact ⟨.set, j, hown, hj, hlink⟩
  · rintro ⟨role, j, hown, hj, hlink⟩
    cases role with
    | get => exact Or.inl ⟨hown, j, hj, hlink⟩
    | set => exact Or.inr ⟨hown, j, hj, hlink⟩

theorem linkProperty_propertyLinks {p : Property} {base : ObjectId} {q : Property × Nat} :
    .linkProperty i link ∈ propertyLinks p k base q ↔ i = k ∧ link = ⟨base, q.2⟩ := by
  constructor
  · intro h
    rcases propertyLinks_cases h with heq | ⟨i, link, heq⟩
    · exact Remark.linkProperty.inj heq
    · cases heq
  · rintro ⟨rfl, rfl⟩
    exact List.mem_cons_self

theorem linkMethod_eventLinks {e : Event} {base : ObjectId} {d : Event × Nat} :
    .linkMethod i link ∈ eventLinks e k base d ↔
      ∃ role, e.position role = i ∧ link = ⟨base, d.1.position role⟩ := by
  unfold eventLinks
  simp only [List.mem_cons, reduceCtorEq, false_or, Remark.linkMethod.injEq, List.mem_nil_iff,
    or_false]
  constructor
  · rintro (⟨rfl, hlink⟩ | ⟨rfl, hlink⟩)
    · exact ⟨.add, rfl, hlink⟩
    · exact ⟨.remove, rfl, hlink⟩
  · rintro ⟨role, hi, hlink⟩
    cases role with
    | add => exact Or.inl ⟨hi.symm, hlink⟩
    | remove => exact Or.inr ⟨hi.symm, hlink⟩

theorem linkEvent_eventLinks {e : Event} {base : ObjectId} {d : Event × Nat} :
    .linkEvent i link ∈ eventLinks e k base d ↔ i = k ∧ link = ⟨base, d.2⟩ := by
  simp [eventLinks]

/-- A property with any link is one that a class has from an inherited property. -/
theorem propertyRemarks_of_isLink {p : Property × Nat} {remark : Remark} (hlink : remark.kind? = none)
    (h : remark ∈ o.propertyRemarks bases p) :
    ∃ b ∈ bases, ∃ q, b.2.property? p.1.name = some q ∧ o.isClass = true ∧
      q.1.type.agrees p.1.type = true ∧
      o.propertyRemarks bases p = propertyLinks p.1 p.2 b.1 q := by
  rcases propertyRemarks_cases o bases p with hnil | ⟨kind, -, hreport⟩ | hlinks
  · rw [hnil] at h
    exact absurd h List.not_mem_nil
  · rw [hreport, List.mem_singleton] at h
    rw [h] at hlink
    exact absurd hlink (by simp [Remark.kind?])
  · exact hlinks

theorem eventRemarks_of_isLink {e : Event × Nat} {remark : Remark} (hlink : remark.kind? = none)
    (h : remark ∈ o.eventRemarks bases e) :
    ∃ b ∈ bases, ∃ d, b.2.event? e.1.name = some d ∧ o.isClass = true ∧
      d.1.type.agrees e.1.type = true ∧
      o.eventRemarks bases e = eventLinks e.1 e.2 b.1 d := by
  rcases eventRemarks_cases o bases e with hnil | ⟨kind, -, hreport⟩ | hlinks
  · rw [hnil] at h
    exact absurd h List.not_mem_nil
  · rw [hreport, List.mem_singleton] at h
    rw [h] at hlink
    exact absurd hlink (by simp [Remark.kind?])
  · exact hlinks

/-- A link of a property or event stands with the remarks on properties and events. -/
theorem members_of_isLink {remark : Remark} (hlink : remark.kind? = none)
    (hmethod : ∀ i link, remark ≠ .linkMethod i link) (h : remark ∈ o.remarks bases) :
    (∃ p k, o.properties[k]? = some p ∧ remark ∈ o.propertyRemarks bases (p, k)) ∨
      ∃ e k, o.events[k]? = some e ∧ remark ∈ o.eventRemarks bases (e, k) := by
  rcases mem_remarks.1 h with h | h | ⟨m, j, -, -, h⟩ | h | h | h
  · obtain ⟨index, rfl⟩ := mem_signatureClashes h
    cases hlink
  · rcases kind?_accessorClashes h with hkind | hkind | ⟨index, rfl⟩
    · cases hlink.symm.trans hkind
    · cases hlink.symm.trans hkind
    · cases hlink
  · rcases mem_methodRemarks h with ⟨base, rfl⟩ | rfl
    · exact absurd rfl (hmethod j base)
    · cases hlink
  · exact Or.inl h
  · exact Or.inr h
  · obtain ⟨line, name, rfl⟩ := mem_instanceMembers h
    cases hlink

theorem linkProperty_source (h : .linkProperty k link ∈ o.remarks bases) :
    ∃ p b q, o.properties[k]? = some p ∧ b ∈ bases ∧ link = ⟨b.1, q.2⟩ ∧
      b.2.property? p.name = some q ∧ o.isClass = true ∧ q.1.type.agrees p.type = true ∧
      o.propertyRemarks bases (p, k) = propertyLinks p k b.1 q := by
  rcases members_of_isLink rfl (by simp) h with ⟨p, k', hp, h⟩ | ⟨e, k', -, h⟩
  · obtain ⟨b, hb, q, hq, hclass, htype, hlinks⟩ := propertyRemarks_of_isLink rfl h
    obtain ⟨rfl, hlink⟩ := linkProperty_propertyLinks.1 (hlinks ▸ h)
    exact ⟨p, b, q, hp, hb, hlink, hq, hclass, htype, hlinks⟩
  · obtain ⟨b, -, d, -, -, -, hlinks⟩ := eventRemarks_of_isLink rfl h
    rw [hlinks] at h
    simp [eventLinks] at h

theorem linkEvent_source (h : .linkEvent k link ∈ o.remarks bases) :
    ∃ e b d, o.events[k]? = some e ∧ b ∈ bases ∧ link = ⟨b.1, d.2⟩ ∧
      b.2.event? e.name = some d ∧ o.isClass = true ∧ d.1.type.agrees e.type = true ∧
      o.eventRemarks bases (e, k) = eventLinks e k b.1 d := by
  rcases members_of_isLink rfl (by simp) h with ⟨p, k', -, h⟩ | ⟨e, k', he, h⟩
  · obtain ⟨b, -, q, -, -, -, hlinks⟩ := propertyRemarks_of_isLink rfl h
    rw [hlinks] at h
    rcases propertyLinks_cases h with heq | ⟨i, link, heq⟩ <;> cases heq
  · obtain ⟨b, hb, d, hd, hclass, htype, hlinks⟩ := eventRemarks_of_isLink rfl h
    obtain ⟨rfl, hlink⟩ := linkEvent_eventLinks.1 (hlinks ▸ h)
    exact ⟨e, b, d, he, hb, hlink, hd, hclass, htype, hlinks⟩

section Wired

variable (hw : o.Wired)
include hw

/-- A link of an accessor of a property is one of the property's own. -/
theorem Wired.linkMethod_property {p : Property} {role : PropertyRole}
    (hk : o.properties[k]? = some p) (hrole : p.position? role = some i)
    (h : .linkMethod i link ∈ o.remarks bases) :
    .linkMethod i link ∈ o.propertyRemarks bases (p, k) := by
  have hp := List.mem_of_getElem? hk
  obtain ⟨m, hm, hserved⟩ := hw.property p hp role i hrole
  rcases linkMethod_cases h with ⟨m', hm', hwritten, -⟩ | ⟨p', k', hk', hmem⟩ | ⟨e, k', hk', hmem⟩
  · obtain rfl : m = m' := Option.some.inj (hm.symm.trans hm')
    have horigin := isWritten_iff.1 hwritten
    rw [hserved.origin] at horigin
    cases horigin
  · obtain ⟨b, -, q, -, -, -, hlinks⟩ := propertyRemarks_of_isLink rfl hmem
    obtain ⟨role', j, hrole', -⟩ := linkMethod_propertyLinks.1 (hlinks ▸ hmem)
    obtain ⟨rfl, -⟩ := hw.property_unique hp (List.mem_of_getElem? hk') hrole hrole'
    obtain rfl := index_eq_of_nodup_map hw.propertyNames hk hk'
    exact hmem
  · obtain ⟨b, -, d, -, -, -, hlinks⟩ := eventRemarks_of_isLink rfl hmem
    obtain ⟨role', hrole', -⟩ := linkMethod_eventLinks.1 (hlinks ▸ hmem)
    have horigin := (hw.event_served hm (List.mem_of_getElem? hk') hrole').origin
    rw [hserved.origin] at horigin
    cases horigin

theorem Wired.linkMethod_event {e : Event} {role : EventRole} (hk : o.events[k]? = some e)
    (hrole : e.position role = i) (h : .linkMethod i link ∈ o.remarks bases) :
    .linkMethod i link ∈ o.eventRemarks bases (e, k) := by
  have he := List.mem_of_getElem? hk
  obtain ⟨m, hm, hserved⟩ := hw.event e he role
  rw [hrole] at hm
  rcases linkMethod_cases h with ⟨m', hm', hwritten, -⟩ | ⟨p, k', hk', hmem⟩ | ⟨e', k', hk', hmem⟩
  · obtain rfl : m = m' := Option.some.inj (hm.symm.trans hm')
    have horigin := isWritten_iff.1 hwritten
    rw [hserved.origin] at horigin
    cases horigin
  · obtain ⟨b, -, q, -, -, -, hlinks⟩ := propertyRemarks_of_isLink rfl hmem
    obtain ⟨role', j, hrole', -⟩ := linkMethod_propertyLinks.1 (hlinks ▸ hmem)
    have horigin := (hw.property_served hm (List.mem_of_getElem? hk') hrole').origin
    rw [hserved.origin] at horigin
    cases horigin
  · obtain ⟨b, -, d, -, -, -, hlinks⟩ := eventRemarks_of_isLink rfl hmem
    obtain ⟨role', hrole', -⟩ := linkMethod_eventLinks.1 (hlinks ▸ hmem)
    obtain ⟨rfl, -⟩ := hw.event_unique he (List.mem_of_getElem? hk') (hrole.trans hrole'.symm)
    obtain rfl := index_eq_of_nodup_map hw.eventNames hk hk'
    exact hmem

/-- The accessors of a linked property are linked to those of the same inherited property, where both
have the role. -/
theorem Wired.linkMethod_property_iff {p : Property} {role : PropertyRole} {b : ObjectId × ObjectType}
    {q : Property × Nat} {j : Nat} (hk : o.properties[k]? = some p)
    (hlinks : o.propertyRemarks bases (p, k) = propertyLinks p k b.1 q)
    (hrole : p.position? role = some i) (hrole' : q.1.position? role = some j) :
    .linkMethod i link ∈ o.remarks bases ↔ link = ⟨b.1, j⟩ := by
  constructor
  · intro h
    have hmem := hw.linkMethod_property hk hrole h
    obtain ⟨other, j', hi, hj, hlink⟩ := linkMethod_propertyLinks.1 (hlinks ▸ hmem)
    have hp := List.mem_of_getElem? hk
    obtain ⟨-, rfl⟩ := hw.property_unique hp hp hrole hi
    obtain rfl := Option.some.inj (hrole'.symm.trans hj)
    exact hlink
  · rintro rfl
    refine mem_remarks.2 (Or.inr (Or.inr (Or.inr (Or.inl ⟨p, k, hk, ?_⟩))))
    rw [hlinks]
    exact linkMethod_propertyLinks.2 ⟨role, j, hrole, hrole', rfl⟩

theorem Wired.linkMethod_event_iff {e : Event} (role : EventRole) {b : ObjectId × ObjectType}
    {d : Event × Nat} (hk : o.events[k]? = some e)
    (hlinks : o.eventRemarks bases (e, k) = eventLinks e k b.1 d) :
    .linkMethod (e.position role) link ∈ o.remarks bases ↔ link = ⟨b.1, d.1.position role⟩ := by
  constructor
  · intro h
    have hmem := hw.linkMethod_event hk rfl h
    obtain ⟨other, hi, hlink⟩ := linkMethod_eventLinks.1 (hlinks ▸ hmem)
    have he := List.mem_of_getElem? hk
    obtain ⟨-, rfl⟩ := hw.event_unique he he hi
    exact hlink
  · rintro rfl
    refine mem_remarks.2 (Or.inr (Or.inr (Or.inr (Or.inr (Or.inl ⟨e, k, hk, ?_⟩)))))
    rw [hlinks]
    exact linkMethod_eventLinks.2 ⟨role, rfl, rfl⟩

/-- A linked method corresponds to the inherited one. -/
theorem Wired.corresponds {token : Reference} (hissues : o.Issues token)
    (hbases : ∀ b ∈ bases, b.2.Wired ∧ b.2.Issues token)
    (h : .linkMethod i link ∈ o.remarks bases) :
    o.isClass = true ∧ ∃ m, o.methods[i]? = some m ∧ ∃ b ∈ bases, link.owner = b.1 ∧
      ∃ n, b.2.methods[link.index]? = some n ∧ m.Corresponds n := by
  rcases linkMethod_cases h with ⟨m, hm, hwritten, hmem⟩ | ⟨p, k, hk, hmem⟩ | ⟨e, k, hk, hmem⟩
  · unfold methodRemarks at hmem
    split at hmem
    · exact absurd hmem List.not_mem_nil
    · next inherited hfound =>
      split at hmem
      · next hfits =>
        obtain ⟨-, rfl⟩ := Remark.linkMethod.inj (List.mem_singleton.1 hmem)
        obtain ⟨hboth, hresult⟩ := Bool.and_eq_true_iff.1 hfits
        obtain ⟨hclass, hinherited⟩ := Bool.and_eq_true_iff.1 hboth
        obtain ⟨b, hb, hsigned⟩ := List.exists_of_findSome?_eq_some hfound
        obtain ⟨n, hn, rfl⟩ := Option.map_eq_some_iff.1 hsigned
        have hindex := List.mem_zipIdx_iff_getElem?.1 (List.mem_of_find?_eq_some hn)
        have hsignature := List.find?_some hn
        refine ⟨hclass, m, hm, b, hb, rfl, n.1, hindex, ?_, hresult, ?_⟩
        · exact (beq_iff_eq.1 hsignature).symm
        · exact (isWritten_iff.1 hwritten).trans (isWritten_iff.1 hinherited).symm
      · rw [List.mem_singleton] at hmem
        cases hmem
  · obtain ⟨b, hb, q, hq, hclass, htype, hlinks⟩ := propertyRemarks_of_isLink rfl hmem
    obtain ⟨role, j, hi, hj, rfl⟩ := linkMethod_propertyLinks.1 (hlinks ▸ hmem)
    obtain ⟨hindex, hname⟩ := property?_eq_some hq
    obtain ⟨m, hm, hserved⟩ := hw.property p (List.mem_of_getElem? hk) role i hi
    obtain ⟨n, hn, hserved'⟩ := (hbases b hb).1.property q.1 (List.mem_of_getElem? hindex) role j hj
    exact ⟨hclass, m, hm, b, hb, rfl, n, hn, hserved.corresponds hserved' hname htype⟩
  · obtain ⟨b, hb, d, hd, hclass, htype, hlinks⟩ := eventRemarks_of_isLink rfl hmem
    obtain ⟨role, rfl, rfl⟩ := linkMethod_eventLinks.1 (hlinks ▸ hmem)
    obtain ⟨hindex, hname⟩ := event?_eq_some hd
    have he := List.mem_of_getElem? hk
    have hd' := List.mem_of_getElem? hindex
    obtain ⟨hwired, hissues'⟩ := hbases b hb
    obtain ⟨m, hm, hresult, htypes⟩ := hissues e he role
    obtain ⟨n, hn, hresult', htypes'⟩ := hissues' d.1 hd' role
    refine ⟨hclass, m, hm, b, hb, rfl, n, hn, ?_⟩
    exact (hw.event_served hm he rfl).corresponds (hwired.event_served hn hd' rfl) hresult hresult'
      htypes htypes' hname htype

end Wired

end ObjectType

end ComponentIdl
