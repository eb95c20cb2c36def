import ComponentIdl.Proofs.Builder.Plain
import ComponentIdl.Proofs.Conflict.Sources
import ComponentIdl.Proofs.Derivation.Added
import ComponentIdl.Proofs.Handles
import ComponentIdl.Proofs.Inheritance

/-!
# Links are faithful

Links are made by the check of members only, in classes only, and from what the classes inherit. The
member that a link names corresponds to the linked one, and accessors follow the property or event that
they serve. The derivation of interfaces copies no link and moves no member.
-/

namespace ComponentIdl

/-- The link of a method, by position. -/
def ObjectType.linkAt? (o : ObjectType) (i : Nat) : Option MemberLink :=
  (o.methods[i]?).bind Method.overrides

/-- A link of a class names the interface `b`, which the class inherits. -/
structure Store.LinksInto (st : Store) (id : ObjectId) (o : ObjectType) (link : MemberLink)
    (b : ObjectType) : Prop where
  isClass : o.isClass = true
  inherited : link.owner ∈ st.inherited id
  owner : st.objects[link.owner]? = some b
  isInterface : b.isInterface = true

/-- The method corresponds to the one that its link names. -/
def Store.MethodLinked (st : Store) (id : ObjectId) (o : ObjectType) (m : Method)
    (link : MemberLink) : Prop :=
  ∃ b, st.LinksInto id o link b ∧ ∃ n, b.methods[link.index]? = some n ∧ m.Corresponds n

/-- The property has the name and type of the one that its link names, and each of its accessors is
linked to the accessor that this one has in the same role. -/
def Store.PropertyLinked (st : Store) (id : ObjectId) (o : ObjectType) (p : Property)
    (link : MemberLink) : Prop :=
  ∃ b, st.LinksInto id o link b ∧ ∃ q, b.properties[link.index]? = some q ∧ q.name = p.name ∧
    q.type.agrees p.type = true ∧
    ∀ role i j, p.position? role = some i → q.position? role = some j →
      o.linkAt? i = some ⟨link.owner, j⟩

/-- The event has the name and type of the one that its link names, and both of its accessors are
linked to those of this one. -/
def Store.EventLinked (st : Store) (id : ObjectId) (o : ObjectType) (e : Event)
    (link : MemberLink) : Prop :=
  ∃ b, st.LinksInto id o link b ∧ ∃ d, b.events[link.index]? = some d ∧ d.name = e.name ∧
    d.type.agrees e.type = true ∧
    ∀ role, o.linkAt? (e.position role) = some ⟨link.owner, d.position role⟩

/-- All links of `o`, which is `id`, are faithful. -/
structure Store.LinkedFaithfully (st : Store) (id : ObjectId) (o : ObjectType) : Prop where
  methods : ∀ m ∈ o.methods, ∀ link, m.overrides = some link → st.MethodLinked id o m link
  properties : ∀ p ∈ o.properties, ∀ link, p.overrides = some link → st.PropertyLinked id o p link
  events : ∀ e ∈ o.events, ∀ link, e.overrides = some link → st.EventLinked id o e link

def Store.Faithful (st : Store) : Prop :=
  ∀ id o, st.objects[id]? = some o → st.LinkedFaithfully id o

theorem Method.Corresponds.of_unlinked {m m' n n' : Method} (h : m.Corresponds n)
    (hm : m'.unlinked = m.unlinked) (hn : n'.unlinked = n.unlinked) : m'.Corresponds n' := by
  have hunlinked : m'.unlinked.Corresponds n'.unlinked := by
    rw [hm, hn]
    exact ⟨h.signature, h.result, h.origin⟩
  exact ⟨hunlinked.signature, hunlinked.result, hunlinked.origin⟩

theorem Property.parts_of_unlinked {p p' : Property} (h : p.unlinked = p'.unlinked) :
    p.name = p'.name ∧ p.type = p'.type ∧ ∀ role, p.position? role = p'.position? role := by
  have hname : p.unlinked.name = p'.unlinked.name := by rw [h]
  have htype : p.unlinked.type = p'.unlinked.type := by rw [h]
  have hposition : ∀ role, p.unlinked.position? role = p'.unlinked.position? role := by simp [h]
  exact ⟨hname, htype, hposition⟩

theorem Event.parts_of_unlinked {e e' : Event} (h : e.unlinked = e'.unlinked) :
    e.name = e'.name ∧ e.type = e'.type ∧ ∀ role, e.position role = e'.position role := by
  have hname : e.unlinked.name = e'.unlinked.name := by rw [h]
  have htype : e.unlinked.type = e'.unlinked.type := by rw [h]
  have hposition : ∀ role, e.unlinked.position role = e'.unlinked.position role := by simp [h]
  exact ⟨hname, htype, hposition⟩

/-- No member of the class or interface has a link. -/
structure ObjectType.Linkless (o : ObjectType) : Prop where
  methods : ∀ m ∈ o.methods, m.overrides = none
  properties : ∀ p ∈ o.properties, p.overrides = none
  events : ∀ e ∈ o.events, e.overrides = none

theorem ObjectType.Linkless.linkedFaithfully {o : ObjectType} (h : o.Linkless) (st : Store)
    (id : ObjectId) : st.LinkedFaithfully id o := by
  constructor
  · intro m hm link hlink
    rw [h.methods m hm] at hlink
    cases hlink
  · intro p hp link hlink
    rw [h.properties p hp] at hlink
    cases hlink
  · intro e he link hlink
    rw [h.events e he] at hlink
    cases hlink

/-! ### The check of members -/

/-- What the check of members finds: accessors in order, one token for all events, no links yet, and
interfaces wherever one is required. -/
structure Store.Checkable (st : Store) (token : Reference) : Prop where
  wired : ∀ o ∈ st.objects, o.Wired
  issues : ∀ o ∈ st.objects, o.Issues token
  plain : ∀ o ∈ st.objects, o.Plain
  interfaces : ∀ id base, base ∈ st.inherited id →
    ∃ b, st.objects[base]? = some b ∧ b.isInterface = true

namespace Workspace

variable {w : Workspace} {token : Reference} {id : ObjectId} {o : ObjectType}

/-- The class or interface `o`, which is `id`, after the check. -/
def linked (w : Workspace) (id : ObjectId) (o : ObjectType) : ObjectType :=
  (o.remarks (w.store.ancestors id)).foldl Remark.link o

theorem unlinked_linked (w : Workspace) (id : ObjectId) (o : ObjectType) :
    (w.linked id o).unlinked = o.unlinked := Remark.unlinked_foldl o _

theorem isClass_linked (w : Workspace) (id : ObjectId) (o : ObjectType) :
    (w.linked id o).isClass = o.isClass := by
  rw [← ObjectType.isClass_core, Store.core_of_unlinked (w.unlinked_linked id o),
    ObjectType.isClass_core]

theorem linked_methods (w : Workspace) (id : ObjectId) (o : ObjectType) :
    List.Forall₂ (fun m m' => Method.unlinked m = m'.unlinked) o.methods
      (w.linked id o).methods := by
  have hsame : o.unlinked.methods = (w.linked id o).unlinked.methods := by rw [unlinked_linked]
  exact forall₂_of_map_eq hsame

theorem linked_properties (w : Workspace) (id : ObjectId) (o : ObjectType) :
    List.Forall₂ (fun p p' => Property.unlinked p = p'.unlinked) o.properties
      (w.linked id o).properties := by
  have hsame : o.unlinked.properties = (w.linked id o).unlinked.properties := by
    rw [unlinked_linked]
  exact forall₂_of_map_eq hsame

theorem linked_events (w : Workspace) (id : ObjectId) (o : ObjectType) :
    List.Forall₂ (fun e e' => Event.unlinked e = e'.unlinked) o.events (w.linked id o).events := by
  have hsame : o.unlinked.events = (w.linked id o).unlinked.events := by rw [unlinked_linked]
  exact forall₂_of_map_eq hsame

theorem objects_checkMembers (ho : w.store.objects[id]? = some o) :
    w.checkMembers.1.store.objects[id]? = some (w.linked id o) := by
  rw [Store.getElem?_checkMembers, ho]
  rfl

theorem linksInto_checkMembers (h : w.store.Checkable token) (hclass : o.isClass = true)
    {b : ObjectId × ObjectType} (hb : b ∈ w.store.ancestors id) (j : Nat) :
    w.checkMembers.1.store.LinksInto id (w.linked id o) ⟨b.1, j⟩ (w.linked b.1 b.2) := by
  obtain ⟨hne, hrequires, hobject⟩ := Store.mem_ancestors_iff.1 hb
  have hinherited : b.1 ∈ w.store.inherited id :=
    ((w.store.listsRequired_inherited id).mem_iff b.1).2 ⟨hne, hrequires⟩
  have hsame : w.checkMembers.1.store.inherited id = w.store.inherited id := by
    unfold Store.inherited
    rw [(Store.similar_checkMembers w).requirement]
  obtain ⟨b', hb', hinterface⟩ := h.interfaces id b.1 hinherited
  obtain rfl : b.2 = b' := Option.some.inj (hobject.symm.trans hb')
  refine ⟨?_, ?_, objects_checkMembers hobject, ?_⟩
  · rw [isClass_linked, hclass]
  · rw [hsame]
    exact hinherited
  · rw [ObjectType.isInterface_eq, isClass_linked, ← ObjectType.isInterface_eq, hinterface]

theorem wired_bases (h : w.store.Checkable token) (id : ObjectId) :
    ∀ b ∈ w.store.ancestors id, b.2.Wired ∧ b.2.Issues token := by
  intro b hb
  obtain ⟨-, -, hobject⟩ := Store.mem_ancestors_iff.1 hb
  have hmem := Array.mem_of_getElem? hobject
  exact ⟨h.wired b.2 hmem, h.issues b.2 hmem⟩

/-- The accessor of a linked member, in the class and after the check. -/
theorem linkAt?_linked (h : w.store.Checkable token) (ho : w.store.objects[id]? = some o) {i : Nat}
    {m : Method} {base : MemberLink} (hm : o.methods[i]? = some m)
    (hunique : ∀ link, .linkMethod i link ∈ o.remarks (w.store.ancestors id) ↔ link = base) :
    (w.linked id o).linkAt? i = some base :=
  Remark.methodLink_of_unique hm
    ((h.plain o (Array.mem_of_getElem? ho)).methods m (List.mem_of_getElem? hm)) hunique

theorem linkedMethods_checkMembers (h : w.store.Checkable token)
    (ho : w.store.objects[id]? = some o) :
    ∀ m ∈ (w.linked id o).methods, ∀ link, m.overrides = some link →
      w.checkMembers.1.store.MethodLinked id (w.linked id o) m link := by
  intro m' hm' link hlink
  have hmem := Array.mem_of_getElem? ho
  obtain ⟨i, hi⟩ := List.mem_iff_getElem?.1 hm'
  obtain ⟨m, hm, hmm⟩ := getElem?_left (w.linked_methods id o) hi
  have hfound : (((w.linked id o).methods[i]?).bind Method.overrides) = some link := by
    rw [hi, Option.bind_some, hlink]
  rcases Remark.methodLink_foldl hfound with hold | hremark
  · rw [hm, Option.bind_some, (h.plain o hmem).methods m (List.mem_of_getElem? hm)] at hold
    cases hold
  · obtain ⟨hclass, m₁, hm₁, b, hb, howner, n, hn, hcorresponds⟩ :=
      (h.wired o hmem).corresponds (h.issues o hmem) (wired_bases h id) hremark
    obtain rfl : m = m₁ := Option.some.inj (hm.symm.trans hm₁)
    obtain ⟨n', hn', hnn⟩ := getElem?_right (w.linked_methods b.1 b.2) hn
    obtain ⟨owner, index⟩ := link
    obtain rfl : owner = b.1 := howner
    exact ⟨_, linksInto_checkMembers h hclass hb index, n', hn',
      hcorresponds.of_unlinked hmm.symm hnn.symm⟩

theorem linkedProperties_checkMembers (h : w.store.Checkable token)
    (ho : w.store.objects[id]? = some o) :
    ∀ p ∈ (w.linked id o).properties, ∀ link, p.overrides = some link →
      w.checkMembers.1.store.PropertyLinked id (w.linked id o) p link := by
  intro p' hp' link hlink
  have hmem := Array.mem_of_getElem? ho
  have hwired := h.wired o hmem
  obtain ⟨k, hk⟩ := List.mem_iff_getElem?.1 hp'
  obtain ⟨p, hp, hpp⟩ := getElem?_left (w.linked_properties id o) hk
  have hfound : (((w.linked id o).properties[k]?).bind Property.overrides) = some link := by
    rw [hk, Option.bind_some, hlink]
  rcases Remark.propertyLink_foldl hfound with hold | hremark
  · rw [hp, Option.bind_some, (h.plain o hmem).properties p (List.mem_of_getElem? hp)] at hold
    cases hold
  · obtain ⟨p₁, b, q, hp₁, hb, rfl, hq, hclass, htype, hlinks⟩ :=
      ObjectType.linkProperty_source hremark
    obtain rfl : p = p₁ := Option.some.inj (hp.symm.trans hp₁)
    obtain ⟨hindex, hname⟩ := ObjectType.property?_eq_some hq
    obtain ⟨q', hq', hqq⟩ := getElem?_right (w.linked_properties b.1 b.2) hindex
    obtain ⟨hpname, hptype, hpposition⟩ := Property.parts_of_unlinked hpp
    obtain ⟨hqname, hqtype, hqposition⟩ := Property.parts_of_unlinked hqq
    refine ⟨_, linksInto_checkMembers h hclass hb q.2, q', hq', ?_, ?_, ?_⟩
    · rw [← hqname, hname, hpname]
    · rw [← hptype, ← hqtype, htype]
    · intro role i j hi hj
      rw [← hpposition] at hi
      rw [← hqposition] at hj
      obtain ⟨m, hm, -⟩ := hwired.property p (List.mem_of_getElem? hp) role i hi
      exact linkAt?_linked h ho hm fun link => hwired.linkMethod_property_iff hp hlinks hi hj

theorem linkedEvents_checkMembers (h : w.store.Checkable token)
    (ho : w.store.objects[id]? = some o) :
    ∀ e ∈ (w.linked id o).events, ∀ link, e.overrides = some link →
      w.checkMembers.1.store.EventLinked id (w.linked id o) e link := by
  intro e' he' link hlink
  have hmem := Array.mem_of_getElem? ho
  have hwired := h.wired o hmem
  obtain ⟨k, hk⟩ := List.mem_iff_getElem?.1 he'
  obtain ⟨e, he, hee⟩ := getElem?_left (w.linked_events id o) hk
  have hfound : (((w.linked id o).events[k]?).bind Event.overrides) = some link := by
    rw [hk, Option.bind_some, hlink]
  rcases Remark.eventLink_foldl hfound with hold | hremark
  · rw [he, Option.bind_some, (h.plain o hmem).events e (List.mem_of_getElem? he)] at hold
    cases hold
  · obtain ⟨e₁, b, d, he₁, hb, rfl, hd, hclass, htype, hlinks⟩ := ObjectType.linkEvent_source hremark
    obtain rfl : e = e₁ := Option.some.inj (he.symm.trans he₁)
    obtain ⟨hindex, hname⟩ := ObjectType.event?_eq_some hd
    obtain ⟨d', hd', hdd⟩ := getElem?_right (w.linked_events b.1 b.2) hindex
    obtain ⟨hename, hetype, heposition⟩ := Event.parts_of_unlinked hee
    obtain ⟨hdname, hdtype, hdposition⟩ := Event.parts_of_unlinked hdd
    refine ⟨_, linksInto_checkMembers h hclass hb d.2, d', hd', ?_, ?_, ?_⟩
    · rw [← hdname, hname, hename]
    · rw [← hetype, ← hdtype, htype]
    · intro role
      obtain ⟨m, hm, -⟩ := hwired.event e (List.mem_of_getElem? he) role
      rw [← heposition, ← hdposition]
      exact linkAt?_linked h ho hm fun link => hwired.linkMethod_event_iff role he hlinks

theorem faithful_checkMembers (h : w.store.Checkable token) : w.checkMembers.1.store.Faithful := by
  intro id o' ho'
  rw [Store.getElem?_checkMembers] at ho'
  obtain ⟨o, ho, rfl⟩ := Option.map_eq_some_iff.1 ho'
  exact ⟨linkedMethods_checkMembers h ho, linkedProperties_checkMembers h ho,
    linkedEvents_checkMembers h ho⟩

end Workspace

/-! ### The derivation of interfaces -/

namespace Derivation

variable {st st' st'' : Store}

/-- Old slots keep their members, and new ones hold interfaces without links. -/
structure KeepsLinks (st st' : Store) : Prop where
  old : ∀ (i : Nat) o, st.objects[i]? = some o →
    ∃ o', st'.objects[i]? = some o' ∧ o'.underived = o.underived
  new : ∀ (i : Nat) o', st.objects[i]? = none → st'.objects[i]? = some o' → o'.Linkless

/-- What is derived from a class or interface is no part of its members. -/
theorem parts_of_underived {o o' : ObjectType} (h : o'.underived = o.underived) :
    o'.isClass = o.isClass ∧ o'.methods = o.methods ∧ o'.properties = o.properties ∧
      o'.events = o.events := by
  have hclass : ∀ o : ObjectType, o.underived.isClass = o.isClass := by
    intro o
    unfold ObjectType.underived ObjectType.isClass
    exact Option.isSome_map
  have hmethods : o'.underived.methods = o.underived.methods := by rw [h]
  have hproperties : o'.underived.properties = o.underived.properties := by rw [h]
  have hevents : o'.underived.events = o.underived.events := by rw [h]
  exact ⟨by rw [← hclass, h, hclass], hmethods, hproperties, hevents⟩

theorem linkless_of_underived {o o' : ObjectType} (h : o.Linkless)
    (hsame : o'.underived = o.underived) : o'.Linkless := by
  obtain ⟨-, hmethods, hproperties, hevents⟩ := parts_of_underived hsame
  exact ⟨hmethods ▸ h.methods, hproperties ▸ h.properties, hevents ▸ h.events⟩

theorem linkless_interfaceOf {id : ObjectId} {o : ObjectType} {plan : DerivedRole × MemberSet}
    (hplan : plan ∈ o.derivedRoles id) : (interfaceOf id o plan.1 plan.2).Linkless := by
  obtain ⟨hmethods, hproperties, hevents⟩ := ObjectType.links_derived hplan
  exact ⟨List.filterMap_eq_nil_iff.1 hmethods, List.filterMap_eq_nil_iff.1 hproperties,
    List.filterMap_eq_nil_iff.1 hevents⟩

theorem KeepsLinks.trans (h : KeepsLinks st st') (h' : KeepsLinks st' st'') :
    KeepsLinks st st'' := by
  constructor
  · intro i o ho
    obtain ⟨o₁, ho₁, hsame₁⟩ := h.old i o ho
    obtain ⟨o₂, ho₂, hsame₂⟩ := h'.old i o₁ ho₁
    exact ⟨o₂, ho₂, hsame₂.trans hsame₁⟩
  · intro i o₂ hnone ho₂
    cases ho₁ : st'.objects[i]? with
    | none => exact h'.new i o₂ ho₁ ho₂
    | some o₁ =>
      obtain ⟨o, ho, hsame⟩ := h'.old i o₁ ho₁
      obtain rfl : o₂ = o := Option.some.inj (ho₂.symm.trans ho)
      exact linkless_of_underived (h.new i o₁ hnone ho₁) hsame

theorem keepsLinks_withInterface {node : NamespaceId} {block id slot : Nat} {role : DerivedRole}
    {interface : ObjectType} (hlinkless : interface.Linkless) :
    KeepsLinks st (withInterface st node block id slot role interface) := by
  have hsame : ∀ (i : Nat) (o : ObjectType),
      (if id = i then recorded role slot o else o).underived = o.underived := by
    intro i o
    split
    · exact underived_recorded role slot o
    · rfl
  constructor
  · intro i o ho
    obtain ⟨hlt, -⟩ := Array.getElem?_eq_some_iff.1 ho
    rw [getElem?_withInterface, Array.getElem?_push, if_neg (Nat.ne_of_lt hlt), ho]
    exact ⟨_, rfl, hsame i o⟩
  · intro i o' hnone ho'
    rw [getElem?_withInterface, Array.getElem?_push] at ho'
    obtain ⟨o, ho, rfl⟩ := Option.map_eq_some_iff.1 ho'
    split at ho
    · obtain rfl := Option.some.inj ho
      exact linkless_of_underived hlinkless (hsame i interface)
    · rw [hnone] at ho
      cases ho

theorem keepsLinks_run (s : Derivation) : KeepsLinks s.store s.run.store := by
  refine run_preserves (P := fun s' => KeepsLinks s.store s'.store) (Q := fun _ _ => True)
    (fun _ _ _ _ _ _ => trivial) ?_ ?_
  · intro t t' id o plan ht _ hplan hstep
    cases hstep with
    | passed => exact ht
    | taken d => exact ht
    | declared node block path free =>
      exact ht.trans (keepsLinks_withInterface (linkless_interfaceOf hplan))
  · refine ⟨fun i o ho => ⟨o, ho, rfl⟩, ?_⟩
    intro i o hnone ho
    rw [hnone] at ho
    cases ho

theorem KeepsLinks.linksInto (h : KeepsLinks st st')
    (hinherited : ∀ id, st'.inherited id = st.inherited id) {id : ObjectId} {o o' b : ObjectType}
    {link : MemberLink} (hclass : o'.isClass = o.isClass) (hinto : st.LinksInto id o link b) :
    ∃ b', st'.LinksInto id o' link b' ∧ b'.underived = b.underived := by
  obtain ⟨b', hb', hsame⟩ := h.old link.owner b hinto.owner
  have hinterface : b'.isInterface = b.isInterface := by
    rw [b'.isInterface_eq, b.isInterface_eq, (parts_of_underived hsame).1]
  exact ⟨b', ⟨hclass.trans hinto.isClass, (hinherited id).symm ▸ hinto.inherited, hb',
    hinterface.trans hinto.isInterface⟩, hsame⟩

/-- Derivation keeps faithful links. -/
theorem KeepsLinks.faithful (h : KeepsLinks st st')
    (hinherited : ∀ id, st'.inherited id = st.inherited id) (hfaithful : st.Faithful) :
    st'.Faithful := by
  intro id o' ho'
  cases ho : st.objects[id]? with
  | none => exact (h.new id o' ho ho').linkedFaithfully st' id
  | some o =>
    obtain ⟨o₁, ho₁, hsame⟩ := h.old id o ho
    obtain rfl : o' = o₁ := Option.some.inj (ho'.symm.trans ho₁)
    obtain ⟨hclass, hmethods, hproperties, hevents⟩ := parts_of_underived hsame
    have hold := hfaithful id o ho
    have hlinkAt : o'.linkAt? = o.linkAt? := by
      unfold ObjectType.linkAt?
      rw [hmethods]
    constructor
    · intro m hm link hlink
      obtain ⟨b, hinto, n, hn, hcorresponds⟩ := hold.methods m (hmethods ▸ hm) link hlink
      obtain ⟨b', hinto', hb⟩ := h.linksInto hinherited hclass hinto
      obtain ⟨-, hbmethods, -, -⟩ := parts_of_underived hb
      exact ⟨b', hinto', n, hbmethods ▸ hn, hcorresponds⟩
    · intro p hp link hlink
      obtain ⟨b, hinto, q, hq, hname, htype, haccessors⟩ :=
        hold.properties p (hproperties ▸ hp) link hlink
      obtain ⟨b', hinto', hb⟩ := h.linksInto hinherited hclass hinto
      obtain ⟨-, -, hbproperties, -⟩ := parts_of_underived hb
      exact ⟨b', hinto', q, hbproperties ▸ hq, hname, htype, hlinkAt ▸ haccessors⟩
    · intro e he link hlink
      obtain ⟨b, hinto, d, hd, hname, htype, haccessors⟩ := hold.events e (hevents ▸ he) link hlink
      obtain ⟨b', hinto', hb⟩ := h.linksInto hinherited hclass hinto
      obtain ⟨-, -, -, hbevents⟩ := parts_of_underived hb
      exact ⟨b', hinto', d, hbevents ▸ hd, hname, htype, hlinkAt ▸ haccessors⟩

end Derivation

theorem Workspace.faithful_deriveInterfaces {w : Workspace} (h : w.store.Faithful) :
    w.deriveInterfaces.1.store.Faithful := by
  have hkept : Derivation.Kept w.store w.derivation.run.store := Derivation.kept_run w.derivation
  exact (Derivation.keepsLinks_run w.derivation).faithful
    (fun id => Graph.nearestFirst_congr hkept.next_requirement id) h

/-- Whichever of the last two passes are on, links are faithful. -/
theorem Workspace.faithful_finished {w : Workspace} {token : Reference}
    (h : w.store.Checkable token) : w.finished.store.Faithful := by
  have hplain : w.store.Faithful := by
    intro id o ho
    have hnone := h.plain o (Array.mem_of_getElem? ho)
    exact ObjectType.Linkless.linkedFaithfully
      ⟨hnone.methods, hnone.properties, hnone.events⟩ w.store id
  have hchecked := faithful_checkMembers h
  unfold finished
  cases w.settings.validatesMembers <;> cases w.settings.derivesInterfaces
  · exact hplain
  · exact faithful_deriveInterfaces hplain
  · exact hchecked
  · exact faithful_deriveInterfaces hchecked

/-! ### The compilation -/

variable (settings : Settings) (catalog : Catalog) (u : Decl.Unit)

theorem analyzed_anchored : (declared settings catalog u).analyzed.Anchored := by
  have hreached : (declared settings catalog u).analyzed =
      Workspace.reached settings catalog [.pass (.declare u), .pass .bindReferences,
        .pass .evaluateEnums, .pass .findCycles] := rfl
  rw [hreached]
  exact Workspace.invariant_anchored.reached (Workspace.anchored_ofCatalog settings catalog) _

theorem analyzed_checkable : ∃ token,
    (declared settings catalog u).analyzed.store.Checkable token := by
  obtain ⟨token, hissues⟩ := analyzed_issues settings catalog u
  have hanchored := analyzed_anchored settings catalog u
  refine ⟨token, hanchored.wired, hissues, analyzed_plain settings catalog u, ?_⟩
  intro id base hbase
  obtain ⟨-, hrequires⟩ := ((Store.listsRequired_inherited _ id).mem_iff base).1 hbase
  obtain ⟨a, -, o, ho, r, hr, htarget⟩ := Relation.TransGen.tail'_iff.1 hrequires
  exact (hanchored.store.objects o (Array.mem_of_getElem? ho)).requires r hr _ htarget

/-- After a compilation every link is faithful, whatever the source file, the imported types and the
settings are, and whatever is reported. -/
theorem compile_faithful : (compile settings catalog u).store.Faithful := by
  by_cases herrors : u.syntaxErrors = 0
  · obtain ⟨token, hcheckable⟩ := analyzed_checkable settings catalog u
    rw [compile_eq_finished settings catalog u herrors]
    exact Workspace.faithful_finished hcheckable
  · rw [compile_syntaxErrors settings catalog u (Nat.pos_of_ne_zero herrors)]
    intro id o ho
    simp [Workspace.ofCatalog] at ho

/-- An interface with a method, a property and an event, and a class that declares them again, the
property without its setter. -/
def trawler : Decl.Unit where
  syntaxErrors := 0
  blocks := [⟨"N", 1, [
    .type (.delegateDecl ⟨"Moored", 2, none, []⟩),
    .type (.interfaceDecl ⟨"Deck", 3, [], [
      .event ⟨"Docked", 4, false, "Moored", none⟩,
      .property ⟨"Load", 5, false, "Int32", some [⟨.get, 5⟩, ⟨.set, 5⟩]⟩,
      .method ⟨"Sail", 6, false, none, []⟩]⟩),
    .type (.classDecl ⟨"Trawler", 7, {}, ["Deck"], [
      .property ⟨"Load", 8, false, "Int32", some [⟨.get, 8⟩]⟩,
      .method ⟨"Sail", 9, false, none, []⟩,
      .event ⟨"Docked", 10, false, "Moored", none⟩]⟩)]⟩]

example : ((compile {} .empty trawler).store.objects[1]?.map fun o =>
    (o.methods.map fun m => (m.name, m.overrides), o.properties.map Property.overrides,
      o.events.map Event.overrides)) =
    some ([("get_Load", some ⟨0, 2⟩), ("Sail", some ⟨0, 4⟩), ("add_Docked", some ⟨0, 0⟩),
      ("remove_Docked", some ⟨0, 1⟩)], [some ⟨0, 0⟩], [some ⟨0, 0⟩]) := by
  decide +kernel

end ComponentIdl
