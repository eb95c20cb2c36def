import ComponentIdl.Proofs.Store.Handles

/-!
# Handles through the check of members

The check links a member to one that it found in an inherited interface, or to an accessor of such a
member, so every link it makes leads to a member. Nothing else changes.
-/

namespace ComponentIdl

variable {st : Store} {imports : Array Import} {o : ObjectType}
  {bases : List (ObjectId × ObjectType)} {remark : Remark}

/-- The link that a remark makes leads to a member. -/
def Remark.Leads (st : Store) : Remark → Prop
  | .linkMethod _ base => st.HasMethod base
  | .linkProperty _ base => st.HasProperty base
  | .linkEvent _ base => st.HasEvent base
  | .report _ => True
  | .overload _ => True

/-- Inherited interfaces as they are in the store, with their accessors in order. -/
def Store.Inherits (st : Store) (bases : List (ObjectId × ObjectType)) : Prop :=
  ∀ b ∈ bases, st.objects[b.1]? = some b.2 ∧ b.2.Wired

theorem Store.inherits_ancestors (h : ∀ o ∈ st.objects, o.Wired) (id : ObjectId) :
    st.Inherits (st.ancestors id) := by
  rintro ⟨base, b⟩ hmem
  obtain ⟨k, -, hk⟩ := List.mem_filterMap.1 hmem
  obtain ⟨c, hc, heq⟩ := Option.map_eq_some_iff.1 hk
  obtain ⟨rfl, rfl⟩ := Prod.mk.inj heq
  exact ⟨hc, h c (Array.mem_of_getElem? hc)⟩

namespace ObjectType

theorem lt_of_property? {name : String} {q : Property × Nat} (h : o.property? name = some q) :
    q.2 < o.properties.length ∧ q.1 ∈ o.properties := by
  obtain ⟨hq, -⟩ := property?_eq_some h
  exact ⟨(List.getElem?_eq_some_iff.1 hq).1, List.mem_of_getElem? hq⟩

theorem lt_of_event? {name : String} {d : Event × Nat} (h : o.event? name = some d) :
    d.2 < o.events.length ∧ d.1 ∈ o.events := by
  have hd := List.mem_zipIdx_iff_getElem?.1 (List.mem_of_find?_eq_some h)
  exact ⟨(List.getElem?_eq_some_iff.1 hd).1, List.mem_of_getElem? hd⟩

theorem leads_signatureClashes (h : remark ∈ o.signatureClashes) : remark.Leads st := by
  obtain ⟨m, -, hm⟩ := List.mem_flatMap.1 h
  split at hm
  · split at hm
    · exact absurd hm List.not_mem_nil
    · rcases List.mem_cons.1 hm with rfl | hm
      · trivial
      · rw [List.mem_singleton.1 hm]
        trivial
  · exact absurd hm List.not_mem_nil

theorem leads_accessorClashes (h : remark ∈ o.accessorClashes) : remark.Leads st := by
  have hpair : ∀ (c : Bool) (d : Diagnostic) (index : Nat),
      remark ∈ (if c then [.report d, .overload index] else []) → remark.Leads st := by
    intro c d index hmem
    split at hmem
    · rcases List.mem_cons.1 hmem with rfl | hmem
      · trivial
      · rw [List.mem_singleton.1 hmem]
        trivial
    · exact absurd hmem List.not_mem_nil
  obtain ⟨m, -, hm⟩ := List.mem_flatMap.1 h
  rcases List.mem_append.1 hm with hm | hm
  · obtain ⟨p, -, hp⟩ := List.mem_flatMap.1 hm
    exact hpair _ _ _ hp
  · obtain ⟨e, -, he⟩ := List.mem_flatMap.1 hm
    exact hpair _ _ _ he

theorem leads_methodRemarks (hb : st.Inherits bases) {m : Method × Nat}
    (h : remark ∈ o.methodRemarks bases m) : remark.Leads st := by
  unfold methodRemarks at h
  split at h
  · exact absurd h List.not_mem_nil
  · next inherited hfound =>
    split at h
    · rw [List.mem_singleton.1 h]
      obtain ⟨b, hbmem, hsigned⟩ := List.exists_of_findSome?_eq_some hfound
      obtain ⟨n, hn, rfl⟩ := Option.map_eq_some_iff.1 hsigned
      have hindex := List.mem_zipIdx_iff_getElem?.1 (List.mem_of_find?_eq_some hn)
      exact ⟨b.2, (hb b hbmem).1, (List.getElem?_eq_some_iff.1 hindex).1⟩
    · rw [List.mem_singleton.1 h]
      trivial

theorem leads_accessorLink {b : ObjectId × ObjectType} (hb : st.objects[b.1]? = some b.2)
    {own inherited : Option Nat} (hlt : ∀ i, inherited = some i → i < b.2.methods.length)
    (h : remark ∈ accessorLink b.1 own inherited) : remark.Leads st := by
  unfold accessorLink at h
  split at h
  · rw [List.mem_singleton.1 h]
    exact ⟨b.2, hb, hlt _ rfl⟩
  · exact absurd h List.not_mem_nil

theorem Wired.position_lt (h : o.Wired) {p : Property} (hp : p ∈ o.properties) (role : PropertyRole)
    {i : Nat} (hi : p.position? role = some i) : i < o.methods.length := by
  obtain ⟨m, hm, -⟩ := h.property p hp role i hi
  exact (List.getElem?_eq_some_iff.1 hm).1

theorem Wired.eventPosition_lt (h : o.Wired) {e : Event} (he : e ∈ o.events) (role : EventRole) :
    e.position role < o.methods.length := by
  obtain ⟨m, hm, -⟩ := h.event e he role
  exact (List.getElem?_eq_some_iff.1 hm).1

theorem leads_propertyRemarks (hb : st.Inherits bases) {p : Property × Nat}
    (h : remark ∈ o.propertyRemarks bases p) : remark.Leads st := by
  unfold propertyRemarks at h
  cases hfirst : bases.findSome? (o.propertyVerdict p) with
  | none =>
    rw [hfirst] at h
    exact absurd h List.not_mem_nil
  | some remarks =>
    rw [hfirst, Option.getD_some] at h
    obtain ⟨b, hbmem, hverdict⟩ := List.exists_of_findSome?_eq_some hfirst
    obtain ⟨hobject, hwired⟩ := hb b hbmem
    unfold propertyVerdict at hverdict
    split at hverdict
    · next q hq =>
      obtain ⟨hlt, hmem⟩ := lt_of_property? hq
      split at hverdict
      · rw [← Option.some.inj hverdict] at h
        rcases List.mem_append.1 h with h | h
        · rcases List.mem_cons.1 h with rfl | h
          · exact ⟨b.2, hobject, hlt⟩
          · exact leads_accessorLink hobject (fun i hi => hwired.position_lt hmem .get hi) h
        · exact leads_accessorLink hobject (fun i hi => hwired.position_lt hmem .set hi) h
      · rw [← Option.some.inj hverdict] at h
        rw [List.mem_singleton.1 h]
        trivial
    · split at hverdict
      · rw [← Option.some.inj hverdict] at h
        rw [List.mem_singleton.1 h]
        trivial
      · exact absurd hverdict (by simp)

theorem leads_eventRemarks (hb : st.Inherits bases) {e : Event × Nat}
    (h : remark ∈ o.eventRemarks bases e) : remark.Leads st := by
  unfold eventRemarks at h
  cases hfirst : bases.findSome? (o.eventVerdict e) with
  | none =>
    rw [hfirst] at h
    exact absurd h List.not_mem_nil
  | some remarks =>
    rw [hfirst, Option.getD_some] at h
    obtain ⟨b, hbmem, hverdict⟩ := List.exists_of_findSome?_eq_some hfirst
    obtain ⟨hobject, hwired⟩ := hb b hbmem
    unfold eventVerdict at hverdict
    split at hverdict
    · next d hd =>
      obtain ⟨hlt, hmem⟩ := lt_of_event? hd
      split at hverdict
      · rw [← Option.some.inj hverdict] at h
        rcases List.mem_cons.1 h with rfl | h
        · exact ⟨b.2, hobject, hlt⟩
        · rcases List.mem_cons.1 h with rfl | h
          · exact ⟨b.2, hobject, hwired.eventPosition_lt hmem .add⟩
          · rw [List.mem_singleton.1 h]
            exact ⟨b.2, hobject, hwired.eventPosition_lt hmem .remove⟩
      · rw [← Option.some.inj hverdict] at h
        rw [List.mem_singleton.1 h]
        trivial
    · split at hverdict
      · rw [← Option.some.inj hverdict] at h
        rw [List.mem_singleton.1 h]
        trivial
      · exact absurd hverdict (by simp)

theorem leads_instanceMembers (h : remark ∈ o.instanceMembers) : remark.Leads st := by
  have hreport : ∀ {α : Type} (as : List α) (f : α → Diagnostic),
      remark ∈ as.map (fun a => Remark.report (f a)) → remark.Leads st := by
    intro α as f hmem
    obtain ⟨a, -, rfl⟩ := List.mem_map.1 hmem
    trivial
  unfold instanceMembers at h
  split at h
  · simp only [List.mem_append] at h
    rcases h with ((h | h) | h) | h
    · exact hreport _ _ h
    · exact hreport _ _ h
    · exact hreport _ _ h
    · exact hreport _ _ h
  · exact absurd h List.not_mem_nil

/-- Every link of the check leads to a member. -/
theorem leads_remarks (hb : st.Inherits bases) (h : remark ∈ o.remarks bases) :
    remark.Leads st := by
  rcases mem_remarks.1 h with h | h | ⟨m, i, -, -, h⟩ | ⟨p, i, -, h⟩ | ⟨e, i, -, h⟩ | h
  · exact leads_signatureClashes h
  · exact leads_accessorClashes h
  · exact leads_methodRemarks hb h
  · exact leads_propertyRemarks hb h
  · exact leads_eventRemarks hb h
  · exact leads_instanceMembers h

end ObjectType

theorem mem_filterMap_modify {α : Type} (links : α → Option MemberLink) {f : α → α}
    {base link : MemberLink} {as : List α} {i : Nat} (hf : ∀ a, links (f a) = some base)
    (h : link ∈ (as.modify i f).filterMap links) : link = base ∨ link ∈ as.filterMap links := by
  obtain ⟨a', ha', hlink⟩ := List.mem_filterMap.1 h
  rcases mem_modify ha' with ⟨a, -, rfl⟩ | hold
  · exact Or.inl (Option.some.inj (hlink.symm.trans (hf a)))
  · exact Or.inr (List.mem_filterMap.2 ⟨a', hold, hlink⟩)

theorem ObjectType.Anchored.link (h : o.Anchored st imports) (hr : remark.Leads st) :
    (remark.link o).Anchored st imports := by
  have hcore := Store.core_of_unlinked (Remark.unlinked_link o remark)
  have hreferences : ∀ r ∈ (remark.link o).references, r.Anchored st imports := by
    rw [← references_core, hcore, references_core]
    exact h.references
  have hrequires : (remark.link o).requires = o.requires := by
    rw [← requires_core, hcore, requires_core]
  refine ⟨hreferences, hrequires ▸ h.requires, ?_, ?_, ?_⟩
  · intro link hl
    cases remark with
    | linkMethod index base =>
      rcases mem_filterMap_modify Method.overrides (fun _ => rfl) hl with rfl | hl
      · exact hr
      · exact h.methods link hl
    | linkProperty index base => exact h.methods link hl
    | linkEvent index base => exact h.methods link hl
    | report d => exact h.methods link hl
    | overload index => exact h.methods link hl
  · intro link hl
    cases remark with
    | linkProperty index base =>
      rcases mem_filterMap_modify Property.overrides (fun _ => rfl) hl with rfl | hl
      · exact hr
      · exact h.properties link hl
    | linkMethod index base => exact h.properties link hl
    | linkEvent index base => exact h.properties link hl
    | report d => exact h.properties link hl
    | overload index => exact h.properties link hl
  · intro link hl
    cases remark with
    | linkEvent index base =>
      rcases mem_filterMap_modify Event.overrides (fun _ => rfl) hl with rfl | hl
      · exact hr
      · exact h.events link hl
    | linkMethod index base => exact h.events link hl
    | linkProperty index base => exact h.events link hl
    | report d => exact h.events link hl
    | overload index => exact h.events link hl

theorem ObjectType.Anchored.links (h : o.Anchored st imports) {remarks : List Remark}
    (hr : ∀ remark ∈ remarks, remark.Leads st) :
    (remarks.foldl Remark.link o).Anchored st imports := by
  induction remarks generalizing o with
  | nil => exact h
  | cons remark remarks ih =>
    exact ih (h.link (hr remark List.mem_cons_self)) fun r hmem => hr r (List.mem_cons_of_mem _ hmem)

/-- The check keeps all handles and adds links that lead to members. -/
theorem Workspace.anchored_checkMembers {w : Workspace} (hwired : ∀ o ∈ w.store.objects, o.Wired)
    (h : w.store.Anchored imports) : w.checkMembers.1.store.Anchored imports := by
  have hsimilar := Store.similar_checkMembers w
  have hc := Store.continues_of_similar imports hsimilar
  refine ⟨?_, fun s hs f hf => (h.fields s hs f hf).mono hc,
    fun d hd r hr => (h.delegates d hd r hr).mono hc⟩
  intro o' ho'
  obtain ⟨i, hi⟩ := Array.mem_iff_getElem?.1 ho'
  rw [Store.getElem?_checkMembers] at hi
  obtain ⟨o, ho, rfl⟩ := Option.map_eq_some_iff.1 hi
  have hinherits := w.store.inherits_ancestors hwired i
  exact ((h.objects o (Array.mem_of_getElem? ho)).links
    fun remark hr => ObjectType.leads_remarks hinherits hr).mono hc

end ComponentIdl
