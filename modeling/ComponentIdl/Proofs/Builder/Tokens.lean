import ComponentIdl.Proofs.Analyses
import ComponentIdl.Proofs.Builder.Wiring

/-!
# Tokens of event accessors

The accessors of an event return and take a token. Its type has a dotted name, so it means the same in
every scope, and after references are bound all accessors of events share one reference to it.
-/

namespace ComponentIdl

/-- The result of an accessor of an event. -/
def EventRole.issued (token : Reference) : EventRole → Option Reference
  | add => some token
  | remove => none

/-- The parameter types of an accessor of an event. -/
def EventRole.taken (type token : Reference) : EventRole → List Reference
  | add => [type]
  | remove => [token]

namespace ObjectType

variable {o o' : ObjectType} {token : Reference}

/-- The accessors of events return and take the token. -/
def Issues (o : ObjectType) (token : Reference) : Prop :=
  ∀ e ∈ o.events, ∀ role, ∃ m, o.methods[e.position role]? = some m ∧
    m.result = role.issued token ∧ m.parameters.map Parameter.type = role.taken e.type token

theorem Issues.append (h : o.Issues token) (hevents : o'.events = o.events) {more : List Method}
    (hmethods : o'.methods = o.methods ++ more) : o'.Issues token := by
  intro e he role
  rw [hevents] at he
  obtain ⟨m, hm, hserves⟩ := h e he role
  refine ⟨m, ?_, hserves⟩
  rw [hmethods]
  exact getElem?_append_old more hm

theorem Issues.addAccessors (h : o.Issues token) (index : Nat) (asked : List (PropertyRole × Nat)) :
    (o.addAccessors index asked).Issues token := by
  have hone : ∀ {o : ObjectType} (role : PropertyRole) (line : Nat), o.Issues token →
      (o.addAccessor index role line).Issues token := by
    intro o role line h
    unfold addAccessor
    split
    · exact h
    · exact h.append rfl rfl
  induction asked generalizing o with
  | nil => exact h
  | cons a asked ih => exact ih (hone a.1 a.2 h)

theorem Issues.grows (h : o.Issues (.named registrationToken)) (hg : o.Grows o') :
    o'.Issues (.named registrationToken) := by
  cases hg with
  | method d => exact h.append rfl rfl
  | constructor d => exact h
  | fragment d count ho =>
    obtain ⟨-, ⟨-, rfl⟩ | ⟨p, index, -, -, -, -, -, rfl⟩⟩ := addFragment_cases ho
    · exact Issues.addAccessors (o := { o with properties := o.properties ++ [.first d] }) h _ _
    · exact h.addAccessors _ _
  | event d he hp =>
    obtain ⟨fresh, -, hadd, hremove, heq⟩ := o.addEvent_eq d
    rw [heq]
    intro e hmem role
    rcases List.mem_append.1 hmem with hmem | hmem
    · obtain ⟨m, hm, hserves⟩ := h e hmem role
      exact ⟨m, getElem?_append_old _ hm, hserves⟩
    · obtain rfl := List.mem_singleton.1 hmem
      refine ⟨e.accessor role, ?_, ?_, ?_⟩
      · cases role <;> simp [Event.position, hadd, hremove]
      · cases role <;> rfl
      · cases role <;> rfl

theorem boundIn_token (t : NameTable) (scope scope' : String) :
    (Reference.named registrationToken).boundIn t scope =
      (Reference.named registrationToken).boundIn t scope' := by
  unfold Reference.boundIn
  rw [show (Reference.named registrationToken).text = registrationToken from rfl,
    absoluteName_registrationToken, absoluteName_registrationToken]

theorem Issues.boundIn (h : o.Issues (.named registrationToken)) (t : NameTable) :
    (o.boundIn t).Issues ((Reference.named registrationToken).boundIn t "") := by
  intro e' he' role
  obtain ⟨e, he, rfl⟩ := List.mem_map.1 he'
  obtain ⟨m, hm, hresult, htypes⟩ := h e he role
  refine ⟨m.boundIn t o.scope, ?_, ?_, ?_⟩
  · show (o.methods.map (Method.boundIn t o.scope))[e.position role]? = _
    rw [List.getElem?_map, hm, Option.map_some]
  · show m.result.map (Reference.boundIn t o.scope) = _
    rw [hresult, boundIn_token t "" o.scope]
    cases role <;> rfl
  · have hmap : (m.boundIn t o.scope).parameters.map Parameter.type =
        (m.parameters.map Parameter.type).map (Reference.boundIn t o.scope) := by
      show (m.parameters.map (Parameter.boundIn t o.scope)).map Parameter.type = _
      rw [List.map_map, List.map_map]
      rfl
    rw [hmap, htypes, boundIn_token t "" o.scope]
    cases role <;> rfl

end ObjectType

/-- After the analyses, one token serves all events. -/
theorem analyzed_issues (settings : Settings) (catalog : Catalog) (u : Decl.Unit) :
    ∃ token, ∀ o ∈ (declared settings catalog u).analyzed.store.objects, o.Issues token := by
  have hbuilt : ∀ o ∈ (declared settings catalog u).store.objects,
      o.Issues (.named registrationToken) :=
    Builder.run_objects u.visits
      (fun o header hnew e he => absurd (hnew.events ▸ he) List.not_mem_nil)
      (fun _ _ hg h => h.grows hg) fun o ho => absurd ho (Array.not_mem_empty o)
  rw [Workspace.analyzed_eq]
  refine ⟨(Reference.named registrationToken).boundIn
    (declared settings catalog u).boundSymbols "", ?_⟩
  intro o ho
  obtain ⟨i, hi⟩ := Array.mem_iff_getElem?.1 ho
  simp only [Store.withCycles, Store.evaluateEnums, Store.boundIn, Array.getElem?_mapIdx,
    Array.getElem?_map, Option.map_eq_some_iff] at hi
  obtain ⟨_, ⟨o', ho', rfl⟩, rfl⟩ := hi
  exact (hbuilt o' (Array.mem_of_getElem? ho')).boundIn _

end ComponentIdl
