import ComponentIdl.Proofs.Binding.Image
import ComponentIdl.Proofs.NameTable
import ComponentIdl.Proofs.Store.Registry
import ComponentIdl.Proofs.Wiring

/-!
# Stores without unbound references

If binding reports nothing, every reference is bound afterwards. Accessors are looked up without a
report: the type of a property or event is reported for the member itself, and the type of the
tokens is found in every table. What a requires list names is an interface.
-/

namespace ComponentIdl

variable {t : NameTable} {scope : String}

/-- The target is an interface, local or imported. -/
def Store.IsInterface (st : Store) (imports : Array Import) : Target → Prop
  | .interface id => ∃ o, st.objects[id]? = some o ∧ o.isInterface = true
  | .imported id => ∃ i, imports[id]? = some i ∧ i.kind = .interface
  | _ => False

theorem Reference.text_boundIn (t : NameTable) (scope : String) (r : Reference) :
    (r.boundIn t scope).text = r.text := by
  unfold boundIn
  split
  · rfl
  · split <;> rfl

theorem Method.references_boundIn (m : Method) :
    (m.boundIn t scope).references = m.references.map (Reference.boundIn t scope) := by
  unfold Method.references Method.boundIn
  rw [List.map_append, List.map_map, List.map_map]
  cases m.result <;> rfl

theorem Method.types_boundIn (m : Method) : (m.boundIn t scope).parameters.map Parameter.type =
    (m.parameters.map Parameter.type).map (Reference.boundIn t scope) := by
  unfold Method.boundIn
  rw [List.map_map, List.map_map]
  rfl

theorem Property.Served.boundIn {p : Property} {role : PropertyRole} {m : Method}
    (h : p.Served role m) : (p.boundIn t scope).Served role (m.boundIn t scope) := by
  refine ⟨h.name, h.origin, h.isStatic, ?_, ?_⟩
  · show m.result.map _ = _
    rw [h.result]
    cases role <;> rfl
  · rw [Method.types_boundIn, h.types]
    cases role <;> rfl

theorem Event.Served.boundIn {e : Event} {role : EventRole} {m : Method} (h : e.Served role m) :
    (e.boundIn t scope).Served role (m.boundIn t scope) := by
  have htext : Reference.text ∘ Reference.boundIn t scope = Reference.text :=
    funext (Reference.text_boundIn t scope)
  refine ⟨h.name, h.origin, h.isStatic, ?_, ?_, ?_⟩
  · show (m.result.map _).map _ = _
    rw [Option.map_map, htext, h.result]
  · intro hrole
    rw [Method.types_boundIn, h.handler hrole]
    rfl
  · intro hrole
    have htypes : (m.boundIn t scope).parameters.map Parameter.type =
        (m.parameters.map Parameter.type).map (Reference.boundIn t scope) := Method.types_boundIn m
    have hlist := congrArg (List.map Reference.text) htypes
    rw [List.map_map, List.map_map, htext, List.map_map] at hlist
    exact hlist.trans (h.token hrole)

theorem Property.Served.reference {p : Property} {role : PropertyRole} {m : Method}
    (h : p.Served role m) {r : Reference} (hr : r ∈ m.references) : r = p.type := by
  unfold Method.references at hr
  rw [h.result, h.types] at hr
  cases role with
  | get => simpa [PropertyRole.result, PropertyRole.types] using hr
  | set => simpa [PropertyRole.result, PropertyRole.types] using hr

theorem Event.Served.reference {e : Event} {role : EventRole} {m : Method}
    (h : e.Served role m) {r : Reference} (hr : r ∈ m.references) :
    r = e.type ∨ r.text = registrationToken := by
  rcases List.mem_append.1 hr with hr | hr
  · have hresult := h.result
    rw [Option.mem_toList.1 hr] at hresult
    cases role with
    | add => exact Or.inr (Option.some.inj hresult)
    | remove => simp [EventRole.result] at hresult
  · cases role with
    | add =>
      rw [h.handler rfl] at hr
      exact Or.inl (List.mem_singleton.1 hr)
    | remove =>
      have htexts := h.token rfl
      have htext := List.mem_map_of_mem (f := Reference.text) hr
      rw [List.map_map] at htext
      exact Or.inr (List.mem_singleton.1 (htexts ▸ htext))

namespace ObjectType

variable {o : ObjectType}

theorem Wired.boundIn (h : o.Wired) (t : NameTable) : (o.boundIn t).Wired := by
  refine h.transfer (M := fun m m' => m' = m.boundIn t o.scope)
    (P := fun p p' => p' = p.boundIn t o.scope) (E := fun e e' => e' = e.boundIn t o.scope)
    ?_ ?_ ?_ ?_ ?_ ?_ ?_ ?_
  · exact List.forall₂_map_right_iff.2 (List.forall₂_same.2 fun _ _ => rfl)
  · exact List.forall₂_map_right_iff.2 (List.forall₂_same.2 fun _ _ => rfl)
  · exact List.forall₂_map_right_iff.2 (List.forall₂_same.2 fun _ _ => rfl)
  · rintro m _ rfl
    rfl
  · rintro p _ rfl
    exact ⟨rfl, fun role => by cases role <;> rfl⟩
  · rintro e _ rfl
    exact ⟨rfl, fun role => by cases role <;> rfl⟩
  · rintro p _ m _ role rfl rfl hserved
    exact hserved.boundIn
  · rintro e _ m _ role rfl rfl hserved
    exact hserved.boundIn

theorem Wired.references_accessor (h : o.Wired) {m : Method} (hm : m ∈ o.methods)
    (hw : m.isWritten = false) {r : Reference} (hr : r ∈ m.references) :
    (∃ p ∈ o.properties, r = p.type) ∨ (∃ e ∈ o.events, r = e.type) ∨
      r.text = registrationToken := by
  obtain ⟨i, hi⟩ := List.mem_iff_getElem?.1 hm
  rcases h.served_cases hi with ho | ⟨p, hp, role, -, hserved⟩ | ⟨e, he, role, -, hserved⟩
  · simp [Method.isWritten, ho] at hw
  · exact Or.inl ⟨p, hp, hserved.reference hr⟩
  · right
    rcases hserved.reference hr with htype | htext
    · exact Or.inl ⟨e, he, htype⟩
    · exact Or.inr htext

theorem constructors_boundIn (o : ObjectType) (t : NameTable) :
    (o.boundIn t).constructors = o.constructors.map (Constructor.boundIn t o.scope) := by
  unfold constructors boundIn
  cases o.classPart <;> rfl

theorem Wired.bound_references (h : o.Wired) (hfaults : o.faults t = [])
    (htoken : ∀ m ∈ o.methods, ∀ r ∈ m.references, r.text = registrationToken →
      (r.boundIn t o.scope).isBound = true) :
    ∀ r ∈ (o.boundIn t).references, r.isBound = true := by
  unfold ObjectType.faults at hfaults
  simp only [List.append_eq_nil_iff, List.flatMap_eq_nil_iff] at hfaults
  obtain ⟨⟨⟨⟨-, hmethods⟩, hproperties⟩, hevents⟩, hconstructors⟩ := hfaults
  have hp : ∀ p ∈ o.properties, (p.type.boundIn t o.scope).isBound = true :=
    fun p hp => Reference.faults_eq_nil.1 (hproperties p hp)
  have he : ∀ e ∈ o.events, (e.type.boundIn t o.scope).isBound = true :=
    fun e he => Reference.faults_eq_nil.1 (List.append_eq_nil_iff.1 (hevents e he)).1
  intro r hr
  unfold ObjectType.references at hr
  simp only [List.mem_append, List.mem_flatMap, List.mem_map] at hr
  rcases hr with ((⟨m', hm', hr⟩ | ⟨p', hp', rfl⟩) | ⟨e', he', rfl⟩) | ⟨c', hc', p', hp', rfl⟩
  · obtain ⟨m, hm, rfl⟩ := List.mem_map.1 hm'
    rw [Method.references_boundIn] at hr
    obtain ⟨written, hwritten, rfl⟩ := List.mem_map.1 hr
    cases hw : m.isWritten with
    | true =>
      have hnone := hmethods m hm
      rw [Method.faults, if_pos hw, List.flatMap_eq_nil_iff] at hnone
      exact Reference.faults_eq_nil.1 (hnone written hwritten)
    | false =>
      rcases h.references_accessor hm hw hwritten with ⟨p, hpm, rfl⟩ | ⟨e, hem, rfl⟩ | htext
      · exact hp p hpm
      · exact he e hem
      · exact htoken m hm written hwritten htext
  · obtain ⟨p, hpm, rfl⟩ := List.mem_map.1 hp'
    exact hp p hpm
  · obtain ⟨e, hem, rfl⟩ := List.mem_map.1 he'
    exact he e hem
  · rw [constructors_boundIn] at hc'
    obtain ⟨c, hcm, rfl⟩ := List.mem_map.1 hc'
    obtain ⟨p, hpm, rfl⟩ := List.mem_map.1 hp'
    exact Reference.faults_eq_nil.1 (List.flatMap_eq_nil_iff.1 (hconstructors c hcm) p hpm)

theorem isClass_boundIn (o : ObjectType) (t : NameTable) : (o.boundIn t).isClass = o.isClass := by
  unfold isClass boundIn
  cases o.classPart <;> rfl

end ObjectType

theorem Reference.target_requiredIn {line : Nat} {r : Reference} (hb : r.isBound = false)
    (hfaults : r.requiredFaults t scope line = []) :
    ∃ symbol : Symbol, t.get? (absoluteName scope r.text) = some symbol ∧
      symbol.isInterface = true ∧ (r.requiredIn t scope).target = some symbol.target := by
  have hnone : r.target = none := by
    unfold isBound at hb
    cases htarget : r.target with
    | none => rfl
    | some target => simp [htarget] at hb
  unfold requiredFaults at hfaults
  rw [hb] at hfaults
  cases hget : t.get? (absoluteName scope r.text) with
  | none => simp [hget] at hfaults
  | some symbol =>
    cases hi : symbol.isInterface with
    | false => simp [hget, hi] at hfaults
    | true =>
      refine ⟨symbol, rfl, hi, ?_⟩
      unfold requiredIn
      rw [hb, hget]
      simp [hi, bindTo, hnone]

/-- Every reference is bound, and what is required are interfaces. -/
structure Store.Bound (st : Store) (imports : Array Import) : Prop where
  references : ∀ o ∈ st.objects, ∀ r ∈ o.references, r.isBound = true
  requires : ∀ o ∈ st.objects, ∀ r ∈ o.requires,
    ∃ target, r.target = some target ∧ st.IsInterface imports target
  fields : ∀ s ∈ st.structs, ∀ f ∈ s.fields, f.type.isBound = true
  delegates : ∀ d ∈ st.delegates, ∀ r ∈ d.references, r.isBound = true

theorem Store.isInterface_of_table {st : Store} {name : String} {symbol : Symbol}
    (hentry : (∃ h, st.header? symbol = some h) ∨ t.Remembers name symbol)
    (hi : symbol.isInterface = true) : (st.boundIn t).IsInterface t.imports symbol.target := by
  rcases hentry with ⟨header, hheader⟩ | ⟨i, imported, rfl, hi', -⟩
  · cases symbol with
    | interface id =>
      obtain ⟨o, ho, hclass⟩ := Option.bind_eq_some_iff.1 hheader
      have hnot : o.isClass = false := by
        cases hc : o.isClass with
        | true => simp [hc] at hclass
        | false => rfl
      refine ⟨o.boundIn t, ?_, ?_⟩
      · show (st.objects.map (ObjectType.boundIn t))[id]? = _
        rw [Array.getElem?_map, ho]
        rfl
      · have hbound := o.isClass_boundIn t
        rw [hnot] at hbound
        simpa [ObjectType.isClass, ObjectType.isInterface] using hbound
    | imported id kind => simp [Store.header?] at hheader
    | runtimeClass id => simp [Symbol.isInterface] at hi
    | struct id => simp [Symbol.isInterface] at hi
    | enum id => simp [Symbol.isInterface] at hi
    | delegate id => simp [Symbol.isInterface] at hi
  · refine ⟨imported, hi', ?_⟩
    cases hk : imported.kind <;> simp [Symbol.isInterface, hk] at hi ⊢

/-- Binding that finds no fault leaves nothing unbound. -/
theorem Store.bound_boundIn {st : Store} (hwired : ∀ o ∈ st.objects, o.Wired)
    (hfresh : ∀ o ∈ st.objects, ∀ r ∈ o.requires, r.isBound = false)
    (htoken : ∀ o ∈ st.objects, ∀ m ∈ o.methods, ∀ r ∈ m.references,
      r.text = registrationToken → (r.boundIn t o.scope).isBound = true)
    (hentry : ∀ name symbol, t.get? name = some symbol →
      (∃ h, st.header? symbol = some h) ∨ t.Remembers name symbol)
    (hfaults : st.bindingFaults t = []) : (st.boundIn t).Bound t.imports := by
  unfold Store.bindingFaults at hfaults
  simp only [List.append_eq_nil_iff, List.flatMap_eq_nil_iff, Array.mem_toList_iff] at hfaults
  obtain ⟨⟨hobjects, hstructs⟩, hdelegates⟩ := hfaults
  constructor
  · intro o' ho'
    obtain ⟨o, ho, rfl⟩ := Array.mem_map.1 ho'
    exact (hwired o ho).bound_references (hobjects o ho) (htoken o ho)
  · intro o' ho' r' hr'
    obtain ⟨o, ho, rfl⟩ := Array.mem_map.1 ho'
    obtain ⟨r, hr, rfl⟩ := List.mem_map.1 hr'
    have hnone := hobjects o ho
    unfold ObjectType.faults at hnone
    simp only [List.append_eq_nil_iff, List.flatMap_eq_nil_iff] at hnone
    obtain ⟨symbol, hget, hi, htarget⟩ :=
      Reference.target_requiredIn (hfresh o ho r hr) (hnone.1.1.1.1 r hr)
    exact ⟨_, htarget, isInterface_of_table (hentry _ symbol hget) hi⟩
  · intro s' hs' f' hf'
    obtain ⟨s, hs, rfl⟩ := Array.mem_map.1 hs'
    obtain ⟨f, hf, rfl⟩ := List.mem_map.1 hf'
    exact Reference.faults_eq_nil.1 (List.flatMap_eq_nil_iff.1 (hstructs s hs) f hf)
  · intro d' hd' r' hr'
    obtain ⟨d, hd, rfl⟩ := Array.mem_map.1 hd'
    have hreferences : (d.boundIn t).references = d.references.map (Reference.boundIn t d.scope) := by
      unfold DelegateType.references DelegateType.boundIn
      rw [List.map_append, List.map_map, List.map_map]
      cases d.result <;> rfl
    rw [hreferences] at hr'
    obtain ⟨r, hr, rfl⟩ := List.mem_map.1 hr'
    exact Reference.faults_eq_nil.1 (List.flatMap_eq_nil_iff.1 (hdelegates d hd) r hr)

end ComponentIdl
