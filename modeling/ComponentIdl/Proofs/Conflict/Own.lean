import ComponentIdl.Proofs.Conflict.Remarks
import ComponentIdl.Proofs.Wiring

/-!
# Members of one class or interface

If the checks of a class or interface report nothing, no two of its methods have one name and one
sequence of parameter types: written methods would have one signature, a written method would be
called like an accessor, and accessors are told apart by the members they serve. A static class then
has static members only.
-/

namespace ComponentIdl

/-- One name and one sequence of parameter types. -/
def Method.Alike (m n : Method) : Prop :=
  m.name = n.name ∧
    List.Forall₂ (fun p q : Parameter => p.type.agrees q.type = true) m.parameters n.parameters

theorem Reference.identity_of_agrees {a b : Reference} (h : a.agrees b = true) :
    a.identity = b.identity := by
  unfold agrees at h
  unfold identity
  cases ha : a.target <;> cases hb : b.target <;> simp_all

theorem Method.Alike.signature {m n : Method} (h : m.Alike n) : m.signature = n.signature := by
  have htypes : (n.parameters.map fun p => p.type.identity) =
      m.parameters.map fun p => p.type.identity :=
    map_eq_of_forall₂ h.2 fun p q hpq => (Reference.identity_of_agrees hpq).symm
  unfold Method.signature
  rw [h.1, htypes]

namespace ObjectType

variable {o : ObjectType} {bases : List (ObjectId × ObjectType)} {m n : Method} {i j : Nat}

/-- No remark is a diagnostic. -/
def Silent (o : ObjectType) (bases : List (ObjectId × ObjectType)) : Prop :=
  ∀ remark ∈ o.remarks bases, remark.diagnostic? o.methods = none

theorem mem_remarks {remark : Remark} : remark ∈ o.remarks bases ↔
    remark ∈ o.signatureClashes ∨ remark ∈ o.accessorClashes ∨
      (∃ m i, o.methods[i]? = some m ∧ m.isWritten = true ∧ remark ∈ o.methodRemarks bases (m, i)) ∨
      (∃ p i, o.properties[i]? = some p ∧ remark ∈ o.propertyRemarks bases (p, i)) ∨
      (∃ e i, o.events[i]? = some e ∧ remark ∈ o.eventRemarks bases (e, i)) ∨
      remark ∈ o.instanceMembers := by
  unfold remarks
  rw [Remark.mem_withoutRepeats_iff]
  simp only [List.mem_append, List.mem_flatMap, writtenMethods, List.mem_filter,
    List.mem_zipIdx_iff_getElem?, Prod.exists, or_assoc, and_assoc]

theorem Silent.no_report (h : o.Silent bases) {d : Diagnostic}
    (hd : .report d ∈ o.remarks bases) : False := by
  have hnone := h _ hd
  simp [Remark.diagnostic?] at hnone

theorem Silent.no_overload (h : o.Silent bases) (hm : o.methods[i]? = some m)
    (hi : .overload i ∈ o.remarks bases) : False := by
  have hnone := h _ hi
  simp [Remark.diagnostic?, hm] at hnone

theorem exists_overload (hm : o.methods[i]? = some m) (hn : o.methods[j]? = some n) (hij : i ≠ j)
    (hmw : m.isWritten = true) (hnw : n.isWritten = true) (h : m.signature = n.signature) :
    ∃ k first, o.methods[k]? = some first ∧ .overload k ∈ o.signatureClashes := by
  have hsigned : ∀ {k : Nat} {x : Method}, o.methods[k]? = some x → x.isWritten = true →
      (x.signature, k) ∈ o.writtenMethods.map fun m => (m.1.signature, m.2) := by
    intro k x hx hw
    refine List.mem_map.2 ⟨(x, k), ?_, rfl⟩
    exact List.mem_filter.2 ⟨List.mem_zipIdx_iff_getElem?.2 hx, hw⟩
  cases hfind : (o.writtenMethods.map fun m => (m.1.signature, m.2)).find?
      fun first => first.1 == m.signature with
  | none =>
    have hnot := List.find?_eq_none.1 hfind _ (hsigned hm hmw)
    simp at hnot
  | some first =>
    have hmem := List.mem_of_find?_eq_some hfind
    obtain ⟨⟨x, k⟩, hx, rfl⟩ := List.mem_map.1 hmem
    refine ⟨k, x, List.mem_zipIdx_iff_getElem?.1 (List.mem_filter.1 hx).1, ?_⟩
    unfold signatureClashes
    -- The first method of the signature is not both of the two.
    by_cases hk : k = i
    · refine List.mem_flatMap.2 ⟨_, hsigned hn hnw, ?_⟩
      rw [← h]
      simp only [hfind]
      rw [if_neg fun heq => hij (hk.symm.trans heq)]
      exact List.mem_cons_self
    · refine List.mem_flatMap.2 ⟨_, hsigned hm hmw, ?_⟩
      simp only [hfind]
      rw [if_neg hk]
      exact List.mem_cons_self

theorem report_of_propertyName {p : Property} {role : PropertyRole} (hm : o.methods[i]? = some m)
    (hmw : m.isWritten = true) (hp : p ∈ o.properties) (hrole : p.has role = true)
    (hname : m.name = role.methodName p.name) :
    .report (.of .duplicatePropertyAccessor p.line p.name) ∈ o.accessorClashes := by
  unfold accessorClashes
  refine List.mem_flatMap.2 ⟨(m, i),
    List.mem_filter.2 ⟨List.mem_zipIdx_iff_getElem?.2 hm, hmw⟩, ?_⟩
  refine List.mem_append_left _ (List.mem_flatMap.2 ⟨p, hp, ?_⟩)
  have hany : ([PropertyRole.get, .set].any fun role =>
      p.has role && m.name == role.methodName p.name) = true := by
    refine List.any_eq_true.2 ⟨role, ?_, by simp [hrole, hname]⟩
    cases role <;> simp
  unfold propertyClash
  rw [if_pos hany]
  exact List.mem_cons_self

theorem report_of_eventName {e : Event} {role : EventRole} (hm : o.methods[i]? = some m)
    (hmw : m.isWritten = true) (he : e ∈ o.events) (hname : m.name = role.methodName e.name) :
    .report (.of .conflictingEventAccessor e.line e.name) ∈ o.accessorClashes := by
  unfold accessorClashes
  refine List.mem_flatMap.2 ⟨(m, i),
    List.mem_filter.2 ⟨List.mem_zipIdx_iff_getElem?.2 hm, hmw⟩, ?_⟩
  refine List.mem_append_right _ (List.mem_flatMap.2 ⟨e, he, ?_⟩)
  have hany : ([EventRole.add, .remove].any fun role => m.name == role.methodName e.name)
      = true := by
    refine List.any_eq_true.2 ⟨role, ?_, by simp [hname]⟩
    cases role <;> simp
  unfold eventClash
  rw [if_pos hany]
  exact List.mem_cons_self

theorem Silent.name_ne_accessor (h : o.Silent bases) (hw : o.Wired) (hm : o.methods[i]? = some m)
    (hn : o.methods[j]? = some n) (hmw : m.isWritten = true) (hnw : n.origin ≠ .written) :
    m.name ≠ n.name := by
  intro hname
  rcases hw.served_cases hn with ho | ⟨p, hp, role, hj, hserved⟩ | ⟨e, he, role, -, hserved⟩
  · exact hnw ho
  · have hrole : p.has role = true := by simp [Property.has, hj]
    exact h.no_report (mem_remarks.2 (Or.inr (Or.inl
      (report_of_propertyName hm hmw hp hrole (hname.trans hserved.name)))))
  · exact h.no_report (mem_remarks.2 (Or.inr (Or.inl
      (report_of_eventName hm hmw he (hname.trans hserved.name)))))

theorem Wired.accessor_unique (hw : o.Wired) (hm : o.methods[i]? = some m)
    (hn : o.methods[j]? = some n) (hmw : m.origin ≠ .written) (hnw : n.origin ≠ .written)
    (hname : m.name = n.name) : i = j := by
  rcases hw.served_cases hm with ho | ⟨p, hp, role, hi, hms⟩ | ⟨e, he, role, hi, hms⟩
  · exact absurd ho hmw
  · rcases hw.served_cases hn with ho | ⟨q, hq, role', hj, hns⟩ | ⟨d, -, role', -, hns⟩
    · exact absurd ho hnw
    · have hnames := hms.name.symm.trans (hname.trans hns.name)
      obtain ⟨rfl, hpq⟩ := PropertyRole.methodName_inj hnames
      obtain rfl := List.inj_on_of_nodup_map hw.propertyNames hp hq hpq
      exact Option.some.inj (hi.symm.trans hj)
    · have hnames := hms.name.symm.trans (hname.trans hns.name)
      exact absurd hnames (methodName_ne role role' p.name d.name)
  · rcases hw.served_cases hn with ho | ⟨q, -, role', -, hns⟩ | ⟨d, hd, role', hj, hns⟩
    · exact absurd ho hnw
    · have hnames := hns.name.symm.trans (hname.symm.trans hms.name)
      exact absurd hnames (methodName_ne role' role q.name e.name)
    · have hnames := hms.name.symm.trans (hname.trans hns.name)
      obtain ⟨rfl, hed⟩ := EventRole.methodName_inj hnames
      obtain rfl := List.inj_on_of_nodup_map hw.eventNames he hd hed
      exact hi.symm.trans hj

theorem isWritten_iff : m.isWritten = true ↔ m.origin = .written := by
  simp [Method.isWritten]

/-- Without a diagnostic no two methods are alike. -/
theorem Silent.not_alike (h : o.Silent bases) (hw : o.Wired) :
    o.methods.Pairwise fun m n => ¬ m.Alike n := by
  rw [List.pairwise_iff_getElem]
  intro i j hi hj hlt halike
  have hm : o.methods[i]? = some o.methods[i] := List.getElem?_eq_getElem hi
  have hn : o.methods[j]? = some o.methods[j] := List.getElem?_eq_getElem hj
  by_cases hmw : o.methods[i].origin = .written
  · by_cases hnw : o.methods[j].origin = .written
    · obtain ⟨k, first, hk, hmem⟩ := exists_overload hm hn (Nat.ne_of_lt hlt) (isWritten_iff.2 hmw)
        (isWritten_iff.2 hnw) halike.signature
      exact h.no_overload hk (mem_remarks.2 (Or.inl hmem))
    · exact h.name_ne_accessor hw hm hn (isWritten_iff.2 hmw) hnw halike.1
  · by_cases hnw : o.methods[j].origin = .written
    · exact h.name_ne_accessor hw hn hm (isWritten_iff.2 hnw) hmw halike.1.symm
    · exact Nat.ne_of_lt hlt (hw.accessor_unique hm hn hmw hnw halike.1)

/-- Static members only. -/
structure AllStatic (o : ObjectType) : Prop where
  methods : ∀ m ∈ o.methods, m.isStatic = true
  properties : ∀ p ∈ o.properties, p.isStatic = true
  events : ∀ e ∈ o.events, e.isStatic = true
  constructors : o.constructors = []

theorem Silent.allStatic (h : o.Silent bases) (hw : o.Wired) (hs : o.isStaticClass = true) :
    o.AllStatic := by
  have hnone : o.instanceMembers = [] := by
    rw [List.eq_nil_iff_forall_not_mem]
    intro remark hmem
    have hreport : ∃ d, remark = .report d := by
      unfold instanceMembers at hmem
      rw [if_pos hs] at hmem
      simp only [List.mem_append, List.mem_map] at hmem
      rcases hmem with ((⟨_, -, rfl⟩ | ⟨_, -, rfl⟩) | ⟨_, -, rfl⟩) | ⟨_, -, rfl⟩ <;> exact ⟨_, rfl⟩
    obtain ⟨d, rfl⟩ := hreport
    exact h.no_report (mem_remarks.2
      (Or.inr (Or.inr (Or.inr (Or.inr (Or.inr hmem))))))
  unfold instanceMembers at hnone
  rw [if_pos hs] at hnone
  simp only [List.append_eq_nil_iff, List.map_eq_nil_iff, List.filter_eq_nil_iff] at hnone
  obtain ⟨⟨⟨hmethods, hproperties⟩, hevents⟩, hconstructors⟩ := hnone
  have hp : ∀ p ∈ o.properties, p.isStatic = true := fun p hp => by simpa using hproperties p hp
  have he : ∀ e ∈ o.events, e.isStatic = true := fun e he => by simpa using hevents e he
  refine ⟨?_, hp, he, hconstructors⟩
  intro m hm
  obtain ⟨i, hi⟩ := List.mem_iff_getElem?.1 hm
  rcases hw.served_cases hi with ho | ⟨p, hmem, role, -, hserved⟩ | ⟨e, hmem, role, -, hserved⟩
  · have hm' := hmethods m hm
    simpa [isWritten_iff.2 ho] using hm'
  · rw [hserved.isStatic, hp p hmem]
  · rw [hserved.isStatic, he e hmem]

end ObjectType

end ComponentIdl
