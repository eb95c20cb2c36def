import ComponentIdl.Derivation
import ComponentIdl.Proofs.Conflict.Sound

/-!
# Members of derived interfaces

The members that a derived interface takes over from a sound class are sound again: a property is
kept together with its getter, and methods that were told apart stay so. The methods of a factory
are told apart by their numbers.
-/

namespace ComponentIdl

/-- An item that is kept stands behind the kept items before it. -/
theorem getElem?_filter_countP {α : Type} {p : α → Bool} {as : List α} {i : Nat} {a : α}
    (h : as[i]? = some a) (ha : p a = true) :
    (as.filter p)[(as.take i).countP p]? = some a := by
  have hsplit : as = as.take i ++ a :: as.drop (i + 1) := by
    obtain ⟨hi, rfl⟩ := List.getElem?_eq_some_iff.1 h
    rw [← List.drop_eq_getElem_cons hi, List.take_append_drop]
  have hfilter : as.filter p = (as.take i).filter p ++ a :: (as.drop (i + 1)).filter p := by
    conv_lhs => rw [hsplit]
    rw [List.filter_append, List.filter_cons_of_pos ha]
  rw [hfilter, List.countP_eq_length_filter, List.getElem?_append_right (Nat.le_refl _),
    Nat.sub_self]
  rfl

/-- An item that is left by a filter was at a place with as many kept items before it. -/
theorem getElem?_of_filter {α : Type} {p : α → Bool} {as : List α} {k : Nat} {a : α}
    (h : (as.filter p)[k]? = some a) :
    ∃ i, as[i]? = some a ∧ p a = true ∧ (as.take i).countP p = k := by
  induction as generalizing k with
  | nil => simp at h
  | cons b as ih =>
    by_cases hb : p b = true
    · rw [List.filter_cons_of_pos hb] at h
      cases k with
      | zero =>
        obtain rfl : b = a := Option.some.inj h
        exact ⟨0, rfl, hb, rfl⟩
      | succ k =>
        obtain ⟨i, hi, ha, hcount⟩ := ih h
        exact ⟨i + 1, hi, ha, by rw [List.take_succ_cons, List.countP_cons_of_pos hb, hcount]⟩
    · rw [List.filter_cons_of_neg hb] at h
      obtain ⟨i, hi, ha, hcount⟩ := ih h
      exact ⟨i + 1, hi, ha, by rw [List.take_succ_cons, List.countP_cons_of_neg hb, hcount]⟩

namespace ObjectType

variable {o : ObjectType} {statics : Bool}

theorem keptPosition?_of_isStatic {i : Nat} {m : Method} (h : o.methods[i]? = some m)
    (hm : m.isStatic = statics) :
    ∃ k, o.keptPosition? statics i = some k ∧
      (o.keep statics).methods[k]? = some { m with isStatic := false, overrides := none } := by
  refine ⟨(o.methods.take i).countP fun n => n.isStatic == statics, ?_, ?_⟩
  · unfold keptPosition?
    rw [h, Option.bind_some, if_pos hm]
  · have hkept := getElem?_filter_countP (p := fun n : Method => n.isStatic == statics) h
      (by rw [hm]; exact beq_self_eq_true statics)
    unfold keep
    rw [List.getElem?_map, hkept]
    rfl

theorem keptEvent?_type {e e' : Event} (h : o.keptEvent? statics e = some e') :
    e'.type = e.type := by
  unfold keptEvent? at h
  split at h
  · rw [← Option.some.inj h]
  · simp at h

end ObjectType

/-- References are bound, properties have getters and no two methods are alike. -/
structure MemberSet.Sound (members : MemberSet) : Prop where
  methods : ∀ m ∈ members.methods, ∀ r ∈ m.references, r.isBound = true
  properties : ∀ p ∈ members.properties, p.type.isBound = true
  events : ∀ e ∈ members.events, e.type.isBound = true
  getters : ∀ p ∈ members.properties, ∃ i m, p.getter = some i ∧ members.methods[i]? = some m ∧
    m.name = PropertyRole.get.methodName p.name
  distinct : members.methods.Pairwise fun m n => ¬ m.Alike n

namespace ObjectType

variable {o : ObjectType}

theorem bound_methods (h : ∀ r ∈ o.references, r.isBound = true) {m : Method} (hm : m ∈ o.methods) :
    ∀ r ∈ m.references, r.isBound = true := by
  intro r hr
  apply h
  unfold references
  simp only [List.mem_append, List.mem_flatMap]
  exact Or.inl (Or.inl (Or.inl ⟨m, hm, hr⟩))

theorem bound_properties (h : ∀ r ∈ o.references, r.isBound = true) {p : Property}
    (hp : p ∈ o.properties) : p.type.isBound = true := by
  apply h
  unfold references
  simp only [List.mem_append]
  exact Or.inl (Or.inl (Or.inr (List.mem_map_of_mem hp)))

theorem bound_events (h : ∀ r ∈ o.references, r.isBound = true) {e : Event} (he : e ∈ o.events) :
    e.type.isBound = true := by
  apply h
  unfold references
  simp only [List.mem_append]
  exact Or.inl (Or.inr (List.mem_map_of_mem he))

theorem bound_constructors (h : ∀ r ∈ o.references, r.isBound = true) {c : Constructor}
    (hc : c ∈ o.constructors) : ∀ p ∈ c.parameters, p.type.isBound = true := by
  intro p hp
  apply h
  unfold references
  simp only [List.mem_append, List.mem_flatMap]
  exact Or.inr ⟨c, hc, List.mem_map_of_mem hp⟩

theorem Sound.keep (h : o.Sound) (hw : o.Wired) (statics : Bool) : (o.keep statics).Sound := by
  constructor
  · refine List.forall_mem_map.2 fun m hm => ?_
    exact bound_methods (m := m) h.references (List.mem_of_mem_filter hm)
  · refine List.forall_mem_map.2 fun p hp => ?_
    exact bound_properties (p := p) h.references (List.mem_of_mem_filter hp)
  · intro e' he'
    obtain ⟨e, he, hkept⟩ := List.mem_filterMap.1 he'
    rw [keptEvent?_type hkept]
    exact bound_events h.references (List.mem_of_mem_filter he)
  · refine List.forall_mem_map.2 fun p hp => ?_
    obtain ⟨hmem, hstatic⟩ := List.mem_filter.1 hp
    obtain ⟨i, -, hget, -, -⟩ := h.getters p hmem
    obtain ⟨m, hm, hserved⟩ := hw.property p hmem .get i hget
    obtain ⟨k, hk, hm'⟩ := keptPosition?_of_isStatic hm
      (hserved.isStatic.trans (beq_iff_eq.1 hstatic))
    exact ⟨k, _, by rw [hget]; exact hk, hm', hserved.name⟩
  · exact List.pairwise_map.2 (h.distinct.filter _)

end ObjectType

theorem creatorName_succ_ne (n : Nat) : creatorName (n + 1) ≠ creatorName 0 := by
  intro h
  have hchars : ("CreateInstance" ++ toString (n + 2)).toList = "CreateInstance".toList :=
    congrArg String.toList h
  rw [String.toList_append, List.append_right_eq_self, Nat.toString_eq_repr,
    Nat.toList_repr] at hchars
  exact Nat.toDigits_ne_nil hchars

theorem creatorName_injective : Function.Injective creatorName := by
  intro a b h
  cases a with
  | zero =>
    cases b with
    | zero => rfl
    | succ b => exact absurd h.symm (creatorName_succ_ne b)
  | succ a =>
    cases b with
    | zero => exact absurd h (creatorName_succ_ne a)
    | succ b =>
      have hchars : ("CreateInstance" ++ toString (a + 2)).toList =
          ("CreateInstance" ++ toString (b + 2)).toList := congrArg String.toList h
      simp only [String.toList_append, Nat.toString_eq_repr, Nat.toList_repr,
        List.append_cancel_left_eq] at hchars
      have hnumbers := congrArg (Nat.ofDigitChars 10 · 0) hchars
      simp only [Nat.ofDigitChars_toDigits (by decide : 1 < 10) (by decide : 10 ≤ 10)] at hnumbers
      omega

theorem ObjectType.Sound.factory {o : ObjectType} (h : o.Sound) (id : ObjectId) :
    (o.factory id).Sound := by
  refine ⟨?_, by simp [ObjectType.factory], by simp [ObjectType.factory],
    by simp [ObjectType.factory], ?_⟩
  · refine List.forall_mem_map.2 fun c hc => ?_
    have hmem : c.1 ∈ o.constructors :=
      List.mem_of_mem_filter (List.mem_of_getElem? (List.mem_zipIdx_iff_getElem?.1 hc))
    intro r hr
    rcases List.mem_append.1 hr with hr | hr
    · rw [show r = _ from List.mem_singleton.1 hr]
      rfl
    · obtain ⟨p, hp, rfl⟩ := List.mem_map.1 hr
      exact bound_constructors h.references hmem p hp
  · rw [ObjectType.factory, List.pairwise_map, List.pairwise_iff_getElem]
    intro i j hi hj hlt halike
    have hname := creatorName_injective halike.1
    simp only [List.getElem_zipIdx] at hname
    omega

theorem ObjectType.mem_derivedRoles {o : ObjectType} {id : ObjectId}
    {plan : DerivedRole × MemberSet} (h : plan ∈ o.derivedRoles id) :
    plan = (.default, o.keep false) ∨ plan = (.statics, o.keep true) ∨
      plan = (.factory, o.factory id) := by
  unfold ObjectType.derivedRoles at h
  simp only [List.mem_append] at h
  rcases h with (h | h) | h
  · split at h
    · exact Or.inl (List.mem_singleton.1 h)
    · simp at h
  · split at h
    · simp at h
    · exact Or.inr (Or.inl (List.mem_singleton.1 h))
  · split at h
    · exact Or.inr (Or.inr (List.mem_singleton.1 h))
    · simp at h

theorem ObjectType.Sound.derivedRoles {o : ObjectType} (h : o.Sound) (hw : o.Wired) (id : ObjectId)
    {plan : DerivedRole × MemberSet} (hplan : plan ∈ o.derivedRoles id) : plan.2.Sound := by
  rcases mem_derivedRoles hplan with rfl | rfl | rfl
  · exact h.keep hw false
  · exact h.keep hw true
  · exact h.factory id

theorem MemberSet.Sound.interfaceOf {members : MemberSet} (h : members.Sound) (id : ObjectId)
    (o : ObjectType) (role : DerivedRole) :
    (Derivation.interfaceOf id o role members).Sound := by
  refine ⟨?_, h.getters, h.distinct, ?_⟩
  · intro r hr
    unfold ObjectType.references at hr
    simp only [List.mem_append, List.mem_flatMap, List.mem_map] at hr
    rcases hr with ((⟨m, hm, hr⟩ | ⟨p, hp, rfl⟩) | ⟨e, he, rfl⟩) | ⟨c, hc, -⟩
    · exact h.methods m hm r hr
    · exact h.properties p hp
    · exact h.events e he
    · exact absurd hc List.not_mem_nil
  · intro hs
    exact absurd hs Bool.false_ne_true

end ComponentIdl
