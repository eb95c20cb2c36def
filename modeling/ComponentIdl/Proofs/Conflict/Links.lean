import ComponentIdl.Proofs.Conflict.Own

/-!
# Which methods the check links

If the checks of a class or interface report nothing, a written method is linked as soon as some
inherited interface has a method like it. An accessor follows its property or event: it is linked
exactly if the nearest inherited member of that sort and name has such an accessor.
-/

namespace ComponentIdl.ObjectType

variable {o : ObjectType} {bases : List (ObjectId × ObjectType)} {m n : Method} {i k : Nat}

/-- The nearest inherited property of the name, with its position. -/
def nearestProperty? (bases : List (ObjectId × ObjectType)) (name : String) :
    Option (Property × Nat) :=
  bases.findSome? fun b => b.2.property? name

/-- The nearest inherited event of the name, with its position. -/
def nearestEvent? (bases : List (ObjectId × ObjectType)) (name : String) : Option (Event × Nat) :=
  bases.findSome? fun b => b.2.event? name

/-- The method at the position is an accessor that the nearest inherited member of the sort and name
of its own member lacks, or there is no such member. -/
def LeftOut (o : ObjectType) (bases : List (ObjectId × ObjectType)) (i : Nat) : Prop :=
  (∃ p ∈ o.properties, ∃ role, p.position? role = some i ∧
    ∀ q, nearestProperty? bases p.name = some q → q.1.has role = false) ∨
  (∃ e ∈ o.events, ∃ role, e.position role = i ∧ nearestEvent? bases e.name = none)

theorem Silent.linked_written (h : o.Silent bases) (hm : o.methods[i]? = some m)
    (hw : m.isWritten = true) {b : ObjectId × ObjectType} (hb : b ∈ bases) (hn : n ∈ b.2.methods)
    (halike : m.Alike n) : ∃ link, .linkMethod i link ∈ o.remarks bases := by
  have hsigned : ((bases.findSome? (signed? m.signature))).isSome = true := by
    rw [List.findSome?_isSome_iff]
    refine ⟨b, hb, ?_⟩
    unfold signed?
    rw [Option.isSome_map, List.find?_isSome]
    obtain ⟨j, hj⟩ := List.mem_iff_getElem?.1 hn
    exact ⟨(n, j), List.mem_zipIdx_iff_getElem?.2 hj, beq_iff_eq.2 halike.signature.symm⟩
  obtain ⟨inherited, hinherited⟩ := Option.isSome_iff_exists.1 hsigned
  have hmem : ∀ remark ∈ o.methodRemarks bases (m, i), remark ∈ o.remarks bases :=
    fun remark hr => mem_remarks.2 (Or.inr (Or.inr (Or.inl ⟨m, i, hm, hw, hr⟩)))
  unfold methodRemarks at hmem
  simp only [hinherited] at hmem
  split at hmem
  · exact ⟨_, hmem _ List.mem_cons_self⟩
  · exact (h.no_overload hm (hmem _ List.mem_cons_self)).elim

theorem mem_accessorLink {base : ObjectId} {own inherited : Option Nat} {link : MemberLink} :
    .linkMethod i link ∈ accessorLink base own inherited ↔
      own = some i ∧ ∃ j, inherited = some j ∧ link = ⟨base, j⟩ := by
  cases own with
  | none => simp [accessorLink]
  | some own =>
    cases inherited with
    | none => simp [accessorLink]
    | some inherited => simp [accessorLink, eq_comm]

/-- The links that an inherited property gives. -/
def propertyLinks (p : Property) (k : Nat) (base : ObjectId) (q : Property × Nat) : List Remark :=
  .linkProperty k ⟨base, q.2⟩ :: accessorLink base p.getter q.1.getter ++
    accessorLink base p.setter q.1.setter

/-- The links that an inherited event gives. -/
def eventLinks (e : Event) (k : Nat) (base : ObjectId) (d : Event × Nat) : List Remark :=
  [.linkEvent k ⟨base, d.2⟩, .linkMethod e.adder ⟨base, d.1.adder⟩,
    .linkMethod e.remover ⟨base, d.1.remover⟩]

theorem mem_propertyLinks {p : Property} {base : ObjectId} {q : Property × Nat} :
    (∃ link, .linkMethod i link ∈ propertyLinks p k base q) ↔
      ∃ role, p.position? role = some i ∧ q.1.has role = true := by
  unfold propertyLinks
  simp only [List.cons_append, List.mem_cons, reduceCtorEq, false_or, List.mem_append,
    mem_accessorLink]
  constructor
  · rintro ⟨link, ⟨hown, j, hj, -⟩ | ⟨hown, j, hj, -⟩⟩
    · exact ⟨.get, hown, by simp [Property.has, Property.position?, hj]⟩
    · exact ⟨.set, hown, by simp [Property.has, Property.position?, hj]⟩
  · rintro ⟨role, hown, hhas⟩
    obtain ⟨j, hj⟩ := Option.isSome_iff_exists.1 hhas
    cases role with
    | get => exact ⟨_, Or.inl ⟨hown, j, hj, rfl⟩⟩
    | set => exact ⟨_, Or.inr ⟨hown, j, hj, rfl⟩⟩

theorem mem_eventLinks {e : Event} {base : ObjectId} {d : Event × Nat} :
    (∃ link, .linkMethod i link ∈ eventLinks e k base d) ↔ ∃ role, e.position role = i := by
  unfold eventLinks
  simp only [List.mem_cons, reduceCtorEq, false_or, Remark.linkMethod.injEq, List.mem_nil_iff,
    or_false]
  constructor
  · rintro ⟨link, ⟨rfl, -⟩ | ⟨rfl, -⟩⟩
    · exact ⟨.add, rfl⟩
    · exact ⟨.remove, rfl⟩
  · rintro ⟨role, hi⟩
    cases role with
    | add => exact ⟨_, Or.inl ⟨hi.symm, rfl⟩⟩
    | remove => exact ⟨_, Or.inr ⟨hi.symm, rfl⟩⟩

/-- Verdicts without a diagnostic: the first one gives the links of the nearest member found. -/
theorem verdict_cases {γ : Type} {verdict : ObjectId × ObjectType → Option (List Remark)}
    {found : ObjectId × ObjectType → Option γ} {links : ObjectId → γ → List Remark}
    (hskip : ∀ b, verdict b = none → found b = none)
    (hverdict : ∀ b remarks, verdict b = some remarks →
      (∃ d, .report d ∈ remarks) ∨ ∃ q, found b = some q ∧ remarks = links b.1 q)
    (hsilent : ∀ d, .report d ∉ (bases.findSome? verdict).getD []) :
    (bases.findSome? found = none ∧ (bases.findSome? verdict).getD [] = []) ∨
      ∃ q base, bases.findSome? found = some q ∧
        (bases.findSome? verdict).getD [] = links base q := by
  cases hfirst : bases.findSome? verdict with
  | none =>
    left
    refine ⟨List.findSome?_eq_none_iff.2 ?_, rfl⟩
    exact fun b hb => hskip b (List.findSome?_eq_none_iff.1 hfirst b hb)
  | some remarks =>
    right
    rw [hfirst, Option.getD_some] at hsilent
    have hlinks : ∀ b, verdict b = some remarks →
        ∃ q, found b = some q ∧ ∃ base, remarks = links base q := by
      intro b hb
      rcases hverdict b remarks hb with ⟨d, hd⟩ | ⟨q, hq, hremarks⟩
      · exact absurd hd (hsilent d)
      · exact ⟨q, hq, b.1, hremarks⟩
    obtain ⟨q, hq, base, hremarks⟩ := findSome?_of_first hfirst hskip hlinks
    exact ⟨q, base, hq, hremarks⟩

theorem Silent.propertyRemarks_eq (h : o.Silent bases) {p : Property}
    (hp : o.properties[k]? = some p) :
    (nearestProperty? bases p.name = none ∧ o.propertyRemarks bases (p, k) = []) ∨
      ∃ q base, nearestProperty? bases p.name = some q ∧
        o.propertyRemarks bases (p, k) = propertyLinks p k base q := by
  refine verdict_cases ?_ ?_ fun d hd =>
    h.no_report (mem_remarks.2 (Or.inr (Or.inr (Or.inr (Or.inl ⟨p, k, hp, hd⟩)))))
  · intro b hb
    unfold propertyVerdict at hb
    split at hb
    · split at hb <;> simp at hb
    · assumption
  · intro b remarks hb
    unfold propertyVerdict at hb
    split at hb
    · next q hq =>
      split at hb
      · exact Or.inr ⟨q, hq, (Option.some.inj hb).symm⟩
      · exact Or.inl ⟨_, Option.some.inj hb ▸ List.mem_cons_self⟩
    · split at hb
      · exact Or.inl ⟨_, Option.some.inj hb ▸ List.mem_cons_self⟩
      · simp at hb

theorem Silent.eventRemarks_eq (h : o.Silent bases) {e : Event} (he : o.events[k]? = some e) :
    (nearestEvent? bases e.name = none ∧ o.eventRemarks bases (e, k) = []) ∨
      ∃ d base, nearestEvent? bases e.name = some d ∧
        o.eventRemarks bases (e, k) = eventLinks e k base d := by
  refine verdict_cases ?_ ?_ fun d hd =>
    h.no_report (mem_remarks.2 (Or.inr (Or.inr (Or.inr (Or.inr (Or.inl ⟨e, k, he, hd⟩))))))
  · intro b hb
    unfold eventVerdict at hb
    split at hb
    · split at hb <;> simp at hb
    · assumption
  · intro b remarks hb
    unfold eventVerdict at hb
    split at hb
    · next d hd =>
      split at hb
      · exact Or.inr ⟨d, hd, (Option.some.inj hb).symm⟩
      · exact Or.inl ⟨_, Option.some.inj hb ▸ List.mem_cons_self⟩
    · split at hb
      · exact Or.inl ⟨_, Option.some.inj hb ▸ List.mem_cons_self⟩
      · simp at hb

theorem Silent.linked_property (h : o.Silent bases) {p : Property}
    (hp : o.properties[k]? = some p) :
    (∃ link, .linkMethod i link ∈ o.propertyRemarks bases (p, k)) ↔
      ∃ q role, nearestProperty? bases p.name = some q ∧ p.position? role = some i ∧
        q.1.has role = true := by
  rcases h.propertyRemarks_eq hp with ⟨hnone, hnil⟩ | ⟨q, base, hq, hlinks⟩
  · simp [hnone, hnil]
  · rw [hlinks, mem_propertyLinks]
    constructor
    · rintro ⟨role, hrole, hhas⟩
      exact ⟨q, role, hq, hrole, hhas⟩
    · rintro ⟨q', role, hq', hrole, hhas⟩
      obtain rfl : q = q' := Option.some.inj (hq.symm.trans hq')
      exact ⟨role, hrole, hhas⟩

theorem Silent.linked_event (h : o.Silent bases) {e : Event} (he : o.events[k]? = some e) :
    (∃ link, .linkMethod i link ∈ o.eventRemarks bases (e, k)) ↔
      nearestEvent? bases e.name ≠ none ∧ ∃ role, e.position role = i := by
  rcases h.eventRemarks_eq he with ⟨hnone, hnil⟩ | ⟨d, base, hd, hlinks⟩
  · simp [hnone, hnil]
  · rw [hlinks, mem_eventLinks]
    simp [hd]

theorem linkMethod_cases {link : MemberLink} (h : .linkMethod i link ∈ o.remarks bases) :
    (∃ m, o.methods[i]? = some m ∧ m.isWritten = true ∧
        .linkMethod i link ∈ o.methodRemarks bases (m, i)) ∨
      (∃ p k, o.properties[k]? = some p ∧ .linkMethod i link ∈ o.propertyRemarks bases (p, k)) ∨
      ∃ e k, o.events[k]? = some e ∧ .linkMethod i link ∈ o.eventRemarks bases (e, k) := by
  rcases mem_remarks.1 h with h | h | ⟨m, j, hm, hw, h⟩ | h | h | h
  · obtain ⟨x, -, hx⟩ := List.mem_flatMap.1 h
    split at hx
    · split at hx <;> simp at hx
    · simp at hx
  · obtain ⟨x, -, hx⟩ := List.mem_flatMap.1 h
    rcases List.mem_append.1 hx with hx | hx
    · obtain ⟨p, -, hp⟩ := List.mem_flatMap.1 hx
      unfold propertyClash at hp
      split at hp <;> simp at hp
    · obtain ⟨e, -, he⟩ := List.mem_flatMap.1 hx
      unfold eventClash at he
      split at he <;> simp at he
  · left
    have hindex : i = j := by
      unfold methodRemarks at h
      split at h
      · simp at h
      · split at h
        · rw [List.mem_singleton, Remark.linkMethod.injEq] at h
          exact h.1
        · simp at h
    subst hindex
    exact ⟨m, hm, hw, h⟩
  · exact Or.inr (Or.inl h)
  · exact Or.inr (Or.inr h)
  · unfold instanceMembers at h
    split at h <;> simp at h

theorem Silent.not_leftOut (h : o.Silent bases) (hw : o.Wired) (hm : o.methods[i]? = some m)
    {link : MemberLink} (hlink : .linkMethod i link ∈ o.remarks bases) : ¬ o.LeftOut bases i := by
  intro hleft
  rcases linkMethod_cases hlink with ⟨m', hm', hwritten, -⟩ | ⟨p, k, hk, hmem⟩ | ⟨e, k, hk, hmem⟩
  · obtain rfl : m = m' := Option.some.inj (hm.symm.trans hm')
    have horigin := isWritten_iff.1 hwritten
    rcases hleft with ⟨p, hp, role, hrole, -⟩ | ⟨e, he, role, hrole, -⟩
    · simp [(hw.property_served hm hp hrole).origin] at horigin
    · simp [(hw.event_served hm he hrole).origin] at horigin
  · have hp := List.mem_of_getElem? hk
    obtain ⟨q, role, hq, hrole, hhas⟩ := (h.linked_property hk).1 ⟨link, hmem⟩
    rcases hleft with ⟨p', hp', role', hrole', hlacks⟩ | ⟨e, he, role', hrole', -⟩
    · obtain ⟨rfl, rfl⟩ := hw.property_unique hp hp' hrole hrole'
      simp [hlacks q hq] at hhas
    · have horigin := (hw.property_served hm hp hrole).origin
      simp [(hw.event_served hm he hrole').origin] at horigin
  · have he := List.mem_of_getElem? hk
    obtain ⟨hnone, role, hrole⟩ := (h.linked_event hk).1 ⟨link, hmem⟩
    rcases hleft with ⟨p, hp, role', hrole', -⟩ | ⟨e', he', role', hrole', hnone'⟩
    · have horigin := (hw.event_served hm he hrole).origin
      simp [(hw.property_served hm hp hrole').origin] at horigin
    · obtain ⟨rfl, -⟩ := hw.event_unique he he' (hrole.trans hrole'.symm)
      exact hnone hnone'

theorem Silent.linked (h : o.Silent bases) (hw : o.Wired) (hm : o.methods[i]? = some m)
    (hinherited : m.isWritten = true → ∃ b ∈ bases, ∃ n ∈ b.2.methods, m.Alike n)
    (hleft : ¬ o.LeftOut bases i) : ∃ link, .linkMethod i link ∈ o.remarks bases := by
  rcases hw.served_cases hm with ho | ⟨p, hp, role, hrole, -⟩ | ⟨e, he, role, hrole, -⟩
  · have hwritten := isWritten_iff.2 ho
    obtain ⟨b, hb, n, hn, halike⟩ := hinherited hwritten
    exact h.linked_written hm hwritten hb hn halike
  · obtain ⟨k, hk⟩ := List.mem_iff_getElem?.1 hp
    obtain ⟨q, hq, hhas⟩ : ∃ q, nearestProperty? bases p.name = some q ∧ q.1.has role = true := by
      by_contra hlacks
      refine hleft (Or.inl ⟨p, hp, role, hrole, fun q hq => ?_⟩)
      exact Bool.eq_false_iff.2 fun hhas => hlacks ⟨q, hq, hhas⟩
    obtain ⟨link, hlink⟩ := (h.linked_property hk).2 ⟨q, role, hq, hrole, hhas⟩
    exact ⟨link, mem_remarks.2 (Or.inr (Or.inr (Or.inr (Or.inl ⟨p, k, hk, hlink⟩))))⟩
  · obtain ⟨k, hk⟩ := List.mem_iff_getElem?.1 he
    have hnone : nearestEvent? bases e.name ≠ none :=
      fun hnone => hleft (Or.inr ⟨e, he, role, hrole, hnone⟩)
    obtain ⟨link, hlink⟩ := (h.linked_event hk).2 ⟨hnone, role, hrole⟩
    exact ⟨link, mem_remarks.2 (Or.inr (Or.inr (Or.inr (Or.inr (Or.inl ⟨e, k, hk, hlink⟩)))))⟩

/-- Without a diagnostic, the methods left out are those that are not linked, among all accessors
and the written methods like an inherited one. -/
theorem Silent.linked_iff (h : o.Silent bases) (hw : o.Wired) (hm : o.methods[i]? = some m)
    (hinherited : m.isWritten = true → ∃ b ∈ bases, ∃ n ∈ b.2.methods, m.Alike n) :
    (∃ link, .linkMethod i link ∈ o.remarks bases) ↔ ¬ o.LeftOut bases i :=
  ⟨fun ⟨_, hlink⟩ => h.not_leftOut hw hm hlink, h.linked hw hm hinherited⟩

end ComponentIdl.ObjectType
