import Mathlib.Data.List.Infix
import ComponentIdl.Proofs.Builder.Body

/-!
# Fragments of a property

A property is given in two fragments at most. A fragment is merged into the class or interface if it fits
to what is there, and is refused whole if it does not. Whatever is refused, a property that ends up
without a getter has been reported.
-/

namespace ComponentIdl

namespace Property

variable {p : Property} {next : Nat} {asked : List (PropertyRole × Nat)} {role : PropertyRole}

theorem position?_withAccessors_other (h : role ∉ asked.map Prod.fst) :
    (p.withAccessors next asked).position? role = p.position? role := by
  induction asked generalizing p next with
  | nil => rfl
  | cons a asked ih =>
    rw [List.map_cons, List.mem_cons, not_or] at h
    rw [withAccessors, ih h.2, position?_setPosition, if_neg h.1]

theorem position?_withAccessors (hnodup : (asked.map Prod.fst).Nodup) {k : Nat}
    {a : PropertyRole × Nat} (ha : asked[k]? = some a) :
    (p.withAccessors next asked).position? a.1 = some (next + k) := by
  induction asked generalizing p next k with
  | nil => exact absurd ha nofun
  | cons b asked ih =>
    rw [List.map_cons, List.nodup_cons] at hnodup
    cases k with
    | zero =>
      obtain rfl := Option.some.inj ha
      rw [withAccessors, position?_withAccessors_other hnodup.1, position?_setPosition, if_pos rfl,
        Nat.add_zero]
    | succ k =>
      rw [withAccessors, ih hnodup.2 ha, Nat.add_right_comm, Nat.add_assoc]

end Property

namespace Decl.Property

/-- The fragment is the second one of its property, of the same type as the first and static if the first
is. -/
def Continues (p : Property) (before : List Member) (o : ObjectType) : Prop :=
  ∃ q, fragmentsOf before p.name = [q] ∧ q.isStatic = p.isStatic ∧
    sameMeaning o.scope (.parse q.type) (.parse p.type) = true

/-- No event has the name, and the fragment is the first one of its property or continues it. -/
def Fits (p : Property) (before : List Member) (o : ObjectType) : Prop :=
  o.event? p.name = none ∧ (fragmentsOf before p.name = [] ∨ p.Continues before o)

/-- The fragment asks for no accessor that its property has already. -/
def FindsVacant (p : Property) (o : ObjectType) : Prop :=
  ∀ r i, o.property? p.name = some (r, i) → ∀ a ∈ p.requested, r.position? a.1 = none

end Decl.Property

/-- The class or interface takes the fragment in: the accessors that it asks for are added at the end, in
written order, and found at its property. All other accessors stay where they are. -/
structure ObjectType.Takes (o : ObjectType) (p : Decl.Property) (o' : ObjectType) : Prop where
  rest : o' = { o with methods := o'.methods, properties := o'.properties }
  added : ∃ r i, o'.property? p.name = some (r, i) ∧
    o'.methods = o.methods ++ p.requested.map (fun a => r.accessor a.1 a.2) ∧
    ∀ k a, p.requested[k]? = some a → r.position? a.1 = some (o.methods.length + k)
  kept : ∀ r ∈ o.properties, ∃ r' ∈ o'.properties, r'.SameKind r ∧
    ∀ role i, r.position? role = some i → r'.position? role = some i

namespace ObjectType

variable {o o' : ObjectType} {p : Decl.Property} {r : Property} {i : Nat}

theorem takes_addAccessors (hr : o.property? p.name = some (r, i))
    (hfree : ∀ a ∈ p.requested, r.position? a.1 = none) :
    o.Takes p (o.addAccessors i p.requested) := by
  have hnodup : (p.requested.map Prod.fst).Nodup := by
    have hasked := AccessorRequest.nodup_ofDecl p
    rwa [AccessorRequest.ofDecl_eq] at hasked
  have hindex := (property?_eq_some hr).1
  have hkind := r.sameKind_withAccessors o.methods.length p.requested
  have hadd := addAccessors_eq hindex p.requested
  refine ⟨by rw [hadd], ⟨_, i, property?_addAccessors_self hr p.requested, ?_, ?_⟩, ?_⟩
  · rw [hadd]
    simp only [hkind.accessor]
  · exact fun k a ha => Property.position?_withAccessors hnodup ha
  · intro q hq
    rw [hadd]
    rcases mem_modify_of_mem (f := fun q => q.withAccessors o.methods.length p.requested)
      (i := i) hq with ⟨hmem, hqi⟩ | hmem
    · obtain rfl : r = q := Option.some.inj (hindex.symm.trans hqi)
      refine ⟨_, hmem, hkind, fun role j hj => ?_⟩
      -- A role that has a position is not asked for.
      rw [Property.position?_withAccessors_other]
      · exact hj
      · intro hrole
        obtain ⟨a, ha, rfl⟩ := List.mem_map.1 hrole
        rw [hfree a ha] at hj
        exact absurd hj nofun
    · exact ⟨q, hmem, ⟨rfl, rfl, rfl⟩, fun _ _ hj => hj⟩

theorem takes_addFragment {count : Nat} (h : o.addFragment p count p.requested = .ok o') :
    o.Takes p o' := by
  obtain ⟨-, ⟨hnone, rfl⟩ | ⟨r, i, hr, -, -, -, hfree, rfl⟩⟩ := addFragment_cases h
  · obtain ⟨hrest, hadded, hkept⟩ := takes_addAccessors (property?_concat_self hnone) fun a _ => by
      cases a.1 <;> rfl
    refine ⟨?_, hadded, fun q hq => hkept q (List.mem_append_left _ hq)⟩
    rw [hrest]
  · refine takes_addAccessors hr fun a ha => ?_
    exact Option.not_isSome_iff_eq_none.1 (Bool.eq_false_iff.1 (hfree a ha))

namespace HasMembers

variable {scope : String} {ms : List Decl.Member} {q : Decl.Property}

theorem fits_iff (h : o.HasMembers scope ms) (hq : Decl.holder? ms p.name = some (.property q)) :
    p.Fits ms o ↔ Decl.fragmentsOf ms p.name = [q] ∧ q.agrees scope p = true := by
  obtain ⟨-, rest, hrest⟩ := Decl.fragmentsOf_of_property hq
  have hevent := h.event?_of_property hq
  have hagrees : q.agrees scope p = true ↔ q.isStatic = p.isStatic ∧
      sameMeaning o.scope (.parse q.type) (.parse p.type) = true := by
    unfold Decl.Property.agrees
    rw [Bool.and_eq_true, beq_iff_eq, h.within, and_comm]
  unfold Decl.Property.Fits
  rw [hagrees]
  constructor
  · rintro ⟨-, hnil | ⟨q', hone, hkind⟩⟩
    · rw [hrest] at hnil
      exact absurd hnil nofun
    · rw [hrest] at hone
      obtain ⟨rfl, rfl⟩ := List.cons.inj hone
      exact ⟨hrest, hkind⟩
  · exact fun ⟨hone, hkind⟩ => ⟨hevent, Or.inr ⟨q, hone, hkind⟩⟩

theorem findsVacant_iff (h : o.HasMembers scope ms)
    (hq : Decl.holder? ms p.name = some (.property q)) (hone : Decl.fragmentsOf ms p.name = [q]) :
    p.FindsVacant o ↔ q.overlaps p = false := by
  obtain ⟨r, i, hr, hrepresents⟩ := h.present p.name q hq
  have hvacant : p.FindsVacant o ↔ ∀ a ∈ p.requested, r.has a.1 = false := by
    unfold Decl.Property.FindsVacant Property.has
    simp only [hr, Option.some.injEq, Prod.mk.injEq, Option.isSome_eq_false_iff,
      Option.isNone_iff_eq_none]
    exact ⟨fun hall => hall r i ⟨rfl, rfl⟩, fun hall r' i' ⟨hr', _⟩ => hr' ▸ hall⟩
  rw [hvacant, Decl.Property.overlaps, List.any_eq_false]
  simp only [hrepresents.roles hone, Bool.not_eq_true]

theorem findsVacant_of_first (h : o.HasMembers scope ms)
    (hfirst : Decl.fragmentsOf ms p.name = []) : p.FindsVacant o := by
  have hnone : o.property? p.name = none := by
    refine h.absent p.name fun q hq => ?_
    obtain ⟨-, rest, hrest⟩ := Decl.fragmentsOf_of_property hq
    rw [hrest] at hfirst
    exact absurd hfirst nofun
  intro r i hr
  rw [hnone] at hr
  exact absurd hr nofun

/-- What becomes of a fragment is told by whether it fits and finds its accessors vacant. -/
theorem refusal?_cases (h : o.HasMembers scope ms) (p : Decl.Property) :
    (p.Fits ms o ∧ p.FindsVacant o ∧ (Decl.Member.property p).refusal? scope ms = none) ∨
      (p.Fits ms o ∧ ¬p.FindsVacant o ∧
        (Decl.Member.property p).refusal? scope ms = some .repeatedPropertyAccessor) ∨
      (¬p.Fits ms o ∧
        (Decl.Member.property p).refusal? scope ms = some .duplicateTypeMember) := by
  unfold Decl.Member.refusal?
  rcases Decl.holder?_cases ms p.name with hfree | ⟨e, he⟩ | ⟨q, hq⟩
  · have hfirst := Decl.fragmentsOf_of_none hfree
    exact Or.inl ⟨⟨(h.of_free hfree).1, Or.inl hfirst⟩, h.findsVacant_of_first hfirst,
      by simp only [hfree]⟩
  · refine Or.inr (Or.inr ⟨fun hfits => ?_, by simp only [he]⟩)
    exact h.event?_eq_none.1 hfits.1 e he
  · rw [h.fits_iff hq]
    simp only [hq]
    by_cases hlegal : (decide (2 ≤ (Decl.fragmentsOf ms p.name).length) || !q.agrees scope p) = true
    · refine Or.inr (Or.inr ⟨fun ⟨hone, hagrees⟩ => ?_, if_pos hlegal⟩)
      rw [hone, hagrees] at hlegal
      exact absurd hlegal Bool.false_ne_true
    · obtain ⟨-, rest, hrest⟩ := Decl.fragmentsOf_of_property hq
      rw [if_neg hlegal]
      simp only [Bool.or_eq_true, not_or, decide_eq_true_eq, Bool.not_eq_true', Bool.not_eq_false,
        hrest, List.length_cons] at hlegal
      have hone : Decl.fragmentsOf ms p.name = [q] := by
        rw [hrest, List.eq_nil_of_length_eq_zero (by omega : rest.length = 0)]
      rw [h.findsVacant_iff hq hone]
      by_cases hlap : q.overlaps p = true
      · exact Or.inr (Or.inl ⟨⟨hone, hlegal.2⟩, by rw [hlap]; exact nofun, if_pos hlap⟩)
      · exact Or.inl ⟨⟨hone, hlegal.2⟩, Bool.eq_false_iff.2 hlap, if_neg hlap⟩

end HasMembers

end ObjectType

namespace Builder

variable {b : Builder} {start : List Diagnostic} {scope : String} {id : ObjectId}
  {ms : List Decl.Member} {p : Decl.Property}

/-- The builder reports nothing of the fragment but what is wrong with its accessor body. -/
def accepts (b : Builder) (p : Decl.Property) : Bool :=
  (b.addProperty p).found == b.found ++ p.bodyFaults

/-- What becomes of a fragment that comes after the members `before` of the class or interface in a slot.
It is accepted, and taken, if no event has its name and it is the first one of its property, or continues
it and finds its accessors vacant. If not, it is reported once, and nothing else is done. -/
structure SettlesFragment (b : Builder) (id : ObjectId) (before : List Decl.Member)
    (p : Decl.Property) (o : ObjectType) : Prop where
  accepted_iff : b.accepts p = true ↔ o.event? p.name = none ∧
    (Decl.fragmentsOf before p.name = [] ∨ p.Continues before o ∧ p.FindsVacant o)
  taken : b.accepts p = true → ∃ o', o.Takes p o' ∧
    (b.addProperty p).store = b.store.modifyObject id fun _ => o'
  refused : b.accepts p = false → (b.addProperty p).store = b.store ∧
    ∃ kind, (b.addProperty p).found = b.found ++ p.bodyFaults ++ [.of kind p.line p.name] ∧
      (kind = .repeatedPropertyAccessor ∧ o.event? p.name = none ∧ p.Continues before o ∨
        kind = .duplicateTypeMember ∧ ¬(o.event? p.name = none ∧ p.Continues before o))

theorem Body.accepts_eq (h : Body start scope id ms b) (p : Decl.Property) :
    b.accepts p = ((Decl.Member.property p).refusal? scope ms).isNone := by
  obtain ⟨o, ho, hmembers⟩ := h.object
  unfold accepts
  rcases hmembers.fragment_cases p with ⟨kind, hrefusal, hadd⟩ | ⟨hrefusal, o', hadd, -⟩
  · rw [h.addProperty_error ho hadd, hrefusal]
    simp [report, noted]
  · rw [h.addProperty_ok ho hadd, hrefusal]
    simp [noted]

theorem Body.settlesFragment (h : Body start scope id ms b) (p : Decl.Property) :
    ∃ o, b.store.objects[id]? = some o ∧ b.SettlesFragment id ms p o := by
  obtain ⟨o, ho, hmembers⟩ := h.object
  have haccepts := h.accepts_eq p
  refine ⟨o, ho, ?_, ?_, ?_⟩
  · rw [haccepts]
    rcases hmembers.refusal?_cases p with ⟨hfits, hvacant, hr⟩ | ⟨-, hlap, hr⟩ | ⟨hunfit, hr⟩
    · rw [hr]
      exact ⟨fun _ => ⟨hfits.1, hfits.2.imp_right fun hcontinues => ⟨hcontinues, hvacant⟩⟩,
        fun _ => rfl⟩
    · rw [hr]
      refine ⟨nofun, fun hlegal => absurd ?_ hlap⟩
      exact hlegal.2.elim hmembers.findsVacant_of_first And.right
    · rw [hr]
      exact ⟨nofun, fun hlegal => absurd ⟨hlegal.1, hlegal.2.imp_right And.left⟩ hunfit⟩
  · intro hyes
    rw [haccepts, Option.isNone_iff_eq_none] at hyes
    rcases hmembers.fragment_cases p with ⟨kind, hrefusal, -⟩ | ⟨-, o', hok, -⟩
    · rw [hyes] at hrefusal
      exact absurd hrefusal nofun
    · exact ⟨o', ObjectType.takes_addFragment hok, by rw [h.addProperty_ok ho hok]⟩
  · intro hno
    rw [haccepts, Option.isNone_eq_false_iff, Option.isSome_iff_exists] at hno
    obtain ⟨kind, hkind⟩ := hno
    rcases hmembers.fragment_cases p with ⟨kind', hrefusal, herror⟩ | ⟨hrefusal, -⟩
    · obtain rfl : kind = kind' := Option.some.inj (hkind.symm.trans hrefusal)
      rw [h.addProperty_error ho herror]
      refine ⟨rfl, kind, rfl, ?_⟩
      rcases hmembers.refusal?_cases p with ⟨-, -, hr⟩ | ⟨hfits, hlap, hr⟩ | ⟨hunfit, hr⟩
      · rw [hkind] at hr
        exact absurd hr nofun
      · have hcontinues := hfits.2.resolve_left fun hfirst =>
          hlap (hmembers.findsVacant_of_first hfirst)
        exact Or.inl ⟨Option.some.inj (hkind.symm.trans hr), hfits.1, hcontinues⟩
      · exact Or.inr ⟨Option.some.inj (hkind.symm.trans hr),
          fun hlegal => hunfit ⟨hlegal.1, Or.inr hlegal.2⟩⟩
    · rw [hkind] at hrefusal
      exact absurd hrefusal nofun

/-- The fragments of a property that are accepted among the members. -/
def acceptedOf (b : Builder) (ms : List Decl.Member) (name : String) : List Decl.Property :=
  (withBefore ms).filterMap fun x =>
    (x.2.fragmentOf? name).filter fun p => (b.run (x.1.map Decl.Member.visit)).accepts p

theorem Body.length_fragmentsOf (h : Body start scope id ms b) (haccepts : b.accepts p = true) :
    (Decl.fragmentsOf ms p.name).length ≤ 1 := by
  obtain ⟨o, -, hsettles⟩ := h.settlesFragment p
  obtain ⟨-, hfragments⟩ := hsettles.accepted_iff.1 haccepts
  rcases hfragments with hnil | ⟨⟨q, hone, -⟩, -⟩
  · rw [hnil]
    exact Nat.zero_le _
  · rw [hone]
    exact Nat.le_refl _

theorem Body.sublist_acceptedOf (h : Body start scope id [] b) (ms : List Decl.Member)
    (name : String) : (b.acceptedOf ms name).Sublist ((Decl.fragmentsOf ms name).take 2) := by
  induction ms using List.reverseRecOn with
  | nil => exact .slnil
  | append_singleton ms m ih =>
    have hconcat : b.acceptedOf (ms ++ [m]) name = b.acceptedOf ms name ++
        ((m.fragmentOf? name).filter fun p =>
          (b.run (ms.map Decl.Member.visit)).accepts p).toList := by
      unfold acceptedOf
      rw [withBefore_concat, List.filterMap_append, List.filterMap_cons, List.filterMap_nil]
      dsimp only
      split <;> simp [*]
    have hgrown : ((Decl.fragmentsOf ms name).take 2).Sublist
        ((Decl.fragmentsOf (ms ++ [m]) name).take 2) := by
      rw [Decl.fragmentsOf_concat]
      exact (List.IsPrefix.take (List.prefix_append ..) 2).sublist
    rw [hconcat]
    cases hm : m.fragmentOf? name with
    | none =>
      rw [Option.filter_none, Option.toList_none, List.append_nil]
      exact ih.trans hgrown
    | some p =>
      obtain ⟨rfl, rfl⟩ := Decl.Member.fragmentOf?_eq_some hm
      cases haccepts : (b.run (ms.map Decl.Member.visit)).accepts p with
      | false =>
        rw [Option.filter_some, if_neg (Bool.eq_false_iff.1 haccepts), Option.toList_none,
          List.append_nil]
        exact ih.trans hgrown
      | true =>
        have hfew := (h.members ms).length_fragmentsOf haccepts
        have hlast : (Decl.Member.property p).fragmentOf? p.name = some p :=
          if_pos (beq_self_eq_true p.name)
        rw [List.nil_append] at hfew
        rw [List.take_of_length_le (by omega)] at ih
        rw [Option.filter_some, if_pos haccepts, Decl.fragmentsOf_concat, hlast, Option.toList_some,
          List.take_of_length_le (by rw [List.length_append, List.length_singleton]; omega)]
        exact ih.append_right [p]

/-- At the end of the body every property without a getter has been reported. -/
theorem Body.getters (h : Body start scope id ms b) :
    ∃ o new, b.closeObject.store.objects[id]? = some o ∧ b.closeObject.found = start ++ new ∧
      ∀ r ∈ o.properties, r.getter = none →
        ∃ d ∈ new, d.kind = .invalidPropertyAccessor ∧ d.symbol = r.name := by
  obtain ⟨hstore, o, ho, -, hfound⟩ := h.closeObject
  refine ⟨o, Decl.bodyReports scope ms ++ o.missingGetters b.malformed, by rw [hstore, ho],
    by rw [hfound, List.append_assoc], fun r hr hnone => ?_⟩
  by_cases hbad : r.name ∈ b.malformed
  · obtain ⟨p, hp, hname, hmalformed⟩ := h.malformed r.name hbad
    obtain ⟨d, hd, hkind, hsymbol⟩ := Decl.Property.faults_of_isMalformed hmalformed
    exact ⟨d, List.mem_append_left _ (Decl.faults_subset_bodyReports hp hd), hkind,
      hsymbol.trans hname⟩
  · refine ⟨.of .invalidPropertyAccessor r.line r.name, List.mem_append_right _ ?_, rfl, rfl⟩
    refine List.mem_map.2 ⟨r, List.mem_filter.2 ⟨hr, ?_⟩, rfl⟩
    simp [hnone, hbad]

/-- In the body of the class or interface in a slot, between its opening and its end, fragments are merged
or refused whole, and of each property no more than the first two are accepted. -/
structure MergesFragments (opened : Builder) (id : ObjectId) (ms : List Decl.Member)
    (closed : Builder) : Prop where
  settled : ∀ before p after, ms = before ++ .property p :: after →
    ∃ o, (opened.run (before.map Decl.Member.visit)).store.objects[id]? = some o ∧
      (opened.run (before.map Decl.Member.visit)).SettlesFragment id before p o
  accepted : ∀ name, (opened.acceptedOf ms name).Sublist ((Decl.fragmentsOf ms name).take 2)
  getters : ∃ o new, closed.store.objects[id]? = some o ∧ closed.found = opened.found ++ new ∧
    ∀ r ∈ o.properties, r.getter = none →
      ∃ d ∈ new, d.kind = .invalidPropertyAccessor ∧ d.symbol = r.name

variable {d : Decl.TypeDecl}

/-- The fragments in the body of a class or interface are passed over with the whole body, if the name of
the type is taken or no namespace is open, or they are merged or refused whole. -/
theorem fragments_merged (b : Builder) (hd : d.isObject = true) :
    ((b.visit d.openingVisit).focus = .skipped ∧ (b.run d.visits).store = b.store ∧
      (b.run d.visits).found = (b.visit d.openingVisit).found) ∨
    ∃ o, (b.visit d.openingVisit).store.objects = b.store.objects.push o ∧ o.name = d.name ∧
      (b.visit d.openingVisit).MergesFragments b.store.objects.size d.members (b.run d.visits) := by
  obtain ⟨close, hvisits, hclose⟩ := d.visits_of_isObject hd
  have hrun : b.run d.visits =
      ((b.visit d.openingVisit).run (d.members.map Decl.Member.visit)).closeObject := by
    rw [hvisits, run_cons, run_append, ← hclose]
    rfl
  rw [hrun]
  rcases b.opening_cases hd with ⟨hfocus, hstore⟩ | ⟨o, hopens⟩
  · left
    rw [skipped_members d.members hfocus]
    unfold closeObject
    simp only [hfocus]
    exact ⟨trivial, hstore, rfl⟩
  · right
    have hbody := hopens.body
    rw [← hopens.found] at hbody
    refine ⟨o, hopens.objects, hopens.name, fun before p after _ => ?_,
      hbody.sublist_acceptedOf d.members, ?_⟩
    · have hbefore := hbody.members before
      rw [List.nil_append] at hbefore
      exact hbefore.settlesFragment p
    · have hall := hbody.members d.members
      rw [List.nil_append] at hall
      exact hall.getters

/-- A class whose property comes in three fragments, with an event of another name between them. -/
def lantern : Decl.TypeDecl :=
  .classDecl ⟨"Lantern", 2, {}, [],
    [.property ⟨"Wick", 3, false, "Int32", some [⟨.set, 3⟩]⟩,
      .event ⟨"Lit", 4, false, "Action", none⟩,
      .property ⟨"Wick", 5, false, "Int32", some [⟨.get, 5⟩, ⟨.get, 6⟩]⟩,
      .property ⟨"Wick", 7, false, "Int32", some []⟩,
      .property ⟨"Lit", 8, false, "Int32", none⟩]⟩

def pier : Builder :=
  ({ assembly := "Harbor", store := {}, symbols := {} } : Builder).openBlock ⟨"Sea", 1, []⟩

theorem fragments_merged_lantern : lantern.isObject = true ∧
    (pier.visit lantern.openingVisit).MergesFragments 0 lantern.members (pier.run lantern.visits) := by
  refine ⟨rfl, ?_⟩
  have hsize : (pier.run lantern.visits).store.objects.size = 1 := by decide +kernel
  rcases pier.fragments_merged (d := lantern) rfl with ⟨-, hstore, -⟩ | ⟨o, -, -, hmerges⟩
  · rw [hstore] at hsize
    exact absurd hsize (by decide +kernel)
  · exact hmerges

example : (pier.run lantern.visits).found =
    [.of .duplicatePropertyAccessor 6 "Wick", .of .invalidPropertyAccessor 7 "Wick",
      .of .duplicateTypeMember 7 "Wick", .of .duplicateTypeMember 8 "Lit"] := by
  decide +kernel

end Builder

end ComponentIdl
