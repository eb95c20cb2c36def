import ComponentIdl.Proofs.Conflict.Links

/-!
# What the check of members reports

The diagnostics of a class or interface are those of its remarks. Each group of remarks has its own
kinds of diagnostics, and only overloads are dropped where they repeat.
-/

namespace ComponentIdl

namespace Remark

variable {ms : List Method} {kind : Diagnostic.Kind} {remark : Remark} {remarks : List Remark}

/-- The kind of the diagnostic that a remark can have. -/
def kind? : Remark → Option Diagnostic.Kind
  | .report d => some d.kind
  | .overload _ => some .cannotOverload
  | _ => none

theorem kind?_of_diagnostic? {d : Diagnostic} (h : remark.diagnostic? ms = some d) :
    remark.kind? = some d.kind := by
  cases remark with
  | report d' => exact congrArg (fun d => some d.kind) (Option.some.inj h)
  | overload index =>
    obtain ⟨m, -, rfl⟩ := Option.map_eq_some_iff.1 h
    rfl
  | linkMethod index base => simp [diagnostic?] at h
  | linkProperty index base => simp [diagnostic?] at h
  | linkEvent index base => simp [diagnostic?] at h

/-- The diagnostics of one kind. -/
def faults (ms : List Method) (kind : Diagnostic.Kind) (remarks : List Remark) : List Diagnostic :=
  (remarks.filterMap (diagnostic? ms)).filter fun d => d.kind == kind

theorem faults_append (remarks more : List Remark) :
    faults ms kind (remarks ++ more) = faults ms kind remarks ++ faults ms kind more := by
  unfold faults
  rw [List.filterMap_append, List.filter_append]

theorem faults_flatMap {α : Type} (f : α → List Remark) (as : List α) :
    faults ms kind (as.flatMap f) = as.flatMap fun a => faults ms kind (f a) := by
  induction as with
  | nil => rfl
  | cons a as ih => rw [List.flatMap_cons, List.flatMap_cons, faults_append, ih]

theorem faults_eq_nil (h : ∀ remark ∈ remarks, remark.kind? ≠ some kind) :
    faults ms kind remarks = [] := by
  refine List.filter_eq_nil_iff.2 fun d hd => ?_
  obtain ⟨remark, hmem, hremark⟩ := List.mem_filterMap.1 hd
  rw [beq_iff_eq]
  rintro rfl
  exact h remark hmem (kind?_of_diagnostic? hremark)

theorem faults_cons_overload (hkind : kind ≠ .cannotOverload) (index : Nat) :
    faults ms kind (.overload index :: remarks) = faults ms kind remarks := by
  have hfirst : faults ms kind [.overload index] = [] :=
    faults_eq_nil fun remark hmem => by
      rw [List.mem_singleton.1 hmem]
      exact fun heq => hkind (Option.some.inj heq).symm
  rw [← List.singleton_append, faults_append, hfirst, List.nil_append]

theorem faults_withoutRepeats (hkind : kind ≠ .cannotOverload) (seen : List Nat)
    (remarks : List Remark) :
    faults ms kind (withoutRepeats seen remarks) = faults ms kind remarks := by
  induction remarks generalizing seen with
  | nil => rfl
  | cons first rest ih =>
    have hother : faults ms kind (first :: withoutRepeats seen rest) =
        faults ms kind (first :: rest) := by
      rw [← List.singleton_append, faults_append, ih, ← faults_append, List.singleton_append]
    cases first with
    | overload index =>
      rw [faults_cons_overload hkind]
      unfold withoutRepeats
      split
      · exact ih seen
      · rw [faults_cons_overload hkind, ih]
    | report d => exact hother
    | linkMethod index base => exact hother
    | linkProperty index base => exact hother
    | linkEvent index base => exact hother

/-- The position of a method that may not be an overload. -/
def overload? : Remark → Option Nat
  | .overload index => some index
  | _ => none

theorem overload?_eq_some {index : Nat} : remark.overload? = some index ↔ remark = .overload index := by
  cases remark <;> simp [overload?]

theorem mem_overloads {index : Nat} :
    index ∈ remarks.filterMap overload? ↔ .overload index ∈ remarks := by
  simp [List.mem_filterMap, overload?_eq_some]

/-- An overload is kept once. -/
theorem nodup_overloads (seen : List Nat) (remarks : List Remark) :
    ((withoutRepeats seen remarks).filterMap overload?).Nodup ∧
      ∀ index ∈ (withoutRepeats seen remarks).filterMap overload?, index ∉ seen := by
  induction remarks generalizing seen with
  | nil => exact ⟨.nil, nofun⟩
  | cons first rest ih =>
    cases first with
    | overload index =>
      unfold withoutRepeats
      split
      · exact ih seen
      · next hseen =>
        obtain ⟨hnodup, hfresh⟩ := ih (index :: seen)
        have hseen' : index ∉ seen := by simpa using hseen
        refine ⟨List.nodup_cons.2 ⟨fun hmem => hfresh index hmem List.mem_cons_self, hnodup⟩, ?_⟩
        intro other hother
        rcases List.mem_cons.1 hother with rfl | hother
        · exact hseen'
        · exact fun hmem => hfresh other hother (List.mem_cons_of_mem _ hmem)
    | report d => exact ih seen
    | linkMethod index base => exact ih seen
    | linkProperty index base => exact ih seen
    | linkEvent index base => exact ih seen

/-- Where nothing else is reported as an overload, the overloads are. -/
theorem faults_cannotOverload
    (h : ∀ d, .report d ∈ remarks → d.kind ≠ .cannotOverload) :
    faults ms .cannotOverload remarks = (remarks.filterMap overload?).filterMap fun index =>
      (ms[index]?).map fun m => .of .cannotOverload m.line m.name := by
  unfold faults
  rw [List.filter_filterMap, List.filterMap_filterMap]
  apply List.filterMap_congr
  intro remark hmem
  cases remark with
  | report d => simp [diagnostic?, overload?, h d hmem]
  | overload index => cases hm : ms[index]? <;> simp [diagnostic?, overload?, hm, Diagnostic.of]
  | linkMethod index base => rfl
  | linkProperty index base => rfl
  | linkEvent index base => rfl

end Remark

namespace ObjectType

variable {o : ObjectType} {bases : List (ObjectId × ObjectType)} {remark : Remark}

theorem mem_signatureClashes (h : remark ∈ o.signatureClashes) :
    ∃ index, remark = .overload index := by
  obtain ⟨m, -, hm⟩ := List.mem_flatMap.1 h
  split at hm
  · split at hm
    · exact absurd hm List.not_mem_nil
    · simp only [List.mem_cons, List.mem_nil_iff, or_false] at hm
      rcases hm with rfl | rfl <;> exact ⟨_, rfl⟩
  · exact absurd hm List.not_mem_nil

theorem kind?_accessorClashes (h : remark ∈ o.accessorClashes) :
    remark.kind? = some .duplicatePropertyAccessor ∨
      remark.kind? = some .conflictingEventAccessor ∨ ∃ index, remark = .overload index := by
  obtain ⟨m, -, hm⟩ := List.mem_flatMap.1 h
  rcases List.mem_append.1 hm with hm | hm
  · obtain ⟨p, -, hp⟩ := List.mem_flatMap.1 hm
    unfold propertyClash at hp
    split at hp
    · simp only [List.mem_cons, List.mem_nil_iff, or_false] at hp
      rcases hp with rfl | rfl
      · exact Or.inl rfl
      · exact Or.inr (Or.inr ⟨_, rfl⟩)
    · exact absurd hp List.not_mem_nil
  · obtain ⟨e, -, he⟩ := List.mem_flatMap.1 hm
    unfold eventClash at he
    split at he
    · simp only [List.mem_cons, List.mem_nil_iff, or_false] at he
      rcases he with rfl | rfl
      · exact Or.inr (Or.inl rfl)
      · exact Or.inr (Or.inr ⟨_, rfl⟩)
    · exact absurd he List.not_mem_nil

theorem mem_methodRemarks {m : Method × Nat} (h : remark ∈ o.methodRemarks bases m) :
    (∃ base, remark = .linkMethod m.2 base) ∨ remark = .overload m.2 := by
  unfold methodRemarks at h
  split at h
  · exact absurd h List.not_mem_nil
  · split at h
    · exact Or.inl ⟨_, List.mem_singleton.1 h⟩
    · exact Or.inr (List.mem_singleton.1 h)

theorem eq_linkMethod_of_accessorLink {base : ObjectId} {own inherited : Option Nat}
    (h : remark ∈ accessorLink base own inherited) : ∃ i link, remark = .linkMethod i link := by
  unfold accessorLink at h
  split at h
  · exact ⟨_, _, List.mem_singleton.1 h⟩
  · exact absurd h List.not_mem_nil

theorem propertyLinks_cases {p : Property} {k : Nat} {base : ObjectId} {q : Property × Nat}
    (h : remark ∈ propertyLinks p k base q) :
    remark = .linkProperty k ⟨base, q.2⟩ ∨ ∃ i link, remark = .linkMethod i link := by
  unfold propertyLinks at h
  rw [List.cons_append, List.mem_cons, List.mem_append] at h
  rcases h with h | h | h
  · exact Or.inl h
  · exact Or.inr (eq_linkMethod_of_accessorLink h)
  · exact Or.inr (eq_linkMethod_of_accessorLink h)

theorem kind?_propertyLinks {p : Property} {k : Nat} {base : ObjectId} {q : Property × Nat}
    (h : remark ∈ propertyLinks p k base q) : remark.kind? = none := by
  rcases propertyLinks_cases h with rfl | ⟨i, link, rfl⟩ <;> rfl

theorem kind?_eventLinks {e : Event} {k : Nat} {base : ObjectId} {d : Event × Nat}
    (h : remark ∈ eventLinks e k base d) : remark.kind? = none := by
  simp only [eventLinks, List.mem_cons, List.mem_nil_iff, or_false] at h
  rcases h with rfl | rfl | rfl <;> rfl

/-- An inherited property gives links to a class with the same type, and one report otherwise. -/
theorem propertyRemarks_cases (o : ObjectType) (bases : List (ObjectId × ObjectType))
    (p : Property × Nat) :
    o.propertyRemarks bases p = [] ∨
      (∃ kind, (kind = .duplicateTypeMember ∨ kind = .conflictingInheritance) ∧
        o.propertyRemarks bases p = [.report (.of kind p.1.line p.1.name)]) ∨
      ∃ b ∈ bases, ∃ q, b.2.property? p.1.name = some q ∧ o.isClass = true ∧
        q.1.type.agrees p.1.type = true ∧
        o.propertyRemarks bases p = propertyLinks p.1 p.2 b.1 q := by
  unfold propertyRemarks
  cases hfirst : bases.findSome? (o.propertyVerdict p) with
  | none => exact Or.inl rfl
  | some remarks =>
    right
    obtain ⟨b, hb, hverdict⟩ := List.exists_of_findSome?_eq_some hfirst
    unfold propertyVerdict at hverdict
    split at hverdict
    · next q hq =>
      split at hverdict
      · next hfits =>
        obtain ⟨hclass, htype⟩ := Bool.and_eq_true_iff.1 hfits
        exact Or.inr ⟨b, hb, q, hq, hclass, htype, (Option.some.inj hverdict).symm⟩
      · exact Or.inl ⟨_, Or.inl rfl, (Option.some.inj hverdict).symm⟩
    · split at hverdict
      · exact Or.inl ⟨_, Or.inr rfl, (Option.some.inj hverdict).symm⟩
      · exact absurd hverdict (by simp)

theorem eventRemarks_cases (o : ObjectType) (bases : List (ObjectId × ObjectType))
    (e : Event × Nat) :
    o.eventRemarks bases e = [] ∨
      (∃ kind, (kind = .duplicateTypeMember ∨ kind = .conflictingInheritance) ∧
        o.eventRemarks bases e = [.report (.of kind e.1.line e.1.name)]) ∨
      ∃ b ∈ bases, ∃ d, b.2.event? e.1.name = some d ∧ o.isClass = true ∧
        d.1.type.agrees e.1.type = true ∧
        o.eventRemarks bases e = eventLinks e.1 e.2 b.1 d := by
  unfold eventRemarks
  cases hfirst : bases.findSome? (o.eventVerdict e) with
  | none => exact Or.inl rfl
  | some remarks =>
    right
    obtain ⟨b, hb, hverdict⟩ := List.exists_of_findSome?_eq_some hfirst
    unfold eventVerdict at hverdict
    split at hverdict
    · next d hd =>
      split at hverdict
      · next hfits =>
        obtain ⟨hclass, htype⟩ := Bool.and_eq_true_iff.1 hfits
        exact Or.inr ⟨b, hb, d, hd, hclass, htype, (Option.some.inj hverdict).symm⟩
      · exact Or.inl ⟨_, Or.inl rfl, (Option.some.inj hverdict).symm⟩
    · split at hverdict
      · exact Or.inl ⟨_, Or.inr rfl, (Option.some.inj hverdict).symm⟩
      · exact absurd hverdict (by simp)

theorem kind?_propertyRemarks {p : Property × Nat} (h : remark ∈ o.propertyRemarks bases p) :
    remark.kind? ≠ some .cannotOverload := by
  rcases propertyRemarks_cases o bases p with hnil | ⟨kind, hkind, hreport⟩ |
      ⟨b, -, q, -, -, -, hlinks⟩
  · rw [hnil] at h
    exact absurd h List.not_mem_nil
  · rw [hreport, List.mem_singleton] at h
    rcases hkind with rfl | rfl <;> simp [h, Remark.kind?, Diagnostic.of]
  · rw [hlinks] at h
    simp [kind?_propertyLinks h]

theorem kind?_eventRemarks {e : Event × Nat} (h : remark ∈ o.eventRemarks bases e) :
    remark.kind? ≠ some .cannotOverload := by
  rcases eventRemarks_cases o bases e with hnil | ⟨kind, hkind, hreport⟩ |
      ⟨b, -, d, -, -, -, hlinks⟩
  · rw [hnil] at h
    exact absurd h List.not_mem_nil
  · rw [hreport, List.mem_singleton] at h
    rcases hkind with rfl | rfl <;> simp [h, Remark.kind?, Diagnostic.of]
  · rw [hlinks] at h
    simp [kind?_eventLinks h]

theorem mem_instanceMembers (h : remark ∈ o.instanceMembers) :
    ∃ line name, remark = .report (.of .staticMemberOnly line name) := by
  unfold instanceMembers at h
  split at h
  · simp only [List.mem_append, List.mem_map] at h
    rcases h with ((⟨_, -, rfl⟩ | ⟨_, -, rfl⟩) | ⟨_, -, rfl⟩) | ⟨_, -, rfl⟩ <;> exact ⟨_, _, rfl⟩
  · exact absurd h List.not_mem_nil

end ObjectType

/-- What the check of members says about the class or interface `id`. -/
def Store.memberFaults (st : Store) (id : ObjectId) : List Diagnostic :=
  match st.objects[id]? with
  | some o => (o.remarks (st.ancestors id)).filterMap (Remark.diagnostic? o.methods)
  | none => []

theorem Store.filter_memberFaults {st : Store} {id : ObjectId} {o : ObjectType}
    (ho : st.objects[id]? = some o) (kind : Diagnostic.Kind) :
    ((st.memberFaults id).filter fun d => d.kind == kind) =
      Remark.faults o.methods kind (o.remarks (st.ancestors id)) := by
  unfold memberFaults
  rw [ho]
  rfl

/-- The check reports what it says about each class and interface, in the order of their slots. -/
theorem Workspace.entries_checkMembers (w : Workspace) :
    w.checkMembers.1.report.entries =
      w.report.entries ++ (List.range w.store.objects.size).flatMap w.store.memberFaults := by
  refine congrArg (w.report.entries ++ ·) ?_
  unfold Store.memberRemarks
  rw [flatMap_mapIdx, Array.length_toList]
  refine List.flatMap_congr fun id _ => ?_
  unfold Store.memberFaults
  rw [Array.getElem?_toList]
  cases w.store.objects[id]? <;> rfl

end ComponentIdl
