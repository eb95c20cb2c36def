import ComponentIdl.Proofs.Compile
import ComponentIdl.Proofs.Conflict.Reports
import ComponentIdl.Proofs.Inheritance

/-!
# Methods that may not be overloads

A written method is reported as an overload if another one has its signature, if it is called like an
accessor, or if an inherited method has its signature and the first of these cannot be linked. However
many of the reasons hold, and with however many members it clashes, it is reported once.
-/

namespace ComponentIdl

instance {P : PropertyRole → Prop} [DecidablePred P] : Decidable (∃ role, P role) :=
  decidable_of_iff (P .get ∨ P .set)
    ⟨fun h => h.elim (fun h => ⟨.get, h⟩) fun h => ⟨.set, h⟩,
      fun ⟨role, h⟩ => match role with
        | .get => Or.inl h
        | .set => Or.inr h⟩

instance {P : EventRole → Prop} [DecidablePred P] : Decidable (∃ role, P role) :=
  decidable_of_iff (P .add ∨ P .remove)
    ⟨fun h => h.elim (fun h => ⟨.add, h⟩) fun h => ⟨.remove, h⟩,
      fun ⟨role, h⟩ => match role with
        | .add => Or.inl h
        | .remove => Or.inr h⟩

namespace ObjectType

/-- Another written method has the signature. -/
def SharesSignature (o : ObjectType) (m : Method × Nat) : Prop :=
  ∃ n ∈ o.writtenMethods, n.2 ≠ m.2 ∧ n.1.signature = m.1.signature

/-- A property that has the accessor, or an event, has an accessor of the name. -/
def CalledLikeAccessor (o : ObjectType) (m : Method) : Prop :=
  (∃ p ∈ o.properties, ∃ role, p.has role = true ∧ m.name = role.methodName p.name) ∨
    ∃ e ∈ o.events, ∃ role : EventRole, m.name = role.methodName e.name

/-- The first inherited method with the signature: that of the nearest interface, and the first one
there. -/
def firstInherited? (bases : List (ObjectId × ObjectType)) (m : Method) : Option Method :=
  (bases.flatMap fun b => b.2.methods).find? fun n => n.signature == m.signature

/-- The first inherited method with the signature is not one that a class can declare again. -/
def ClashesInherited (o : ObjectType) (bases : List (ObjectId × ObjectType)) (m : Method) : Prop :=
  ∃ n ∈ firstInherited? bases m,
    o.isInterface = true ∨ n.isWritten = false ∨ resultsAgree n.result m.result = false

def Overloads (o : ObjectType) (bases : List (ObjectId × ObjectType)) (m : Method × Nat) : Prop :=
  o.SharesSignature m ∨ o.CalledLikeAccessor m.1 ∨ o.ClashesInherited bases m.1

instance (o : ObjectType) (m : Method × Nat) : Decidable (o.SharesSignature m) :=
  inferInstanceAs (Decidable (∃ n ∈ o.writtenMethods, n.2 ≠ m.2 ∧ n.1.signature = m.1.signature))

instance (o : ObjectType) (m : Method) : Decidable (o.CalledLikeAccessor m) :=
  inferInstanceAs (Decidable (
    (∃ p ∈ o.properties, ∃ role, p.has role = true ∧ m.name = role.methodName p.name) ∨
      ∃ e ∈ o.events, ∃ role : EventRole, m.name = role.methodName e.name))

instance (o : ObjectType) (bases : List (ObjectId × ObjectType)) (m : Method) :
    Decidable (o.ClashesInherited bases m) :=
  inferInstanceAs (Decidable (∃ n ∈ firstInherited? bases m,
    o.isInterface = true ∨ n.isWritten = false ∨ resultsAgree n.result m.result = false))

instance (o : ObjectType) (bases : List (ObjectId × ObjectType)) :
    DecidablePred (o.Overloads bases) := fun m =>
  inferInstanceAs (Decidable
    (o.SharesSignature m ∨ o.CalledLikeAccessor m.1 ∨ o.ClashesInherited bases m.1))

variable {o : ObjectType} {bases : List (ObjectId × ObjectType)} {m : Method} {i : Nat}

theorem mem_writtenMethods :
    (m, i) ∈ o.writtenMethods ↔ o.methods[i]? = some m ∧ m.isWritten = true := by
  unfold writtenMethods
  rw [List.mem_filter, List.mem_zipIdx_iff_getElem?]

theorem nodup_writtenMethods (o : ObjectType) : (o.writtenMethods.map Prod.snd).Nodup := by
  have hpositions : (o.methods.zipIdx.map Prod.snd).Nodup := by
    rw [List.zipIdx_map_snd]
    exact List.nodup_range'
  exact hpositions.sublist (List.filter_sublist.map Prod.snd)

theorem mem_signed {k : Identity × Nat} :
    k ∈ (o.writtenMethods.map fun m => (m.1.signature, m.2)) ↔
      ∃ m, (m, k.2) ∈ o.writtenMethods ∧ m.signature = k.1 := by
  rw [List.mem_map]
  constructor
  · rintro ⟨m, hm, rfl⟩
    exact ⟨m.1, hm, rfl⟩
  · rintro ⟨m, hm, hsignature⟩
    exact ⟨(m, k.2), hm, Prod.ext hsignature rfl⟩

/-- Every method after the first one with its signature clashes, and so does the first one. -/
theorem overload_signatureClashes : .overload i ∈ o.signatureClashes ↔
    ∃ m, (m, i) ∈ o.writtenMethods ∧ o.SharesSignature (m, i) := by
  unfold signatureClashes SharesSignature
  dsimp only
  generalize hsigned : (o.writtenMethods.map fun m => (m.1.signature, m.2)) = signed
  have hmem : ∀ {k : Identity × Nat}, k ∈ signed ↔
      ∃ m, (m, k.2) ∈ o.writtenMethods ∧ m.signature = k.1 := fun {k} => hsigned ▸ mem_signed
  rw [List.mem_flatMap]
  constructor
  · rintro ⟨k, hk, h⟩
    cases hfind : signed.find? fun first => first.1 == k.1 with
    | none =>
      rw [hfind] at h
      exact absurd h List.not_mem_nil
    | some first =>
      rw [hfind] at h
      dsimp only at h
      split at h
      · exact absurd h List.not_mem_nil
      · next hne =>
        obtain ⟨m, hm, hsm⟩ := hmem.1 hk
        obtain ⟨n, hn, hsn⟩ := hmem.1 (List.mem_of_find?_eq_some hfind)
        have hsame : n.signature = m.signature := by
          rw [hsm, hsn]
          simpa using List.find?_some hfind
        simp only [List.mem_cons, Remark.overload.injEq, List.mem_nil_iff, or_false] at h
        rcases h with rfl | rfl
        · exact ⟨n, hn, (m, k.2), hm, Ne.symm hne, hsame.symm⟩
        · exact ⟨m, hm, (n, first.2), hn, hne, hsame⟩
  · rintro ⟨m, hm, n, hn, hne, hsame⟩
    have hkm : (m.signature, i) ∈ signed := hmem.2 ⟨m, hm, rfl⟩
    have hkn : (m.signature, n.2) ∈ signed := hmem.2 ⟨n.1, hn, hsame⟩
    cases hfind : signed.find? fun first => first.1 == m.signature with
    | none =>
      have hnot := List.find?_eq_none.1 hfind _ hkm
      simp at hnot
    | some first =>
      -- The method is the first one of its signature, or it comes after that.
      by_cases hfirst : first.2 = i
      · refine ⟨_, hkn, ?_⟩
        rw [hfind]
        dsimp only
        rw [if_neg fun heq => hne (heq.symm.trans hfirst), hfirst]
        exact List.mem_cons_self
      · refine ⟨_, hkm, ?_⟩
        rw [hfind]
        dsimp only
        rw [if_neg hfirst]
        exact List.mem_cons_of_mem _ List.mem_cons_self

theorem overload_propertyClash {m : Method × Nat} {p : Property} :
    .overload i ∈ propertyClash m p ↔
      (∃ role, p.has role = true ∧ m.1.name = role.methodName p.name) ∧ i = m.2 := by
  have hany : ([PropertyRole.get, .set].any fun role =>
      p.has role && m.1.name == role.methodName p.name) = true ↔
        ∃ role, p.has role = true ∧ m.1.name = role.methodName p.name := by
    rw [List.any_eq_true]
    constructor
    · rintro ⟨role, -, h⟩
      exact ⟨role, by simpa using h⟩
    · rintro ⟨role, h⟩
      exact ⟨role, by cases role <;> simp, by simpa using h⟩
  unfold propertyClash
  split
  · next h => simp [hany.1 h]
  · next h => simp [mt hany.2 h]

theorem overload_eventClash {m : Method × Nat} {e : Event} :
    .overload i ∈ eventClash m e ↔
      (∃ role : EventRole, m.1.name = role.methodName e.name) ∧ i = m.2 := by
  have hany : ([EventRole.add, .remove].any fun role => m.1.name == role.methodName e.name) = true ↔
      ∃ role : EventRole, m.1.name = role.methodName e.name := by
    rw [List.any_eq_true]
    constructor
    · rintro ⟨role, -, h⟩
      exact ⟨role, by simpa using h⟩
    · rintro ⟨role, h⟩
      exact ⟨role, by cases role <;> simp, by simpa using h⟩
  unfold eventClash
  split
  · next h => simp [hany.1 h]
  · next h => simp [mt hany.2 h]

theorem overload_accessorClashes : .overload i ∈ o.accessorClashes ↔
    ∃ m, (m, i) ∈ o.writtenMethods ∧ o.CalledLikeAccessor m := by
  unfold accessorClashes CalledLikeAccessor
  simp only [List.mem_flatMap, List.mem_append, overload_propertyClash, overload_eventClash]
  constructor
  · rintro ⟨m, hm, ⟨p, hp, hrole, rfl⟩ | ⟨e, he, hrole, rfl⟩⟩
    · exact ⟨m.1, hm, Or.inl ⟨p, hp, hrole⟩⟩
    · exact ⟨m.1, hm, Or.inr ⟨e, he, hrole⟩⟩
  · rintro ⟨m, hm, ⟨p, hp, hrole⟩ | ⟨e, he, hrole⟩⟩
    · exact ⟨(m, i), hm, Or.inl ⟨p, hp, hrole, rfl⟩⟩
    · exact ⟨(m, i), hm, Or.inr ⟨e, he, hrole, rfl⟩⟩

theorem signed?_fst (signature : Identity) (b : ObjectId × ObjectType) :
    (signed? signature b).map Prod.fst = b.2.methods.find? fun n => n.signature == signature := by
  unfold signed?
  conv_rhs => rw [← List.zipIdx_map_fst 0 b.2.methods, List.find?_map]
  rw [Option.map_map]
  rfl

theorem findSome?_signed? (m : Method) :
    (bases.findSome? (signed? m.signature)).map Prod.fst = firstInherited? bases m := by
  unfold firstInherited?
  rw [List.find?_flatMap, List.map_findSome?]
  exact congrArg (List.findSome? · bases) (funext (signed?_fst m.signature))

/-- An inherited method stands in the way unless a class may declare it again. -/
theorem clashesInherited_iff {inherited : Method × MemberLink}
    (h : bases.findSome? (signed? m.signature) = some inherited) :
    o.ClashesInherited bases m ↔
      (o.isClass && inherited.1.isWritten && resultsAgree inherited.1.result m.result) = false := by
  have hfirst : firstInherited? bases m = some inherited.1 := by
    rw [← findSome?_signed?, h]
    rfl
  unfold ClashesInherited
  simp [hfirst, isInterface_eq, imp_iff_not_or, or_assoc]

theorem overload_methodRemarks {m : Method × Nat} :
    .overload i ∈ o.methodRemarks bases m ↔ o.ClashesInherited bases m.1 ∧ i = m.2 := by
  unfold methodRemarks
  cases hfound : bases.findSome? (signed? m.1.signature) with
  | none =>
    have hfirst : firstInherited? bases m.1 = none := by
      rw [← findSome?_signed?, hfound]
      rfl
    simp [ClashesInherited, hfirst]
  | some inherited =>
    rw [clashesInherited_iff hfound]
    dsimp only
    split
    · next h => simp [h]
    · next h => simp [h]

theorem overload_remarks : .overload i ∈ o.remarks bases ↔
    ∃ m, (m, i) ∈ o.writtenMethods ∧ o.Overloads bases (m, i) := by
  have hmethods : (∃ m k, o.methods[k]? = some m ∧ m.isWritten = true ∧
      .overload i ∈ o.methodRemarks bases (m, k)) ↔
        ∃ m, (m, i) ∈ o.writtenMethods ∧ o.ClashesInherited bases m := by
    simp only [overload_methodRemarks, mem_writtenMethods]
    constructor
    · rintro ⟨m, k, hm, hw, hclash, rfl⟩
      exact ⟨m, ⟨hm, hw⟩, hclash⟩
    · rintro ⟨m, ⟨hm, hw⟩, hclash⟩
      exact ⟨m, i, hm, hw, hclash, rfl⟩
  have hproperties : ¬ ∃ p k, o.properties[k]? = some p ∧
      .overload i ∈ o.propertyRemarks bases (p, k) :=
    fun ⟨_, _, _, h⟩ => kind?_propertyRemarks h rfl
  have hevents : ¬ ∃ e k, o.events[k]? = some e ∧
      .overload i ∈ o.eventRemarks bases (e, k) :=
    fun ⟨_, _, _, h⟩ => kind?_eventRemarks h rfl
  have hinstances : .overload i ∉ o.instanceMembers := by
    intro h
    obtain ⟨line, name, heq⟩ := mem_instanceMembers h
    cases heq
  rw [mem_remarks, hmethods, overload_signatureClashes, overload_accessorClashes]
  simp only [hproperties, hevents, hinstances, or_false, Overloads, and_or_left, exists_or]

/-- Nothing but an overload is reported as one. -/
theorem kind_ne_cannotOverload {d : Diagnostic} (h : .report d ∈ o.remarks bases) :
    d.kind ≠ .cannotOverload := by
  intro hkind
  have hreport : (Remark.report d).kind? = some .cannotOverload := congrArg some hkind
  rcases mem_remarks.1 h with h | h | ⟨m, k, -, -, h⟩ | ⟨p, k, -, h⟩ | ⟨e, k, -, h⟩ | h
  · obtain ⟨index, h⟩ := mem_signatureClashes h
    cases h
  · rcases kind?_accessorClashes h with h | h | ⟨index, h⟩
    · rw [h] at hreport
      cases hreport
    · rw [h] at hreport
      cases hreport
    · cases h
  · rcases mem_methodRemarks h with ⟨base, h⟩ | h <;> cases h
  · exact kind?_propertyRemarks h hreport
  · exact kind?_eventRemarks h hreport
  · obtain ⟨line, name, h⟩ := mem_instanceMembers h
    rw [h] at hreport
    cases hreport

/-- Every method that may not be an overload is reported once, and no other is. -/
theorem faults_overloads (o : ObjectType) (bases : List (ObjectId × ObjectType)) :
    (Remark.faults o.methods .cannotOverload (o.remarks bases)).Perm
      ((o.writtenMethods.filter fun m => o.Overloads bases m).map fun m =>
        .of .cannotOverload m.1.line m.1.name) := by
  rw [Remark.faults_cannotOverload fun d => kind_ne_cannotOverload]
  have hpositions : ((o.remarks bases).filterMap Remark.overload?).Perm
      ((o.writtenMethods.filter fun m => o.Overloads bases m).map Prod.snd) := by
    rw [List.perm_ext_iff_of_nodup]
    · intro i
      rw [Remark.mem_overloads, overload_remarks]
      simp
    · exact (Remark.nodup_overloads [] _).1
    · exact (nodup_writtenMethods o).sublist (List.filter_sublist.map Prod.snd)
  refine (hpositions.filterMap _).trans (.of_eq ?_)
  rw [List.filterMap_map, ← List.filterMap_eq_map]
  refine List.filterMap_congr fun m hm => ?_
  obtain ⟨hmethod, -⟩ := mem_writtenMethods.1 (List.mem_filter.1 hm).1
  simp [hmethod]

end ObjectType

/-- The check reports every method that may not be an overload once, at its own line and by its own
name, and reports no other one so. -/
theorem Workspace.overloads_reported (w : Workspace) {id : ObjectId} {o : ObjectType}
    (ho : w.store.objects[id]? = some o) :
    w.checkMembers.1.report.entries =
        w.report.entries ++ (List.range w.store.objects.size).flatMap w.store.memberFaults ∧
      ((w.store.memberFaults id).filter fun d => d.kind == .cannotOverload).Perm
        ((o.writtenMethods.filter fun m => o.Overloads (w.store.ancestors id) m).map fun m =>
          .of .cannotOverload m.1.line m.1.name) := by
  refine ⟨w.entries_checkMembers, ?_⟩
  rw [Store.filter_memberFaults ho]
  exact ObjectType.faults_overloads o (w.store.ancestors id)

/-- A class with three methods of one signature, one called like an accessor, one that an inherited
method stands in the way of, and one that is linked to an inherited method. -/
def gantry : Decl.Unit where
  syntaxErrors := 0
  blocks := [⟨"N", 1, [
    .type (.interfaceDecl ⟨"Hoist", 2, [], [
      .method ⟨"Drop", 3, false, some "String", []⟩, .method ⟨"Stop", 4, false, none, []⟩]⟩),
    .type (.classDecl ⟨"Gantry", 5, {}, ["Hoist"], [
      .method ⟨"Lift", 6, false, none, [⟨"load", 6, .input, "Int32"⟩]⟩,
      .method ⟨"Lift", 7, false, some "String", [⟨"mass", 7, .input, "Int32"⟩]⟩,
      .method ⟨"Lift", 8, false, none, [⟨"load", 8, .input, "Int32"⟩]⟩,
      .property ⟨"Load", 9, false, "Int32", some [⟨.get, 9⟩]⟩,
      .method ⟨"get_Load", 10, false, none, []⟩,
      .method ⟨"Drop", 11, false, none, []⟩,
      .method ⟨"Stop", 12, false, none, []⟩]⟩)]⟩]

theorem overloads_reported_gantry :
    ∃ w : Workspace, w = (declared {} .empty gantry).analyzed ∧
      ∃ o, w.store.objects[1]? = some o ∧
        ((w.store.memberFaults 1).filter fun d => d.kind == .cannotOverload).Perm
          [.of .cannotOverload 6 "Lift", .of .cannotOverload 7 "Lift", .of .cannotOverload 8 "Lift",
            .of .cannotOverload 10 "get_Load", .of .cannotOverload 11 "Drop"] := by
  refine ⟨_, rfl, ?_⟩
  generalize hw : (declared {} .empty gantry).analyzed = w
  have hmarked : (w.store.objects[1]?.map fun o =>
      (o.writtenMethods.filter fun m => o.Overloads (w.store.ancestors 1) m).map fun m =>
        Diagnostic.of .cannotOverload m.1.line m.1.name) =
      some [.of .cannotOverload 6 "Lift", .of .cannotOverload 7 "Lift", .of .cannotOverload 8 "Lift",
        .of .cannotOverload 10 "get_Load", .of .cannotOverload 11 "Drop"] := by
    subst hw
    decide +kernel
  obtain ⟨o, ho, hlist⟩ := Option.map_eq_some_iff.1 hmarked
  exact ⟨o, ho, hlist ▸ (w.overloads_reported ho).2⟩

end ComponentIdl
