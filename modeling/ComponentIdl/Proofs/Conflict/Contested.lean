import Mathlib.Data.List.TakeWhile
import ComponentIdl.Proofs.Compile
import ComponentIdl.Proofs.Conflict.Reports
import ComponentIdl.Proofs.Inheritance

/-!
# Inherited members of another sort

A property or event is reported if an inherited interface has a member of another sort by its name.
The search stops at the nearest interface with any member of the name, so one that has a property for
a property, or an event for an event, hides all that are farther.
-/

namespace ComponentIdl

/-- The two sorts of members that are made of methods. -/
inductive MemberSort where
  | property
  | event
deriving DecidableEq

namespace MemberSort

/-- The lines and names of the members of a sort. -/
def heads (o : ObjectType) : MemberSort → List (Nat × String)
  | property => o.properties.map fun p => (p.line, p.name)
  | event => o.events.map fun e => (e.line, e.name)

def declares (o : ObjectType) (name : String) : MemberSort → Bool
  | property => (o.property? name).isSome
  | event => (o.event? name).isSome

def other : MemberSort → MemberSort
  | property => event
  | event => property

/-- A written method or a member of the other sort has the name. -/
def clashes (s : MemberSort) (o : ObjectType) (name : String) : Bool :=
  o.hasWrittenMethod name || s.other.declares o name

/-- An interface with a clash is nearer than every interface with a member of the same sort and
name, and has no such member itself. -/
def contested (s : MemberSort) (bases : List (ObjectId × ObjectType)) (name : String) : Bool :=
  (bases.takeWhile fun b => !s.declares b.2 name).any fun b => s.clashes b.2 name

variable {s : MemberSort} {bases : List (ObjectId × ObjectType)} {name : String}

/-- Where no interface has a member of the same sort and name, any clash counts. -/
theorem contested_iff (h : ∀ b ∈ bases, s.declares b.2 name = false) :
    s.contested bases name = true ↔ ∃ b ∈ bases, s.clashes b.2 name = true := by
  have hall : bases.takeWhile (fun b => !s.declares b.2 name) = bases :=
    List.takeWhile_eq_self_iff.2 fun b hb => by rw [h b hb]; rfl
  unfold contested
  rw [hall, List.any_eq_true]

/-- The first verdict reports the member exactly if its name is contested. -/
theorem faults_verdict {ms : List Method} {d : Diagnostic}
    {verdict : ObjectId × ObjectType → Option (List Remark)}
    (hd : d.kind = .conflictingInheritance)
    (hsame : ∀ b, s.declares b.2 name = true → ∃ remarks, verdict b = some remarks ∧
      Remark.faults ms .conflictingInheritance remarks = [])
    (hother : ∀ b, s.declares b.2 name = false →
      verdict b = if s.clashes b.2 name = true then some [.report d] else none) :
    Remark.faults ms .conflictingInheritance ((bases.findSome? verdict).getD []) =
      if s.contested bases name = true then [d] else [] := by
  unfold contested
  induction bases with
  | nil => rfl
  | cons b bases ih =>
    rw [List.findSome?_cons, List.takeWhile_cons]
    cases hb : s.declares b.2 name with
    | true =>
      obtain ⟨remarks, hremarks, hfaults⟩ := hsame b hb
      simp [hremarks, hfaults]
    | false =>
      rw [hother b hb]
      cases hc : s.clashes b.2 name with
      | true => simp [hc, Remark.faults, Remark.diagnostic?, hd]
      | false =>
        rw [Bool.not_false, if_pos rfl, List.any_cons, hc, Bool.false_or]
        exact ih

end MemberSort

namespace ObjectType

variable (o : ObjectType) (bases : List (ObjectId × ObjectType)) (ms : List Method)

theorem faults_propertyRemarks (p : Property × Nat) :
    Remark.faults ms .conflictingInheritance (o.propertyRemarks bases p) =
      if MemberSort.property.contested bases p.1.name = true then
        [.of .conflictingInheritance p.1.line p.1.name] else [] := by
  refine MemberSort.faults_verdict rfl ?_ ?_
  · intro b hb
    obtain ⟨q, hq⟩ := Option.isSome_iff_exists.1 hb
    unfold propertyVerdict
    rw [hq]
    dsimp only
    split
    · refine ⟨_, rfl, Remark.faults_eq_nil fun remark hremark => ?_⟩
      rw [kind?_propertyLinks hremark]
      nofun
    · exact ⟨_, rfl, rfl⟩
  · intro b hb
    unfold propertyVerdict
    rw [Option.isNone_iff_eq_none.1 (Option.isSome_eq_false_iff.1 hb)]
    rfl

theorem faults_eventRemarks (e : Event × Nat) :
    Remark.faults ms .conflictingInheritance (o.eventRemarks bases e) =
      if MemberSort.event.contested bases e.1.name = true then
        [.of .conflictingInheritance e.1.line e.1.name] else [] := by
  refine MemberSort.faults_verdict rfl ?_ ?_
  · intro b hb
    obtain ⟨d, hd⟩ := Option.isSome_iff_exists.1 hb
    unfold eventVerdict
    rw [hd]
    dsimp only
    split
    · refine ⟨_, rfl, Remark.faults_eq_nil fun remark hremark => ?_⟩
      rw [kind?_eventLinks hremark]
      nofun
    · exact ⟨_, rfl, rfl⟩
  · intro b hb
    unfold eventVerdict
    rw [Option.isNone_iff_eq_none.1 (Option.isSome_eq_false_iff.1 hb)]
    rfl

/-- Only the remarks on inherited properties and events report a conflict with another sort. -/
theorem faults_remarks :
    Remark.faults ms .conflictingInheritance (o.remarks bases) =
      [MemberSort.property, .event].flatMap fun s =>
        ((s.heads o).filter fun h => s.contested bases h.2).map fun h =>
          .of .conflictingInheritance h.1 h.2 := by
  have hsignatures : Remark.faults ms .conflictingInheritance o.signatureClashes = [] :=
    Remark.faults_eq_nil fun remark h => by
      obtain ⟨index, rfl⟩ := mem_signatureClashes h
      simp [Remark.kind?]
  have haccessors : Remark.faults ms .conflictingInheritance o.accessorClashes = [] :=
    Remark.faults_eq_nil fun remark h => by
      rcases kind?_accessorClashes h with h | h | ⟨index, rfl⟩
      · simp [h]
      · simp [h]
      · simp [Remark.kind?]
  have hmethods : Remark.faults ms .conflictingInheritance
      (o.writtenMethods.flatMap (o.methodRemarks bases)) = [] :=
    Remark.faults_eq_nil fun remark h => by
      obtain ⟨m, -, hm⟩ := List.mem_flatMap.1 h
      rcases mem_methodRemarks hm with ⟨base, rfl⟩ | rfl <;> simp [Remark.kind?]
  have hinstances : Remark.faults ms .conflictingInheritance o.instanceMembers = [] :=
    Remark.faults_eq_nil fun remark h => by
      obtain ⟨line, name, rfl⟩ := mem_instanceMembers h
      simp [Remark.kind?, Diagnostic.of]
  unfold remarks
  rw [Remark.faults_withoutRepeats (by simp)]
  simp only [Remark.faults_append, Remark.faults_flatMap, hsignatures, haccessors, hinstances,
    faults_propertyRemarks, faults_eventRemarks]
  rw [← Remark.faults_flatMap, hmethods]
  have hproperties := flatMap_zipIdx_filter o.properties (fun p => (p.line, p.name))
    (fun h => MemberSort.property.contested bases h.2)
    fun h => Diagnostic.of .conflictingInheritance h.1 h.2
  have hevents := flatMap_zipIdx_filter o.events (fun e => (e.line, e.name))
    (fun h => MemberSort.event.contested bases h.2)
    fun h => Diagnostic.of .conflictingInheritance h.1 h.2
  rw [hproperties, hevents, List.nil_append, List.append_nil]
  exact congrArg _ (List.append_nil _).symm

end ObjectType

/-- The check reports the properties and events with a contested name, each once and no others. If no
inherited interface has a member of the same sort and name, a name is contested exactly if one has a
written method or a member of the other sort by that name. -/
theorem Workspace.contested_reported (w : Workspace) {id : ObjectId} {o : ObjectType}
    (ho : w.store.objects[id]? = some o) :
    w.checkMembers.1.report.entries =
        w.report.entries ++ (List.range w.store.objects.size).flatMap w.store.memberFaults ∧
      ((w.store.memberFaults id).filter fun d => d.kind == .conflictingInheritance) =
        ([MemberSort.property, .event].flatMap fun s =>
          ((s.heads o).filter fun h => s.contested (w.store.ancestors id) h.2).map fun h =>
            .of .conflictingInheritance h.1 h.2) ∧
      ∀ (s : MemberSort) (name : String),
        (∀ b, w.store.HasAncestor id b → s.declares b.2 name = false) →
          (s.contested (w.store.ancestors id) name = true ↔
            ∃ b, w.store.HasAncestor id b ∧ s.clashes b.2 name = true) := by
  refine ⟨w.entries_checkMembers, ?_, ?_⟩
  · rw [Store.filter_memberFaults ho, ObjectType.faults_remarks]
  · intro s name h
    simp only [← Store.mem_ancestors_iff] at h ⊢
    exact MemberSort.contested_iff h

/-- An interface with a property, one with a method of the same name, and a class that requires both
and has such a property, too. -/
def tank (requires : List String) : Decl.Unit where
  syntaxErrors := 0
  blocks := [⟨"N", 1, [
    .type (.interfaceDecl ⟨"Dial", 2, [], [.property ⟨"Level", 3, false, "Int32", some [⟨.get, 3⟩]⟩]⟩),
    .type (.interfaceDecl ⟨"Gauge", 4, [], [.method ⟨"Level", 5, false, none, []⟩]⟩),
    .type (.classDecl ⟨"Tank", 6, {}, requires,
      [.property ⟨"Level", 7, false, "Int32", some [⟨.get, 7⟩]⟩]⟩)]⟩]

theorem contested_reported_tank :
    ∃ w : Workspace, w = (declared {} .empty (tank ["Gauge", "Dial"])).analyzed ∧
      ∃ o, w.store.objects[2]? = some o ∧
        ((w.store.memberFaults 2).filter fun d => d.kind == .conflictingInheritance) =
          [.of .conflictingInheritance 7 "Level"] := by
  refine ⟨_, rfl, ?_⟩
  generalize hw : (declared {} .empty (tank ["Gauge", "Dial"])).analyzed = w
  have hheads : (w.store.objects[2]?.map fun o =>
      (MemberSort.property.heads o, MemberSort.event.heads o)) = some ([(7, "Level")], []) := by
    subst hw
    decide +kernel
  have hcontested : MemberSort.property.contested (w.store.ancestors 2) "Level" = true := by
    subst hw
    decide +kernel
  obtain ⟨o, ho, heq⟩ := Option.map_eq_some_iff.1 hheads
  obtain ⟨hproperties, hevents⟩ := Prod.mk.inj heq
  refine ⟨o, ho, (w.contested_reported ho).2.1.trans ?_⟩
  simp [hproperties, hevents, hcontested]

/-- Nothing is reported if the class names the interface with the property first. -/
theorem clash_passed_over :
    (compile {} .empty (tank ["Dial", "Gauge"])).report.entries = [] ∧
      (compile {} .empty (tank ["Gauge", "Dial"])).report.entries =
        [.of .conflictingInheritance 7 "Level"] ∧
      ∃ o b, (compile {} .empty (tank ["Dial", "Gauge"])).store.objects[2]? = some o ∧
        (7, "Level") ∈ MemberSort.property.heads o ∧
        (compile {} .empty (tank ["Dial", "Gauge"])).store.HasAncestor 2 (1, b) ∧
        MemberSort.property.clashes b "Level" = true := by
  refine ⟨by decide +kernel, by decide +kernel, ?_⟩
  generalize hst : (compile {} .empty (tank ["Dial", "Gauge"])).store = st
  have hhead : (st.objects[2]?.map fun o => MemberSort.property.heads o) = some [(7, "Level")] := by
    subst hst
    decide +kernel
  have hclash : (st.objects[1]?.map fun b => MemberSort.property.clashes b "Level") = some true := by
    subst hst
    decide +kernel
  have hedge : 1 ∈ st.requirement.next 2 := by
    subst hst
    decide +kernel
  obtain ⟨o, ho, hheads⟩ := Option.map_eq_some_iff.1 hhead
  obtain ⟨b, hb, hclashes⟩ := Option.map_eq_some_iff.1 hclash
  refine ⟨o, b, ho, by simp [hheads], ⟨Nat.succ_ne_self 1 |>.symm, ?_, hb⟩, hclashes⟩
  rw [← st.edge_requirement_eq]
  exact .single hedge

end ComponentIdl
