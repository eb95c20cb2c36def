import Mathlib.Tactic.ByContra
import ComponentIdl.Proofs.Builder.Step

/-!
# Getters at the end of a body

When the body of a class or interface is left, every property without a getter has been reported: at
the end of the body, or before if its accessor body was malformed. Bodies do not overlap in the walk
over a declaration tree, so at rest, without diagnostics, every property has a getter.
-/

namespace ComponentIdl

def ObjectType.HasGetters (o : ObjectType) : Prop := ∀ p ∈ o.properties, p.getter.isSome = true

theorem AccessorRequest.found_of_malformed (d : Decl.Property)
    (h : (ofDecl d).isMalformed = true) : (ofDecl d).found ≠ [] := by
  have hask : ∀ (request : AccessorRequest) role line,
      (request.isMalformed = true → request.found ≠ []) →
      (request.ask d role line).isMalformed = true → (request.ask d role line).found ≠ [] := by
    intro request role line hr
    unfold ask
    split
    · exact fun _ => by simp
    · exact hr
  have hfold : ∀ (body : List Decl.Accessor) (request : AccessorRequest),
      (request.isMalformed = true → request.found ≠ []) →
      (body.foldl (AccessorRequest.read d) request).isMalformed = true →
      (body.foldl (AccessorRequest.read d) request).found ≠ [] := by
    intro body
    induction body with
    | nil => exact fun _ h => h
    | cons a body ih =>
      intro request hr
      apply ih
      unfold AccessorRequest.read
      split
      · exact hask request .get a.line hr
      · exact hask request .set a.line hr
      · exact fun _ => by simp [reject]
  unfold ofDecl at h ⊢
  split at h
  · simp at h
  · simp [reject]
  · exact hfold _ _ (by simp) h

namespace Builder

variable {b b' : Builder} {id : ObjectId}

/-- At rest and without diagnostics, all properties have getters. -/
def Tidy (b : Builder) : Prop := b.found = [] → ∀ o ∈ b.store.objects, o.HasGetters

theorem Tidy.of_objects (h : b.Tidy) (ho : b'.store.objects = b.store.objects)
    (hfound : b.found <+: b'.found) : b'.Tidy := by
  intro hnil
  rw [ho]
  exact h (List.eq_nil_of_prefix_nil (hnil ▸ hfound))

/-- What a member does while the members of `id` are visited: only `id` changes, and a malformed
accessor body is reported. -/
structure Inside (id : ObjectId) (b b' : Builder) : Prop where
  focus : b'.focus = .object id
  others : ∀ i : ObjectId, i ≠ id → b'.store.objects[i]? = b.store.objects[i]?
  told : (b.malformed ≠ [] → b.found ≠ []) → b'.malformed ≠ [] → b'.found ≠ []

theorem others_modifyObject (st : Store) (f : ObjectType → ObjectType) (i : ObjectId) (hi : i ≠ id) :
    (st.modifyObject id f).objects[i]? = st.objects[i]? := by
  unfold Store.modifyObject
  rw [Array.getElem?_modify, if_neg fun h => hi h.symm]

theorem inside_addProperty (d : Decl.Property) (hf : b.focus = .object id) :
    Inside id b (b.addProperty d) := by
  have htold : (b.malformed ≠ [] → b.found ≠ []) →
      (if (AccessorRequest.ofDecl d).isMalformed then d.name :: b.malformed else b.malformed) ≠ [] →
      b.found ++ (AccessorRequest.ofDecl d).found ≠ [] := by
    intro ht hm
    by_cases hbad : (AccessorRequest.ofDecl d).isMalformed = true
    · exact List.append_ne_nil_of_right_ne_nil _ (AccessorRequest.found_of_malformed d hbad)
    · rw [if_neg hbad] at hm
      exact List.append_ne_nil_of_left_ne_nil (ht hm) _
  unfold addProperty
  rw [hf]
  dsimp only
  cases ho : b.store.objects[id]? with
  | none => exact ⟨rfl, fun _ _ => rfl, htold⟩
  | some o =>
    dsimp only
    split
    · exact ⟨rfl, fun _ _ => rfl, fun _ _ => by simp [report]⟩
    · exact ⟨rfl, fun i hi => others_modifyObject _ _ i hi, htold⟩

theorem inside_addEvent (d : Decl.Event) (hf : b.focus = .object id) :
    Inside id b (b.addEvent d) := by
  unfold addEvent
  rw [hf]
  dsimp only
  cases ho : b.store.objects[id]? with
  | none => exact ⟨hf, fun _ _ => rfl, fun h => h⟩
  | some o =>
    dsimp only
    split
    · exact ⟨hf, fun _ _ => rfl, fun _ _ => by simp [report]⟩
    · split
      · exact ⟨hf, fun i hi => others_modifyObject _ _ i hi, fun _ _ => by simp [report]⟩
      · exact ⟨hf, fun i hi => others_modifyObject _ _ i hi, fun h => h⟩

theorem inside_member (m : Decl.Member) (hf : b.focus = .object id) :
    Inside id b (b.visit m.visit) := by
  cases m with
  | method d =>
    show Inside id b (b.addMethod d)
    unfold addMethod
    rw [hf]
    exact ⟨rfl, fun i hi => others_modifyObject _ _ i hi, fun h => h⟩
  | property d => exact inside_addProperty d hf
  | event d => exact inside_addEvent d hf
  | constructor d =>
    show Inside id b (b.addConstructor d)
    unfold addConstructor
    rw [hf]
    exact ⟨rfl, fun i hi => others_modifyObject _ _ i hi, fun h => h⟩

theorem inside_members (members : List Decl.Member) (hf : b.focus = .object id) :
    Inside id b (b.run (members.map Decl.Member.visit)) := by
  induction members generalizing b with
  | nil => exact ⟨hf, fun _ _ => rfl, fun h => h⟩
  | cons m members ih =>
    have hfirst := inside_member m hf
    have hrest := ih hfirst.focus
    refine ⟨hrest.focus, ?_, fun ht => hrest.told (hfirst.told ht)⟩
    intro i hi
    exact (hrest.others i hi).trans (hfirst.others i hi)

theorem skipped_members (members : List Decl.Member) (hf : b.focus = .skipped) :
    b.run (members.map Decl.Member.visit) = b := by
  have hone : ∀ m : Decl.Member, b.visit m.visit = b := by
    intro m
    cases m with
    | method d => simp [Decl.Member.visit, visit, addMethod, hf]
    | property d => simp [Decl.Member.visit, visit, addProperty, hf]
    | event d => simp [Decl.Member.visit, visit, addEvent, hf]
    | constructor d => simp [Decl.Member.visit, visit, addConstructor, hf]
  induction members with
  | nil => rfl
  | cons m members ih =>
    show (b.visit m.visit).run (members.map Decl.Member.visit) = b
    rw [hone m]
    exact ih

theorem closeObject_found (hf : b.focus = .object id) (ht : b.malformed ≠ [] → b.found ≠ [])
    (hfound : b.closeObject.found = []) :
    ∀ o, b.store.objects[id]? = some o → o.HasGetters := by
  intro o ho p hp
  have hclose : b.closeObject.found = b.found ++ o.missingGetters b.malformed := by
    unfold closeObject
    rw [hf]
    dsimp only
    rw [ho]
  rw [hclose] at hfound
  obtain ⟨hbefore, hmissing⟩ := List.append_eq_nil_iff.1 hfound
  have hmalformed : b.malformed = [] := by
    by_contra hm
    exact ht hm hbefore
  rw [ObjectType.missingGetters, List.map_eq_nil_iff, List.filter_eq_nil_iff] at hmissing
  have hnone := hmissing p hp
  rw [hmalformed] at hnone
  cases hget : p.getter with
  | none => simp [hget] at hnone
  | some i => rfl

theorem objects_closeObject (b : Builder) : b.closeObject.store.objects = b.store.objects := by
  unfold closeObject
  split
  · split <;> rfl
  · rfl

/-- The focus that opening a class or interface leaves. -/
structure Opened (b b' : Builder) : Prop where
  malformed : b'.malformed = []
  found : b.found <+: b'.found
  focus : (b'.focus = .skipped ∧ b'.store.objects = b.store.objects) ∨
    (b'.focus = .object b.store.objects.size ∧ ∃ o, b'.store.objects = b.store.objects.push o)

theorem focus_focusOn_some {r : Builder × Option Symbol} {symbol : Symbol}
    (h : r.2 = some symbol) : (focusOn r).focus = Focus.ofSymbol symbol := by
  unfold focusOn
  rw [h]

theorem focus_focusOn_none {r : Builder × Option Symbol} (h : r.2 = none) :
    (focusOn r).focus = .skipped := by
  unfold focusOn
  rw [h]

theorem opened_object (b : Builder) (name : String) (line : Nat) (make : Header → ObjectType) :
    Opened b (focusOn (b.declare name line fun h => .object (make h))).clearFragments := by
  refine ⟨rfl, found_declare b name line _, ?_⟩
  rcases declare_cases b name line fun h => .object (make h) with
    ⟨hstore, -, -, hnone⟩ | ⟨node, block, rest, -, -, hstore, -, -, hsome⟩
  · left
    constructor
    · exact focus_focusOn_none hnone
    · show (b.declare name line fun h => .object (make h)).1.store.objects = _
      rw [hstore]
  · right
    constructor
    · refine (focus_focusOn_some hsome).trans ?_
      unfold Store.nextSymbol
      dsimp only
      split <;> rfl
    · show ∃ o, (b.declare name line fun h => .object (make h)).1.store.objects = _
      rw [hstore, (slots_declare ..).1]
      exact ⟨_, rfl⟩

theorem Tidy.body (h : b.Tidy) (members : List Decl.Member) (hopen : Opened b b') :
    (b'.run (members.map Decl.Member.visit)).closeObject.Tidy := by
  rcases hopen.focus with ⟨hf, ho⟩ | ⟨hf, o, ho⟩
  · rw [skipped_members members hf]
    exact h.of_objects ((objects_closeObject b').trans ho) (hopen.found.trans (found_closeObject b'))
  · have hin := inside_members members hf
    intro hfound o' ho'
    rw [objects_closeObject] at ho'
    have htold := hin.told fun hm => absurd hopen.malformed hm
    obtain ⟨i, hi⟩ := Array.mem_iff_getElem?.1 ho'
    by_cases hid : i = b.store.objects.size
    · rw [hid] at hi
      exact closeObject_found hin.focus htold hfound o' hi
    · -- Every other class or interface is as it was before the body.
      have hbefore : b.found = [] := by
        have hrun := found_run b' (members.map Decl.Member.visit)
        have hclose := found_closeObject (b'.run (members.map Decl.Member.visit))
        have hall : b.found <+: (b'.run (members.map Decl.Member.visit)).closeObject.found :=
          (hopen.found.trans hrun).trans hclose
        exact List.eq_nil_of_prefix_nil (hfound ▸ hall)
      rw [hin.others i hid, ho, Array.getElem?_push, if_neg hid] at hi
      exact h hbefore o' (Array.mem_of_getElem? hi)

theorem run_append (b : Builder) (visits more : List Visit) :
    b.run (visits ++ more) = (b.run visits).run more :=
  List.foldl_append

theorem run_cons (b : Builder) (v : Visit) (visits : List Visit) :
    b.run (v :: visits) = (b.visit v).run visits := rfl

theorem Tidy.run_of_objects (h : b.Tidy) (visits : List Visit)
    (ho : ∀ v ∈ visits, ∀ b : Builder, (b.visit v).store.objects = b.store.objects) :
    (b.run visits).Tidy :=
  run_preserves (P := Tidy) visits
    (fun v hv b hb => hb.of_objects (ho v hv b) (found_visit b v)) h

theorem objects_declare (b : Builder) (name : String) (line : Nat) (make : Header → Entity)
    (hmake : ∀ h st, (Store.add st (make h)).objects = st.objects) :
    (b.declare name line make).1.store.objects = b.store.objects := by
  rcases declare_cases b name line make with ⟨hstore, -⟩ | ⟨node, block, rest, -, -, hstore, -⟩
  · rw [hstore]
  · rw [hstore, (slots_declare ..).1, hmake]

theorem objects_addField (b : Builder) (d : Decl.Field) :
    (b.addField d).store.objects = b.store.objects := by
  unfold addField
  repeat' split
  all_goals rfl

theorem objects_addEnumMember (b : Builder) (d : Decl.EnumMember) :
    (b.addEnumMember d).store.objects = b.store.objects := by
  unfold addEnumMember
  repeat' split
  all_goals rfl

theorem Tidy.typeDecl (h : b.Tidy) (d : Decl.TypeDecl) : (b.run d.visits).Tidy := by
  cases d with
  | classDecl d =>
    rw [Decl.TypeDecl.visits, List.cons_append, run_cons, run_append]
    exact h.body d.members (opened_object b d.name d.line _)
  | interfaceDecl d =>
    rw [Decl.TypeDecl.visits, List.cons_append, run_cons, run_append]
    exact h.body d.members (opened_object b d.name d.line _)
  | structDecl d =>
    apply h.run_of_objects
    intro v hv b
    simp only [Decl.TypeDecl.visits, List.cons_append, List.mem_cons, List.mem_append, List.mem_map,
      List.mem_nil_iff, or_false] at hv
    rcases hv with rfl | ⟨f, -, rfl⟩ | rfl
    · exact objects_declare b d.name d.line _ fun _ _ => rfl
    · exact objects_addField b f
    · rfl
  | enumDecl d =>
    apply h.run_of_objects
    intro v hv b
    simp only [Decl.TypeDecl.visits, List.cons_append, List.mem_cons, List.mem_append, List.mem_map,
      List.mem_nil_iff, or_false] at hv
    rcases hv with rfl | ⟨m, -, rfl⟩ | rfl
    · exact objects_declare b d.name d.line _ fun _ _ => rfl
    · exact objects_addEnumMember b m
    · rfl
  | delegateDecl d =>
    apply h.run_of_objects
    intro v hv b
    simp only [Decl.TypeDecl.visits, List.mem_cons, List.mem_nil_iff, or_false] at hv
    rcases hv with rfl | rfl
    · exact objects_declare b d.name d.line _ fun _ _ => rfl
    · rfl

mutual

theorem Tidy.item (i : Decl.Item) (b : Builder) (h : b.Tidy) : (b.run i.visits).Tidy := by
  cases i with
  | type d => exact h.typeDecl d
  | block name line items =>
    rw [Decl.Item.visits, List.cons_append, run_cons, run_append]
    have hopen : (b.visit (.openBlock ⟨name, line, items⟩)).Tidy :=
      h.of_objects rfl (found_visit b _)
    exact Tidy.items items _ hopen

theorem Tidy.items (is : List Decl.Item) (b : Builder) (h : b.Tidy) :
    (b.run (Decl.itemsVisits is)).Tidy := by
  cases is with
  | nil => exact h
  | cons i is =>
    rw [Decl.itemsVisits, run_append]
    exact Tidy.items is _ (Tidy.item i b h)

end

theorem Tidy.blocks (h : b.Tidy) (blocks : List Decl.Block) :
    (b.run (blocks.flatMap Decl.Block.visits)).Tidy := by
  induction blocks generalizing b with
  | nil => exact h
  | cons block blocks ih =>
    rw [List.flatMap_cons, run_append, ← Decl.Item.visits_block block.name block.line block.items]
    exact ih (Tidy.item _ b h)

/-- After a whole source file, without diagnostics, every property has a getter. -/
theorem Tidy.unit (h : b.Tidy) (u : Decl.Unit) : (b.run u.visits).Tidy := by
  rw [Decl.Unit.visits, List.cons_append, run_cons, run_append]
  exact Tidy.blocks h u.blocks

end Builder

end ComponentIdl
