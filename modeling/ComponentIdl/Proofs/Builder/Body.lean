import ComponentIdl.Proofs.Builder.Beside
import ComponentIdl.Proofs.Builder.Members

/-!
# Visiting the members of a body

One member after the other is added to the class or interface in the slot that is in focus. After some of
them it has what these members are expanded to, and what was reported is what they are reported for.
-/

namespace ComponentIdl

theorem ObjectType.IsNew.hasMembers {o : ObjectType} {header : Header} (h : o.IsNew header) :
    o.HasMembers header.scope [] := by
  refine ⟨by rw [h.header], h.methods, ?_, ?_, ?_, ?_⟩
  · rw [h.constructors]
    exact (ite_self _).symm
  · intro name
    unfold event?
    rw [h.events]
    exact ⟨nofun, fun ⟨_, he⟩ => absurd he nofun⟩
  · intro name _
    unfold property?
    rw [h.properties]
    rfl
  · exact fun name q hq => absurd hq nofun

/-- What is wrong with an accessor body is reported whether the fragment is taken or not. -/
theorem Decl.Member.faults_subset_reports (scope : String) (before : List Member) (p : Property) :
    p.bodyFaults ⊆ (Member.property p).reports scope before := by
  intro r hr
  cases h : (Member.property p).refusal? scope before with
  | none =>
    simp only [reports, h]
    exact hr
  | some kind =>
    simp only [reports, h]
    exact List.mem_append_left _ hr

theorem Decl.faults_subset_bodyReports {scope : String} {ms : List Member} {p : Property}
    (hp : .property p ∈ ms) : p.bodyFaults ⊆ bodyReports scope ms := by
  intro r hr
  obtain ⟨before, after, hsplit⟩ := List.append_of_mem hp
  exact List.mem_flatMap.2 ⟨(before, .property p), mem_withBefore.2 ⟨after, hsplit⟩,
    Member.faults_subset_reports scope before p hr⟩

namespace Builder

variable {b : Builder} {start : List Diagnostic} {scope : String} {id : ObjectId}
  {ms : List Decl.Member} {o : ObjectType}

/-- The builder is in the body of the class or interface in the slot, after the members. -/
structure Body (start : List Diagnostic) (scope : String) (id : ObjectId) (ms : List Decl.Member)
    (b : Builder) : Prop where
  focus : b.focus = .object id
  object : ∃ o, b.store.objects[id]? = some o ∧ o.HasMembers scope ms
  found : b.found = start ++ Decl.bodyReports scope ms
  fragments : ∀ name, b.fragments.count name = (Decl.fragmentsOf ms name).length
  malformed : ∀ name ∈ b.malformed, ∃ p, .property p ∈ ms ∧ p.name = name ∧ p.isMalformed = true

theorem body_start {header : Header} (hfocus : b.focus = .object id)
    (ho : b.store.objects[id]? = some o) (hnew : o.IsNew header) (hfragments : b.fragments = [])
    (hmalformed : b.malformed = []) : Body b.found header.scope id [] b := by
  refine ⟨hfocus, ⟨o, ho, hnew.hasMembers⟩, (List.append_nil _).symm, ?_, ?_⟩
  · intro name
    rw [hfragments]
    rfl
  · intro name hname
    rw [hmalformed] at hname
    exact absurd hname List.not_mem_nil

theorem object_modifyObject {st : Store} (ho : st.objects[id]? = some o)
    (f : ObjectType → ObjectType) : (st.modifyObject id f).objects[id]? = some (f o) := by
  unfold Store.modifyObject
  rw [Array.getElem?_modify, if_pos rfl, ho]
  rfl

/-- The builder that has read the accessor body of a fragment. -/
def noted (b : Builder) (p : Decl.Property) : Builder :=
  { b with
    found := b.found ++ p.bodyFaults
    fragments := p.name :: b.fragments
    malformed := if p.isMalformed then p.name :: b.malformed else b.malformed }

namespace Body

/-- What a member adds to what is known of the body. -/
theorem next (h : Body start scope id ms b) {b' : Builder} {m : Decl.Member}
    (hfocus : b'.focus = .object id)
    (hobject : ∃ o, b'.store.objects[id]? = some o ∧ o.HasMembers scope (ms ++ [m]))
    (hfound : b'.found = b.found ++ m.reports scope ms)
    (hfragments : ∀ name,
      b'.fragments.count name = b.fragments.count name + (m.fragmentOf? name).toList.length)
    (hmalformed : ∀ name ∈ b'.malformed, name ∈ b.malformed ∨
      ∃ p, m = .property p ∧ p.name = name ∧ p.isMalformed = true) :
    Body start scope id (ms ++ [m]) b' := by
  refine ⟨hfocus, hobject, ?_, ?_, ?_⟩
  · rw [hfound, h.found, Decl.bodyReports_concat, List.append_assoc]
  · intro name
    rw [hfragments, h.fragments, Decl.fragmentsOf_concat, List.length_append]
  · intro name hname
    rcases hmalformed name hname with hold | ⟨p, rfl, hp⟩
    · obtain ⟨p, hmem, hp⟩ := h.malformed name hold
      exact ⟨p, List.mem_append_left _ hmem, hp⟩
    · exact ⟨p, List.mem_append_right _ List.mem_cons_self, hp⟩

theorem method (h : Body start scope id ms b) (d : Decl.Method) :
    Body start scope id (ms ++ [.method d]) (b.addMethod d) := by
  obtain ⟨o, ho, hmembers⟩ := h.object
  unfold addMethod
  rw [h.focus]
  exact h.next rfl ⟨_, object_modifyObject ho _, hmembers.method d⟩ (List.append_nil _).symm
    (fun _ => rfl) fun _ hname => Or.inl hname

theorem constructor (h : Body start scope id ms b) (d : Decl.Constructor) :
    Body start scope id (ms ++ [.constructor d]) (b.addConstructor d) := by
  obtain ⟨o, ho, hmembers⟩ := h.object
  unfold addConstructor
  rw [h.focus]
  exact h.next rfl ⟨_, object_modifyObject ho _, hmembers.constructor d⟩ (List.append_nil _).symm
    (fun _ => rfl) fun _ hname => Or.inl hname

theorem event (h : Body start scope id ms b) (e : Decl.Event) :
    Body start scope id (ms ++ [.event e]) (b.addEvent e) := by
  obtain ⟨o, ho, hmembers⟩ := h.object
  have hrefusal : (Decl.Member.event e).refusal? scope ms =
      if (o.event? e.name).isSome || (o.property? e.name).isSome then some .duplicateTypeMember
      else none := by
    rw [Decl.Member.refusal?, hmembers.isSome_holder?]
  unfold addEvent
  simp only [h.focus, ho]
  split
  · next hheld =>
    rw [if_pos hheld] at hrefusal
    refine h.next h.focus ⟨o, ho, hmembers.refused hrefusal⟩ ?_ (fun _ => rfl)
      fun _ hname => Or.inl hname
    simp only [Decl.Member.reports, hrefusal]
    rfl
  · next hheld =>
    rw [if_neg hheld] at hrefusal
    have hfree : Decl.holder? ms e.name = none := by
      rw [← Option.isNone_iff_eq_none, ← Option.not_isSome, hmembers.isSome_holder?]
      simpa using hheld
    have hobject := object_modifyObject ho fun o => o.addEvent e
    have hreports : (Decl.Member.event e).reports scope ms =
        if e.accessors.isSome then [.of .conflictingEventAccessor e.line e.name] else [] := by
      simp only [Decl.Member.reports, hrefusal]
    by_cases hbody : e.accessors.isSome = true
    · rw [if_pos hbody] at hreports ⊢
      exact h.next h.focus ⟨_, hobject, hmembers.event e hfree⟩ (by rw [hreports]; rfl)
        (fun _ => rfl) fun _ hname => Or.inl hname
    · rw [if_neg hbody] at hreports ⊢
      exact h.next h.focus ⟨_, hobject, hmembers.event e hfree⟩
        (by rw [hreports, List.append_nil]) (fun _ => rfl) fun _ hname => Or.inl hname

section Fragment

variable {p : Decl.Property}

theorem addProperty_error (h : Body start scope id ms b) (ho : b.store.objects[id]? = some o)
    {kind : Diagnostic.Kind}
    (hadd : o.addFragment p ((Decl.fragmentsOf ms p.name).length + 1) p.requested = .error kind) :
    b.addProperty p = (b.noted p).report kind p.line p.name := by
  have hcount : (p.name :: b.fragments).count p.name =
      (Decl.fragmentsOf ms p.name).length + 1 := by
    rw [List.count_cons_self, h.fragments]
  unfold addProperty noted
  simp only [h.focus, ho, AccessorRequest.ofDecl_eq, hcount, hadd]

theorem addProperty_ok (h : Body start scope id ms b) (ho : b.store.objects[id]? = some o)
    {o' : ObjectType}
    (hadd : o.addFragment p ((Decl.fragmentsOf ms p.name).length + 1) p.requested = .ok o') :
    b.addProperty p = { b.noted p with store := b.store.modifyObject id fun _ => o' } := by
  have hcount : (p.name :: b.fragments).count p.name =
      (Decl.fragmentsOf ms p.name).length + 1 := by
    rw [List.count_cons_self, h.fragments]
  unfold addProperty noted
  simp only [h.focus, ho, AccessorRequest.ofDecl_eq, hcount, hadd]

end Fragment

theorem property (h : Body start scope id ms b) (p : Decl.Property) :
    Body start scope id (ms ++ [.property p]) (b.addProperty p) := by
  obtain ⟨o, ho, hmembers⟩ := h.object
  have hfragments : ∀ name, (p.name :: b.fragments).count name =
      b.fragments.count name + ((Decl.Member.property p).fragmentOf? name).toList.length := by
    intro name
    rw [List.count_cons, Decl.Member.fragmentOf?]
    split <;> rfl
  have hmalformed : ∀ name ∈ (if p.isMalformed then p.name :: b.malformed else b.malformed),
      name ∈ b.malformed ∨
        ∃ q, Decl.Member.property p = .property q ∧ q.name = name ∧ q.isMalformed = true := by
    intro name hname
    split at hname
    · next hbad =>
      rcases List.mem_cons.1 hname with rfl | hname
      · exact Or.inr ⟨p, rfl, rfl, hbad⟩
      · exact Or.inl hname
    · exact Or.inl hname
  rcases hmembers.fragment_cases p with ⟨kind, hrefusal, hadd⟩ | ⟨hrefusal, o', hadd, hmembers'⟩
  · rw [h.addProperty_error ho hadd]
    refine h.next h.focus ⟨o, ho, hmembers.refused hrefusal⟩ ?_ hfragments hmalformed
    simp only [Decl.Member.reports, hrefusal]
    exact List.append_assoc ..
  · rw [h.addProperty_ok ho hadd]
    have hobject := object_modifyObject ho fun _ => o'
    refine h.next h.focus ⟨o', hobject, hmembers'⟩ ?_ hfragments hmalformed
    simp only [Decl.Member.reports, hrefusal, noted]

theorem member (h : Body start scope id ms b) (m : Decl.Member) :
    Body start scope id (ms ++ [m]) (b.visit m.visit) := by
  cases m with
  | method d => exact h.method d
  | property p => exact h.property p
  | event e => exact h.event e
  | constructor d => exact h.constructor d

theorem members (h : Body start scope id ms b) (more : List Decl.Member) :
    Body start scope id (ms ++ more) (b.run (more.map Decl.Member.visit)) := by
  induction more generalizing b ms with
  | nil =>
    rw [List.append_nil]
    exact h
  | cons m more ih =>
    have hrest := ih (h.member m)
    rw [List.append_assoc, List.singleton_append] at hrest
    exact hrest

/-- At the end of the body properties without a getter are reported. -/
theorem closeObject (h : Body start scope id ms b) : b.closeObject.store = b.store ∧
    ∃ o, b.store.objects[id]? = some o ∧ o.HasMembers scope ms ∧
      b.closeObject.found = start ++ Decl.bodyReports scope ms ++ o.missingGetters b.malformed := by
  obtain ⟨o, ho, hmembers⟩ := h.object
  unfold Builder.closeObject
  simp only [h.focus, ho]
  exact ⟨rfl, o, rfl, hmembers, by rw [h.found]⟩

end Body

end Builder

namespace Decl.TypeDecl

def isClass : TypeDecl → Bool
  | classDecl _ => true
  | _ => false

/-- Whether the type is a class or an interface. -/
def isObject : TypeDecl → Bool
  | classDecl _ | interfaceDecl _ => true
  | _ => false

/-- The members of a class or interface. -/
def members : TypeDecl → List Member
  | classDecl d => d.members
  | interfaceDecl d => d.members
  | _ => []

/-- The members of a class or interface are visited between two visits of the declaration. -/
theorem visits_of_isObject {d : TypeDecl} (hd : d.isObject = true) :
    ∃ close, d.visits = d.openingVisit :: (d.members.map Member.visit ++ [close]) ∧
      ∀ b : Builder, b.visit close = b.closeObject := by
  cases d with
  | classDecl d => exact ⟨.closeClass d, rfl, fun _ => rfl⟩
  | interfaceDecl d => exact ⟨.closeInterface d, rfl, fun _ => rfl⟩
  | _ => exact absurd hd Bool.false_ne_true

end Decl.TypeDecl

namespace Builder

variable {b : Builder} {d : Decl.TypeDecl}

/-- The declaration has got the next slot, and its members are to come. -/
structure Opens (b : Builder) (d : Decl.TypeDecl) (o : ObjectType) (b' : Builder) : Prop where
  objects : b'.store.objects = b.store.objects.push o
  found : b'.found = b.found
  name : o.name = d.name
  line : o.line = d.line
  isClass : o.isClass = d.isClass
  body : Body b.found o.scope b.store.objects.size [] b'

theorem found_declare_some {name : String} {line : Nat} {make : Header → Entity} {σ : Symbol}
    (h : (b.declare name line make).2 = some σ) : (b.declare name line make).1.found = b.found := by
  unfold declare at h ⊢
  split
  · rfl
  · next hopen =>
    rw [hopen] at h
    dsimp only at h ⊢
    split
    · next hused =>
      simp only [hused] at h
      exact absurd h nofun
    · rfl

/-- The members of a class or interface are passed over, or its slot is taken to fill them in. -/
theorem opening_cases (b : Builder) (hd : d.isObject = true) :
    ((b.visit d.openingVisit).focus = .skipped ∧ (b.visit d.openingVisit).store = b.store) ∨
      ∃ o, b.Opens d o (b.visit d.openingVisit) := by
  have hcases : ∀ make : Header → ObjectType, (∀ h, (make h).IsNew h) →
      (∀ h, (make h).isClass = d.isClass) →
      let b' := (focusOn (b.declare d.name d.line fun h => .object (make h))).clearFragments
      (b'.focus = .skipped ∧ b'.store = b.store) ∨ ∃ o, b.Opens d o b' := by
    intro make hnew hclass b'
    rcases declare_cases b d.name d.line fun h => .object (make h) with
      ⟨hstore, -, -, hnone⟩ | ⟨node, block, rest, -, -, hstore, -, -, hsome⟩
    · exact Or.inl ⟨focus_focusOn_none hnone, hstore⟩
    · right
      let header : Header :=
        { name := d.name, scope := b.store.namespaces.nameOf node, line := d.line,
          assembly := b.assembly }
      have hfound : b'.found = b.found := found_declare_some hsome
      have hobjects : b'.store.objects = b.store.objects.push (make header) := by
        show (b.declare d.name d.line fun h => .object (make h)).1.store.objects = _
        rw [hstore, (slots_declare ..).1]
        rfl
      have hfocus : b'.focus = .object b.store.objects.size := by
        refine (focus_focusOn_some hsome).trans ?_
        unfold Store.nextSymbol
        dsimp only
        split <;> rfl
      have hheader : (make header).toHeader = header := (hnew header).header
      have hbody := body_start hfocus (by rw [hobjects, Array.getElem?_push_size]) (hnew header)
        rfl rfl
      rw [hfound, ← hheader] at hbody
      exact ⟨make header, hobjects, hfound, by rw [hheader], by rw [hheader], hclass header, hbody⟩
  cases d with
  | classDecl d => exact hcases _ (isNew_class d) fun _ => rfl
  | interfaceDecl d => exact hcases _ (isNew_interface d) fun _ => rfl
  | _ => exact absurd hd Bool.false_ne_true

end Builder

end ComponentIdl
