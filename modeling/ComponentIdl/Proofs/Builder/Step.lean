import ComponentIdl.Builder

/-!
# What one visit does

All that a visit can do to store, name table and open blocks. Every invariant of a build is an
induction over visits with the cases of `Builder.Step`; what is found wrong is only ever added to.
-/

namespace ComponentIdl

/-- What a visit may do to a class or interface. -/
inductive ObjectType.Grows : ObjectType → ObjectType → Prop where
  | method (o : ObjectType) (d : Decl.Method) : Grows o (o.pushMethod (.ofDecl d))
  | constructor (o : ObjectType) (d : Decl.Constructor) : Grows o (o.pushConstructor (.ofDecl d))
  | fragment {o o' : ObjectType} (d : Decl.Property) (count : Nat)
      (h : o.addFragment d count (AccessorRequest.ofDecl d).asked = .ok o') : Grows o o'
  | event {o : ObjectType} (d : Decl.Event) (he : o.event? d.name = none)
      (hp : o.property? d.name = none) : Grows o (o.addEvent d)

/-- The property of a first fragment, before it has accessors. -/
def Property.first (d : Decl.Property) : Property :=
  { name := d.name, line := d.line, isStatic := d.isStatic, type := .parse d.type,
    getter := none, setter := none, overrides := none }

theorem ObjectType.addFragment_cases {o o' : ObjectType} {d : Decl.Property} {count : Nat}
    {asked : List (PropertyRole × Nat)} (h : o.addFragment d count asked = .ok o') :
    o.event? d.name = none ∧
      ((o.property? d.name = none ∧
        o' = ({ o with properties := o.properties ++ [.first d] } : ObjectType).addAccessors
          o.properties.length asked) ∨
      ∃ p index, o.property? d.name = some (p, index) ∧ count < 3 ∧
        sameMeaning o.scope p.type (.parse d.type) = true ∧ p.isStatic = d.isStatic ∧
        (∀ a ∈ asked, p.has a.1 = false) ∧ o' = o.addAccessors index asked) := by
  unfold addFragment at h
  dsimp only at h
  split at h
  · simp at h
  · next hevent =>
    refine ⟨by simpa using hevent, ?_⟩
    split at h
    · next hp => exact Or.inl ⟨hp, (Except.ok.inj h).symm⟩
    · next p index hp =>
      split at h
      · simp at h
      · next hlegal =>
        split at h
        · simp at h
        · next hfree =>
          simp only [Bool.or_eq_true, decide_eq_true_eq, Bool.not_eq_true', bne_iff_ne, ne_eq,
            not_or, Nat.not_le, Bool.not_eq_false, Decidable.not_not] at hlegal
          refine Or.inr ⟨p, index, hp, hlegal.1.1, hlegal.1.2, hlegal.2, ?_, (Except.ok.inj h).symm⟩
          intro a ha
          rw [← Bool.not_eq_true]
          exact fun hh => hfree (List.any_eq_true.2 ⟨a, ha, hh⟩)

/-- A class or interface without members. -/
structure ObjectType.IsNew (o : ObjectType) (h : Header) : Prop where
  header : o.toHeader = h
  requires : ∃ names : List String, o.requires = names.map Reference.named
  methods : o.methods = []
  properties : o.properties = []
  events : o.events = []
  cycle : o.cycle = .unknown
  derivedFrom : o.derivedFrom = none
  constructors : o.constructors = []
  derived : ∀ c, o.classPart = some c → c.derived = {}

/-- A declaration as it is when it gets its slot. -/
def Entity.IsNew (h : Header) : Entity → Prop
  | .object o => o.IsNew h
  | .struct s => s = { toHeader := h }
  | .enum e => ∃ base, e = { toHeader := h, base }
  | .delegate d => ∃ written : Decl.Delegate, d =
    { toHeader := h, result := written.result.map Reference.parse,
      parameters := written.parameters.map Parameter.ofDecl }

/-- The name of the type that a visit declares. -/
def Visit.typeName? : Visit → Option String
  | .openClass d => some d.name
  | .openInterface d => some d.name
  | .openStruct d => some d.name
  | .openEnum d => some d.name
  | .openDelegate d => some d.name
  | _ => none

namespace Builder

/-- What the visit `v` does to a builder. -/
inductive Step (b : Builder) (v : Visit) (b' : Builder) : Prop where
  /-- Store and name table stay; a block may be left. -/
  | keep (store : b'.store = b.store) (symbols : b'.symbols = b.symbols)
      (blocks : b'.openBlocks ⊆ b.openBlocks)
  | opened (d : Decl.Block) (h : b' = b.openBlock d)
  /-- A declaration whose name is free gets a slot and a symbol. -/
  | declared (node : NamespaceId) (block : Nat) (rest : List (NamespaceId × Nat)) (h : Header)
      (entity : Entity) (innermost : b.openBlocks = (node, block) :: rest)
      (named : v.typeName? = some h.name) (scope : h.scope = b.store.namespaces.nameOf node)
      (free : b.store.namespaces.symbol? node h.name = none) (isNew : entity.IsNew h)
      (store : b'.store = b.store.declare node block h.name entity)
      (symbols : b'.symbols = b.symbols.insert h.dottedName (b.store.nextSymbol entity))
      (blocks : b'.openBlocks = b.openBlocks)
  | grown (id : ObjectId) (f : ObjectType → ObjectType)
      (grows : ∀ o, b.store.objects[id]? = some o → o.Grows (f o))
      (store : b'.store = b.store.modifyObject id f) (symbols : b'.symbols = b.symbols)
      (blocks : b'.openBlocks = b.openBlocks)
  /-- A field is added to a struct that has none of its name. -/
  | field (id : StructId) (d : Decl.Field)
      (free : ∀ s, b.store.structs[id]? = some s → s.hasFieldNamed d.name = false)
      (store : b'.store = b.store.modifyStruct id fun s =>
        { s with fields := s.fields ++ [⟨d.name, d.line, .parse d.type⟩] })
      (symbols : b'.symbols = b.symbols) (blocks : b'.openBlocks = b.openBlocks)
  /-- A member is added to the enum being visited, if it has none of its name. -/
  | enumMember (id : EnumId) (d : Decl.EnumMember)
      (free : ∀ e, b.store.enums[id]? = some e → e.memberIndex? d.name = none)
      (store : b'.store = b.store.modifyEnum id fun e =>
        { e with members := e.members.push (.ofDecl d) })
      (symbols : b'.symbols = b.symbols) (blocks : b'.openBlocks = b.openBlocks)
      (focused : b.focus = .enum id)

variable {b b' : Builder} {v : Visit}

theorem Step.refl (b : Builder) (v : Visit) : b.Step v b :=
  .keep rfl rfl fun _ h => h

theorem declare_cases (b : Builder) (name : String) (line : Nat) (make : Header → Entity) :
    ((b.declare name line make).1.store = b.store ∧
      (b.declare name line make).1.symbols = b.symbols ∧
      (b.declare name line make).1.openBlocks = b.openBlocks ∧
      (b.declare name line make).2 = none) ∨
    ∃ node block rest,
      let h : Header :=
        { name, scope := b.store.namespaces.nameOf node, line, assembly := b.assembly }
      b.openBlocks = (node, block) :: rest ∧ b.store.namespaces.symbol? node name = none ∧
      (b.declare name line make).1.store = b.store.declare node block name (make h) ∧
      (b.declare name line make).1.symbols =
        b.symbols.insert h.dottedName (b.store.nextSymbol (make h)) ∧
      (b.declare name line make).1.openBlocks = b.openBlocks ∧
      (b.declare name line make).2 = some (b.store.nextSymbol (make h)) := by
  unfold declare
  cases hb : b.openBlocks with
  | nil => exact Or.inl ⟨rfl, rfl, hb, rfl⟩
  | cons head rest =>
    obtain ⟨node, block⟩ := head
    dsimp only
    cases hs : b.store.namespaces.symbol? node name with
    | some existing => exact Or.inl ⟨rfl, rfl, hb, rfl⟩
    | none => exact Or.inr ⟨node, block, rest, rfl, hs, rfl, rfl, rfl, rfl⟩

theorem step_declare {name : String} {line : Nat} (make : Header → Entity)
    (hname : v.typeName? = some name) (hnew : ∀ h, (make h).IsNew h)
    (hstore : b'.store = (b.declare name line make).1.store)
    (hsymbols : b'.symbols = (b.declare name line make).1.symbols)
    (hblocks : b'.openBlocks = (b.declare name line make).1.openBlocks) : b.Step v b' := by
  rcases declare_cases b name line make with
    ⟨h1, h2, h3, -⟩ | ⟨node, block, rest, hb, hfree, h1, h2, h3, -⟩
  · refine .keep (hstore.trans h1) (hsymbols.trans h2) ?_
    rw [hblocks, h3]
    exact fun _ h => h
  · exact .declared node block rest _ _ hb hname rfl hfree (hnew _) (hstore.trans h1)
      (hsymbols.trans h2) (hblocks.trans h3)

theorem isNew_class (d : Decl.Class) (h : Header) :
    (Entity.object
      { toHeader := h, classPart := some { modifiers := d.modifiers },
        requires := d.requires.map Reference.named }).IsNew h := by
  refine ⟨rfl, ⟨_, rfl⟩, rfl, rfl, rfl, rfl, rfl, rfl, ?_⟩
  intro c hc
  rw [← Option.some.inj hc]

theorem isNew_interface (d : Decl.Interface) (h : Header) :
    (Entity.object
      { toHeader := h, classPart := none,
        requires := d.requires.map Reference.named }).IsNew h :=
  ⟨rfl, ⟨_, rfl⟩, rfl, rfl, rfl, rfl, rfl, rfl, fun _ hc => absurd hc (by simp)⟩

/-! ### Members -/

theorem step_closeObject (b : Builder) (v : Visit) : b.Step v b.closeObject := by
  unfold closeObject
  split
  · split <;> exact .keep rfl rfl fun _ h => h
  · exact .keep rfl rfl fun _ h => h

theorem step_addMethod (b : Builder) (v : Visit) (d : Decl.Method) : b.Step v (b.addMethod d) := by
  unfold addMethod
  split
  · exact .grown _ _ (fun o _ => .method o d) rfl rfl rfl
  · exact .refl b v

theorem step_addConstructor (b : Builder) (v : Visit) (d : Decl.Constructor) :
    b.Step v (b.addConstructor d) := by
  unfold addConstructor
  split
  · exact .grown _ _ (fun o _ => .constructor o d) rfl rfl rfl
  · exact .refl b v

theorem step_addProperty (b : Builder) (v : Visit) (d : Decl.Property) :
    b.Step v (b.addProperty d) := by
  unfold addProperty
  split
  · next id _ =>
    dsimp only
    cases ho : b.store.objects[id]? with
    | none => exact .keep rfl rfl fun _ h => h
    | some o =>
      dsimp only
      split
      · exact .keep rfl rfl fun _ h => h
      · next grown hgrown =>
        refine .grown id (fun _ => grown) ?_ rfl rfl rfl
        intro o' ho'
        obtain rfl : o = o' := Option.some.inj (ho.symm.trans ho')
        exact .fragment d _ hgrown
  · exact .refl b v

theorem step_addEvent (b : Builder) (v : Visit) (d : Decl.Event) : b.Step v (b.addEvent d) := by
  unfold addEvent
  split
  · next id _ =>
    cases ho : b.store.objects[id]? with
    | none => exact .refl b v
    | some o =>
      dsimp only
      split
      · exact .keep rfl rfl fun _ h => h
      · next hfree =>
        simp only [Bool.or_eq_true, not_or, Bool.not_eq_true, Option.isSome_eq_false_iff,
          Option.isNone_iff_eq_none] at hfree
        have hgrows : ∀ o', b.store.objects[id]? = some o' → o'.Grows (o'.addEvent d) := by
          intro o' ho'
          obtain rfl : o = o' := Option.some.inj (ho.symm.trans ho')
          exact .event d hfree.1 hfree.2
        by_cases ha : d.accessors.isSome = true
        · rw [if_pos ha]
          exact .grown id _ hgrows rfl rfl rfl
        · rw [if_neg ha]
          exact .grown id _ hgrows rfl rfl rfl
  · exact .refl b v

theorem step_addField (b : Builder) (v : Visit) (d : Decl.Field) : b.Step v (b.addField d) := by
  unfold addField
  split
  · next id _ =>
    cases hs : b.store.structs[id]? with
    | none => exact .refl b v
    | some s =>
      dsimp only
      split
      · exact .keep rfl rfl fun _ h => h
      · next hfree =>
        refine .field id d ?_ rfl rfl rfl
        intro s' hs'
        obtain rfl : s = s' := Option.some.inj (hs.symm.trans hs')
        simpa using hfree
  · exact .refl b v

theorem step_addEnumMember (b : Builder) (v : Visit) (d : Decl.EnumMember) :
    b.Step v (b.addEnumMember d) := by
  unfold addEnumMember
  split
  · next id hfocus =>
    cases he : b.store.enums[id]? with
    | none => exact .refl b v
    | some e =>
      dsimp only
      split
      · exact .keep rfl rfl fun _ h => h
      · next hfree =>
        refine .enumMember id d ?_ rfl rfl rfl hfocus
        intro e' he'
        obtain rfl : e = e' := Option.some.inj (he.symm.trans he')
        simpa using hfree
  · exact .refl b v

theorem step_visit (b : Builder) (v : Visit) : b.Step v (b.visit v) := by
  cases v with
  | openUnit u => exact .refl b _
  | closeUnit u => exact .refl b _
  | openBlock d => exact .opened d rfl
  | closeBlock d => exact .keep rfl rfl fun _ h => List.mem_of_mem_tail h
  | openClass d => exact step_declare _ rfl (isNew_class d) rfl rfl rfl
  | closeClass d => exact step_closeObject b _
  | openInterface d => exact step_declare _ rfl (isNew_interface d) rfl rfl rfl
  | closeInterface d => exact step_closeObject b _
  | openStruct d =>
    exact step_declare (fun h => .struct { toHeader := h }) rfl (fun _ => rfl) rfl rfl rfl
  | closeStruct d => exact .keep rfl rfl fun _ h => h
  | openEnum d =>
    exact step_declare (fun h => .enum { toHeader := h, base := d.base }) rfl (fun _ => ⟨_, rfl⟩)
      rfl rfl rfl
  | closeEnum d => exact .keep rfl rfl fun _ h => h
  | openDelegate d =>
    exact step_declare
      (fun h => .delegate
        { toHeader := h, result := d.result.map Reference.parse,
          parameters := d.parameters.map Parameter.ofDecl })
      rfl (fun _ => ⟨d, rfl⟩) rfl rfl rfl
  | closeDelegate d => exact .refl b _
  | enumMember d => exact step_addEnumMember b _ d
  | field d => exact step_addField b _ d
  | method d => exact step_addMethod b _ d
  | property d => exact step_addProperty b _ d
  | event d => exact step_addEvent b _ d
  | constructor d => exact step_addConstructor b _ d

/-! ### Runs -/

/-- What every visit preserves holds after a run. -/
theorem run_preserves {P : Builder → Prop} (visits : List Visit)
    (hvisit : ∀ v ∈ visits, ∀ b, P b → P (b.visit v)) (h : P b) : P (b.run visits) := by
  induction visits generalizing b with
  | nil => exact h
  | cons v visits ih =>
    exact ih (fun w hw => hvisit w (List.mem_cons_of_mem v hw)) (hvisit v List.mem_cons_self b h)

theorem slots_declare (st : Store) (node : NamespaceId) (block : Nat) (name : String)
    (e : Entity) :
    (st.declare node block name e).objects = (st.add e).objects ∧
    (st.declare node block name e).structs = (st.add e).structs ∧
    (st.declare node block name e).enums = (st.add e).enums ∧
    (st.declare node block name e).delegates = (st.add e).delegates := by
  unfold Store.declare
  split <;> exact ⟨rfl, rfl, rfl, rfl⟩

/-- A new block changes the tree only. -/
theorem slots_openBlock (b : Builder) (d : Decl.Block) :
    (b.openBlock d).store.objects = b.store.objects ∧
    (b.openBlock d).store.structs = b.store.structs ∧
    (b.openBlock d).store.enums = b.store.enums ∧
    (b.openBlock d).store.delegates = b.store.delegates := by
  unfold openBlock
  exact ⟨rfl, rfl, rfl, rfl⟩

theorem Step.object {o' : ObjectType} {i : ObjectId} (h : Step b v b')
    (hi : b'.store.objects[i]? = some o') :
    b.store.objects[i]? = some o' ∨ (∃ o, b.store.objects[i]? = some o ∧ o.Grows o') ∨
      ∃ header, o'.IsNew header := by
  cases h with
  | keep store _ _ =>
    rw [store] at hi
    exact Or.inl hi
  | opened d h =>
    rw [h, (slots_openBlock ..).1] at hi
    exact Or.inl hi
  | declared node block rest header entity _ _ _ _ isNew store _ _ =>
    rw [store, (slots_declare ..).1] at hi
    cases entity with
    | object o =>
      simp only [Store.add, Array.getElem?_push] at hi
      split at hi
      · obtain rfl := Option.some.inj hi
        exact Or.inr (Or.inr ⟨header, isNew⟩)
      · exact Or.inl hi
    | struct s => exact Or.inl hi
    | enum e => exact Or.inl hi
    | delegate d => exact Or.inl hi
  | grown id f grows store _ _ =>
    rw [store, Store.modifyObject, Array.getElem?_modify] at hi
    split at hi
    · next hid =>
      subst hid
      obtain ⟨o, ho, rfl⟩ := Option.map_eq_some_iff.1 hi
      exact Or.inr (Or.inl ⟨o, ho, grows o ho⟩)
    · exact Or.inl hi
  | field _ _ _ store _ _ =>
    rw [store] at hi
    exact Or.inl hi
  | enumMember _ _ _ store _ _ =>
    rw [store] at hi
    exact Or.inl hi

/-- What holds of a new class or interface and is kept as it grows holds of all that are built. -/
theorem run_objects {Q : ObjectType → Prop} (visits : List Visit)
    (hnew : ∀ o header, ObjectType.IsNew o header → Q o)
    (hgrows : ∀ o o', ObjectType.Grows o o' → Q o → Q o') (h : ∀ o ∈ b.store.objects, Q o) :
    ∀ o ∈ (b.run visits).store.objects, Q o := by
  apply run_preserves (P := fun b => ∀ o ∈ b.store.objects, Q o) visits _ h
  intro v _ b hb o' ho'
  obtain ⟨i, hi⟩ := Array.mem_iff_getElem?.1 ho'
  rcases (step_visit b v).object hi with hold | ⟨o, ho, hgrow⟩ | ⟨header, hn⟩
  · exact hb o' (Array.mem_of_getElem? hold)
  · exact hgrows o o' hgrow (hb o (Array.mem_of_getElem? ho))
  · exact hnew o' header hn

theorem found_declare (b : Builder) (name : String) (line : Nat) (make : Header → Entity) :
    b.found <+: (b.declare name line make).1.found := by
  unfold declare
  split
  · exact List.prefix_rfl
  · dsimp only
    split
    · exact List.prefix_append ..
    · exact List.prefix_rfl

theorem found_closeObject (b : Builder) : b.found <+: b.closeObject.found := by
  unfold closeObject
  split
  · split
    · exact List.prefix_append ..
    · exact List.prefix_rfl
  · exact List.prefix_rfl

theorem found_visit (b : Builder) (v : Visit) : b.found <+: (b.visit v).found := by
  cases v with
  | openUnit u => exact List.prefix_rfl
  | closeUnit u => exact List.prefix_rfl
  | openBlock d => exact List.prefix_append ..
  | closeBlock d => exact List.prefix_rfl
  | openClass d => exact found_declare ..
  | closeClass d => exact found_closeObject b
  | openInterface d => exact found_declare ..
  | closeInterface d => exact found_closeObject b
  | openStruct d => exact found_declare ..
  | closeStruct d => exact List.prefix_rfl
  | openEnum d => exact found_declare ..
  | closeEnum d => exact List.prefix_rfl
  | openDelegate d => exact found_declare ..
  | closeDelegate d => exact List.prefix_rfl
  | enumMember d =>
    simp only [visit, addEnumMember]
    repeat' split
    all_goals first | exact List.prefix_rfl | exact List.prefix_append ..
  | field d =>
    simp only [visit, addField]
    repeat' split
    all_goals first | exact List.prefix_rfl | exact List.prefix_append ..
  | method d =>
    simp only [visit, addMethod]
    split <;> exact List.prefix_rfl
  | property d =>
    simp only [visit, addProperty]
    repeat' split
    all_goals first
      | exact List.prefix_rfl
      | exact List.prefix_append ..
      | exact (List.prefix_append ..).trans (List.prefix_append ..)
  | event d =>
    simp only [visit, addEvent]
    repeat' split
    all_goals first | exact List.prefix_rfl | exact List.prefix_append ..
  | constructor d =>
    simp only [visit, addConstructor]
    split <;> exact List.prefix_rfl

theorem found_run (b : Builder) (visits : List Visit) : b.found <+: (b.run visits).found := by
  induction visits generalizing b with
  | nil => exact List.prefix_rfl
  | cons v visits ih => exact (found_visit b v).trans (ih (b.visit v))

end Builder

end ComponentIdl
