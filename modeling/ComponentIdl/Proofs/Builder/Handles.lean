import ComponentIdl.Proofs.EventTypes
import ComponentIdl.Proofs.Store.Handles

/-!
# Handles through a build

A build looks nothing up. The references that it makes are unbound or stand for built-in types, and
what it adds has no links; its only new handles are the symbols of the declarations that it adds.
-/

namespace ComponentIdl

/-- The reference leads to no slot. -/
def Reference.Slotless (r : Reference) : Prop :=
  ∀ target, r.target = some target → target.isBuiltin = true

theorem Reference.slotless_named (text : String) : (Reference.named text).Slotless :=
  fun _ h => absurd h (by simp [named])

theorem Reference.slotless_parse (text : String) : (Reference.parse text).Slotless :=
  fun _ h => Reference.isBuiltin_parse h

theorem Reference.Slotless.anchored {r : Reference} (h : r.Slotless) (st : Store)
    (imports : Array Import) : r.Anchored st imports := by
  intro target ht
  have hb := h target ht
  cases target with
  | primitive p => trivial
  | object => trivial
  | runtimeClass id => exact absurd hb Bool.false_ne_true
  | interface id => exact absurd hb Bool.false_ne_true
  | struct id => exact absurd hb Bool.false_ne_true
  | enum id => exact absurd hb Bool.false_ne_true
  | delegate id => exact absurd hb Bool.false_ne_true
  | imported id => exact absurd hb Bool.false_ne_true

theorem Parameter.slotless_ofDecl {parameters : List Decl.Parameter} {r : Reference}
    (h : r ∈ (parameters.map Parameter.ofDecl).map Parameter.type) : r.Slotless := by
  rw [List.map_map] at h
  obtain ⟨p, -, rfl⟩ := List.mem_map.1 h
  exact Reference.slotless_parse p.type

theorem Method.slotless_ofDecl (d : Decl.Method) {r : Reference}
    (h : r ∈ (Method.ofDecl d).references) : r.Slotless := by
  rcases List.mem_append.1 h with h | h
  · obtain ⟨text, -, rfl⟩ := Option.map_eq_some_iff.1 (Option.mem_toList.1 h)
    exact Reference.slotless_parse text
  · exact Parameter.slotless_ofDecl h

namespace ObjectType

variable {o o' o'' : ObjectType}

theorem mem_references {r : Reference} : r ∈ o.references ↔
    (∃ m ∈ o.methods, r ∈ m.references) ∨ (∃ p ∈ o.properties, p.type = r) ∨
      (∃ e ∈ o.events, e.type = r) ∨
      ∃ c ∈ o.constructors, ∃ p ∈ c.parameters, p.type = r := by
  unfold references
  simp only [List.mem_append, List.mem_flatMap, List.mem_map, or_assoc]

/-- The second comes from the first by adding members without links, whose references are those of
members before or lead to no slot. -/
structure Adds (o o' : ObjectType) : Prop where
  continues : o.Continues o'
  references : ∀ r ∈ o'.references, r ∈ o.references ∨ r.Slotless
  requires : o'.requires = o.requires
  links : o.SameLinks o'

theorem Adds.refl (o : ObjectType) : o.Adds o :=
  ⟨.refl o, fun _ hr => Or.inl hr, rfl, rfl, rfl, rfl⟩

theorem Adds.trans (h : o.Adds o') (h' : o'.Adds o'') : o.Adds o'' := by
  refine ⟨⟨?_, ?_, ?_, ?_⟩, ?_, h'.requires.trans h.requires,
    h'.links.methods.trans h.links.methods, h'.links.properties.trans h.links.properties,
    h'.links.events.trans h.links.events⟩
  · exact h'.continues.isClass.trans h.continues.isClass
  · exact Nat.le_trans h.continues.methods h'.continues.methods
  · exact Nat.le_trans h.continues.properties h'.continues.properties
  · exact Nat.le_trans h.continues.events h'.continues.events
  · intro r hr
    rcases h'.references r hr with hr | hr
    · exact h.references r hr
    · exact Or.inr hr

theorem adds_pushMethod (o : ObjectType) {m : Method} (hm : m.overrides = none)
    (hr : ∀ r ∈ m.references, r ∈ o.references ∨ r.Slotless) : o.Adds (o.pushMethod m) := by
  refine ⟨⟨rfl, ?_, Nat.le_refl _, Nat.le_refl _⟩, ?_, rfl, ?_, rfl, rfl⟩
  · unfold pushMethod
    rw [List.length_append]
    exact Nat.le_add_right _ _
  · intro r hmem
    rcases mem_references.1 hmem with ⟨n, hn, hmem⟩ | hrest
    · rcases List.mem_append.1 hn with hn | hn
      · exact Or.inl (mem_references.2 (Or.inl ⟨n, hn, hmem⟩))
      · exact hr r (List.mem_singleton.1 hn ▸ hmem)
    · exact Or.inl (mem_references.2 (Or.inr hrest))
  · show (o.methods ++ [m]).filterMap Method.overrides = _
    rw [List.filterMap_append, List.filterMap_cons_none hm, List.filterMap_nil, List.append_nil]
    rfl

theorem adds_pushConstructor (o : ObjectType) (d : Decl.Constructor) :
    o.Adds (o.pushConstructor (.ofDecl d)) := by
  refine ⟨⟨?_, Nat.le_refl _, Nat.le_refl _, Nat.le_refl _⟩, ?_, rfl, rfl, rfl, rfl⟩
  · exact congrArg Prod.snd (Builder.grows_label (.constructor o d))
  · intro r hmem
    rcases mem_references.1 hmem with h | h | h | ⟨c, hc, p, hp, rfl⟩
    · exact Or.inl (mem_references.2 (Or.inl h))
    · exact Or.inl (mem_references.2 (Or.inr (Or.inl h)))
    · exact Or.inl (mem_references.2 (Or.inr (Or.inr (Or.inl h))))
    · have hconstructors : (o.pushConstructor (.ofDecl d)).constructors =
          if o.isClass then o.constructors ++ [.ofDecl d] else [] := by
        unfold constructors pushConstructor isClass
        cases o.classPart <;> rfl
      rw [hconstructors] at hc
      split at hc
      · rcases List.mem_append.1 hc with hc | hc
        · exact Or.inl (mem_references.2 (Or.inr (Or.inr (Or.inr ⟨c, hc, p, hp, rfl⟩))))
        · rw [List.mem_singleton.1 hc] at hp
          exact Or.inr (Parameter.slotless_ofDecl (List.mem_map_of_mem hp))
      · exact absurd hc List.not_mem_nil

theorem adds_property (o : ObjectType) (d : Decl.Property) :
    o.Adds { o with properties := o.properties ++ [.first d] } := by
  refine ⟨⟨rfl, Nat.le_refl _, ?_, Nat.le_refl _⟩, ?_, rfl, rfl, ?_, rfl⟩
  · rw [List.length_append]
    exact Nat.le_add_right _ _
  · intro r hmem
    rcases mem_references.1 hmem with h | ⟨p, hp, rfl⟩ | h | h
    · exact Or.inl (mem_references.2 (Or.inl h))
    · rcases List.mem_append.1 hp with hp | hp
      · exact Or.inl (mem_references.2 (Or.inr (Or.inl ⟨p, hp, rfl⟩)))
      · rw [List.mem_singleton.1 hp]
        exact Or.inr (Reference.slotless_parse d.type)
    · exact Or.inl (mem_references.2 (Or.inr (Or.inr (Or.inl h))))
    · exact Or.inl (mem_references.2 (Or.inr (Or.inr (Or.inr h))))
  · show (o.properties ++ [Property.first d]).filterMap Property.overrides = _
    rw [List.filterMap_append, List.filterMap_cons_none rfl, List.filterMap_nil, List.append_nil]
    rfl

theorem adds_setPosition (o : ObjectType) (index i : Nat) (role : PropertyRole) :
    o.Adds { o with properties := o.properties.modify index fun q => q.setPosition i role } := by
  have hsame : ∀ {β : Type} (g : Property → β), (∀ q : Property, g (q.setPosition i role) = g q) →
      (o.properties.modify index fun q => q.setPosition i role).map g = o.properties.map g :=
    fun g hg => map_modify _ _ hg
  have htype : ∀ q : Property, (q.setPosition i role).type = q.type := by
    intro q
    cases role <;> rfl
  have hlink : ∀ q : Property, (q.setPosition i role).overrides = q.overrides := by
    intro q
    cases role <;> rfl
  refine ⟨⟨rfl, Nat.le_refl _, Nat.le_of_eq (List.length_modify ..).symm, Nat.le_refl _⟩, ?_, rfl,
    rfl, ?_, rfl⟩
  · intro r hmem
    rcases mem_references.1 hmem with h | h | h | h
    · exact Or.inl (mem_references.2 (Or.inl h))
    · have htypes := List.mem_map.2 h
      rw [hsame _ htype] at htypes
      exact Or.inl (mem_references.2 (Or.inr (Or.inl (List.mem_map.1 htypes))))
    · exact Or.inl (mem_references.2 (Or.inr (Or.inr (Or.inl h))))
    · exact Or.inl (mem_references.2 (Or.inr (Or.inr (Or.inr h))))
  · have hlinks := congrArg (List.filterMap id) (hsame _ hlink)
    rw [List.filterMap_map, List.filterMap_map] at hlinks
    exact hlinks

theorem adds_addAccessor (o : ObjectType) (index : Nat) (role : PropertyRole) (line : Nat) :
    o.Adds (o.addAccessor index role line) := by
  unfold addAccessor
  cases hp : o.properties[index]? with
  | none => exact .refl o
  | some p =>
    have hpush : o.Adds (o.pushMethod (p.accessor role line)) := by
      refine adds_pushMethod o rfl ?_
      intro r hr
      rw [(p.served_accessor role line).reference hr]
      exact Or.inl (mem_references.2 (Or.inr (Or.inl ⟨p, List.mem_of_getElem? hp, rfl⟩)))
    exact hpush.trans (adds_setPosition _ index o.methods.length role)

theorem adds_addAccessors (o : ObjectType) (index : Nat) (asked : List (PropertyRole × Nat)) :
    o.Adds (o.addAccessors index asked) := by
  induction asked generalizing o with
  | nil => exact .refl o
  | cons a asked ih => exact (adds_addAccessor o index a.1 a.2).trans (ih _)

theorem adds_addEvent (o : ObjectType) (d : Decl.Event) : o.Adds (o.addEvent d) := by
  let e : Event :=
    { name := d.name, line := d.line, isStatic := d.isStatic, type := .parse d.type,
      adder := o.methods.length, remover := o.methods.length + 1, overrides := none }
  have hslotless : ∀ role, ∀ r ∈ (e.accessor role).references, r.Slotless := by
    intro role r hr
    cases role with
    | add =>
      rcases List.mem_cons.1 hr with rfl | hr
      · exact Reference.slotless_named registrationToken
      · rw [List.mem_singleton.1 hr]
        exact Reference.slotless_parse d.type
    | remove =>
      rw [List.mem_singleton.1 hr]
      exact Reference.slotless_named registrationToken
  have hadder := adds_pushMethod o (m := e.accessor .add) rfl
    fun r hr => Or.inr (hslotless .add r hr)
  have hremover := adds_pushMethod (o.pushMethod (e.accessor .add)) (m := e.accessor .remove) rfl
    fun r hr => Or.inr (hslotless .remove r hr)
  refine (hadder.trans hremover).trans ⟨⟨rfl, Nat.le_refl _, Nat.le_refl _, ?_⟩, ?_, rfl, rfl, rfl, ?_⟩
  · show o.events.length ≤ (o.events ++ [e]).length
    rw [List.length_append]
    exact Nat.le_add_right _ _
  · intro r hmem
    rcases mem_references.1 hmem with h | h | ⟨x, hx, rfl⟩ | h
    · exact Or.inl (mem_references.2 (Or.inl h))
    · exact Or.inl (mem_references.2 (Or.inr (Or.inl h)))
    · rcases List.mem_append.1 hx with hx | hx
      · exact Or.inl (mem_references.2 (Or.inr (Or.inr (Or.inl ⟨x, hx, rfl⟩))))
      · rw [List.mem_singleton.1 hx]
        exact Or.inr (Reference.slotless_parse d.type)
    · exact Or.inl (mem_references.2 (Or.inr (Or.inr (Or.inr h))))
  · show (o.events ++ [e]).filterMap Event.overrides = o.events.filterMap Event.overrides
    rw [List.filterMap_append, List.filterMap_cons_none rfl, List.filterMap_nil, List.append_nil]

theorem Grows.adds (h : o.Grows o') : o.Adds o' := by
  cases h with
  | method d => exact adds_pushMethod o rfl fun r hr => Or.inr (Method.slotless_ofDecl d hr)
  | constructor d => exact adds_pushConstructor o d
  | fragment d count ho =>
    obtain ⟨-, ⟨-, rfl⟩ | ⟨p, index, -, -, -, -, -, rfl⟩⟩ := addFragment_cases ho
    · exact (adds_property o d).trans (adds_addAccessors _ _ _)
    · exact adds_addAccessors o _ _
  | event d _ _ => exact adds_addEvent o d

theorem IsNew.references {header : Header} (h : o.IsNew header) : o.references = [] := by
  unfold ObjectType.references
  rw [h.methods, h.properties, h.events, h.constructors]
  rfl

theorem IsNew.anchored {header : Header} (h : o.IsNew header) (st : Store)
    (imports : Array Import) : o.Anchored st imports := by
  refine ⟨?_, ?_, ?_, ?_, ?_⟩
  · intro r hr
    rw [h.references] at hr
    exact absurd hr List.not_mem_nil
  · intro r hr target htarget
    obtain ⟨names, hnames⟩ := h.requires
    rw [hnames] at hr
    obtain ⟨name, -, rfl⟩ := List.mem_map.1 hr
    exact absurd htarget (by simp [Reference.named])
  · simp [inheritedMethods, h.methods]
  · simp [inheritedProperties, h.properties]
  · simp [inheritedEvents, h.events]

end ObjectType

namespace Builder

variable {b b' : Builder} {v : Visit}

theorem header?_declare (st : Store) (node : NamespaceId) (block : Nat) (name : String) (e : Entity)
    (σ : Symbol) : (st.declare node block name e).header? σ = (st.add e).header? σ := by
  unfold Store.declare
  split <;> cases σ <;> rfl

theorem size_le_add (st : Store) (e : Entity) : st.structs.size ≤ (st.add e).structs.size ∧
    st.enums.size ≤ (st.add e).enums.size ∧ st.delegates.size ≤ (st.add e).delegates.size := by
  cases e <;> simp [Store.add]

theorem Step.imports (h : Step b v b') : b'.symbols.imports = b.symbols.imports := by
  cases h with
  | keep _ symbols _ => rw [symbols]
  | opened d h => rw [h, symbols_openBlock]
  | declared _ _ _ _ _ _ _ _ _ _ _ symbols _ => rw [symbols]; rfl
  | grown _ _ _ _ symbols _ => rw [symbols]
  | field _ _ _ _ symbols _ => rw [symbols]
  | enumMember _ _ _ _ symbols _ => rw [symbols]

theorem Step.continues (h : Step b v b') :
    b.store.Continues b.symbols.imports b'.store b'.symbols.imports := by
  rw [h.imports]
  have hslots : ∀ st : Store, (∀ (i : ObjectId) o, b.store.objects[i]? = some o →
      ∃ o', st.objects[i]? = some o' ∧ o.Continues o') → b.store.structs.size ≤ st.structs.size →
      b.store.enums.size ≤ st.enums.size → b.store.delegates.size ≤ st.delegates.size →
      b.store.Continues b.symbols.imports st b.symbols.imports :=
    fun _ ho hs he hd => ⟨ho, hs, he, hd, fun _ _ hi => hi⟩
  cases h with
  | keep store _ _ =>
    rw [store]
    exact hslots _ (fun i o ho => ⟨o, ho, .refl o⟩) (Nat.le_refl _) (Nat.le_refl _) (Nat.le_refl _)
  | opened d h =>
    have hsame := b.slots_openBlock d
    rw [h]
    generalize (b.openBlock d).store = st at hsame ⊢
    obtain ⟨hobjects, hstructs, henums, hdelegates⟩ := hsame
    refine hslots _ ?_ (hstructs ▸ Nat.le_refl _) (henums ▸ Nat.le_refl _)
      (hdelegates ▸ Nat.le_refl _)
    exact fun i o ho => ⟨o, hobjects ▸ ho, .refl o⟩
  | declared node block rest header entity _ _ _ _ _ store _ _ =>
    obtain ⟨hobjects, hstructs, henums, hdelegates⟩ :=
      slots_declare b.store node block header.name entity
    obtain ⟨hs, he, hd⟩ := size_le_add b.store entity
    rw [store]
    refine hslots _ ?_ (hstructs ▸ hs) (henums ▸ he) (hdelegates ▸ hd)
    intro i o ho
    rw [hobjects]
    refine ⟨o, ?_, .refl o⟩
    cases entity with
    | object new =>
      have hlt := (Array.getElem?_eq_some_iff.1 ho).1
      rw [Store.add, Array.getElem?_push, if_neg (Nat.ne_of_lt hlt), ho]
    | struct s => exact ho
    | enum e => exact ho
    | delegate d => exact ho
  | grown id f grows store _ _ =>
    rw [store]
    refine hslots _ ?_ (Nat.le_refl _) (Nat.le_refl _) (Nat.le_refl _)
    intro i o ho
    rw [Store.modifyObject, Array.getElem?_modify]
    split
    · next hi =>
      subst hi
      exact ⟨f o, by rw [ho]; rfl, (grows o ho).adds.continues⟩
    · exact ⟨o, ho, .refl o⟩
  | field id d _ store _ _ =>
    rw [store]
    exact hslots _ (fun i o ho => ⟨o, ho, .refl o⟩)
      (Nat.le_of_eq Array.size_modify.symm) (Nat.le_refl _) (Nat.le_refl _)
  | enumMember id d _ store _ _ =>
    rw [store]
    exact hslots _ (fun i o ho => ⟨o, ho, .refl o⟩) (Nat.le_refl _)
      (Nat.le_of_eq Array.size_modify.symm) (Nat.le_refl _)

/-- A field was there before, or its type leads to no slot. -/
theorem Step.field_cases (h : Step b v b') {s' : StructType} (hs : s' ∈ b'.store.structs) {f : Field}
    (hf : f ∈ s'.fields) : (∃ s ∈ b.store.structs, f ∈ s.fields) ∨ f.type.Slotless := by
  cases h with
  | keep store _ _ => exact Or.inl ⟨s', store ▸ hs, hf⟩
  | opened d h =>
    rw [h, (slots_openBlock ..).2.1] at hs
    exact Or.inl ⟨s', hs, hf⟩
  | declared node block rest header entity _ _ _ _ isNew store _ _ =>
    rw [store, (slots_declare ..).2.1] at hs
    cases entity with
    | struct new =>
      rcases Array.mem_push.1 hs with hs | rfl
      · exact Or.inl ⟨s', hs, hf⟩
      · rw [show s' = _ from isNew] at hf
        exact absurd hf List.not_mem_nil
    | object o => exact Or.inl ⟨s', hs, hf⟩
    | enum e => exact Or.inl ⟨s', hs, hf⟩
    | delegate d => exact Or.inl ⟨s', hs, hf⟩
  | grown id f grows store _ _ =>
    rw [store] at hs
    exact Or.inl ⟨s', hs, hf⟩
  | field id d _ store _ _ =>
    rw [store] at hs
    obtain ⟨i, hi⟩ := Array.mem_iff_getElem?.1 hs
    rw [Store.modifyStruct, Array.getElem?_modify] at hi
    split at hi
    · obtain ⟨s, hsi, rfl⟩ := Option.map_eq_some_iff.1 hi
      rcases List.mem_append.1 hf with hf | hf
      · exact Or.inl ⟨s, Array.mem_of_getElem? hsi, hf⟩
      · rw [List.mem_singleton.1 hf]
        exact Or.inr (Reference.slotless_parse d.type)
    · exact Or.inl ⟨s', Array.mem_of_getElem? hi, hf⟩
  | enumMember id d _ store _ _ =>
    rw [store] at hs
    exact Or.inl ⟨s', hs, hf⟩

/-- A delegate was there before, or its references lead to no slot. -/
theorem Step.delegate_cases (h : Step b v b') {d' : DelegateType} (hd : d' ∈ b'.store.delegates) :
    d' ∈ b.store.delegates ∨ ∀ r ∈ d'.references, r.Slotless := by
  cases h with
  | keep store _ _ => exact Or.inl (store ▸ hd)
  | opened d h =>
    rw [h, (slots_openBlock ..).2.2.2] at hd
    exact Or.inl hd
  | declared node block rest header entity _ _ _ _ isNew store _ _ =>
    rw [store, (slots_declare ..).2.2.2] at hd
    cases entity with
    | delegate new =>
      rcases Array.mem_push.1 hd with hd | rfl
      · exact Or.inl hd
      · obtain ⟨written, hwritten⟩ := isNew
        right
        intro r hr
        rw [hwritten] at hr
        rcases List.mem_append.1 hr with hr | hr
        · obtain ⟨text, -, rfl⟩ := Option.map_eq_some_iff.1 (Option.mem_toList.1 hr)
          exact Reference.slotless_parse text
        · exact Parameter.slotless_ofDecl hr
    | object o => exact Or.inl hd
    | struct s => exact Or.inl hd
    | enum e => exact Or.inl hd
  | grown id f grows store _ _ =>
    rw [store] at hd
    exact Or.inl hd
  | field id d _ store _ _ =>
    rw [store] at hd
    exact Or.inl hd
  | enumMember id d _ store _ _ =>
    rw [store] at hd
    exact Or.inl hd

/-- An entry of the name table was there before, or is the symbol of a new declaration. -/
theorem Step.entry_cases (h : Step b v b') {name : String} {σ : Symbol}
    (hget : b'.symbols.get? name = some σ) :
    b.symbols.get? name = some σ ∨ ∃ header, b'.store.header? σ = some header := by
  cases h with
  | keep _ symbols _ => exact Or.inl (symbols ▸ hget)
  | opened d h =>
    rw [h, symbols_openBlock] at hget
    exact Or.inl hget
  | declared node block rest header entity _ _ _ _ _ store symbols _ =>
    rw [symbols] at hget
    rcases NameTable.get?_insert_cases hget with hold | ⟨-, rfl⟩
    · exact Or.inl hold
    · refine Or.inr ⟨entity.header, ?_⟩
      rw [store, header?_declare, Store.header?_add, if_pos rfl]
  | grown _ _ _ _ symbols _ => exact Or.inl (symbols ▸ hget)
  | field _ _ _ _ symbols _ => exact Or.inl (symbols ▸ hget)
  | enumMember _ _ _ _ symbols _ => exact Or.inl (symbols ▸ hget)

/-- No reference of a declaration leads to a slot. -/
structure Slotless (b : Builder) : Prop where
  objects : ∀ o ∈ b.store.objects, ∀ r ∈ o.references, r.Slotless
  fields : ∀ s ∈ b.store.structs, ∀ f ∈ s.fields, f.type.Slotless
  delegates : ∀ d ∈ b.store.delegates, ∀ r ∈ d.references, r.Slotless

theorem Slotless.step (h : b.Slotless) (hs : Step b v b') : b'.Slotless := by
  constructor
  · intro o' ho' r hr
    obtain ⟨i, hi⟩ := Array.mem_iff_getElem?.1 ho'
    rcases hs.object hi with hold | ⟨o, ho, hgrows⟩ | ⟨header, hnew⟩
    · exact h.objects o' (Array.mem_of_getElem? hold) r hr
    · exact (hgrows.adds.references r hr).elim (h.objects o (Array.mem_of_getElem? ho) r) id
    · rw [hnew.references] at hr
      exact absurd hr List.not_mem_nil
  · intro s hstruct f hf
    rcases hs.field_cases hstruct hf with ⟨s, hold, hf⟩ | hslotless
    · exact h.fields s hold f hf
    · exact hslotless
  · intro d hd r hr
    rcases hs.delegate_cases hd with hold | hslotless
    · exact h.delegates d hold r hr
    · exact hslotless r hr

theorem Slotless.run (h : b.Slotless) (visits : List Visit) : (b.run visits).Slotless :=
  run_preserves visits (fun v _ b hb => hb.step (step_visit b v)) h

/-- All handles of declarations and name table lead somewhere. -/
structure Anchored (b : Builder) : Prop where
  store : b.store.Anchored b.symbols.imports
  table : ∀ name σ, b.symbols.get? name = some σ → b.store.HasSymbol b.symbols.imports σ

theorem Anchored.step (h : b.Anchored) (hs : Step b v b') : b'.Anchored := by
  have hc := hs.continues
  refine ⟨⟨?_, ?_, ?_⟩, ?_⟩
  · intro o' ho'
    obtain ⟨i, hi⟩ := Array.mem_iff_getElem?.1 ho'
    rcases hs.object hi with hold | ⟨o, ho, hgrows⟩ | ⟨header, hnew⟩
    · exact (h.store.objects o' (Array.mem_of_getElem? hold)).mono hc
    · have hadds := hgrows.adds
      have hanchored := (h.store.objects o (Array.mem_of_getElem? ho)).mono hc
      refine hanchored.of_links ?_ (fun r hr => Or.inl (hadds.requires ▸ hr)) hadds.links
      exact fun r hr => (hadds.references r hr).imp_right fun hslotless => hslotless.anchored _ _
    · exact hnew.anchored _ _
  · intro s hstruct f hf
    rcases hs.field_cases hstruct hf with ⟨s, hold, hf⟩ | hslotless
    · exact (h.store.fields s hold f hf).mono hc
    · exact hslotless.anchored _ _
  · intro d hd r hr
    rcases hs.delegate_cases hd with hold | hslotless
    · exact (h.store.delegates d hold r hr).mono hc
    · exact (hslotless r hr).anchored _ _
  · intro name σ hget
    rcases hs.entry_cases hget with hold | ⟨header, hheader⟩
    · exact hc.hasSymbol (h.table name σ hold)
    · exact Store.hasSymbol_of_header? hheader

theorem Anchored.run (h : b.Anchored) (visits : List Visit) : (b.run visits).Anchored :=
  run_preserves visits (fun v _ b hb => hb.step (step_visit b v)) h

end Builder

end ComponentIdl
