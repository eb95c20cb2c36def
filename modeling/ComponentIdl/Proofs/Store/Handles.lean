import ComponentIdl.Proofs.Binding.Bound
import ComponentIdl.Proofs.Conflict.Links
import ComponentIdl.Proofs.Store.Similar

/-!
# Handles

Declarations point at each other by number: a target or symbol names a slot, a link names a member of
a class or interface by its position. Slots and members are only added, so a handle that leads
somewhere once leads there ever after.
-/

namespace ComponentIdl

variable {st st' st'' : Store} {imports imports' imports'' : Array Import}

namespace Store

/-- The target is a slot that exists and is of its kind, or a built-in type. -/
def HasTarget (st : Store) (imports : Array Import) : Target → Prop
  | .runtimeClass id => ∃ o, st.objects[id]? = some o ∧ o.isClass = true
  | .interface id => ∃ o, st.objects[id]? = some o ∧ o.isClass = false
  | .struct id => id < st.structs.size
  | .enum id => id < st.enums.size
  | .delegate id => id < st.delegates.size
  | .imported id => id < imports.size
  | .primitive _ => True
  | .object => True

/-- The symbol is a slot that exists and is of its kind; an import is of the kind that the symbol
tells. -/
def HasSymbol (st : Store) (imports : Array Import) : Symbol → Prop
  | .imported id kind => ∃ i, imports[id]? = some i ∧ i.kind = kind
  | σ => st.HasTarget imports σ.target

/-- The link leads to a method of a class or interface. -/
def HasMethod (st : Store) (link : MemberLink) : Prop :=
  ∃ b, st.objects[link.owner]? = some b ∧ link.index < b.methods.length

def HasProperty (st : Store) (link : MemberLink) : Prop :=
  ∃ b, st.objects[link.owner]? = some b ∧ link.index < b.properties.length

def HasEvent (st : Store) (link : MemberLink) : Prop :=
  ∃ b, st.objects[link.owner]? = some b ∧ link.index < b.events.length

theorem HasSymbol.hasTarget {σ : Symbol} (h : st.HasSymbol imports σ) :
    st.HasTarget imports σ.target := by
  cases σ with
  | imported id kind =>
    obtain ⟨i, hi, -⟩ := h
    exact (Array.getElem?_eq_some_iff.1 hi).1
  | runtimeClass id => exact h
  | interface id => exact h
  | struct id => exact h
  | enum id => exact h
  | delegate id => exact h

theorem hasSymbol_of_header? {σ : Symbol} {h : Header} (hσ : st.header? σ = some h) :
    st.HasSymbol imports σ := by
  have hlt : ∀ {α β : Type} {as : Array α} {f : α → β} {i : Nat} {b : β},
      (as[i]?).map f = some b → i < as.size := by
    intro α β as f i b hb
    obtain ⟨a, ha, -⟩ := Option.map_eq_some_iff.1 hb
    exact (Array.getElem?_eq_some_iff.1 ha).1
  cases σ with
  | runtimeClass id =>
    obtain ⟨o, ho, hclass⟩ := Option.bind_eq_some_iff.1 hσ
    refine ⟨o, ho, ?_⟩
    by_contra hc
    simp [hc] at hclass
  | interface id =>
    obtain ⟨o, ho, hclass⟩ := Option.bind_eq_some_iff.1 hσ
    refine ⟨o, ho, ?_⟩
    by_contra hc
    simp [hc] at hclass
  | struct id => exact hlt hσ
  | enum id => exact hlt hσ
  | delegate id => exact hlt hσ
  | imported id kind => exact absurd hσ (by simp [header?])

/-- An interface, local or imported, that a symbol stands for. -/
theorem HasSymbol.isInterface {σ : Symbol} (h : st.HasSymbol imports σ)
    (hi : σ.isInterface = true) : st.IsInterface imports σ.target := by
  cases σ with
  | interface id =>
    obtain ⟨o, ho, hclass⟩ := h
    refine ⟨o, ho, ?_⟩
    simpa [ObjectType.isClass, ObjectType.isInterface] using hclass
  | imported id kind =>
    obtain ⟨i, himport, rfl⟩ := h
    refine ⟨i, himport, ?_⟩
    cases hk : i.kind <;> simp [Symbol.isInterface, hk] at hi ⊢
  | runtimeClass id => exact absurd hi (by simp [Symbol.isInterface])
  | struct id => exact absurd hi (by simp [Symbol.isInterface])
  | enum id => exact absurd hi (by simp [Symbol.isInterface])
  | delegate id => exact absurd hi (by simp [Symbol.isInterface])

end Store

/-- The class or interface has at least the members of another one. -/
structure ObjectType.Continues (o o' : ObjectType) : Prop where
  isClass : o'.isClass = o.isClass
  methods : o.methods.length ≤ o'.methods.length
  properties : o.properties.length ≤ o'.properties.length
  events : o.events.length ≤ o'.events.length

theorem ObjectType.Continues.refl (o : ObjectType) : o.Continues o :=
  ⟨rfl, Nat.le_refl _, Nat.le_refl _, Nat.le_refl _⟩

theorem ObjectType.continues_of_core {o o' : ObjectType} (h : o'.core = o.core) :
    o.Continues o' := by
  have hlength : ∀ {α β : Type} {f : α → β} {as bs : List α}, bs.map f = as.map f →
      as.length ≤ bs.length := by
    intro α β f as bs hmap
    have hlen := congrArg List.length hmap
    rw [List.length_map, List.length_map] at hlen
    exact Nat.le_of_eq hlen.symm
  refine ⟨by rw [← o'.isClass_core, h, o.isClass_core], ?_, ?_, ?_⟩
  · exact hlength (congrArg ObjectType.methods h)
  · exact hlength (congrArg ObjectType.properties h)
  · exact hlength (congrArg ObjectType.events h)

theorem ObjectType.continues_boundIn (t : NameTable) (o : ObjectType) : o.Continues (o.boundIn t) := by
  have hlength : ∀ {α : Type} (f : α → α) (as : List α), as.length ≤ (as.map f).length :=
    fun _ _ => Nat.le_of_eq (List.length_map _).symm
  exact ⟨o.isClass_boundIn t, hlength _ _, hlength _ _, hlength _ _⟩

/-- Slots and members of one store are there in the other, and imports too. -/
structure Store.Continues (st : Store) (imports : Array Import) (st' : Store)
    (imports' : Array Import) : Prop where
  objects : ∀ (i : ObjectId) o, st.objects[i]? = some o →
    ∃ o', st'.objects[i]? = some o' ∧ o.Continues o'
  structs : st.structs.size ≤ st'.structs.size
  enums : st.enums.size ≤ st'.enums.size
  delegates : st.delegates.size ≤ st'.delegates.size
  imports : ∀ (id : ImportId) i, imports[id]? = some i → imports'[id]? = some i

theorem Store.continues_of_similar (imports : Array Import) (h : st.Similar st') :
    st.Continues imports st' imports := by
  have hsize : ∀ {α β : Type} {f : α → β} {as bs : Array α}, bs.map f = as.map f →
      as.size ≤ bs.size := by
    intro α β f as bs hmap
    have hlen := congrArg Array.size hmap
    rw [Array.size_map, Array.size_map] at hlen
    exact Nat.le_of_eq hlen.symm
  refine ⟨?_, hsize h.structs, hsize h.enums, Nat.le_of_eq (by rw [h.delegates]),
    fun _ _ hi => hi⟩
  intro i o ho
  obtain ⟨o', ho', hcore⟩ := h.symm.object ho
  exact ⟨o', ho', ObjectType.continues_of_core hcore.symm⟩

namespace Store.Continues

theorem hasTarget (h : st.Continues imports st' imports') {t : Target}
    (ht : st.HasTarget imports t) : st'.HasTarget imports' t := by
  cases t with
  | runtimeClass id =>
    obtain ⟨o, ho, hc⟩ := ht
    obtain ⟨o', ho', hcont⟩ := h.objects id o ho
    exact ⟨o', ho', hcont.isClass.trans hc⟩
  | interface id =>
    obtain ⟨o, ho, hc⟩ := ht
    obtain ⟨o', ho', hcont⟩ := h.objects id o ho
    exact ⟨o', ho', hcont.isClass.trans hc⟩
  | struct id => exact Nat.lt_of_lt_of_le ht h.structs
  | enum id => exact Nat.lt_of_lt_of_le ht h.enums
  | delegate id => exact Nat.lt_of_lt_of_le ht h.delegates
  | imported id =>
    exact (Array.getElem?_eq_some_iff.1 (h.imports id _ (Array.getElem?_eq_getElem ht))).1
  | primitive p => trivial
  | object => trivial

theorem hasSymbol (h : st.Continues imports st' imports') {σ : Symbol}
    (hσ : st.HasSymbol imports σ) : st'.HasSymbol imports' σ := by
  cases σ with
  | imported id kind =>
    obtain ⟨i, hi, hkind⟩ := hσ
    exact ⟨i, h.imports id i hi, hkind⟩
  | runtimeClass id => exact h.hasTarget (t := .runtimeClass id) hσ
  | interface id => exact h.hasTarget (t := .interface id) hσ
  | struct id => exact h.hasTarget (t := .struct id) hσ
  | enum id => exact h.hasTarget (t := .enum id) hσ
  | delegate id => exact h.hasTarget (t := .delegate id) hσ

theorem isInterface (h : st.Continues imports st' imports') {target : Target}
    (ht : st.IsInterface imports target) : st'.IsInterface imports' target := by
  cases target with
  | interface id =>
    obtain ⟨o, ho, hi⟩ := ht
    obtain ⟨o', ho', hcont⟩ := h.objects id o ho
    refine ⟨o', ho', ?_⟩
    have hclass := hcont.isClass
    unfold ObjectType.isInterface at hi ⊢
    unfold ObjectType.isClass at hclass
    rw [← Option.not_isSome] at hi ⊢
    rw [hclass, hi]
  | imported id =>
    obtain ⟨i, hi, hkind⟩ := ht
    exact ⟨i, h.imports id i hi, hkind⟩
  | runtimeClass id => exact ht.elim
  | struct id => exact ht.elim
  | enum id => exact ht.elim
  | delegate id => exact ht.elim
  | primitive p => exact ht.elim
  | object => exact ht.elim

theorem hasMethod (h : st.Continues imports st' imports') {link : MemberLink}
    (hl : st.HasMethod link) : st'.HasMethod link := by
  obtain ⟨b, hb, hlt⟩ := hl
  obtain ⟨b', hb', hcont⟩ := h.objects link.owner b hb
  exact ⟨b', hb', Nat.lt_of_lt_of_le hlt hcont.methods⟩

theorem hasProperty (h : st.Continues imports st' imports') {link : MemberLink}
    (hl : st.HasProperty link) : st'.HasProperty link := by
  obtain ⟨b, hb, hlt⟩ := hl
  obtain ⟨b', hb', hcont⟩ := h.objects link.owner b hb
  exact ⟨b', hb', Nat.lt_of_lt_of_le hlt hcont.properties⟩

theorem hasEvent (h : st.Continues imports st' imports') {link : MemberLink}
    (hl : st.HasEvent link) : st'.HasEvent link := by
  obtain ⟨b, hb, hlt⟩ := hl
  obtain ⟨b', hb', hcont⟩ := h.objects link.owner b hb
  exact ⟨b', hb', Nat.lt_of_lt_of_le hlt hcont.events⟩

end Store.Continues

/-- The reference is bound to something that is there, if it is bound. -/
def Reference.Anchored (st : Store) (imports : Array Import) (r : Reference) : Prop :=
  ∀ target, r.target = some target → st.HasTarget imports target

namespace ObjectType

/-- The links of all methods. -/
def inheritedMethods (o : ObjectType) : List MemberLink := o.methods.filterMap Method.overrides

/-- The links of all properties. -/
def inheritedProperties (o : ObjectType) : List MemberLink :=
  o.properties.filterMap Property.overrides

/-- The links of all events. -/
def inheritedEvents (o : ObjectType) : List MemberLink := o.events.filterMap Event.overrides

end ObjectType

/-- Bound references lead to what is there, what is required are interfaces, and links lead to
members. -/
structure ObjectType.Anchored (st : Store) (imports : Array Import) (o : ObjectType) : Prop where
  references : ∀ r ∈ o.references, r.Anchored st imports
  requires : ∀ r ∈ o.requires, ∀ target, r.target = some target → st.IsInterface imports target
  methods : ∀ link ∈ o.inheritedMethods, st.HasMethod link
  properties : ∀ link ∈ o.inheritedProperties, st.HasProperty link
  events : ∀ link ∈ o.inheritedEvents, st.HasEvent link

theorem Reference.Anchored.mono {r : Reference} (h : r.Anchored st imports)
    (hc : st.Continues imports st' imports') : r.Anchored st' imports' :=
  fun target ht => hc.hasTarget (h target ht)

theorem ObjectType.Anchored.mono {o : ObjectType} (h : o.Anchored st imports)
    (hc : st.Continues imports st' imports') : o.Anchored st' imports' where
  references r hr := (h.references r hr).mono hc
  requires r hr target ht := hc.isInterface (h.requires r hr target ht)
  methods link hl := hc.hasMethod (h.methods link hl)
  properties link hl := hc.hasProperty (h.properties link hl)
  events link hl := hc.hasEvent (h.events link hl)

/-- All handles in the declarations of a store. -/
structure Store.Anchored (st : Store) (imports : Array Import) : Prop where
  objects : ∀ o ∈ st.objects, o.Anchored st imports
  fields : ∀ s ∈ st.structs, ∀ f ∈ s.fields, f.type.Anchored st imports
  delegates : ∀ d ∈ st.delegates, ∀ r ∈ d.references, r.Anchored st imports

/-- No member has a link that it had not before, or has lost one. -/
structure ObjectType.SameLinks (o o' : ObjectType) : Prop where
  methods : o'.inheritedMethods = o.inheritedMethods
  properties : o'.inheritedProperties = o.inheritedProperties
  events : o'.inheritedEvents = o.inheritedEvents

/-- A class or interface with the same links, whose bound references are old or lead to what is
there. -/
theorem ObjectType.Anchored.of_links {o o' : ObjectType} (h : o.Anchored st imports)
    (hreferences : ∀ r ∈ o'.references, r ∈ o.references ∨ r.Anchored st imports)
    (hrequires : ∀ r ∈ o'.requires, r ∈ o.requires ∨
      ∀ target, r.target = some target → st.IsInterface imports target)
    (hlinks : o.SameLinks o') : o'.Anchored st imports where
  references r hr := (hreferences r hr).elim (h.references r) id
  requires r hr := (hrequires r hr).elim (h.requires r) id
  methods link hl := h.methods link (hlinks.methods ▸ hl)
  properties link hl := h.properties link (hlinks.properties ▸ hl)
  events link hl := h.events link (hlinks.events ▸ hl)

/-- Similar stores with the same links. -/
theorem Store.Anchored.of_similar (h : st.Anchored imports) (hs : st.Similar st')
    (hlinks : ∀ (i : ObjectId) o o', st.objects[i]? = some o → st'.objects[i]? = some o' →
      o.SameLinks o') : st'.Anchored imports := by
  have hc := continues_of_similar imports hs
  constructor
  · intro o' ho'
    obtain ⟨i, hi⟩ := Array.mem_iff_getElem?.1 ho'
    obtain ⟨o, ho, hcore⟩ := hs.object hi
    have hanchored := (h.objects o (Array.mem_of_getElem? ho)).mono hc
    refine hanchored.of_links ?_ ?_ (hlinks i o o' ho hi)
    · intro r hr
      rw [← ObjectType.references_core, hcore, ObjectType.references_core] at hr
      exact Or.inl hr
    · intro r hr
      rw [← ObjectType.requires_core, hcore, ObjectType.requires_core] at hr
      exact Or.inl hr
  · intro s' hs' f hf
    obtain ⟨i, hi⟩ := Array.mem_iff_getElem?.1 hs'
    obtain ⟨s, hsi, hcore⟩ := hs.struct hi
    have hfields : s'.fields = s.fields := by
      rw [← StructType.fields_core, hcore, StructType.fields_core]
    exact (h.fields s (Array.mem_of_getElem? hsi) f (hfields ▸ hf)).mono hc
  · intro d hd r hr
    exact (h.delegates d (hs.delegates ▸ hd) r hr).mono hc

section Binding

variable {t : NameTable}

theorem Reference.Anchored.boundIn {r : Reference} {scope : String} (h : r.Anchored st t.imports)
    (htable : ∀ name σ, t.get? name = some σ → st.HasSymbol t.imports σ) :
    (r.boundIn t scope).Anchored st t.imports := by
  intro target htarget
  unfold Reference.boundIn at htarget
  split at htarget
  · exact h target htarget
  · next hb =>
    split at htarget
    · next σ hget =>
      have hnone : r.target = none := by
        simpa [isBound] using hb
      simp only [bindTo, hnone, Option.getD_none, Option.some.injEq] at htarget
      exact htarget ▸ (htable _ σ hget).hasTarget
    · exact h target htarget

theorem Reference.requiredIn_isInterface {r : Reference} {scope : String}
    (h : ∀ target, r.target = some target → st.IsInterface t.imports target)
    (htable : ∀ name σ, t.get? name = some σ → st.HasSymbol t.imports σ) {target : Target}
    (htarget : (r.requiredIn t scope).target = some target) : st.IsInterface t.imports target := by
  unfold Reference.requiredIn at htarget
  split at htarget
  · exact h target htarget
  · next hb =>
    split at htarget
    · next σ hget =>
      split at htarget
      · next hi =>
        have hnone : r.target = none := by
          simpa [isBound] using hb
        simp only [bindTo, hnone, Option.getD_none, Option.some.injEq] at htarget
        exact htarget ▸ (htable _ σ hget).isInterface hi
      · exact h target htarget
    · exact h target htarget

theorem Constructor.types_boundIn (scope : String) (c : Constructor) :
    (c.boundIn t scope).parameters.map Parameter.type =
      (c.parameters.map Parameter.type).map (Reference.boundIn t scope) := by
  unfold boundIn
  rw [List.map_map, List.map_map]
  rfl

theorem ObjectType.references_boundIn (t : NameTable) (o : ObjectType) :
    (o.boundIn t).references = o.references.map (Reference.boundIn t o.scope) := by
  have hmethods : (o.boundIn t).methods.flatMap Method.references =
      (o.methods.flatMap Method.references).map (Reference.boundIn t o.scope) := by
    rw [List.map_flatMap, ← funext fun m => Method.references_boundIn m]
    exact List.flatMap_map ..
  have hproperties : (o.boundIn t).properties.map Property.type =
      (o.properties.map Property.type).map (Reference.boundIn t o.scope) := by
    rw [List.map_map]
    exact List.map_map
  have hevents : (o.boundIn t).events.map Event.type =
      (o.events.map Event.type).map (Reference.boundIn t o.scope) := by
    rw [List.map_map]
    exact List.map_map
  have hconstructors : ((o.boundIn t).constructors.flatMap fun c => c.parameters.map Parameter.type) =
      (o.constructors.flatMap fun c => c.parameters.map Parameter.type).map
        (Reference.boundIn t o.scope) := by
    rw [List.map_flatMap, constructors_boundIn, List.flatMap_map]
    exact congrArg (List.flatMap · o.constructors) (funext fun c => c.types_boundIn o.scope)
  unfold references
  rw [hmethods, hproperties, hevents, hconstructors, List.map_append, List.map_append,
    List.map_append]

theorem DelegateType.references_boundIn (t : NameTable) (d : DelegateType) :
    (d.boundIn t).references = d.references.map (Reference.boundIn t d.scope) := by
  unfold references boundIn
  rw [List.map_append, List.map_map, List.map_map]
  cases d.result <;> rfl

theorem ObjectType.sameLinks_boundIn (t : NameTable) (o : ObjectType) :
    o.SameLinks (o.boundIn t) :=
  ⟨List.filterMap_map, List.filterMap_map, List.filterMap_map⟩

theorem Store.Anchored.boundIn (h : st.Anchored t.imports)
    (htable : ∀ name σ, t.get? name = some σ → st.HasSymbol t.imports σ)
    (hc : st.Continues t.imports (st.boundIn t) t.imports) : (st.boundIn t).Anchored t.imports := by
  constructor
  · intro o' ho'
    obtain ⟨o, ho, rfl⟩ := Array.mem_map.1 ho'
    have hanchored := h.objects o ho
    refine ObjectType.Anchored.mono (hanchored.of_links ?_ ?_ (o.sameLinks_boundIn t)) hc
    · intro r' hr'
      rw [ObjectType.references_boundIn] at hr'
      obtain ⟨r, hr, rfl⟩ := List.mem_map.1 hr'
      exact Or.inr ((hanchored.references r hr).boundIn htable)
    · intro r' hr'
      obtain ⟨r, hr, rfl⟩ := List.mem_map.1 hr'
      exact Or.inr fun target htarget =>
        Reference.requiredIn_isInterface (hanchored.requires r hr) htable htarget
  · intro s' hs' f' hf'
    obtain ⟨s, hs, rfl⟩ := Array.mem_map.1 hs'
    obtain ⟨f, hf, rfl⟩ := List.mem_map.1 hf'
    exact ((h.fields s hs f hf).boundIn htable).mono hc
  · intro d' hd' r' hr'
    obtain ⟨d, hd, rfl⟩ := Array.mem_map.1 hd'
    rw [DelegateType.references_boundIn] at hr'
    obtain ⟨r, hr, rfl⟩ := List.mem_map.1 hr'
    exact ((h.delegates d hd r hr).boundIn htable).mono hc

end Binding

end ComponentIdl
