import ComponentIdl.Proofs.Conflict.Own

/-!
# Sound classes and interfaces

What acceptance promises for the members of one class or interface, and why later passes keep it:
links, cycle states and records of derived interfaces play no part in it.
-/

namespace ComponentIdl

/-- References are bound, properties have getters, no two methods are alike, and a static class has
static members only. -/
structure ObjectType.Sound (o : ObjectType) : Prop where
  references : ∀ r ∈ o.references, r.isBound = true
  getters : ∀ p ∈ o.properties, ∃ i m, p.getter = some i ∧ o.methods[i]? = some m ∧
    m.name = PropertyRole.get.methodName p.name
  distinct : o.methods.Pairwise fun m n => ¬ m.Alike n
  statics : o.isStaticClass = true → o.AllStatic

namespace ObjectType

variable {o o' : ObjectType}

/-- The declaration without links, cycle state and record of derived interfaces. -/
def core (o : ObjectType) : ObjectType :=
  { o.unlinked with
    cycle := .unknown
    classPart := o.classPart.map fun c => { c with derived := {} } }

theorem constructors_core (o : ObjectType) : o.core.constructors = o.constructors := by
  unfold constructors core
  cases o.classPart <;> rfl

theorem isStaticClass_core (o : ObjectType) : o.core.isStaticClass = o.isStaticClass := by
  unfold isStaticClass core
  cases o.classPart <;> rfl

theorem isClass_core (o : ObjectType) : o.core.isClass = o.isClass := by
  unfold isClass core
  cases o.classPart <;> rfl

theorem isInterface_core (o : ObjectType) : o.core.isInterface = o.isInterface := by
  unfold isInterface core
  cases o.classPart <;> rfl

theorem methods_core (o : ObjectType) : o.core.methods = o.methods.map Method.unlinked := rfl

theorem requires_core (o : ObjectType) : o.core.requires = o.requires := rfl

theorem references_core (o : ObjectType) : o.core.references = o.references := by
  have hmethods : o.core.methods.flatMap Method.references = o.methods.flatMap Method.references :=
    List.flatMap_map ..
  have hproperties : o.core.properties.map Property.type = o.properties.map Property.type :=
    List.map_map
  have hevents : o.core.events.map Event.type = o.events.map Event.type := List.map_map
  unfold references
  rw [hmethods, hproperties, hevents, constructors_core]

theorem allStatic_core : o.core.AllStatic ↔ o.AllStatic := by
  constructor
  · intro h
    refine ⟨?_, ?_, ?_, o.constructors_core ▸ h.constructors⟩
    · exact fun m hm => h.methods m.unlinked (List.mem_map_of_mem hm)
    · exact fun p hp => h.properties p.unlinked (List.mem_map_of_mem hp)
    · exact fun e he => h.events e.unlinked (List.mem_map_of_mem he)
  · intro h
    refine ⟨?_, ?_, ?_, o.constructors_core.trans h.constructors⟩
    · exact List.forall_mem_map.2 h.methods
    · exact List.forall_mem_map.2 h.properties
    · exact List.forall_mem_map.2 h.events

theorem sound_core : o.core.Sound ↔ o.Sound := by
  have hget : ∀ i : Nat, o.core.methods[i]? = (o.methods[i]?).map Method.unlinked :=
    fun i => List.getElem?_map
  constructor
  · intro h
    refine ⟨o.references_core ▸ h.references, ?_, List.pairwise_map.1 h.distinct, ?_⟩
    · intro p hp
      obtain ⟨i, m', hi, hm', hname⟩ := h.getters p.unlinked (List.mem_map_of_mem hp)
      rw [hget] at hm'
      obtain ⟨m, hm, rfl⟩ := Option.map_eq_some_iff.1 hm'
      exact ⟨i, m, hi, hm, hname⟩
    · intro hs
      exact allStatic_core.1 (h.statics (o.isStaticClass_core.trans hs))
  · intro h
    refine ⟨o.references_core ▸ h.references, ?_, List.pairwise_map.2 h.distinct, ?_⟩
    · refine List.forall_mem_map.2 fun p hp => ?_
      obtain ⟨i, m, hi, hm, hname⟩ := h.getters p hp
      exact ⟨i, m.unlinked, hi, by rw [hget, hm]; rfl, hname⟩
    · intro hs
      exact allStatic_core.2 (h.statics (o.isStaticClass_core ▸ hs))

theorem Sound.of_core (h : o.Sound) (hcore : o'.core = o.core) : o'.Sound :=
  sound_core.1 (hcore ▸ sound_core.2 h)

theorem Wired.of_core (h : o.Wired) (hcore : o'.core = o.core) : o'.Wired := by
  have hmethods : o.methods.map Method.unlinked = o'.methods.map Method.unlinked :=
    congrArg methods hcore.symm
  have hproperties : o.properties.map Property.unlinked = o'.properties.map Property.unlinked :=
    congrArg properties hcore.symm
  have hevents : o.events.map Event.unlinked = o'.events.map Event.unlinked :=
    congrArg events hcore.symm
  refine h.transfer (forall₂_of_map_eq hmethods) (forall₂_of_map_eq hproperties)
    (forall₂_of_map_eq hevents) ?_ ?_ ?_ ?_ ?_
  · intro m m' hm
    have horigin := congrArg Method.origin hm
    exact horigin.symm
  · intro p p' hp
    have hname := congrArg Property.name hp
    refine ⟨hname.symm, fun role => ?_⟩
    have hposition := congrArg (Property.position? · role) hp
    cases role <;> exact hposition.symm
  · intro e e' he
    have hname := congrArg Event.name he
    refine ⟨hname.symm, fun role => ?_⟩
    have hposition := congrArg (Event.position · role) he
    cases role <;> exact hposition.symm
  · intro p p' m m' role hp hm hs
    have hs' : p.unlinked.Served role m.unlinked :=
      ⟨hs.name, hs.origin, hs.isStatic, hs.result, hs.types⟩
    rw [hp, hm] at hs'
    exact ⟨hs'.name, hs'.origin, hs'.isStatic, hs'.result, hs'.types⟩
  · intro e e' m m' role he hm hs
    have hs' : e.unlinked.Served role m.unlinked :=
      ⟨hs.name, hs.origin, hs.isStatic, hs.result, hs.handler, hs.token⟩
    rw [he, hm] at hs'
    exact ⟨hs'.name, hs'.origin, hs'.isStatic, hs'.result, hs'.handler, hs'.token⟩

/-- Without a diagnostic, a class or interface in order whose references are bound and whose
properties have getters is sound. -/
theorem Silent.sound {bases : List (ObjectId × ObjectType)} (h : o.Silent bases) (hw : o.Wired)
    (href : ∀ r ∈ o.references, r.isBound = true)
    (hget : ∀ p ∈ o.properties, p.getter.isSome = true) : o.Sound := by
  refine ⟨href, ?_, h.not_alike hw, h.allStatic hw⟩
  intro p hp
  obtain ⟨i, hi⟩ := Option.isSome_iff_exists.1 (hget p hp)
  obtain ⟨m, hm, hserved⟩ := hw.property p hp .get i hi
  exact ⟨i, m, hi, hm, hserved.name⟩

end ObjectType

end ComponentIdl
