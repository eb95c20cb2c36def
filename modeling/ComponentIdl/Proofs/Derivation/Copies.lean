import ComponentIdl.Proofs.Derivation.Wiring

/-!
# Copies of members

A derived interface has copies of the members of one kind, in the order of the class. A method moves to
the position that it has among the methods of its kind, and the accessors of a copied property or event
are where the copies of its methods are. A factory has one method for each constructor with parameters.
-/

namespace ComponentIdl

/-- The method as an instance method that stands for no other. -/
def Method.copy (m : Method) : Method := { m with isStatic := false, overrides := none }

/-- The method makes an instance of the class in the slot `id` with the arguments of the constructor. -/
structure Method.Creates (id : ObjectId) (c : Constructor) (m : Method) : Prop where
  line : m.line = c.line
  parameters : m.parameters = c.parameters
  result : ∃ text, m.result = some (.bound text (.runtimeClass id))
  isStatic : m.isStatic = false
  overrides : m.overrides = none

/-- The second property is a copy of the first one, and its accessors are where those of the first one
have moved to. -/
structure Property.CopyOf (moves : Nat → Nat → Prop) (p p' : Property) : Prop where
  name : p'.name = p.name
  line : p'.line = p.line
  type : p'.type = p.type
  isStatic : p'.isStatic = false
  overrides : p'.overrides = none
  accessors : ∀ role, Option.Rel moves (p.position? role) (p'.position? role)

/-- The second event is a copy of the first one, and its accessors are where those of the first one have
moved to. -/
structure Event.CopyOf (moves : Nat → Nat → Prop) (e e' : Event) : Prop where
  name : e'.name = e.name
  line : e'.line = e.line
  type : e'.type = e.type
  isStatic : e'.isStatic = false
  overrides : e'.overrides = none
  accessors : ∀ role, moves (e.position role) (e'.position role)

namespace ObjectType

/-- The static methods or the instance methods, with their positions. -/
def methodsOf (o : ObjectType) (statics : Bool) : List (Method × Nat) :=
  o.methods.zipIdx.filter fun m => m.1.isStatic == statics

/-- The method at position `i` is at position `k` among those of its kind. -/
def Moves (o : ObjectType) (statics : Bool) (i k : Nat) : Prop :=
  ∃ m, (o.methodsOf statics)[k]? = some (m, i)

/-- The interface has copies of all static members of the class, or of all its instance members. -/
structure Carries (c : ObjectType) (statics : Bool) (o : ObjectType) : Prop where
  methods : o.methods = (c.methodsOf statics).map fun m => m.1.copy
  properties : List.Forall₂ (Property.CopyOf (c.Moves statics))
    (c.properties.filter fun p => p.isStatic == statics) o.properties
  events : List.Forall₂ (Event.CopyOf (c.Moves statics))
    (c.events.filter fun e => e.isStatic == statics) o.events

/-- The interface has one method for each constructor of the class that has parameters. -/
structure Constructs (c : ObjectType) (id : ObjectId) (o : ObjectType) : Prop where
  methods : List.Forall₂ (Method.Creates id) (c.constructors.filter fun c => !c.parameters.isEmpty)
    o.methods
  names : ∀ (k : Nat) m, o.methods[k]? = some m →
    m.name = if k = 0 then "CreateInstance" else "CreateInstance" ++ toString (k + 1)
  distinct : (o.methods.map Method.name).Nodup
  properties : o.properties = []
  events : o.events = []

variable {o : ObjectType} {statics : Bool} {i k : Nat}

theorem moves_iff : o.Moves statics i k ↔ o.keptPosition? statics i = some k := by
  have hcount : ∀ ms : List Method, ((ms.zipIdx.take i).countP fun m => m.1.isStatic == statics) =
      (ms.take i).countP fun m => m.isStatic == statics := by
    intro ms
    conv_rhs => rw [← List.zipIdx_map_fst 0 ms, ← List.map_take, List.countP_map]
    rfl
  unfold Moves methodsOf keptPosition?
  constructor
  · rintro ⟨m, hm⟩
    obtain ⟨j, hj, hstatic, hk⟩ := getElem?_of_filter hm
    obtain ⟨hj', rfl⟩ : o.methods[j]? = some m ∧ j = i := by
      simpa [List.getElem?_zipIdx, and_comm, eq_comm] using hj
    rw [hj', Option.bind_some, if_pos (beq_iff_eq.1 hstatic), ← hcount, hk]
  · intro hkept
    obtain ⟨m, hm, hk⟩ := Option.bind_eq_some_iff.1 hkept
    split at hk
    · next hstatic =>
      refine ⟨m, ?_⟩
      rw [← Option.some.inj hk, ← hcount]
      refine getElem?_filter_countP ?_ (beq_iff_eq.2 hstatic)
      rw [List.getElem?_zipIdx, hm, Option.map_some, Nat.zero_add]
    · exact absurd hk (by simp)

theorem moves_of_isStatic {m : Method} (h : o.methods[i]? = some m) (hm : m.isStatic = statics) :
    ∃ k, o.keptPosition? statics i = some k ∧ o.Moves statics i k := by
  obtain ⟨k, hk, -⟩ := keptPosition?_of_isStatic h hm
  exact ⟨k, hk, moves_iff.2 hk⟩

/-- Every method has one place: among the static methods, or among the instance methods. -/
theorem moves_once {m : Method} (h : o.methods[i]? = some m) :
    ∃! x : Bool × Nat, o.Moves x.1 i x.2 := by
  obtain ⟨k, hk, hmoves⟩ := moves_of_isStatic h rfl
  refine ⟨(m.isStatic, k), hmoves, ?_⟩
  rintro ⟨statics, j⟩ hj
  have hj := moves_iff.1 hj
  obtain ⟨n, hn, hstatic⟩ := isStatic_of_keptPosition? hj
  obtain rfl : m = n := Option.some.inj (h.symm.trans hn)
  obtain rfl : m.isStatic = statics := hstatic
  rw [Option.some.inj (hk.symm.trans hj)]

theorem forall₂_filterMap {α β : Type} {R : α → β → Prop} {f : α → Option β} {as : List α}
    (h : ∀ a ∈ as, ∃ b, f a = some b ∧ R a b) : List.Forall₂ R as (as.filterMap f) := by
  induction as with
  | nil => exact .nil
  | cons a as ih =>
    obtain ⟨⟨b, hb, hab⟩, hrest⟩ := List.forall_mem_cons.1 h
    rw [List.filterMap_cons_some hb]
    exact .cons hab (ih hrest)

theorem keptEvent?_line {e e' : Event} (h : o.keptEvent? statics e = some e') :
    e'.line = e.line ∧ e'.overrides = none := by
  unfold keptEvent? at h
  split at h
  · rw [← Option.some.inj h]
    exact ⟨rfl, rfl⟩
  · exact absurd h (by simp)

theorem Wired.carries (h : o.Wired) (statics : Bool) (id : ObjectId) (role : DerivedRole) :
    o.Carries statics (Derivation.interfaceOf id o role (o.keep statics)) := by
  constructor
  · show (o.methods.filter _).map _ = _
    unfold methodsOf
    conv_lhs => rw [← List.zipIdx_map_fst 0 o.methods, List.filter_map, List.map_map]
    rfl
  · refine List.forall₂_map_right_iff.2 (List.forall₂_same.2 fun p hp => ?_)
    obtain ⟨hmem, hstatic⟩ := List.mem_filter.1 hp
    have hmoves : ∀ role, Option.Rel (o.Moves statics) (p.position? role)
        ((p.position? role).bind (o.keptPosition? statics)) := by
      intro role
      cases hi : p.position? role with
      | none => exact .none
      | some i =>
        obtain ⟨m, hm, hserved⟩ := h.property p hmem role i hi
        obtain ⟨k, hk, hmoves⟩ :=
          moves_of_isStatic hm (hserved.isStatic.trans (beq_iff_eq.1 hstatic))
        rw [Option.bind_some, hk]
        exact .some hmoves
    exact ⟨rfl, rfl, rfl, rfl, rfl, fun role => by cases role <;> exact hmoves _⟩
  · refine forall₂_filterMap fun e he => ?_
    obtain ⟨hmem, hstatic⟩ := List.mem_filter.1 he
    obtain ⟨e', he'⟩ := keptEvent?_isSome h hmem (beq_iff_eq.1 hstatic)
    obtain ⟨hname, htype, hnot, hposition⟩ := keptEvent?_eq_some he'
    obtain ⟨hline, hnone⟩ := keptEvent?_line he'
    exact ⟨e', he', hname, hline, htype, hnot, hnone, fun role => moves_iff.2 (hposition role)⟩

theorem names_factory (o : ObjectType) (id : ObjectId) :
    (o.factory id).methods.map Method.name =
      (List.range (o.factory id).methods.length).map creatorName := by
  have hnumbers : (o.factory id).methods.map Method.name =
      ((o.constructors.filter fun c => !c.parameters.isEmpty).zipIdx.map Prod.snd).map
        creatorName := by
    unfold factory
    rw [List.map_map, List.map_map]
    rfl
  rw [hnumbers, List.zipIdx_map_snd, ← List.range_eq_range']
  unfold factory
  rw [List.length_map, List.length_zipIdx]

theorem constructs_factory (o : ObjectType) (id : ObjectId) (role : DerivedRole) :
    o.Constructs id (Derivation.interfaceOf id o role (o.factory id)) := by
  have hnames := o.names_factory id
  constructor
  · show List.Forall₂ _ _ (List.map _ _)
    conv => arg 2; rw [← List.zipIdx_map_fst 0 (List.filter _ _)]
    rw [List.forall₂_map_right_iff, List.forall₂_map_left_iff]
    exact List.forall₂_same.2 fun c _ => ⟨rfl, rfl, ⟨_, rfl⟩, rfl, rfl⟩
  · intro k m hm
    have hm : (o.factory id).methods[k]? = some m := hm
    have hname := congrArg (·[k]?) hnames
    rw [List.getElem?_map, hm, List.getElem?_map, List.getElem?_range
      (List.getElem?_eq_some_iff.1 hm).1] at hname
    rw [Option.some.inj hname]
    cases k <;> rfl
  · show ((o.factory id).methods.map Method.name).Nodup
    rw [hnames]
    exact List.nodup_range.map creatorName_injective
  · rfl
  · rfl

end ObjectType

end ComponentIdl
