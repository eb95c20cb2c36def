import ComponentIdl.Proofs.Builder.AccessorBodies
import ComponentIdl.Proofs.Builder.Wiring

/-!
# What becomes of the members of a body

What becomes of a member of a class or interface is told by the members before it. The first property or
event of a name holds the name. Of further ones only the second fragment of a property may be taken, if
the two agree and ask for different accessors. The methods of the body are those that its members expand
to, one member after the other.
-/

namespace ComponentIdl

/-- The event as it is added, with its accessors from the position on. -/
def Event.written (d : Decl.Event) (position : Nat) : Event :=
  { name := d.name, line := d.line, isStatic := d.isStatic, type := .parse d.type,
    adder := position, remover := position + 1, overrides := none }

namespace Decl

/-! ### Members and those before them -/

/-- Whether the member is a property or an event of the name. -/
def Member.holds (name : String) : Member → Bool
  | .property p => p.name == name
  | .event e => e.name == name
  | _ => false

/-- The member that holds the name: the first property or event of that name. -/
def holder? (ms : List Member) (name : String) : Option Member := ms.find? (Member.holds name)

def Member.fragmentOf? (name : String) : Member → Option Property
  | .property p => if p.name == name then some p else none
  | _ => none

/-- The fragments of the property of that name. -/
def fragmentsOf (ms : List Member) (name : String) : List Property :=
  ms.filterMap (Member.fragmentOf? name)

/-- Whether two fragments are of one type and both static or both not. -/
def Property.agrees (scope : String) (q p : Property) : Bool :=
  sameMeaning scope (.parse q.type) (.parse p.type) && q.isStatic == p.isStatic

/-- Whether the second fragment asks for an accessor that the first one asks for. -/
def Property.overlaps (q p : Property) : Bool :=
  p.requested.any fun a => q.requested.any fun b => b.1 == a.1

/-- Why a member is refused after the members before it, if it is. -/
def Member.refusal? (scope : String) (before : List Member) : Member → Option Diagnostic.Kind
  | .property p =>
    match holder? before p.name with
    | none => none
    | some (.property q) =>
      if 2 ≤ (fragmentsOf before p.name).length || !q.agrees scope p then some .duplicateTypeMember
      else if q.overlaps p then some .repeatedPropertyAccessor
      else none
    | some _ => some .duplicateTypeMember
  | .event e => if (holder? before e.name).isSome then some .duplicateTypeMember else none
  | _ => none

/-- The methods that a member is expanded to after the members before it. -/
def Member.expansion (scope : String) (before : List Member) (m : Member) :
    List ComponentIdl.Method :=
  match m, m.refusal? scope before with
  | .method d, _ => [.ofDecl d]
  | .property p, none =>
    p.requested.map fun a =>
      (Property.first ((fragmentsOf before p.name).headD p)).accessor a.1 a.2
  | .event e, none => [(Event.written e 0).accessor .add, (Event.written e 0).accessor .remove]
  | _, _ => []

/-- What is reported of a member after the members before it. -/
def Member.reports (scope : String) (before : List Member) (m : Member) : List Diagnostic :=
  match m, m.refusal? scope before with
  | .property p, none => p.bodyFaults
  | .property p, some kind => p.bodyFaults ++ [.of kind p.line p.name]
  | .event e, none =>
    if e.accessors.isSome then [.of .conflictingEventAccessor e.line e.name] else []
  | .event e, some kind => [.of kind e.line e.name]
  | _, _ => []

def Member.constructor? : Member → Option Constructor
  | .constructor d => some d
  | _ => none

/-- The methods of a body, in the order of its members. -/
def expansion (scope : String) (ms : List Member) : List ComponentIdl.Method :=
  (withBefore ms).flatMap fun x => x.2.expansion scope x.1

/-- What is reported in a body, in the order of its members. -/
def bodyReports (scope : String) (ms : List Member) : List Diagnostic :=
  (withBefore ms).flatMap fun x => x.2.reports scope x.1

section Concat

variable (scope : String) (ms : List Member) (m : Member) (name : String)

theorem expansion_concat : expansion scope (ms ++ [m]) =
    expansion scope ms ++ m.expansion scope ms := by
  unfold expansion
  rw [withBefore_concat, List.flatMap_append, List.flatMap_singleton]

theorem bodyReports_concat : bodyReports scope (ms ++ [m]) =
    bodyReports scope ms ++ m.reports scope ms := by
  unfold bodyReports
  rw [withBefore_concat, List.flatMap_append, List.flatMap_singleton]

theorem holder?_concat : holder? (ms ++ [m]) name =
    (holder? ms name).or (if m.holds name then some m else none) := by
  unfold holder?
  rw [List.find?_append, List.find?_singleton]

theorem fragmentsOf_concat : fragmentsOf (ms ++ [m]) name =
    fragmentsOf ms name ++ (m.fragmentOf? name).toList := by
  unfold fragmentsOf
  rw [List.filterMap_append, List.filterMap_cons, List.filterMap_nil]
  cases m.fragmentOf? name <;> rfl

end Concat

variable {ms : List Member} {m : Member} {name : String}

theorem Member.fragmentOf?_of_not_holds (h : m.holds name = false) : m.fragmentOf? name = none := by
  cases m with
  | property p => exact if_neg (Bool.eq_false_iff.1 h)
  | _ => rfl

theorem Member.fragmentOf?_eq_some {p : Property} (h : m.fragmentOf? name = some p) :
    m = .property p ∧ p.name = name := by
  cases m with
  | property q =>
    obtain ⟨hname, hq⟩ := Option.ite_none_right_eq_some.1 h
    obtain rfl := Option.some.inj hq
    exact ⟨rfl, beq_iff_eq.1 hname⟩
  | _ => exact absurd h nofun

/-- A member holds one name at most. -/
theorem Member.eq_of_holds {other : String} (h : m.holds name = true) (h' : m.holds other = true) :
    name = other := by
  cases m with
  | property p => exact (beq_iff_eq.1 h).symm.trans (beq_iff_eq.1 h')
  | event e => exact (beq_iff_eq.1 h).symm.trans (beq_iff_eq.1 h')
  | method d => exact absurd h Bool.false_ne_true
  | constructor d => exact absurd h Bool.false_ne_true

/-- Only properties and events hold names. -/
theorem holder?_cases (ms : List Member) (name : String) :
    holder? ms name = none ∨ (∃ e, holder? ms name = some (.event e)) ∨
      ∃ q, holder? ms name = some (.property q) := by
  cases hm : holder? ms name with
  | none => exact Or.inl rfl
  | some m =>
    have hholds : m.holds name = true := List.find?_some hm
    cases m with
    | property q => exact Or.inr (Or.inr ⟨q, rfl⟩)
    | event e => exact Or.inr (Or.inl ⟨e, rfl⟩)
    | method d => exact absurd hholds Bool.false_ne_true
    | constructor d => exact absurd hholds Bool.false_ne_true

theorem fragmentsOf_of_none (h : holder? ms name = none) : fragmentsOf ms name = [] := by
  refine List.filterMap_eq_nil_iff.2 fun m hm => Member.fragmentOf?_of_not_holds ?_
  exact Bool.eq_false_iff.2 (List.find?_eq_none.1 h m hm)

/-- A member whose name is held already changes no holder. -/
theorem holder?_concat_of_held
    (h : ∀ name, m.holds name = true → (holder? ms name).isSome = true) (name : String) :
    holder? (ms ++ [m]) name = holder? ms name := by
  rw [holder?_concat]
  split
  · next hm =>
    obtain ⟨m', hm'⟩ := Option.isSome_iff_exists.1 (h name hm)
    rw [hm', Option.some_or]
  · exact Option.or_none

theorem holder?_concat_of_free (hm : m.holds name = true) (h : holder? ms name = none) :
    holder? (ms ++ [m]) name = some m := by
  rw [holder?_concat, h, if_pos hm, Option.none_or]

theorem holder?_concat_of_other (hm : m.holds name = false) :
    holder? (ms ++ [m]) name = holder? ms name := by
  rw [holder?_concat, if_neg (Bool.eq_false_iff.1 hm), Option.or_none]

/-- The property that holds a name is its own first fragment. -/
theorem fragmentsOf_of_property {q : Property} (h : holder? ms name = some (.property q)) :
    q.name = name ∧ ∃ rest, fragmentsOf ms name = q :: rest := by
  obtain ⟨hq, before, after, rfl, hbefore⟩ := List.find?_eq_some_iff_append.1 h
  have hnone : before.filterMap (Member.fragmentOf? name) = [] := by
    refine List.filterMap_eq_nil_iff.2 fun m hm => Member.fragmentOf?_of_not_holds ?_
    simpa using hbefore m hm
  refine ⟨beq_iff_eq.1 hq, after.filterMap (Member.fragmentOf? name), ?_⟩
  have hfirst : Member.fragmentOf? name (.property q) = some q := if_pos hq
  unfold fragmentsOf
  rw [List.filterMap_append, hnone, List.nil_append, List.filterMap_cons_some hfirst]

end Decl

/-! ### Accessors added -/

namespace Property

/-- The property with accessors at the positions from `next` on. -/
def withAccessors (p : Property) (next : Nat) : List (PropertyRole × Nat) → Property
  | [] => p
  | a :: asked => (p.setPosition next a.1).withAccessors (next + 1) asked

theorem accessor_setPosition (p : Property) (i : Nat) (role role' : PropertyRole) (line : Nat) :
    (p.setPosition i role).accessor role' line = p.accessor role' line := by
  cases role <;> rfl

/-- A property is told by its name, its type and whether it is static; its accessors come and go. -/
structure SameKind (p q : Property) : Prop where
  name : p.name = q.name
  type : p.type = q.type
  isStatic : p.isStatic = q.isStatic

theorem SameKind.accessor {p q : Property} (h : p.SameKind q) (role : PropertyRole) (line : Nat) :
    p.accessor role line = q.accessor role line := by
  unfold Property.accessor
  rw [h.name, h.type, h.isStatic]

theorem sameKind_withAccessors (p : Property) (next : Nat) (asked : List (PropertyRole × Nat)) :
    (p.withAccessors next asked).SameKind p := by
  induction asked generalizing p next with
  | nil => exact ⟨rfl, rfl, rfl⟩
  | cons a asked ih =>
    obtain ⟨hname, htype, hstatic⟩ := ih (p.setPosition next a.1) (next + 1)
    refine ⟨hname.trans ?_, htype.trans ?_, hstatic.trans ?_⟩ <;> cases a.1 <;> rfl

theorem has_withAccessors (p : Property) (next : Nat) (asked : List (PropertyRole × Nat))
    (role : PropertyRole) : (p.withAccessors next asked).has role =
      (p.has role || asked.any fun a => a.1 == role) := by
  induction asked generalizing p next with
  | nil => exact (Bool.or_false _).symm
  | cons a asked ih =>
    unfold withAccessors
    rw [ih, List.any_cons, ← Bool.or_assoc]
    congr 1
    unfold has
    rw [position?_setPosition]
    by_cases hrole : role = a.1
    · simp [hrole]
    · simp [hrole, Ne.symm hrole]

end Property

namespace ObjectType

variable {o : ObjectType} {index : Nat} {p : Property}

theorem addAccessors_eq (hp : o.properties[index]? = some p) (asked : List (PropertyRole × Nat)) :
    o.addAccessors index asked =
      { o with
        methods := o.methods ++ asked.map fun a => p.accessor a.1 a.2
        properties := o.properties.modify index fun q =>
          q.withAccessors o.methods.length asked } := by
  induction asked generalizing o p with
  | nil =>
    have hsame : (o.properties.modify index fun q => q.withAccessors o.methods.length []) =
        o.properties := List.modify_id index o.properties
    rw [hsame, List.map_nil, List.append_nil]
    rfl
  | cons a asked ih =>
    have hstep : o.addAccessors index (a :: asked) =
        (o.addAccessor index a.1 a.2).addAccessors index asked := rfl
    have hmethods : (asked.map fun b => (p.setPosition o.methods.length a.1).accessor b.1 b.2) =
        asked.map fun b => p.accessor b.1 b.2 :=
      List.map_congr_left fun b _ => p.accessor_setPosition _ _ _ _
    rw [hstep, ih (properties_addAccessor a.2 hp), addAccessor_eq hp]
    dsimp only
    rw [hmethods, List.modify_modify_eq, List.append_assoc, List.length_append]
    rfl

theorem property?_modify {f : Property → Property} (hname : ∀ q, (f q).name = q.name)
    (ps : List Property) (i : Nat) (name : String) :
    ((ps.modify i f).zipIdx.find? fun x => x.1.name == name) =
      (ps.zipIdx.find? fun x => x.1.name == name).map fun x =>
        (if x.2 = i then f x.1 else x.1, x.2) := by
  have hitems : (ps.modify i f).zipIdx =
      ps.zipIdx.map fun x => (if x.2 = i then f x.1 else x.1, x.2) := by
    apply List.ext_getElem?
    intro j
    rw [List.getElem?_map, List.getElem?_zipIdx, List.getElem?_zipIdx, List.getElem?_modify,
      Nat.zero_add]
    cases ps[j]? with
    | none => rfl
    | some q => by_cases hj : i = j <;> simp [hj, eq_comm]
  rw [hitems, List.find?_map]
  congr 2
  funext x
  show ((if x.2 = i then f x.1 else x.1).name == name) = _
  split
  · rw [hname]
  · rfl

theorem property?_concat (ps : List Property) (p : Property) (name : String) :
    ((ps ++ [p]).zipIdx.find? fun x => x.1.name == name) =
      (ps.zipIdx.find? fun x => x.1.name == name).or
        (if p.name == name then some (p, ps.length) else none) := by
  rw [List.zipIdx_append, List.find?_append, List.zipIdx_singleton, List.find?_singleton,
    Nat.zero_add]

theorem property?_concat_self {d : Decl.Property} (hnone : o.property? d.name = none) :
    ({ o with properties := o.properties ++ [.first d] } : ObjectType).property? d.name =
      some (.first d, o.properties.length) := by
  refine (property?_concat o.properties (.first d) d.name).trans ?_
  unfold property? at hnone
  rw [hnone, Option.none_or]
  exact if_pos (beq_self_eq_true d.name)

theorem property?_addAccessors_self {name : String} (hp : o.property? name = some (p, index))
    (asked : List (PropertyRole × Nat)) : (o.addAccessors index asked).property? name =
      some (p.withAccessors o.methods.length asked, index) := by
  have hname : ∀ q : Property, (q.withAccessors o.methods.length asked).name = q.name :=
    fun q => (q.sameKind_withAccessors _ _).name
  unfold property? at hp
  rw [addAccessors_eq (property?_eq_some hp).1]
  unfold property?
  rw [property?_modify hname, hp, Option.map_some, if_pos rfl]

theorem property?_addAccessors_other {name : String} (hp : o.properties[index]? = some p)
    (hother : p.name ≠ name) (asked : List (PropertyRole × Nat)) :
    (o.addAccessors index asked).property? name = o.property? name := by
  have hname : ∀ q : Property, (q.withAccessors o.methods.length asked).name = q.name :=
    fun q => (q.sameKind_withAccessors _ _).name
  rw [addAccessors_eq hp]
  unfold property?
  rw [property?_modify hname]
  cases hq : o.properties.zipIdx.find? fun x => x.1.name == name with
  | none => rfl
  | some x =>
    obtain ⟨hx, hxname⟩ := property?_eq_some (o := o) (p := x.1) (i := x.2) hq
    rw [Option.map_some, if_neg]
    rintro rfl
    exact hother (Option.some.inj (hp.symm.trans hx) ▸ hxname)

end ObjectType

/-! ### A class or interface and the members it has -/

/-- The property stands for the fragment that holds its name. As long as there is no other fragment, it
has the accessors that this one asks for. -/
structure Property.Represents (ms : List Decl.Member) (name : String) (q : Decl.Property)
    (p : Property) : Prop where
  kind : p.SameKind (.first q)
  roles : Decl.fragmentsOf ms name = [q] → ∀ role, p.has role = q.requested.any fun a => a.1 == role

theorem Property.Represents.concat {ms : List Decl.Member} {name : String} {q : Decl.Property}
    {p : Property} (h : p.Represents ms name q) (hq : Decl.holder? ms name = some (.property q))
    (m : Decl.Member) : p.Represents (ms ++ [m]) name q := by
  refine ⟨h.kind, fun hone => h.roles ?_⟩
  obtain ⟨-, rest, hrest⟩ := Decl.fragmentsOf_of_property hq
  rw [Decl.fragmentsOf_concat, hrest, List.cons_append, List.cons.injEq,
    List.append_eq_nil_iff] at hone
  rw [hrest, hone.2.1]

/-- The class or interface has the members of a body, or of the part of it that has been visited. -/
structure ObjectType.HasMembers (o : ObjectType) (scope : String) (ms : List Decl.Member) : Prop where
  within : o.scope = scope
  methods : o.methods = Decl.expansion scope ms
  constructors : o.constructors =
    if o.isClass then (ms.filterMap Decl.Member.constructor?).map .ofDecl else []
  events : ∀ name, (o.event? name).isSome = true ↔ ∃ e, Decl.holder? ms name = some (.event e)
  absent : ∀ name, (∀ q, Decl.holder? ms name ≠ some (.property q)) → o.property? name = none
  present : ∀ name q, Decl.holder? ms name = some (.property q) →
    ∃ p i, o.property? name = some (p, i) ∧ p.Represents ms name q

namespace ObjectType.HasMembers

open Decl (holder? fragmentsOf expansion)

variable {scope : String} {ms : List Decl.Member} {m : Decl.Member} {o o' : ObjectType}

theorem event?_eq_none (h : o.HasMembers scope ms) {name : String} :
    o.event? name = none ↔ ∀ e, holder? ms name ≠ some (.event e) := by
  rw [← Option.isNone_iff_eq_none, ← Option.not_isSome, Bool.not_eq_true', ← Bool.not_eq_true,
    h.events, not_exists]

/-- A free name is that of no event and of no property. -/
theorem of_free (h : o.HasMembers scope ms) {name : String} (hfree : holder? ms name = none) :
    o.event? name = none ∧ o.property? name = none := by
  refine ⟨h.event?_eq_none.2 fun e he => ?_, h.absent name fun q hq => ?_⟩
  · rw [hfree] at he
    exact absurd he nofun
  · rw [hfree] at hq
    exact absurd hq nofun

theorem event?_of_property (h : o.HasMembers scope ms) {name : String} {q : Decl.Property}
    (hq : holder? ms name = some (.property q)) : o.event? name = none := by
  refine h.event?_eq_none.2 fun e he => ?_
  rw [hq] at he
  exact absurd he nofun

/-- A name is held by the event or by the property of that name. -/
theorem isSome_holder? (h : o.HasMembers scope ms) (name : String) :
    (holder? ms name).isSome = ((o.event? name).isSome || (o.property? name).isSome) := by
  rcases Decl.holder?_cases ms name with hfree | ⟨e, he⟩ | ⟨q, hq⟩
  · rw [hfree, (h.of_free hfree).1, (h.of_free hfree).2]
    rfl
  · rw [he, (h.events name).2 ⟨e, he⟩]
    rfl
  · obtain ⟨r, i, hr, -⟩ := h.present name q hq
    rw [hq, hr]
    exact (Bool.or_true _).symm

/-- What the next member does to the methods and the constructors. -/
structure Extends (scope : String) (ms : List Decl.Member) (m : Decl.Member) (o o' : ObjectType) :
    Prop where
  within : o'.scope = o.scope
  isClass : o'.isClass = o.isClass
  methods : o'.methods = o.methods ++ m.expansion scope ms
  constructors : o'.constructors =
    o.constructors ++ if o.isClass then m.constructor?.toList.map .ofDecl else []

theorem Extends.constructors_concat (hextends : Extends scope ms m o o')
    (h : o.HasMembers scope ms) : o'.constructors =
      if o'.isClass then ((ms ++ [m]).filterMap Decl.Member.constructor?).map .ofDecl else [] := by
  have hlast : [m].filterMap Decl.Member.constructor? = m.constructor?.toList := by
    rw [List.filterMap_cons, List.filterMap_nil]
    cases m.constructor? <;> rfl
  rw [hextends.constructors, h.constructors, hextends.isClass, List.filterMap_append, List.map_append,
    hlast]
  cases o.isClass <;> rfl

/-- A member whose name is held already, or that has none, leaves properties and events as they are. -/
theorem concat_of_held (h : o.HasMembers scope ms) (hextends : Extends scope ms m o o')
    (hheld : ∀ name, m.holds name = true → (holder? ms name).isSome = true)
    (hproperties : o'.properties = o.properties) (hevents : o'.events = o.events) :
    o'.HasMembers scope (ms ++ [m]) := by
  have hholder := Decl.holder?_concat_of_held hheld
  have hproperty : ∀ name, o'.property? name = o.property? name := by
    intro name
    unfold property?
    rw [hproperties]
  have hevent : ∀ name, o'.event? name = o.event? name := by
    intro name
    unfold event?
    rw [hevents]
  refine ⟨hextends.within.trans h.within, ?_, hextends.constructors_concat h, ?_, ?_, ?_⟩
  · rw [hextends.methods, h.methods, Decl.expansion_concat]
  · intro name
    rw [hevent, hholder]
    exact h.events name
  · intro name
    rw [hproperty, hholder]
    exact h.absent name
  · intro name q hq
    rw [hholder] at hq
    obtain ⟨p, i, hp, hrepresents⟩ := h.present name q hq
    exact ⟨p, i, (hproperty name).trans hp, hrepresents.concat hq m⟩

/-- A member that takes a free name changes properties and events of that name only. -/
theorem concat_of_free {name : String} (h : o.HasMembers scope ms) (hextends : Extends scope ms m o o')
    (hholds : m.holds name = true) (hfree : holder? ms name = none)
    (hevents : ∀ other, name ≠ other → o'.event? other = o.event? other)
    (hproperties : ∀ other, name ≠ other → o'.property? other = o.property? other)
    (hevent : (o'.event? name).isSome = true ↔ ∃ e, m = .event e)
    (habsent : (∀ q, m ≠ .property q) → o'.property? name = none)
    (hpresent : ∀ q, m = .property q →
      ∃ p i, o'.property? name = some (p, i) ∧ p.Represents (ms ++ [m]) name q) :
    o'.HasMembers scope (ms ++ [m]) := by
  have hself : holder? (ms ++ [m]) name = some m := Decl.holder?_concat_of_free hholds hfree
  have hother : ∀ other, name ≠ other → holder? (ms ++ [m]) other = holder? ms other :=
    fun other hne => Decl.holder?_concat_of_other
      (Bool.eq_false_iff.2 fun hm => hne (Decl.Member.eq_of_holds hholds hm))
  refine ⟨hextends.within.trans h.within, ?_, hextends.constructors_concat h, ?_, ?_, ?_⟩
  · rw [hextends.methods, h.methods, Decl.expansion_concat]
  · intro other
    by_cases hne : name = other
    · rw [← hne, hself, hevent]
      simp only [Option.some.injEq]
    · rw [hevents other hne, hother other hne]
      exact h.events other
  · intro other hnone
    by_cases hne : name = other
    · subst hne
      rw [hself] at hnone
      exact habsent fun q hq => hnone q (congrArg some hq)
    · rw [hother other hne] at hnone
      rw [hproperties other hne]
      exact h.absent other hnone
  · intro other q hq
    by_cases hne : name = other
    · subst hne
      rw [hself] at hq
      exact hpresent q (Option.some.inj hq)
    · rw [hother other hne] at hq
      obtain ⟨p, i, hp, hrepresents⟩ := h.present other q hq
      exact ⟨p, i, (hproperties other hne).trans hp, hrepresents.concat hq m⟩

theorem method (h : o.HasMembers scope ms) (d : Decl.Method) :
    (o.pushMethod (.ofDecl d)).HasMembers scope (ms ++ [.method d]) :=
  h.concat_of_held
    ⟨rfl, rfl, rfl, by simp [Decl.Member.constructor?, pushMethod, ObjectType.constructors]⟩
    (fun _ hm => absurd hm Bool.false_ne_true) rfl rfl

theorem constructor (h : o.HasMembers scope ms) (d : Decl.Constructor) :
    (o.pushConstructor (.ofDecl d)).HasMembers scope (ms ++ [.constructor d]) := by
  refine h.concat_of_held ⟨rfl, ?_, (List.append_nil _).symm, ?_⟩
    (fun _ hm => absurd hm Bool.false_ne_true) rfl rfl
  · unfold pushConstructor ObjectType.isClass
    exact Option.isSome_map
  · unfold pushConstructor ObjectType.constructors ObjectType.isClass
    cases o.classPart <;> rfl

/-- A member that is refused leaves the class or interface as it is. -/
theorem refused (h : o.HasMembers scope ms) {kind : Diagnostic.Kind}
    (hkind : m.refusal? scope ms = some kind) : o.HasMembers scope (ms ++ [m]) := by
  have hnothing : m.expansion scope ms = [] ∧ m.constructor? = none ∧
      ∀ name, m.holds name = true → (holder? ms name).isSome = true := by
    cases m with
    | method d => exact absurd hkind nofun
    | constructor d => exact absurd hkind nofun
    | property p =>
      refine ⟨by simp only [Decl.Member.expansion, hkind], rfl, fun name hname => ?_⟩
      rw [← beq_iff_eq.1 hname, Option.isSome_iff_ne_none]
      intro hnone
      simp [Decl.Member.refusal?, hnone] at hkind
    | event e =>
      refine ⟨by simp only [Decl.Member.expansion, hkind], rfl, fun name hname => ?_⟩
      rw [← beq_iff_eq.1 hname, Option.isSome_iff_ne_none]
      intro hnone
      simp [Decl.Member.refusal?, hnone] at hkind
  obtain ⟨hexpansion, hconstructor, hheld⟩ := hnothing
  refine h.concat_of_held ⟨rfl, rfl, ?_, ?_⟩ hheld rfl rfl
  · rw [hexpansion, List.append_nil]
  · rw [hconstructor, Option.toList_none, List.map_nil, ite_self, List.append_nil]

/-! ### Events and fragments that are taken -/

theorem event (h : o.HasMembers scope ms) (e : Decl.Event) (hfree : holder? ms e.name = none) :
    (o.addEvent e).HasMembers scope (ms ++ [.event e]) := by
  have hadd : o.addEvent e =
      { o with
        methods := o.methods ++
          [(Event.written e 0).accessor .add, (Event.written e 0).accessor .remove]
        events := o.events ++ [Event.written e o.methods.length] } := by
    unfold addEvent pushMethod
    dsimp only
    rw [List.append_assoc]
    rfl
  have hexpansion : Decl.Member.expansion scope ms (.event e) =
      [(Event.written e 0).accessor .add, (Event.written e 0).accessor .remove] := by
    simp only [Decl.Member.expansion, Decl.Member.refusal?, hfree, Option.isSome_none,
      Bool.false_eq_true, if_false]
  have hextends : Extends scope ms (.event e) o (o.addEvent e) := by
    refine ⟨by rw [hadd], by rw [hadd]; rfl, by rw [hadd, hexpansion], ?_⟩
    rw [hadd]
    simp [Decl.Member.constructor?, ObjectType.constructors]
  have hevent : ∀ name, (o.addEvent e).event? name = (o.event? name).or
      (if e.name == name then some (Event.written e o.methods.length, o.events.length) else none) := by
    intro name
    rw [hadd]
    unfold event?
    rw [List.zipIdx_append, List.find?_append, List.zipIdx_singleton, List.find?_singleton,
      Nat.zero_add]
    rfl
  have hproperty : ∀ name, (o.addEvent e).property? name = o.property? name := fun _ => rfl
  refine h.concat_of_free hextends (beq_self_eq_true e.name) hfree ?_ (fun other _ => hproperty other)
    ⟨fun _ => ⟨e, rfl⟩, fun _ => ?_⟩ (fun _ => ?_) (fun _ hq => absurd hq nofun)
  · intro other hne
    rw [hevent, if_neg (by simpa using hne), Option.or_none]
  · rw [hevent, beq_self_eq_true, if_pos rfl, Option.isSome_or, Option.isSome_some, Bool.or_true]
  · exact (h.of_free hfree).2

/-- The first fragment of a free name is taken. -/
theorem fragment_first (h : o.HasMembers scope ms) (p : Decl.Property)
    (hfree : holder? ms p.name = none) :
    (({ o with properties := o.properties ++ [.first p] } : ObjectType).addAccessors
      o.properties.length p.requested).HasMembers scope (ms ++ [.property p]) := by
  have hindex : ({ o with properties := o.properties ++ [.first p] } : ObjectType).properties[
      o.properties.length]? = some (.first p) := List.getElem?_concat_length
  obtain ⟨hevent, hnone⟩ := h.of_free hfree
  have hconcat : ∀ name,
      ({ o with properties := o.properties ++ [.first p] } : ObjectType).property? name =
        (o.property? name).or
          (if p.name == name then some (.first p, o.properties.length) else none) :=
    fun name => property?_concat o.properties (.first p) name
  have hexpansion : Decl.Member.expansion scope ms (.property p) =
      p.requested.map fun a => (Property.first p).accessor a.1 a.2 := by
    simp only [Decl.Member.expansion, Decl.Member.refusal?, hfree, Decl.fragmentsOf_of_none hfree,
      List.headD_nil]
  have hextends : Extends scope ms (.property p) o
      (({ o with properties := o.properties ++ [.first p] } : ObjectType).addAccessors
        o.properties.length p.requested) := by
    rw [addAccessors_eq hindex]
    exact ⟨rfl, rfl, by rw [hexpansion], by simp [Decl.Member.constructor?, ObjectType.constructors]⟩
  refine h.concat_of_free hextends (beq_self_eq_true p.name) hfree (fun other _ => ?_)
    (fun other hne => ?_) ?_ (fun hq => absurd rfl (hq p)) ?_
  · rw [addAccessors_eq hindex]
    rfl
  · rw [property?_addAccessors_other hindex hne, hconcat, if_neg (by simpa using hne), Option.or_none]
  · rw [addAccessors_eq hindex]
    show (o.event? p.name).isSome = true ↔ _
    rw [hevent]
    exact ⟨nofun, fun ⟨_, he⟩ => absurd he nofun⟩
  · rintro q heq
    obtain rfl := Decl.Member.property.inj heq
    refine ⟨_, _, property?_addAccessors_self (property?_concat_self hnone) p.requested, ?_,
      fun _ role => ?_⟩
    · exact (Property.first p).sameKind_withAccessors _ _
    · have hfresh : (Property.first p).has role = false := by cases role <;> rfl
      rw [Property.has_withAccessors, hfresh, Bool.false_or]

/-- A second fragment that is not refused adds its accessors to the property. -/
theorem fragment_second (h : o.HasMembers scope ms) {p q : Decl.Property} {r : Property} {i : Nat}
    (hheld : holder? ms p.name = some (.property q)) (hr : o.property? p.name = some (r, i))
    (htaken : (Decl.Member.property p).refusal? scope ms = none) :
    (o.addAccessors i p.requested).HasMembers scope (ms ++ [.property p]) := by
  obtain ⟨hqname, rest, hrest⟩ := Decl.fragmentsOf_of_property hheld
  obtain ⟨hindex, hrname⟩ := property?_eq_some hr
  obtain ⟨r', i', hr', hrepresents⟩ := h.present p.name q hheld
  obtain ⟨rfl, rfl⟩ := Prod.mk.inj (Option.some.inj (hr'.symm.trans hr))
  have hexpansion : Decl.Member.expansion scope ms (.property p) =
      p.requested.map fun a => r'.accessor a.1 a.2 := by
    simp only [Decl.Member.expansion, htaken, hrest, List.headD_cons, hrepresents.kind.accessor]
  have hholder : ∀ name, holder? (ms ++ [.property p]) name = holder? ms name :=
    Decl.holder?_concat_of_held fun name hname => by
      rw [← beq_iff_eq.1 hname, hheld, Option.isSome_some]
  have hextends : Extends scope ms (.property p) o (o.addAccessors i' p.requested) := by
    rw [addAccessors_eq hindex]
    exact ⟨rfl, rfl, by rw [hexpansion], by simp [Decl.Member.constructor?, ObjectType.constructors]⟩
  refine ⟨hextends.within.trans h.within, ?_, hextends.constructors_concat h, ?_, ?_, ?_⟩
  · rw [hextends.methods, h.methods, Decl.expansion_concat]
  · intro name
    rw [hholder, addAccessors_eq hindex]
    exact h.events name
  · intro name hnone
    rw [hholder] at hnone
    have hother : r'.name ≠ name := by
      rintro rfl
      exact hnone q (hrname ▸ hheld)
    rw [property?_addAccessors_other hindex hother]
    exact h.absent name hnone
  · intro name q' hq'
    rw [hholder] at hq'
    by_cases hself : p.name = name
    · subst hself
      obtain rfl := Decl.Member.property.inj (Option.some.inj (hheld.symm.trans hq'))
      refine ⟨_, _, property?_addAccessors_self hr p.requested, ?_, fun hone => ?_⟩
      · have hkind := r'.sameKind_withAccessors o.methods.length p.requested
        exact ⟨hkind.name.trans hrepresents.kind.name, hkind.type.trans hrepresents.kind.type,
          hkind.isStatic.trans hrepresents.kind.isStatic⟩
      · -- There are two fragments by now.
        have hlength := congrArg List.length hone
        rw [Decl.fragmentsOf_concat, hrest] at hlength
        simp [Decl.Member.fragmentOf?] at hlength
    · obtain ⟨r, j, hrj, hrepresents'⟩ := h.present name q' hq'
      refine ⟨r, j, ?_, hrepresents'.concat hq' _⟩
      rw [property?_addAccessors_other hindex (hrname ▸ hself), hrj]

/-- A further fragment is refused or taken as the fragments before it tell. -/
theorem addFragment_second (h : o.HasMembers scope ms) {p q : Decl.Property} {r : Property} {i : Nat}
    (hheld : holder? ms p.name = some (.property q)) (hr : o.property? p.name = some (r, i)) :
    o.addFragment p ((fragmentsOf ms p.name).length + 1) p.requested =
      match (Decl.Member.property p).refusal? scope ms with
      | some kind => .error kind
      | none => .ok (o.addAccessors i p.requested) := by
  obtain ⟨r', i', hr', hrepresents⟩ := h.present p.name q hheld
  obtain ⟨rfl, rfl⟩ := Prod.mk.inj (Option.some.inj (hr'.symm.trans hr))
  obtain ⟨-, rest, hrest⟩ := Decl.fragmentsOf_of_property hheld
  have hevent := h.event?_of_property hheld
  have hagrees : ((!sameMeaning o.scope r'.type (.parse p.type)) || r'.isStatic != p.isStatic) =
      !q.agrees scope p := by
    rw [h.within, hrepresents.kind.type, hrepresents.kind.isStatic]
    unfold Decl.Property.agrees
    rw [Bool.not_and]
    rfl
  have hcount : decide ((fragmentsOf ms p.name).length + 1 ≥ 3) =
      decide (2 ≤ (fragmentsOf ms p.name).length) := decide_eq_decide.2 (by omega)
  unfold addFragment Decl.Member.refusal?
  simp only [hevent, hr, hheld, Option.isSome_none, Bool.false_eq_true, if_false]
  rw [Bool.or_assoc, hagrees, hcount]
  by_cases hlegal : (decide (2 ≤ (fragmentsOf ms p.name).length) || !q.agrees scope p) = true
  · rw [if_pos hlegal, if_pos hlegal]
  · rw [if_neg hlegal, if_neg hlegal]
    -- There is one fragment so far: the property has what this one asked for.
    have hone : fragmentsOf ms p.name = [q] := by
      rw [hrest] at hlegal ⊢
      simp only [Bool.or_eq_true, not_or, decide_eq_true_eq, List.length_cons] at hlegal
      rw [List.eq_nil_of_length_eq_zero (by omega : rest.length = 0)]
    have hoverlaps : (p.requested.any fun a => r'.has a.1) = q.overlaps p := by
      unfold Decl.Property.overlaps
      congr 1
      funext a
      exact hrepresents.roles hone a.1
    rw [hoverlaps]
    by_cases hlap : q.overlaps p = true
    · rw [if_pos hlap, if_pos hlap]
    · rw [if_neg hlap, if_neg hlap]

/-- A fragment is refused whole, or taken. -/
theorem fragment_cases (h : o.HasMembers scope ms) (p : Decl.Property) :
    (∃ kind, (Decl.Member.property p).refusal? scope ms = some kind ∧
      o.addFragment p ((fragmentsOf ms p.name).length + 1) p.requested = .error kind) ∨
    ((Decl.Member.property p).refusal? scope ms = none ∧
      ∃ o', o.addFragment p ((fragmentsOf ms p.name).length + 1) p.requested = .ok o' ∧
        o'.HasMembers scope (ms ++ [.property p])) := by
  rcases Decl.holder?_cases ms p.name with hfree | ⟨e, he⟩ | ⟨q, hq⟩
  · obtain ⟨hevent, hnone⟩ := h.of_free hfree
    refine Or.inr ⟨by simp only [Decl.Member.refusal?, hfree], _, ?_, h.fragment_first p hfree⟩
    unfold addFragment
    simp only [hevent, hnone, Option.isSome_none, Bool.false_eq_true, if_false]
    rfl
  · have hevent : (o.event? p.name).isSome = true := (h.events p.name).2 ⟨e, he⟩
    refine Or.inl ⟨.duplicateTypeMember, by simp only [Decl.Member.refusal?, he], ?_⟩
    unfold addFragment
    simp only [hevent, if_true]
  · obtain ⟨r, i, hr, -⟩ := h.present p.name q hq
    have hadd := h.addFragment_second hq hr
    cases hrefusal : (Decl.Member.property p).refusal? scope ms with
    | some kind => exact Or.inl ⟨kind, rfl, hadd.trans (by rw [hrefusal])⟩
    | none =>
      exact Or.inr ⟨rfl, _, hadd.trans (by rw [hrefusal]), h.fragment_second hq hr hrefusal⟩

end ObjectType.HasMembers

end ComponentIdl
