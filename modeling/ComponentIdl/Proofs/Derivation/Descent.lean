import ComponentIdl.Proofs.Binding
import ComponentIdl.Proofs.Builder.Step
import ComponentIdl.Proofs.Derivation.Members
import ComponentIdl.Proofs.Derivation.Step
import ComponentIdl.Proofs.Reached
import ComponentIdl.Proofs.Store.Similar

/-!
# Classes and the interfaces derived from them

A class holds the slots of its derived interfaces by role, and each of these holds the slot of the
class. Only the derivation of interfaces writes either of the two; it writes both at once, to a role
that had no interface before.
-/

namespace ComponentIdl

/-- The interface of a role, if there is one. -/
def Derived.slot? (d : Derived) : DerivedRole → Option ObjectId
  | .default => d.default
  | .statics => d.statics
  | .factory => d.factory

theorem Derived.slot?_record (d : Derived) (slot : ObjectId) (role role' : DerivedRole) :
    (role.record d slot).slot? role' = if role' = role then some slot else d.slot? role' := by
  cases role <;> cases role' <;> rfl

theorem Derived.slot?_empty (role : DerivedRole) : ({} : Derived).slot? role = none := by
  cases role <;> rfl

/-- What a class or interface tells of derivation. -/
structure Descent where
  isClass : Bool
  derived : Derived
  derivedFrom : Option ObjectId

namespace ObjectType

variable {o o' : ObjectType}

/-- The interfaces derived from a class; an interface has none. -/
def derived (o : ObjectType) : Derived := (o.classPart.map ClassPart.derived).getD {}

def descent (o : ObjectType) : Descent := ⟨o.isClass, o.derived, o.derivedFrom⟩

theorem eq_of_descent (h : o'.descent = o.descent) :
    o'.isClass = o.isClass ∧ o'.derived = o.derived ∧ o'.derivedFrom = o.derivedFrom := by
  simpa only [descent, Descent.mk.injEq] using h

theorem derived_of_awaitsDerivation (h : o.awaitsDerivation = true) : o.derived = {} := by
  unfold awaitsDerivation at h
  unfold derived
  cases hc : o.classPart with
  | none => rfl
  | some c =>
    rw [hc] at h
    simp only [Bool.and_eq_true, beq_iff_eq] at h
    exact h.1

theorem nodup_derivedRoles (o : ObjectType) (id : ObjectId) :
    ((o.derivedRoles id).map Prod.fst).Nodup := by
  unfold derivedRoles
  repeat' split
  all_goals simp

theorem descent_addAccessors (o : ObjectType) (index : Nat) (asked : List (PropertyRole × Nat)) :
    (o.addAccessors index asked).descent = o.descent := by
  have hone : ∀ (o : ObjectType) role line, (o.addAccessor index role line).descent = o.descent := by
    intro o role line
    unfold addAccessor
    split <;> rfl
  induction asked generalizing o with
  | nil => rfl
  | cons a asked ih => exact (ih (o.addAccessor index a.1 a.2)).trans (hone o a.1 a.2)

theorem Grows.descent (h : o.Grows o') : o'.descent = o.descent := by
  cases h with
  | method d => rfl
  | constructor d =>
    unfold ObjectType.descent derived pushConstructor isClass
    cases o.classPart <;> rfl
  | fragment d count ho =>
    obtain ⟨-, ⟨-, rfl⟩ | ⟨p, index, -, -, -, -, -, rfl⟩⟩ := addFragment_cases ho
    · exact descent_addAccessors _ _ _
    · exact descent_addAccessors _ _ _
  | event d _ _ => rfl

theorem descent_boundIn (o : ObjectType) (t : NameTable) : (o.boundIn t).descent = o.descent := by
  unfold descent derived isClass boundIn
  cases o.classPart <;> rfl

theorem descent_recorded (role : DerivedRole) (slot : ObjectId) (hc : o.isClass = true) :
    (Derivation.recorded role slot o).descent =
      ⟨true, role.record o.derived slot, o.derivedFrom⟩ := by
  obtain ⟨c, hpart⟩ := Option.isSome_iff_exists.1 hc
  unfold descent derived isClass Derivation.recorded
  rw [hpart]
  rfl

end ObjectType

namespace Store

variable {st st' st'' : Store}

/-- Classes and derived interfaces point at each other: what a class has for a role is derived from
it, and what is derived from a class is there for exactly one role. -/
structure DerivedMatch (st : Store) : Prop where
  slot : ∀ (id : ObjectId) c role i, st.objects[id]? = some c → c.derived.slot? role = some i →
    ∃ o, st.objects[i]? = some o ∧ o.isClass = false ∧ o.derivedFrom = some id
  origin : ∀ (i : ObjectId) o id, st.objects[i]? = some o → o.derivedFrom = some id →
    ∃ c, st.objects[id]? = some c ∧ c.isClass = true ∧ ∃! role, c.derived.slot? role = some i

/-- Old classes and interfaces tell of derivation what they told before, new ones tell nothing. -/
structure KeepsDescents (st st' : Store) : Prop where
  old : ∀ (i : ObjectId) o, st.objects[i]? = some o →
    ∃ o', st'.objects[i]? = some o' ∧ o'.descent = o.descent
  new : ∀ (i : ObjectId) o', st.objects[i]? = none → st'.objects[i]? = some o' →
    o'.derived = {} ∧ o'.derivedFrom = none

theorem keepsDescents_of_map
    (h : ∀ i : ObjectId, (st'.objects[i]?).map ObjectType.descent =
      (st.objects[i]?).map ObjectType.descent) : st.KeepsDescents st' := by
  constructor
  · intro i o ho
    have hi := h i
    rw [ho, Option.map_some] at hi
    exact Option.map_eq_some_iff.1 hi
  · intro i o' hnone ho'
    have hi := h i
    rw [hnone, ho'] at hi
    exact absurd hi (by simp)

theorem KeepsDescents.refl (st : Store) : st.KeepsDescents st := keepsDescents_of_map fun _ => rfl

theorem KeepsDescents.cases (h : st.KeepsDescents st') {i : ObjectId} {o' : ObjectType}
    (ho' : st'.objects[i]? = some o') :
    (∃ o, st.objects[i]? = some o ∧ o'.descent = o.descent) ∨
      (o'.derived = {} ∧ o'.derivedFrom = none) := by
  cases ho : st.objects[i]? with
  | none => exact Or.inr (h.new i o' ho ho')
  | some o =>
    obtain ⟨o₁, ho₁, hsame⟩ := h.old i o ho
    obtain rfl : o' = o₁ := Option.some.inj (ho'.symm.trans ho₁)
    exact Or.inl ⟨o, rfl, hsame⟩

theorem DerivedMatch.keep (h : st.DerivedMatch) (hk : st.KeepsDescents st') :
    st'.DerivedMatch := by
  constructor
  · intro id c' role i hc' hslot
    rcases hk.cases hc' with ⟨c, hc, hsame⟩ | ⟨hnone, -⟩
    · obtain ⟨-, hderived, -⟩ := ObjectType.eq_of_descent hsame
      rw [hderived] at hslot
      obtain ⟨o, ho, hinterface, hfrom⟩ := h.slot id c role i hc hslot
      obtain ⟨o', ho', hsame'⟩ := hk.old i o ho
      obtain ⟨hclass', -, hfrom'⟩ := ObjectType.eq_of_descent hsame'
      exact ⟨o', ho', hclass'.trans hinterface, hfrom'.trans hfrom⟩
    · rw [hnone, Derived.slot?_empty] at hslot
      exact absurd hslot (by simp)
  · intro i o' id ho' hfrom
    rcases hk.cases ho' with ⟨o, ho, hsame⟩ | ⟨-, hnone⟩
    · obtain ⟨-, -, hfrom'⟩ := ObjectType.eq_of_descent hsame
      obtain ⟨c, hc, hclass, hrole⟩ := h.origin i o id ho (hfrom'.symm.trans hfrom)
      obtain ⟨c', hc', hsame'⟩ := hk.old id c hc
      obtain ⟨hclass', hderived', -⟩ := ObjectType.eq_of_descent hsame'
      refine ⟨c', hc', hclass'.trans hclass, ?_⟩
      rw [hderived']
      exact hrole
    · rw [hnone] at hfrom
      exact absurd hfrom (by simp)

theorem keepsDescents_boundIn (st : Store) (t : NameTable) : st.KeepsDescents (st.boundIn t) := by
  apply keepsDescents_of_map
  intro i
  show ((st.objects.map (ObjectType.boundIn t))[i]?).map _ = _
  rw [Array.getElem?_map, Option.map_map]
  exact congrArg (Option.map · _) (funext fun o => o.descent_boundIn t)

theorem keepsDescents_withCycles (st : Store) : st.KeepsDescents st.withCycles := by
  apply keepsDescents_of_map
  intro i
  unfold withCycles
  simp only [Array.getElem?_mapIdx, Option.map_map]
  rfl

theorem keepsDescents_checkMembers (w : Workspace) :
    w.store.KeepsDescents w.checkMembers.1.store := by
  apply keepsDescents_of_map
  intro i
  rw [getElem?_checkMembers]
  cases w.store.objects[i]? with
  | none => rfl
  | some o =>
    have hunlinked := Remark.unlinked_foldl o (o.remarks (w.store.ancestors i))
    have hsame : ∀ u : ObjectType, u.unlinked.descent = u.descent := fun _ => rfl
    rw [Option.map_some, Option.map_some, Option.map_some, ← hsame, hunlinked, hsame]

end Store

theorem Builder.keepsDescents_visit (b : Builder) (v : Visit) :
    b.store.KeepsDescents (b.visit v).store := by
  cases b.step_visit v with
  | keep store _ _ => exact store ▸ .refl _
  | opened d h =>
    rw [h]
    exact Store.keepsDescents_of_map fun _ => by rw [(slots_openBlock ..).1]
  | declared node block rest header entity _ _ _ _ isNew store _ _ =>
    rw [store]
    cases entity with
    | object new =>
      constructor
      · intro i o ho
        have hlt := (Array.getElem?_eq_some_iff.1 ho).1
        rw [(slots_declare ..).1, Store.add, Array.getElem?_push, if_neg (Nat.ne_of_lt hlt)]
        exact ⟨o, ho, rfl⟩
      · intro i o' hnone ho'
        rw [(slots_declare ..).1, Store.add, Array.getElem?_push] at ho'
        split at ho'
        · obtain rfl := Option.some.inj ho'
          refine ⟨?_, isNew.derivedFrom⟩
          unfold ObjectType.derived
          cases hc : new.classPart with
          | none => rfl
          | some c => exact isNew.derived c hc
        · exact absurd (hnone.symm.trans ho') (by simp)
    | struct s => exact Store.keepsDescents_of_map fun i => by rw [(slots_declare ..).1]; rfl
    | enum e => exact Store.keepsDescents_of_map fun i => by rw [(slots_declare ..).1]; rfl
    | delegate d => exact Store.keepsDescents_of_map fun i => by rw [(slots_declare ..).1]; rfl
  | grown id f grows store _ _ =>
    rw [store]
    apply Store.keepsDescents_of_map
    intro i
    rw [Store.modifyObject, Array.getElem?_modify]
    split
    · next hid =>
      subst hid
      cases ho : b.store.objects[id]? with
      | none => rfl
      | some o => exact congrArg some (grows o ho).descent
    · rfl
  | field id d _ store _ _ =>
    rw [store]
    exact Store.keepsDescents_of_map fun _ => rfl
  | enumMember id d _ store _ _ =>
    rw [store]
    exact Store.keepsDescents_of_map fun _ => rfl

namespace Derivation

variable {s : Derivation} {st : Store} {id : ObjectId} {c : ObjectType}
  {plans : List (DerivedRole × MemberSet)}

/-- The class has no interfaces yet for the roles that are left. -/
structure Vacant (s : Derivation) (id : ObjectId) (plans : List (DerivedRole × MemberSet)) :
    Prop where
  class_ : ∃ c, s.store.objects[id]? = some c ∧ c.isClass = true ∧
    ∀ plan ∈ plans, c.derived.slot? plan.1 = none
  roles : (plans.map Prod.fst).Nodup

section WithInterface

variable (node : NamespaceId) (block : Nat) (role : DerivedRole) (interface : ObjectType)

theorem getElem?_new (hc : st.objects[id]? = some c) :
    (withInterface st node block id st.objects.size role interface).objects[st.objects.size]? =
      some interface := by
  have hlt := (Array.getElem?_eq_some_iff.1 hc).1
  rw [getElem?_withInterface, Array.getElem?_push, if_pos rfl, Option.map_some,
    if_neg (Nat.ne_of_lt hlt)]

theorem getElem?_class (slot : ObjectId) (hc : st.objects[id]? = some c) :
    (withInterface st node block id slot role interface).objects[id]? =
      some (recorded role slot c) := by
  have hlt := (Array.getElem?_eq_some_iff.1 hc).1
  rw [getElem?_withInterface, Array.getElem?_push, if_neg (Nat.ne_of_lt hlt), hc, Option.map_some,
    if_pos rfl]

theorem getElem?_other (slot : ObjectId) {i : ObjectId} {o : ObjectType} (hi : i ≠ id)
    (ho : st.objects[i]? = some o) :
    (withInterface st node block id slot role interface).objects[i]? = some o := by
  have hlt := (Array.getElem?_eq_some_iff.1 ho).1
  rw [getElem?_withInterface, Array.getElem?_push, if_neg (Nat.ne_of_lt hlt), ho, Option.map_some,
    if_neg fun h => hi h.symm]

variable {node block role interface}

/-- A slot is that of the class, the new one, or an old one that stays as it is. -/
theorem slot_withInterface {i : ObjectId} {o' : ObjectType} (hc : st.objects[id]? = some c)
    (ho' : (withInterface st node block id st.objects.size role interface).objects[i]? = some o') :
    (i = id ∧ o' = recorded role st.objects.size c) ∨
      (i = st.objects.size ∧ o' = interface) ∨ (i ≠ id ∧ st.objects[i]? = some o') := by
  by_cases hid : i = id
  · subst hid
    rw [getElem?_class _ _ _ _ _ hc] at ho'
    exact Or.inl ⟨rfl, (Option.some.inj ho').symm⟩
  · rw [getElem?_withInterface, Array.getElem?_push] at ho'
    obtain ⟨o, ho, rfl⟩ := Option.map_eq_some_iff.1 ho'
    rw [if_neg fun h => hid h.symm]
    split at ho
    · next hi => exact Or.inr (Or.inl ⟨hi, (Option.some.inj ho).symm⟩)
    · exact Or.inr (Or.inr ⟨hid, ho⟩)

/-- An interface of a vacant role keeps the match. -/
theorem derivedMatch_withInterface (h : st.DerivedMatch) (hc : st.objects[id]? = some c)
    (hclass : c.isClass = true) (hvacant : c.derived.slot? role = none)
    (hinterface : interface.classPart = none) (hfrom : interface.derivedFrom = some id) :
    (withInterface st node block id st.objects.size role interface).DerivedMatch := by
  have hnone : interface.derived = {} := by
    unfold ObjectType.derived
    rw [hinterface]
    rfl
  have hnotClass : interface.isClass = false := by
    unfold ObjectType.isClass
    rw [hinterface]
    rfl
  have hdescent := ObjectType.descent_recorded role st.objects.size hclass
  have hslots : ∀ role', (recorded role st.objects.size c).derived.slot? role' =
      if role' = role then some st.objects.size else c.derived.slot? role' := by
    intro role'
    rw [← Derived.slot?_record]
    exact congrArg (Derived.slot? · role') (congrArg Descent.derived hdescent)
  have hlt : ∀ {i : ObjectId} {o : ObjectType}, st.objects[i]? = some o → i ≠ st.objects.size :=
    fun ho => Nat.ne_of_lt (Array.getElem?_eq_some_iff.1 ho).1
  constructor
  · -- What a class has for a role is the new interface, or was there before and is no class.
    have hold : ∀ (k : ObjectId) c' role' i, st.objects[k]? = some c' →
        c'.derived.slot? role' = some i →
        ∃ o, (withInterface st node block id st.objects.size role interface).objects[i]? = some o ∧
          o.isClass = false ∧ o.derivedFrom = some k := by
      intro k c' role' i hk hslot
      obtain ⟨o, ho, hobject, hofrom⟩ := h.slot k c' role' i hk hslot
      have hne : i ≠ id := by
        rintro rfl
        obtain rfl : c = o := Option.some.inj (hc.symm.trans ho)
        exact absurd (hclass.symm.trans hobject) (by simp)
      exact ⟨o, getElem?_other _ _ _ _ _ hne ho, hobject, hofrom⟩
    intro k c' role' i hc' hslot
    rcases slot_withInterface hc hc' with ⟨rfl, rfl⟩ | ⟨-, rfl⟩ | ⟨-, hk⟩
    · rw [hslots] at hslot
      split at hslot
      · obtain rfl := Option.some.inj hslot
        exact ⟨interface, getElem?_new _ _ _ _ hc, hnotClass, hfrom⟩
      · exact hold k c role' i hc hslot
    · rw [hnone, Derived.slot?_empty] at hslot
      exact absurd hslot (by simp)
    · exact hold k c' role' i hk hslot
  · -- What is derived from a class was so before, or is the new interface.
    have hold : ∀ (i : ObjectId) o k, st.objects[i]? = some o → o.derivedFrom = some k →
        ∃ c', (withInterface st node block id st.objects.size role interface).objects[k]? = some c' ∧
          c'.isClass = true ∧ ∃! role', c'.derived.slot? role' = some i := by
      intro i o k ho hk
      obtain ⟨c', hc', hclass', role', hrole', honly⟩ := h.origin i o k ho hk
      by_cases hid : k = id
      · subst hid
        obtain rfl : c = c' := Option.some.inj (hc.symm.trans hc')
        refine ⟨_, getElem?_class _ _ _ _ _ hc, congrArg Descent.isClass hdescent, role', ?_, ?_⟩
        · dsimp only
          rw [hslots, if_neg, hrole']
          rintro rfl
          exact absurd (hvacant.symm.trans hrole') (by simp)
        · intro other hother
          rw [hslots] at hother
          split at hother
          · exact absurd (Option.some.inj hother).symm (hlt ho)
          · exact honly other hother
      · exact ⟨c', getElem?_other _ _ _ _ _ hid hc', hclass', role', hrole', honly⟩
    intro i o' k ho' hk
    rcases slot_withInterface hc ho' with ⟨rfl, rfl⟩ | ⟨rfl, rfl⟩ | ⟨-, hi⟩
    · exact hold i c k hc hk
    · obtain rfl : id = k := Option.some.inj (hfrom.symm.trans hk)
      refine ⟨_, getElem?_class _ _ _ _ _ hc, congrArg Descent.isClass hdescent, role, ?_, ?_⟩
      · dsimp only
        rw [hslots, if_pos rfl]
      · intro other hother
        by_contra hne
        rw [hslots, if_neg hne] at hother
        obtain ⟨o, ho, -⟩ := h.slot id c other _ hc hother
        exact hlt ho rfl
    · exact hold i o' k hi hk

end WithInterface

theorem invariant_derivedMatch :
    Invariant (fun s => s.store.DerivedMatch) fun s id _ plans => Vacant s id plans where
  turn s id o _ ho hawaits := by
    refine ⟨⟨o, ho, isClass_of_awaitsDerivation hawaits, fun plan _ => ?_⟩,
      o.nodup_derivedRoles id⟩
    rw [ObjectType.derived_of_awaitsDerivation hawaits, Derived.slot?_empty]
  step s s' id o plan plans hs hq hstep := by
    obtain ⟨⟨c, hc, hclass, hvacant⟩, hroles⟩ := hq
    obtain ⟨hrole, hrest⟩ := List.nodup_cons.1 hroles
    have hlater : ∀ later ∈ plans, c.derived.slot? later.1 = none :=
      fun later hl => hvacant later (List.mem_cons_of_mem _ hl)
    cases hstep with
    | passed => exact ⟨hs, ⟨c, hc, hclass, hlater⟩, hrest⟩
    | taken d => exact ⟨hs, ⟨c, hc, hclass, hlater⟩, hrest⟩
    | declared node block path free beside =>
      refine ⟨derivedMatch_withInterface hs hc hclass (hvacant plan List.mem_cons_self) rfl rfl,
        ⟨_, getElem?_class _ _ _ _ _ hc, ?_, ?_⟩, hrest⟩
      · exact congrArg Descent.isClass (ObjectType.descent_recorded plan.1 _ hclass)
      · intro later hl
        have hne : later.1 ≠ plan.1 := fun heq => hrole (heq ▸ List.mem_map_of_mem hl)
        have hdescent := ObjectType.descent_recorded plan.1 s.store.objects.size hclass
        rw [show (recorded plan.1 s.store.objects.size c).derived = _ from
          congrArg Descent.derived hdescent, Derived.slot?_record, if_neg hne]
        exact hlater later hl

end Derivation

theorem Workspace.invariant_derivedMatch : Invariant fun w => w.store.DerivedMatch where
  build w visits h := by
    refine Builder.run_preserves (P := fun b => b.store.DerivedMatch) visits ?_ h
    exact fun v _ b hb => hb.keep (b.keepsDescents_visit v)
  bindReferences w h := by
    rw [w.bindReferences_eq]
    exact h.keep (w.store.keepsDescents_boundIn _)
  evaluateEnums w h := h.keep (Store.keepsDescents_of_map fun _ => rfl)
  findCycles w h := h.keep w.store.keepsDescents_withCycles
  checkMembers w h := h.keep (Store.keepsDescents_checkMembers w)
  deriveInterfaces w h :=
    Derivation.invariant_derivedMatch.slots (s := { store := w.store, symbols := w.symbols }) h _

end ComponentIdl
