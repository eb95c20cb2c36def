import ComponentIdl.Proofs.Derivation.Step

/-!
# Two derivations side by side

Two derivations over stores with as many slots give every class its turn at the same time. What holds
between them and is kept by the plans of one class holds between their ends.
-/

namespace ComponentIdl.Derivation

variable {s s' : Derivation} {id : ObjectId} {o o' : ObjectType}

/-- A relation `R` of derivations that is kept by each plan of each class. A class that has its turn
is related to the one in the other store by `O`, and so qualifies for the same interfaces. -/
structure Simulation (R : Derivation → Derivation → Prop)
    (O : ObjectId → ObjectType → ObjectType → Prop) : Prop where
  slots : ∀ s s', R s s' → s'.store.objects.size = s.store.objects.size
  objects : ∀ s s' id o o', R s s' → s.store.objects[id]? = some o →
    s'.store.objects[id]? = some o' →
      o'.awaitsDerivation = o.awaitsDerivation ∧ (o.awaitsDerivation = true → O id o o')
  roles : ∀ id o o', O id o o' → o'.derivedRoles id = o.derivedRoles id
  declare : ∀ s s' id o o' plan, R s s' → O id o o' → plan ∈ o.derivedRoles id →
    R (Derivation.declare id o s plan) (Derivation.declare id o' s' plan)

section Simulation

variable {R : Derivation → Derivation → Prop} {O : ObjectId → ObjectType → ObjectType → Prop}

theorem Simulation.plans (h : Simulation R O) (ho : O id o o')
    {plans : List (DerivedRole × MemberSet)} (hplans : plans ⊆ o.derivedRoles id) (hs : R s s') :
    R (plans.foldl (Derivation.declare id o) s) (plans.foldl (Derivation.declare id o') s') := by
  induction plans generalizing s s' with
  | nil => exact hs
  | cons plan plans ih =>
    obtain ⟨hplan, hrest⟩ := List.cons_subset.1 hplans
    exact ih hrest (h.declare s s' id o o' plan hs ho hplan)

theorem Simulation.turn (h : Simulation R O) (hs : R s s') (id : ObjectId) :
    R (s.deriveFrom id) (s'.deriveFrom id) := by
  have hsize := h.slots s s' hs
  by_cases hid : id < s.store.objects.size
  · have hid' : id < s'.store.objects.size := hsize ▸ hid
    have ho : s.store.objects[id]? = some s.store.objects[id] := Array.getElem?_eq_getElem hid
    have ho' : s'.store.objects[id]? = some s'.store.objects[id] := Array.getElem?_eq_getElem hid'
    obtain ⟨hawaits, hrelated⟩ := h.objects s s' id _ _ hs ho ho'
    unfold deriveFrom
    simp only [ho, ho', hawaits]
    split
    · next hturn =>
      have hclass := hrelated hturn
      rw [h.roles id _ _ hclass]
      exact h.plans hclass (List.Subset.refl _) hs
    · exact hs
  · have ho : s.store.objects[id]? = none := Array.getElem?_eq_none (Nat.not_lt.1 hid)
    have ho' : s'.store.objects[id]? = none :=
      Array.getElem?_eq_none (hsize ▸ Nat.not_lt.1 hid)
    unfold deriveFrom
    simp only [ho, ho']
    exact hs

/-- What relates two derivations at their start relates them at their end. -/
theorem Simulation.run (h : Simulation R O) (hs : R s s') : R s.run s'.run := by
  have hids : ∀ (ids : List ObjectId) (s s' : Derivation), R s s' →
      R (ids.foldl deriveFrom s) (ids.foldl deriveFrom s') := by
    intro ids
    induction ids with
    | nil => exact fun _ _ hs => hs
    | cons id ids ih => exact fun s s' hs => ih _ _ (h.turn hs id)
  unfold Derivation.run
  rw [h.slots s s' hs]
  exact hids _ s s' hs

end Simulation

end ComponentIdl.Derivation
