import Mathlib.Data.List.Forall2
import Mathlib.Data.List.Nodup
import Mathlib.Logic.ExistsUnique

/-!
# Lists as the model uses them

Items are found by position, changed in place, added at the end, and looked up by name. Two lists are
related item by item if one comes from the other by a change of its items.
-/

namespace ComponentIdl

theorem forall₂_getElem? {α β : Type} {R : α → β → Prop} {as : List α} {bs : List β}
    (h : List.Forall₂ R as bs) (i : Nat) : Option.Rel R as[i]? bs[i]? := by
  induction h generalizing i with
  | nil => exact .none
  | cons hab _ ih =>
    cases i with
    | zero => exact .some hab
    | succ i => exact ih i

theorem getElem?_right {α β : Type} {R : α → β → Prop} {as : List α} {bs : List β} {i : Nat} {a : α}
    (h : List.Forall₂ R as bs) (ha : as[i]? = some a) : ∃ b, bs[i]? = some b ∧ R a b := by
  have hrel := forall₂_getElem? h i
  rw [ha] at hrel
  generalize hb : bs[i]? = b at hrel
  cases hrel with
  | some hab => exact ⟨_, rfl, hab⟩

theorem getElem?_left {α β : Type} {R : α → β → Prop} {as : List α} {bs : List β} {i : Nat} {b : β}
    (h : List.Forall₂ R as bs) (hb : bs[i]? = some b) : ∃ a, as[i]? = some a ∧ R a b :=
  getElem?_right h.flip hb

theorem mem_left {α β : Type} {R : α → β → Prop} {as : List α} {bs : List β} {b : β}
    (h : List.Forall₂ R as bs) (hb : b ∈ bs) : ∃ a ∈ as, R a b := by
  obtain ⟨i, hi⟩ := List.mem_iff_getElem?.1 hb
  obtain ⟨a, ha, hab⟩ := getElem?_left h hi
  exact ⟨a, List.mem_of_getElem? ha, hab⟩

theorem mem_right {α β : Type} {R : α → β → Prop} {as : List α} {bs : List β} {a : α}
    (h : List.Forall₂ R as bs) (ha : a ∈ as) : ∃ b ∈ bs, R a b :=
  mem_left h.flip ha

theorem map_eq_of_forall₂ {α β γ : Type} {R : α → β → Prop} {f : α → γ} {g : β → γ} {as : List α}
    {bs : List β} (h : List.Forall₂ R as bs) (hfg : ∀ a b, R a b → g b = f a) :
    bs.map g = as.map f := by
  induction h with
  | nil => rfl
  | cons hab _ ih => rw [List.map_cons, List.map_cons, ih, hfg _ _ hab]

theorem forall₂_of_map_eq {α β γ : Type} {f : α → γ} {g : β → γ} {as : List α} {bs : List β}
    (h : as.map f = bs.map g) : List.Forall₂ (fun a b => f a = g b) as bs := by
  rw [← List.forall₂_eq_eq_eq, List.forall₂_map_left_iff, List.forall₂_map_right_iff] at h
  exact h

theorem exists_forall₂_iff {α β : Type} {R : α → β → Prop} {as : List α} :
    (∃ bs, List.Forall₂ R as bs) ↔ ∀ a ∈ as, ∃ b, R a b := by
  constructor
  · rintro ⟨bs, h⟩ a ha
    obtain ⟨b, -, hab⟩ := mem_right h ha
    exact ⟨b, hab⟩
  · intro h
    induction as with
    | nil => exact ⟨[], .nil⟩
    | cons a as ih =>
      obtain ⟨⟨b, hab⟩, has⟩ := List.forall_mem_cons.1 h
      obtain ⟨bs, hbs⟩ := ih has
      exact ⟨b :: bs, .cons hab hbs⟩

/-- Where the first answer of `f` tells what `g` answers, `g` answers nothing before. -/
theorem findSome?_of_first {α β γ : Type} {f : α → Option β} {g : α → Option γ} {P : γ → Prop}
    {as : List α} {r : β} (h : as.findSome? f = some r) (hnone : ∀ a, f a = none → g a = none)
    (hsome : ∀ a, f a = some r → ∃ c, g a = some c ∧ P c) : ∃ c, as.findSome? g = some c ∧ P c := by
  induction as with
  | nil => simp at h
  | cons a as ih =>
    rw [List.findSome?_cons] at h ⊢
    cases hf : f a with
    | none =>
      rw [hf] at h
      rw [hnone a hf]
      exact ih h
    | some b =>
      rw [hf] at h
      obtain rfl : b = r := Option.some.inj h
      obtain ⟨c, hc, hp⟩ := hsome a hf
      rw [hc]
      exact ⟨c, rfl, hp⟩

theorem find?_zipIdx_eq_none {α : Type} {key : α → String} {as : List α} {name : String} :
    (as.zipIdx.find? fun a => key a.1 == name) = none ↔ ∀ a ∈ as, key a ≠ name := by
  simp only [List.find?_eq_none, beq_iff_eq]
  constructor
  · intro h a ha
    obtain ⟨i, hi⟩ := List.mem_iff_getElem?.1 ha
    exact h (a, i) (List.mem_zipIdx_iff_getElem?.2 hi)
  · intro h x hx
    exact h x.1 (List.mem_of_getElem? (List.mem_zipIdx_iff_getElem?.1 hx))

theorem find?_zipIdx_map {α β κ : Type} [BEq κ] {key : β → κ} {f : α → β} (as : List α) (k : κ) :
    ((as.map f).zipIdx.find? fun b => key b.1 == k) =
      (as.zipIdx.find? fun a => key (f a.1) == k).map fun a => (f a.1, a.2) := by
  rw [List.zipIdx_map, List.find?_map]
  rfl

theorem flatMap_mapIdx {α β γ : Type} (f : Nat → α → β) (g : β → List γ) (as : List α) :
    (as.mapIdx f).flatMap g = (List.range as.length).flatMap fun i =>
      match as[i]? with
      | some a => g (f i a)
      | none => [] := by
  induction as generalizing f with
  | nil => rfl
  | cons a as ih =>
    rw [List.mapIdx_cons, List.flatMap_cons, ih, List.length_cons, List.range_succ_eq_map,
      List.flatMap_cons, List.flatMap_map]
    rfl

/-- The items that pass a test of their keys, one by one. -/
theorem flatMap_zipIdx_filter {α β γ : Type} (as : List α) (key : α → β) (p : β → Bool)
    (f : β → γ) :
    as.zipIdx.flatMap (fun a => if p (key a.1) = true then [f (key a.1)] else []) =
      ((as.map key).filter p).map f := by
  have hitems : as.zipIdx.flatMap (fun a => if p (key a.1) = true then [f (key a.1)] else []) =
      as.flatMap fun a => if p (key a) = true then [f (key a)] else [] := by
    conv_rhs => rw [← List.zipIdx_map_fst 0 as, List.flatMap_map]
  rw [hitems]
  clear hitems
  induction as with
  | nil => rfl
  | cons a as ih =>
    rw [List.flatMap_cons, ih, List.map_cons]
    cases hp : p (key a) <;> simp [hp]

/-- Lists of one length that differ at one position are the same before it and after it. -/
theorem exists_single_change {α : Type} {as bs : List α} (hlength : as.length = bs.length)
    (h : ∃! i : Nat, as[i]? ≠ bs[i]?) :
    ∃ before a b after, a ≠ b ∧ as = before ++ a :: after ∧ bs = before ++ b :: after := by
  obtain ⟨i, hne, honly⟩ := h
  have hsame : ∀ j, j ≠ i → as[j]? = bs[j]? := fun j hj => not_not.1 (mt (honly j) hj)
  have hi : i < as.length := by
    by_contra hge
    exact hne (by rw [List.getElem?_eq_none (by omega), List.getElem?_eq_none (by omega)])
  have hi' : i < bs.length := hlength ▸ hi
  have hbefore : as.take i = bs.take i := by
    apply List.ext_getElem?
    intro j
    by_cases hj : j < i
    · rw [List.getElem?_take_of_lt hj, List.getElem?_take_of_lt hj, hsame j (by omega)]
    · rw [List.getElem?_take_eq_none (by omega), List.getElem?_take_eq_none (by omega)]
  have hafter : as.drop (i + 1) = bs.drop (i + 1) := by
    apply List.ext_getElem?
    intro j
    rw [List.getElem?_drop, List.getElem?_drop, hsame _ (by omega)]
  refine ⟨as.take i, as[i], bs[i], as.drop (i + 1), ?_, ?_, ?_⟩
  · intro heq
    exact hne (by rw [List.getElem?_eq_getElem hi, List.getElem?_eq_getElem hi', heq])
  · rw [← List.drop_eq_getElem_cons hi, List.take_append_drop]
  · rw [hbefore, hafter, ← List.drop_eq_getElem_cons hi', List.take_append_drop]

theorem getElem?_append_old {α : Type} {as : List α} {i : Nat} {a : α} (bs : List α)
    (h : as[i]? = some a) : (as ++ bs)[i]? = some a := by
  rw [List.getElem?_append_left (List.getElem?_eq_some_iff.1 h).1]
  exact h

theorem nodup_map_concat {α β : Type} {key : α → β} {as : List α} {a : α}
    (h : (as.map key).Nodup) (hnew : ∀ b ∈ as, key b ≠ key a) : ((as ++ [a]).map key).Nodup := by
  rw [List.map_append, List.nodup_append]
  refine ⟨h, by simp, ?_⟩
  intro k hk k' hk' heq
  obtain ⟨b, hb, hbk⟩ := List.mem_map.1 hk
  rw [List.map_singleton, List.mem_singleton] at hk'
  exact hnew b hb (hbk.trans (heq.trans hk'))

/-- An item with a key of its own has one position. -/
theorem index_eq_of_nodup_map {α β : Type} {key : α → β} {as : List α} {i j : Nat} {a : α}
    (h : (as.map key).Nodup) (hi : as[i]? = some a) (hj : as[j]? = some a) : i = j :=
  (List.getElem?_inj (List.getElem?_eq_some_iff.1 hi).1 (.of_map key h)).1 (hi.trans hj.symm)

theorem getElem?_append_cases {α : Type} {as bs : List α} {i : Nat} {a : α}
    (h : (as ++ bs)[i]? = some a) : as[i]? = some a ∨ ∃ k, i = as.length + k ∧ bs[k]? = some a := by
  by_cases hi : i < as.length
  · rw [List.getElem?_append_left hi] at h
    exact Or.inl h
  · rw [List.getElem?_append_right (by omega)] at h
    exact Or.inr ⟨i - as.length, by omega, h⟩

theorem map_modify {α β : Type} {f : α → α} {g : α → β} (as : List α) (i : Nat)
    (hfg : ∀ a, g (f a) = g a) : (as.modify i f).map g = as.map g := by
  apply List.ext_getElem?
  intro j
  rw [List.getElem?_map, List.getElem?_modify, List.getElem?_map]
  cases as[j]? with
  | none => rfl
  | some a => by_cases hij : i = j <;> simp [hij, hfg]

theorem mem_modify {α : Type} {f : α → α} {as : List α} {i : Nat} {a' : α}
    (h : a' ∈ as.modify i f) : (∃ a, as[i]? = some a ∧ a' = f a) ∨ a' ∈ as := by
  obtain ⟨j, hj⟩ := List.mem_iff_getElem?.1 h
  rw [List.getElem?_modify] at hj
  by_cases hij : i = j
  · subst hij
    obtain ⟨a, ha, hfa⟩ := Option.map_eq_some_iff.1 hj
    exact Or.inl ⟨a, ha, by simpa using hfa.symm⟩
  · exact Or.inr (List.mem_of_getElem? (i := j) (by simpa [hij] using hj))

theorem mem_modify_of_mem {α : Type} {f : α → α} {as : List α} {i : Nat} {a : α} (h : a ∈ as) :
    (f a ∈ as.modify i f ∧ as[i]? = some a) ∨ a ∈ as.modify i f := by
  obtain ⟨j, hj⟩ := List.mem_iff_getElem?.1 h
  by_cases hij : i = j
  · subst hij
    exact Or.inl ⟨List.mem_iff_getElem?.2 ⟨i, by simp [hj]⟩, hj⟩
  · exact Or.inr (List.mem_iff_getElem?.2 ⟨j, by simp [hij, hj]⟩)

theorem lookup_of_mem {α : Type} {entries : List (String × α)} {name : String} {a : α}
    (hnodup : (entries.map Prod.fst).Nodup) (h : (name, a) ∈ entries) :
    entries.lookup name = some a := by
  induction entries with
  | nil => simp at h
  | cons e entries ih =>
    obtain ⟨key, b⟩ := e
    rw [List.map_cons, List.nodup_cons] at hnodup
    rcases List.mem_cons.1 h with heq | hrest
    · obtain ⟨rfl, rfl⟩ := Prod.mk.inj heq
      simp
    · have hne : (name == key) = false := by
        rw [beq_eq_false_iff_ne]
        rintro rfl
        exact hnodup.1 (List.mem_map.2 ⟨_, hrest, rfl⟩)
      rw [List.lookup_cons, hne]
      exact ih hnodup.2 hrest

theorem mem_of_lookup {α : Type} {entries : List (String × α)} {name : String} {a : α}
    (h : entries.lookup name = some a) : (name, a) ∈ entries := by
  induction entries with
  | nil => simp at h
  | cons e entries ih =>
    obtain ⟨key, b⟩ := e
    rw [List.lookup_cons] at h
    split at h
    · next heq =>
      obtain rfl := beq_iff_eq.1 heq
      obtain rfl := Option.some.inj h
      exact List.mem_cons_self
    · exact List.mem_cons_of_mem _ (ih h)

end ComponentIdl
