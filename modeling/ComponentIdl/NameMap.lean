/-!
# Maps from names

A finite map whose keys are names, kept as a list in the order of insertion. A key occurs once, so
`get?` needs no rule for repeated keys. `insertNew` never replaces an entry: the first one wins.
-/

namespace ComponentIdl

/-- A finite map from names, in the order of insertion. -/
structure NameMap (α : Type) where
  entries : List (String × α) := []
  distinct : (entries.map Prod.fst).Nodup := by exact List.nodup_nil

namespace NameMap

variable {α : Type}

def empty : NameMap α := {}

instance : Inhabited (NameMap α) := ⟨empty⟩

def get? (m : NameMap α) (name : String) : Option α :=
  m.entries.lookup name

def contains (m : NameMap α) (name : String) : Bool :=
  (m.get? name).isSome

def size (m : NameMap α) : Nat :=
  m.entries.length

def keys (m : NameMap α) : List String :=
  m.entries.map Prod.fst

theorem get?_eq_none_iff (m : NameMap α) (name : String) :
    m.get? name = none ↔ name ∉ m.keys := by
  simp only [get?, keys, List.lookup_eq_none_iff, List.mem_map, bne_iff_ne, ne_eq]
  exact ⟨fun h ⟨e, he, heq⟩ => h e he heq.symm, fun h e he heq => h ⟨e, he, heq.symm⟩⟩

/-- The map with a new entry at the end; a name that has an entry keeps it. -/
def insertNew (m : NameMap α) (name : String) (value : α) : NameMap α :=
  if h : m.get? name = none then
    { entries := m.entries ++ [(name, value)]
      distinct := by
        have hn := (get?_eq_none_iff m name).1 h
        simp only [keys] at hn
        rw [List.map_append, List.nodup_append]
        refine ⟨m.distinct, by simp, ?_⟩
        intro a ha b hb hab
        simp only [List.map_cons, List.map_nil, List.mem_singleton] at hb
        exact hn (hb ▸ hab ▸ ha) }
  else m

/-- Insertion decides at its own name, and only if that name was free. -/
theorem get?_insertNew (m : NameMap α) (name other : String) (value : α) :
    (m.insertNew name value).get? other =
      if other = name then some ((m.get? name).getD value) else m.get? other := by
  unfold insertNew
  by_cases h : m.get? name = none
  · simp only [h, dif_pos, Option.getD_none]
    simp only [get?, List.lookup_append] at h ⊢
    by_cases ho : other = name
    · subst ho
      simp [h]
    · have hb : (other == name) = false := by simpa using ho
      simp [ho, List.lookup_cons, hb]
  · rw [dif_neg h]
    by_cases ho : other = name
    · subst ho
      cases hg : m.get? other with
      | none => exact absurd hg h
      | some v => simp
    · simp [ho]

end NameMap

end ComponentIdl
