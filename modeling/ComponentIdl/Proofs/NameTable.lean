import ComponentIdl.NameTable

/-!
# A name table under look-ups

A table grows by look-ups only while references are bound. What a name stands for then depends on no
order: an entry stays, a name without entry and without import never gets one, and an import once
looked up has its slot for good.
-/

namespace ComponentIdl.NameTable

variable {t t' t'' : NameTable} {name other : String} {symbol : Symbol} {keys : List String}

theorem get?_insert (t : NameTable) (name other : String) (symbol : Symbol) :
    (t.insert name symbol).get? other =
      if other = name then some ((t.get? name).getD symbol) else t.get? other :=
  NameMap.get?_insertNew ..

theorem get?_insert_old (h : t.get? other = some symbol) (name : String) (fresh : Symbol) :
    (t.insert name fresh).get? other = some symbol := by
  rw [get?_insert]
  split
  · next heq => rw [← heq, h, Option.getD_some]
  · exact h

theorem get?_insert_cases {fresh : Symbol} (h : (t.insert name fresh).get? other = some symbol) :
    t.get? other = some symbol ∨ (other = name ∧ fresh = symbol) := by
  rw [get?_insert] at h
  split at h
  · next heq =>
    subst heq
    cases hget : t.get? other with
    | some old =>
      rw [hget, Option.getD_some] at h
      exact Or.inl h
    | none =>
      rw [hget, Option.getD_none, Option.some.injEq] at h
      exact Or.inr ⟨rfl, h⟩
  · exact Or.inl h

theorem lookup_known (h : t.get? name = some symbol) : t.lookup name = (some symbol, t) := by
  simp only [lookup, h]

theorem lookup_missing (h : t.get? name = none) (hi : t.import? name = none) :
    t.lookup name = (none, t) := by
  simp only [lookup, h, hi]

theorem lookup_import {i : Import} (h : t.get? name = none) (hi : t.import? name = some i) :
    t.lookup name = (some (.imported t.imports.size i.kind),
      { t.insert name (.imported t.imports.size i.kind) with imports := t.imports.push i }) := by
  simp only [lookup, h, hi]

theorem lookup_cases (t : NameTable) (name : String) :
    (∃ symbol, t.get? name = some symbol ∧ t.lookup name = (some symbol, t)) ∨
    (t.get? name = none ∧ t.import? name = none ∧ t.lookup name = (none, t)) ∨
    ∃ i, t.get? name = none ∧ t.import? name = some i ∧
      t.lookup name = (some (.imported t.imports.size i.kind),
        { t.insert name (.imported t.imports.size i.kind) with imports := t.imports.push i }) := by
  cases h : t.get? name with
  | some symbol => exact Or.inl ⟨symbol, rfl, lookup_known h⟩
  | none =>
    cases hi : t.import? name with
    | none => exact Or.inr (Or.inl ⟨rfl, rfl, lookup_missing h hi⟩)
    | some i => exact Or.inr (Or.inr ⟨i, rfl, rfl, lookup_import h hi⟩)

theorem import?_lookup (t : NameTable) (name other : String) :
    (t.lookup name).2.import? other = t.import? other := by
  rcases lookup_cases t name with ⟨_, -, h⟩ | ⟨-, -, h⟩ | ⟨_, -, -, h⟩
  · rw [h]
  · rw [h]
  · rw [h]
    rfl

theorem get?_lookup (t : NameTable) (name other : String) :
    (t.lookup name).2.get? other = if other = name then (t.lookup name).1 else t.get? other := by
  rcases lookup_cases t name with ⟨symbol, hget, h⟩ | ⟨hget, -, h⟩ | ⟨i, hget, -, h⟩
  · rw [h]
    split
    · subst other
      exact hget
    · rfl
  · rw [h]
    split
    · subst other
      exact hget
    · rfl
  · rw [h]
    show (t.insert name (.imported t.imports.size i.kind)).get? other = _
    rw [get?_insert, hget]
    rfl

theorem isSome_lookup (t : NameTable) (name : String) :
    (t.lookup name).1.isSome = ((t.get? name).isSome || (t.import? name).isSome) := by
  rcases lookup_cases t name with ⟨symbol, hget, h⟩ | ⟨hget, hi, h⟩ | ⟨i, hget, hi, h⟩
  · simp [h, hget]
  · simp [h, hget, hi]
  · simp [h, hget, hi]

/-- The table after look-ups of all the keys. -/
def lookupAll (t : NameTable) (keys : List String) : NameTable :=
  keys.foldl (fun t key => (t.lookup key).2) t

@[simp] theorem lookupAll_nil (t : NameTable) : t.lookupAll [] = t := rfl

@[simp] theorem lookupAll_cons (t : NameTable) (key : String) (keys : List String) :
    t.lookupAll (key :: keys) = (t.lookup key).2.lookupAll keys := rfl

theorem lookupAll_append (t : NameTable) (keys more : List String) :
    t.lookupAll (keys ++ more) = (t.lookupAll keys).lookupAll more :=
  List.foldl_append

theorem import?_lookupAll (t : NameTable) (keys : List String) (name : String) :
    (t.lookupAll keys).import? name = t.import? name := by
  induction keys generalizing t with
  | nil => rfl
  | cons key keys ih => rw [lookupAll_cons, ih, import?_lookup]

theorem isSome_get?_lookupAll (t : NameTable) (keys : List String) (name : String) :
    ((t.lookupAll keys).get? name).isSome =
      ((t.get? name).isSome || (keys.contains name && (t.import? name).isSome)) := by
  induction keys generalizing t with
  | nil => simp
  | cons key keys ih =>
    rw [lookupAll_cons, ih, get?_lookup, import?_lookup]
    by_cases h : name = key
    · subst h
      rw [if_pos rfl, isSome_lookup]
      cases (t.get? name).isSome <;> cases (t.import? name).isSome <;> simp
    · rw [if_neg h]
      have hk : (name == key) = false := by simpa using h
      rw [List.contains_cons, hk, Bool.false_or]

/-- One table comes from the other by look-ups. -/
def Grows (t t' : NameTable) : Prop := ∃ keys, t' = t.lookupAll keys

theorem Grows.refl (t : NameTable) : t.Grows t := ⟨[], rfl⟩

theorem Grows.trans (h : t.Grows t') (h' : t'.Grows t'') : t.Grows t'' := by
  obtain ⟨keys, rfl⟩ := h
  obtain ⟨more, rfl⟩ := h'
  exact ⟨keys ++ more, (lookupAll_append t keys more).symm⟩

theorem grows_lookup (t : NameTable) (name : String) : t.Grows (t.lookup name).2 := ⟨[name], rfl⟩

theorem grows_lookupAll (t : NameTable) (keys : List String) : t.Grows (t.lookupAll keys) :=
  ⟨keys, rfl⟩

theorem Grows.get? (h : t.Grows t') (hget : t.get? name = some symbol) :
    t'.get? name = some symbol := by
  obtain ⟨keys, rfl⟩ := h
  induction keys generalizing t with
  | nil => exact hget
  | cons key keys ih =>
    apply ih
    rw [get?_lookup]
    split
    · subst key
      rw [lookup_known hget]
    · exact hget

theorem Grows.answer (h : (t.lookup name).2.Grows t') : t'.get? name = (t.lookup name).1 := by
  have hget : (t.lookup name).2.get? name = (t.lookup name).1 := by
    rw [get?_lookup, if_pos rfl]
  cases hanswer : (t.lookup name).1 with
  | some symbol =>
    rw [hanswer] at hget
    exact h.get? hget
  | none =>
    rw [hanswer] at hget
    have himport : (t.import? name).isSome = false := by
      have hsome := isSome_lookup t name
      rw [hanswer] at hsome
      cases hi : (t.import? name).isSome
      · rfl
      · simp [hi] at hsome
    obtain ⟨keys, rfl⟩ := h
    have hnone := isSome_get?_lookupAll (t.lookup name).2 keys name
    rw [hget, import?_lookup, himport] at hnone
    simpa using hnone

theorem imports_lookup {i : ImportId} {imported : Import} (h : t.imports[i]? = some imported) :
    (t.lookup name).2.imports[i]? = some imported := by
  rcases lookup_cases t name with ⟨_, -, heq⟩ | ⟨-, -, heq⟩ | ⟨_, -, -, heq⟩
  · rw [heq]
    exact h
  · rw [heq]
    exact h
  · rw [heq]
    have hlt := (Array.getElem?_eq_some_iff.1 h).1
    show (t.imports.push _)[i]? = some imported
    rw [Array.getElem?_push, if_neg (Nat.ne_of_lt hlt)]
    exact h

theorem imports_lookupAll {i : ImportId} {imported : Import} (keys : List String)
    (h : t.imports[i]? = some imported) : (t.lookupAll keys).imports[i]? = some imported := by
  induction keys generalizing t with
  | nil => exact h
  | cons key keys ih => exact ih (imports_lookup h)

/-- The slot of the import that the table remembers under a name. -/
def Remembers (t : NameTable) (name : String) (symbol : Symbol) : Prop :=
  ∃ i imported, symbol = .imported i imported.kind ∧ t.imports[i]? = some imported ∧
    t.import? name = some imported

theorem entry_lookupAll (keys : List String) (h : (t.lookupAll keys).get? name = some symbol) :
    t.get? name = some symbol ∨
      (t.get? name = none ∧ (t.lookupAll keys).Remembers name symbol) := by
  induction keys generalizing t with
  | nil => exact Or.inl h
  | cons key keys ih =>
    rw [lookupAll_cons] at h ⊢
    rcases ih h with hnext | ⟨hnone, hnew⟩
    · rw [get?_lookup] at hnext
      by_cases hk : name = key
      · subst hk
        rw [if_pos rfl] at hnext
        rcases lookup_cases t name with ⟨_, hget, heq⟩ | ⟨-, -, heq⟩ | ⟨i, hget, hi, heq⟩
        · rw [heq] at hnext
          exact Or.inl (hget.trans hnext)
        · rw [heq] at hnext
          simp at hnext
        · rw [heq] at hnext ⊢
          refine Or.inr ⟨hget, t.imports.size, i, (Option.some.inj hnext).symm, ?_, ?_⟩
          · exact imports_lookupAll keys Array.getElem?_push_size
          · rw [import?_lookupAll]
            exact hi
      · rw [if_neg hk] at hnext
        exact Or.inl hnext
    · rw [get?_lookup] at hnone
      by_cases hk : name = key
      · subst hk
        rw [if_pos rfl] at hnone
        -- Nothing was found, so nothing is remembered.
        have hsome := isSome_lookup t name
        obtain ⟨i, imported, -, -, himport⟩ := hnew
        rw [import?_lookupAll, import?_lookup] at himport
        rw [hnone, himport] at hsome
        simp at hsome
      · rw [if_neg hk] at hnone
        exact Or.inr ⟨hnone, hnew⟩

theorem import?_registrationToken (t : NameTable) : (t.import? registrationToken).isSome := by
  unfold import?
  rw [Option.isSome_or]
  have h : (builtins.find? fun i => i.name == registrationToken).isSome = true := by decide
  rw [h, Bool.or_true]

end ComponentIdl.NameTable
