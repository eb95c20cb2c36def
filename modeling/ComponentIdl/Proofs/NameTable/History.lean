import ComponentIdl.Proofs.NameTable

/-!
# The name table over any history

Insertions and look-ups may come in any order and number. An entry, once there, answers every later
call; a symbol of an import is the entry of that import's name, and of no other. So an import has one
slot, however often it is looked up.
-/

namespace ComponentIdl

/-- Whether a symbol is that of a declaration, not of an import. -/
def Symbol.isLocal : Symbol → Bool
  | .imported _ _ => false
  | _ => true

namespace NameTable

/-- One table comes from the other by insertions and look-ups. -/
inductive Evolves (t : NameTable) : NameTable → Prop where
  | refl : Evolves t t
  | insert {t' : NameTable} (h : Evolves t t') (name : String) (symbol : Symbol) :
      Evolves t (t'.insert name symbol)
  | lookup {t' : NameTable} (h : Evolves t t') (name : String) : Evolves t (t'.lookup name).2

/-- Every import is what the table has under its name. -/
def Listed (t : NameTable) : Prop :=
  ∀ id i, t.imports[id]? = some i → t.get? i.name = some (.imported id i.kind)

variable {t t' t'' : NameTable} {name : String} {i : Import}

theorem Evolves.trans (h : t.Evolves t') (h' : t'.Evolves t'') : t.Evolves t'' := by
  induction h' with
  | refl => exact h
  | insert _ name symbol ih => exact ih.insert name symbol
  | lookup _ name ih => exact ih.lookup name

theorem evolves_lookupAll (t : NameTable) (keys : List String) : t.Evolves (t.lookupAll keys) := by
  induction keys generalizing t with
  | nil => exact .refl
  | cons key keys ih => exact (Evolves.refl.lookup key).trans (ih _)

theorem catalog_lookup (t : NameTable) (name : String) :
    (t.lookup name).2.catalog = t.catalog := by
  rcases lookup_cases t name with ⟨_, -, h⟩ | ⟨-, -, h⟩ | ⟨_, -, -, h⟩ <;> rw [h]
  rfl

theorem Evolves.catalog (h : t.Evolves t') : t'.catalog = t.catalog := by
  induction h with
  | refl => rfl
  | insert _ name symbol ih => exact ih
  | lookup _ name ih => rw [catalog_lookup, ih]

theorem name_import? (h : t.import? name = some i) : i.name = name := by
  unfold import? at h
  rcases Option.or_eq_some_iff.1 h with h | ⟨-, h⟩
  · have hname := List.find?_some h
    exact beq_iff_eq.1 hname
  · have hname := List.find?_some h
    exact beq_iff_eq.1 hname

theorem Listed.lookup (h : t.Listed) (name : String) : (t.lookup name).2.Listed := by
  intro id i hi
  have hgrows := t.grows_lookup name
  rcases lookup_cases t name with ⟨_, -, heq⟩ | ⟨-, -, heq⟩ | ⟨new, hget, hnew, heq⟩
  · rw [heq] at hi ⊢
    exact h id i hi
  · rw [heq] at hi ⊢
    exact h id i hi
  · rw [heq] at hi
    replace hi : (t.imports.push new)[id]? = some i := hi
    rw [Array.getElem?_push] at hi
    split at hi
    · next hid =>
      obtain rfl := Option.some.inj hi
      rw [name_import? hnew, get?_lookup, if_pos rfl, heq, hid]
    · exact hgrows.get? (h id i hi)

theorem Listed.evolves (h : t.Listed) (he : t.Evolves t') : t'.Listed := by
  induction he with
  | refl => exact h
  | insert _ name symbol ih => exact fun id i hi => get?_insert_old (ih id i hi) name symbol
  | lookup _ name ih => exact ih.lookup name

theorem listed_ofCatalog (catalog : Catalog) : (ofCatalog catalog).Listed := by
  intro id i hi
  simp [ofCatalog] at hi

theorem Evolves.get? {symbol : Symbol} (h : t.Evolves t') (hget : t.get? name = some symbol) :
    t'.get? name = some symbol := by
  induction h with
  | refl => exact hget
  | insert _ other fresh ih => exact get?_insert_old ih other fresh
  | lookup _ other ih => exact (grows_lookup _ other).get? ih

theorem tryInsert_known {symbol : Symbol} (h : t.get? name = some symbol) (other : Symbol) :
    t.tryInsert name other = (false, t) := by
  have hcontains : t.contains name = true := by
    rw [contains, NameMap.contains]
    exact Option.isSome_of_eq_some h
  have hinsert : t.symbols.insertNew name other = t.symbols := by
    unfold NameMap.insertNew
    rw [dif_neg]
    exact fun hnone => absurd (h.symm.trans hnone) (by simp)
  rw [tryInsert, insert, hcontains, hinsert]
  rfl

theorem lookup_eq_none (h : (t.lookup name).1 = none) : (t.lookup name).2 = t := by
  rcases lookup_cases t name with ⟨symbol, -, heq⟩ | ⟨-, -, heq⟩ | ⟨i, -, -, heq⟩
  · exact absurd (heq ▸ h) (by simp)
  · rw [heq]
  · exact absurd (heq ▸ h) (by simp)

/-- Every symbol of an import is the entry of that import's name. -/
def Numbered (t : NameTable) : Prop :=
  ∀ name id kind, t.get? name = some (.imported id kind) →
    ∃ i, t.imports[id]? = some i ∧ i.name = name ∧ i.kind = kind

theorem numbered_ofCatalog (catalog : Catalog) : (ofCatalog catalog).Numbered := by
  intro name id kind h
  exact absurd h (by simp [ofCatalog, NameTable.get?, NameMap.get?])

theorem Numbered.insert {symbol : Symbol} (h : t.Numbered) (hlocal : symbol.isLocal = true)
    (name : String) : (t.insert name symbol).Numbered := by
  intro other id kind hget
  rcases get?_insert_cases hget with hold | ⟨-, rfl⟩
  · exact h other id kind hold
  · exact absurd hlocal Bool.false_ne_true

theorem Numbered.lookup (h : t.Numbered) (name : String) : (t.lookup name).2.Numbered := by
  intro other id kind hget
  rcases lookup_cases t name with ⟨_, -, heq⟩ | ⟨-, -, heq⟩ | ⟨new, -, hnew, heq⟩
  · rw [heq] at hget ⊢
    exact h other id kind hget
  · rw [heq] at hget ⊢
    exact h other id kind hget
  · rw [heq] at hget ⊢
    rcases get?_insert_cases (t := t) hget with hold | ⟨rfl, hsymbol⟩
    · obtain ⟨i, hi, hrest⟩ := h other id kind hold
      refine ⟨i, ?_, hrest⟩
      have hlt := (Array.getElem?_eq_some_iff.1 hi).1
      rw [Array.getElem?_push, if_neg (Nat.ne_of_lt hlt), hi]
    · obtain ⟨rfl, rfl⟩ := Symbol.imported.inj hsymbol
      exact ⟨new, Array.getElem?_push_size, name_import? hnew, rfl⟩

/-- A call that may change a table. -/
inductive Call where
  | insert (name : String) (symbol : Symbol)
  | lookup (name : String)

/-- Whether a call gives no name the symbol of an import. -/
def Call.isLocal : Call → Bool
  | .insert _ symbol => symbol.isLocal
  | .lookup _ => true

/-- The table after a call. -/
def call (t : NameTable) : Call → NameTable
  | .insert name symbol => (t.tryInsert name symbol).2
  | .lookup name => (t.lookup name).2

def run (t : NameTable) (calls : List Call) : NameTable := calls.foldl call t

theorem evolves_run (t : NameTable) (calls : List Call) : t.Evolves (t.run calls) := by
  induction calls generalizing t with
  | nil => exact .refl
  | cons c calls ih =>
    refine Evolves.trans ?_ (ih (t.call c))
    cases c with
    | insert name symbol => exact .insert .refl name symbol
    | lookup name => exact .lookup .refl name

theorem Numbered.run {calls : List Call} (h : t.Numbered)
    (hlocal : ∀ c ∈ calls, c.isLocal = true) : (t.run calls).Numbered := by
  induction calls generalizing t with
  | nil => exact h
  | cons c calls ih =>
    obtain ⟨hc, hcalls⟩ := List.forall_mem_cons.1 hlocal
    refine ih (t := t.call c) ?_ hcalls
    cases c with
    | insert name symbol => exact h.insert hc name
    | lookup name => exact h.lookup name

theorem entry_call {c : Call} {symbol : Symbol} (h : (t.call c).get? name = some symbol) :
    t.get? name = some symbol ∨ c = .insert name symbol ∨ symbol.isLocal = false := by
  cases c with
  | insert other fresh =>
    rcases get?_insert_cases (t := t) h with hold | ⟨rfl, rfl⟩
    · exact Or.inl hold
    · exact Or.inr (Or.inl rfl)
  | lookup other =>
    rcases lookup_cases t other with ⟨_, -, heq⟩ | ⟨-, -, heq⟩ | ⟨i, -, -, heq⟩
    · rw [call, heq] at h
      exact Or.inl h
    · rw [call, heq] at h
      exact Or.inl h
    · rw [call, heq] at h
      rcases get?_insert_cases (t := t) h with hold | ⟨-, rfl⟩
      · exact Or.inl hold
      · exact Or.inr (Or.inr rfl)

/-- An entry was there before, or a call inserted it, or it is an import. -/
theorem entry_run {calls : List Call} {symbol : Symbol}
    (h : (t.run calls).get? name = some symbol) :
    t.get? name = some symbol ∨ .insert name symbol ∈ calls ∨ symbol.isLocal = false := by
  induction calls generalizing t with
  | nil => exact Or.inl h
  | cons c calls ih =>
    rcases ih (t := t.call c) h with hnext | hmem | himport
    · rcases entry_call hnext with hold | rfl | himport
      · exact Or.inl hold
      · exact Or.inr (Or.inl List.mem_cons_self)
      · exact Or.inr (Or.inr himport)
    · exact Or.inr (Or.inl (List.mem_cons_of_mem c hmem))
    · exact Or.inr (Or.inr himport)

/-- What holds of a table after calls, and of every table after more calls. -/
structure Coherent (t : NameTable) (calls : List Call) : Prop where
  /-- An entry is never replaced: inserting its name is refused, looking it up finds it. -/
  kept : ∀ name symbol, t.get? name = some symbol → ∀ more : List Call,
    (∀ other, (t.run more).tryInsert name other = (false, t.run more)) ∧
      (t.run more).lookup name = (some symbol, t.run more) ∧
      (t.run more).get? name = some symbol
  /-- The entries for imports and the slots of imports are the same pairs of name and number. -/
  imported : ∀ name id kind, t.get? name = some (.imported id kind) ↔
    ∃ i, t.imports[id]? = some i ∧ i.name = name ∧ i.kind = kind
  once : (t.imports.toList.map Import.name).Nodup
  missed : ∀ name, (t.lookup name).1 = none → (t.lookup name).2 = t
  /-- What a look-up answers is remembered, and a name that is inserted has an entry. -/
  entered : ∀ name, (t.lookup name).2.get? name = (t.lookup name).1 ∧
    ∀ symbol, (t.tryInsert name symbol).2.get? name = some ((t.get? name).getD symbol)
  /-- If no symbol was inserted under two names, none has two names. -/
  apart : (∀ name name' symbol, .insert name symbol ∈ calls → .insert name' symbol ∈ calls →
      name = name') →
    ∀ name name' symbol, t.get? name = some symbol → t.get? name' = some symbol → name = name'

theorem Numbered.imported (h : t.Numbered) (hlisted : t.Listed) (name : String) (id : ImportId)
    (kind : ImportKind) : t.get? name = some (.imported id kind) ↔
      ∃ i, t.imports[id]? = some i ∧ i.name = name ∧ i.kind = kind := by
  constructor
  · exact h name id kind
  · rintro ⟨i, hi, rfl, rfl⟩
    exact hlisted id i hi

theorem Listed.nodup_imports (h : t.Listed) : (t.imports.toList.map Import.name).Nodup := by
  rw [List.Nodup, List.pairwise_map, List.pairwise_iff_getElem]
  intro a b ha hb hab heq
  -- Imports of one name are the entry of that name, which has one number.
  have hfirst := h a t.imports.toList[a] (by simp)
  have hsecond := h b t.imports.toList[b] (by simp)
  rw [heq, hsecond, Option.some.injEq, Symbol.imported.injEq] at hfirst
  exact absurd hfirst.1 (Nat.ne_of_gt hab)

/-- Whatever is inserted for declarations and looked up, in whatever order. -/
theorem run_coherent (catalog : Catalog) (calls : List Call)
    (hlocal : ∀ c ∈ calls, c.isLocal = true) :
    ((ofCatalog catalog).run calls).Coherent calls := by
  have hlisted := (listed_ofCatalog catalog).evolves (evolves_run _ calls)
  have hnumbered := (numbered_ofCatalog catalog).run hlocal
  refine ⟨?_, hnumbered.imported hlisted, hlisted.nodup_imports, fun _ => lookup_eq_none, ?_, ?_⟩
  · intro name symbol hget more
    have hlater := (evolves_run _ more).get? hget
    exact ⟨tryInsert_known hlater, lookup_known hlater, hlater⟩
  · intro name
    refine ⟨?_, fun symbol => ?_⟩
    · rw [get?_lookup, if_pos rfl]
    · rw [tryInsert, get?_insert, if_pos rfl]
  · intro hapart name name' symbol hget hget'
    have hentry : ∀ key, ((ofCatalog catalog).run calls).get? key = some symbol →
        .insert key symbol ∈ calls ∨ symbol.isLocal = false := by
      intro key hkey
      refine (entry_run hkey).resolve_left ?_
      simp [ofCatalog, NameTable.get?, NameMap.get?]
    cases symbol with
    | imported id kind =>
      obtain ⟨i, hi, rfl, -⟩ := hnumbered name id kind hget
      obtain ⟨i', hi', rfl, -⟩ := hnumbered name' id kind hget'
      rw [Option.some.inj (hi.symm.trans hi')]
    | _ =>
      have hfirst := (hentry name hget).resolve_right (by simp [Symbol.isLocal])
      have hsecond := (hentry name' hget').resolve_right (by simp [Symbol.isLocal])
      exact hapart name name' _ hfirst hsecond

def buoys : Catalog := .ofList [⟨"Sea.Buoy", .interface, none, "chart"⟩]

/-- An import is looked up, and then a declaration of its name comes too late. -/
def soundings : List Call :=
  [.insert "Sea.Boat" (.struct 0), .lookup "Sea.Buoy", .insert "Sea.Buoy" (.interface 3),
    .lookup "Sea.Rock", .lookup "Sea.Buoy"]

theorem run_coherent_soundings :
    (∀ c ∈ soundings, c.isLocal = true) ∧
      ((ofCatalog buoys).run soundings).symbols.entries =
        [("Sea.Boat", .struct 0), ("Sea.Buoy", .imported 0 .interface)] ∧
      ((ofCatalog buoys).run soundings).imports = #[⟨"Sea.Buoy", .interface, none, "chart"⟩] ∧
      ((ofCatalog buoys).run soundings).Coherent soundings :=
  ⟨by decide, by decide, by decide, run_coherent buoys soundings (by decide)⟩

end NameTable

end ComponentIdl
