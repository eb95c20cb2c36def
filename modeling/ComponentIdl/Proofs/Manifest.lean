import ComponentIdl.Import.Manifest
import ComponentIdl.Proofs.Lists
import ComponentIdl.Proofs.Text

/-!
# The lines of a manifest

Each line of a manifest says nothing, is an entry, or is at fault. A manifest is read if no line is at
fault, and its entries are those of its lines, in order; otherwise the first line at fault is the error.
-/

namespace ComponentIdl

/-- The keyword stands for the kind. -/
def ImportKind.IsKeyword (keyword : String) (kind : ImportKind) : Prop :=
  keyword = kind.keyword ∨ keyword = "runtimeclass" ∧ kind = .runtimeClass

theorem ImportKind.ofKeyword?_eq_some_iff {keyword : String} {kind : ImportKind} :
    ofKeyword? keyword = some kind ↔ IsKeyword keyword kind := by
  constructor
  · intro h
    unfold ofKeyword? at h
    split at h <;> cases h
    case h_2 => exact Or.inr ⟨rfl, rfl⟩
    all_goals exact Or.inl rfl
  · rintro (rfl | ⟨rfl, rfl⟩)
    · cases kind <;> rfl
    · rfl

namespace Manifest

/-- The line has nothing but blanks, or a comment sign after its blanks. -/
def Silent (line : String) : Prop :=
  ∃ gap rest, line.toList = gap ++ rest ∧ (∀ c ∈ gap, Text.isBlank c = true) ∧
    (rest = [] ∨ rest.head? = some '#')

/-- The line is an entry: a category and a name, and for an enum possibly the type under it. More columns
may follow the third. -/
inductive IsEntry (source line : String) : Import → Prop where
  | plain {keyword name : String} {kind : ImportKind} (hcolumns : Text.IsColumns line [keyword, name])
      (hkind : ImportKind.IsKeyword keyword kind) : IsEntry source line ⟨name, kind, none, source⟩
  | based {keyword name text : String} {more : List String} {base : IntegerType}
      (hcolumns : Text.IsColumns line (keyword :: name :: text :: more))
      (hkind : ImportKind.IsKeyword keyword .enum) (hbase : underlying? text = some base) :
      IsEntry source line ⟨name, .enum, some base, source⟩

/-- The line is at fault. A missing name counts before an unknown category, and this before a third
column that may not stand there or names no integer type. -/
inductive IsFault (source line : String) (number : Nat) : SourceError → Prop where
  | missingName {keyword : String} (hcolumns : Text.IsColumns line [keyword]) :
      IsFault source line number (.malformed source number .missingName)
  | unknownCategory {keyword name : String} {more : List String}
      (hcolumns : Text.IsColumns line (keyword :: name :: more))
      (hkind : ∀ kind, ¬ ImportKind.IsKeyword keyword kind) :
      IsFault source line number (.unknownCategory source keyword)
  | badUnderlying {keyword name text : String} {more : List String} {kind : ImportKind}
      (hcolumns : Text.IsColumns line (keyword :: name :: text :: more))
      (hkind : ImportKind.IsKeyword keyword kind) (hbase : kind = .enum → underlying? text = none) :
      IsFault source line number (.malformed source number (.badUnderlying text))

variable {source line : String} {number : Nat} {t : Import} {e : SourceError} {ls : List String}

theorem isSilent_iff : isSilent line = true ↔ Silent line := by
  have hstrip : (Text.trim line).toList = Text.strip Text.isBlank line.toList := String.toList_ofList
  unfold isSilent
  rw [hstrip]
  constructor
  · intro h
    obtain ⟨before, after, hbefore, hafter, hline⟩ := Text.exists_around_strip Text.isBlank line.toList
    split at h
    · next hnil =>
      rw [hnil, List.append_nil] at hline
      refine ⟨before ++ after, [], by rw [hline, List.append_nil], ?_, Or.inl rfl⟩
      exact fun c hc => (List.mem_append.1 hc).elim (hbefore c) (hafter c)
    · next c cs hcons =>
      obtain rfl : c = '#' := beq_iff_eq.1 h
      rw [hcons, List.append_assoc] at hline
      exact ⟨before, _, hline, hbefore, Or.inr rfl⟩
  · rintro ⟨gap, rest, hline, hgap, rfl | hsign⟩
    · rw [hline, List.append_nil, Text.strip_eq_nil hgap]
    · obtain ⟨rest, rfl⟩ := List.head?_eq_some_iff.1 hsign
      have hhead : (Text.strip Text.isBlank line.toList).head? = some '#' := by
        rw [hline]
        exact Text.head?_strip hgap rfl
      obtain ⟨cs, hcs⟩ := List.head?_eq_some_iff.1 hhead
      rw [hcs]
      rfl

instance (line : String) : Decidable (Silent line) := decidable_of_iff _ isSilent_iff

theorem silent_of_no_columns (h : Text.columns line = []) : Silent line := by
  have hspaced : Text.Spaced Text.isBlank line.toList [] := Text.isColumns_iff.2 h
  exact ⟨line.toList, [], (List.append_nil _).symm, hspaced.all_sep, Or.inl rfl⟩

theorem IsEntry.entry (h : IsEntry source line t) (number : Nat) :
    entry source number (Text.columns line) = .ok t := by
  cases h with
  | plain hcolumns hkind =>
    rw [Text.isColumns_iff.1 hcolumns, Manifest.entry, ImportKind.ofKeyword?_eq_some_iff.2 hkind]
  | based hcolumns hkind hbase =>
    rw [Text.isColumns_iff.1 hcolumns, Manifest.entry, ImportKind.ofKeyword?_eq_some_iff.2 hkind]
    simp only [if_true, hbase]

theorem IsFault.entry (h : IsFault source line number e) :
    entry source number (Text.columns line) = .error e := by
  cases h with
  | missingName hcolumns => rw [Text.isColumns_iff.1 hcolumns, Manifest.entry]; exact nofun
  | unknownCategory hcolumns hkind =>
    have hnone : ImportKind.ofKeyword? _ = none :=
      Option.eq_none_iff_forall_not_mem.2 fun kind h => hkind kind (ImportKind.ofKeyword?_eq_some_iff.1 h)
    rw [Text.isColumns_iff.1 hcolumns, Manifest.entry, hnone]
  | @badUnderlying keyword name text more kind hcolumns hkind hbase =>
    have hnone : (if kind = .enum then underlying? text else none) = none := by
      by_cases henum : kind = .enum
      · rw [if_pos henum, hbase henum]
      · rw [if_neg henum]
    rw [Text.isColumns_iff.1 hcolumns, Manifest.entry, ImportKind.ofKeyword?_eq_some_iff.2 hkind]
    simp only [hnone]

theorem isEntry_or_isFault (source : String) (number : Nat) (h : ¬ Silent line) :
    (∃ t, IsEntry source line t) ∨ ∃ e, IsFault source line number e := by
  cases hcolumns : Text.columns line with
  | nil => exact absurd (silent_of_no_columns hcolumns) h
  | cons keyword rest =>
    cases rest with
    | nil => exact Or.inr ⟨_, .missingName (Text.isColumns_iff.2 hcolumns)⟩
    | cons name more =>
      replace hcolumns := Text.isColumns_iff.2 hcolumns
      by_cases hknown : ∃ kind, ImportKind.IsKeyword keyword kind
      · obtain ⟨kind, hkind⟩ := hknown
        cases more with
        | nil => exact Or.inl ⟨_, .plain hcolumns hkind⟩
        | cons text more =>
          by_cases hbase : kind = .enum → underlying? text = none
          · exact Or.inr ⟨_, .badUnderlying hcolumns hkind hbase⟩
          · obtain ⟨rfl, hsome⟩ := Classical.not_imp.1 hbase
            obtain ⟨base, hbase⟩ := Option.ne_none_iff_exists'.1 hsome
            exact Or.inl ⟨_, .based hcolumns hkind hbase⟩
      · exact Or.inr ⟨_, .unknownCategory hcolumns (not_exists.1 hknown)⟩

theorem not_isFault_of_isEntry (h : IsEntry source line t) : ¬ IsFault source line number e :=
  fun he => nomatch (h.entry number).symm.trans he.entry

theorem entries_silent (source : String) (number : Nat) (ls : List String) (h : Silent line) :
    entries source number (line :: ls) = entries source (number + 1) ls := by
  rw [entries, if_pos (isSilent_iff.2 h)]

theorem entries_entry (number : Nat) (ls : List String) (h : ¬ Silent line) (ht : IsEntry source line t) :
    entries source number (line :: ls) = (entries source (number + 1) ls).map (t :: ·) := by
  rw [entries, if_neg (mt isSilent_iff.1 h), ht.entry]
  cases entries source (number + 1) ls <;> rfl

theorem entries_fault (ls : List String) (h : ¬ Silent line) (he : IsFault source line number e) :
    entries source number (line :: ls) = .error e := by
  rw [entries, if_neg (mt isSilent_iff.1 h), he.entry]

theorem entries_eq_ok_iff {types : List Import} :
    entries source number ls = .ok types ↔
      List.Forall₂ (IsEntry source) (ls.filter fun line => ¬ Silent line) types := by
  induction ls generalizing number types with
  | nil =>
    rw [entries, List.filter_nil, List.forall₂_nil_left_iff, Except.ok.injEq, eq_comm]
  | cons line ls ih =>
    by_cases hsilent : Silent line
    · rw [entries_silent source number ls hsilent, List.filter_cons_of_neg (by simpa using hsilent), ih]
    · rw [List.filter_cons_of_pos (by simpa using hsilent), List.forall₂_cons_left_iff]
      rcases isEntry_or_isFault source number hsilent with ⟨t, ht⟩ | ⟨e, he⟩
      · rw [entries_entry number ls hsilent ht]
        constructor
        · intro h
          cases hrest : entries source (number + 1) ls with
          | error e => exact nomatch hrest ▸ h
          | ok others =>
            rw [hrest] at h
            exact ⟨t, others, ht, ih.1 hrest, (Except.ok.inj h).symm⟩
        · rintro ⟨t', others, ht', hothers, rfl⟩
          obtain rfl : t = t' := Except.ok.inj ((ht.entry number).symm.trans (ht'.entry number))
          rw [ih.2 hothers]
          rfl
      · rw [entries_fault ls hsilent he]
        constructor
        · exact nofun
        · rintro ⟨t, -, ht, -⟩
          exact absurd he (not_isFault_of_isEntry ht)

/-- The line says nothing or is an entry. -/
def Readable (source line : String) : Prop := Silent line ∨ ∃ t, IsEntry source line t

theorem entries_readable (number : Nat) (h : Readable source line) :
    entries source number (line :: ls) = .error e ↔ entries source (number + 1) ls = .error e := by
  by_cases hsilent : Silent line
  · rw [entries_silent source number ls hsilent]
  · obtain ⟨t, ht⟩ := h.resolve_left hsilent
    rw [entries_entry number ls hsilent ht]
    cases entries source (number + 1) ls with
    | error e => exact Iff.rfl
    | ok types => exact ⟨nofun, nofun⟩

theorem readable_or_isFault (source line : String) (number : Nat) :
    Readable source line ∨ ¬ Silent line ∧ ∃ e, IsFault source line number e := by
  by_cases hsilent : Silent line
  · exact Or.inl (Or.inl hsilent)
  · exact (isEntry_or_isFault source number hsilent).imp Or.inr fun he => ⟨hsilent, he⟩

/-- The error is that of the first line at fault, and the lines before it count for its number. -/
theorem entries_eq_error_iff :
    entries source number ls = .error e ↔ ∃ before line after, ls = before ++ line :: after ∧
      (∀ l ∈ before, Readable source l) ∧ ¬ Silent line ∧
      IsFault source line (number + before.length) e := by
  induction ls generalizing number with
  | nil => simp [entries]
  | cons first ls ih =>
    constructor
    · intro h
      rcases readable_or_isFault source first number with hfirst | ⟨hsilent, e', he'⟩
      · obtain ⟨before, line, after, rfl, hbefore, hsilent, hfault⟩ :=
          ih.1 ((entries_readable number hfirst).1 h)
        refine ⟨first :: before, line, after, rfl, List.forall_mem_cons.2 ⟨hfirst, hbefore⟩, hsilent, ?_⟩
        rwa [List.length_cons, Nat.add_comm before.length, ← Nat.add_assoc]
      · rw [entries_fault ls hsilent he'] at h
        obtain rfl := Except.error.inj h
        exact ⟨[], first, ls, rfl, nofun, hsilent, he'⟩
    · rintro ⟨before, line, after, heq, hbefore, hsilent, hfault⟩
      cases before with
      | nil =>
        obtain ⟨rfl, rfl⟩ := List.cons.inj heq
        exact entries_fault _ hsilent hfault
      | cons b before =>
        obtain ⟨rfl, rfl⟩ := List.cons.inj heq
        obtain ⟨hfirst, hbefore⟩ := List.forall_mem_cons.1 hbefore
        refine (entries_readable number hfirst).2 (ih.2 ⟨before, line, after, rfl, hbefore, hsilent, ?_⟩)
        rwa [Nat.add_assoc, Nat.add_comm 1]

theorem exists_entries_iff :
    (∃ types, entries source number ls = .ok types) ↔ ∀ line ∈ ls, Readable source line := by
  simp only [entries_eq_ok_iff, exists_forall₂_iff, List.mem_filter, decide_eq_true_eq, and_imp, Readable,
    or_iff_not_imp_left]

/-- A manifest is cut into lines in one way. It is read exactly if each of its lines says nothing or is an
entry, and gives the entries of the lines that say something, in order. Otherwise the error is that of the
first line at fault, which is numbered from one. -/
theorem parse_exact (source text : String) :
    ∃ ls, (∀ other, Text.IsLines text other ↔ ls = other) ∧
      ((∃ types, parse source text = .ok types) ↔ ∀ line ∈ ls, Readable source line) ∧
      (∀ types, parse source text = .ok types ↔
        List.Forall₂ (IsEntry source) (ls.filter fun line => ¬ Silent line) types) ∧
      ∀ e, parse source text = .error e ↔ ∃ before line after, ls = before ++ line :: after ∧
        (∀ l ∈ before, Readable source l) ∧ ¬ Silent line ∧
        IsFault source line (before.length + 1) e := by
  refine ⟨Text.lines text, fun _ => Text.isLines_iff, exists_entries_iff,
    fun _ => entries_eq_ok_iff, fun e => entries_eq_error_iff.trans ?_⟩
  simp only [Nat.add_comm 1]

end Manifest

end ComponentIdl
