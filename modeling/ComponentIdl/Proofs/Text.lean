import Mathlib.Data.List.DropRight
import Mathlib.Data.List.TakeWhile
import ComponentIdl.Text.Blank

/-!
# Lines, columns and margins of a text

How a text is cut, said without cutting it: a line stands before a line feed, with a carriage return or
without one; a word is a run of letters with separators around it; blanks around a text are its margins.
The functions that cut find exactly the lines and words that the text is made of.
-/

namespace ComponentIdl.Text

variable {sep drop : Char → Bool} {c : Char} {cs rest line : List Char} {ws ls : List (List Char)}

section Margins

variable {before core after : List Char}

theorem dropWhile_append_of_kept (hbefore : ∀ c ∈ before, drop c = true)
    (hcore : ∀ c ∈ core.head?, drop c = false) : (before ++ core).dropWhile drop = core := by
  rw [List.dropWhile_append_of_pos hbefore]
  cases core with
  | nil => rfl
  | cons c cs => exact List.dropWhile_cons_of_neg (by simp [hcore c rfl])

theorem strip_eq_nil (h : ∀ c ∈ cs, drop c = true) : strip drop cs = [] := by
  unfold strip
  rw [List.dropWhile_eq_nil_iff.2 h]
  rfl

theorem strip_between (hbefore : ∀ c ∈ before, drop c = true) (hafter : ∀ c ∈ after, drop c = true)
    (hcore : ∀ c ∈ core, drop c = false) : strip drop (before ++ core ++ after) = core := by
  by_cases hempty : core = []
  · subst hempty
    apply strip_eq_nil
    intro c hc
    rw [List.append_nil, List.mem_append] at hc
    exact hc.elim (hbefore c) (hafter c)
  · have hfirst : ∀ c ∈ (core ++ after).head?, drop c = false := by
      intro c hc
      rw [List.head?_append_of_ne_nil _ hempty] at hc
      exact hcore c (List.mem_of_mem_head? hc)
    have hlast : ∀ c ∈ core.reverse.head?, drop c = false := fun c hc =>
      hcore c (List.mem_reverse.1 (List.mem_of_mem_head? hc))
    unfold strip
    rw [List.append_assoc, dropWhile_append_of_kept hbefore hfirst, List.reverse_append,
      dropWhile_append_of_kept (fun c hc => hafter c (List.mem_reverse.1 hc)) hlast,
      List.reverse_reverse]

theorem exists_around_strip (drop : Char → Bool) (cs : List Char) :
    ∃ before after, (∀ c ∈ before, drop c = true) ∧ (∀ c ∈ after, drop c = true) ∧
      cs = before ++ strip drop cs ++ after := by
  refine ⟨cs.takeWhile drop, ((cs.dropWhile drop).reverse.takeWhile drop).reverse, ?_, ?_, ?_⟩
  · exact fun c => List.mem_takeWhile_imp
  · exact fun c hc => List.mem_takeWhile_imp (List.mem_reverse.1 hc)
  · unfold strip
    rw [List.append_assoc, ← List.reverse_append, List.takeWhile_append_dropWhile,
      List.reverse_reverse, List.takeWhile_append_dropWhile]

/-- What follows the left margin decides how the stripped text begins. -/
theorem head?_strip (hbefore : ∀ c ∈ before, drop c = true) (hc : drop c = false) :
    (strip drop (before ++ c :: cs)).head? = some c := by
  have hdrop : (before ++ c :: cs).dropWhile drop = c :: cs :=
    dropWhile_append_of_kept hbefore (by simp [hc])
  show (List.rdropWhile drop ((before ++ c :: cs).dropWhile drop)).head? = some c
  rw [hdrop]
  have hne : List.rdropWhile drop (c :: cs) ≠ [] := by
    intro hnil
    exact absurd (List.rdropWhile_eq_nil_iff.1 hnil c List.mem_cons_self) (by simp [hc])
  obtain ⟨d, ds, hkept⟩ := List.exists_cons_of_ne_nil hne
  have hprefix := List.rdropWhile_prefix (p := drop) (l := c :: cs)
  rw [hkept] at hprefix ⊢
  rw [(List.cons_prefix_cons.1 hprefix).1]
  rfl

end Margins

theorem mem_pieces {w : List Char} (h : w ∈ pieces sep cs) : ∀ c ∈ w, sep c = false := by
  induction cs generalizing w with
  | nil =>
    rw [pieces, List.mem_singleton] at h
    simp [h]
  | cons d cs ih =>
    rw [pieces] at h
    split at h
    · rcases List.mem_cons.1 h with rfl | h
      · simp
      · exact ih h
    · next hd =>
      have hd' : sep d = false := by simpa using hd
      split at h
      · rw [List.mem_singleton] at h
        simp [h, hd']
      · next v ws hpieces =>
        rcases List.mem_cons.1 h with rfl | h
        · intro c hc
          rcases List.mem_cons.1 hc with rfl | hc
          · exact hd'
          · exact ih (by rw [hpieces]; exact List.mem_cons_self) c hc
        · exact ih (by rw [hpieces]; exact List.mem_cons_of_mem _ h)

theorem words_of_clean (h : ∀ c ∈ cs, sep c = false) (hne : cs ≠ []) : words sep cs = [cs] := by
  rw [words, pieces_of_clean sep cs h]
  simp [hne]

theorem words_cons_sep (cs : List Char) (hc : sep c = true) : words sep (c :: cs) = words sep cs :=
  words_append sep [] c cs hc

/-- The text is made of separators and the words, with separators between any two words. -/
inductive Spaced (sep : Char → Bool) : List Char → List (List Char) → Prop where
  | gap {gap : List Char} (hgap : ∀ c ∈ gap, sep c = true) : Spaced sep gap []
  | word {gap word rest : List Char} {ws : List (List Char)} (hgap : ∀ c ∈ gap, sep c = true)
      (hne : word ≠ []) (hword : ∀ c ∈ word, sep c = false) (hnext : ∀ c ∈ rest.head?, sep c = true)
      (h : Spaced sep rest ws) : Spaced sep (gap ++ word ++ rest) (word :: ws)

theorem words_gap {gap : List Char} (hgap : ∀ c ∈ gap, sep c = true) (cs : List Char) :
    words sep (gap ++ cs) = words sep cs := by
  induction gap with
  | nil => rfl
  | cons c gap ih =>
    rw [List.cons_append, words_cons_sep _ (hgap c List.mem_cons_self),
      ih fun d hd => hgap d (List.mem_cons_of_mem _ hd)]

theorem words_word {word : List Char} (hne : word ≠ []) (hword : ∀ c ∈ word, sep c = false)
    (hnext : ∀ c ∈ rest.head?, sep c = true) : words sep (word ++ rest) = word :: words sep rest := by
  cases rest with
  | nil =>
    rw [List.append_nil, words_of_clean hword hne]
    rfl
  | cons s rest =>
    have hs : sep s = true := hnext s rfl
    rw [words_append sep word s rest hs, words_of_clean hword hne, words_cons_sep rest hs,
      List.singleton_append]

theorem Spaced.words_eq (h : Spaced sep cs ws) : words sep cs = ws := by
  induction h with
  | @gap gap hgap =>
    rw [← List.append_nil gap, words_gap hgap]
    rfl
  | word hgap hne hword hnext _ ih =>
    rw [List.append_assoc, words_gap hgap, words_word hne hword hnext, ih]

theorem Spaced.cons_sep (hc : sep c = true) (h : Spaced sep cs ws) : Spaced sep (c :: cs) ws := by
  cases h with
  | gap hgap => exact .gap (List.forall_mem_cons.2 ⟨hc, hgap⟩)
  | @word gap word rest ws hgap hne hword hnext h =>
    show Spaced sep (c :: gap ++ word ++ rest) (word :: ws)
    exact .word (List.forall_mem_cons.2 ⟨hc, hgap⟩) hne hword hnext h

theorem Spaced.all_sep (h : Spaced sep cs []) : ∀ c ∈ cs, sep c = true := by
  cases h with
  | gap hgap => exact hgap

theorem exists_spaced (sep : Char → Bool) (cs : List Char) : ∃ ws, Spaced sep cs ws := by
  induction cs with
  | nil => exact ⟨[], .gap nofun⟩
  | cons c cs ih =>
    obtain ⟨ws, h⟩ := ih
    cases hc : sep c with
    | true => exact ⟨ws, h.cons_sep hc⟩
    | false =>
      by_cases hnext : ∀ d ∈ cs.head?, sep d = true
      · have hword : Spaced sep ([] ++ [c] ++ cs) ([c] :: ws) :=
          .word nofun (List.cons_ne_nil c []) (by simpa using hc) hnext h
        exact ⟨[c] :: ws, hword⟩
      · -- The letter joins the first word, which begins where the rest begins.
        cases h with
        | gap hgap => exact absurd (fun d hd => hgap d (List.mem_of_mem_head? hd)) hnext
        | @word gap word rest ws hgap hne hword hrest h =>
          cases gap with
          | nil =>
            have hjoined : Spaced sep ([] ++ c :: word ++ rest) ((c :: word) :: ws) :=
              .word nofun (List.cons_ne_nil c word) (List.forall_mem_cons.2 ⟨hc, hword⟩) hrest h
            exact ⟨(c :: word) :: ws, hjoined⟩
          | cons s gap =>
            refine absurd (fun d hd => ?_) hnext
            obtain rfl : s = d := Option.some.inj hd
            exact hgap s List.mem_cons_self

theorem words_eq_iff : words sep cs = ws ↔ Spaced sep cs ws := by
  refine ⟨?_, Spaced.words_eq⟩
  rintro rfl
  obtain ⟨ws, h⟩ := exists_spaced sep cs
  rwa [h.words_eq]

/-- The text is made of the lines, each but the last ended by a line feed with or without a carriage
return before it. The last line may end with the text, if it is not empty. -/
inductive Lined : List Char → List (List Char) → Prop where
  | nothing : Lined [] []
  | unended {line : List Char} (hne : line ≠ []) (hfeed : '\n' ∉ line) : Lined line [line]
  | feed {line rest : List Char} {ls : List (List Char)} (hfeed : '\n' ∉ line)
      (hreturn : line.getLast? ≠ some '\r') (h : Lined rest ls) :
      Lined (line ++ '\n' :: rest) (line :: ls)
  | returnFeed {line rest : List Char} {ls : List (List Char)} (hfeed : '\n' ∉ line)
      (h : Lined rest ls) : Lined (line ++ '\r' :: '\n' :: rest) (line :: ls)

/-- `lines`, of lists of characters. -/
def cutLines (cs : List Char) : List (List Char) :=
  let cut := pieces (· == '\n') cs
  let rest := cut.getLast?.getD []
  cut.dropLast.map dropReturn ++ if rest.isEmpty then [] else [rest]

theorem lines_eq_map (text : String) : lines text = (cutLines text.toList).map String.ofList := rfl

theorem pieces_of_line (hfeed : '\n' ∉ line) : pieces (· == '\n') line = [line] := by
  refine pieces_of_clean _ line fun c hc => ?_
  rw [beq_eq_false_iff_ne]
  rintro rfl
  exact hfeed hc

theorem cutLines_unended (hne : line ≠ []) (hfeed : '\n' ∉ line) : cutLines line = [line] := by
  unfold cutLines
  rw [pieces_of_line hfeed]
  simp [hne]

theorem cutLines_feed (rest : List Char) (hfeed : '\n' ∉ line) :
    cutLines (line ++ '\n' :: rest) = dropReturn line :: cutLines rest := by
  have hpieces := pieces_ne_nil (· == '\n') rest
  unfold cutLines
  rw [pieces_append _ line '\n' rest rfl, pieces_of_line hfeed, List.singleton_append]
  simp only [List.dropLast_cons_of_ne_nil hpieces, List.getLast?_cons_of_ne_nil hpieces, List.map_cons,
    List.cons_append]

theorem Lined.cutLines_eq (h : Lined cs ls) : cutLines cs = ls := by
  induction h with
  | nothing => rfl
  | unended hne hfeed => exact cutLines_unended hne hfeed
  | feed hfeed hreturn _ ih => rw [cutLines_feed _ hfeed, ih, dropReturn, if_neg hreturn]
  | @returnFeed line rest ls hfeed _ ih =>
    have hline : '\n' ∉ line ++ ['\r'] := by simp [hfeed]
    have hdrop : dropReturn (line ++ ['\r']) = line := by simp [dropReturn]
    rw [List.append_cons, cutLines_feed rest hline, ih, hdrop]

/-- A character before a text stands in the first line, if it does not end a line itself. -/
theorem Lined.exists_cons (hc : c ≠ '\n') (h : Lined cs ls) : ∃ ls', Lined (c :: cs) ls' := by
  have hnot : ∀ {line : List Char}, '\n' ∉ line → '\n' ∉ c :: line := fun hfeed hmem =>
    (List.mem_cons.1 hmem).elim (fun heq => hc heq.symm) hfeed
  cases h with
  | nothing => exact ⟨[[c]], .unended (List.cons_ne_nil c []) (hnot (by simp))⟩
  | unended hne hfeed => exact ⟨[c :: _], .unended (List.cons_ne_nil c _) (hnot hfeed)⟩
  | returnFeed hfeed h => exact ⟨(c :: _) :: _, .returnFeed (hnot hfeed) h⟩
  | @feed line rest ls hfeed hreturn h =>
    by_cases hlast : (c :: line).getLast? = some '\r'
    · -- A line that did not end with a carriage return does so now: it was empty.
      cases line with
      | nil =>
        obtain rfl : c = '\r' := Option.some.inj hlast
        have hempty : Lined ([] ++ '\r' :: '\n' :: rest) ([] :: ls) := .returnFeed (by simp) h
        exact ⟨[] :: ls, hempty⟩
      | cons d line => exact absurd (List.getLast?_cons_cons ▸ hlast) hreturn
    · have hlonger : Lined (c :: line ++ '\n' :: rest) ((c :: line) :: ls) := .feed (hnot hfeed) hlast h
      exact ⟨(c :: line) :: ls, hlonger⟩

theorem exists_lined (cs : List Char) : ∃ ls, Lined cs ls := by
  induction cs with
  | nil => exact ⟨[], .nothing⟩
  | cons c cs ih =>
    obtain ⟨ls, h⟩ := ih
    by_cases hc : c = '\n'
    · subst hc
      have hempty : Lined ([] ++ '\n' :: cs) ([] :: ls) := .feed (by simp) (by simp) h
      exact ⟨[] :: ls, hempty⟩
    · exact h.exists_cons hc

theorem cutLines_eq_iff : cutLines cs = ls ↔ Lined cs ls := by
  refine ⟨?_, Lined.cutLines_eq⟩
  rintro rfl
  obtain ⟨ls, h⟩ := exists_lined cs
  rwa [h.cutLines_eq]

theorem map_ofList_eq_iff {texts : List String} :
    ls.map String.ofList = texts ↔ ls = texts.map String.toList := by
  constructor
  · rintro rfl
    simp
  · rintro rfl
    simp

def IsLines (text : String) (ls : List String) : Prop := Lined text.toList (ls.map String.toList)

theorem isLines_iff {text : String} {ls : List String} : IsLines text ls ↔ lines text = ls := by
  rw [lines_eq_map, map_ofList_eq_iff, cutLines_eq_iff]
  rfl

def IsColumns (line : String) (columns : List String) : Prop :=
  Spaced isBlank line.toList (columns.map String.toList)

theorem isColumns_iff {line : String} {ws : List String} : IsColumns line ws ↔ columns line = ws := by
  unfold columns
  rw [map_ofList_eq_iff, words_eq_iff]
  rfl

end ComponentIdl.Text
