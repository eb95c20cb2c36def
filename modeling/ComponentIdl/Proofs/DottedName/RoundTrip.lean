import ComponentIdl.Proofs.DottedName

/-!
# Dotted names written and read

A name of proper segments is read back from its written form, so two such names are never written
alike. Any text is cut at its dots; reading drops the empty pieces, and writing joins the others. A
name inside a namespace is read from the namespace, a dot and the name.
-/

namespace ComponentIdl

/-- The text is the pieces with a dot between any two. They hold no dots, but may be empty. -/
structure IsCut (text : String) (pieces : List String) : Prop where
  exists_piece : pieces ≠ []
  dotless : ∀ piece ∈ pieces, '.' ∉ piece.toList
  joined : ".".intercalate pieces = text

theorem segments_of_dotless {piece : String} (h : '.' ∉ piece.toList) :
    segments piece = [piece].filter (· ≠ "") := by
  by_cases hempty : piece = ""
  · subst hempty
    rfl
  · rw [segments_of_isSegment ⟨hempty, h⟩]
    simp [hempty]

theorem segments_intercalate_dotless {pieces : List String}
    (h : ∀ piece ∈ pieces, '.' ∉ piece.toList) :
    segments (".".intercalate pieces) = pieces.filter (· ≠ "") := by
  induction pieces with
  | nil => rfl
  | cons piece pieces ih =>
    have hpiece := segments_of_dotless (h piece List.mem_cons_self)
    by_cases hnil : pieces = []
    · subst hnil
      rw [String.intercalate_singleton, hpiece]
    · rw [String.intercalate_cons_of_ne_nil hnil, segments_dot, hpiece,
        ih fun p hp => h p (List.mem_cons_of_mem _ hp), ← List.filter_append, List.singleton_append]

theorem IsCut.segments_eq {text : String} {pieces : List String} (h : IsCut text pieces) :
    segments text = pieces.filter (· ≠ "") := by
  rw [← h.joined, segments_intercalate_dotless h.dotless]

/-- A character before a text is a piece of its own if it is a dot, else it joins the first piece. -/
theorem IsCut.exists_cons {text : String} {pieces : List String} (h : IsCut text pieces) (c : Char) :
    ∃ pieces', IsCut (String.ofList [c] ++ text) pieces' := by
  obtain ⟨hne, hdotless, rfl⟩ := h
  by_cases hc : c = '.'
  · subst hc
    refine ⟨"" :: pieces, List.cons_ne_nil _ _, ?_, ?_⟩
    · exact List.forall_mem_cons.2 ⟨by simp, hdotless⟩
    · rw [String.intercalate_cons_of_ne_nil hne, String.empty_append]
  · obtain ⟨piece, rest, rfl⟩ := List.exists_cons_of_ne_nil hne
    obtain ⟨hpiece, hrest⟩ := List.forall_mem_cons.1 hdotless
    refine ⟨(String.ofList [c] ++ piece) :: rest, List.cons_ne_nil _ _, ?_, ?_⟩
    · refine List.forall_mem_cons.2 ⟨?_, hrest⟩
      simp [String.toList_append, hpiece, Ne.symm hc]
    · by_cases hnil : rest = []
      · subst hnil
        rw [String.intercalate_singleton, String.intercalate_singleton]
      · rw [String.intercalate_cons_of_ne_nil hnil, String.intercalate_cons_of_ne_nil hnil,
          String.append_assoc, String.append_assoc, String.append_assoc]

theorem exists_isCut (text : String) : ∃ pieces, IsCut text pieces := by
  have hchars : ∀ cs : List Char, ∃ pieces, IsCut (String.ofList cs) pieces := by
    intro cs
    induction cs with
    | nil => exact ⟨[""], List.cons_ne_nil _ _, by simp, rfl⟩
    | cons c cs ih =>
      obtain ⟨pieces, h⟩ := ih
      have hcons : String.ofList (c :: cs) = String.ofList [c] ++ String.ofList cs := by
        rw [← String.ofList_append, List.singleton_append]
      rw [hcons]
      exact h.exists_cons c
  have htext := hchars text.toList
  rwa [String.ofList_toList] at htext

namespace DottedName

/-- Every segment of the name is proper: the simple name and each part of the path. -/
def IsProper (q : DottedName) : Prop := ∀ segment ∈ q.scope ++ [q.name], IsSegment segment

instance (q : DottedName) : Decidable q.IsProper :=
  inferInstanceAs (Decidable (∀ segment ∈ q.scope ++ [q.name], IsSegment segment))

/-- What is read depends on the segments alone. -/
theorem parse_congr {a b : String} (h : segments a = segments b) : parse a = parse b := by
  unfold parse
  rw [h]

theorem parse_of_segments {text : String} {q : DottedName}
    (h : segments text = q.scope ++ [q.name]) : parse text = q := by
  unfold parse
  rw [h, List.getLast?_concat, List.dropLast_concat]

theorem parse_render {q : DottedName} (h : q.IsProper) : parse q.render = q :=
  parse_of_segments (segments_intercalate h)

theorem render_inj {p q : DottedName} (hp : p.IsProper) (hq : q.IsProper)
    (h : p.render = q.render) : p = q := by
  rw [← parse_render hp, h, parse_render hq]

theorem within_eq_parse (scope : String) {name : String} (h : IsSegment name) :
    within scope name = parse (scope ++ "." ++ name) := by
  refine (parse_of_segments ?_).symm
  rw [segments_dot, segments_of_isSegment h]
  rfl

theorem render_parse (text : String) : (parse text).render = ".".intercalate (segments text) := by
  rcases List.eq_nil_or_concat (segments text) with hnil | ⟨scope, name, hsegments⟩
  · unfold parse
    rw [hnil]
    rfl
  · rw [List.concat_eq_append] at hsegments
    rw [parse_of_segments (q := ⟨scope, name⟩) hsegments, hsegments]
    rfl

theorem parse_render_parse (text : String) : parse (parse text).render = parse text := by
  apply parse_congr
  rw [render_parse, segments_intercalate fun _ => isSegment_of_mem]

/-- A name of proper segments is read back from its written form, and no other such name is written
like it. Any text can be cut at its dots; what is read from it, once written, is the text without its
empty pieces, and is read again as the same name. A proper name inside a namespace, however this is
written, is what the namespace, a dot and the name are read as. -/
theorem reads_back :
    (∀ q : DottedName, q.IsProper → parse q.render = q) ∧
      (∀ p q : DottedName, p.IsProper → q.IsProper → p.render = q.render → p = q) ∧
      (∀ text, parse (parse text).render = parse text ∧
        (∃ pieces, IsCut text pieces) ∧
        ∀ pieces, IsCut text pieces →
          (parse text).render = ".".intercalate (pieces.filter (· ≠ ""))) ∧
      ∀ scope name, IsSegment name → within scope name = parse (scope ++ "." ++ name) := by
  refine ⟨fun q => parse_render, fun p q => render_inj, fun text => ?_, fun scope name => ?_⟩
  · refine ⟨parse_render_parse text, exists_isCut text, fun pieces hcut => ?_⟩
    rw [render_parse, hcut.segments_eq]
  · exact within_eq_parse scope

/-- A name with two namespaces, which is written unlike the name with these in the other order; a text
with a dot at each end and two dots in the middle; and a namespace written with dots to spare. -/
theorem reads_back_point :
    IsProper ⟨["Shapes", "Flat"], "Point"⟩ ∧ IsProper ⟨["Flat", "Shapes"], "Point"⟩ ∧
      parse (render ⟨["Shapes", "Flat"], "Point"⟩) = ⟨["Shapes", "Flat"], "Point"⟩ ∧
      render ⟨["Shapes", "Flat"], "Point"⟩ ≠ render ⟨["Flat", "Shapes"], "Point"⟩ ∧
      IsCut ".Shapes..Point." ["", "Shapes", "", "Point", ""] ∧
      (parse ".Shapes..Point.").render = "Shapes.Point" ∧
      IsSegment "Point" ∧ within ".Shapes..Flat" "Point" = parse ".Shapes..Flat.Point" := by
  obtain ⟨hread, hinj, htext, hwithin⟩ := reads_back
  have hproper : IsProper ⟨["Shapes", "Flat"], "Point"⟩ := by decide
  have hother : IsProper ⟨["Flat", "Shapes"], "Point"⟩ := by decide
  have hsegment : IsSegment "Point" := by decide
  have hcut : IsCut ".Shapes..Point." ["", "Shapes", "", "Point", ""] :=
    ⟨by decide, by decide, by decide⟩
  refine ⟨hproper, hother, hread _ hproper, fun h => ?_, hcut, (htext _).2.2 _ hcut, hsegment,
    hwithin _ _ hsegment⟩
  exact absurd (hinj _ _ hproper hother h) (by decide)

end DottedName

end ComponentIdl
