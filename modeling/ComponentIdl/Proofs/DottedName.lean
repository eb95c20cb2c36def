import ComponentIdl.DottedName
import ComponentIdl.Proofs.Text

/-!
# Reading dotted names back

A segment is a text without dots that is not empty. Cutting a text at its dots gives segments, and
joining segments with dots gives a text that is cut at the same places.
-/

namespace ComponentIdl

/-- A text that can stand between dots. -/
def IsSegment (name : String) : Prop := name ≠ "" ∧ '.' ∉ name.toList

instance (name : String) : Decidable (IsSegment name) :=
  inferInstanceAs (Decidable (name ≠ "" ∧ '.' ∉ name.toList))

theorem isSegment_of_mem {text name : String} (h : name ∈ segments text) : IsSegment name := by
  obtain ⟨w, hw, rfl⟩ := List.mem_map.1 h
  obtain ⟨hpiece, hne⟩ := List.mem_filter.1 hw
  have hclean := Text.mem_pieces hpiece
  refine ⟨?_, ?_⟩
  · intro heq
    have hnil : w = [] := by simpa using congrArg String.toList heq
    simp [hnil] at hne
  · intro hdot
    rw [String.toList_ofList] at hdot
    simpa using hclean '.' hdot

theorem segments_of_isSegment {name : String} (h : IsSegment name) : segments name = [name] := by
  have hclean : ∀ c ∈ name.toList, (c == '.') = false := by
    intro c hc
    rw [beq_eq_false_iff_ne]
    rintro rfl
    exact h.2 hc
  have hne : name.toList ≠ [] := by
    intro hnil
    exact h.1 (String.toList_inj.1 (by simpa using hnil))
  rw [segments, Text.words_of_clean hclean hne]
  simp

theorem segments_dot (a b : String) : segments (a ++ "." ++ b) = segments a ++ segments b := by
  have hlist : (a ++ "." ++ b).toList = a.toList ++ '.' :: b.toList := by
    simp [String.toList_append]
  unfold segments
  rw [hlist, Text.words_append (· == '.') a.toList '.' b.toList rfl, List.map_append]

theorem segments_intercalate {names : List String} (h : ∀ name ∈ names, IsSegment name) :
    segments (".".intercalate names) = names := by
  induction names with
  | nil => rfl
  | cons name names ih =>
    have hname : IsSegment name := h name List.mem_cons_self
    have hnames : ∀ n ∈ names, IsSegment n := fun n hn => h n (List.mem_cons_of_mem _ hn)
    by_cases hnil : names = []
    · subst hnil
      rw [String.intercalate_singleton, segments_of_isSegment hname]
    · rw [String.intercalate_cons_of_ne_nil hnil, segments_dot, segments_of_isSegment hname,
        ih hnames, List.singleton_append]

theorem segments_within (scope : String) {name : String} (h : IsSegment name) :
    segments (DottedName.within scope name).render = segments scope ++ [name] := by
  apply segments_intercalate
  intro n hn
  rcases List.mem_append.1 hn with hn | hn
  · exact isSegment_of_mem hn
  · rw [List.mem_singleton.1 hn]
    exact h

theorem DottedName.parse_within (scope : String) {name : String} (h : IsSegment name) :
    parse (within scope name).render = within scope name := by
  unfold parse
  rw [segments_within scope h]
  simp [within]

end ComponentIdl
