import ComponentIdl.Proofs.Namespaces

/-!
# Trees that grow

Children, blocks and symbols are only ever added. So what a path led to it leads to for good, and a
symbol once found stays; and the path that leads to a namespace spells its dotted name.
-/

namespace ComponentIdl.Namespaces

namespace SameShape

variable {t t' : Namespaces} (h : t.SameShape t') (n : NamespaceId)
include h

theorem child? (name : String) : t'.child? n name = t.child? n name :=
  congrArg (List.lookup name) (h.children n)

theorem caseVariant? (name : String) : t'.caseVariant? n name = t.caseVariant? n name := by
  unfold Namespaces.caseVariant?
  rw [h.children]

theorem walk? (path : List String) : t'.walk? n path = t.walk? n path := by
  induction path generalizing n with
  | nil => rfl
  | cons name path ih =>
    rw [Namespaces.walk?, Namespaces.walk?, h.child?]
    exact Option.bind_congr fun c _ => ih c

/-- A child is added in the same place to trees of the same shape. -/
theorem addChild (name : String) :
    (t.addChild n name).1.SameShape (t'.addChild n name).1 ∧
      (t'.addChild n name).2 = (t.addChild n name).2 := by
  have hchild := h.child? n name
  cases hc : t.child? n name with
  | some c =>
    rw [addChild_known hc, addChild_known (hchild.trans hc)]
    exact ⟨h, rfl⟩
  | none =>
    rcases Nat.lt_or_ge n t.size with hn | hn
    · obtain ⟨hnode, hnew⟩ := addChild_new hc hn
      obtain ⟨hnode', hnew'⟩ := addChild_new (hchild.trans hc) (h.size ▸ hn)
      refine ⟨⟨?_, ?_, ?_, ?_⟩, ?_⟩
      · rw [hnew'.size, hnew.size, h.size]
      · intro k
        rw [hnew'.children, hnew.children, h.size, h.children, h.children]
      · intro k
        rw [hnew'.nameOf, hnew.nameOf, h.size, h.nameOf, h.nameOf]
      · intro k
        rw [hnew'.parent?, hnew.parent?, h.size, h.parent?]
      · rw [hnode', hnode, h.size]
    · rw [addChild_outside hn, addChild_outside (h.size ▸ hn)]
      exact ⟨h, rfl⟩

end SameShape

variable {t t' t'' : Namespaces} {n c : NamespaceId} {name : String} {path : List String}

/-- The second tree has all children of the first. -/
def KeepsChildren (t t' : Namespaces) : Prop :=
  ∀ n name c, t.child? n name = some c → t'.child? n name = some c

theorem SameShape.keepsChildren (h : t.SameShape t') : t.KeepsChildren t' :=
  fun n name _ hc => (h.child? n name).trans hc

theorem KeepsChildren.trans (h : t.KeepsChildren t') (h' : t'.KeepsChildren t'') :
    t.KeepsChildren t'' :=
  fun n name c hc => h' n name c (h n name c hc)

theorem KeepsChildren.walk? (h : t.KeepsChildren t') {path : List String}
    (hwalk : t.walk? n path = some c) : t'.walk? n path = some c := by
  induction path generalizing n with
  | nil => exact hwalk
  | cons name path ih =>
    rw [Namespaces.walk?] at hwalk ⊢
    obtain ⟨m, hm, hrest⟩ := Option.bind_eq_some_iff.1 hwalk
    rw [h n name m hm, Option.bind_some]
    exact ih hrest

theorem keepsChildren_addChild (t : Namespaces) (n : NamespaceId) (name : String) :
    t.KeepsChildren (t.addChild n name).1 := by
  cases hc : t.child? n name with
  | some c =>
    rw [addChild_known hc]
    exact fun _ _ _ hc => hc
  | none =>
    rcases Nat.lt_or_ge n t.size with hn | hn
    · obtain ⟨-, hadded⟩ := addChild_new hc hn
      intro k other c hold
      unfold child? at hold ⊢
      rw [hadded.children]
      split
      · next hk =>
        subst hk
        have hne : other ≠ name := by
          rintro rfl
          exact absurd (hc.symm.trans hold) (by simp)
        rw [List.lookup_cons, beq_false_of_ne hne]
        exact hold
      · exact hold
    · rw [addChild_outside hn]
      exact fun _ _ _ hc => hc

theorem child?_addChild (hn : n < t.size) (name : String) :
    (t.addChild n name).1.child? n name = some (t.addChild n name).2 := by
  cases hc : t.child? n name with
  | some c => rw [addChild_known hc, hc]
  | none =>
    obtain ⟨hnode, hadded⟩ := addChild_new hc hn
    rw [child?, hadded.children, if_pos rfl, hnode]
    exact List.lookup_cons_self

theorem keepsChildren_addWalk (t : Namespaces) (n : NamespaceId) (path : List String) :
    t.KeepsChildren (t.addWalk n path).1 := by
  induction path generalizing t n with
  | nil => exact fun _ _ _ hc => hc
  | cons name path ih => exact (t.keepsChildren_addChild n name).trans (ih _ _)

/-- The second tree has all symbols of the first. -/
def KeepsSymbols (t t' : Namespaces) : Prop :=
  ∀ n name σ, t.symbol? n name = some σ → t'.symbol? n name = some σ

theorem KeepsSymbols.trans (h : t.KeepsSymbols t') (h' : t'.KeepsSymbols t'') :
    t.KeepsSymbols t'' :=
  fun n name σ hσ => h' n name σ (h n name σ hσ)

theorem keepsSymbols_of_eq (h : ∀ n name, t'.symbol? n name = t.symbol? n name) :
    t.KeepsSymbols t' :=
  fun n name _ hσ => (h n name).trans hσ

theorem symbol?_addChild (t : Namespaces) (n : NamespaceId) (name : String) (k : NamespaceId)
    (other : String) : (t.addChild n name).1.symbol? k other = t.symbol? k other := by
  cases hc : t.child? n name with
  | some c => rw [addChild_known hc]
  | none =>
    rcases Nat.lt_or_ge n t.size with hn | hn
    · exact (addChild_new hc hn).2.symbol? k other
    · rw [addChild_outside hn]

theorem symbol?_addWalk (t : Namespaces) (n : NamespaceId) (path : List String) (k : NamespaceId)
    (other : String) : (t.addWalk n path).1.symbol? k other = t.symbol? k other := by
  induction path generalizing t n with
  | nil => rfl
  | cons name path ih => rw [addWalk, ih, symbol?_addChild]

theorem modify_outside (hn : t.size ≤ n) (f : Namespace → Namespace) (k : NamespaceId) :
    (t.modify n f).node? k = t.node? k := by
  rw [node?_modify]
  split
  · next hk => rw [← hk, node?_eq_none.2 hn, Option.map_none]
  · rfl

theorem keepsSymbols_addSymbol (block : Nat) (σ : Symbol) (hfree : t.symbol? n name = none) :
    t.KeepsSymbols (t.modify n fun node => Namespace.addSymbol node block name σ) := by
  intro k other τ hτ
  rcases Nat.lt_or_ge n t.size with hn | hn
  · rw [symbol?_addSymbol block σ hfree hn, if_neg]
    · exact hτ
    · rintro ⟨rfl, rfl⟩
      exact absurd (hfree.symm.trans hτ) (by simp)
  · rw [symbol?, modify_outside hn]
    exact hτ

theorem childName_intercalate {path : List String} (hpath : ∀ s ∈ path, IsSegment s)
    (name : String) : childName (".".intercalate path) name = ".".intercalate (path ++ [name]) := by
  unfold childName
  by_cases hnil : path = []
  · subst hnil
    rw [String.intercalate_nil, if_pos rfl, List.nil_append, String.intercalate_singleton]
  · rw [if_neg, String.intercalate_append_of_ne_nil hnil (by simp), String.intercalate_singleton]
    intro hempty
    -- A text without segments is that of the empty path.
    have hsegments := segments_intercalate hpath
    rw [hempty] at hsegments
    exact hnil hsegments.symm

theorem Proper.isSegment_child? (h : t.Proper) (hc : t.child? n name = some c) : IsSegment name :=
  (h.child n _ ((child?_eq_some h).1 hc)).2.2.1

theorem Proper.lt_of_child? (h : t.Proper) (hc : t.child? n name = some c) :
    n < c ∧ c < t.size := by
  have hchild := h.child n _ ((child?_eq_some h).1 hc)
  exact ⟨hchild.1, hchild.2.1⟩

theorem Proper.nameOf_child? (h : t.Proper) (hc : t.child? n name = some c) :
    t.nameOf c = childName (t.nameOf n) name :=
  (h.child n _ ((child?_eq_some h).1 hc)).2.2.2.1

/-- What a walk leads to, as seen from the root. -/
structure Spells (t : Namespaces) (path : List String) (n : NamespaceId) : Prop where
  lt : n < t.size
  segments : ∀ s ∈ path, IsSegment s
  nameOf : t.nameOf n = ".".intercalate path

theorem Spells.child (h : t.Spells path n) (ht : t.Proper) (hc : t.child? n name = some c) :
    t.Spells (path ++ [name]) c := by
  refine ⟨(ht.lt_of_child? hc).2, ?_, ?_⟩
  · intro s hs
    rcases List.mem_append.1 hs with hs | hs
    · exact h.segments s hs
    · exact List.mem_singleton.1 hs ▸ ht.isSegment_child? hc
  · rw [ht.nameOf_child? hc, h.nameOf, childName_intercalate h.segments]

theorem Spells.walk? {more : List String} (h : t.Spells path n) (ht : t.Proper)
    (hwalk : t.walk? n more = some c) : t.Spells (path ++ more) c := by
  induction more generalizing n path with
  | nil =>
    obtain rfl := Option.some.inj hwalk
    rw [List.append_nil]
    exact h
  | cons name more ih =>
    rw [Namespaces.walk?] at hwalk
    obtain ⟨m, hm, hrest⟩ := Option.bind_eq_some_iff.1 hwalk
    rw [← List.singleton_append, ← List.append_assoc]
    exact ih (h.child ht hm) hrest

/-- The path that leads to a namespace from the root joins up to its dotted name. -/
theorem Proper.spells (h : t.Proper) (hpath : t.path? path = some n) : t.Spells path n := by
  have hroot : t.Spells [] Namespaces.root :=
    ⟨h.nonempty, fun _ hs => absurd hs List.not_mem_nil, h.root⟩
  exact hroot.walk? h hpath

/-- The path that leads to a namespace is cut out of its dotted name. -/
theorem Proper.segments_nameOf (h : t.Proper) (hpath : t.path? path = some n) :
    segments (t.nameOf n) = path := by
  have hspells := h.spells hpath
  rw [hspells.nameOf, segments_intercalate hspells.segments]

theorem Proper.path_unique {other : List String} (h : t.Proper) (hpath : t.path? path = some n)
    (hother : t.path? other = some n) : path = other :=
  (h.segments_nameOf hpath).symm.trans (h.segments_nameOf hother)

end ComponentIdl.Namespaces
