import ComponentIdl.Proofs.DottedName
import ComponentIdl.Proofs.Lists
import ComponentIdl.Store.Namespaces

/-!
# The tree names its nodes

A child is created after its parent, under a name that no sibling has, and its dotted name is that of
the parent with one segment more. So the segments of a dotted name lead from the root to the one node
that has it. Blocks and symbols are kept in the nodes and touch none of this.
-/

namespace ComponentIdl

theorem sameIgnoringCase_comm (a b : String) :
    Text.sameIgnoringCase a b = Text.sameIgnoringCase b a := by
  unfold Text.sameIgnoringCase
  rw [Bool.eq_iff_iff, beq_iff_eq, beq_iff_eq]
  exact eq_comm

namespace Namespaces

variable {t : Namespaces} {n c k : NamespaceId} {name : String}

theorem node?_modify (t : Namespaces) (n k : NamespaceId) (f : Namespace → Namespace) :
    (t.modify n f).node? k = if n = k then (t.node? k).map f else t.node? k :=
  Array.getElem?_modify

theorem size_modify (t : Namespaces) (n : NamespaceId) (f : Namespace → Namespace) :
    (t.modify n f).size = t.size :=
  Array.size_modify

theorem node?_eq_none : t.node? n = none ↔ t.size ≤ n :=
  Array.getElem?_eq_none_iff

theorem node?_isSome (h : n < t.size) : ∃ node, t.node? n = some node := by
  cases hn : t.node? n with
  | none => exact absurd (node?_eq_none.1 hn) (Nat.not_le.2 h)
  | some node => exact ⟨node, rfl⟩

theorem children_eq (t : Namespaces) (n : NamespaceId) :
    t.children n = ((t.node? n).map Namespace.children).getD [] := by
  unfold children
  cases t.node? n <;> rfl

theorem nameOf_eq (t : Namespaces) (n : NamespaceId) :
    t.nameOf n = ((t.node? n).map Namespace.name).getD "" := by
  unfold nameOf
  cases t.node? n <;> rfl

theorem parent?_eq (t : Namespaces) (n : NamespaceId) :
    t.parent? n = ((t.node? n).map Namespace.parent).join := by
  unfold parent?
  cases t.node? n <;> rfl

theorem symbol?_eq (t : Namespaces) (n : NamespaceId) (name : String) :
    t.symbol? n name = ((t.node? n).map fun node => node.symbols.get? name).join := by
  unfold symbol?
  cases t.node? n <;> rfl

theorem children_of_le (h : t.size ≤ n) : t.children n = [] := by
  rw [children_eq, node?_eq_none.2 h]
  rfl

theorem map_node?_modify {β : Type} {f : Namespace → Namespace} {g : Namespace → β}
    (t : Namespaces) (n k : NamespaceId) (h : ∀ node, g (f node) = g node) :
    ((t.modify n f).node? k).map g = (t.node? k).map g := by
  rw [node?_modify]
  split
  · rw [Option.map_map]
    exact Option.map_congr fun node _ => h node
  · rfl

/-- A change that keeps name, parent and children of a node keeps the shape of the tree. -/
structure SameShape (t t' : Namespaces) : Prop where
  size : t'.size = t.size
  children : ∀ n, t'.children n = t.children n
  nameOf : ∀ n, t'.nameOf n = t.nameOf n
  parent? : ∀ n, t'.parent? n = t.parent? n

theorem SameShape.refl (t : Namespaces) : t.SameShape t :=
  ⟨rfl, fun _ => rfl, fun _ => rfl, fun _ => rfl⟩

theorem SameShape.symm {t' : Namespaces} (h : t.SameShape t') : t'.SameShape t :=
  ⟨h.size.symm, fun n => (h.children n).symm, fun n => (h.nameOf n).symm, fun n => (h.parent? n).symm⟩

theorem SameShape.trans {t' t'' : Namespaces} (h : t.SameShape t') (h' : t'.SameShape t'') :
    t.SameShape t'' :=
  ⟨h'.size.trans h.size, fun n => (h'.children n).trans (h.children n),
    fun n => (h'.nameOf n).trans (h.nameOf n), fun n => (h'.parent? n).trans (h.parent? n)⟩

theorem sameShape_modify {f : Namespace → Namespace} (t : Namespaces) (n : NamespaceId)
    (hf : ∀ node, (f node).name = node.name ∧ (f node).parent = node.parent ∧
      (f node).children = node.children) : t.SameShape (t.modify n f) := by
  refine ⟨size_modify t n f, ?_, ?_, ?_⟩
  · intro k
    rw [children_eq, children_eq, map_node?_modify t n k fun node => (hf node).2.2]
  · intro k
    rw [nameOf_eq, nameOf_eq, map_node?_modify t n k fun node => (hf node).1]
  · intro k
    rw [parent?_eq, parent?_eq, map_node?_modify t n k fun node => (hf node).2.1]

theorem sameShape_openBlock (t : Namespaces) (n : NamespaceId) (line : Nat) :
    t.SameShape (t.openBlock n line).1 :=
  sameShape_modify t n fun _ => ⟨rfl, rfl, rfl⟩

theorem symbol?_openBlock (t : Namespaces) (n : NamespaceId) (line : Nat) (k : NamespaceId)
    (name : String) : (t.openBlock n line).1.symbol? k name = t.symbol? k name := by
  unfold openBlock
  rw [symbol?_eq, symbol?_eq, map_node?_modify]
  exact fun _ => rfl

theorem addSymbol_free {block : Nat} {symbol : Symbol} (h : t.symbol? n name = none) :
    t.addSymbol n block name symbol =
      .ok (t.modify n fun node => Namespace.addSymbol node block name symbol) := by
  unfold addSymbol
  rw [h]

theorem symbol?_addSymbol (block : Nat) (symbol : Symbol) (h : t.symbol? n name = none)
    (hn : n < t.size) (k : NamespaceId) (other : String) :
    (t.modify n fun node => Namespace.addSymbol node block name symbol).symbol? k other =
      if k = n ∧ other = name then some symbol else t.symbol? k other := by
  obtain ⟨node, hnode⟩ := node?_isSome hn
  unfold symbol? at h ⊢
  rw [hnode, Option.bind_some] at h
  rw [node?_modify]
  by_cases hk : n = k
  · subst hk
    rw [if_pos rfl, hnode, Option.map_some, Option.bind_some, Option.bind_some]
    unfold Namespace.addSymbol
    rw [NameMap.get?_insertNew, h]
    simp
  · rw [if_neg hk, if_neg fun hc => hk hc.1.symm]

theorem addChild_known (h : t.child? n name = some c) : t.addChild n name = (t, c) := by
  simp only [addChild, h]

theorem addChild_outside (hn : t.size ≤ n) (name : String) : t.addChild n name = (t, n) := by
  have hnode := node?_eq_none.2 hn
  have hchild : t.child? n name = none := by simp [child?, children, hnode]
  simp only [addChild, hchild, hnode]

/-- What a new child changes. -/
structure NewChild (t : Namespaces) (n : NamespaceId) (name : String) (t' : Namespaces) : Prop where
  size : t'.size = t.size + 1
  children : ∀ k, t'.children k =
    if k = n then (name, t.size) :: t.children n else t.children k
  nameOf : ∀ k, t'.nameOf k = if k = t.size then childName (t.nameOf n) name else t.nameOf k
  parent? : ∀ k, t'.parent? k = if k = t.size then some n else t.parent? k
  symbol? : ∀ k other, t'.symbol? k other = t.symbol? k other

section Added

variable (t : Namespaces) (node : Namespace) (k : NamespaceId)

/-- The tree with one node more. -/
def pushNode : Namespaces := ⟨t.nodes.push node⟩

theorem node?_pushNode :
    (t.pushNode node).node? k = if k = t.size then some node else t.node? k :=
  Array.getElem?_push

theorem size_pushNode : (t.pushNode node).size = t.size + 1 :=
  Array.size_push node

theorem children_pushNode :
    (t.pushNode node).children k = if k = t.size then node.children else t.children k := by
  rw [children_eq, children_eq, node?_pushNode]
  split <;> rfl

theorem nameOf_pushNode :
    (t.pushNode node).nameOf k = if k = t.size then node.name else t.nameOf k := by
  rw [nameOf_eq, nameOf_eq, node?_pushNode]
  split <;> rfl

theorem parent?_pushNode :
    (t.pushNode node).parent? k = if k = t.size then node.parent else t.parent? k := by
  rw [parent?_eq, parent?_eq, node?_pushNode]
  split <;> rfl

theorem symbol?_pushNode (other : String) :
    (t.pushNode node).symbol? k other =
      if k = t.size then node.symbols.get? other else t.symbol? k other := by
  rw [symbol?_eq, symbol?_eq, node?_pushNode]
  split <;> rfl

end Added

theorem addChild_new (h : t.child? n name = none) (hn : n < t.size) :
    (t.addChild n name).2 = t.size ∧ t.NewChild n name (t.addChild n name).1 := by
  obtain ⟨node, hnode⟩ := node?_isSome hn
  let link : Namespace → Namespace := fun p => { p with children := (name, t.size) :: p.children }
  have hadd : t.addChild n name = ((t.modify n link).pushNode
      { name := childName node.name name, parent := some n }, t.size) := by
    simp only [addChild, h, hnode]
    rfl
  have hname : t.nameOf n = node.name := by rw [nameOf_eq, hnode]; rfl
  have hlast : t.node? t.size = none := node?_eq_none.2 (Nat.le_refl _)
  rw [hadd]
  refine ⟨rfl, ?_, ?_, ?_, ?_, ?_⟩
  · rw [size_pushNode, size_modify]
  · intro k
    have hold : (t.modify n link).children k =
        if k = n then (name, t.size) :: t.children n else t.children k := by
      rw [children_eq, children_eq, children_eq, node?_modify]
      by_cases hk : k = n
      · rw [if_pos hk.symm, if_pos hk, hk, hnode]
        rfl
      · rw [if_neg fun hc => hk hc.symm, if_neg hk]
    rw [children_pushNode, size_modify, hold]
    by_cases hk : k = t.size
    · rw [if_pos hk, hk, if_neg (Nat.ne_of_gt hn), children_eq, hlast]
      rfl
    · rw [if_neg hk]
  · intro k
    rw [nameOf_pushNode, size_modify, hname, nameOf_eq (t.modify n link), map_node?_modify, nameOf_eq]
    exact fun _ => rfl
  · intro k
    rw [parent?_pushNode, size_modify, parent?_eq (t.modify n link), map_node?_modify, parent?_eq]
    exact fun _ => rfl
  · intro k other
    rw [symbol?_pushNode, size_modify, symbol?_eq (t.modify n link), map_node?_modify, symbol?_eq]
    · by_cases hk : k = t.size
      · rw [if_pos hk, hk, hlast]
        rfl
      · rw [if_neg hk]
    · exact fun _ => rfl

/-- The shape of a tree. -/
structure Proper (t : Namespaces) : Prop where
  nonempty : 0 < t.size
  root : t.nameOf Namespaces.root = ""
  child : ∀ n, ∀ c ∈ t.children n, n < c.2 ∧ c.2 < t.size ∧ IsSegment c.1 ∧
    t.nameOf c.2 = childName (t.nameOf n) c.1 ∧ t.parent? c.2 = some n
  names : ∀ n, ((t.children n).map Prod.fst).Nodup
  parent : ∀ c, 0 < c → c < t.size → ∃ n name, (name, c) ∈ t.children n

theorem proper_empty : Proper empty := by
  have hchildren : ∀ n, empty.children n = [] := by
    intro n
    cases n with
    | zero => rfl
    | succ n => exact children_of_le (Nat.le_add_left 1 n)
  refine ⟨Nat.one_pos, rfl, ?_, ?_, ?_⟩
  · intro n c hc
    simp [hchildren] at hc
  · intro n
    simp [hchildren]
  · intro c hpos hlt
    exact absurd hpos (Nat.not_lt.2 (Nat.le_of_lt_succ hlt))

theorem Proper.of_sameShape {t' : Namespaces} (h : t.Proper) (hs : t.SameShape t') : t'.Proper := by
  refine ⟨hs.size ▸ h.nonempty, (hs.nameOf _).trans h.root, ?_, ?_, ?_⟩
  · intro n c hc
    rw [hs.children] at hc
    rw [hs.size, hs.nameOf, hs.nameOf, hs.parent?]
    exact h.child n c hc
  · intro n
    rw [hs.children]
    exact h.names n
  · intro c hpos hlt
    rw [hs.size] at hlt
    obtain ⟨n, name, hc⟩ := h.parent c hpos hlt
    exact ⟨n, name, (hs.children n).symm ▸ hc⟩

theorem child?_eq_some (h : t.Proper) : t.child? n name = some c ↔ (name, c) ∈ t.children n :=
  ⟨mem_of_lookup, lookup_of_mem (h.names n)⟩

theorem child?_eq_none (h : t.child? n name = none) : ∀ c ∈ t.children n, c.1 ≠ name := by
  intro c hc heq
  subst heq
  rw [child?, List.lookup_eq_none_iff] at h
  simpa using h c hc

theorem NewChild.mem_children {t' : Namespaces} (hnew : t.NewChild n name t')
    {c : String × NamespaceId} :
    c ∈ t'.children k ↔ (k = n ∧ c = (name, t.size)) ∨ c ∈ t.children k := by
  rw [hnew.children]
  by_cases hk : k = n
  · subst hk
    rw [if_pos rfl, List.mem_cons]
    simp
  · rw [if_neg hk]
    simp [hk]

theorem Proper.newChild {t' : Namespaces} (h : t.Proper) (hn : n < t.size) (hname : IsSegment name)
    (hfree : t.child? n name = none) (hnew : t.NewChild n name t') : t'.Proper := by
  have hroot : Namespaces.root ≠ t.size := Nat.ne_of_lt h.nonempty
  refine ⟨?_, ?_, ?_, ?_, ?_⟩
  · rw [hnew.size]
    exact Nat.succ_pos _
  · rw [hnew.nameOf, if_neg hroot]
    exact h.root
  · intro k c hc
    rw [hnew.size, hnew.nameOf, hnew.nameOf, hnew.parent?]
    rcases hnew.mem_children.1 hc with ⟨rfl, rfl⟩ | hold
    · rw [if_pos rfl, if_pos rfl, if_neg (Nat.ne_of_lt hn)]
      exact ⟨hn, Nat.lt_succ_self _, hname, rfl, rfl⟩
    · obtain ⟨hlt, hsize, hseg, hnm, hpar⟩ := h.child k c hold
      have hc2 : c.2 ≠ t.size := Nat.ne_of_lt hsize
      have hk : k ≠ t.size := Nat.ne_of_lt (Nat.lt_trans hlt hsize)
      rw [if_neg hc2, if_neg hc2, if_neg hk]
      exact ⟨hlt, Nat.lt_succ_of_lt hsize, hseg, hnm, hpar⟩
  · intro k
    rw [hnew.children]
    by_cases hk : k = n
    · subst hk
      rw [if_pos rfl, List.map_cons, List.nodup_cons]
      refine ⟨?_, h.names k⟩
      intro hmem
      obtain ⟨c, hc, heq⟩ := List.mem_map.1 hmem
      exact child?_eq_none hfree c hc heq
    · rw [if_neg hk]
      exact h.names k
  · intro c hpos hlt
    rw [hnew.size] at hlt
    by_cases hc : c = t.size
    · exact ⟨n, name, hnew.mem_children.2 (Or.inl ⟨rfl, by rw [hc]⟩)⟩
    · obtain ⟨k, other, hmem⟩ := h.parent c hpos (by omega)
      exact ⟨k, other, hnew.mem_children.2 (Or.inr hmem)⟩

theorem walk?_append (t : Namespaces) (n : NamespaceId) (path more : List String) :
    t.walk? n (path ++ more) = (t.walk? n path).bind fun m => t.walk? m more := by
  induction path generalizing n with
  | nil => rfl
  | cons name path ih =>
    simp only [List.cons_append, walk?]
    cases t.child? n name with
    | none => rfl
    | some c => exact ih c

theorem segments_childName (parent : String) {name : String} (h : IsSegment name) :
    segments (childName parent name) = segments parent ++ [name] := by
  unfold childName
  split
  · next heq =>
    rw [heq, segments_of_isSegment h]
    rfl
  · rw [segments_dot, segments_of_isSegment h]

/-- The dotted name of a node leads to it. -/
theorem Proper.path?_nameOf (h : t.Proper) (hn : n < t.size) :
    t.path? (segments (t.nameOf n)) = some n := by
  induction n using Nat.strongRecOn with
  | _ n ih =>
    by_cases hpos : 0 < n
    · obtain ⟨p, name, hmem⟩ := h.parent n hpos hn
      obtain ⟨hlt, -, hseg, hname, -⟩ := h.child p _ hmem
      have hp : t.path? (segments (t.nameOf p)) = some p := ih p hlt (Nat.lt_trans hlt hn)
      have hstep : t.child? p name = some n := (child?_eq_some h).2 hmem
      rw [hname, segments_childName _ hseg, path?, walk?_append]
      rw [path?] at hp
      rw [hp, Option.bind_some, walk?, hstep]
      rfl
    · obtain rfl : n = Namespaces.root := Nat.eq_zero_of_not_pos hpos
      rw [h.root]
      rfl

theorem Proper.nameOf_inj (h : t.Proper) (hn : n < t.size) (hk : k < t.size)
    (heq : segments (t.nameOf n) = segments (t.nameOf k)) : n = k := by
  have hpath := h.path?_nameOf hn
  rw [heq, h.path?_nameOf hk] at hpath
  exact (Option.some.inj hpath).symm

/-- No two children of a node have names that differ by letter case only. -/
def CaseDistinct (t : Namespaces) : Prop :=
  ∀ n, (t.children n).Pairwise fun a b => Text.sameIgnoringCase a.1 b.1 = false

theorem caseDistinct_empty : empty.CaseDistinct := by
  intro n
  have hnone : empty.children n = [] := by
    cases n <;> rfl
  exact hnone ▸ List.Pairwise.nil

theorem CaseDistinct.of_sameShape {t' : Namespaces} (h : t.CaseDistinct) (hs : t.SameShape t') :
    t'.CaseDistinct := by
  intro n
  rw [hs.children]
  exact h n

theorem CaseDistinct.newChild {t' : Namespaces} (h : t.CaseDistinct)
    (hfree : t.child? n name = none) (hcase : t.caseVariant? n name = none)
    (hnew : t.NewChild n name t') : t'.CaseDistinct := by
  intro k
  rw [hnew.children]
  by_cases hk : k = n
  · subst hk
    rw [if_pos rfl, List.pairwise_cons]
    refine ⟨?_, h k⟩
    intro c hc
    have hvariant := List.find?_eq_none.1 hcase c.1 (List.mem_map_of_mem hc)
    have hne := child?_eq_none hfree c hc
    rw [sameIgnoringCase_comm]
    simpa [hne] using hvariant
  · rw [if_neg hk]
    exact h k

end Namespaces

end ComponentIdl
