import Mathlib.Logic.Relation
import ComponentIdl.Proofs.Namespaces.Growth

/-!
# The namespace tree over any history

A tree may be told in three ways: by the links of a namespace to its parent, by the names under which
namespaces list their children, and by dotted names. However a tree has grown, all three tell the same,
and what was once found in it is found for good.
-/

namespace ComponentIdl.Namespaces

variable {t : Namespaces} {n c : NamespaceId} {name : String} {path : List String}

/-- A call that adds to a tree. -/
inductive Call where
  | child (n : NamespaceId) (name : String)
  | path (names : List String)
  | block (n : NamespaceId) (line : Nat)
  | symbol (n : NamespaceId) (block : Nat) (name : String) (symbol : Symbol)

/-- Whether a call creates namespaces under segments only. -/
def Call.IsNamed : Call → Prop
  | .child _ name => IsSegment name
  | .path names => ∀ name ∈ names, IsSegment name
  | .block _ _ => True
  | .symbol _ _ _ _ => True

instance (c : Call) : Decidable c.IsNamed :=
  match c with
  | .child _ name => inferInstanceAs (Decidable (IsSegment name))
  | .path names => inferInstanceAs (Decidable (∀ name ∈ names, IsSegment name))
  | .block _ _ => inferInstanceAs (Decidable True)
  | .symbol _ _ _ _ => inferInstanceAs (Decidable True)

/-- The tree after a call. A symbol whose name is taken is not added. -/
def call (t : Namespaces) : Call → Namespaces
  | .child n name => (t.addChild n name).1
  | .path names => (t.addPath names).1
  | .block n line => (t.openBlock n line).1
  | .symbol n block name symbol =>
    match t.addSymbol n block name symbol with
    | .ok grown => grown
    | .error _ => t

def run (t : Namespaces) (calls : List Call) : Namespaces := calls.foldl call t

theorem call_symbol (t : Namespaces) (n : NamespaceId) (block : Nat) (name : String) (σ : Symbol) :
    t.call (.symbol n block name σ) = t ∨
      (t.symbol? n name = none ∧ t.call (.symbol n block name σ) =
        t.modify n fun node => Namespace.addSymbol node block name σ) := by
  cases h : t.symbol? n name with
  | some existing =>
    left
    simp only [call, addSymbol, h]
  | none =>
    right
    simp only [call, addSymbol, h, and_self]

theorem sameShape_addSymbol (t : Namespaces) (n : NamespaceId) (block : Nat) (name : String)
    (σ : Symbol) :
    t.SameShape (t.modify n fun node => Namespace.addSymbol node block name σ) :=
  t.sameShape_modify n fun _ => ⟨rfl, rfl, rfl⟩

/-- What is found in the first tree is found in the second. -/
structure Keeps (t t' : Namespaces) : Prop where
  find : ∀ name n, t.find? name = some n → t'.find? name = some n
  child : ∀ n name c, t.child? n name = some c → t'.child? n name = some c
  symbol : ∀ n name σ, t.symbol? n name = some σ → t'.symbol? n name = some σ

theorem keeps_of {t' : Namespaces} (hchildren : t.KeepsChildren t') (hsymbols : t.KeepsSymbols t') :
    t.Keeps t' :=
  ⟨fun _ _ hfind => hchildren.walk? hfind, hchildren, hsymbols⟩

theorem keepsChildren_call (t : Namespaces) (c : Call) : t.KeepsChildren (t.call c) := by
  cases c with
  | child n name => exact t.keepsChildren_addChild n name
  | path names => exact t.keepsChildren_addWalk _ names
  | block n line => exact (t.sameShape_openBlock n line).keepsChildren
  | symbol n block name σ =>
    rcases t.call_symbol n block name σ with h | ⟨-, h⟩ <;> rw [h]
    · exact (SameShape.refl t).keepsChildren
    · exact (t.sameShape_addSymbol n block name σ).keepsChildren

theorem keepsSymbols_call (t : Namespaces) (c : Call) : t.KeepsSymbols (t.call c) := by
  cases c with
  | child n name => exact keepsSymbols_of_eq (t.symbol?_addChild n name)
  | path names => exact keepsSymbols_of_eq (t.symbol?_addWalk _ names)
  | block n line => exact keepsSymbols_of_eq (t.symbol?_openBlock n line)
  | symbol n block name σ =>
    rcases t.call_symbol n block name σ with h | ⟨hfree, h⟩ <;> rw [h]
    · exact keepsSymbols_of_eq fun _ _ => rfl
    · exact keepsSymbols_addSymbol block σ hfree

theorem keeps_run (t : Namespaces) (calls : List Call) : t.Keeps (t.run calls) := by
  suffices hboth : t.KeepsChildren (t.run calls) ∧ t.KeepsSymbols (t.run calls) from
    keeps_of hboth.1 hboth.2
  induction calls generalizing t with
  | nil => exact ⟨(SameShape.refl t).keepsChildren, keepsSymbols_of_eq fun _ _ => rfl⟩
  | cons c calls ih =>
    obtain ⟨hchildren, hsymbols⟩ := ih (t.call c)
    exact ⟨(t.keepsChildren_call c).trans hchildren, (t.keepsSymbols_call c).trans hsymbols⟩

/-- A proper tree whose root has no parent. -/
structure Planted (t : Namespaces) : Prop where
  proper : t.Proper
  root : t.parent? Namespaces.root = none

theorem planted_empty : Planted empty := ⟨proper_empty, rfl⟩

theorem Planted.of_sameShape {t' : Namespaces} (h : t.Planted) (hs : t.SameShape t') :
    t'.Planted :=
  ⟨h.proper.of_sameShape hs, (hs.parent? _).trans h.root⟩

theorem Planted.addChild (h : t.Planted) (n : NamespaceId) (hname : IsSegment name) :
    (t.addChild n name).1.Planted := by
  cases hc : t.child? n name with
  | some c =>
    rw [addChild_known hc]
    exact h
  | none =>
    rcases Nat.lt_or_ge n t.size with hn | hn
    · obtain ⟨-, hnew⟩ := addChild_new hc hn
      have hroot : Namespaces.root ≠ t.size := Nat.ne_of_lt h.proper.nonempty
      refine ⟨h.proper.newChild hn hname hc hnew, ?_⟩
      rw [hnew.parent?, if_neg hroot]
      exact h.root
    · rw [addChild_outside hn]
      exact h

theorem Planted.addWalk (h : t.Planted) (n : NamespaceId) (hpath : ∀ s ∈ path, IsSegment s) :
    (t.addWalk n path).1.Planted := by
  induction path generalizing t n with
  | nil => exact h
  | cons name path ih =>
    obtain ⟨hname, hrest⟩ := List.forall_mem_cons.1 hpath
    exact ih (h.addChild n hname) _ hrest

theorem Planted.call {c : Call} (h : t.Planted) (hc : c.IsNamed) : (t.call c).Planted := by
  cases c with
  | child n name => exact h.addChild n hc
  | path names => exact h.addWalk _ hc
  | block n line => exact h.of_sameShape (t.sameShape_openBlock n line)
  | symbol n block name σ =>
    rcases t.call_symbol n block name σ with heq | ⟨-, heq⟩ <;> rw [heq]
    · exact h
    · exact h.of_sameShape (t.sameShape_addSymbol n block name σ)

theorem Planted.run {calls : List Call} (h : t.Planted) (hnamed : ∀ c ∈ calls, c.IsNamed) :
    (t.run calls).Planted := by
  induction calls generalizing t with
  | nil => exact h
  | cons c calls ih =>
    obtain ⟨hc, hcalls⟩ := List.forall_mem_cons.1 hnamed
    exact ih (h.call hc) hcalls

/-- The names under which children lead from the root to a namespace. -/
inductive LeadsTo (t : Namespaces) : List String → NamespaceId → Prop where
  | root : LeadsTo t [] Namespaces.root
  | child {path : List String} {n c : NamespaceId} {name : String} (h : LeadsTo t path n)
      (hc : (name, c) ∈ t.children n) : LeadsTo t (path ++ [name]) c

theorem LeadsTo.path? (h : t.LeadsTo path n) (ht : t.Proper) : t.path? path = some n := by
  induction h with
  | root => rfl
  | child _ hc ih =>
    rw [Namespaces.path?, walk?_append, ← Namespaces.path?, ih, Option.bind_some, walk?,
      (child?_eq_some ht).2 hc]
    rfl

theorem Proper.exists_leadsTo (h : t.Proper) (hn : n < t.size) : ∃ path, t.LeadsTo path n := by
  induction n using Nat.strongRecOn with
  | _ n ih =>
    by_cases hpos : 0 < n
    · obtain ⟨p, name, hc⟩ := h.parent n hpos hn
      have hlt := (h.child p _ hc).1
      obtain ⟨path, hpath⟩ := ih p hlt (Nat.lt_trans hlt hn)
      exact ⟨_, hpath.child hc⟩
    · obtain rfl : n = Namespaces.root := Nat.eq_zero_of_not_pos hpos
      exact ⟨[], .root⟩

theorem Proper.reaches_root (h : t.Proper) (hn : n < t.size) :
    Relation.ReflTransGen (fun c p => t.parent? c = some p) n Namespaces.root := by
  obtain ⟨path, hpath⟩ := h.exists_leadsTo hn
  clear hn
  induction hpath with
  | root => exact .refl
  | child _ hc ih => exact .head (h.child _ _ hc).2.2.2.2 ih

theorem childName_inj {parent other : String} (h : childName parent name = childName parent other) :
    name = other := by
  unfold childName at h
  split at h
  · exact h
  · exact (String.append_right_inj _).1 h

/-- A namespace is listed as a child once. -/
theorem Proper.unique_parent (h : t.Proper) {p q : NamespaceId} {other : String}
    (hc : (name, c) ∈ t.children p) (hc' : (other, c) ∈ t.children q) : q = p ∧ other = name := by
  obtain ⟨-, -, -, hname, hparent⟩ := h.child p _ hc
  obtain ⟨-, -, -, hname', hparent'⟩ := h.child q _ hc'
  obtain rfl : q = p := Option.some.inj (hparent'.symm.trans hparent)
  exact ⟨rfl, childName_inj (hname'.symm.trans hname)⟩

/-- Every namespace has its place: one parent, one path from the root, and the dotted name that the
path spells. -/
structure Rooted (t : Namespaces) : Prop where
  /-- A namespace other than the root is the child of one namespace, which was created before it. -/
  parent : ∀ c < t.size, c ≠ Namespaces.root → ∃ p name, p < c ∧ t.parent? c = some p ∧
    ∀ q other, (other, c) ∈ t.children q ↔ q = p ∧ other = name
  root : t.parent? Namespaces.root = none ∧ ∀ p name, (name, Namespaces.root) ∉ t.children p
  ancestors : ∀ n < t.size,
    Relation.ReflTransGen (fun c p => t.parent? c = some p) n Namespaces.root
  siblings : ∀ n, ((t.children n).map Prod.fst).Nodup
  named : ∀ n < t.size, ∃ path, (∀ other, t.LeadsTo other n ↔ other = path) ∧
    t.nameOf n = ".".intercalate path ∧ segments (t.nameOf n) = path ∧ t.path? path = some n ∧
    t.find? (t.nameOf n) = some n

theorem Proper.named (h : t.Proper) (hn : n < t.size) :
    ∃ path, (∀ other, t.LeadsTo other n ↔ other = path) ∧ t.nameOf n = ".".intercalate path ∧
      segments (t.nameOf n) = path ∧ t.path? path = some n ∧ t.find? (t.nameOf n) = some n := by
  obtain ⟨path, hpath⟩ := h.exists_leadsTo hn
  refine ⟨path, ?_, (h.spells (hpath.path? h)).nameOf, h.segments_nameOf (hpath.path? h),
    hpath.path? h, h.path?_nameOf hn⟩
  intro other
  constructor
  · exact fun hother => h.path_unique (hother.path? h) (hpath.path? h)
  · rintro rfl
    exact hpath

theorem Planted.rooted (h : t.Planted) : t.Rooted where
  parent c hlt hne := by
    obtain ⟨p, name, hc⟩ := h.proper.parent c (Nat.pos_of_ne_zero hne) hlt
    have hchild := h.proper.child p _ hc
    refine ⟨p, name, hchild.1, hchild.2.2.2.2, fun q other => ⟨h.proper.unique_parent hc, ?_⟩⟩
    rintro ⟨rfl, rfl⟩
    exact hc
  root := ⟨h.root, fun p name hc => Nat.not_lt_zero p (h.proper.child p _ hc).1⟩
  ancestors _ hn := h.proper.reaches_root hn
  siblings := h.proper.names
  named _ hn := h.proper.named hn

/-- However a tree grows from the empty one, its namespaces have their places, and what is found in it
is found after any further calls. -/
theorem run_rooted (calls : List Call) (hnamed : ∀ c ∈ calls, c.IsNamed) :
    (empty.run calls).Rooted ∧
      ∀ more : List Call, (empty.run calls).Keeps ((empty.run calls).run more) :=
  ⟨(planted_empty.run hnamed).rooted, fun more => keeps_run _ more⟩

/-- A path that shares its beginning with another one, and a symbol whose name is taken. -/
def moorings : List Call :=
  [.path ["Sea", "Port"], .block 2 1, .symbol 2 0 "Pier" (.struct 0), .child 1 "Reef",
    .path ["Sea", "Port", "Dock"], .symbol 2 0 "Pier" (.enum 0)]

theorem run_rooted_moorings :
    (∀ c ∈ moorings, c.IsNamed) ∧
      (empty.run moorings).children 1 = [("Reef", 3), ("Port", 2)] ∧
      (empty.run moorings).nameOf 4 = "Sea.Port.Dock" ∧
      (empty.run moorings).symbol? 2 "Pier" = some (.struct 0) ∧
      (empty.run moorings).Rooted ∧
      ∀ more : List Call, (empty.run moorings).Keeps ((empty.run moorings).run more) :=
  ⟨by decide, by decide, by decide, by decide, run_rooted moorings (by decide)⟩

end ComponentIdl.Namespaces
