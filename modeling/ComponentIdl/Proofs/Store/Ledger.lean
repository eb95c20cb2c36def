import Mathlib.Data.List.Nodup
import ComponentIdl.Proofs.Builder.Registry

/-!
# What namespaces record

A namespace records a declaration twice: by its simple name, and in the block that it stands in. Both
hold the same symbols as long as nothing is recorded under a name that is taken, or in a block that
does not exist. Then every symbol has one name, one namespace and one block.
-/

namespace ComponentIdl

namespace Namespaces

/-- The blocks of a namespace. -/
def blocks (t : Namespaces) (n : NamespaceId) : List NamespaceBlock :=
  ((t.node? n).map Namespace.blocks).getD []

/-- The entries of a namespace by simple name. -/
def entries (t : Namespaces) (n : NamespaceId) : List (String × Symbol) :=
  ((t.node? n).map fun node => node.symbols.entries).getD []

/-- The declarations of all blocks of a namespace. -/
def listed (t : Namespaces) (n : NamespaceId) : List Symbol :=
  (t.blocks n).flatMap NamespaceBlock.declarations

variable {t t' : Namespaces} {n k : NamespaceId} {name : String} {σ : Symbol}

theorem nextBlock_eq (t : Namespaces) (n : NamespaceId) : t.nextBlock n = (t.blocks n).length := by
  unfold nextBlock blocks
  cases t.node? n <;> rfl

theorem lt_size_of_block {k : Nat} (h : k < (t.blocks n).length) : n < t.size := by
  by_contra hn
  rw [blocks, node?_eq_none.2 (Nat.not_lt.1 hn)] at h
  exact absurd h (Nat.not_lt_zero k)

theorem nodup_entries (t : Namespaces) (n : NamespaceId) :
    ((t.entries n).map Prod.fst).Nodup := by
  unfold entries
  cases t.node? n with
  | none => exact List.nodup_nil
  | some node => exact node.symbols.distinct

theorem mem_entries : (name, σ) ∈ t.entries n ↔ t.symbol? n name = some σ := by
  have hlookup : t.symbol? n name = (t.entries n).lookup name := by
    unfold symbol? entries
    cases t.node? n <;> rfl
  rw [hlookup]
  exact ⟨lookup_of_mem (t.nodup_entries n), mem_of_lookup⟩

/-- The trees record the same. -/
structure SameRecords (t t' : Namespaces) : Prop where
  blocks : ∀ n, t'.blocks n = t.blocks n
  entries : ∀ n, t'.entries n = t.entries n

theorem SameRecords.refl (t : Namespaces) : t.SameRecords t := ⟨fun _ => rfl, fun _ => rfl⟩

theorem SameRecords.trans {t'' : Namespaces} (h : t.SameRecords t') (h' : t'.SameRecords t'') :
    t.SameRecords t'' :=
  ⟨fun n => (h'.blocks n).trans (h.blocks n), fun n => (h'.entries n).trans (h.entries n)⟩

/-- A new child that has nothing yet is not told apart from a node that does not exist. -/
theorem getD_newChild {β : Type} {g : Namespace → β} {nothing : β} {child : Namespace}
    (link : Namespace → Namespace) (hlink : ∀ node, g (link node) = g node)
    (hchild : g child = nothing) (t : Namespaces) (n k : NamespaceId) :
    ((((t.modify n link).pushNode child).node? k).map g).getD nothing =
      ((t.node? k).map g).getD nothing := by
  rw [node?_pushNode, size_modify]
  split
  · next hk =>
    rw [hk, node?_eq_none.2 (Nat.le_refl _)]
    exact hchild
  · rw [map_node?_modify t n k hlink]

theorem sameRecords_addChild (t : Namespaces) (n : NamespaceId) (name : String) :
    t.SameRecords (t.addChild n name).1 := by
  unfold addChild
  cases t.child? n name with
  | some c => exact .refl t
  | none =>
    cases t.node? n with
    | none => exact .refl t
    | some node =>
      let link : Namespace → Namespace :=
        fun p => { p with children := (name, t.size) :: p.children }
      exact ⟨getD_newChild link (fun _ => rfl) rfl t n, getD_newChild link (fun _ => rfl) rfl t n⟩

theorem blocks_openBlock (hn : n < t.size) (line : Nat) (k : NamespaceId) :
    (t.openBlock n line).1.blocks k =
      if k = n then t.blocks n ++ [{ line := line }] else t.blocks k := by
  obtain ⟨node, hnode⟩ := node?_isSome hn
  unfold openBlock blocks
  rw [node?_modify]
  by_cases hk : k = n
  · rw [hk, if_pos rfl, if_pos rfl, hnode]
    rfl
  · rw [if_neg fun hc => hk hc.symm, if_neg hk]

theorem entries_openBlock (t : Namespaces) (n : NamespaceId) (line : Nat) (k : NamespaceId) :
    (t.openBlock n line).1.entries k = t.entries k := by
  unfold openBlock entries
  rw [map_node?_modify]
  exact fun _ => rfl

theorem listed_openBlock (hn : n < t.size) (line : Nat) (k : NamespaceId) :
    (t.openBlock n line).1.listed k = t.listed k := by
  unfold listed
  rw [blocks_openBlock hn]
  split
  · next hk =>
    rw [hk, List.flatMap_append]
    exact List.append_nil _
  · rfl

theorem blocks_addSymbol (hn : n < t.size) (block : Nat) (name : String) (σ : Symbol)
    (k : NamespaceId) :
    (t.modify n fun node => Namespace.addSymbol node block name σ).blocks k =
      if k = n then (t.blocks n).modify block fun b =>
        { b with declarations := b.declarations ++ [σ] }
      else t.blocks k := by
  obtain ⟨node, hnode⟩ := node?_isSome hn
  unfold blocks
  rw [node?_modify]
  by_cases hk : k = n
  · rw [hk, if_pos rfl, if_pos rfl, hnode]
    rfl
  · rw [if_neg fun hc => hk hc.symm, if_neg hk]

theorem entries_addSymbol (hn : n < t.size) (block : Nat) (σ : Symbol)
    (hfree : t.symbol? n name = none) (k : NamespaceId) :
    (t.modify n fun node => Namespace.addSymbol node block name σ).entries k =
      if k = n then t.entries n ++ [(name, σ)] else t.entries k := by
  obtain ⟨node, hnode⟩ := node?_isSome hn
  unfold symbol? at hfree
  rw [hnode, Option.bind_some] at hfree
  unfold entries
  rw [node?_modify]
  by_cases hk : k = n
  · rw [hk, if_pos rfl, if_pos rfl, hnode]
    simp only [Option.map_some, Option.getD_some, Namespace.addSymbol, NameMap.insertNew, hfree,
      dif_pos]
  · rw [if_neg fun hc => hk hc.symm, if_neg hk]

theorem flatMap_modify_concat {blocks : List NamespaceBlock} {block : Nat} (h : block < blocks.length)
    (σ : Symbol) :
    ((blocks.modify block fun b => { b with declarations := b.declarations ++ [σ] }).flatMap
      NamespaceBlock.declarations).Perm (σ :: blocks.flatMap NamespaceBlock.declarations) := by
  induction blocks generalizing block with
  | nil => exact absurd h (Nat.not_lt_zero block)
  | cons b blocks ih =>
    cases block with
    | zero =>
      rw [List.modify_zero_cons, List.flatMap_cons, List.flatMap_cons, List.append_assoc]
      exact List.perm_middle
    | succ block =>
      rw [List.modify_succ_cons, List.flatMap_cons, List.flatMap_cons]
      exact ((ih (Nat.lt_of_succ_lt_succ h)).append_left _).trans List.perm_middle

/-- Names and blocks of a namespace record the same symbols. -/
def Balanced (t : Namespaces) : Prop :=
  ∀ n, (t.listed n).Perm ((t.entries n).map Prod.snd)

theorem balanced_empty : empty.Balanced := by
  intro n
  cases n <;> exact .nil

theorem Balanced.of_sameRecords (h : t.Balanced) (hs : t.SameRecords t') : t'.Balanced := by
  intro n
  unfold listed
  rw [hs.blocks, hs.entries]
  exact h n

theorem Balanced.openBlock (h : t.Balanced) (hn : n < t.size) (line : Nat) :
    (t.openBlock n line).1.Balanced := by
  intro k
  rw [listed_openBlock hn, entries_openBlock]
  exact h k

theorem Balanced.addSymbol (h : t.Balanced) {block : Nat} (hblock : block < (t.blocks n).length)
    (hfree : t.symbol? n name = none) (σ : Symbol) :
    (t.modify n fun node => Namespace.addSymbol node block name σ).Balanced := by
  intro k
  have hn := lt_size_of_block hblock
  unfold listed
  rw [blocks_addSymbol hn, entries_addSymbol hn block σ hfree]
  split
  · rw [List.map_append]
    exact (flatMap_modify_concat hblock σ).trans
      (((h n).cons σ).trans (List.perm_append_singleton σ _).symm)
  · exact h k

theorem Balanced.mem_listed (h : t.Balanced) :
    σ ∈ t.listed n ↔ ∃ name, t.symbol? n name = some σ := by
  rw [(h n).mem_iff, List.mem_map]
  constructor
  · rintro ⟨⟨name, σ'⟩, hmem, rfl⟩
    exact ⟨name, mem_entries.1 hmem⟩
  · rintro ⟨name, hname⟩
    exact ⟨(name, σ), mem_entries.2 hname, rfl⟩

/-- Recording in a block of a namespace. Under a free name it succeeds, and the block ends with the
new symbol. -/
structure Accepts (t : Namespaces) (n : NamespaceId) (block : Nat) : Prop where
  node : n < t.size
  inside : block < t.nextBlock n
  free : ∀ name σ, t.symbol? n name = none → ∃ t', t.addSymbol n block name σ = .ok t' ∧
    t'.symbol? n name = some σ ∧
    ∃ b, (t'.blocks n)[block]? = some b ∧ b.declarations.getLast? = some σ

theorem accepts_of_block {block : Nat} (h : block < (t.blocks n).length) : t.Accepts n block := by
  have hn := lt_size_of_block h
  refine ⟨hn, t.nextBlock_eq n ▸ h, ?_⟩
  intro name σ hfree
  refine ⟨_, addSymbol_free hfree, ?_, ?_⟩
  · rw [symbol?_addSymbol block σ hfree hn, if_pos ⟨rfl, rfl⟩]
  · rw [blocks_addSymbol hn, if_pos rfl, List.getElem?_modify_eq, List.getElem?_eq_getElem h]
    exact ⟨_, rfl, List.getLast?_concat⟩

end Namespaces

namespace Store

variable {st st' : Store}

theorem Registered.extends (h : st.Registered) (hs : st.SameHeaders st')
    (ht : st.namespaces.Extends st'.namespaces) (hproper : st'.namespaces.Proper) :
    st'.Registered := by
  refine ⟨hproper, ?_⟩
  intro σ header hσ
  rw [hs.header? σ] at hσ
  obtain ⟨n, hn, hscope, hsymbol⟩ := h.complete σ header hσ
  exact ⟨n, Nat.lt_of_lt_of_le hn ht.size, (ht.nameOf n hn).trans hscope,
    (ht.symbol? n _).trans hsymbol⟩

/-- Namespaces record the declarations of the store and nothing else. -/
structure Recorded (st : Store) : Prop where
  registered : st.Registered
  entry : ∀ n name σ, st.namespaces.symbol? n name = some σ →
    ∃ h, st.header? σ = some h ∧ h.name = name ∧ h.scope = st.namespaces.nameOf n
  balanced : st.namespaces.Balanced

theorem recorded_empty : Recorded {} := by
  refine ⟨registered_empty, ?_, Namespaces.balanced_empty⟩
  intro n name σ hσ
  cases n <;> exact absurd hσ (by simp [Namespaces.symbol?, Namespaces.node?, Namespaces.empty,
    NameMap.get?])

theorem Recorded.of_sameHeaders (h : st.Recorded) (hs : st.SameHeaders st')
    (htree : st'.namespaces = st.namespaces) : st'.Recorded := by
  refine ⟨h.registered.of_sameHeaders hs htree, ?_, htree ▸ h.balanced⟩
  intro n name σ hσ
  rw [htree] at hσ ⊢
  rw [hs.header? σ]
  exact h.entry n name σ hσ

theorem Recorded.extends (h : st.Recorded) (hs : st.SameHeaders st')
    (ht : st.namespaces.Extends st'.namespaces) (hproper : st'.namespaces.Proper)
    (hbalanced : st'.namespaces.Balanced) : st'.Recorded := by
  refine ⟨h.registered.extends hs ht hproper, ?_, hbalanced⟩
  intro n name σ hσ
  rw [ht.symbol?] at hσ
  rw [hs.header? σ]
  obtain ⟨header, hheader, hname, hscope⟩ := h.entry n name σ hσ
  -- A namespace with an entry was there before, so it keeps its name.
  have hn : n < st.namespaces.size := by
    by_contra hn
    simp [Namespaces.symbol?, Namespaces.node?_eq_none.2 (Nat.not_lt.1 hn)] at hσ
  exact ⟨header, hheader, hname, hscope.trans (ht.nameOf n hn).symm⟩

theorem Recorded.declare (h : st.Recorded) {n : NamespaceId} {block : Nat} {e : Entity}
    (hblock : block < (st.namespaces.blocks n).length)
    (hscope : st.namespaces.nameOf n = e.header.scope)
    (hfree : st.namespaces.symbol? n e.header.name = none) :
    (st.declare n block e.header.name e).Recorded := by
  have hn := Namespaces.lt_size_of_block hblock
  obtain ⟨hregistered, -, hheader⟩ := h.registered.declare block hn hscope hfree
  have hshape := st.sameShape_declare n block e.header.name e
  have htree : (st.declare n block e.header.name e).namespaces = st.namespaces.modify n
      fun node => Namespaces.Namespace.addSymbol node block e.header.name (st.nextSymbol e) := by
    unfold Store.declare
    rw [Namespaces.addSymbol_free hfree]
  refine ⟨hregistered, ?_, ?_⟩
  · intro k name σ hσ
    rw [htree, Namespaces.symbol?_addSymbol block _ hfree hn] at hσ
    rw [hheader, hshape.nameOf]
    split at hσ
    · next hnew =>
      obtain rfl := Option.some.inj hσ
      rw [if_pos rfl]
      exact ⟨e.header, rfl, hnew.2.symm, by rw [hnew.1, hscope]⟩
    · obtain ⟨header, hold, hrest⟩ := h.entry k name σ hσ
      rw [if_neg]
      · exact ⟨header, hold, hrest⟩
      · rintro rfl
        rw [header?_nextSymbol] at hold
        exact absurd hold (by simp)
  · rw [htree]
    exact h.balanced.addSymbol hblock hfree _

/-- All that namespaces record of the symbol `σ`: in `n` its simple name, and in one block of `n`
one mention. -/
structure RecordedIn (st : Store) (σ : Symbol) (h : Header) (n : NamespaceId) : Prop where
  node : n < st.namespaces.size
  scope : st.namespaces.nameOf n = h.scope
  entry : ∀ m name, st.namespaces.symbol? m name = some σ ↔ m = n ∧ name = h.name
  block : ∃ k < (st.namespaces.blocks n).length, ∀ m j b,
    (st.namespaces.blocks m)[j]? = some b →
      b.declarations.count σ = if m = n ∧ j = k then 1 else 0

theorem Recorded.nodup_listed (h : st.Recorded) (n : NamespaceId) :
    (st.namespaces.listed n).Nodup := by
  rw [(h.balanced n).nodup_iff]
  refine List.Nodup.map_on ?_ (List.Nodup.of_map Prod.fst (st.namespaces.nodup_entries n))
  -- An entry has the name of its declaration, so the symbol tells the name.
  rintro ⟨name, σ⟩ hx ⟨name', σ'⟩ hy rfl
  obtain ⟨header, hheader, hname, -⟩ := h.entry n name σ (Namespaces.mem_entries.1 hx)
  obtain ⟨header', hheader', hname', -⟩ := h.entry n name' σ (Namespaces.mem_entries.1 hy)
  obtain rfl : header = header' := Option.some.inj (hheader.symm.trans hheader')
  rw [← hname, hname']

theorem count_of_nodup_flatMap {blocks : List NamespaceBlock} {σ : Symbol}
    (hnodup : (blocks.flatMap NamespaceBlock.declarations).Nodup)
    (hmem : σ ∈ blocks.flatMap NamespaceBlock.declarations) :
    ∃ k < blocks.length, ∀ j b, blocks[j]? = some b →
      b.declarations.count σ = if j = k then 1 else 0 := by
  induction blocks with
  | nil => exact absurd hmem List.not_mem_nil
  | cons b blocks ih =>
    rw [List.flatMap_cons] at hnodup hmem
    obtain ⟨hfirst, hrest, hdisjoint⟩ := List.nodup_append'.1 hnodup
    by_cases hb : σ ∈ b.declarations
    · refine ⟨0, Nat.zero_lt_succ _, ?_⟩
      intro j c hc
      cases j with
      | zero =>
        obtain rfl : b = c := Option.some.inj hc
        rw [if_pos rfl]
        exact List.count_eq_one_of_mem hfirst hb
      | succ j =>
        rw [if_neg (Nat.succ_ne_zero j), List.count_eq_zero]
        intro hcσ
        exact hdisjoint hb (List.mem_flatMap.2 ⟨c, List.mem_of_getElem? hc, hcσ⟩)
    · obtain ⟨k, hk, hcount⟩ := ih hrest ((List.mem_append.1 hmem).resolve_left hb)
      refine ⟨k + 1, Nat.succ_lt_succ hk, ?_⟩
      intro j c hc
      cases j with
      | zero =>
        obtain rfl : b = c := Option.some.inj hc
        rw [if_neg (Nat.succ_ne_zero k).symm, List.count_eq_zero]
        exact hb
      | succ j =>
        rw [hcount j c hc]
        simp only [Nat.succ.injEq]

/-- A declaration is recorded in its own namespace only, once under its name and once in a block. -/
theorem Recorded.recordedIn (h : st.Recorded) {σ : Symbol} {header : Header}
    (hσ : st.header? σ = some header) : ∃ n, st.RecordedIn σ header n := by
  obtain ⟨n, hn, hscope, hsymbol⟩ := h.registered.complete σ header hσ
  have hentry : ∀ m name, st.namespaces.symbol? m name = some σ ↔ m = n ∧ name = header.name := by
    intro m name
    constructor
    · intro hm
      obtain ⟨header', hheader', hname, hscope'⟩ := h.entry m name σ hm
      obtain rfl : header = header' := Option.some.inj (hσ.symm.trans hheader')
      refine ⟨?_, hname.symm⟩
      have hlt : m < st.namespaces.size := by
        by_contra hlt
        simp [Namespaces.symbol?, Namespaces.node?_eq_none.2 (Nat.not_lt.1 hlt)] at hm
      exact h.registered.tree.nameOf_inj hlt hn (by rw [← hscope', hscope])
    · rintro ⟨rfl, rfl⟩
      exact hsymbol
  obtain ⟨k, hk, hcount⟩ := count_of_nodup_flatMap (h.nodup_listed n)
    (h.balanced.mem_listed.2 ⟨header.name, hsymbol⟩)
  refine ⟨n, hn, hscope, hentry, k, hk, ?_⟩
  intro m j b hb
  by_cases hm : m = n
  · rw [hcount j b (hm ▸ hb)]
    simp only [hm, true_and]
  · rw [if_neg fun hc => hm hc.1, List.count_eq_zero]
    intro hmem
    obtain ⟨name, hname⟩ := h.balanced.mem_listed.1
      (List.mem_flatMap.2 ⟨b, List.mem_of_getElem? hb, hmem⟩)
    exact hm ((hentry m name).1 hname).1

end Store

end ComponentIdl
