import ComponentIdl.Proofs.Builder.Whole
import ComponentIdl.Proofs.Store.Unblocked

/-!
# The same namespaces in other blocks

A block can be split in two, and a block with a dotted name is a block inside another one. A build
meets the same declarations in the same namespaces either way: only the blocks differ. What a build
does next depends on the tree without its blocks and on the innermost namespace, not on the blocks that
are open around it.
-/

namespace ComponentIdl

/-- Two ways to write the same items: a block against two blocks that share its items, and a block
with a dotted name against a block in a block. -/
inductive Decl.Regroups : List Decl.Item → List Decl.Item → Prop where
  | split (name : String) (line : Nat) (items more : List Decl.Item) :
      Regroups [.block name line (items ++ more)] [.block name line items, .block name line more]
  | nest (outer inner : String) (line : Nat) (items : List Decl.Item) :
      Regroups [.block (outer ++ "." ++ inner) line items]
        [.block outer line [.block inner line items]]

namespace Opening

variable {o : Opening} {line : Nat} {segment : String} {path : List String}

def withoutBlocks (o : Opening) : Opening := { o with tree := o.tree.withoutBlocks }

/-- The same opening, after something was found. -/
def having (found : List Diagnostic) (o : Opening) : Opening := { o with found := found ++ o.found }

theorem enter_withoutBlocks :
    o.withoutBlocks.enter line segment = (o.enter line segment).withoutBlocks := by
  have hshape := o.tree.sameShape_withoutBlocks
  unfold enter withoutBlocks
  simp only [← hshape.child?, ← hshape.caseVariant?, ← hshape.nameOf,
    Namespaces.withoutBlocks_addChild]

theorem enter_having (found : List Diagnostic) :
    (o.having found).enter line segment = (o.enter line segment).having found := by
  unfold enter having
  dsimp only
  split
  · rw [List.append_assoc]
  · rfl

theorem foldl_withoutBlocks :
    path.foldl (enter line) o.withoutBlocks = (path.foldl (enter line) o).withoutBlocks := by
  induction path generalizing o with
  | nil => rfl
  | cons segment path ih => rw [List.foldl_cons, enter_withoutBlocks, ih, List.foldl_cons]

theorem foldl_having (found : List Diagnostic) :
    path.foldl (enter line) (o.having found) = (path.foldl (enter line) o).having found := by
  induction path generalizing o with
  | nil => rfl
  | cons segment path ih => rw [List.foldl_cons, enter_having, ih, List.foldl_cons]

theorem keepsChildren_foldl :
    o.tree.KeepsChildren (path.foldl (enter line) o).tree := by
  induction path generalizing o with
  | nil => exact fun _ _ _ hc => hc
  | cons segment path ih =>
    have hfirst := Namespaces.keepsChildren_addChild o.tree o.node segment
    exact hfirst.trans (ih (o := o.enter line segment))

/-- Where the path has led, it leads again. -/
theorem walk?_foldl (ht : o.tree.Proper) (hn : o.node < o.tree.size)
    (hs : ∀ s ∈ path, IsSegment s) :
    (path.foldl (enter line) o).tree.walk? o.node path =
      some (path.foldl (enter line) o).node := by
  induction path generalizing o with
  | nil => rfl
  | cons segment path ih =>
    obtain ⟨hsegment, hpath⟩ := List.forall_mem_cons.1 hs
    have hfirst := leads_enter line ht hn hsegment
    have hchild : (o.enter line segment).tree.child? o.node segment =
        some (o.enter line segment).node := Namespaces.child?_addChild hn segment
    rw [List.foldl_cons, Namespaces.walk?, keepsChildren_foldl _ _ _ hchild, Option.bind_some]
    exact ih hfirst.tree hfirst.node hpath

/-- A path that leads to a node is followed, and nothing is added or found. -/
theorem foldl_of_walk? {c : NamespaceId} (h : o.tree.walk? o.node path = some c) :
    path.foldl (enter line) o = { o with node := c } := by
  induction path generalizing o with
  | nil => rw [← Option.some.inj h]; rfl
  | cons segment path ih =>
    rw [Namespaces.walk?] at h
    obtain ⟨m, hm, hrest⟩ := Option.bind_eq_some_iff.1 h
    rw [List.foldl_cons, enter_known line hm]
    exact ih (o := { o with node := m }) hrest

end Opening

namespace Builder

variable {b b' b'' : Builder} {d : Decl.Block}

/-! ### Builders that differ in blocks only -/

/-- The namespace of the innermost open block. -/
def innermost? (b : Builder) : Option NamespaceId := b.openBlocks.head?.map Prod.fst

/-- The builders differ in nothing that a later declaration depends on. -/
structure Alike (b b' : Builder) : Prop where
  assembly : b'.assembly = b.assembly
  store : b'.store.withoutBlocks = b.store.withoutBlocks
  symbols : b'.symbols = b.symbols
  found : b'.found = b.found
  innermost : b'.innermost? = b.innermost?

theorem Alike.refl (b : Builder) : b.Alike b := ⟨rfl, rfl, rfl, rfl, rfl⟩

theorem Alike.trans (h : b.Alike b') (h' : b'.Alike b'') : b.Alike b'' :=
  ⟨h'.assembly.trans h.assembly, h'.store.trans h.store, h'.symbols.trans h.symbols,
    h'.found.trans h.found, h'.innermost.trans h.innermost⟩

theorem Alike.tree (h : b.Alike b') :
    b'.store.namespaces.withoutBlocks = b.store.namespaces.withoutBlocks :=
  congrArg Store.namespaces h.store

theorem Alike.shape (h : b.Alike b') : b.store.namespaces.SameShape b'.store.namespaces :=
  Namespaces.sameShape_of_withoutBlocks h.tree

theorem Alike.symbol? (h : b.Alike b') (n : NamespaceId) (name : String) :
    b'.store.namespaces.symbol? n name = b.store.namespaces.symbol? n name :=
  Namespaces.symbol?_of_withoutBlocks h.tree n name

theorem opening_eq (b : Builder) (d : Decl.Block) :
    b.opening d = (segments d.name).foldl (Opening.enter d.line)
      ⟨b.store.namespaces, b.innermost?.getD Namespaces.root, []⟩ := by
  unfold opening innermost?
  cases b.openBlocks <;> rfl

theorem Alike.opening (h : b.Alike b') (d : Decl.Block) :
    (b'.opening d).withoutBlocks = (b.opening d).withoutBlocks := by
  rw [opening_eq, opening_eq, ← Opening.foldl_withoutBlocks, ← Opening.foldl_withoutBlocks,
    h.innermost]
  unfold Opening.withoutBlocks
  dsimp only
  rw [h.tree]

theorem openBlock_eq (b : Builder) (d : Decl.Block) :
    b.openBlock d =
      { b with
        store := { b.store with
          namespaces := ((b.opening d).tree.openBlock (b.opening d).node d.line).1 }
        found := b.found ++ (b.opening d).found
        openBlocks :=
          ((b.opening d).node, (b.opening d).tree.nextBlock (b.opening d).node) :: b.openBlocks
        tally := { b.tally with blocks := b.tally.blocks + 1 } } := by
  unfold openBlock opening
  rfl

theorem found_openBlock (b : Builder) (d : Decl.Block) :
    (b.openBlock d).found = b.found ++ (b.opening d).found := by
  rw [openBlock_eq]

theorem assembly_openBlock (b : Builder) (d : Decl.Block) :
    (b.openBlock d).assembly = b.assembly := by
  rw [openBlock_eq]

theorem innermost?_openBlock (b : Builder) (d : Decl.Block) :
    (b.openBlock d).innermost? = some (b.opening d).node := by
  rw [openBlock_eq]
  rfl

theorem store_openBlock (b : Builder) (d : Decl.Block) :
    (b.openBlock d).store.withoutBlocks =
      { b.store with namespaces := (b.opening d).withoutBlocks.tree } := by
  rw [openBlock_eq]
  exact congrArg (fun tree => { b.store with namespaces := tree })
    ((b.opening d).tree.withoutBlocks_openBlock (b.opening d).node d.line)

theorem Alike.openBlock (h : b.Alike b') (d : Decl.Block) :
    (b.openBlock d).Alike (b'.openBlock d) := by
  have hopening := h.opening d
  obtain ⟨-, hnode, hfound⟩ := Opening.mk.inj hopening
  refine ⟨?_, ?_, ?_, ?_, ?_⟩
  · rw [assembly_openBlock, assembly_openBlock, h.assembly]
  · rw [store_openBlock, store_openBlock, hopening]
    exact congrArg (fun st => { st with namespaces := (b.opening d).withoutBlocks.tree }) h.store
  · rw [symbols_openBlock, symbols_openBlock, h.symbols]
  · rw [found_openBlock, found_openBlock, h.found, hfound]
  · rw [innermost?_openBlock, innermost?_openBlock, hnode]

theorem Alike.accept (h : b.Alike b') (d : Decl.TypeDecl) : (b.accept d).Alike (b'.accept d) := by
  cases hopen : b.openBlocks with
  | nil =>
    have hinnermost := h.innermost
    simp only [innermost?, hopen, List.head?_nil, Option.map_none, Option.map_eq_none_iff,
      List.head?_eq_none_iff] at hinnermost
    rw [accept_closed hopen, accept_closed hinnermost]
    exact h
  | cons head rest =>
    obtain ⟨node, block⟩ := head
    obtain ⟨block', rest', hopen'⟩ : ∃ block' rest', b'.openBlocks = (node, block') :: rest' := by
      have hinnermost := h.innermost
      unfold innermost? at hinnermost
      rw [hopen] at hinnermost
      cases hopen' : b'.openBlocks with
      | nil => simp [hopen'] at hinnermost
      | cons head' rest' =>
        rw [hopen'] at hinnermost
        have hnode : head'.1 = node := Option.some.inj hinnermost
        exact ⟨head'.2, rest', by rw [← hnode]⟩
    have hheader : b'.headerOf node d = b.headerOf node d := by
      unfold headerOf
      rw [h.shape.nameOf, h.assembly]
    have hinnermost : ∀ b₁ b₂ : Builder, b₁.openBlocks = b.openBlocks →
        b₂.openBlocks = b'.openBlocks → b₂.innermost? = b₁.innermost? := by
      intro b₁ b₂ h₁ h₂
      unfold innermost?
      rw [h₁, h₂]
      exact h.innermost
    cases hs : b.store.namespaces.symbol? node d.name with
    | some σ =>
      rw [accept_taken hopen hs, accept_taken hopen' ((h.symbol? node d.name).trans hs), hheader]
      exact ⟨h.assembly, h.store, h.symbols, congrArg (· ++ _) h.found, hinnermost _ _ rfl rfl⟩
    | none =>
      have hs' := (h.symbol? node d.name).trans hs
      have hnext : ∀ e, b'.store.nextSymbol e = b.store.nextSymbol e := by
        intro e
        rw [← Store.nextSymbol_withoutBlocks, h.store, Store.nextSymbol_withoutBlocks]
      rw [accept_free hopen hs, accept_free hopen' hs', hheader]
      refine ⟨h.assembly, ?_, ?_, congrArg (· ++ _) h.found, hinnermost _ _ rfl rfl⟩
      · dsimp only
        rw [Store.withoutBlocks_declare _ _ _ block _ _ hs', h.store,
          Store.withoutBlocks_declare _ _ _ block _ _ hs]
      · dsimp only
        rw [h.symbols, hnext]

theorem Registered.closeBlock (h : b.Registered) : b.closeBlock.Registered :=
  ⟨h.store, fun x hx => h.blocks x (List.mem_of_mem_tail hx), h.table⟩

theorem rest_accept (b : Builder) (d : Decl.TypeDecl) : (b.accept d).rest = b.rest.accept d := by
  cases hopen : b.openBlocks with
  | nil => rw [accept_closed hopen, accept_closed (b := b.rest) hopen]
  | cons head rest =>
    cases hs : b.store.namespaces.symbol? head.1 d.name with
    | some σ =>
      rw [accept_taken hopen hs, accept_taken (b := b.rest) hopen hs]
      rfl
    | none =>
      rw [accept_free hopen hs, accept_free (b := b.rest) hopen hs]
      rfl

/-- What holds after the visits of a type holds after it is accepted, if the members that are visited
make no difference to it. -/
theorem accept_of_run {P : Builder → Prop} {d : Decl.TypeDecl} (hrest : ∀ b, P b.rest ↔ P b)
    (hrun : P (b.run d.visits)) : P (b.accept d) := by
  rw [← hrest, rest_accept, ← rest_run_visits, hrest]
  exact hrun

theorem Registered.accept (h : b.Registered) (d : Decl.TypeDecl) : (b.accept d).Registered :=
  accept_of_run
    (fun _ => ⟨fun h => ⟨h.store, h.blocks, h.table⟩, fun h => ⟨h.store, h.blocks, h.table⟩⟩)
    (h.run d.visits)

theorem sameShape_accept (b : Builder) (d : Decl.TypeDecl) :
    b.store.namespaces.SameShape (b.accept d).store.namespaces := by
  cases hopen : b.openBlocks with
  | nil => rw [accept_closed hopen]; exact .refl _
  | cons head rest =>
    cases hs : b.store.namespaces.symbol? head.1 d.name with
    | some σ => rw [accept_taken hopen hs]; exact .refl _
    | none => rw [accept_free hopen hs]; exact b.store.sameShape_declare _ _ _ _

theorem keepsChildren_openBlock (b : Builder) (d : Decl.Block) :
    b.store.namespaces.KeepsChildren (b.openBlock d).store.namespaces := by
  have hpath : b.store.namespaces.KeepsChildren (b.opening d).tree := by
    rw [opening_eq]
    exact Opening.keepsChildren_foldl (o := ⟨b.store.namespaces, _, []⟩)
  exact hpath.trans (Namespaces.sameShape_openBlock _ _ d.line).keepsChildren

theorem keepsChildren_acceptItems (b : Builder) (is : List Decl.Item) :
    b.store.namespaces.KeepsChildren (b.acceptItems is).store.namespaces := by
  have hkeeps : Simulation fun c _ => b.store.namespaces.KeepsChildren c.store.namespaces :=
    { accept := fun c _ d hc => hc.trans (sameShape_accept c d).keepsChildren
      openBlock := fun c _ d hc => hc.trans (keepsChildren_openBlock c d)
      closeBlock := fun _ _ _ _ _ hc _ _ => hc }
  exact hkeeps.items is b b fun _ _ _ hc => hc

/-- Both builders have registered what they declare, and they differ in blocks only. -/
structure Regrouped (b b' : Builder) : Prop where
  left : b.Registered
  right : b'.Registered
  alike : b.Alike b'

theorem simulation_regrouped : Simulation Regrouped where
  accept _ _ d h := ⟨h.left.accept d, h.right.accept d, h.alike.accept d⟩
  openBlock _ _ d h := ⟨h.left.openBlock d, h.right.openBlock d, h.alike.openBlock d⟩
  closeBlock b b' c c' hb hc htail htail' := by
    refine ⟨hc.left.closeBlock, hc.right.closeBlock, hc.alike.assembly, hc.alike.store,
      hc.alike.symbols, hc.alike.found, ?_⟩
    unfold innermost? closeBlock
    rw [htail, htail']
    exact hb.alike.innermost

theorem Registered.acceptItems (h : b.Registered) (is : List Decl.Item) :
    (b.acceptItems is).Registered :=
  (simulation_regrouped.items is b b ⟨h, h, .refl b⟩).left

/-! ### Blocks split and nested -/

theorem walk?_opening (h : b.Registered) (d : Decl.Block) :
    (b.opening d).tree.walk? (b.innermost?.getD Namespaces.root) (segments d.name) =
      some (b.opening d).node := by
  have hstart : b.innermost?.getD Namespaces.root < b.store.namespaces.size := by
    have hlt := start_lt_size h.store.tree h.blocks
    unfold innermost?
    cases hb : b.openBlocks <;> rw [hb] at hlt <;> exact hlt
  rw [opening_eq]
  exact Opening.walk?_foldl (o := ⟨b.store.namespaces, _, []⟩) h.store.tree hstart
    fun _ hs => isSegment_of_mem hs

theorem innermost?_acceptItems (b : Builder) (is : List Decl.Item) :
    (b.acceptItems is).innermost? = b.innermost? := by
  rw [innermost?, openBlocks_acceptItems, innermost?]

theorem innermost?_closed (b : Builder) (d : Decl.Block) (is : List Decl.Item) :
    ((b.openBlock d).acceptItems is).closeBlock.innermost? = b.innermost? := by
  unfold innermost? closeBlock
  rw [openBlocks_acceptItems, openBlock_eq]
  rfl

/-- A block is opened again where it was before. -/
theorem opening_reopened (h : b.Registered) (d : Decl.Block) (is : List Decl.Item) :
    ((b.openBlock d).acceptItems is).closeBlock.opening d =
      ⟨((b.openBlock d).acceptItems is).store.namespaces, (b.opening d).node, []⟩ := by
  have hopened := (Namespaces.sameShape_openBlock (b.opening d).tree (b.opening d).node
    d.line).keepsChildren
  have hitems := keepsChildren_acceptItems (b.openBlock d) is
  rw [namespaces_openBlock] at hitems
  rw [opening_eq, innermost?_closed]
  exact Opening.foldl_of_walk? (o := ⟨((b.openBlock d).acceptItems is).store.namespaces, _, []⟩)
    ((hopened.trans hitems).walk? (walk?_opening h d))

/-- A block closed and opened again is like a block that stays open. -/
theorem alike_reopened (h : b.Registered) (d : Decl.Block) (is : List Decl.Item) :
    ((b.openBlock d).acceptItems is).Alike
      (((b.openBlock d).acceptItems is).closeBlock.openBlock d) := by
  have hopening := opening_reopened h d is
  refine ⟨?_, ?_, ?_, ?_, ?_⟩
  · rw [assembly_openBlock, closeBlock]
  · rw [store_openBlock, hopening]
    rfl
  · rw [symbols_openBlock, closeBlock]
  · rw [found_openBlock, hopening, List.append_nil, closeBlock]
  · rw [innermost?_openBlock, hopening, innermost?_acceptItems, innermost?_openBlock]

/-- The inner path is walked from where the outer one has led, with nothing found before. -/
theorem opening_nested (b : Builder) (outer inner : String) (line : Nat) (items : List Decl.Item) :
    (b.opening ⟨outer ++ "." ++ inner, line, items⟩).withoutBlocks =
      ((b.openBlock ⟨outer, line, [.block inner line items]⟩).opening
        ⟨inner, line, items⟩).withoutBlocks.having
          (b.opening ⟨outer, line, [.block inner line items]⟩).found := by
  have hdotted : b.opening ⟨outer ++ "." ++ inner, line, items⟩ =
      (segments inner).foldl (Opening.enter line)
        (b.opening ⟨outer, line, [.block inner line items]⟩) := by
    unfold opening
    rw [segments_dot, List.foldl_append]
  have htree := congrArg Store.namespaces
    (store_openBlock b ⟨outer, line, [.block inner line items]⟩)
  have htree : (b.openBlock ⟨outer, line, [.block inner line items]⟩).store.namespaces.withoutBlocks =
      (b.opening ⟨outer, line, [.block inner line items]⟩).tree.withoutBlocks := htree
  rw [hdotted, opening_eq (b.openBlock _), innermost?_openBlock, ← Opening.foldl_withoutBlocks,
    ← Opening.foldl_withoutBlocks, ← Opening.foldl_having]
  unfold Opening.withoutBlocks Opening.having
  dsimp only
  rw [List.append_nil, htree, Option.getD_some]

/-- A block with a dotted name is like a block in a block. -/
theorem alike_nested (b : Builder) (outer inner : String) (line : Nat) (items : List Decl.Item) :
    (b.openBlock ⟨outer ++ "." ++ inner, line, items⟩).Alike
      ((b.openBlock ⟨outer, line, [.block inner line items]⟩).openBlock ⟨inner, line, items⟩) := by
  have hopening := opening_nested b outer inner line items
  obtain ⟨-, hnode, hfound⟩ := Opening.mk.inj hopening
  refine ⟨?_, ?_, ?_, ?_, ?_⟩
  · rw [assembly_openBlock, assembly_openBlock, assembly_openBlock]
  · have hstore : ∀ (st : Store) (tree : Namespaces), ({ st with namespaces := tree } : Store) =
        { st.withoutBlocks with namespaces := tree } := fun _ _ => rfl
    rw [store_openBlock, store_openBlock, hopening, hstore (b.openBlock _).store, store_openBlock]
    rfl
  · rw [symbols_openBlock, symbols_openBlock, symbols_openBlock]
  · rw [found_openBlock, found_openBlock, found_openBlock, List.append_assoc]
    exact congrArg (b.found ++ ·) hfound.symm
  · rw [innermost?_openBlock, innermost?_openBlock]
    exact congrArg some hnode.symm

theorem acceptItems_block (b : Builder) (name : String) (line : Nat) (items more : List Decl.Item) :
    b.acceptItems (.block name line items :: more) =
      (((b.openBlock ⟨name, line, items⟩).acceptItems items).closeBlock).acceptItems more := by
  rw [acceptItems, acceptItem]

theorem acceptItems_nil (b : Builder) : b.acceptItems [] = b := by
  rw [acceptItems]

/-- Items written in other blocks build the same. -/
theorem alike_of_regroups (h : b.Registered) {is is' : List Decl.Item} (hr : Decl.Regroups is is') :
    (b.acceptItems is).Alike (b.acceptItems is') := by
  have hinnermost : (b.acceptItems is').innermost? = (b.acceptItems is).innermost? := by
    rw [innermost?_acceptItems, innermost?_acceptItems]
  cases hr with
  | split name line items more =>
    have hreopened := alike_reopened h ⟨name, line, items⟩ items
    have hopened := (h.openBlock ⟨name, line, items⟩).acceptItems items
    have hmore := (simulation_regrouped.items more _ _
      ⟨hopened, hopened.closeBlock.openBlock ⟨name, line, items⟩, hreopened⟩).alike
    revert hinnermost
    rw [acceptItems_block, acceptItems_block, acceptItems_block, acceptItems_nil, acceptItems_nil,
      acceptItems_append]
    exact fun hinnermost => ⟨hmore.assembly, hmore.store, hmore.symbols, hmore.found, hinnermost⟩
  | nest outer inner line items =>
    have hnested := alike_nested b outer inner line items
    have hitems := (simulation_regrouped.items items _ _
      ⟨h.openBlock _, (h.openBlock ⟨outer, line, _⟩).openBlock ⟨inner, line, items⟩, hnested⟩).alike
    revert hinnermost
    rw [acceptItems_block, acceptItems_block, acceptItems_block, acceptItems_nil, acceptItems_nil,
      acceptItems_nil]
    exact fun hinnermost => ⟨hitems.assembly, hitems.store, hitems.symbols, hitems.found, hinnermost⟩

theorem Regrouped.within {is is' : List Decl.Item} (hw : Decl.Within Decl.Regroups is is')
    (h : b.Regrouped b') : (b.acceptItems is).Regrouped (b'.acceptItems is') := by
  refine simulation_regrouped.within ?_ hw h
  intro is is' b b' hr hb
  exact ⟨hb.left.acceptItems is, hb.right.acceptItems is',
    (simulation_regrouped.items is b b' hb).alike.trans (alike_of_regroups hb.right hr)⟩

end Builder

end ComponentIdl
