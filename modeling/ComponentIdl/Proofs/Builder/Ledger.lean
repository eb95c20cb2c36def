import ComponentIdl.Proofs.Store.Ledger

/-!
# A build records what it declares

An open block is one that its namespace has, whatever was opened and closed before. So a declaration
under a free name is recorded in a block that exists, and names and blocks stay in balance.
-/

namespace ComponentIdl

theorem Opening.sameRecords_foldl (line : Nat) (o : Opening) (path : List String) :
    o.tree.SameRecords (path.foldl (Opening.enter line) o).tree := by
  induction path generalizing o with
  | nil => exact .refl _
  | cons segment path ih =>
    have hfirst : o.tree.SameRecords (o.enter line segment).tree :=
      Namespaces.sameRecords_addChild o.tree o.node segment
    exact hfirst.trans (ih (o.enter line segment))

namespace Builder

variable {b b' : Builder} {v : Visit}

theorem sameRecords_opening (b : Builder) (d : Decl.Block) :
    b.store.namespaces.SameRecords (b.opening d).tree :=
  Opening.sameRecords_foldl d.line ⟨b.store.namespaces, _, []⟩ (segments d.name)

theorem openBlocks_openBlock (b : Builder) (d : Decl.Block) :
    (b.openBlock d).openBlocks =
      ((b.opening d).node, (b.opening d).tree.nextBlock (b.opening d).node) :: b.openBlocks := rfl

/-- The declarations so far are recorded, and every open block exists. -/
structure Recording (b : Builder) : Prop where
  store : b.store.Recorded
  blocks : ∀ x ∈ b.openBlocks, x.2 < (b.store.namespaces.blocks x.1).length

theorem Recording.leads (h : b.Recording) (d : Decl.Block) :
    Opening.Leads ⟨b.store.namespaces, match b.openBlocks with
      | [] => Namespaces.root
      | (node, _) :: _ => node, []⟩ (b.opening d) :=
  leads_opening h.store.registered.tree
    (fun x hx => Namespaces.lt_size_of_block (h.blocks x hx)) d

theorem Recording.openBlock (h : b.Recording) (d : Decl.Block) : (b.openBlock d).Recording := by
  have hleads := h.leads d
  have hrecords := b.sameRecords_opening d
  have htree := namespaces_openBlock b d
  constructor
  · apply h.store.extends (b.sameHeaders_openBlock d)
    · rw [htree]
      exact hleads.extends_.trans (Namespaces.extends_openBlock _ _ _)
    · rw [htree]
      exact hleads.tree.of_sameShape (Namespaces.sameShape_openBlock _ _ _)
    · rw [htree]
      exact (h.store.balanced.of_sameRecords hrecords).openBlock hleads.node d.line
  · intro x hx
    rw [openBlocks_openBlock] at hx
    rw [htree, Namespaces.blocks_openBlock hleads.node, hrecords.blocks]
    rcases List.mem_cons.1 hx with rfl | hx
    · -- The block just opened comes after all blocks of its namespace.
      rw [if_pos rfl, List.length_append, Namespaces.nextBlock_eq, hrecords.blocks]
      exact Nat.lt_succ_self _
    · have hold := h.blocks x hx
      split
      · next heq =>
        rw [List.length_append, ← heq]
        exact Nat.lt_add_right _ hold
      · rw [hrecords.blocks]
        exact hold

theorem Recording.declares (h : b.Recording) {node : NamespaceId} {block : Nat} {entity : Entity}
    (hd : Declares b b' v node block entity) : b'.Recording := by
  have hblock := h.blocks _ hd.isOpen
  have htree : b'.store.namespaces = b.store.namespaces.modify node fun n =>
      Namespaces.Namespace.addSymbol n block entity.header.name (b.store.nextSymbol entity) := by
    rw [hd.store]
    unfold Store.declare
    rw [Namespaces.addSymbol_free hd.free]
  constructor
  · rw [hd.store]
    exact h.store.declare hblock hd.scope hd.free
  · intro x hx
    have hold := h.blocks x (hd.blocks ▸ hx)
    rw [htree, Namespaces.blocks_addSymbol (Namespaces.lt_size_of_block hblock)]
    split
    · next heq =>
      rw [List.length_modify, ← heq]
      exact hold
    · exact hold

theorem Recording.step (h : b.Recording) (hs : Step b v b') : b'.Recording := by
  rcases hs.header_cases with ⟨hsame, htree, -, hblocks⟩ | ⟨d, rfl⟩ | ⟨_, _, _, hd⟩
  · refine ⟨h.store.of_sameHeaders hsame htree, ?_⟩
    intro x hx
    rw [htree]
    exact h.blocks x (hblocks hx)
  · exact h.openBlock d
  · exact h.declares hd

theorem Recording.run (h : b.Recording) (visits : List Visit) : (b.run visits).Recording :=
  run_preserves visits (fun v _ _ hb => hb.step (step_visit _ v)) h

/-- Where a declaration would go, a free name can be recorded. -/
theorem Recording.accepts (h : b.Recording) {x : NamespaceId × Nat} (hx : x ∈ b.openBlocks) :
    b.store.namespaces.Accepts x.1 x.2 :=
  Namespaces.accepts_of_block (h.blocks x hx)

end Builder

theorem Workspace.recording_builder {w : Workspace} (h : w.store.Recorded) : w.builder.Recording :=
  ⟨h, fun _ hx => absurd hx List.not_mem_nil⟩

end ComponentIdl
