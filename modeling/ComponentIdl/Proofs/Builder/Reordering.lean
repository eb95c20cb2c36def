import ComponentIdl.Proofs.Builder.Ledger
import ComponentIdl.Proofs.Builder.Regrouping
import ComponentIdl.Proofs.Store.Entities

/-!
# Declarations in another order

What a build makes of a declaration depends on its name and namespace and on what was declared there
before under the same name. The slots that declarations get depend on their order, but no declaration
tells its slot: so two builds that meet the same declarations in another order have the same
declarations under the same names.
-/

namespace ComponentIdl

/-- Two neighbours of different names change places. -/
inductive Decl.Reorders : List Decl.Item → List Decl.Item → Prop where
  | swap (d d' : Decl.TypeDecl) (h : d.name ≠ d'.name) :
      Reorders [.type d, .type d'] [.type d', .type d]

theorem dottedName_inj {h h' : Header} (hscope : h.scope = h'.scope)
    (heq : h.dottedName = h'.dottedName) : h.name = h'.name := by
  have hlast : ∀ (path : List String) (a b : String),
      ".".intercalate (path ++ [a]) = ".".intercalate (path ++ [b]) → a = b := by
    intro path a b
    induction path with
    | nil =>
      intro h
      simpa using h
    | cons s path ih =>
      intro h
      rw [List.cons_append, List.cons_append, String.intercalate_cons_of_ne_nil (by simp),
        String.intercalate_cons_of_ne_nil (by simp)] at h
      exact ih (String.append_right_inj _ |>.1 h)
  unfold Header.dottedName at heq
  rw [hscope] at heq
  exact hlast _ _ _ heq

namespace Builder

variable {b b' c : Builder} {node : NamespaceId} {d d' : Decl.TypeDecl}

/-- The declaration under a simple name in a namespace. -/
def named? (b : Builder) (n : NamespaceId) (name : String) : Option Entity :=
  (b.store.namespaces.symbol? n name).bind b.store.entity?

/-- The declaration under a dotted name in the name table. -/
def tabled? (b : Builder) (key : String) : Option Entity :=
  (b.symbols.get? key).bind b.store.entity?

/-- Every name is that of a declaration, and every declaration is recorded under its name. -/
structure Sound (b : Builder) : Prop where
  registered : b.Registered
  recording : b.Recording

theorem Sound.held (h : b.Sound) {n : NamespaceId} {name : String} {σ : Symbol}
    (hσ : b.store.namespaces.symbol? n name = some σ) : ∃ e, b.store.entity? σ = some e := by
  obtain ⟨header, hheader, -⟩ := h.recording.store.entry n name σ hσ
  obtain ⟨e, he, -⟩ := Store.holds_of_header? hheader
  exact ⟨e, Store.holds_iff.1 he⟩

theorem Sound.tabled (h : b.Sound) {key : String} {σ : Symbol} (hσ : b.symbols.get? key = some σ) :
    ∃ e, b.store.entity? σ = some e := by
  obtain ⟨header, hheader, -⟩ := h.registered.table key σ hσ
  obtain ⟨e, he, -⟩ := Store.holds_of_header? hheader
  exact ⟨e, Store.holds_iff.1 he⟩

theorem Sound.named?_eq_none (h : b.Sound) {n : NamespaceId} {name : String} :
    b.named? n name = none ↔ b.store.namespaces.symbol? n name = none := by
  unfold named?
  cases hσ : b.store.namespaces.symbol? n name with
  | none => simp
  | some σ =>
    obtain ⟨e, he⟩ := h.held hσ
    simp [he]

theorem Sound.accept (h : b.Sound) (d : Decl.TypeDecl) : (b.accept d).Sound :=
  ⟨h.registered.accept d, accept_of_run
    (fun _ => ⟨fun h => ⟨h.store, h.blocks⟩, fun h => ⟨h.store, h.blocks⟩⟩)
    (h.recording.run d.visits)⟩

theorem Sound.openBlock (h : b.Sound) (d : Decl.Block) : (b.openBlock d).Sound :=
  ⟨h.registered.openBlock d, h.recording.openBlock d⟩

theorem Sound.closeBlock (h : b.Sound) : b.closeBlock.Sound :=
  ⟨h.registered.closeBlock, h.recording.store,
    fun x hx => h.recording.blocks x (List.mem_of_mem_tail hx)⟩

/-! ### What is added for a declaration -/

/-- What is declared for a type: nothing, if its name is taken. -/
def gain (b : Builder) (node : NamespaceId) (d : Decl.TypeDecl) : Option Entity :=
  match b.named? node d.name with
  | some _ => none
  | none => some (d.built (b.headerOf node d))

/-- What is reported for a type: that its name is taken, or what is wrong with its members. -/
def notes (b : Builder) (node : NamespaceId) (d : Decl.TypeDecl) : List Diagnostic :=
  match b.named? node d.name with
  | some _ => [.of .duplicateNamespaceMember d.line (b.headerOf node d).dottedName]
  | none => d.faults (b.headerOf node d)

/-- `c` is the builder `b` after a type in the namespace `node`. -/
structure Accepts (b : Builder) (node : NamespaceId) (d : Decl.TypeDecl) (c : Builder) : Prop where
  assembly : c.assembly = b.assembly
  shape : b.store.namespaces.SameShape c.store.namespaces
  blocks : c.openBlocks = b.openBlocks
  catalog : c.symbols.catalog = b.symbols.catalog
  entry : ∀ n name, c.named? n name =
    if n = node ∧ name = d.name then (b.named? n name).or (b.gain node d) else b.named? n name
  tabled : ∀ key, c.tabled? key =
    if key = (b.headerOf node d).dottedName then (b.tabled? key).or (b.gain node d)
      else b.tabled? key
  entities : c.store.entities.Perm ((b.gain node d).toList ++ b.store.entities)
  found : c.found = b.found ++ b.notes node d

theorem innermost?_eq_some : b.innermost? = some node ↔
    ∃ block rest, b.openBlocks = (node, block) :: rest := by
  unfold innermost?
  cases b.openBlocks with
  | nil => simp
  | cons head rest =>
    obtain ⟨n, block⟩ := head
    simp

theorem accepts_taken (hnode : b.innermost? = some node) {e : Entity}
    (hentry : b.named? node d.name = some e) : b.Accepts node d (b.accept d) := by
  obtain ⟨block, rest, hopen⟩ := innermost?_eq_some.1 hnode
  obtain ⟨σ, hσ, -⟩ := Option.bind_eq_some_iff.1 hentry
  have hgain : b.gain node d = none := by
    unfold gain
    rw [hentry]
  have hnotes : b.notes node d =
      [.of .duplicateNamespaceMember d.line (b.headerOf node d).dottedName] := by
    unfold notes
    rw [hentry]
  rw [accept_taken hopen hσ]
  refine ⟨rfl, .refl _, rfl, rfl, ?_, ?_, ?_, ?_⟩
  · intro n name
    rw [hgain, Option.or_none, ite_self]
    rfl
  · intro key
    rw [hgain, Option.or_none, ite_self]
    rfl
  · rw [hgain]
    exact .refl _
  · rw [hnotes]
    rfl

theorem accepts_free (h : b.Sound) (hnode : b.innermost? = some node)
    (hentry : b.named? node d.name = none) : b.Accepts node d (b.accept d) := by
  obtain ⟨block, rest, hopen⟩ := innermost?_eq_some.1 hnode
  have hfree := h.named?_eq_none.1 hentry
  have hlt : node < b.store.namespaces.size :=
    h.registered.blocks (node, block) (hopen ▸ List.mem_cons_self)
  have hgain : b.gain node d = some (d.built (b.headerOf node d)) := by
    unfold gain
    rw [hentry]
  have hnotes : b.notes node d = d.faults (b.headerOf node d) := by
    unfold notes
    rw [hentry]
  rw [accept_free hopen hfree]
  generalize d.built (b.headerOf node d) = e at hgain
  -- Declarations before keep their slots, and the new one has a slot that was free.
  have hentity : ∀ σ, (b.store.declare node block d.name e).entity? σ =
      if σ = b.store.nextSymbol e then some e else b.store.entity? σ := by
    intro σ
    rw [Store.entity?_declare, Store.entity?_add]
  have hold : ∀ σ e', b.store.entity? σ = some e' →
      (b.store.declare node block d.name e).entity? σ = some e' := by
    intro σ e' he'
    rw [hentity, if_neg]
    · exact he'
    · rintro rfl
      rw [Store.entity?_nextSymbol] at he'
      simp at he'
  have hbind : ∀ {σ? : Option Symbol}, (∀ σ, σ? = some σ → ∃ e, b.store.entity? σ = some e) →
      σ?.bind (b.store.declare node block d.name e).entity? = σ?.bind b.store.entity? := by
    intro σ? hheld
    cases σ? with
    | none => rfl
    | some σ =>
      obtain ⟨e', he'⟩ := hheld σ rfl
      rw [Option.bind_some, Option.bind_some, he', hold σ e' he']
  refine ⟨rfl, b.store.sameShape_declare node block d.name e, rfl, rfl, ?_, ?_, ?_, ?_⟩
  · intro n name
    have hsymbol : (b.store.declare node block d.name e).namespaces.symbol? n name =
        if n = node ∧ name = d.name then some (b.store.nextSymbol e)
          else b.store.namespaces.symbol? n name := by
      rw [Store.declare_free hfree]
      exact Namespaces.symbol?_addSymbol block _ hfree hlt n name
    unfold named?
    rw [hsymbol]
    split
    · next hnew =>
      obtain ⟨rfl, rfl⟩ := hnew
      rw [Option.bind_some, hentity, if_pos rfl, hfree, Option.bind_none, Option.none_or, hgain]
    · exact hbind fun σ hσ => h.held hσ
  · intro key
    have hget : (b.symbols.insert (b.headerOf node d).dottedName (b.store.nextSymbol e)).get? key =
        if key = (b.headerOf node d).dottedName then
          some ((b.symbols.get? (b.headerOf node d).dottedName).getD (b.store.nextSymbol e))
        else b.symbols.get? key := NameTable.get?_insert ..
    unfold tabled?
    rw [hget]
    split
    · next heq =>
      subst heq
      cases hσ : b.symbols.get? (b.headerOf node d).dottedName with
      | none => rw [Option.getD_none, Option.bind_some, hentity, if_pos rfl, Option.bind_none,
          Option.none_or, hgain]
      | some σ =>
        obtain ⟨e', he'⟩ := h.tabled hσ
        rw [Option.getD_some, Option.bind_some, hold σ e' he', Option.bind_some, he', Option.some_or]
    · exact hbind fun σ hσ => h.tabled hσ
  · rw [hgain]
    dsimp only
    rw [Store.entities_declare]
    exact b.store.entities_add e
  · rw [hnotes]

theorem accepts_accept (h : b.Sound) (hnode : b.innermost? = some node) (d : Decl.TypeDecl) :
    b.Accepts node d (b.accept d) := by
  cases hentry : b.named? node d.name with
  | some e => exact accepts_taken hnode hentry
  | none => exact accepts_free h hnode hentry

theorem accept_outside (hnode : b.innermost? = none) (d : Decl.TypeDecl) : b.accept d = b := by
  apply accept_closed
  simpa [innermost?] using hnode

/-! ### Builders with the same declarations -/

/-- The builders have the same declarations under the same names, whatever their slots. -/
structure Reordered (b b' : Builder) : Prop where
  left : b.Sound
  right : b'.Sound
  assembly : b'.assembly = b.assembly
  shape : b.store.namespaces.SameShape b'.store.namespaces
  innermost : b'.innermost? = b.innermost?
  catalog : b'.symbols.catalog = b.symbols.catalog
  entry : ∀ n name, b'.named? n name = b.named? n name
  tabled : ∀ key, b'.tabled? key = b.tabled? key
  entities : b.store.entities.Perm b'.store.entities
  found : b.found.Perm b'.found

theorem Reordered.refl (h : b.Sound) : b.Reordered b :=
  ⟨h, h, rfl, .refl _, rfl, rfl, fun _ _ => rfl, fun _ => rfl, .refl _, .refl _⟩

theorem Reordered.trans (h : b.Reordered b') (h' : b'.Reordered c) : b.Reordered c where
  left := h.left
  right := h'.right
  assembly := h'.assembly.trans h.assembly
  shape := h.shape.trans h'.shape
  innermost := h'.innermost.trans h.innermost
  catalog := h'.catalog.trans h.catalog
  entry n name := (h'.entry n name).trans (h.entry n name)
  tabled key := (h'.tabled key).trans (h.tabled key)
  entities := h.entities.trans h'.entities
  found := h.found.trans h'.found

section Same

variable (hassembly : b'.assembly = b.assembly)
  (hshape : b.store.namespaces.SameShape b'.store.namespaces)
  (hentry : b'.named? node d.name = b.named? node d.name)
include hassembly hshape

theorem headerOf_same : b'.headerOf node d = b.headerOf node d := by
  unfold headerOf
  rw [hassembly, hshape.nameOf]

include hentry

theorem gain_same : b'.gain node d = b.gain node d := by
  unfold gain
  rw [hentry, headerOf_same hassembly hshape]

theorem notes_same : b'.notes node d = b.notes node d := by
  unfold notes
  rw [hentry, headerOf_same hassembly hshape]

end Same

theorem Accepts.innermost (h : b.Accepts node d c) : c.innermost? = b.innermost? :=
  congrArg (fun blocks => blocks.head?.map Prod.fst) h.blocks

theorem Reordered.accept (h : b.Reordered b') (d : Decl.TypeDecl) :
    (b.accept d).Reordered (b'.accept d) := by
  cases hnode : b.innermost? with
  | none =>
    rw [accept_outside hnode, accept_outside (h.innermost.trans hnode)]
    exact h
  | some node =>
    have hleft := accepts_accept h.left hnode d
    have hright := accepts_accept h.right (h.innermost.trans hnode) d
    have hheader : b'.headerOf node d = b.headerOf node d := headerOf_same h.assembly h.shape
    have hgain : b'.gain node d = b.gain node d := gain_same h.assembly h.shape (h.entry _ _)
    have hnotes : b'.notes node d = b.notes node d := notes_same h.assembly h.shape (h.entry _ _)
    refine ⟨h.left.accept d, h.right.accept d, ?_, ?_, ?_, ?_, ?_, ?_, ?_, ?_⟩
    · rw [hright.assembly, hleft.assembly, h.assembly]
    · exact hleft.shape.symm.trans (h.shape.trans hright.shape)
    · rw [hright.innermost, hleft.innermost, h.innermost]
    · rw [hright.catalog, hleft.catalog, h.catalog]
    · intro n name
      rw [hright.entry, hleft.entry, h.entry, hgain]
    · intro key
      rw [hright.tabled, hleft.tabled, h.tabled, hgain, hheader]
    · refine hleft.entities.trans (.trans ?_ hright.entities.symm)
      rw [hgain]
      exact h.entities.append_left _
    · rw [hleft.found, hright.found, hnotes]
      exact h.found.append_right _

/-- Two types of different names are declared the same in either order. -/
theorem reordered_swap (h : b.Sound) (hne : d.name ≠ d'.name) :
    ((b.accept d).accept d').Reordered ((b.accept d').accept d) := by
  cases hnode : b.innermost? with
  | none =>
    rw [accept_outside hnode d, accept_outside hnode d', accept_outside hnode d]
    exact .refl h
  | some node =>
    have hfirst := accepts_accept h hnode d
    have hsecond := accepts_accept (h.accept d) (hfirst.innermost.trans hnode) d'
    have hfirst' := accepts_accept h hnode d'
    have hsecond' := accepts_accept (h.accept d') (hfirst'.innermost.trans hnode) d
    -- The one accepted first changes nothing that the other depends on.
    have hentry : (b.accept d).named? node d'.name = b.named? node d'.name := by
      rw [hfirst.entry, if_neg fun hc => hne hc.2.symm]
    have hentry' : (b.accept d').named? node d.name = b.named? node d.name := by
      rw [hfirst'.entry, if_neg fun hc => hne hc.2]
    have hheader : (b.accept d).headerOf node d' = b.headerOf node d' :=
      headerOf_same hfirst.assembly hfirst.shape
    have hheader' : (b.accept d').headerOf node d = b.headerOf node d :=
      headerOf_same hfirst'.assembly hfirst'.shape
    have hgain := gain_same hfirst.assembly hfirst.shape hentry
    have hgain' := gain_same hfirst'.assembly hfirst'.shape hentry'
    have hnotes := notes_same hfirst.assembly hfirst.shape hentry
    have hnotes' := notes_same hfirst'.assembly hfirst'.shape hentry'
    have hscope : (b.headerOf node d).scope = (b.headerOf node d').scope := rfl
    have hkeys : (b.headerOf node d).dottedName ≠ (b.headerOf node d').dottedName :=
      fun heq => hne (dottedName_inj hscope heq)
    refine ⟨(h.accept d).accept d', (h.accept d').accept d, ?_, ?_, ?_, ?_, ?_, ?_, ?_, ?_⟩
    · rw [hsecond'.assembly, hfirst'.assembly, hsecond.assembly, hfirst.assembly]
    · exact (hfirst.shape.trans hsecond.shape).symm.trans (hfirst'.shape.trans hsecond'.shape)
    · rw [hsecond'.innermost, hfirst'.innermost, hsecond.innermost, hfirst.innermost]
    · rw [hsecond'.catalog, hfirst'.catalog, hsecond.catalog, hfirst.catalog]
    · intro n name
      rw [hsecond'.entry, hfirst'.entry, hsecond.entry, hfirst.entry, hgain, hgain']
      by_cases hd : n = node ∧ name = d.name
      · rw [if_pos hd, if_pos hd, if_neg fun hc => hne (hd.2.symm.trans hc.2),
          if_neg fun hc => hne (hd.2.symm.trans hc.2)]
      · rw [if_neg hd, if_neg hd]
    · intro key
      rw [hsecond'.tabled, hfirst'.tabled, hsecond.tabled, hfirst.tabled, hgain, hgain', hheader,
        hheader']
      by_cases hd : key = (b.headerOf node d).dottedName
      · rw [if_pos hd, if_pos hd, if_neg fun hc => hkeys (hd.symm.trans hc),
          if_neg fun hc => hkeys (hd.symm.trans hc)]
      · rw [if_neg hd, if_neg hd]
    · have hleft := hsecond.entities.trans (hfirst.entities.append_left _)
      have hright := hsecond'.entities.trans (hfirst'.entities.append_left _)
      rw [hgain, ← List.append_assoc] at hleft
      rw [hgain', ← List.append_assoc] at hright
      exact hleft.trans ((List.perm_append_comm.append_right _).trans hright.symm)
    · rw [hsecond.found, hfirst.found, hsecond'.found, hfirst'.found, hnotes, hnotes',
        List.append_assoc, List.append_assoc]
      exact List.perm_append_comm.append_left _

end Builder

/-- Openings at the same node, of trees of the same shape. -/
structure Opening.Same (o o' : Opening) : Prop where
  shape : o.tree.SameShape o'.tree
  node : o'.node = o.node
  found : o'.found = o.found

theorem Opening.Same.enter {o o' : Opening} (h : o.Same o') (line : Nat) (segment : String) :
    (o.enter line segment).Same (o'.enter line segment) := by
  have hadd := h.shape.addChild o.node segment
  refine ⟨?_, ?_, ?_⟩
  · unfold Opening.enter
    rw [h.node]
    exact hadd.1
  · unfold Opening.enter
    rw [h.node]
    exact hadd.2
  · unfold Opening.enter
    dsimp only
    rw [h.node, h.found, h.shape.child?, h.shape.caseVariant?, h.shape.nameOf]

theorem Opening.Same.foldl {o o' : Opening} (h : o.Same o') (line : Nat) (path : List String) :
    (path.foldl (Opening.enter line) o).Same (path.foldl (Opening.enter line) o') := by
  induction path generalizing o o' with
  | nil => exact h
  | cons segment path ih => exact ih (h.enter line segment)

namespace Builder

variable {b b' c : Builder}

theorem named?_openBlock (h : b.Registered) (d : Decl.Block) (n : NamespaceId) (name : String) :
    (b.openBlock d).named? n name = b.named? n name := by
  have hextends := (h.leads d).extends_.trans (Namespaces.extends_openBlock (b.opening d).tree
    (b.opening d).node d.line)
  have hsymbol : (b.openBlock d).store.namespaces.symbol? n name =
      b.store.namespaces.symbol? n name := by
    rw [namespaces_openBlock]
    exact hextends.symbol? n name
  unfold named?
  rw [hsymbol, openBlock_eq]
  exact Option.bind_congr fun σ _ => Store.entity?_tree ..

theorem tabled?_openBlock (d : Decl.Block) (key : String) :
    (b.openBlock d).tabled? key = b.tabled? key := by
  unfold tabled?
  rw [openBlock_eq]
  exact Option.bind_congr fun σ _ => Store.entity?_tree ..

theorem entities_openBlock (d : Decl.Block) :
    (b.openBlock d).store.entities = b.store.entities := by
  rw [openBlock_eq]
  exact Store.entities_tree ..

theorem Reordered.openBlock (h : b.Reordered b') (d : Decl.Block) :
    (b.openBlock d).Reordered (b'.openBlock d) := by
  have hstart : Opening.Same ⟨b.store.namespaces, b.innermost?.getD Namespaces.root, []⟩
      ⟨b'.store.namespaces, b.innermost?.getD Namespaces.root, []⟩ := ⟨h.shape, rfl, rfl⟩
  have hopening : (b.opening d).Same (b'.opening d) := by
    rw [opening_eq, opening_eq, h.innermost]
    exact hstart.foldl d.line (segments d.name)
  refine ⟨h.left.openBlock d, h.right.openBlock d, ?_, ?_, ?_, ?_, ?_, ?_, ?_, ?_⟩
  · rw [assembly_openBlock, assembly_openBlock, h.assembly]
  · rw [namespaces_openBlock, namespaces_openBlock]
    exact (Namespaces.sameShape_openBlock _ _ _).symm.trans
      (hopening.shape.trans (Namespaces.sameShape_openBlock _ _ _))
  · rw [innermost?_openBlock, innermost?_openBlock, hopening.node]
  · rw [symbols_openBlock, symbols_openBlock, h.catalog]
  · intro n name
    rw [named?_openBlock h.right.registered, named?_openBlock h.left.registered, h.entry]
  · intro key
    rw [tabled?_openBlock, tabled?_openBlock, h.tabled]
  · rw [entities_openBlock, entities_openBlock]
    exact h.entities
  · rw [found_openBlock, found_openBlock, hopening.found]
    exact h.found.append_right _

theorem simulation_reordered : Simulation Reordered where
  accept _ _ d h := h.accept d
  openBlock _ _ d h := h.openBlock d
  closeBlock b b' c c' hb hc htail htail' := by
    refine ⟨hc.left.closeBlock, hc.right.closeBlock, hc.assembly, hc.shape, ?_, hc.catalog, hc.entry,
      hc.tabled, hc.entities, hc.found⟩
    unfold innermost? closeBlock
    rw [htail, htail']
    exact hb.innermost

theorem Reordered.within {is is' : List Decl.Item} (hw : Decl.Within Decl.Reorders is is')
    (h : b.Reordered b') : (b.acceptItems is).Reordered (b'.acceptItems is') := by
  refine simulation_reordered.within ?_ hw h
  intro is is' b b' hr hb
  cases hr with
  | swap d d' hne => exact ((hb.accept d).accept d').trans (reordered_swap hb.right hne)

end Builder

end ComponentIdl
