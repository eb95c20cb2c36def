import ComponentIdl.Proofs.Builder.Step
import ComponentIdl.Proofs.NameTable
import ComponentIdl.Proofs.Store.Registry

/-!
# A build registers what it declares

Opening a block only adds nodes to the tree; a declaration enters tree, store and name table at once.
So every declaration is registered and every entry of the name table stands for a declaration of its
name. If simple names are segments, the table also has each declaration under its dotted name: a name
that is free in its node is free in the table.
-/

namespace ComponentIdl

namespace Namespaces

/-- The tree has grown: old nodes keep their names, and no symbol was added or lost. -/
structure Extends (t t' : Namespaces) : Prop where
  size : t.size ≤ t'.size
  nameOf : ∀ n < t.size, t'.nameOf n = t.nameOf n
  symbol? : ∀ n name, t'.symbol? n name = t.symbol? n name

theorem Extends.refl (t : Namespaces) : t.Extends t :=
  ⟨Nat.le_refl _, fun _ _ => rfl, fun _ _ => rfl⟩

theorem Extends.trans {t t' t'' : Namespaces} (h : t.Extends t') (h' : t'.Extends t'') :
    t.Extends t'' := by
  refine ⟨Nat.le_trans h.size h'.size, ?_, ?_⟩
  · intro n hn
    rw [h'.nameOf n (Nat.lt_of_lt_of_le hn h.size), h.nameOf n hn]
  · intro n name
    rw [h'.symbol?, h.symbol?]

theorem NewChild.extends {t t' : Namespaces} {n : NamespaceId} {name : String}
    (h : t.NewChild n name t') : t.Extends t' := by
  refine ⟨?_, ?_, h.symbol?⟩
  · rw [h.size]
    exact Nat.le_succ _
  · intro k hk
    rw [h.nameOf, if_neg (Nat.ne_of_lt hk)]

theorem extends_openBlock (t : Namespaces) (n : NamespaceId) (line : Nat) :
    t.Extends (t.openBlock n line).1 := by
  have h := sameShape_openBlock t n line
  exact ⟨Nat.le_of_eq h.size.symm, fun k _ => h.nameOf k, symbol?_openBlock t n line⟩

end Namespaces

/-! ### Opening a block -/

/-- What entering children keeps, and what it means that nothing was reported. -/
structure Opening.Leads (o o' : Opening) : Prop where
  tree : o'.tree.Proper
  node : o'.node < o'.tree.size
  extends_ : o.tree.Extends o'.tree
  found : o.found <+: o'.found
  distinct : o'.found = o.found → o.tree.CaseDistinct → o'.tree.CaseDistinct

/-- A child that is there is entered and nothing else is done. -/
theorem Opening.enter_known {o : Opening} (line : Nat) {segment : String} {c : NamespaceId}
    (h : o.tree.child? o.node segment = some c) : o.enter line segment = { o with node := c } := by
  simp [enter, h, Namespaces.addChild_known h]

theorem Opening.leads_enter {o : Opening} (line : Nat) {segment : String} (ht : o.tree.Proper)
    (hn : o.node < o.tree.size) (hs : IsSegment segment) : o.Leads (o.enter line segment) := by
  cases hc : o.tree.child? o.node segment with
  | some c =>
    have hlt := (ht.child o.node _ ((Namespaces.child?_eq_some ht).1 hc)).2.1
    rw [enter_known line hc]
    exact ⟨ht, hlt, .refl _, List.prefix_rfl, fun _ h => h⟩
  | none =>
    obtain ⟨hnode, hnew⟩ := Namespaces.addChild_new hc hn
    have htree : (o.enter line segment).tree = (o.tree.addChild o.node segment).1 := rfl
    have henter : (o.enter line segment).node = o.tree.size := hnode
    have hfound : (o.enter line segment).found =
        if (o.tree.caseVariant? o.node segment).isSome then
          o.found ++ [.of .namespaceCaseConflict line
            (DottedName.within (o.tree.nameOf o.node) segment).render]
        else o.found := by
      simp [enter, hc]
    refine ⟨?_, ?_, ?_, ?_, ?_⟩
    · rw [htree]
      exact ht.newChild hn hs hc hnew
    · rw [htree, henter, hnew.size]
      exact Nat.lt_succ_self _
    · rw [htree]
      exact hnew.extends
    · rw [hfound]
      split
      · exact List.prefix_append ..
      · exact List.prefix_rfl
    · intro hsame hdistinct
      rw [hfound] at hsame
      rw [htree]
      apply hdistinct.newChild hc _ hnew
      cases hv : o.tree.caseVariant? o.node segment with
      | none => rfl
      | some other => simp [hv] at hsame

theorem Opening.leads_foldl {o : Opening} (line : Nat) (path : List String) (ht : o.tree.Proper)
    (hn : o.node < o.tree.size) (hs : ∀ s ∈ path, IsSegment s) :
    o.Leads (path.foldl (Opening.enter line) o) := by
  induction path generalizing o with
  | nil => exact ⟨ht, hn, .refl _, List.prefix_rfl, fun _ h => h⟩
  | cons segment path ih =>
    have hfirst := leads_enter line ht hn (hs segment List.mem_cons_self)
    have hrest := ih hfirst.tree hfirst.node fun s h => hs s (List.mem_cons_of_mem _ h)
    refine ⟨hrest.tree, hrest.node, hfirst.extends_.trans hrest.extends_,
      hfirst.found.trans hrest.found, ?_⟩
    intro hsame hdistinct
    rw [List.foldl_cons] at hsame ⊢
    -- What is reported on the way would still be there at the end.
    have hmiddle : (o.enter line segment).found = o.found := by
      apply List.IsPrefix.eq_of_length_le _ _ |>.symm
      · exact hfirst.found
      · rw [← hsame]
        exact hrest.found.length_le
    exact hrest.distinct (hsame.trans hmiddle.symm) (hfirst.distinct hmiddle hdistinct)

namespace Builder

variable {b b' : Builder} {v : Visit}

/-- Tree, store and name table agree, so far as names are concerned. -/
structure Registered (b : Builder) : Prop where
  store : b.store.Registered
  blocks : ∀ x ∈ b.openBlocks, x.1 < b.store.namespaces.size
  table : ∀ name σ, b.symbols.get? name = some σ →
    ∃ h, b.store.header? σ = some h ∧ h.dottedName = name

theorem start_lt_size (ht : b.store.namespaces.Proper)
    (hblocks : ∀ x ∈ b.openBlocks, x.1 < b.store.namespaces.size) :
    (match b.openBlocks with
      | [] => Namespaces.root
      | (node, _) :: _ => node) < b.store.namespaces.size := by
  cases hb : b.openBlocks with
  | nil => exact ht.nonempty
  | cons head rest => exact hblocks head (hb ▸ List.mem_cons_self)

/-- The tree that a block is opened in, up to the block. -/
def opening (b : Builder) (d : Decl.Block) : Opening :=
  (segments d.name).foldl (Opening.enter d.line)
    ⟨b.store.namespaces, match b.openBlocks with
      | [] => Namespaces.root
      | (node, _) :: _ => node, []⟩

theorem leads_opening (ht : b.store.namespaces.Proper)
    (hblocks : ∀ x ∈ b.openBlocks, x.1 < b.store.namespaces.size) (d : Decl.Block) :
    Opening.Leads ⟨b.store.namespaces, match b.openBlocks with
      | [] => Namespaces.root
      | (node, _) :: _ => node, []⟩ (b.opening d) :=
  Opening.leads_foldl d.line _ ht (start_lt_size ht hblocks) fun _ hs => isSegment_of_mem hs

theorem Registered.leads (h : b.Registered) (d : Decl.Block) :
    Opening.Leads ⟨b.store.namespaces, match b.openBlocks with
      | [] => Namespaces.root
      | (node, _) :: _ => node, []⟩ (b.opening d) :=
  leads_opening h.store.tree h.blocks d

theorem namespaces_openBlock (b : Builder) (d : Decl.Block) :
    (b.openBlock d).store.namespaces =
      ((b.opening d).tree.openBlock (b.opening d).node d.line).1 := rfl

theorem symbols_openBlock (b : Builder) (d : Decl.Block) : (b.openBlock d).symbols = b.symbols := by
  unfold Builder.openBlock
  rfl

theorem sameHeaders_openBlock (b : Builder) (d : Decl.Block) :
    b.store.SameHeaders (b.openBlock d).store := by
  unfold Builder.openBlock
  exact .of_slots rfl rfl rfl rfl

theorem Registered.openBlock (h : b.Registered) (d : Decl.Block) : (b.openBlock d).Registered := by
  have hleads := h.leads d
  have hext := hleads.extends_.trans (Namespaces.extends_openBlock (b.opening d).tree
    (b.opening d).node d.line)
  have hshape := Namespaces.sameShape_openBlock (b.opening d).tree (b.opening d).node d.line
  have htree := namespaces_openBlock b d
  have hheader := (b.sameHeaders_openBlock d).header?
  refine ⟨⟨?_, ?_⟩, ?_, ?_⟩
  · rw [htree]
    exact hleads.tree.of_sameShape hshape
  · intro σ header hσ
    rw [hheader] at hσ
    obtain ⟨n, hn, hscope, hsymbol⟩ := h.store.complete σ header hσ
    refine ⟨n, Nat.lt_of_lt_of_le hn hext.size, ?_, ?_⟩
    · rw [htree, hext.nameOf n hn]
      exact hscope
    · rw [htree, hext.symbol?]
      exact hsymbol
  · intro x hx
    rw [htree, hshape.size]
    rcases List.mem_cons.1 hx with rfl | hx
    · exact hleads.node
    · exact Nat.lt_of_lt_of_le (h.blocks x hx) hleads.extends_.size
  · intro name σ hσ
    rw [symbols_openBlock] at hσ
    obtain ⟨header, hheader', hname⟩ := h.table name σ hσ
    exact ⟨header, (hheader σ).trans hheader', hname⟩

/-! ### Other steps -/

theorem label_addAccessors (o : ObjectType) (index : Nat) (asked : List (PropertyRole × Nat)) :
    Store.label (o.addAccessors index asked) = Store.label o := by
  have hone : ∀ (o : ObjectType) role line,
      Store.label (o.addAccessor index role line) = Store.label o := by
    intro o role line
    unfold ObjectType.addAccessor
    split <;> rfl
  induction asked generalizing o with
  | nil => rfl
  | cons a asked ih => exact (ih (o.addAccessor index a.1 a.2)).trans (hone o a.1 a.2)

theorem grows_label {o o' : ObjectType} (h : o.Grows o') : Store.label o' = Store.label o := by
  cases h with
  | method d => rfl
  | constructor d =>
    unfold Store.label ObjectType.pushConstructor ObjectType.isClass
    cases o.classPart <;> rfl
  | fragment d count ho =>
    obtain ⟨-, ⟨-, rfl⟩ | ⟨p, index, -, -, -, -, -, rfl⟩⟩ := ObjectType.addFragment_cases ho
    · exact label_addAccessors _ _ _
    · exact label_addAccessors _ _ _
  | event d he hp => rfl

theorem sameHeaders_modifyObject {st : Store} {id : ObjectId} {f : ObjectType → ObjectType}
    (hf : ∀ o, st.objects[id]? = some o → Store.label (f o) = Store.label o) :
    st.SameHeaders (st.modifyObject id f) := by
  refine ⟨?_, fun _ => rfl, fun _ => rfl, fun _ => rfl⟩
  intro i
  unfold Store.modifyObject
  rw [Array.getElem?_modify]
  split
  · next hi =>
    subst hi
    cases ho : st.objects[id]? with
    | none => rfl
    | some o => exact congrArg some (hf o ho)
  · rfl

theorem sameHeaders_modifyStruct {st : Store} {id : StructId} {f : StructType → StructType}
    (hf : ∀ s, (f s).toHeader = s.toHeader) : st.SameHeaders (st.modifyStruct id f) := by
  refine ⟨fun _ => rfl, ?_, fun _ => rfl, fun _ => rfl⟩
  intro i
  unfold Store.modifyStruct
  rw [Array.getElem?_modify]
  split
  · cases st.structs[i]? with
    | none => rfl
    | some s => exact congrArg some (hf s)
  · rfl

theorem sameHeaders_modifyEnum {st : Store} {id : EnumId} {f : EnumType → EnumType}
    (hf : ∀ e, (f e).toHeader = e.toHeader) : st.SameHeaders (st.modifyEnum id f) := by
  refine ⟨fun _ => rfl, fun _ => rfl, ?_, fun _ => rfl⟩
  intro i
  unfold Store.modifyEnum
  rw [Array.getElem?_modify]
  split
  · cases st.enums[i]? with
    | none => rfl
    | some e => exact congrArg some (hf e)
  · rfl

/-- The visit declares an entity in an open namespace where its name is free. -/
structure Declares (b b' : Builder) (v : Visit) (node : NamespaceId) (block : Nat)
    (entity : Entity) : Prop where
  isOpen : (node, block) ∈ b.openBlocks
  named : v.typeName? = some entity.header.name
  scope : b.store.namespaces.nameOf node = entity.header.scope
  free : b.store.namespaces.symbol? node entity.header.name = none
  store : b'.store = b.store.declare node block entity.header.name entity
  symbols : b'.symbols =
    b.symbols.insert entity.header.dottedName (b.store.nextSymbol entity)
  blocks : b'.openBlocks = b.openBlocks

theorem Step.header_cases (h : Step b v b') :
    (b.store.SameHeaders b'.store ∧ b'.store.namespaces = b.store.namespaces ∧
      b'.symbols = b.symbols ∧ b'.openBlocks ⊆ b.openBlocks) ∨
    (∃ d, b' = b.openBlock d) ∨
    ∃ node block entity, Declares b b' v node block entity := by
  cases h with
  | keep store symbols blocks =>
    refine Or.inl ⟨?_, by rw [store], symbols, blocks⟩
    rw [store]
    exact .refl _
  | opened d h => exact Or.inr (Or.inl ⟨d, h⟩)
  | declared node block rest header entity innermost named scope free isNew store symbols blocks =>
    have heq : entity.header = header := by
      cases entity with
      | object o => exact isNew.header
      | struct s => exact congrArg StructType.toHeader isNew
      | enum e =>
        obtain ⟨base, he⟩ := isNew
        exact congrArg EnumType.toHeader he
      | delegate d =>
        obtain ⟨written, hd⟩ := isNew
        exact congrArg DelegateType.toHeader hd
    subst heq
    exact Or.inr (Or.inr ⟨node, block, entity, innermost ▸ List.mem_cons_self, named, scope.symm,
      free, store, symbols, blocks⟩)
  | grown id f grows store symbols blocks =>
    refine Or.inl ⟨?_, by rw [store]; rfl, symbols, by rw [blocks]; exact fun _ h => h⟩
    rw [store]
    exact sameHeaders_modifyObject fun o ho => grows_label (grows o ho)
  | field id d _ store symbols blocks =>
    refine Or.inl ⟨?_, by rw [store]; rfl, symbols, by rw [blocks]; exact fun _ h => h⟩
    rw [store]
    exact sameHeaders_modifyStruct fun _ => rfl
  | enumMember id d _ store symbols blocks =>
    refine Or.inl ⟨?_, by rw [store]; rfl, symbols, by rw [blocks]; exact fun _ h => h⟩
    rw [store]
    exact sameHeaders_modifyEnum fun _ => rfl

section Declares

variable {node : NamespaceId} {block : Nat} {entity : Entity}

theorem Declares.registered (hd : Declares b b' v node block entity) (h : b.Registered) :
    b'.store.Registered ∧ b'.store.namespaces.size = b.store.namespaces.size ∧
      ∀ σ, b'.store.header? σ =
        if σ = b.store.nextSymbol entity then some entity.header else b.store.header? σ := by
  rw [hd.store]
  exact h.store.declare block (h.blocks _ hd.isOpen) hd.scope hd.free

theorem Registered.declares (h : b.Registered) (hd : Declares b b' v node block entity) :
    b'.Registered := by
  obtain ⟨hstore, hsize, hheader⟩ := hd.registered h
  refine ⟨hstore, ?_, ?_⟩
  · intro x hx
    rw [hsize]
    exact h.blocks x (hd.blocks ▸ hx)
  · intro name σ hσ
    rw [hd.symbols] at hσ
    rcases NameTable.get?_insert_cases hσ with hold | ⟨rfl, rfl⟩
    · -- An old entry stands for an old declaration, which is not the new one.
      obtain ⟨header, hh, hname⟩ := h.table name σ hold
      refine ⟨header, ?_, hname⟩
      rw [hheader, if_neg, hh]
      rintro rfl
      simp [Store.header?_nextSymbol] at hh
    · refine ⟨entity.header, ?_, rfl⟩
      rw [hheader, if_pos rfl]

end Declares

theorem Registered.step (h : b.Registered) (hs : Step b v b') : b'.Registered := by
  rcases hs.header_cases with ⟨hsame, htree, hsymbols, hblocks⟩ | ⟨d, rfl⟩ | ⟨_, _, _, hd⟩
  · refine ⟨h.store.of_sameHeaders hsame htree, ?_, ?_⟩
    · intro x hx
      rw [htree]
      exact h.blocks x (hblocks hx)
    · intro name σ hσ
      rw [hsymbols] at hσ
      obtain ⟨header, hheader, hname⟩ := h.table name σ hσ
      exact ⟨header, (hsame.header? σ).trans hheader, hname⟩
  · exact h.openBlock d
  · exact h.declares hd

theorem Registered.run (h : b.Registered) (visits : List Visit) : (b.run visits).Registered :=
  run_preserves visits (fun v _ b hb => hb.step (step_visit b v)) h

theorem caseDistinct_visit (hr : b.Registered) (h : b.found = [] → b.store.namespaces.CaseDistinct)
    (v : Visit) (hfound : (b.visit v).found = []) :
    (b.visit v).store.namespaces.CaseDistinct := by
  have hbefore : b.found = [] := List.eq_nil_of_prefix_nil (hfound ▸ found_visit b v)
  rcases (step_visit b v).header_cases with ⟨-, htree, -, -⟩ | ⟨d, hd⟩ | ⟨_, _, _, hd⟩
  · rw [htree]
    exact h hbefore
  · have hleads := hr.leads d
    have hopening : (b.opening d).found = [] := by
      rw [hd] at hfound
      exact (List.append_eq_nil_iff.1 hfound).2
    rw [hd, namespaces_openBlock]
    exact (hleads.distinct hopening (h hbefore)).of_sameShape
      (Namespaces.sameShape_openBlock _ _ d.line)
  · rw [hd.store]
    unfold Store.declare
    rw [Namespaces.addSymbol_free hd.free]
    exact (h hbefore).of_sameShape (Namespaces.sameShape_modify _ _ fun _ => ⟨rfl, rfl, rfl⟩)

/-- A build without diagnostics has no siblings that differ by letter case only. -/
theorem caseDistinct_run (hr : b.Registered) (h : b.store.namespaces.CaseDistinct)
    (visits : List Visit) (hfound : (b.run visits).found = []) :
    (b.run visits).store.namespaces.CaseDistinct := by
  have hboth : (b.run visits).Registered ∧
      ((b.run visits).found = [] → (b.run visits).store.namespaces.CaseDistinct) := by
    apply run_preserves (P := fun b => b.Registered ∧
      (b.found = [] → b.store.namespaces.CaseDistinct)) visits _ ⟨hr, fun _ => h⟩
    intro v _ b hb
    exact ⟨hb.1.step (step_visit b v), caseDistinct_visit hb.1 hb.2 v⟩
  exact hboth.2 hfound

/-! ### Names that are segments -/

/-- Every declaration has a segment for its simple name, and an entry under its dotted name. -/
structure Named (b : Builder) : Prop where
  segment : ∀ σ h, b.store.header? σ = some h → IsSegment h.name
  entry : ∀ σ h, b.store.header? σ = some h → b.symbols.get? h.dottedName = some σ

theorem Named.of_sameHeaders (h : b.Named) (hsame : b.store.SameHeaders b'.store)
    (hsymbols : b'.symbols = b.symbols) : b'.Named := by
  constructor
  · intro σ header hσ
    rw [hsame.header? σ] at hσ
    exact h.segment σ header hσ
  · intro σ header hσ
    rw [hsame.header? σ] at hσ
    rw [hsymbols]
    exact h.entry σ header hσ

section Declares

variable {node : NamespaceId} {block : Nat} {entity : Entity}

theorem Named.free (h : b.Named) (hr : b.Registered) (hd : Declares b b' v node block entity)
    (hname : IsSegment entity.header.name) :
    b.symbols.get? entity.header.dottedName = none := by
  cases hget : b.symbols.get? entity.header.dottedName with
  | none => rfl
  | some old =>
    obtain ⟨header, hold, heq⟩ := hr.table _ old hget
    have hne := hr.store.dottedName_ne (hr.blocks _ hd.isOpen) hd.scope hd.free hname hold
      (h.segment old header hold)
    exact absurd heq hne

theorem Named.declares (h : b.Named) (hr : b.Registered)
    (hd : Declares b b' v node block entity) (hname : IsSegment entity.header.name) :
    b'.Named := by
  obtain ⟨-, -, hheader⟩ := hd.registered hr
  constructor
  · intro σ header hσ
    rw [hheader] at hσ
    split at hσ
    · exact Option.some.inj hσ ▸ hname
    · exact h.segment σ header hσ
  · intro σ header hσ
    rw [hheader] at hσ
    rw [hd.symbols]
    split at hσ
    · next hnew =>
      obtain rfl : entity.header = header := Option.some.inj hσ
      rw [NameTable.get?_insert, if_pos rfl, h.free hr hd hname, hnew]
      rfl
    · exact NameTable.get?_insert_old (h.entry σ header hσ) _ _

end Declares

theorem Named.step (h : b.Named) (hr : b.Registered) (hs : Step b v b')
    (hname : ∀ name, v.typeName? = some name → IsSegment name) : b'.Named := by
  rcases hs.header_cases with ⟨hsame, -, hsymbols, -⟩ | ⟨d, rfl⟩ | ⟨_, _, _, hd⟩
  · exact h.of_sameHeaders hsame hsymbols
  · exact h.of_sameHeaders (b.sameHeaders_openBlock d) (symbols_openBlock b d)
  · exact h.declares hr hd (hname _ hd.named)

theorem Named.run (h : b.Named) (hr : b.Registered) (visits : List Visit)
    (hnames : ∀ v ∈ visits, ∀ name, v.typeName? = some name → IsSegment name) :
    (b.run visits).Named := by
  have hboth : (b.run visits).Named ∧ (b.run visits).Registered := by
    apply run_preserves (P := fun b => b.Named ∧ b.Registered) visits _ ⟨h, hr⟩
    intro v hv b hb
    have hs := step_visit b v
    exact ⟨hb.1.step hb.2 hs (hnames v hv), hb.2.step hs⟩
  exact hboth.1

end Builder

end ComponentIdl
