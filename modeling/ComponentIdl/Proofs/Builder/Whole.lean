import ComponentIdl.Proofs.Builder.Beside

/-!
# A declaration as one step of a build

A build accepts whole types: all that a type with its members does to a build is to take a slot, a name
and an entry, or to be passed over. Between two types, at `rest`, nothing is left of the members that
were visited.
-/

namespace ComponentIdl

/-! ### Builders that accept whole types -/

namespace Builder

/-- The builder with nothing left of the members it has visited. -/
def rest (b : Builder) : Builder := { b with focus := .nothing, fragments := [], malformed := [] }

/-- The header of a type that is declared in the node. -/
def headerOf (b : Builder) (node : NamespaceId) (d : Decl.TypeDecl) : Header :=
  { name := d.name, scope := b.store.namespaces.nameOf node, line := d.line, assembly := b.assembly }

/-- Declares a type with all its members in the innermost block. -/
def accept (b : Builder) (d : Decl.TypeDecl) : Builder :=
  match b.openBlocks with
  | [] => b
  | (node, block) :: _ =>
    let header := b.headerOf node d
    match b.store.namespaces.symbol? node d.name with
    | some _ =>
      { b.report .duplicateNamespaceMember d.line header.dottedName with
        tally := { b.tally with skipped := b.tally.skipped + 1 } }
    | none =>
      { b with
        store := b.store.declare node block d.name (d.built header)
        symbols := b.symbols.insert header.dottedName (b.store.nextSymbol (d.built header))
        found := b.found ++ d.faults header
        tally := { b.tally with declarations := b.tally.declarations + 1 } }

mutual

def acceptItem (b : Builder) : Decl.Item → Builder
  | .type d => b.accept d
  | .block name line items => ((b.openBlock ⟨name, line, items⟩).acceptItems items).closeBlock

/-- Admits the types of the items, opening and closing the blocks around them. -/
def acceptItems (b : Builder) : List Decl.Item → Builder
  | [] => b
  | i :: is => (b.acceptItem i).acceptItems is

end

variable {b : Builder}

section Rest

/-- Opening a type leaves nothing of the members before it. -/
theorem rest_declare (b : Builder) (name : String) (line : Nat) (make : Header → Entity) :
    b.rest.declare name line make =
      ((b.declare name line make).1.rest, (b.declare name line make).2) := by
  obtain ⟨assembly, store, symbols, found, openBlocks⟩ := b
  cases openBlocks with
  | nil => rfl
  | cons head rest =>
    cases hs : store.namespaces.symbol? head.1 name with
    | none => simp only [declare, Builder.rest, hs]
    | some symbol => simp only [declare, Builder.rest, hs, report]

theorem addField_clearFragments (b : Builder) (d : Decl.Field) :
    b.clearFragments.addField d = (b.addField d).clearFragments := by
  simp only [addField, clearFragments]
  repeat' split
  all_goals rfl

theorem addEnumMember_clearFragments (b : Builder) (d : Decl.EnumMember) :
    b.clearFragments.addEnumMember d = (b.addEnumMember d).clearFragments := by
  simp only [addEnumMember, clearFragments]
  repeat' split
  all_goals rfl

theorem run_clearFragments {visits : List Visit}
    (hvisit : ∀ v ∈ visits, ∀ b : Builder, b.clearFragments.visit v = (b.visit v).clearFragments)
    (b : Builder) : b.clearFragments.run visits = (b.run visits).clearFragments := by
  induction visits generalizing b with
  | nil => rfl
  | cons v visits ih =>
    rw [run_cons, run_cons, hvisit v List.mem_cons_self]
    exact ih (fun w hw => hvisit w (List.mem_cons_of_mem v hw)) _

/-- What was visited before a type makes no difference to its visits. -/
theorem rest_run_rest (b : Builder) (d : Decl.TypeDecl) :
    (b.rest.run d.visits).rest = (b.run d.visits).rest := by
  rw [d.visits_eq_cons, run_cons, run_cons]
  have hfields : ∀ {α : Type} (members : List α) (visit : α → Visit) (close : Visit),
      (∀ a (b : Builder), b.clearFragments.visit (visit a) = (b.visit (visit a)).clearFragments) →
      (∀ b : Builder, b.clearFragments.visit close = (b.visit close).clearFragments) →
      ∀ b : Builder, (b.clearFragments.run (members.map visit ++ [close])).rest =
        (b.run (members.map visit ++ [close])).rest := by
    intro α members visit close hvisit hclose b
    rw [run_clearFragments]
    · rfl
    · exact List.forall_mem_append.2
        ⟨List.forall_mem_map.2 fun a _ => hvisit a, fun v hv => List.mem_singleton.1 hv ▸ hclose⟩
  cases d with
  | classDecl d =>
    have hopen : b.rest.openClass d = b.openClass d := by
      unfold openClass
      rw [rest_declare]
      rfl
    show ((b.rest.openClass d).run _).rest = _
    rw [hopen]
    rfl
  | interfaceDecl d =>
    have hopen : b.rest.openInterface d = b.openInterface d := by
      unfold openInterface
      rw [rest_declare]
      rfl
    show ((b.rest.openInterface d).run _).rest = _
    rw [hopen]
    rfl
  | structDecl d =>
    have hopen : b.rest.openStruct d = (b.openStruct d).clearFragments := by
      unfold openStruct
      rw [rest_declare]
      rfl
    show ((b.rest.openStruct d).run _).rest = _
    rw [hopen]
    exact hfields d.fields Visit.field (.closeStruct d) (fun a b => addField_clearFragments b a)
      (fun _ => rfl) _
  | enumDecl d =>
    have hopen : b.rest.openEnum d = (b.openEnum d).clearFragments := by
      unfold openEnum
      rw [rest_declare]
      rfl
    show ((b.rest.openEnum d).run _).rest = _
    rw [hopen]
    exact hfields d.members Visit.enumMember (.closeEnum d)
      (fun a b => addEnumMember_clearFragments b a) (fun _ => rfl) _
  | delegateDecl d =>
    show (b.rest.openDelegate d).rest = (b.openDelegate d).rest
    unfold openDelegate
    rw [rest_declare]
    rfl

end Rest

theorem skipped_inner {visits : List Visit} (hv : ∀ v ∈ visits, v.isInner = true)
    (hf : b.focus = .skipped ∨ b.focus = .nothing) : (b.run visits).rest = b.rest := by
  induction visits generalizing b with
  | nil => rfl
  | cons v visits ih =>
    have hvisit : (b.visit v).rest = b.rest ∧
        ((b.visit v).focus = .skipped ∨ (b.visit v).focus = .nothing) := by
      have hinner := hv v List.mem_cons_self
      cases v with
      | closeStruct d => exact ⟨rfl, Or.inr rfl⟩
      | closeEnum d => exact ⟨rfl, Or.inr rfl⟩
      | closeDelegate d => exact ⟨rfl, hf⟩
      | closeClass d =>
        rcases hf with hf | hf <;> simp only [visit, closeObject, hf] <;> exact ⟨rfl, Or.inr rfl⟩
      | closeInterface d =>
        rcases hf with hf | hf <;> simp only [visit, closeObject, hf] <;> exact ⟨rfl, Or.inr rfl⟩
      | method d => rcases hf with hf | hf <;> simp [visit, addMethod, hf]
      | constructor d => rcases hf with hf | hf <;> simp [visit, addConstructor, hf]
      | property d => rcases hf with hf | hf <;> simp [visit, addProperty, hf]
      | event d => rcases hf with hf | hf <;> simp [visit, addEvent, hf]
      | field d => rcases hf with hf | hf <;> simp [visit, addField, hf]
      | enumMember d => rcases hf with hf | hf <;> simp [visit, addEnumMember, hf]
      | _ => exact absurd hinner Bool.false_ne_true
    rw [run_cons, ih (fun w hw => hv w (List.mem_cons_of_mem v hw)) hvisit.2, hvisit.1]

/-! ### A type that is declared -/

section Admit

variable {node : NamespaceId} {block : Nat} {rest : List (NamespaceId × Nat)}

theorem accept_closed {d : Decl.TypeDecl} (hopen : b.openBlocks = []) : b.accept d = b := by
  unfold accept
  rw [hopen]

theorem accept_taken {d : Decl.TypeDecl} {σ : Symbol} (hopen : b.openBlocks = (node, block) :: rest)
    (hused : b.store.namespaces.symbol? node d.name = some σ) :
    b.accept d =
      { b.report .duplicateNamespaceMember d.line (b.headerOf node d).dottedName with
        tally := { b.tally with skipped := b.tally.skipped + 1 } } := by
  unfold accept
  rw [hopen]
  simp only [hused]

theorem accept_free {d : Decl.TypeDecl} (hopen : b.openBlocks = (node, block) :: rest)
    (hfree : b.store.namespaces.symbol? node d.name = none) :
    b.accept d =
      { b with
        store := b.store.declare node block d.name (d.built (b.headerOf node d))
        symbols := b.symbols.insert (b.headerOf node d).dottedName
          (b.store.nextSymbol (d.built (b.headerOf node d)))
        found := b.found ++ d.faults (b.headerOf node d)
        tally := { b.tally with declarations := b.tally.declarations + 1 } } := by
  unfold accept
  rw [hopen]
  simp only [hfree]

theorem declare_closed (hopen : b.openBlocks = []) (name : String) (line : Nat)
    (make : Header → Entity) : b.declare name line make = (b, none) := by
  unfold declare
  rw [hopen]

theorem declare_taken {σ : Symbol} (hopen : b.openBlocks = (node, block) :: rest)
    (d : Decl.TypeDecl) (hused : b.store.namespaces.symbol? node d.name = some σ)
    (make : Header → Entity) :
    b.declare d.name d.line make =
      ({ b.report .duplicateNamespaceMember d.line (b.headerOf node d).dottedName with
         tally := { b.tally with skipped := b.tally.skipped + 1 } }, none) := by
  unfold declare
  rw [hopen]
  simp only [hused]
  rfl

/-- The builder with a name, an entry and a place in the count for a type, but without its slot. -/
def enroll (b : Builder) (node : NamespaceId) (block : Nat) (h : Header) (σ : Symbol) : Builder :=
  { b with
    store := { b.store with
      namespaces := b.store.namespaces.modify node fun n =>
        Namespaces.Namespace.addSymbol n block h.name σ }
    symbols := b.symbols.insert h.dottedName σ
    tally := { b.tally with declarations := b.tally.declarations + 1 } }

theorem declare_free (hopen : b.openBlocks = (node, block) :: rest) (d : Decl.TypeDecl)
    (hfree : b.store.namespaces.symbol? node d.name = none) (make : Header → Entity) :
    let e := make (b.headerOf node d)
    let named := b.enroll node block (b.headerOf node d) (b.store.nextSymbol e)
    b.declare d.name d.line make =
      ({ named with store := named.store.append (Store.add {} e) }, some (b.store.nextSymbol e)) := by
  intro e named
  have hstore : b.store.declare node block d.name e = named.store.append (Store.add {} e) := by
    rw [Store.declare_free hfree, Store.append_add]
    exact (Store.add_tree b.store _ e).symm
  unfold declare
  rw [hopen]
  simp only [hfree]
  rw [← hopen]
  exact congrArg (fun store => (({ named with store } : Builder), some (b.store.nextSymbol e))) hstore

theorem beside_seed (d : Decl.TypeDecl) (h : Header) (y : Builder) :
    (d.seed h).beside y =
      { y with
        store := y.store.append (Store.add {} (d.opened h))
        focus := (d.seed h).focus.after y.store
        fragments := []
        malformed := [] } := by
  unfold beside
  rw [show (d.seed h).found = [] from rfl, List.append_nil]
  rfl

theorem rest_declare_eq_self (hrest : b.rest = b) (name : String) (line : Nat)
    (make : Header → Entity) :
    (b.declare name line make).1.rest = (b.declare name line make).1 := by
  have hdeclare := rest_declare b name line make
  rw [hrest] at hdeclare
  exact (congrArg Prod.fst hdeclare).symm

theorem visit_opening (d : Decl.TypeDecl) (hrest : b.rest = b) {r : Builder × Option Symbol}
    (hr : b.declare d.name d.line (fun h => d.opened h) = r) :
    b.visit d.openingVisit = { r.1.rest with focus := d.focusOn r.2 } := by
  have hrest' : r.1.rest = r.1 := by
    rw [← hr]
    exact rest_declare_eq_self hrest _ _ _
  cases d with
  | classDecl d =>
    have hvisit : b.visit (.openClass d) = (focusOn r).clearFragments :=
      congrArg (fun r => (focusOn r).clearFragments) hr
    refine hvisit.trans ?_
    obtain ⟨b', _ | σ⟩ := r <;> rfl
  | interfaceDecl d =>
    have hvisit : b.visit (.openInterface d) = (focusOn r).clearFragments :=
      congrArg (fun r => (focusOn r).clearFragments) hr
    refine hvisit.trans ?_
    obtain ⟨b', _ | σ⟩ := r <;> rfl
  | structDecl d =>
    have hvisit : b.visit (.openStruct d) = focusOn r := congrArg focusOn hr
    rw [hrest']
    refine hvisit.trans ?_
    obtain ⟨b', _ | σ⟩ := r <;> rfl
  | enumDecl d =>
    have hvisit : b.visit (.openEnum d) = focusOn r := congrArg focusOn hr
    rw [hrest']
    refine hvisit.trans ?_
    obtain ⟨b', _ | σ⟩ := r <;> rfl
  | delegateDecl d =>
    have hvisit : b.visit (.openDelegate d) = r.1 := congrArg Prod.fst hr
    exact hvisit.trans hrest'.symm

theorem focusOn_none (d : Decl.TypeDecl) : d.focusOn none = .skipped ∨ d.focusOn none = .nothing := by
  cases d <;> first | exact Or.inl rfl | exact Or.inr rfl

/-- The focus on a type in its new slot is that on the type alone, after the slots before. -/
theorem focusOn_some (d : Decl.TypeDecl) (h : Header) (st : Store) :
    d.focusOn (some (st.nextSymbol (d.opened h))) = (d.seed h).focus.after st := by
  cases d <;> rfl

/-- A type whose name is taken, or that stands in no block, is passed over with all its members. -/
theorem run_kept (d : Decl.TypeDecl) (hrest : b.rest = b) {b' : Builder}
    (hdeclare : b.declare d.name d.line (fun h => d.opened h) = (b', none)) :
    (b.run d.visits).rest = b' := by
  have hrest' : b'.rest = b' := by
    have hr := rest_declare_eq_self hrest d.name d.line fun h => d.opened h
    rwa [hdeclare] at hr
  rw [d.visits_eq_cons, run_cons, visit_opening d hrest hdeclare,
    skipped_inner d.isInner_innerVisits (focusOn_none d)]
  exact hrest'

/-- A type whose name is free grows in its slot as it would grow alone. -/
theorem run_declared (d : Decl.TypeDecl) (hrest : b.rest = b)
    (hopen : b.openBlocks = (node, block) :: rest)
    (hfree : b.store.namespaces.symbol? node d.name = none) :
    (b.run d.visits).rest = b.accept d := by
  obtain ⟨hgrown, halone⟩ := d.alone_store (b.headerOf node d)
  have hopening := visit_opening d hrest (declare_free hopen d hfree fun h => d.opened h)
  have hstart : b.visit d.openingVisit =
      (d.seed (b.headerOf node d)).beside (b.enroll node block (b.headerOf node d)
        (b.store.nextSymbol (d.opened (b.headerOf node d)))) := by
    rw [hopening, beside_seed, focusOn_some]
    rfl
  have hstore : b.store.declare node block d.name (d.built (b.headerOf node d)) =
      (b.enroll node block (b.headerOf node d)
        (b.store.nextSymbol (d.opened (b.headerOf node d)))).store.append
          (d.alone (b.headerOf node d)).store := by
    rw [halone, Store.append_add, Store.declare_free hfree, hgrown.nextSymbol]
    exact (Store.add_tree b.store _ _).symm
  rw [d.visits_eq_cons, run_cons, hstart, run_beside d.isInner_innerVisits, accept_free hopen hfree,
    hstore, hgrown.nextSymbol, ← hrest]
  rfl

end Admit

/-- A whole type is accepted by its visits. -/
theorem rest_run_visits (b : Builder) (d : Decl.TypeDecl) :
    (b.run d.visits).rest = b.rest.accept d := by
  rw [← rest_run_rest]
  have hrest : b.rest.rest = b.rest := rfl
  generalize b.rest = b at hrest ⊢
  cases hopen : b.openBlocks with
  | nil =>
    rw [accept_closed hopen]
    exact run_kept d hrest (declare_closed hopen _ _ _)
  | cons head rest =>
    obtain ⟨node, block⟩ := head
    cases hs : b.store.namespaces.symbol? node d.name with
    | some σ =>
      rw [accept_taken hopen hs]
      exact run_kept d hrest (declare_taken hopen d hs _)
    | none => exact run_declared d hrest hopen hs

/-! ### Items and source files -/

mutual

theorem rest_run_item (i : Decl.Item) (b : Builder) :
    (b.run i.visits).rest = b.rest.acceptItem i := by
  cases i with
  | type d => exact rest_run_visits b d
  | block name line items =>
    have hitems := rest_run_items items (b.openBlock ⟨name, line, items⟩)
    rw [Decl.Item.visits, List.cons_append, run_cons, run_append, acceptItem]
    exact congrArg closeBlock hitems

theorem rest_run_items (is : List Decl.Item) (b : Builder) :
    (b.run (Decl.itemsVisits is)).rest = b.rest.acceptItems is := by
  cases is with
  | nil => rfl
  | cons i is =>
    rw [Decl.itemsVisits, run_append, rest_run_items is, rest_run_item i, acceptItems]

end

theorem openBlocks_accept (b : Builder) (d : Decl.TypeDecl) :
    (b.accept d).openBlocks = b.openBlocks := by
  cases hopen : b.openBlocks with
  | nil => rw [accept_closed hopen, hopen]
  | cons head rest =>
    cases hs : b.store.namespaces.symbol? head.1 d.name with
    | some σ => rw [accept_taken hopen hs]; exact hopen
    | none => rw [accept_free hopen hs]; exact hopen

mutual

theorem openBlocks_acceptItem (i : Decl.Item) (b : Builder) :
    (b.acceptItem i).openBlocks = b.openBlocks := by
  cases i with
  | type d => exact openBlocks_accept b d
  | block name line items =>
    rw [acceptItem]
    exact congrArg List.tail (openBlocks_acceptItems items (b.openBlock ⟨name, line, items⟩))

/-- All blocks that items open are closed again. -/
theorem openBlocks_acceptItems (is : List Decl.Item) (b : Builder) :
    (b.acceptItems is).openBlocks = b.openBlocks := by
  cases is with
  | nil => rfl
  | cons i is => rw [acceptItems, openBlocks_acceptItems is, openBlocks_acceptItem i]

end

theorem acceptItems_append (b : Builder) (is more : List Decl.Item) :
    b.acceptItems (is ++ more) = (b.acceptItems is).acceptItems more := by
  induction is generalizing b with
  | nil => rfl
  | cons i is ih => exact ih (b.acceptItem i)

/-- A relation of builders that the declaration of a type keeps, and the opening of a block. Closing a
block keeps it too, if it was there before the block was opened. -/
structure Simulation (R : Builder → Builder → Prop) : Prop where
  accept : ∀ b b' d, R b b' → R (b.accept d) (b'.accept d)
  openBlock : ∀ b b' d, R b b' → R (b.openBlock d) (b'.openBlock d)
  closeBlock : ∀ b b' c c', R b b' → R c c' → c.openBlocks.tail = b.openBlocks →
    c'.openBlocks.tail = b'.openBlocks → R c.closeBlock c'.closeBlock

section Simulation

variable {R : Builder → Builder → Prop} {b' : Builder}

mutual

theorem Simulation.item (h : Simulation R) (i : Decl.Item) (b b' : Builder) (hb : R b b') :
    R (b.acceptItem i) (b'.acceptItem i) := by
  cases i with
  | type d => exact h.accept b b' d hb
  | block name line items =>
    have hopen := h.openBlock b b' ⟨name, line, items⟩ hb
    have hitems := Simulation.items h items _ _ hopen
    rw [acceptItem, acceptItem]
    exact h.closeBlock b b' _ _ hb hitems
      (congrArg List.tail (openBlocks_acceptItems items _))
      (congrArg List.tail (openBlocks_acceptItems items _))

/-- What relates two builders relates them after the same items. -/
theorem Simulation.items (h : Simulation R) (is : List Decl.Item) (b b' : Builder) (hb : R b b') :
    R (b.acceptItems is) (b'.acceptItems is) := by
  cases is with
  | nil => exact hb
  | cons i is => exact Simulation.items h is _ _ (Simulation.item h i b b' hb)

end

end Simulation

end Builder

/-- One list of items becomes the other when a part of it is rewritten by `R`, at any depth. -/
inductive Decl.Within (R : List Decl.Item → List Decl.Item → Prop) :
    List Decl.Item → List Decl.Item → Prop where
  | here {is is' : List Decl.Item} (h : R is is') : Within R is is'
  | among {is is' : List Decl.Item} (before after : List Decl.Item) (h : Within R is is') :
      Within R (before ++ is ++ after) (before ++ is' ++ after)
  | inside {is is' : List Decl.Item} (name : String) (line : Nat) (h : Within R is is') :
      Within R [.block name line is] [.block name line is']

/-- What relates two builders relates them after items that are rewritten, if it does where they
differ. -/
theorem Builder.Simulation.within {S : Builder → Builder → Prop} (h : Simulation S)
    {R : List Decl.Item → List Decl.Item → Prop}
    (hR : ∀ is is' b b', R is is' → S b b' → S (b.acceptItems is) (b'.acceptItems is'))
    {is is' : List Decl.Item} (hw : Decl.Within R is is') {b b' : Builder} (hb : S b b') :
    S (b.acceptItems is) (b'.acceptItems is') := by
  induction hw generalizing b b' with
  | here hr => exact hR _ _ b b' hr hb
  | among before after _ ih =>
    rw [acceptItems_append, acceptItems_append, acceptItems_append, acceptItems_append]
    exact h.items after _ _ (ih (h.items before b b' hb))
  | @inside is is' name line _ ih =>
    have hitems := ih (h.openBlock b b' ⟨name, line, is⟩ hb)
    exact h.closeBlock b b' _ _ hb hitems (congrArg List.tail (openBlocks_acceptItems _ _))
      (congrArg List.tail (openBlocks_acceptItems _ _))

/-- The blocks of a source file as items. -/
def Decl.Unit.items (u : Decl.Unit) : List Decl.Item :=
  u.blocks.map fun b => .block b.name b.line b.items

theorem Decl.Unit.visits_eq (u : Decl.Unit) :
    u.visits = .openUnit u :: Decl.itemsVisits u.items ++ [.closeUnit u] := by
  have hblocks : u.blocks.flatMap Decl.Block.visits = Decl.itemsVisits u.items := by
    rw [Decl.itemsVisits_eq_flatMap, Decl.Unit.items, List.flatMap_map]
    exact congrArg (List.flatMap · _) (funext fun b => (Decl.Item.visits_block ..).symm)
  rw [Decl.Unit.visits, hblocks]

/-- A source file is declared by accepting its items. -/
theorem Workspace.declare_eq (w : Workspace) (u : Decl.Unit) :
    (w.declare u).1 = w.ofBuilder (w.builder.acceptItems u.items) := by
  have hrun : (w.builder.run u.visits).rest = w.builder.acceptItems u.items := by
    rw [u.visits_eq, List.cons_append, Builder.run_cons, Builder.run_append]
    exact Builder.rest_run_items u.items w.builder
  rw [← hrun]
  rfl

end ComponentIdl
