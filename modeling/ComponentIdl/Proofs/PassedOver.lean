import ComponentIdl.Proofs.Builder.Placed
import ComponentIdl.Proofs.Compile

/-!
# A declaration that is passed over

A name of a namespace is given once. Of any further declaration of the name a build reads the name and
the line alone, to report it: what else it says, and of which kind it is, is lost without a trace.
-/

namespace ComponentIdl

namespace Decl

/-- Items with a place for one more type, at any depth. -/
inductive Context where
  | here (before after : List Item)
  | inside (before : List Item) (name : String) (line : Nat) (inner : Context) (after : List Item)

namespace Context

def fill (d : TypeDecl) : Context → List Item
  | here before after => before ++ .type d :: after
  | inside before name line inner after => before ++ .block name line (inner.fill d) :: after

/-- The path of the namespace that the place is in. -/
def path (outer : List String) : Context → List String
  | here _ _ => outer
  | inside _ name _ inner _ => inner.path (outer ++ segments name)

/-- The types that a walk meets before it comes to the place. -/
def before (outer : List String) : Context → List Placed
  | here before _ => itemsPlaced outer before
  | inside before name _ inner _ =>
    itemsPlaced outer before ++ inner.before (outer ++ segments name)

/-- The type stands in the place of the context, and the walk of the items meets `met` before it. -/
structure Holds (c : Context) (outer : List String) (is : List Item) (met : List Placed)
    (p : Placed) : Prop where
  items : is = c.fill p.type
  path : c.path outer = p.path
  before : c.before outer = met

variable {outer : List String} {is : List Item} {met : List Placed} {p : Placed}

theorem exists_holds_cons (i : Item) (h : ∃ c : Context, c.Holds outer is met p) :
    ∃ c : Context, c.Holds outer (i :: is) (i.placed outer ++ met) p := by
  obtain ⟨c, rfl, hpath, rfl⟩ := h
  cases c with
  | here before after =>
    refine ⟨.here (i :: before) after, rfl, hpath, ?_⟩
    rw [Context.before, itemsPlaced, Context.before]
  | inside before name line inner after =>
    refine ⟨.inside (i :: before) name line inner after, rfl, hpath, ?_⟩
    rw [Context.before, itemsPlaced, Context.before, List.append_assoc]

/-- Every type that a walk meets stands in a place. -/
theorem exists_holds (outer : List String) (is : List Item) (met after : List Placed)
    (h : itemsPlaced outer is = met ++ p :: after) : ∃ c : Context, c.Holds outer is met p := by
  cases is with
  | nil => exact absurd h (by simp [itemsPlaced])
  | cons i is =>
    rw [itemsPlaced, List.append_eq_append_iff] at h
    rcases h with ⟨rest, rfl, hrest⟩ | ⟨rest, hfirst, hrest⟩
    · exact exists_holds_cons i (exists_holds outer is rest after hrest)
    · cases rest with
      | nil =>
        -- The type is the first one after the item.
        rw [List.append_nil] at hfirst
        rw [← hfirst, ← List.append_nil (i.placed outer)]
        exact exists_holds_cons i (exists_holds outer is [] after hrest.symm)
      | cons q rest =>
        obtain ⟨rfl, -⟩ := List.cons.inj hrest
        cases i with
        | type d =>
          rw [Item.placed, List.singleton_eq_append_iff] at hfirst
          rcases hfirst with ⟨rfl, hp⟩ | ⟨-, hp⟩
          · obtain ⟨rfl, -⟩ := List.cons.inj hp
            exact ⟨.here [] is, rfl, rfl, rfl⟩
          · exact absurd hp (List.cons_ne_nil _ _)
        | block name line items =>
          rw [Item.placed] at hfirst
          obtain ⟨c, rfl, hpath, hbefore⟩ := exists_holds _ items met rest hfirst
          exact ⟨.inside [] name line c is, rfl, hpath, hbefore⟩

end Context

end Decl

namespace Builder

open Decl (Placed)

variable {b : Builder} {ps : List Placed} {path : List String} {d d' : Decl.TypeDecl}

structure Taken (ps : List Placed) (b : Builder) : Prop where
  registered : b.Registered
  names : ∀ p ∈ ps, ∃ node σ, b.store.namespaces.path? p.path = some node ∧
    b.store.namespaces.symbol? node p.type.name = some σ

theorem Taken.of_keeps (h : Taken ps b) {b' : Builder} (hb' : b'.Registered)
    (hchildren : b.store.namespaces.KeepsChildren b'.store.namespaces)
    (hsymbols : b.store.namespaces.KeepsSymbols b'.store.namespaces) : Taken ps b' := by
  refine ⟨hb', fun p hp => ?_⟩
  obtain ⟨node, σ, hpath, hσ⟩ := h.names p hp
  exact ⟨node, σ, hchildren.walk? hpath, hsymbols node _ σ hσ⟩

theorem keepsSymbols_accept (b : Builder) (d : Decl.TypeDecl) :
    b.store.namespaces.KeepsSymbols (b.accept d).store.namespaces := by
  cases hopen : b.openBlocks with
  | nil =>
    rw [accept_closed hopen]
    exact Namespaces.keepsSymbols_of_eq fun _ _ => rfl
  | cons head rest =>
    cases hs : b.store.namespaces.symbol? head.1 d.name with
    | some σ =>
      rw [accept_taken hopen hs]
      exact Namespaces.keepsSymbols_of_eq fun _ _ => rfl
    | none =>
      rw [accept_free hopen hs, Store.declare_free hs]
      exact Namespaces.keepsSymbols_addSymbol head.2 _ hs

theorem keepsSymbols_openBlock (h : b.Registered) (d : Decl.Block) :
    b.store.namespaces.KeepsSymbols (b.openBlock d).store.namespaces := by
  have hextends := (h.leads d).extends_.trans (Namespaces.extends_openBlock (b.opening d).tree
    (b.opening d).node d.line)
  rw [namespaces_openBlock]
  exact Namespaces.keepsSymbols_of_eq hextends.symbol?

/-- Once a type is accepted its name is taken, by this type or by another one. -/
theorem symbol?_accept (h : b.Registered) {node : NamespaceId} (hnode : b.innermost? = some node)
    (d : Decl.TypeDecl) : ∃ σ, (b.accept d).store.namespaces.symbol? node d.name = some σ := by
  obtain ⟨block, rest, hopen⟩ := innermost?_eq_some.1 hnode
  cases hs : b.store.namespaces.symbol? node d.name with
  | some σ => exact ⟨σ, keepsSymbols_accept b d node d.name σ hs⟩
  | none =>
    have hlt : node < b.store.namespaces.size := h.blocks (node, block) (hopen ▸ List.mem_cons_self)
    rw [accept_free hopen hs, Store.declare_free hs]
    exact ⟨_, (Namespaces.symbol?_addSymbol block _ hs hlt node d.name).trans (if_pos ⟨rfl, rfl⟩)⟩

theorem met_taken : Met Taken where
  registered _ _ h := h.registered
  accept ps b path node d h hnode hpath := by
    have hshape := sameShape_accept b d
    have hold := h.of_keeps (h.registered.accept d) hshape.keepsChildren (keepsSymbols_accept b d)
    obtain ⟨σ, hσ⟩ := symbol?_accept h.registered hnode d
    refine ⟨hold.registered, List.forall_mem_append.2 ⟨hold.names, fun p hp => ?_⟩⟩
    rw [List.mem_singleton.1 hp]
    exact ⟨node, σ, hshape.keepsChildren.walk? hpath, hσ⟩
  openBlock _ b d h :=
    h.of_keeps (h.registered.openBlock d) (keepsChildren_openBlock b d)
      (keepsSymbols_openBlock h.registered d)
  closeBlock _ _ h := ⟨h.registered.closeBlock, h.names⟩

theorem accept_passedOver (h : Taken ps b) (hstand : b.StandsAt path) (hname : d'.name = d.name)
    (hline : d'.line = d.line) (htaken : ∃ p ∈ ps, p.key = (path, d.name)) :
    b.accept d' = b.accept d := by
  cases hnode : b.innermost? with
  | none => rw [accept_outside hnode, accept_outside hnode]
  | some node =>
    obtain ⟨block, rest, hopen⟩ := innermost?_eq_some.1 hnode
    obtain ⟨p, hp, hkey⟩ := htaken
    obtain ⟨hpath, hpname⟩ := Prod.mk.inj hkey
    obtain ⟨node', σ, hnode', hσ⟩ := h.names p hp
    unfold StandsAt at hstand
    rw [hpath, hstand, hnode] at hnode'
    obtain rfl : node = node' := Option.some.inj hnode'
    rw [hpname] at hσ
    have hheader : b.headerOf node d' = b.headerOf node d := by
      unfold headerOf
      rw [hname, hline]
    rw [accept_taken hopen hσ, accept_taken hopen (hname ▸ hσ), hheader, hline]

theorem acceptItems_passedOver (c : Decl.Context) (outer : List String) (h : Taken ps b)
    (hstand : b.StandsAt outer) (htop : b.innermost? = none → ∀ i ∈ c.fill d, i.isBlock = true)
    (hname : d'.name = d.name) (hline : d'.line = d.line)
    (htaken : ∃ p ∈ ps ++ c.before outer, p.key = (c.path outer, d.name)) :
    b.acceptItems (c.fill d') = b.acceptItems (c.fill d) := by
  induction c generalizing b ps outer with
  | here before after =>
    have hbefore := met_taken.items before outer ps b h hstand fun hnone i hi =>
      htop hnone i (List.mem_append_left _ hi)
    have haccept := accept_passedOver hbefore (hstand.acceptItems before) hname hline htaken
    rw [Decl.Context.fill, Decl.Context.fill, acceptItems_append, acceptItems_append, acceptItems,
      acceptItems, acceptItem, acceptItem, haccept]
  | inside before name line inner after ih =>
    have hbefore := met_taken.items before outer ps b h hstand fun hnone i hi =>
      htop hnone i (List.mem_append_left _ hi)
    have hopened := met_taken.openBlock _ _ ⟨name, line, inner.fill d⟩ hbefore
    have hstand' := (hstand.acceptItems before).openBlock hbefore.registered
      ⟨name, line, inner.fill d⟩
    have hinside := ih (outer ++ segments name) hopened hstand'
      (by rw [innermost?_openBlock]; exact nofun) (by rw [List.append_assoc]; exact htaken)
    -- A block that is opened is not asked for its items.
    have hsame : (b.acceptItems before).openBlock ⟨name, line, inner.fill d'⟩ =
        (b.acceptItems before).openBlock ⟨name, line, inner.fill d⟩ := rfl
    rw [Decl.Context.fill, Decl.Context.fill, acceptItems_append, acceptItems_append,
      acceptItems_block, acceptItems_block, hsame, hinside]

end Builder

variable (settings : Settings) (catalog : Catalog) {u u' : Decl.Unit} {c : Decl.Context}
  {met after : List Decl.Placed} {p : Decl.Placed} {d' : Decl.TypeDecl}

theorem taken_builder : Builder.Taken [] (Workspace.ofCatalog settings catalog).builder :=
  ⟨builder_registered settings catalog, fun _ hp => absurd hp List.not_mem_nil⟩

theorem compile_refilled (h : c.Holds [] u.items met p) (htaken : ∃ q ∈ met, q.key = p.key)
    (hitems : u'.items = c.fill d') (herrors : u'.syntaxErrors = u.syntaxErrors)
    (hname : d'.name = p.type.name) (hline : d'.line = p.type.line) :
    compile settings catalog u' = compile settings catalog u := by
  have htop : ∀ i ∈ c.fill p.type, i.isBlock = true := fun i hi =>
    Decl.Unit.isBlock_of_mem (u := u) (h.items ▸ hi)
  have htaken' : ∃ q ∈ [] ++ c.before [], q.key = (c.path [], p.type.name) := by
    rw [h.before, h.path]
    exact htaken
  have hsame := Builder.acceptItems_passedOver c [] (taken_builder settings catalog)
    (Builder.standsAt_root _ rfl) (fun _ => htop) hname hline htaken'
  apply compile_of_declared settings catalog herrors
  unfold declared
  rw [Workspace.declare_eq, Workspace.declare_eq, h.items, hitems, hsame]

/-- A type whose name was given before in its namespace has a place in the source file, and with any
other type of the same name and line in this place the file is compiled to the same workspace. -/
theorem compile_passedOver (hplaced : u.placed = met ++ p :: after)
    (htaken : ∃ q ∈ met, q.key = p.key) :
    (∃ c : Decl.Context, c.Holds [] u.items met p) ∧
      ∀ c : Decl.Context, c.Holds [] u.items met p → ∀ (u' : Decl.Unit) (d' : Decl.TypeDecl),
        u'.items = c.fill d' → u'.syntaxErrors = u.syntaxErrors → d'.name = p.type.name →
          d'.line = p.type.line → compile settings catalog u' = compile settings catalog u :=
  ⟨Decl.Context.exists_holds [] u.items met after hplaced,
    fun _ hc _ _ hitems herrors hname hline =>
      compile_refilled settings catalog hc htaken hitems herrors hname hline⟩

def beaconStruct : Decl.TypeDecl := .structDecl ⟨"Beacon", 2, [⟨"height", 3, "Int32"⟩]⟩

def beaconClass : Decl.TypeDecl :=
  .classDecl ⟨"Beacon", 7, { isStatic := true }, ["ILight"],
    [.method ⟨"Flash", 8, false, none, [⟨"times", 8, .input, "Int32"⟩]⟩]⟩

def beaconEnum : Decl.TypeDecl :=
  .enumDecl ⟨"Beacon", 7, .int32, [⟨"Red", 7, none⟩, ⟨"Red", 7, some "1"⟩]⟩

/-- A struct of a namespace beside its inner one, which has a struct of the same name. -/
def outerBeacon : Decl.TypeDecl := .structDecl ⟨"Beacon", 9, []⟩

/-- A namespace in two blocks: the same name is given to a struct first, and then to the type. -/
def harborOf (d : Decl.TypeDecl) : Decl.Unit :=
  ⟨[⟨"Sea.Port", 1, [.type beaconStruct]⟩,
    ⟨"Sea", 5, [.block "Port" 6 [.type d], .type outerBeacon]⟩], 0⟩

def beaconPlace : Decl.Context :=
  .inside [.block "Sea.Port" 1 [.type beaconStruct]] "Sea" 5
    (.inside [] "Port" 6 (.here [] []) [.type outerBeacon]) []

theorem compile_passedOver_beacons :
    (harborOf beaconClass).placed = [⟨["Sea", "Port"], beaconStruct⟩] ++
        ⟨["Sea", "Port"], beaconClass⟩ :: [⟨["Sea"], outerBeacon⟩] ∧
      beaconStruct.name = beaconClass.name ∧
      (compile {} {} (harborOf beaconClass)).report.entries.map (·.line) = [7] ∧
      compile {} {} (harborOf beaconEnum) = compile {} {} (harborOf beaconClass) := by
  have hplaced : (harborOf beaconClass).placed = [⟨["Sea", "Port"], beaconStruct⟩] ++
      ⟨["Sea", "Port"], beaconClass⟩ :: [⟨["Sea"], outerBeacon⟩] := rfl
  have hall := compile_passedOver {} {} hplaced ⟨_, List.mem_cons_self, rfl⟩
  have hplace : beaconPlace.Holds [] (harborOf beaconClass).items
      [⟨["Sea", "Port"], beaconStruct⟩] ⟨["Sea", "Port"], beaconClass⟩ := ⟨rfl, rfl, rfl⟩
  exact ⟨hplaced, rfl, by decide +kernel,
    hall.2 beaconPlace hplace (harborOf beaconEnum) beaconEnum rfl rfl rfl rfl⟩

end ComponentIdl
