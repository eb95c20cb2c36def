import ComponentIdl.Proofs.Builder.Body
import ComponentIdl.Proofs.FirstDeclaration

/-!
# Methods are members expanded

The methods of a class or interface are read off its declaration. Every method stands for itself, a
property for the accessors it asks for and an event for both of its accessors, each in the place of the
member. A member that is refused has no place, and constructors are kept apart. The classes and interfaces
that get a slot are the first declarations of their names, where a name was not taken before.
-/

namespace ComponentIdl

/-- The class or interface is what is kept of the declaration, and what was refused is reported. -/
structure ObjectType.Expands (o : ObjectType) (d : Decl.TypeDecl) (found : List Diagnostic) :
    Prop where
  name : o.name = d.name
  line : o.line = d.line
  isClass : o.isClass = d.isClass
  methods : o.methods = Decl.expansion o.scope d.members
  constructors : o.constructors =
    if d.isClass then (d.members.filterMap Decl.Member.constructor?).map .ofDecl else []
  reported : Decl.bodyReports o.scope d.members ⊆ found

theorem ObjectType.Expands.mono {o : ObjectType} {d : Decl.TypeDecl} {found found' : List Diagnostic}
    (h : o.Expands d found) (hfound : found ⊆ found') : o.Expands d found' :=
  { h with reported := fun _ hr => hfound (h.reported hr) }

def Decl.Placed.isObject (p : Placed) : Bool := p.type.isObject

namespace Decl.TypeDecl

variable {d : TypeDecl} {h : Header}

theorem opened_of_isObject (hd : d.isObject = true) (h : Header) :
    ∃ o, d.opened h = .object o ∧ o.IsNew h ∧ o.isClass = d.isClass := by
  cases d with
  | classDecl d => exact ⟨_, rfl, Builder.isNew_class d h, rfl⟩
  | interfaceDecl d => exact ⟨_, rfl, Builder.isNew_interface d h, rfl⟩
  | _ => exact absurd hd Bool.false_ne_true

/-- The class or interface with its members is its declaration expanded. -/
theorem built_expands (hd : d.isObject = true) (hname : h.name = d.name) (hline : h.line = d.line) :
    ∃ o, d.built h = .object o ∧ o.toHeader = h ∧ o.Expands d (d.faults h) := by
  obtain ⟨opened, hopened, hnew, hclass⟩ := opened_of_isObject hd h
  obtain ⟨close, hvisits, hclose⟩ := visits_of_isObject hd
  have hfocus : (d.seed h).focus = .object 0 := by
    cases d with
    | classDecl d => rfl
    | interfaceDecl d => rfl
    | _ => exact absurd hd Bool.false_ne_true
  have hslot : (d.seed h).store.objects[0]? = some opened := by
    unfold seed
    rw [hopened]
    rfl
  have halone : d.alone h = ((d.seed h).run (d.members.map Member.visit)).closeObject := by
    rw [visits_eq_cons] at hvisits
    unfold alone
    rw [(List.cons.inj hvisits).2, Builder.run_append, ← hclose]
    rfl
  have hbody := (Builder.body_start hfocus hslot hnew rfl rfl).members d.members
  obtain ⟨hstore, o, ho, hmembers, hfound⟩ := hbody.closeObject
  rw [List.nil_append] at hmembers hfound
  rw [← halone] at hstore hfound
  have hbuilt : d.built h = .object o := by
    unfold built
    rw [hopened, hstore, Store.sole, ho]
    rfl
  have hgrown := (d.alone_store h).1
  rw [hopened, hbuilt] at hgrown
  obtain ⟨hheader, hisClass⟩ := Prod.mk.inj hgrown
  have hkept : o.toHeader = h := hheader.trans hnew.header
  have hisClass : o.isClass = d.isClass := hisClass.trans hclass
  refine ⟨o, hbuilt, hkept, ⟨?_, ?_, hisClass, ?_, ?_, ?_⟩⟩
  · rw [hkept, hname]
  · rw [hkept, hline]
  · rw [hmembers.within]
    exact hmembers.methods
  · rw [hmembers.constructors, hisClass]
  · rw [hmembers.within]
    unfold faults
    rw [hfound]
    exact fun r hr => List.mem_append_left _ (List.mem_append_right _ hr)

/-- Structs, enums and delegates have no slots among classes and interfaces. -/
theorem objects_add_built (hd : d.isObject = false) (h : Header) (st : Store) :
    (st.add (d.built h)).objects = st.objects := by
  rw [built_eq_kept]
  cases d with
  | classDecl d => exact absurd hd.symm Bool.false_ne_true
  | interfaceDecl d => exact absurd hd.symm Bool.false_ne_true
  | structDecl d => rfl
  | enumDecl d => rfl
  | delegateDecl d => rfl

end Decl.TypeDecl

namespace Builder

open Decl (Placed)

variable {b b' b'' : Builder} {place : Placed → Header → Prop} {kept kept' : List Placed}
  {p : Placed}

/-- Between two builders the classes and interfaces have been kept, each in the next slot and with a header
for its place. -/
structure Keeps (place : Placed → Header → Prop) (b : Builder) (kept : List Placed) (b' : Builder) :
    Prop where
  found : b.found <+: b'.found
  slots : ∃ new, b'.store.objects.toList = b.store.objects.toList ++ new ∧
    List.Forall₂ (fun p o => place p o.toHeader ∧ o.Expands p.type b'.found) kept new

theorem Keeps.of_objects (ho : b'.store.objects = b.store.objects) (hfound : b.found <+: b'.found) :
    Keeps place b [] b' :=
  ⟨hfound, [], by rw [ho, List.append_nil], .nil⟩

theorem Keeps.trans (h : Keeps place b kept b') (h' : Keeps place b' kept' b'') :
    Keeps place b (kept ++ kept') b'' := by
  obtain ⟨new, hnew, hexpands⟩ := h.slots
  obtain ⟨new', hnew', hexpands'⟩ := h'.slots
  have hlater : List.Forall₂ (fun p o => place p o.toHeader ∧ o.Expands p.type b''.found) kept new :=
    hexpands.imp fun _ _ ho => ⟨ho.1, ho.2.mono h'.found.subset⟩
  refine ⟨h.found.trans h'.found, new ++ new', ?_, List.rel_append hlater hexpands'⟩
  rw [hnew', hnew, List.append_assoc]

section Accept

variable {node : NamespaceId} {block : Nat} {rest : List (NamespaceId × Nat)}

theorem keeps_taken {σ : Symbol} (hopen : b.openBlocks = (node, block) :: rest)
    (hused : b.store.namespaces.symbol? node p.type.name = some σ) :
    Keeps place b [] (b.accept p.type) := by
  rw [accept_taken hopen hused]
  exact .of_objects rfl (List.prefix_append ..)

theorem keeps_free (hopen : b.openBlocks = (node, block) :: rest)
    (hfree : b.store.namespaces.symbol? node p.type.name = none)
    (hplace : place p (b.headerOf node p.type)) :
    Keeps place b ([p].filter Placed.isObject) (b.accept p.type) := by
  let h := b.headerOf node p.type
  have hobjects : (b.accept p.type).store.objects = (b.store.add (p.type.built h)).objects := by
    rw [accept_free hopen hfree, Store.declare_free hfree]
  have hfound : (b.accept p.type).found = b.found ++ p.type.faults h := by
    rw [accept_free hopen hfree]
  have hgrown : b.found <+: (b.accept p.type).found := by
    rw [hfound]
    exact List.prefix_append ..
  cases hp : p.isObject with
  | false =>
    rw [List.filter_cons_of_neg (Bool.eq_false_iff.1 hp)]
    exact .of_objects (hobjects.trans (Decl.TypeDecl.objects_add_built hp h b.store)) hgrown
  | true =>
    obtain ⟨o, hbuilt, hheader, hexpands⟩ := Decl.TypeDecl.built_expands hp (h := h) rfl rfl
    rw [List.filter_cons_of_pos hp]
    refine ⟨hgrown, [o], ?_, .cons ⟨?_, hexpands.mono ?_⟩ .nil⟩
    · rw [hobjects, hbuilt, Store.add, Array.toList_push]
    · rw [hheader]
      exact hplace
    · rw [hfound]
      exact List.subset_append_right ..

end Accept

/-- Of a type nothing is kept but the class or interface itself, whatever the build is like. -/
theorem keeps_accept (b : Builder) (p : Placed) :
    ∃ kept, kept.Sublist ([p].filter Placed.isObject) ∧
      Keeps (fun _ _ => True) b kept (b.accept p.type) := by
  cases hopen : b.openBlocks with
  | nil =>
    rw [accept_closed hopen]
    exact ⟨[], List.nil_sublist _, .of_objects rfl List.prefix_rfl⟩
  | cons head rest =>
    cases hs : b.store.namespaces.symbol? head.1 p.type.name with
    | some σ => exact ⟨[], List.nil_sublist _, keeps_taken hopen hs⟩
    | none => exact ⟨_, List.Sublist.refl _, keeps_free hopen hs trivial⟩

theorem keeps_openBlock (b : Builder) (d : Decl.Block) : Keeps place b [] (b.openBlock d) :=
  .of_objects (slots_openBlock ..).1 (found_visit b (.openBlock d))

theorem Keeps.closeBlock (h : Keeps place b kept b') : Keeps place b kept b'.closeBlock :=
  ⟨h.found, h.slots⟩

mutual

theorem keeps_item (i : Decl.Item) (path : List String) (b : Builder) :
    ∃ kept, kept.Sublist ((i.placed path).filter Placed.isObject) ∧
      Keeps (fun _ _ => True) b kept (b.acceptItem i) := by
  cases i with
  | type d => exact b.keeps_accept ⟨path, d⟩
  | block name line items =>
    obtain ⟨kept, hkept, hkeeps⟩ := keeps_items items (path ++ segments name)
      (b.openBlock ⟨name, line, items⟩)
    exact ⟨kept, hkept, ((b.keeps_openBlock _).trans hkeeps).closeBlock⟩

theorem keeps_items (is : List Decl.Item) (path : List String) (b : Builder) :
    ∃ kept, kept.Sublist ((Decl.itemsPlaced path is).filter Placed.isObject) ∧
      Keeps (fun _ _ => True) b kept (b.acceptItems is) := by
  cases is with
  | nil => exact ⟨[], List.nil_sublist _, .of_objects rfl List.prefix_rfl⟩
  | cons i is =>
    obtain ⟨kept, hkept, hkeeps⟩ := keeps_item i path b
    obtain ⟨kept', hkept', hkeeps'⟩ := keeps_items is path (b.acceptItem i)
    rw [Decl.itemsPlaced, List.filter_append]
    exact ⟨kept ++ kept', hkept.append hkept', hkeeps.trans hkeeps'⟩

end

end Builder

namespace Store

open Decl (Placed)

variable {st : Store} {ps : List Placed} {p : Placed}

/-- The classes and interfaces for which a store has room: the first ones of their keys, where the name is
not taken. -/
def admitted (st : Store) (ps : List Placed) : List Placed :=
  (firsts Placed.key ps).filter fun p => p.isObject && (st.at? p.path p.type.name).isNone

theorem admitted_sublist (st : Store) (ps : List Placed) :
    (st.admitted ps).Sublist (ps.filter Placed.isObject) := by
  have hfree : st.admitted ps = ((firsts Placed.key ps).filter Placed.isObject).filter
      fun p => (st.at? p.path p.type.name).isNone := by
    rw [List.filter_filter]
    exact List.filter_congr fun p _ => Bool.and_comm ..
  rw [hfree]
  exact List.filter_sublist.trans ((firsts_sublist Placed.key ps).filter Placed.isObject)

theorem admitted_concat_new (hnew : (ps.any fun q => q.key == p.key) = false)
    (hfree : st.at? p.path p.type.name = none) :
    st.admitted (ps ++ [p]) = st.admitted ps ++ [p].filter Placed.isObject := by
  unfold admitted
  rw [firsts_concat_new hnew, List.filter_append]
  simp [List.filter_cons, hfree]

theorem admitted_concat_taken
    (h : (ps.any fun q => q.key == p.key) = true ∨ st.at? p.path p.type.name ≠ none) :
    st.admitted (ps ++ [p]) = st.admitted ps := by
  unfold admitted
  cases hany : ps.any fun q => q.key == p.key with
  | true => rw [firsts_concat_repeat hany]
  | false =>
    have htaken : st.at? p.path p.type.name ≠ none := h.resolve_left (Bool.eq_false_iff.1 hany)
    rw [firsts_concat_new hany, List.filter_append, List.append_right_eq_self]
    simp [htaken]

end Store

namespace Builder

open Decl (Placed)

variable {b b₀ : Builder} {ps : List Placed}

/-- A build that started as another one did has met the types: it has kept those admitted. -/
structure Admits (b₀ : Builder) (ps : List Placed) (b : Builder) : Prop where
  sound : b.Sound
  source : b.assembly = b₀.assembly
  free : ∀ path name, b.store.at? path name = none ↔
    b₀.store.at? path name = none ∧ (ps.any fun p => p.key == (path, name)) = false
  keeps : Keeps (fun p h => h = p.header b₀.assembly) b₀ (b₀.store.admitted ps) b

theorem admits_start (h : b.Sound) : Admits b [] b :=
  ⟨h, rfl, fun _ _ => ⟨fun hnone => ⟨hnone, rfl⟩, And.left⟩, .of_objects rfl List.prefix_rfl⟩

section Step

variable {path : List String} {node : NamespaceId} {d : Decl.TypeDecl}

/-- The place of a type is taken once the type is met, and every other place is as free as before. -/
theorem Admits.free_accept (h : Admits b₀ ps b) (hnode : b.innermost? = some node)
    (hpath : b.store.namespaces.path? path = some node) (other : List String) (name : String) :
    (b.accept d).store.at? other name = none ↔
      b₀.store.at? other name = none ∧
        ((ps ++ [(⟨path, d⟩ : Placed)]).any fun p => p.key == (other, name)) = false := by
  rw [at?_accept h.sound hnode hpath, List.any_append, Bool.or_eq_false_iff, List.any_cons,
    List.any_nil, Bool.or_false, ← and_assoc, ← h.free]
  by_cases hkey : (path, d.name) = (other, name)
  · have hgain : b.named? node d.name = none → b.gain node d ≠ none := by
      intro hnone
      unfold gain
      rw [hnone]
      exact Option.some_ne_none _
    rw [if_pos hkey, Option.or_eq_none_iff]
    obtain ⟨rfl, rfl⟩ := Prod.mk.inj hkey
    rw [at?_eq_named? hpath]
    constructor
    · rintro ⟨hnone, hno⟩
      exact absurd hno (hgain hnone)
    · rintro ⟨-, hno⟩
      exact absurd rfl (beq_eq_false_iff_ne.1 hno)
  · rw [if_neg hkey]
    exact ⟨fun hnone => ⟨hnone, beq_eq_false_iff_ne.2 hkey⟩, And.left⟩

theorem Admits.accept (h : Admits b₀ ps b) (hnode : b.innermost? = some node)
    (hpath : b.store.namespaces.path? path = some node) :
    Admits b₀ (ps ++ [⟨path, d⟩]) (b.accept d) := by
  obtain ⟨block, rest, hopen⟩ := innermost?_eq_some.1 hnode
  have hfree : b.store.namespaces.symbol? node d.name = none ↔ b₀.store.at? path d.name = none ∧
      (ps.any fun p => p.key == (path, d.name)) = false := by
    rw [← h.sound.named?_eq_none, ← at?_eq_named? hpath, h.free]
  have hheader : b.headerOf node d = Placed.header b₀.assembly ⟨path, d⟩ := by
    rw [← h.source, headerOf_eq_header h.sound.registered hpath]
  refine ⟨h.sound.accept d, (accepts_accept h.sound hnode d).assembly.trans h.source,
    h.free_accept hnode hpath, ?_⟩
  cases hs : b.store.namespaces.symbol? node d.name with
  | some σ =>
    have htaken : (ps.any fun p => p.key == (path, d.name)) = true ∨
        b₀.store.at? path d.name ≠ none := by
      by_contra hno
      rw [not_or, Bool.not_eq_true, not_not] at hno
      rw [hfree.2 hno.symm] at hs
      exact absurd hs nofun
    have hkeeps := h.keeps.trans (keeps_taken (p := ⟨path, d⟩) hopen hs)
    rw [List.append_nil, ← Store.admitted_concat_taken (p := ⟨path, d⟩) htaken] at hkeeps
    exact hkeeps
  | none =>
    obtain ⟨hold, hnew⟩ := hfree.1 hs
    rw [Store.admitted_concat_new (p := ⟨path, d⟩) hnew hold]
    exact h.keeps.trans (keeps_free (p := ⟨path, d⟩) hopen hs hheader)

end Step

theorem met_admits (b₀ : Builder) : Met (Admits b₀) where
  registered _ _ h := h.sound.registered
  accept _ _ _ _ _ h hnode hpath := h.accept hnode hpath
  openBlock _ b d h := by
    have hkeeps := h.keeps.trans (b.keeps_openBlock d)
    rw [List.append_nil] at hkeeps
    refine ⟨h.sound.openBlock d, (assembly_openBlock b d).trans h.source, fun path name => ?_, hkeeps⟩
    rw [at?_openBlock h.sound.registered, h.free]
  closeBlock _ _ h := ⟨h.sound.closeBlock, h.source, h.free, h.keeps.closeBlock⟩

end Builder

/-- After a source file is declared, the new classes and interfaces are those kept of its declarations, in
the order of a walk. The methods of each are its members expanded, and only a class has constructors. Kept
in a sound workspace, which stays one, are the first declarations of their keys whose names were free, and
each has the header of its place. -/
theorem Workspace.declare_expands (w : Workspace) (u : Decl.Unit) :
    ∃ kept new, kept.Sublist (u.placed.filter Decl.Placed.isObject) ∧
      (w.declare u).1.store.objects.toList = w.store.objects.toList ++ new ∧
      List.Forall₂ (fun p o => ObjectType.Expands o p.type (w.declare u).1.report.entries) kept new ∧
      (w.builder.Sound → (w.declare u).1.builder.Sound ∧ kept = w.store.admitted u.placed ∧
        List.Forall₂ (fun p o => o.toHeader = p.header w.settings.assembly) kept new) := by
  rw [Workspace.declare_eq]
  have hreport : ∀ {kept : List Decl.Placed} {new : List ObjectType},
      List.Forall₂ (fun p o => ObjectType.Expands o p.type (w.builder.acceptItems u.items).found)
        kept new →
      List.Forall₂ (fun p o => ObjectType.Expands o p.type
        (w.ofBuilder (w.builder.acceptItems u.items)).report.entries) kept new :=
    fun h => h.imp fun _ _ ho => ho.mono (List.subset_append_right ..)
  -- Only in a sound workspace does a path tell whether a name in it is taken.
  by_cases hsound : w.builder.Sound
  · have hadmits := (Builder.met_admits w.builder).unit u (Builder.admits_start hsound) rfl
    have hnext : (w.ofBuilder (w.builder.acceptItems u.items)).builder.Sound :=
      ⟨⟨hadmits.sound.registered.store, nofun, hadmits.sound.registered.table⟩,
        hadmits.sound.recording.store, nofun⟩
    obtain ⟨new, hnew, hexpands⟩ := hadmits.keeps.slots
    exact ⟨_, new, Store.admitted_sublist _ _, hnew, hreport (hexpands.imp fun _ _ ho => ho.2),
      fun _ => ⟨hnext, rfl, hexpands.imp fun _ _ ho => ho.1⟩⟩
  · obtain ⟨kept, hkept, hkeeps⟩ := Builder.keeps_items u.items [] w.builder
    obtain ⟨new, hnew, hexpands⟩ := hkeeps.slots
    exact ⟨kept, new, hkept, hnew, hreport (hexpands.imp fun _ _ ho => ho.2),
      fun h => absurd h hsound⟩

/-- Two fragments of a property with a method between them, a third one, an event, and another event of
the same name. -/
def shutterMembers : List Decl.Member :=
  [.property ⟨"Angle", 2, false, "Int32", some [⟨.set, 2⟩, ⟨.set, 3⟩]⟩,
    .method ⟨"Turn", 4, false, none, []⟩,
    .property ⟨"Angle", 5, false, "Int32", some [⟨.add, 5⟩, ⟨.get, 6⟩]⟩,
    .property ⟨"Angle", 7, false, "Int32", none⟩,
    .event ⟨"Moved", 8, false, "Action", none⟩,
    .event ⟨"Moved", 9, false, "Action", none⟩]

/-- A class and an interface of one name. -/
def shutters : Decl.Unit :=
  ⟨[⟨"Sea.Port", 1, [.type (.classDecl ⟨"Shutter", 1, {}, [], shutterMembers⟩)]⟩,
    ⟨"Sea", 10, [.block "Port" 11 [.type (.interfaceDecl ⟨"Shutter", 12, [], []⟩)]]⟩], 0⟩

theorem Workspace.declare_expands_shutters : ∃ o,
    ((Workspace.ofCatalog {} {}).declare shutters).1.store.objects.toList = [o] ∧
      o.scope = "Sea.Port" ∧ o.line = 1 ∧
      o.methods.map Method.name =
        ["put_Angle", "Turn", "get_Angle", "add_Moved", "remove_Moved"] := by
  have hsound : (Workspace.ofCatalog {} {}).builder.Sound :=
    ⟨builder_registered {} {}, Workspace.recording_builder Store.recorded_empty⟩
  obtain ⟨kept, new, -, hnew, hexpands, hplaces⟩ :=
    Workspace.declare_expands (.ofCatalog {} {}) shutters
  obtain ⟨-, hkept, hheaders⟩ := hplaces hsound
  have hfirst : (Workspace.ofCatalog {} {}).store.admitted shutters.placed =
      [⟨["Sea", "Port"], .classDecl ⟨"Shutter", 1, {}, [], shutterMembers⟩⟩] := rfl
  rw [hkept, hfirst] at hexpands hheaders
  cases hexpands with
  | @cons _ o _ _ ho hrest =>
    cases hrest
    cases hheaders with
    | cons hheader _ =>
      have hscope : o.scope = "Sea.Port" := congrArg Header.scope hheader
      refine ⟨o, hnew, hscope, ho.line, ?_⟩
      rw [ho.methods, hscope]
      decide +kernel

end ComponentIdl
