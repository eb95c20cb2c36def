import ComponentIdl.Proofs.Builder.Firsts
import ComponentIdl.Proofs.Builder.Placed
import ComponentIdl.Proofs.Compile
import ComponentIdl.Proofs.Reordering

/-!
# The first declaration of a name

A namespace may be opened in many blocks, nested or dotted, with other namespaces between them. Under
each name it has the first declaration that a walk of the source file meets, and of every further one no
more than a diagnostic is left. The same goes for the fields of a struct and the members of an enum.
-/

namespace ComponentIdl

namespace Decl.Placed

def header (assembly : String) (p : Placed) : Header :=
  { name := p.type.name, scope := ".".intercalate p.path, line := p.type.line, assembly }

def entity (assembly : String) (p : Placed) : Entity := p.type.kept (p.header assembly)

/-- That the type is passed over, with its line and its dotted name. -/
def passedOver (p : Placed) : Diagnostic :=
  .of .duplicateNamespaceMember p.type.line (".".intercalate (p.path ++ [p.type.name]))

end Decl.Placed

/-- The declaration under a simple name in the namespace at a path. -/
def Store.at? (st : Store) (path : List String) (name : String) : Option Entity :=
  (st.namespaces.path? path).bind fun n => (st.namespaces.symbol? n name).bind st.entity?

theorem filter_kind_append {kind : Diagnostic.Kind} {found more : List Diagnostic}
    (h : ∀ r ∈ more, r.kind ≠ kind) :
    ((found ++ more).filter fun r => r.kind == kind) = found.filter fun r => r.kind == kind := by
  have hnothing : (more.filter fun r => r.kind == kind) = [] :=
    List.filter_eq_nil_iff.2 fun r hr heq => h r hr (beq_iff_eq.1 heq)
  rw [List.filter_append, hnothing, List.append_nil]

namespace Builder

open Decl (Placed)

variable {b : Builder} {ps : List Placed} {assembly : String} {path : List String}
  {node : NamespaceId} {d : Decl.TypeDecl}

theorem at?_eq_named? (hpath : b.store.namespaces.path? path = some node) (name : String) :
    b.store.at? path name = b.named? node name := by
  unfold Store.at?
  rw [hpath]
  rfl

theorem at?_eq_none (hpath : b.store.namespaces.path? path = none) (name : String) :
    b.store.at? path name = none := by
  unfold Store.at?
  rw [hpath]
  rfl

/-- A build has met the types: the first one of each key is declared, and the others are reported. -/
structure Firsts (assembly : String) (ps : List Placed) (b : Builder) : Prop where
  sound : b.Sound
  source : b.assembly = assembly
  named : ∀ path name, b.store.at? path name =
    (ps.find? fun p => p.key == (path, name)).map (Placed.entity assembly)
  slots : { b.store with namespaces := .empty } =
    ((firsts Placed.key ps).map (Placed.entity assembly)).foldl Store.add {}
  passedOver : (b.found.filter fun r => r.kind == .duplicateNamespaceMember) =
    (repeats Placed.key ps).map Placed.passedOver
  excess : ∀ kind, kind ≠ .duplicateNamespaceMember → kind ≠ .namespaceCaseConflict →
    (b.found.filter fun r => r.kind == kind) = (firsts Placed.key ps).flatMap fun p =>
      (p.type.excess (p.header assembly)).filter fun r => r.kind == kind

theorem headerOf_eq_header (h : b.Registered)
    (hpath : b.store.namespaces.path? path = some node) (d : Decl.TypeDecl) :
    b.headerOf node d = Placed.header b.assembly ⟨path, d⟩ := by
  unfold headerOf
  rw [(h.store.tree.spells hpath).nameOf]
  rfl

theorem dottedName_headerOf (h : b.Registered)
    (hpath : b.store.namespaces.path? path = some node) (d : Decl.TypeDecl) :
    (b.headerOf node d).dottedName = ".".intercalate (path ++ [d.name]) := by
  unfold Header.dottedName headerOf DottedName.within DottedName.render
  rw [h.store.tree.segments_nameOf hpath]

/-- A declaration is found at the path of its namespace and nowhere else. -/
theorem at?_accept (h : b.Sound) (hnode : b.innermost? = some node)
    (hpath : b.store.namespaces.path? path = some node) (other : List String) (name : String) :
    (b.accept d).store.at? other name =
      if (path, d.name) = (other, name) then (b.store.at? other name).or (b.gain node d)
        else b.store.at? other name := by
  have haccepts := accepts_accept h hnode d
  have hsame : (b.accept d).store.namespaces.path? other = b.store.namespaces.path? other :=
    haccepts.shape.walk? Namespaces.root other
  cases hother : b.store.namespaces.path? other with
  | none =>
    rw [if_neg]
    · rw [at?_eq_none (hsame.trans hother), at?_eq_none hother]
    · rintro heq
      rw [(Prod.mk.inj heq).1, hother] at hpath
      simp at hpath
  | some n =>
    rw [at?_eq_named? (hsame.trans hother), at?_eq_named? hother, haccepts.entry]
    have hiff : (n = node ∧ name = d.name) ↔ (path, d.name) = (other, name) := by
      constructor
      · rintro ⟨rfl, rfl⟩
        rw [h.registered.store.tree.path_unique hpath hother]
      · intro heq
        obtain ⟨rfl, rfl⟩ := Prod.mk.inj heq
        exact ⟨Option.some.inj (hother.symm.trans hpath), rfl⟩
    by_cases heq : (path, d.name) = (other, name)
    · rw [if_pos heq, if_pos (hiff.2 heq)]
    · rw [if_neg heq, if_neg (mt hiff.1 heq)]

theorem find?_eq_none_of_any {k : List String × String}
    (h : (ps.any fun p => p.key == k) = false) : (ps.find? fun p => p.key == k) = none := by
  rw [List.find?_eq_none]
  intro p hp hk
  exact List.any_eq_false.1 h p hp hk

theorem find?_concat_map (ps : List Placed) (p : Placed) (k : List String × String) :
    ((ps ++ [p]).find? fun p => p.key == k).map (Placed.entity assembly) =
      if p.key = k then
        ((ps.find? fun p => p.key == k).map (Placed.entity assembly)).or (some (p.entity assembly))
      else (ps.find? fun p => p.key == k).map (Placed.entity assembly) := by
  rw [List.find?_append]
  by_cases hk : p.key = k
  · rw [if_pos hk, List.find?_cons_of_pos (by simpa using hk)]
    cases ps.find? fun p => p.key == k <;> rfl
  · rw [if_neg hk, List.find?_cons_of_neg (by simpa using hk), List.find?_nil, Option.or_none]

theorem Firsts.accept_new (h : Firsts assembly ps b) (hnode : b.innermost? = some node)
    (hpath : b.store.namespaces.path? path = some node)
    (hnew : (ps.any fun p => p.key == (path, d.name)) = false) :
    Firsts assembly (ps ++ [⟨path, d⟩]) (b.accept d) := by
  have hnone : b.named? node d.name = none := by
    rw [← at?_eq_named? hpath, h.named, find?_eq_none_of_any hnew, Option.map_none]
  have hheader : b.headerOf node d = Placed.header assembly ⟨path, d⟩ := by
    rw [← h.source, headerOf_eq_header h.sound.registered hpath]
  have hbuilt : d.built (b.headerOf node d) = Placed.entity assembly ⟨path, d⟩ := by
    rw [hheader, d.built_eq_kept]
    rfl
  -- What is declared depends on the place of the type and on nothing that was met before.
  have hgain : b.gain node d = some (Placed.entity assembly ⟨path, d⟩) := by
    unfold gain
    rw [hnone, hbuilt]
  have hexcess := d.kind_excess (Placed.header assembly ⟨path, d⟩)
  have haccepts := accepts_accept h.sound hnode d
  have hfound : (b.accept d).found =
      b.found ++ d.excess (Placed.header assembly ⟨path, d⟩) := by
    rw [haccepts.found]
    unfold notes
    rw [hnone, hheader, d.faults_eq_excess]
  have hfirsts : firsts Placed.key (ps ++ [⟨path, d⟩]) = firsts Placed.key ps ++ [⟨path, d⟩] :=
    firsts_concat_new hnew
  have hrepeats : repeats Placed.key (ps ++ [⟨path, d⟩]) = repeats Placed.key ps :=
    repeats_concat_new hnew
  refine ⟨h.sound.accept d, haccepts.assembly.trans h.source, ?_, ?_, ?_, ?_⟩
  · intro other name
    rw [at?_accept h.sound hnode hpath, h.named, hgain, find?_concat_map]
    rfl
  · obtain ⟨block, rest, hopen⟩ := innermost?_eq_some.1 hnode
    have hfree := h.sound.named?_eq_none.1 hnone
    have hstore : { (b.accept d).store with namespaces := .empty } =
        ({ b.store with namespaces := .empty } : Store).add (Placed.entity assembly ⟨path, d⟩) := by
      rw [accept_free hopen hfree, Store.declare_free hfree, hbuilt]
      exact (b.store.add_tree .empty _).symm
    rw [hstore, h.slots, hfirsts, List.map_append, List.foldl_append]
    rfl
  · rw [hfound, filter_kind_append fun r hr => (hexcess r hr).1, h.passedOver, hrepeats]
  · intro kind hname hcase
    rw [hfound, List.filter_append, h.excess kind hname hcase, hfirsts, List.flatMap_append,
      List.flatMap_singleton]

theorem Firsts.accept_repeat (h : Firsts assembly ps b) (hnode : b.innermost? = some node)
    (hpath : b.store.namespaces.path? path = some node)
    (hrepeat : (ps.any fun p => p.key == (path, d.name)) = true) :
    Firsts assembly (ps ++ [⟨path, d⟩]) (b.accept d) := by
  obtain ⟨q, hq⟩ := Option.isSome_iff_exists.1 (List.find?_isSome.2 (List.any_eq_true.1 hrepeat))
  have hsome : b.named? node d.name = some (q.entity assembly) := by
    rw [← at?_eq_named? hpath, h.named, hq, Option.map_some]
  have hgain : b.gain node d = none := by
    unfold gain
    rw [hsome]
  have haccepts := accepts_accept h.sound hnode d
  have hfound : (b.accept d).found = b.found ++ [Placed.passedOver ⟨path, d⟩] := by
    rw [haccepts.found]
    unfold notes
    rw [hsome, dottedName_headerOf h.sound.registered hpath]
    rfl
  have hfirsts : firsts Placed.key (ps ++ [⟨path, d⟩]) = firsts Placed.key ps :=
    firsts_concat_repeat hrepeat
  have hrepeats : repeats Placed.key (ps ++ [⟨path, d⟩]) = repeats Placed.key ps ++ [⟨path, d⟩] :=
    repeats_concat_repeat hrepeat
  refine ⟨h.sound.accept d, haccepts.assembly.trans h.source, ?_, ?_, ?_, ?_⟩
  · intro other name
    rw [at?_accept h.sound hnode hpath, h.named, hgain, Option.or_none, ite_self, find?_concat_map]
    split
    · next hkey =>
      have hkey : (path, d.name) = (other, name) := hkey
      rw [← hkey, hq]
      rfl
    · rfl
  · obtain ⟨block, rest, hopen⟩ := innermost?_eq_some.1 hnode
    obtain ⟨σ, hσ, -⟩ := Option.bind_eq_some_iff.1 hsome
    rw [accept_taken hopen hσ, hfirsts]
    exact h.slots
  · rw [hfound, List.filter_append, h.passedOver, hrepeats, List.map_append]
    rfl
  · intro kind hname hcase
    have hother : ∀ r ∈ [Placed.passedOver ⟨path, d⟩], r.kind ≠ kind := by
      intro r hr
      rw [List.mem_singleton.1 hr]
      exact hname.symm
    rw [hfound, filter_kind_append hother, h.excess kind hname hcase, hfirsts]

/-- Opening a block shows no declaration that was not found before. -/
theorem at?_openBlock (h : b.Registered) (d : Decl.Block) (path : List String) (name : String) :
    (b.openBlock d).store.at? path name = b.store.at? path name := by
  have hkeeps := keepsChildren_openBlock b d
  cases hold : b.store.namespaces.path? path with
  | some node =>
    rw [at?_eq_named? hold, at?_eq_named? (hkeeps.walk? hold), named?_openBlock h]
  | none =>
    rw [at?_eq_none hold]
    cases hnew : (b.openBlock d).store.namespaces.path? path with
    | none => exact at?_eq_none hnew name
    | some node =>
      rw [at?_eq_named? hnew, named?_openBlock h]
      -- A namespace that was there before has the one path that it has now.
      have hout : b.store.namespaces.size ≤ node := by
        by_contra hlt
        have hpath := h.store.tree.path?_nameOf (Nat.lt_of_not_le hlt)
        rw [← (h.openBlock d).store.tree.path_unique hnew (hkeeps.walk? hpath), hold] at hpath
        simp at hpath
      unfold named? Namespaces.symbol?
      rw [Namespaces.node?_eq_none.2 hout]
      rfl

theorem Firsts.openBlock (h : Firsts assembly ps b) (d : Decl.Block) :
    Firsts assembly ps (b.openBlock d) := by
  have hopening : ∀ r ∈ (b.opening d).found, r.kind = .namespaceCaseConflict :=
    Opening.kind_foldl d.line _ fun _ hr => absurd hr List.not_mem_nil
  have hfilter : ∀ kind, kind ≠ Diagnostic.Kind.namespaceCaseConflict →
      ((b.openBlock d).found.filter fun r => r.kind == kind) =
        b.found.filter fun r => r.kind == kind := by
    intro kind hkind
    rw [found_openBlock]
    exact filter_kind_append fun r hr heq => hkind (heq.symm.trans (hopening r hr))
  refine ⟨h.sound.openBlock d, ?_, ?_, ?_, ?_, ?_⟩
  · rw [assembly_openBlock, h.source]
  · intro path name
    rw [at?_openBlock h.sound.registered, h.named]
  · rw [← h.slots, openBlock_eq]
  · rw [hfilter .duplicateNamespaceMember nofun, h.passedOver]
  · intro kind hname hcase
    rw [hfilter kind hcase, h.excess kind hname hcase]

theorem met_firsts (assembly : String) : Met (Firsts assembly) where
  registered _ _ h := h.sound.registered
  accept ps b path node d h hnode hpath := by
    cases hany : ps.any fun p => p.key == (path, d.name) with
    | false => exact h.accept_new hnode hpath hany
    | true => exact h.accept_repeat hnode hpath hany
  openBlock _ _ d h := h.openBlock d
  closeBlock _ _ h := ⟨h.sound.closeBlock, h.source, h.named, h.slots, h.passedOver, h.excess⟩

end Builder

/-- The workspace has the first types of the source file, and the report has what is in excess. -/
structure Workspace.HasFirsts (w : Workspace) (assembly : String) (u : Decl.Unit) : Prop where
  /-- Under a name of a namespace stands the first type that has it there. -/
  named : ∀ path name, w.store.at? path name =
    (u.placed.find? fun p => p.key == (path, name)).map (Decl.Placed.entity assembly)
  /-- The slots are those of the first types, in their order. -/
  slots : { w.store with namespaces := .empty } =
    ((firsts Decl.Placed.key u.placed).map (Decl.Placed.entity assembly)).foldl Store.add {}
  whole : ∀ p ∈ u.placed, (p.entity assembly).header = p.header assembly ∧
    (p.entity assembly).keyword = p.type.keyword
  types : (w.report.entries.filter fun r => r.kind == .duplicateNamespaceMember) =
    (repeats Decl.Placed.key u.placed).map Decl.Placed.passedOver
  fields : (w.report.entries.filter fun r => r.kind == .duplicateField) =
    (firsts Decl.Placed.key u.placed).flatMap fun p =>
      p.type.repeatedFields.map fun f => .of .duplicateField f.line f.name
  members : (w.report.entries.filter fun r => r.kind == .duplicateTypeMember) =
    (firsts Decl.Placed.key u.placed).flatMap fun p => p.type.repeatedMembers (p.header assembly)

theorem declared_hasFirsts (settings : Settings) (catalog : Catalog) (u : Decl.Unit) :
    (declared settings catalog u).HasFirsts settings.assembly u := by
  have hsound : (Workspace.ofCatalog settings catalog).builder.Sound :=
    ⟨builder_registered settings catalog, Workspace.recording_builder Store.recorded_empty⟩
  have hempty : ∀ path name, Store.empty.at? path name = none := by
    intro path name
    cases path <;> rfl
  have hstart : Builder.Firsts settings.assembly [] (Workspace.ofCatalog settings catalog).builder :=
    ⟨hsound, rfl, hempty, rfl, rfl, fun _ _ _ => rfl⟩
  have hbuilt := (Builder.met_firsts settings.assembly).unit u hstart rfl
  unfold declared
  rw [Workspace.declare_eq]
  refine ⟨hbuilt.named, hbuilt.slots, ?_, hbuilt.passedOver, ?_, ?_⟩
  · exact fun p _ => ⟨p.type.header_kept _, p.type.keyword_kept _⟩
  · refine (hbuilt.excess .duplicateField nofun nofun).trans ?_
    exact List.flatMap_congr fun p _ => p.type.filter_excess_field _
  · refine (hbuilt.excess .duplicateTypeMember nofun nofun).trans ?_
    exact List.flatMap_congr fun p _ => p.type.filter_excess_member _

/-- A namespace in two blocks that share a name, and structs that share field names. The enum and its
members are lost. -/
def berths : Decl.Unit :=
  ⟨[⟨"Sea.Port", 1, [.type (.structDecl ⟨"Berth", 2, [⟨"depth", 3, "Int32"⟩, ⟨"depth", 4, "String"⟩]⟩)]⟩,
    ⟨"Sea", 5, [.block "Port" 6
      [.type (.enumDecl ⟨"Berth", 7, .int32, [⟨"Dry", 8, none⟩, ⟨"Dry", 9, none⟩]⟩),
        .type (.enumDecl ⟨"Tide", 10, .int32, [⟨"Ebb", 11, none⟩, ⟨"Ebb", 12, some "1"⟩]⟩)]]⟩], 0⟩

example : (declared {} {} berths).report.entries =
    [.of .duplicateField 4 "depth", .of .duplicateNamespaceMember 7 "Sea.Port.Berth",
      .of .duplicateTypeMember 12 "Ebb"] := by
  decide +kernel

end ComponentIdl
