import ComponentIdl.Proofs.FirstDeclaration

/-!
# Namespaces that differ by letter case only

A walk of a source file enters namespaces segment by segment. A namespace is created when it is entered
for the first time, so the namespaces are numbered by first entries, whatever blocks enter them later.
A namespace is reported when it is created, if a sibling of before has its name in other letters, and
never again.
-/

namespace ComponentIdl

open Decl (Entry)

namespace Namespaces

variable {t t' : Namespaces} {n c : NamespaceId} {name : String} {path : List String}

theorem path?_concat (hpath : t.path? path = some n) (name : String) :
    t.path? (path ++ [name]) = t.child? n name := by
  unfold path? at *
  rw [walk?_append, hpath, Option.bind_some, walk?]
  cases t.child? n name <;> rfl

/-- A sibling that was created before has another name, which is the same but for letter case. -/
def IsVariant (t : Namespaces) (c : NamespaceId) : Prop :=
  ∃ n, n < t.size ∧ ∃ a ∈ t.children n, a.2 = c ∧
    ∃ b ∈ t.children n, b.2 < c ∧ b.1 ≠ a.1 ∧ Text.sameIgnoringCase b.1 a.1 = true

instance (t : Namespaces) (c : NamespaceId) : Decidable (t.IsVariant c) :=
  inferInstanceAs (Decidable (∃ n, n < t.size ∧ _))

theorem Proper.mem_children_iff (h : t.Proper) (hpath : t.path? path = some n) :
    (name, c) ∈ t.children n ↔ t.path? (path ++ [name]) = some c := by
  rw [path?_concat hpath, child?_eq_some h]

/-- A new namespace makes no variants of those that are there. -/
theorem NewChild.isVariant_old (h : t.Proper) (hnew : t.NewChild n name t')
    (hc : c < t.size) : t'.IsVariant c ↔ t.IsVariant c := by
  constructor
  · rintro ⟨k, -, a, ha, rfl, b, hb, hlt, hne, hsame⟩
    have hold : ∀ x, x ∈ t'.children k → x.2 < t.size → x ∈ t.children k := by
      intro x hx hxlt
      rcases hnew.mem_children.1 hx with ⟨-, rfl⟩ | hx
      · exact absurd hxlt (Nat.lt_irrefl _)
      · exact hx
    have ha := hold a ha hc
    exact ⟨k, Nat.lt_trans (h.child k a ha).1 hc, a, ha, rfl, b, hold b hb (Nat.lt_trans hlt hc), hlt,
      hne, hsame⟩
  · rintro ⟨k, hk, a, ha, hac, b, hb, hlt, hne, hsame⟩
    exact ⟨k, hnew.size ▸ Nat.lt_succ_of_lt hk, a, hnew.mem_children.2 (Or.inr ha), hac, b,
      hnew.mem_children.2 (Or.inr hb), hlt, hne, hsame⟩

/-- A new namespace is a variant exactly if its name has a variant among those that are there. -/
theorem NewChild.isVariant_new (h : t.Proper) (hn : n < t.size) (hnew : t.NewChild n name t') :
    t'.IsVariant t.size ↔ (t.caseVariant? n name).isSome = true := by
  unfold caseVariant?
  rw [List.find?_isSome]
  simp only [List.mem_map, Bool.and_eq_true, bne_iff_ne]
  constructor
  · rintro ⟨k, -, a, ha, hac, b, hb, hlt, hne, hsame⟩
    rcases hnew.mem_children.1 ha with ⟨rfl, rfl⟩ | ha
    · rcases hnew.mem_children.1 hb with ⟨-, rfl⟩ | hb
      · exact absurd rfl hne
      · exact ⟨b.1, ⟨b, hb, rfl⟩, hne, hsame⟩
    · exact absurd hac (Nat.ne_of_lt (h.child k a ha).2.1)
  · rintro ⟨_, ⟨b, hb, rfl⟩, hne, hsame⟩
    exact ⟨n, hnew.size ▸ Nat.lt_succ_of_lt hn, _, hnew.mem_children.2 (Or.inl ⟨rfl, rfl⟩), rfl, b,
      hnew.mem_children.2 (Or.inr hb), (h.child n b hb).2.1, hne, hsame⟩

/-- The variants among the created namespaces, each as it is reported. -/
def variants (t : Namespaces) (created : List Entry) : List Diagnostic :=
  ((created.zipIdx 1).filter fun x => t.IsVariant x.2).map fun x =>
    .of .namespaceCaseConflict x.1.line (t.nameOf x.2)

/-- The tree has the created namespaces below its root, numbered in their order. -/
structure Numbers (t : Namespaces) (created : List Entry) : Prop where
  size : t.size = created.length + 1
  node : ∀ k e, created[k]? = some e → t.path? e.path = some (k + 1)

variable {created : List Entry}

theorem Numbers.of_sameShape (h : t.Numbers created) (hs : t.SameShape t') : t'.Numbers created :=
  ⟨hs.size.trans h.size, fun k e he => (hs.walk? root e.path).trans (h.node k e he)⟩

theorem Numbers.path?_of_mem (h : t.Numbers created) {x : Entry × NamespaceId}
    (hx : x ∈ created.zipIdx 1) : t.path? x.1.path = some x.2 := by
  obtain ⟨hle, he⟩ := List.mk_mem_zipIdx_iff_le_and_getElem?_sub.1 hx
  exact (h.node _ _ he).trans (congrArg some (Nat.sub_add_cancel hle))

theorem Numbers.exists_entry (h : t.Numbers created) (ht : t.Proper) (hpath : t.path? path = some n)
    (hne : path ≠ []) : ∃ k e, n = k + 1 ∧ created[k]? = some e ∧ e.path = path := by
  have hlt := (ht.spells hpath).lt
  cases n with
  | zero => exact absurd (ht.path_unique hpath rfl) hne
  | succ k =>
    rw [h.size] at hlt
    have hk : k < created.length := Nat.lt_of_succ_lt_succ hlt
    have hnode := h.node k created[k] (List.getElem?_eq_getElem hk)
    exact ⟨k, created[k], rfl, List.getElem?_eq_getElem hk, ht.path_unique hnode hpath⟩

/-- Trees that number the same namespaces find them under the same numbers. -/
theorem Numbers.path? (h : t.Numbers created) (ht : t.Proper) (h' : t'.Numbers created)
    (hpath : t.path? path = some n) : t'.path? path = some n := by
  by_cases hnil : path = []
  · subst hnil
    exact hpath
  · obtain ⟨k, e, rfl, he, rfl⟩ := h.exists_entry ht hpath hnil
    exact h'.node k e he

theorem Numbers.isVariant (h : t.Numbers created) (ht : t.Proper) (h' : t'.Numbers created)
    (ht' : t'.Proper) (hc : t.IsVariant c) : t'.IsVariant c := by
  obtain ⟨n, hn, a, ha, hac, b, hb, hvariant⟩ := hc
  have hpath := ht.path?_nameOf hn
  have hpath' := h.path? ht h' hpath
  have hmem : ∀ x ∈ t.children n, x ∈ t'.children n := fun x hx =>
    (ht'.mem_children_iff hpath').2 (h.path? ht h' ((ht.mem_children_iff hpath).1 hx))
  exact ⟨n, (ht'.spells hpath').lt, a, hmem a ha, hac, b, hmem b hb, hvariant⟩

theorem Numbers.variants_eq (h : t.Numbers created) (ht : t.Proper) (h' : t'.Numbers created)
    (ht' : t'.Proper) : t'.variants created = t.variants created := by
  have hfilter : ((created.zipIdx 1).filter fun x => t'.IsVariant x.2) =
      (created.zipIdx 1).filter fun x => t.IsVariant x.2 :=
    List.filter_congr fun x _ => decide_eq_decide.2 ⟨h'.isVariant ht' h ht, h.isVariant ht h' ht'⟩
  unfold variants
  rw [hfilter]
  refine List.map_congr_left fun x hx => ?_
  have hmem := (List.mem_filter.1 hx).1
  rw [(ht.spells (h.path?_of_mem hmem)).nameOf, (ht'.spells (h'.path?_of_mem hmem)).nameOf]

theorem Numbers.newChild {e : Entry} (h : t.Numbers created) (ht : t.Proper)
    (hpath : t.path? path = some n) (hfree : t.child? n name = none) (he : e.path = path ++ [name]) :
    (t.addChild n name).1.Numbers (created ++ [e]) := by
  have hn := (ht.spells hpath).lt
  obtain ⟨hnode, hnew⟩ := addChild_new hfree hn
  have hkeeps := t.keepsChildren_addChild n name
  refine ⟨?_, ?_⟩
  · rw [hnew.size, h.size, List.length_append, List.length_singleton]
  · intro k e' he'
    rcases getElem?_append_cases he' with hold | ⟨j, rfl, hlast⟩
    · exact hkeeps.walk? (h.node k e' hold)
    · cases j with
      | succ j => exact nomatch hlast
      | zero =>
        obtain rfl := Option.some.inj hlast
        rw [he, path?_concat (hkeeps.walk? hpath), child?_addChild hn name, hnode, h.size]

theorem Numbers.variants_newChild {e : Entry} (h : t.Numbers created) (ht : t.Proper)
    (hn : n < t.size) (hnew : t.NewChild n name t') :
    t'.variants (created ++ [e]) = t.variants created ++
      if (t.caseVariant? n name).isSome = true then
        [.of .namespaceCaseConflict e.line (t'.nameOf t.size)]
      else [] := by
  have hlt : ∀ x ∈ created.zipIdx 1, x.2 < t.size := fun x hx =>
    (ht.spells (h.path?_of_mem hx)).lt
  have hold : ((created.zipIdx 1).filter fun x => t'.IsVariant x.2) =
      (created.zipIdx 1).filter fun x => t.IsVariant x.2 :=
    List.filter_congr fun x hx => decide_eq_decide.2 (hnew.isVariant_old ht (hlt x hx))
  have hlast : [e].zipIdx (1 + created.length) = [(e, t.size)] := by
    rw [h.size, Nat.add_comm]
    rfl
  unfold variants
  rw [List.zipIdx_append, List.filter_append, List.map_append, hold, hlast]
  congr 1
  · refine List.map_congr_left fun x hx => ?_
    rw [hnew.nameOf, if_neg (Nat.ne_of_lt (hlt x (List.mem_filter.1 hx).1))]
  · by_cases hvariant : (t.caseVariant? n name).isSome = true
    · rw [if_pos hvariant, List.filter_cons_of_pos (by simpa using (hnew.isVariant_new ht hn).2 hvariant)]
      rfl
    · rw [if_neg hvariant,
        List.filter_cons_of_neg (by simpa using mt (hnew.isVariant_new ht hn).1 hvariant)]
      rfl

/-- What is in the tree, and what has been reported of it, tells of the entries of a walk so far. -/
structure Recounts (t : Namespaces) (found : List Diagnostic) (es : List Entry) : Prop where
  proper : t.Proper
  numbers : t.Numbers (firsts Entry.path es)
  reported : (found.filter fun r => r.kind == .namespaceCaseConflict) =
    t.variants (firsts Entry.path es)

variable {found : List Diagnostic} {es : List Entry}

theorem Recounts.known (h : t.Recounts found es) (hne : path ≠ []) :
    (es.any fun e => e.path == path) = (t.path? path).isSome := by
  rw [← any_firsts, Bool.eq_iff_iff, List.any_eq_true, Option.isSome_iff_exists]
  constructor
  · rintro ⟨e, he, hpath⟩
    obtain ⟨k, hk⟩ := List.mem_iff_getElem?.1 he
    rw [← beq_iff_eq.1 hpath]
    exact ⟨_, h.numbers.node k e hk⟩
  · rintro ⟨n, hn⟩
    obtain ⟨k, e, -, he, hpath⟩ := h.numbers.exists_entry h.proper hn hne
    exact ⟨e, List.mem_of_getElem? he, beq_iff_eq.2 hpath⟩

theorem Recounts.enter {o : Opening} {line : Nat} {segment : String}
    (h : o.tree.Recounts o.found es) (hpath : o.tree.path? path = some o.node)
    (hsegment : IsSegment segment) :
    (o.enter line segment).tree.Recounts (o.enter line segment).found
      (es ++ [⟨path ++ [segment], line⟩]) := by
  have hknown : (es.any fun e => e.path == path ++ [segment]) =
      (o.tree.path? (path ++ [segment])).isSome := h.known (by simp)
  rw [path?_concat hpath] at hknown
  cases hc : o.tree.child? o.node segment with
  | some c =>
    rw [hc] at hknown
    rw [Opening.enter_known line hc]
    refine ⟨h.proper, ?_, ?_⟩
    · rw [firsts_concat_repeat hknown]
      exact h.numbers
    · rw [firsts_concat_repeat hknown]
      exact h.reported
  | none =>
    rw [hc] at hknown
    have hn := (h.proper.spells hpath).lt
    have hnew := (addChild_new hc hn).2
    have htree : (o.enter line segment).tree = (o.tree.addChild o.node segment).1 := rfl
    have hproper := h.proper.newChild hn hsegment hc hnew
    have hnumbers := h.numbers.newChild (e := ⟨path ++ [segment], line⟩) h.proper hpath hc rfl
    have hname : (o.tree.addChild o.node segment).1.nameOf o.tree.size =
        (DottedName.within (o.tree.nameOf o.node) segment).render := by
      have hspells := h.proper.spells hpath
      unfold DottedName.within DottedName.render
      rw [hnew.nameOf, if_pos rfl, h.proper.segments_nameOf hpath, hspells.nameOf,
        childName_intercalate hspells.segments]
    have hfound : (o.enter line segment).found = o.found ++
        if (o.tree.caseVariant? o.node segment).isSome = true then
          [.of .namespaceCaseConflict line (DottedName.within (o.tree.nameOf o.node) segment).render]
        else [] := by
      unfold Opening.enter
      rw [hc]
      cases o.tree.caseVariant? o.node segment <;> simp
    rw [htree, hfound]
    refine ⟨hproper, ?_, ?_⟩
    · rw [firsts_concat_new hknown]
      exact hnumbers
    · rw [firsts_concat_new hknown, h.numbers.variants_newChild h.proper hn hnew, List.filter_append,
        h.reported, hname]
      split <;> rfl

theorem Recounts.foldl {o : Opening} (h : o.tree.Recounts o.found es)
    (hpath : o.tree.path? path = some o.node) (line : Nat) (names : List String)
    (hnames : ∀ s ∈ names, IsSegment s) :
    (names.foldl (Opening.enter line) o).tree.Recounts (names.foldl (Opening.enter line) o).found
      (es ++ Decl.entriesAlong line path names) := by
  induction names generalizing o path es with
  | nil =>
    rw [Decl.entriesAlong, List.append_nil]
    exact h
  | cons name names ih =>
    obtain ⟨hname, hrest⟩ := List.forall_mem_cons.1 hnames
    have hkeeps : o.tree.KeepsChildren (o.enter line name).tree :=
      o.tree.keepsChildren_addChild o.node name
    have hnode : (o.enter line name).tree.path? (path ++ [name]) = some (o.enter line name).node :=
      (path?_concat (hkeeps.walk? hpath) name).trans (child?_addChild (h.proper.spells hpath).lt name)
    rw [List.foldl_cons, Decl.entriesAlong, List.append_cons]
    exact ih (h.enter hpath hname) hnode hrest

theorem Recounts.of_sameShape (h : t.Recounts found es) (hs : t.SameShape t') :
    t'.Recounts found es :=
  ⟨h.proper.of_sameShape hs, h.numbers.of_sameShape hs, h.reported.trans
    ((h.numbers.of_sameShape hs).variants_eq (h.proper.of_sameShape hs) h.numbers h.proper)⟩

theorem Recounts.of_found {more : List Diagnostic} (h : t.Recounts found es)
    (hmore : ∀ r ∈ more, r.kind ≠ .namespaceCaseConflict) : t.Recounts (found ++ more) es :=
  ⟨h.proper, h.numbers, (filter_kind_append hmore).trans h.reported⟩

end Namespaces

namespace Builder

open Decl (Placed)

variable {b : Builder} {es : List Entry}

/-- The build tells of the namespaces that a walk has entered. -/
structure Recounts (es : List Entry) (b : Builder) : Prop where
  sound : b.Sound
  tree : b.store.namespaces.Recounts b.found es

theorem Recounts.openBlock {path : List String} (h : Recounts es b) (hstand : b.StandsAt path)
    (d : Decl.Block) :
    Recounts (es ++ Decl.entriesAlong d.line path (segments d.name)) (b.openBlock d) := by
  refine ⟨h.sound.openBlock d, ?_⟩
  have hopening : (segments d.name).foldl (Opening.enter d.line)
      ⟨b.store.namespaces, b.innermost?.getD Namespaces.root, b.found⟩ =
        (b.opening d).having b.found := by
    rw [opening_eq, ← Opening.foldl_having]
    unfold Opening.having
    rw [List.append_nil]
  have hfold := h.tree.foldl
    (o := ⟨b.store.namespaces, b.innermost?.getD Namespaces.root, b.found⟩) hstand d.line
    (segments d.name) fun _ hs => isSegment_of_mem hs
  rw [hopening] at hfold
  rw [namespaces_openBlock, found_openBlock]
  exact hfold.of_sameShape (Namespaces.sameShape_openBlock _ _ d.line)

theorem Recounts.accept (h : Recounts es b) {node : NamespaceId} (hnode : b.innermost? = some node)
    (d : Decl.TypeDecl) : Recounts es (b.accept d) := by
  refine ⟨h.sound.accept d, ?_⟩
  rw [(accepts_accept h.sound hnode d).found]
  refine (h.tree.of_sameShape (sameShape_accept b d)).of_found ?_
  intro r hr
  unfold notes at hr
  split at hr
  · rw [List.mem_singleton.1 hr]
    exact nofun
  · rw [d.faults_eq_excess] at hr
    exact (d.kind_excess _ r hr).2

theorem walked_recounts : Walked fun _ es b => Recounts es b where
  registered _ _ _ h := h.sound.registered
  accept _ _ _ _ _ d h hnode _ := h.accept hnode d
  openBlock _ _ _ _ d h hstand := h.openBlock hstand d
  closeBlock _ _ _ h := ⟨h.sound.closeBlock, h.tree⟩

end Builder

/-- The case conflicts that are reported. -/
def Workspace.caseConflicts (w : Workspace) : List Diagnostic :=
  w.report.entries.filter fun r => r.kind == .namespaceCaseConflict

/-- The namespaces are those that the source file enters, each created where it is entered first, and
the variants among them are reported. -/
structure Workspace.ReportsVariants (w : Workspace) (u : Decl.Unit) : Prop where
  numbers : w.store.namespaces.Numbers (firsts Entry.path u.entries)
  reported : w.caseConflicts = w.store.namespaces.variants (firsts Entry.path u.entries)

/-- Every namespace is reported where it is created if a sibling of before differs by letter case only,
and nowhere else: source files with the same first entries have the same case conflicts, however often
they enter namespaces again. -/
theorem caseConflicts_exact (settings : Settings) (catalog : Catalog) (u : Decl.Unit) :
    (declared settings catalog u).ReportsVariants u ∧
      ∀ u' : Decl.Unit, firsts Entry.path u'.entries = firsts Entry.path u.entries →
        (declared settings catalog u').caseConflicts = (declared settings catalog u).caseConflicts := by
  have hbuilt : ∀ u : Decl.Unit, (declared settings catalog u).store.namespaces.Recounts
      (declared settings catalog u).report.entries u.entries := by
    intro u
    have hsound : (Workspace.ofCatalog settings catalog).builder.Sound :=
      ⟨builder_registered settings catalog, Workspace.recording_builder Store.recorded_empty⟩
    have hstart : Builder.Recounts [] (Workspace.ofCatalog settings catalog).builder :=
      ⟨hsound, Namespaces.proper_empty, ⟨rfl, fun _ _ he => nomatch he⟩, rfl⟩
    have hrun := Builder.walked_recounts.unit u hstart rfl
    unfold declared
    rw [Workspace.declare_eq]
    exact hrun.tree
  refine ⟨⟨(hbuilt u).numbers, (hbuilt u).reported⟩, ?_⟩
  intro u' hfirsts
  have hnumbers := (hbuilt u').numbers
  have hreported := (hbuilt u').reported
  rw [hfirsts] at hnumbers hreported
  exact hreported.trans (((hbuilt u).numbers.variants_eq (hbuilt u).proper hnumbers
    (hbuilt u').proper).trans (hbuilt u).reported.symm)

/-- Two namespaces below one parent, and two at the top, that differ by letter case only. -/
def straits : Decl.Unit :=
  ⟨[⟨"Sea.Port", 1, []⟩, ⟨"Sea", 2, [.block "port" 3 []]⟩, ⟨"sea.Port.PORT", 4, []⟩], 0⟩

/-- The same namespaces, which are entered again, dotted and nested. -/
def straitsAgain : Decl.Unit :=
  ⟨straits.blocks ++ [⟨"Sea.port", 5, []⟩, ⟨"sea", 6, [.block "Port" 7 [.block "PORT" 8 []]]⟩], 0⟩

theorem caseConflicts_exact_straits :
    (declared {} {} straits).caseConflicts =
        [.of .namespaceCaseConflict 3 "Sea.port", .of .namespaceCaseConflict 4 "sea"] ∧
      (declared {} {} straits).ReportsVariants straits ∧
      firsts Entry.path straitsAgain.entries = firsts Entry.path straits.entries ∧
      (declared {} {} straitsAgain).caseConflicts = (declared {} {} straits).caseConflicts := by
  have hfirsts : firsts Entry.path straitsAgain.entries = firsts Entry.path straits.entries := by
    decide +kernel
  obtain ⟨hreports, hagain⟩ := caseConflicts_exact {} {} straits
  exact ⟨by decide +kernel, hreports, hfirsts, hagain straitsAgain hfirsts⟩

end ComponentIdl
