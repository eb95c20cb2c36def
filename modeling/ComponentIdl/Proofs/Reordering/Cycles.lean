import ComponentIdl.Proofs.Reordering.Binding

/-!
# Cycles of declarations in another order

What a struct holds and what a class or interface requires is told by references, so the graphs of
two workspaces with the same declarations differ in the numbers of their nodes only. A way in the one
is a way in the other, and a declaration is circular in both or in neither.
-/

namespace ComponentIdl

theorem StructType.mem_parts {s : StructType} {b : StructId} :
    b ∈ s.parts ↔ ∃ x ∈ s.sites, x.reference.target = some (.struct b) := by
  have htarget : ∀ target : Target, target.struct? = some b ↔ target = .struct b := by
    intro target
    cases target <;> simp [Target.struct?]
  unfold StructType.parts StructType.sites
  simp [Reference.struct?, Option.bind_eq_some_iff, htarget]

theorem ObjectType.mem_bases {o : ObjectType} {b : ObjectId} :
    b ∈ o.bases ↔
      ∃ x ∈ o.sites, x.role = .required ∧ x.reference.target = some (.interface b) := by
  have hbase : b ∈ o.bases ↔ ∃ r ∈ o.requires, r.target = some (.interface b) := by
    simp [ObjectType.bases, Reference.interface?_eq_some]
  rw [hbase]
  constructor
  · rintro ⟨r, hr, hb⟩
    refine ⟨⟨o.scope, o.line, .required, r⟩, ?_, rfl, hb⟩
    unfold ObjectType.sites
    simp only [List.mem_append]
    exact Or.inl (Or.inl (Or.inl (Or.inl (List.mem_map_of_mem hr))))
  · rintro ⟨x, hx, hrole, hb⟩
    unfold ObjectType.sites Method.sites Constructor.sites at hx
    simp only [List.mem_append, List.mem_map, List.mem_flatMap] at hx
    rcases hx with (((⟨r, hr, rfl⟩ | ⟨m, -, r, -, rfl⟩) | ⟨p, -, rfl⟩) | ⟨e, -, rfl⟩) |
      ⟨c, -, p, -, rfl⟩
    · exact ⟨r, hr, hb⟩
    · cases hw : m.isWritten <;> simp [hw] at hrole
    · exact absurd hrole (by simp [Property.site])
    · exact absurd hrole (by simp [Event.site])
    · exact absurd hrole (by simp)

theorem Graph.verdict_eq {g g' : Graph} {a a' : Nat} (h : g.LeadsToCycle a ↔ g'.LeadsToCycle a') :
    g.verdict a = g'.verdict a' := by
  unfold verdict
  by_cases hc : g.LeadsToCycle a
  · rw [if_pos hc, if_pos (h.1 hc)]
  · rw [if_neg hc, if_neg fun hc' => hc (h.2 hc')]

namespace Workspace

variable {w w' : Workspace} {σ σ' : Symbol} {e : Entity}

/-- The slots hold the same struct. -/
def StructTwins (w w' : Workspace) (a a' : StructId) : Prop :=
  ∃ s, w.store.structs[a]? = some s ∧ w'.store.structs[a']? = some s

/-- The slots hold the same class or interface. -/
def ObjectTwins (w w' : Workspace) (a a' : ObjectId) : Prop :=
  ∃ o, w.store.objects[a]? = some o ∧ w'.store.objects[a']? = some o

theorem edge_containment {a b : StructId} : w.searched.containment.Edge a b ↔
    ∃ s, w.store.structs[a]? = some s ∧
      ∃ x ∈ s.sites, (x.boundIn w.boundSymbols).reference.target = some (.struct b) := by
  have hparts : ∀ s : StructType, b ∈ (s.boundIn w.boundSymbols).parts ↔
      ∃ x ∈ s.sites, (x.boundIn w.boundSymbols).reference.target = some (.struct b) := by
    intro s
    rw [StructType.mem_parts, StructType.sites_boundIn]
    simp
  have hgraph : w.searched.containment =
      ⟨w.store.structs.map fun s => (s.boundIn w.boundSymbols).parts⟩ :=
    congrArg Graph.mk Array.map_map
  rw [hgraph, Graph.edge_map]
  simp only [hparts]

theorem edge_requirement {a b : ObjectId} : w.searched.requirement.Edge a b ↔
    ∃ o, w.store.objects[a]? = some o ∧ ∃ x ∈ o.sites, x.role = .required ∧
      (x.boundIn w.boundSymbols).reference.target = some (.interface b) := by
  have hrole : ∀ x : Site, (x.boundIn w.boundSymbols).role = x.role := fun _ => rfl
  have hbases : ∀ o : ObjectType, b ∈ (o.boundIn w.boundSymbols).bases ↔
      ∃ x ∈ o.sites, x.role = .required ∧
        (x.boundIn w.boundSymbols).reference.target = some (.interface b) := by
    intro o
    rw [ObjectType.mem_bases, ObjectType.sites_boundIn]
    simp [hrole]
  have hgraph : w.searched.requirement =
      ⟨w.store.objects.map fun o => (o.boundIn w.boundSymbols).bases⟩ :=
    congrArg Graph.mk Array.map_map
  rw [hgraph, Graph.edge_map]
  simp only [hbases]

theorem Agrees.struct {b : StructId} {target : Target} (h : w.Agrees w' (.struct b) target) :
    ∃ b', target = .struct b' ∧ w.StructTwins w' b b' := by
  generalize htarget : Target.struct b = source at h
  cases h with
  | builtin hb =>
    subst htarget
    exact absurd hb Bool.false_ne_true
  | symbol hσ =>
    cases hσ with
    | imported _ _ => simp [Symbol.target] at htarget
    | declared h h' =>
      cases h with
      | struct h =>
        obtain rfl : b = _ := Target.struct.inj htarget
        cases h' with
        | struct h' => exact ⟨_, rfl, _, h, h'⟩
      | _ => simp [Symbol.target] at htarget

theorem Agrees.interface {b : ObjectId} {target : Target} (h : w.Agrees w' (.interface b) target) :
    ∃ b', target = .interface b' ∧ w.ObjectTwins w' b b' := by
  generalize htarget : Target.interface b = source at h
  cases h with
  | builtin hb =>
    subst htarget
    exact absurd hb Bool.false_ne_true
  | symbol hσ =>
    cases hσ with
    | imported _ _ => simp [Symbol.target] at htarget
    | declared h h' =>
      cases h with
      | interface h hc =>
        obtain rfl : b = _ := Target.interface.inj htarget
        cases h' with
        | interface h' _ => exact ⟨_, rfl, _, h, h'⟩
        | runtimeClass _ hc' => exact absurd (hc.symm.trans hc') (by simp)
      | _ => simp [Symbol.target] at htarget

theorem Reordered.simulation_containment (h : w.Reordered w') :
    Graph.Simulation w.searched.containment w'.searched.containment (w.StructTwins w') where
  forth a b a' hr hedge := by
    obtain ⟨s, hs, hs'⟩ := hr
    obtain ⟨t, ht, x, hx, htarget⟩ := edge_containment.1 hedge
    obtain rfl : s = t := Option.some.inj (hs.symm.trans ht)
    have hsite : x ∈ w.store.sites := by
      rw [Store.sites_eq]
      exact List.mem_flatMap_of_mem (Store.mem_entities.2 ⟨_, .struct hs⟩) hx
    obtain ⟨target, htarget', hagrees⟩ := h.target_some hsite htarget
    obtain ⟨b', rfl, htwins⟩ := hagrees.struct
    exact ⟨b', edge_containment.2 ⟨s, hs', x, hx, htarget'⟩, htwins⟩
  unique a a' b' hr hr' := by
    obtain ⟨s, hs, hs'⟩ := hr
    obtain ⟨t, ht, ht'⟩ := hr'
    obtain rfl : s = t := Option.some.inj (hs.symm.trans ht)
    exact Symbol.struct.inj (h.right.unique (.struct hs') (.struct ht') rfl)

theorem Reordered.simulation_requirement (h : w.Reordered w') :
    Graph.Simulation w.searched.requirement w'.searched.requirement (w.ObjectTwins w') where
  forth a b a' hr hedge := by
    obtain ⟨o, ho, ho'⟩ := hr
    obtain ⟨p, hp, x, hx, hrole, htarget⟩ := edge_requirement.1 hedge
    obtain rfl : o = p := Option.some.inj (ho.symm.trans hp)
    have hsite : x ∈ w.store.sites := by
      unfold Store.sites
      simp only [List.mem_append, List.mem_flatMap, Array.mem_toList_iff]
      exact Or.inl (Or.inl ⟨o, Array.mem_of_getElem? ho, hx⟩)
    obtain ⟨target, htarget', hagrees⟩ := h.target_some hsite htarget
    obtain ⟨b', rfl, htwins⟩ := hagrees.interface
    exact ⟨b', edge_requirement.2 ⟨o, ho', x, hx, hrole, htarget'⟩, htwins⟩
  unique a a' b' hr hr' := by
    obtain ⟨o, ho, ho'⟩ := hr
    obtain ⟨p, hp, hp'⟩ := hr'
    obtain rfl : o = p := Option.some.inj (ho.symm.trans hp)
    cases hc : o.isClass with
    | true =>
      exact Symbol.runtimeClass.inj (h.right.unique (.runtimeClass ho' hc) (.runtimeClass hp' hc) rfl)
    | false =>
      exact Symbol.interface.inj (h.right.unique (.interface ho' hc) (.interface hp' hc) rfl)

theorem Reordered.verdict_struct (h : w.Reordered w') {a a' : StructId}
    (ha : w.StructTwins w' a a') :
    w.searched.containment.verdict a = w'.searched.containment.verdict a' := by
  have ha' : w'.StructTwins w a' a := ha.imp fun _ hs => hs.symm
  exact Graph.verdict_eq ⟨h.simulation_containment.leadsToCycle ha,
    h.symm.simulation_containment.leadsToCycle ha'⟩

theorem Reordered.verdict_object (h : w.Reordered w') {a a' : ObjectId}
    (ha : w.ObjectTwins w' a a') :
    w.searched.requirement.verdict a = w'.searched.requirement.verdict a' := by
  have ha' : w'.ObjectTwins w a' a := ha.imp fun _ ho => ho.symm
  exact Graph.verdict_eq ⟨h.simulation_requirement.leadsToCycle ha,
    h.symm.simulation_requirement.leadsToCycle ha'⟩

/-- A declaration is found circular in both workspaces or in neither. -/
theorem Reordered.verdictAt (h : w.Reordered w') (hσ : w.store.Holds σ e)
    (hσ' : w'.store.Holds σ' e) : w.searched.verdictAt σ = w'.searched.verdictAt σ' := by
  cases hσ with
  | runtimeClass ho hc =>
    cases hσ' with
    | runtimeClass ho' _ => exact h.verdict_object ⟨_, ho, ho'⟩
    | interface _ hc' => exact absurd (hc.symm.trans hc') (by simp)
  | interface ho hc =>
    cases hσ' with
    | runtimeClass _ hc' => exact absurd (hc.symm.trans hc') (by simp)
    | interface ho' _ => exact h.verdict_object ⟨_, ho, ho'⟩
  | struct hs =>
    cases hσ' with
    | struct hs' => exact h.verdict_struct ⟨_, hs, hs'⟩
  | enum _ =>
    cases hσ' with
    | enum _ => rfl
  | delegate _ =>
    cases hσ' with
    | delegate _ => rfl

/-- What the search finds out about the declaration with a header. -/
noncomputable def verdictOf (w : Workspace) (header : Header) : Circularity :=
  match w.symbols.get? header.dottedName with
  | some σ => w.searched.verdictAt σ
  | none => .unknown

theorem Named.verdictOf (h : w.Named) {header : Header} (hσ : w.store.header? σ = some header) :
    w.verdictOf header = w.searched.verdictAt σ := by
  unfold Workspace.verdictOf
  rw [h.entry σ header hσ]

theorem Reordered.verdictOf (h : w.Reordered w') (he : e ∈ w.store.entities) :
    w.verdictOf e.header = w'.verdictOf e.header := by
  obtain ⟨σ, hσ⟩ := Store.mem_entities.1 he
  obtain ⟨σ', hσ'⟩ := h.fellow hσ
  rw [h.left.verdictOf hσ.header?, h.right.verdictOf hσ'.header?, h.verdictAt hσ hσ']

theorem Named.cycleDiagnostics_perm (h : w.Named) : w.searched.cycleDiagnostics.Perm
    (w.store.entities.flatMap fun e =>
      (e.analyzed w.boundSymbols (w.verdictOf e.header)).cycleFaults) := by
  have hunsearched := h.declared.unsearched
  have hheaders : w.store.SameHeaders w.searched :=
    (w.store.sameHeaders_boundIn w.boundSymbols).trans
      (w.store.boundIn w.boundSymbols).similar_evaluateEnums.sameHeaders
  have hstate : ∀ σ e, w.searched.Holds σ e → w.searched.verdictAt σ = w.verdictOf e.header := by
    intro σ e hσ
    refine (h.verdictOf ?_).symm
    rw [← hheaders.header?, hσ.header?]
  have hlist : w.searched.withCycles.entities = w.store.entities.map fun e =>
      e.analyzed w.boundSymbols (w.verdictOf e.header) := by
    have hheader : ∀ e : Entity, (e.boundIn w.boundSymbols).evaluated.header = e.header := by
      intro e
      cases e <;> rfl
    rw [Store.entities_withCycles hunsearched hstate]
    unfold searched
    rw [Store.entities_evaluateEnums, Store.entities_boundIn, List.map_map, List.map_map]
    refine List.map_congr_left fun e _ => ?_
    simp only [Function.comp_apply, hheader]
    rfl
  have hperm := Store.cycleDiagnostics_perm hunsearched
  rw [hlist, List.flatMap_map] at hperm
  exact hperm

theorem Reordered.cycleDiagnostics (h : w.Reordered w') :
    w.searched.cycleDiagnostics.Perm w'.searched.cycleDiagnostics := by
  refine h.left.cycleDiagnostics_perm.trans (.trans ?_ h.right.cycleDiagnostics_perm.symm)
  have hsame : (w.store.entities.flatMap fun e =>
      (e.analyzed w.boundSymbols (w.verdictOf e.header)).cycleFaults) =
        w.store.entities.flatMap fun e =>
          (e.analyzed w'.boundSymbols (w'.verdictOf e.header)).cycleFaults := by
    refine List.flatMap_congr fun e he => ?_
    rw [h.verdictOf he]
    exact e.cycleFaults_analyzed _ _ _
  rw [hsame]
  exact h.entities.flatMap_right _

end Workspace

end ComponentIdl
