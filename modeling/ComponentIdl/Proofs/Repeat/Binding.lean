import ComponentIdl.Proofs.Binding
import ComponentIdl.Proofs.Binding.Sites

/-!
# Binding repeated

After a binding every reference is bound, or its key means nothing that helps. A second binding looks
up the keys of the unbound ones again, which adds no import, and finds what the first one found.
-/

namespace ComponentIdl

variable {t : NameTable} {scope : String}

theorem map_again {α : Type} {f : α → α} (h : ∀ a, f (f a) = f a) (as : List α) :
    (as.map f).map f = as.map f := by
  rw [List.map_map]
  exact List.map_congr_left fun a _ => h a

theorem optionMap_again {α : Type} {f : α → α} (h : ∀ a, f (f a) = f a) (a : Option α) :
    (a.map f).map f = a.map f := by
  rw [Option.map_map]
  exact Option.map_congr fun a _ => h a

theorem arrayMap_again {α : Type} {f : α → α} (h : ∀ a, f (f a) = f a) (as : Array α) :
    (as.map f).map f = as.map f := by
  rw [Array.map_map]
  exact Array.map_congr_left fun a _ => h a

theorem Reference.boundIn_of_isBound {r : Reference} (h : r.isBound = true) :
    r.boundIn t scope = r := if_pos h

theorem Reference.requiredIn_of_isBound {r : Reference} (h : r.isBound = true) :
    r.requiredIn t scope = r := if_pos h

theorem Reference.boundIn_cases (t : NameTable) (scope : String) (r : Reference) :
    r.boundIn t scope = r ∨ (r.boundIn t scope).isBound = true := by
  unfold boundIn
  split
  · exact Or.inl rfl
  · split
    · exact Or.inr rfl
    · exact Or.inl rfl

theorem Reference.requiredIn_cases (t : NameTable) (scope : String) (r : Reference) :
    r.requiredIn t scope = r ∨ (r.requiredIn t scope).isBound = true := by
  unfold requiredIn
  split
  · exact Or.inl rfl
  · split
    · split
      · exact Or.inr rfl
      · exact Or.inl rfl
    · exact Or.inl rfl

theorem Reference.boundIn_boundIn (r : Reference) :
    (r.boundIn t scope).boundIn t scope = r.boundIn t scope := by
  rcases r.boundIn_cases t scope with hsame | hbound
  · rw [hsame, hsame]
  · exact boundIn_of_isBound hbound

theorem Reference.requiredIn_requiredIn (r : Reference) :
    (r.requiredIn t scope).requiredIn t scope = r.requiredIn t scope := by
  rcases r.requiredIn_cases t scope with hsame | hbound
  · rw [hsame, hsame]
  · exact requiredIn_of_isBound hbound

theorem Parameter.boundIn_boundIn (p : Parameter) :
    (p.boundIn t scope).boundIn t scope = p.boundIn t scope :=
  congrArg (fun type => { p with type }) p.type.boundIn_boundIn

theorem Method.boundIn_boundIn (m : Method) :
    (m.boundIn t scope).boundIn t scope = m.boundIn t scope := by
  unfold boundIn
  dsimp only
  rw [optionMap_again Reference.boundIn_boundIn, map_again Parameter.boundIn_boundIn]

theorem Property.boundIn_boundIn (p : Property) :
    (p.boundIn t scope).boundIn t scope = p.boundIn t scope :=
  congrArg (fun type => { p with type }) p.type.boundIn_boundIn

theorem Event.boundIn_boundIn (e : Event) :
    (e.boundIn t scope).boundIn t scope = e.boundIn t scope :=
  congrArg (fun type => { e with type }) e.type.boundIn_boundIn

theorem Constructor.boundIn_boundIn (c : Constructor) :
    (c.boundIn t scope).boundIn t scope = c.boundIn t scope :=
  congrArg (fun parameters => { c with parameters })
    (map_again (fun p => Parameter.boundIn_boundIn p) c.parameters)

theorem ClassPart.boundIn_boundIn (c : ClassPart) :
    (c.boundIn t scope).boundIn t scope = c.boundIn t scope :=
  congrArg (fun constructors => { c with constructors })
    (map_again (fun c => Constructor.boundIn_boundIn c) c.constructors)

theorem Field.boundIn_boundIn (f : Field) :
    (f.boundIn t scope).boundIn t scope = f.boundIn t scope :=
  congrArg (fun type => { f with type }) f.type.boundIn_boundIn

theorem ObjectType.boundIn_boundIn (o : ObjectType) : (o.boundIn t).boundIn t = o.boundIn t := by
  unfold boundIn
  dsimp only
  rw [map_again Reference.requiredIn_requiredIn, map_again Method.boundIn_boundIn,
    map_again Property.boundIn_boundIn, map_again Event.boundIn_boundIn,
    optionMap_again ClassPart.boundIn_boundIn]

theorem StructType.boundIn_boundIn (s : StructType) : (s.boundIn t).boundIn t = s.boundIn t := by
  unfold boundIn
  dsimp only
  rw [map_again Field.boundIn_boundIn]

theorem DelegateType.boundIn_boundIn (d : DelegateType) : (d.boundIn t).boundIn t = d.boundIn t := by
  unfold boundIn
  dsimp only
  rw [optionMap_again Reference.boundIn_boundIn, map_again Parameter.boundIn_boundIn]

theorem Store.boundIn_boundIn (st : Store) : (st.boundIn t).boundIn t = st.boundIn t := by
  unfold boundIn
  dsimp only
  rw [arrayMap_again ObjectType.boundIn_boundIn, arrayMap_again StructType.boundIn_boundIn,
    arrayMap_again DelegateType.boundIn_boundIn]

namespace Site

theorem boundIn_cases (t : NameTable) (s : Site) :
    s.boundIn t = s ∨ (s.boundIn t).reference.isBound = true := by
  obtain ⟨scope, line, role, r⟩ := s
  have hreference : ∀ {r' : Reference}, r' = r ∨ r'.isBound = true →
      (⟨scope, line, role, r'⟩ : Site) = ⟨scope, line, role, r⟩ ∨ r'.isBound = true :=
    fun h => h.imp_left fun heq => by rw [heq]
  cases role with
  | required => exact hreference (r.requiredIn_cases t scope)
  | accessor => exact hreference (r.boundIn_cases t scope)
  | event => exact hreference (r.boundIn_cases t scope)
  | other => exact hreference (r.boundIn_cases t scope)

theorem keys_of_isBound {s : Site} (h : s.reference.isBound = true) : s.keys = [] := if_pos h

theorem faults_of_isBound {s : Site} (h : s.reference.isBound = true) : s.faults t = [] := by
  have hreference : s.reference.faults t s.scope s.line = [] := by
    unfold Reference.faults
    rw [h, Bool.true_or, if_pos rfl]
  have hrequired : s.reference.requiredFaults t s.scope s.line = [] := if_pos h
  have hmisfit : s.misfit t = [] := by
    unfold misfit
    rw [h, Bool.not_true, Bool.false_and, if_neg Bool.false_ne_true]
  unfold faults
  cases s.role with
  | required => exact hrequired
  | accessor => rfl
  | event =>
    dsimp only
    rw [hreference, hmisfit, List.append_nil]
  | other => exact hreference

end Site

theorem Store.keys_boundIn (st : Store) : (st.boundIn t).keys ⊆ st.keys := by
  intro key hkey
  rw [keys_eq, sites_boundIn, List.flatMap_map] at hkey
  obtain ⟨s, hs, hkey⟩ := List.mem_flatMap.1 hkey
  rw [keys_eq]
  rcases s.boundIn_cases t with hsame | hbound
  · exact List.mem_flatMap.2 ⟨s, hs, hsame ▸ hkey⟩
  · rw [Site.keys_of_isBound hbound] at hkey
    exact absurd hkey List.not_mem_nil

theorem Store.bindingFaults_boundIn {st : Store} (h : st.bindingFaults t = []) :
    (st.boundIn t).bindingFaults t = [] := by
  rw [bindingFaults_eq, List.flatMap_eq_nil_iff] at h ⊢
  rw [sites_boundIn]
  refine List.forall_mem_map.2 fun s hs => ?_
  rcases s.boundIn_cases t with hsame | hbound
  · rw [hsame]
    exact h s hs
  · exact Site.faults_of_isBound hbound

theorem NameTable.lookupAll_known {keys : List String}
    (h : ∀ key ∈ keys, (t.get? key).isSome = true ∨ t.import? key = none) :
    t.lookupAll keys = t := by
  induction keys with
  | nil => rfl
  | cons key keys ih =>
    have hkey : (t.lookup key).2 = t := by
      cases hget : t.get? key with
      | some symbol => rw [lookup_known hget]
      | none =>
        have hnone := (h key List.mem_cons_self).resolve_left (by simp [hget])
        rw [lookup_missing hget hnone]
    rw [lookupAll_cons, hkey]
    exact ih fun key hmem => h key (List.mem_cons_of_mem _ hmem)

theorem NameTable.lookupAll_again {keys more : List String} (h : more ⊆ keys) :
    (t.lookupAll keys).lookupAll more = t.lookupAll keys := by
  apply lookupAll_known
  intro key hkey
  rw [isSome_get?_lookupAll, import?_lookupAll, List.contains_iff_mem.2 (h hkey)]
  cases t.import? key with
  | none => exact Or.inr rfl
  | some i => exact Or.inl (by simp)

/-- A second binding changes nothing, and reports what is wrong with the bound store. -/
theorem Workspace.bindReferences_again (w : Workspace) :
    w.bindReferences.1.bindReferences.1 = { w.bindReferences.1 with
      report := w.bindReferences.1.report.add
        (w.bindReferences.1.store.bindingFaults w.bindReferences.1.symbols) } := by
  have hfirst := w.bindReferences_eq
  dsimp only at hfirst
  have hkeys := Store.keys_boundIn (t := w.symbols.lookupAll w.store.keys) w.store
  rw [w.bindReferences.1.bindReferences_eq]
  rw [hfirst]
  dsimp only
  rw [NameTable.lookupAll_again hkeys, Store.boundIn_boundIn]

end ComponentIdl
