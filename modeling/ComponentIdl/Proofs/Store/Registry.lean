import ComponentIdl.Store
import ComponentIdl.Proofs.Namespaces

/-!
# Declarations under their names

What a symbol stands for in a store is told by the header it finds there. A store is registered if
every declaration is recorded under its simple name, in the node whose dotted name is its namespace.
A declaration of a registered store is found by its dotted name, provided that its simple name is a
segment.
-/

namespace ComponentIdl

def Entity.header : Entity → Header
  | .object o => o.toHeader
  | .struct s => s.toHeader
  | .enum e => e.toHeader
  | .delegate d => d.toHeader

namespace Store

/-- The header of the declaration that a symbol stands for; an import has none here. -/
def header? (st : Store) : Symbol → Option Header
  | .runtimeClass id => (st.objects[id]?).bind fun o => if o.isClass then some o.toHeader else none
  | .interface id => (st.objects[id]?).bind fun o => if o.isClass then none else some o.toHeader
  | .struct id => (st.structs[id]?).map StructType.toHeader
  | .enum id => (st.enums[id]?).map EnumType.toHeader
  | .delegate id => (st.delegates[id]?).map DelegateType.toHeader
  | .imported _ _ => none

theorem header?_add (st : Store) (e : Entity) (σ : Symbol) :
    (st.add e).header? σ = if σ = st.nextSymbol e then some e.header else st.header? σ := by
  cases e with
  | object o =>
    cases hc : o.isClass <;> cases σ <;>
      simp only [add, header?, nextSymbol, hc, Array.getElem?_push, Entity.header, reduceCtorEq,
        if_false, if_true, Bool.false_eq_true, Symbol.runtimeClass.injEq, Symbol.interface.injEq]
    all_goals split <;> simp_all
  | struct s =>
    cases σ <;> simp only [add, header?, nextSymbol, Array.getElem?_push, Entity.header, reduceCtorEq,
      if_false, Symbol.struct.injEq]
    split <;> simp
  | enum e =>
    cases σ <;> simp only [add, header?, nextSymbol, Array.getElem?_push, Entity.header, reduceCtorEq,
      if_false, Symbol.enum.injEq]
    split <;> simp
  | delegate d =>
    cases σ <;> simp only [add, header?, nextSymbol, Array.getElem?_push, Entity.header, reduceCtorEq,
      if_false, Symbol.delegate.injEq]
    split <;> simp

theorem header?_nextSymbol (st : Store) (e : Entity) : st.header? (st.nextSymbol e) = none := by
  cases e with
  | object o => cases hc : o.isClass <;> simp [header?, nextSymbol, hc]
  | struct s => simp [header?, nextSymbol]
  | enum e => simp [header?, nextSymbol]
  | delegate d => simp [header?, nextSymbol]

/-- What the symbol of a class or interface depends on. -/
def label (o : ObjectType) : Header × Bool := (o.toHeader, o.isClass)

/-- Two stores with the same headers in the same slots. -/
structure SameHeaders (st st' : Store) : Prop where
  objects : ∀ i : Nat, (st'.objects[i]?).map label = (st.objects[i]?).map label
  structs : ∀ i : Nat, (st'.structs[i]?).map StructType.toHeader =
    (st.structs[i]?).map StructType.toHeader
  enums : ∀ i : Nat, (st'.enums[i]?).map EnumType.toHeader = (st.enums[i]?).map EnumType.toHeader
  delegates : ∀ i : Nat, (st'.delegates[i]?).map DelegateType.toHeader =
    (st.delegates[i]?).map DelegateType.toHeader

theorem SameHeaders.refl (st : Store) : st.SameHeaders st :=
  ⟨fun _ => rfl, fun _ => rfl, fun _ => rfl, fun _ => rfl⟩

theorem SameHeaders.of_slots {st st' : Store} (ho : st'.objects = st.objects)
    (hs : st'.structs = st.structs) (he : st'.enums = st.enums)
    (hd : st'.delegates = st.delegates) : st.SameHeaders st' :=
  ⟨fun _ => by rw [ho], fun _ => by rw [hs], fun _ => by rw [he], fun _ => by rw [hd]⟩

theorem SameHeaders.trans {st st' st'' : Store} (h : st.SameHeaders st') (h' : st'.SameHeaders st'') :
    st.SameHeaders st'' :=
  ⟨fun i => (h'.objects i).trans (h.objects i), fun i => (h'.structs i).trans (h.structs i),
    fun i => (h'.enums i).trans (h.enums i), fun i => (h'.delegates i).trans (h.delegates i)⟩

theorem SameHeaders.header? {st st' : Store} (h : st.SameHeaders st') (σ : Symbol) :
    st'.header? σ = st.header? σ := by
  have hclass : ∀ o : Option ObjectType,
      (o.bind fun o => if o.isClass then some o.toHeader else none) =
        (o.map label).bind fun x => if x.2 then some x.1 else none := by
    intro o
    cases o <;> rfl
  have hinterface : ∀ o : Option ObjectType,
      (o.bind fun o => if o.isClass then none else some o.toHeader) =
        (o.map label).bind fun x => if x.2 then none else some x.1 := by
    intro o
    cases o <;> rfl
  cases σ with
  | runtimeClass id => rw [Store.header?, Store.header?, hclass, hclass, h.objects]
  | interface id => rw [Store.header?, Store.header?, hinterface, hinterface, h.objects]
  | struct id => exact h.structs id
  | enum id => exact h.enums id
  | delegate id => exact h.delegates id
  | imported id kind => rfl

/-- Every declaration is recorded under its name in the node of its namespace. -/
structure Registered (st : Store) : Prop where
  tree : st.namespaces.Proper
  complete : ∀ σ h, st.header? σ = some h → ∃ n < st.namespaces.size,
    st.namespaces.nameOf n = h.scope ∧ st.namespaces.symbol? n h.name = some σ

theorem registered_empty : Registered {} := by
  refine ⟨Namespaces.proper_empty, ?_⟩
  intro σ h hσ
  cases σ <;> simp [header?] at hσ

theorem Registered.of_sameHeaders {st st' : Store} (h : st.Registered) (hs : st.SameHeaders st')
    (htree : st'.namespaces = st.namespaces) : st'.Registered := by
  refine ⟨htree ▸ h.tree, ?_⟩
  intro σ header hσ
  rw [hs.header? σ] at hσ
  rw [htree]
  exact h.complete σ header hσ

theorem Registered.lookup?_within {st : Store} (h : st.Registered) {n : NamespaceId}
    {header : Header} (hn : n < st.namespaces.size) (hscope : st.namespaces.nameOf n = header.scope)
    (hname : IsSegment header.name) :
    st.lookup? header.dottedName = st.namespaces.symbol? n header.name := by
  have hpath := h.tree.path?_nameOf hn
  rw [hscope] at hpath
  unfold Store.lookup? Header.dottedName
  rw [DottedName.parse_within _ hname]
  show (st.namespaces.path? (segments header.scope)).bind _ = _
  rw [hpath, Option.bind_some]
  rfl

/-- A declaration whose simple name is a segment is found by its dotted name. -/
theorem Registered.lookup? {st : Store} (h : st.Registered) {σ : Symbol} {header : Header}
    (hσ : st.header? σ = some header) (hname : IsSegment header.name) :
    st.lookup? header.dottedName = some σ := by
  obtain ⟨n, hn, hscope, hsymbol⟩ := h.complete σ header hσ
  rw [h.lookup?_within hn hscope hname, hsymbol]

/-- No declaration has the dotted name of a place that is free. -/
theorem Registered.dottedName_ne {st : Store} (h : st.Registered) {n : NamespaceId}
    {header old : Header} {σ : Symbol} (hn : n < st.namespaces.size)
    (hscope : st.namespaces.nameOf n = header.scope)
    (hfree : st.namespaces.symbol? n header.name = none) (hname : IsSegment header.name)
    (hσ : st.header? σ = some old) (hold : IsSegment old.name) :
    old.dottedName ≠ header.dottedName := by
  intro heq
  have hfound := h.lookup? hσ hold
  rw [heq, h.lookup?_within hn hscope hname, hfree] at hfound
  simp at hfound

theorem sameShape_declare (st : Store) (n : NamespaceId) (block : Nat) (name : String) (e : Entity) :
    st.namespaces.SameShape (st.declare n block name e).namespaces := by
  have hadd : (st.add e).namespaces = st.namespaces := by
    cases e <;> rfl
  unfold Store.declare Namespaces.addSymbol
  cases st.namespaces.symbol? n name with
  | some existing =>
    rw [hadd]
    exact .refl _
  | none => exact Namespaces.sameShape_modify _ _ fun _ => ⟨rfl, rfl, rfl⟩

theorem header?_declare {st : Store} {n : NamespaceId} {e : Entity} (block : Nat)
    (hfree : st.namespaces.symbol? n e.header.name = none) (σ : Symbol) :
    (st.declare n block e.header.name e).header? σ =
      if σ = st.nextSymbol e then some e.header else st.header? σ := by
  rw [← header?_add]
  unfold Store.declare
  rw [Namespaces.addSymbol_free hfree]
  cases σ <;> rfl

theorem Registered.declare {st : Store} (h : st.Registered) {n : NamespaceId} (block : Nat)
    {e : Entity} (hn : n < st.namespaces.size) (hscope : st.namespaces.nameOf n = e.header.scope)
    (hfree : st.namespaces.symbol? n e.header.name = none) :
    (st.declare n block e.header.name e).Registered ∧
      (st.declare n block e.header.name e).namespaces.size = st.namespaces.size ∧
      ∀ σ, (st.declare n block e.header.name e).header? σ =
        if σ = st.nextSymbol e then some e.header else st.header? σ := by
  have htree : (st.declare n block e.header.name e).namespaces = st.namespaces.modify n
      fun node => Namespaces.Namespace.addSymbol node block e.header.name (st.nextSymbol e) := by
    unfold Store.declare
    rw [Namespaces.addSymbol_free hfree]
  have hshape := st.sameShape_declare n block e.header.name e
  have hheader := header?_declare block hfree
  have hsymbol := Namespaces.symbol?_addSymbol block (st.nextSymbol e) hfree hn
  refine ⟨⟨h.tree.of_sameShape hshape, ?_⟩, hshape.size, hheader⟩
  intro σ header hσ
  rw [hheader] at hσ
  rw [hshape.size]
  by_cases hnew : σ = st.nextSymbol e
  · rw [if_pos hnew, Option.some.injEq] at hσ
    subst hσ
    refine ⟨n, hn, (hshape.nameOf n).trans hscope, ?_⟩
    rw [htree, hsymbol, if_pos ⟨rfl, rfl⟩, hnew]
  · rw [if_neg hnew] at hσ
    obtain ⟨k, hk, hkscope, hksymbol⟩ := h.complete σ header hσ
    refine ⟨k, hk, (hshape.nameOf k).trans hkscope, ?_⟩
    rw [htree, hsymbol, if_neg]
    · exact hksymbol
    · rintro ⟨rfl, hnm⟩
      rw [hnm, hfree] at hksymbol
      simp at hksymbol

end Store

end ComponentIdl
