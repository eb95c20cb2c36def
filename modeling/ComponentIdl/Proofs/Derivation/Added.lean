import ComponentIdl.Proofs.Builder.Plain
import ComponentIdl.Proofs.Registry

/-!
# Derived interfaces taken away

Derivation only adds: slots after those that are there, entries under names that are free, and symbols
at the ends of blocks. So without the derived interfaces, and without what classes and namespaces
record of them, a store is as it was.
-/

namespace ComponentIdl

/-- The map without the entries of some values. -/
def NameMap.without {α : Type} (m : NameMap α) (p : α → Bool) : NameMap α where
  entries := m.entries.filter fun e => !p e.2
  distinct := m.distinct.sublist (List.filter_sublist.map Prod.fst)

/-- The namespace without some of its declarations. -/
def Namespace.without (p : Symbol → Bool) (node : Namespace) : Namespace :=
  { node with
    symbols := node.symbols.without p
    blocks := node.blocks.map fun b =>
      { b with declarations := b.declarations.filter fun σ => !p σ } }

def Namespaces.without (t : Namespaces) (p : Symbol → Bool) : Namespaces :=
  ⟨t.nodes.map (Namespace.without p)⟩

/-- A written class or interface without its record of derived ones; a derived one is dropped. -/
def ObjectType.written? (o : ObjectType) : Option ObjectType :=
  if o.derivedFrom.isSome then none else some o.underived

namespace Store

/-- Whether a symbol stands for a derived interface. -/
def isDerived (st : Store) : Symbol → Bool
  | .interface id => (st.objects[id]?).any fun o => o.derivedFrom.isSome
  | _ => false

/-- The store without derived interfaces and without all records of them. -/
def withoutDerived (st : Store) : Store :=
  { st with
    objects := st.objects.filterMap ObjectType.written?
    namespaces := st.namespaces.without st.isDerived }

/-- The second store has derived interfaces besides what the first one has, and they fill the last
slots of the classes and interfaces. -/
structure Added (st st' : Store) : Prop where
  store : st'.withoutDerived = st
  slots : ∃ derived : List ObjectType, (∀ o ∈ derived, o.derivedFrom.isSome = true) ∧
    st'.objects.toList.map ObjectType.underived = st.objects.toList ++ derived

end Store

theorem NameMap.without_insertNew {α : Type} {p : α → Bool} {a : α} (hp : p a = true)
    (m : NameMap α) (name : String) : (m.insertNew name a).without p = m.without p := by
  unfold insertNew
  split
  · unfold without
    simp [List.filter_append, hp]
  · rfl

theorem NameMap.without_congr {α : Type} {p q : α → Bool} {m : NameMap α}
    (h : ∀ e ∈ m.entries, p e.2 = q e.2) : m.without p = m.without q := by
  unfold without
  congr 1
  exact List.filter_congr fun e he => by rw [h e he]

namespace Namespaces

variable {t : Namespaces} {p q : Symbol → Bool} {σ : Symbol}

theorem without_congr (hentries : ∀ n, ∀ e ∈ t.entries n, p e.2 = q e.2)
    (hlisted : ∀ n, ∀ σ ∈ t.listed n, p σ = q σ) : t.without p = t.without q := by
  unfold without
  congr 1
  apply Array.ext_getElem?
  intro n
  rw [Array.getElem?_map, Array.getElem?_map]
  refine Option.map_congr fun node hnode => ?_
  have hnode : t.node? n = some node := hnode
  have hsymbols := NameMap.without_congr (m := node.symbols) (p := p) (q := q) fun e he =>
    hentries n e (by rwa [entries, hnode])
  have hblocks : (node.blocks.map fun b =>
      { b with declarations := b.declarations.filter fun σ => !p σ }) = node.blocks.map fun b =>
      { b with declarations := b.declarations.filter fun σ => !q σ } := by
    refine List.map_congr_left fun b hb => ?_
    have hdeclarations : (b.declarations.filter fun σ => !p σ) =
        b.declarations.filter fun σ => !q σ := by
      refine List.filter_congr fun σ hσ => ?_
      rw [hlisted n σ (by
        rw [listed, blocks, hnode]
        exact List.mem_flatMap.2 ⟨b, hb, hσ⟩)]
    rw [hdeclarations]
  unfold Namespace.without
  rw [hsymbols, hblocks]

theorem without_none (t : Namespaces) : (t.without fun _ => false) = t := by
  have hnode : ∀ node : Namespace, node.without (fun _ => false) = node := by
    intro node
    unfold Namespace.without NameMap.without
    simp
  unfold without
  rw [funext hnode, Array.map_id']

/-- A declaration that is taken away again leaves no trace. -/
theorem without_addSymbol (hp : p σ = true) (n : NamespaceId) (block : Nat) (name : String) :
    (t.modify n fun node => Namespace.addSymbol node block name σ).without p = t.without p := by
  have hnode : ∀ node : Namespace,
      (Namespace.addSymbol node block name σ).without p = node.without p := by
    intro node
    have hblocks : ((node.blocks.modify block fun b =>
        { b with declarations := b.declarations ++ [σ] }).map fun b : NamespaceBlock =>
          { b with declarations := b.declarations.filter fun σ => !p σ }) =
        node.blocks.map fun b => { b with declarations := b.declarations.filter fun σ => !p σ } :=
      map_modify _ _ fun b => by simp [List.filter_append, hp]
    unfold Namespace.without Namespace.addSymbol
    dsimp only
    rw [hblocks, NameMap.without_insertNew hp]
  unfold without
  congr 1
  apply Array.ext_getElem?
  intro k
  have hmodify := map_node?_modify t n k hnode
  rw [Array.getElem?_map, Array.getElem?_map]
  exact hmodify

end Namespaces

namespace Derivation

variable {s s' : Derivation} {st : Store} {id : ObjectId} {o : ObjectType}

theorem underived_recorded (role : DerivedRole) (slot : ObjectId) (c : ObjectType) :
    (recorded role slot c).underived = c.underived := by
  unfold recorded ObjectType.underived
  cases c.classPart <;> rfl

section WithInterface

variable {node : NamespaceId} {block : Nat} {role : DerivedRole} {interface : ObjectType}

theorem underived_withInterface (slot : Nat) :
    (withInterface st node block id slot role interface).objects.toList.map ObjectType.underived =
      st.objects.toList.map ObjectType.underived ++ [interface.underived] := by
  unfold withInterface Store.modifyObject
  dsimp only
  rw [(Builder.slots_declare ..).1, Array.toList_modify,
    map_modify _ _ (underived_recorded role slot), Store.add, Array.toList_push, List.map_append, List.map_singleton]

theorem isDerived_withInterface (hderived : interface.derivedFrom.isSome = true) (σ : Symbol) :
    (withInterface st node block id st.objects.size role interface).isDerived σ =
      (st.isDerived σ || σ == .interface st.objects.size) := by
  cases σ with
  | interface i =>
    have hsame : ∀ o : ObjectType,
        (if id = i then recorded role st.objects.size o else o).derivedFrom = o.derivedFrom := by
      intro o
      split <;> rfl
    unfold Store.isDerived
    dsimp only
    rw [getElem?_withInterface, Array.getElem?_push]
    by_cases hi : i = st.objects.size
    · rw [if_pos hi, Option.map_some, Option.any_some, hsame, hderived, hi]
      simp
    · have hne : (Symbol.interface i == .interface st.objects.size) = false := by simpa using hi
      rw [if_neg hi, hne, Bool.or_false, Option.any_map]
      exact congrArg (Option.any · _) (funext fun o => by rw [hsame])
  | runtimeClass i => rfl
  | struct i => rfl
  | enum i => rfl
  | delegate i => rfl
  | imported i kind => rfl

theorem without_withInterface (h : st.Recorded) (hderived : interface.derivedFrom.isSome = true)
    (hfree : st.namespaces.symbol? node interface.name = none)
    (hclass : interface.isClass = false) :
    let st' := withInterface st node block id st.objects.size role interface
    st'.namespaces.without st'.isDerived = st.namespaces.without st.isDerived := by
  intro st'
  have hnext : st.nextSymbol (.object interface) = .interface st.objects.size := by
    simp [Store.nextSymbol, hclass]
  have htree : st'.namespaces = st.namespaces.modify node fun n =>
      Namespaces.Namespace.addSymbol n block interface.name (.interface st.objects.size) := by
    show (st.declare node block interface.name (.object interface)).namespaces = _
    unfold Store.declare
    rw [Namespaces.addSymbol_free hfree, hnext]
  have hnew : st'.isDerived (.interface st.objects.size) = true := by
    rw [isDerived_withInterface hderived]
    simp
  -- What is recorded has a slot already, so the new slot is not among it.
  have hold : ∀ σ, (∃ header, st.header? σ = some header) → st'.isDerived σ = st.isDerived σ := by
    rintro σ ⟨header, hσ⟩
    have hne : (σ == .interface st.objects.size) = false := by
      rw [beq_eq_false_iff_ne]
      rintro rfl
      rw [← hnext, Store.header?_nextSymbol] at hσ
      exact absurd hσ (by simp)
    rw [isDerived_withInterface hderived, hne, Bool.or_false]
  rw [htree, Namespaces.without_addSymbol hnew]
  refine Namespaces.without_congr ?_ ?_
  · exact fun n e he => hold e.2 (h.registry.entries n e.1 e.2 (Namespaces.mem_entries.1 he))
  · intro n σ hσ
    obtain ⟨b, hb, hσ⟩ := List.mem_flatMap.1 hσ
    exact hold σ (h.registry.blocks n b hb σ hσ)

end WithInterface

/-- Only derived interfaces have been added to `st`. -/
structure Adding (st : Store) (s : Derivation) : Prop where
  recording : Recording st s
  objects : ∃ derived : List ObjectType, (∀ o ∈ derived, o.derivedFrom.isSome = true) ∧
    s.store.objects.toList.map ObjectType.underived = st.objects.toList ++ derived
  namespaces : s.store.namespaces.without s.store.isDerived = st.namespaces
  structs : s.store.structs = st.structs
  enums : s.store.enums = st.enums
  delegates : s.store.delegates = st.delegates

theorem Adding.step {plan : DerivedRole × MemberSet} (h : Adding st s)
    (hclass : st.header? (.runtimeClass id) = some o.toHeader) (hstep : Step id o plan s s') :
    Adding st s' := by
  have hrecording := h.recording.step hclass hstep
  cases hstep with
  | passed => exact h
  | taken d => exact ⟨hrecording, h.objects, h.namespaces, h.structs, h.enums, h.delegates⟩
  | declared node block path free beside =>
    obtain ⟨-, hstructs, henums, hdelegates⟩ := Builder.slots_declare s.store node block
      (interfaceOf id o plan.1 plan.2).name (.object (interfaceOf id o plan.1 plan.2))
    refine ⟨hrecording, ?_, ?_, hstructs.trans h.structs, henums.trans h.enums,
      hdelegates.trans h.delegates⟩
    · obtain ⟨derived, hderived, hobjects⟩ := h.objects
      refine ⟨derived ++ [(interfaceOf id o plan.1 plan.2).underived], ?_, ?_⟩
      · exact List.forall_mem_append.2
          ⟨hderived, fun o ho => List.mem_singleton.1 ho ▸ rfl⟩
      · rw [underived_withInterface, hobjects, List.append_assoc]
    · exact (without_withInterface h.recording.store rfl free rfl).trans h.namespaces

theorem invariant_adding (st : Store) :
    Invariant (Adding st) fun _ id o _ => st.header? (.runtimeClass id) = some o.toHeader where
  turn s id o hs := (invariant_recording st).turn s id o hs.recording
  step _ _ _ _ _ _ hs hclass hstep := ⟨hs.step hclass hstep, hclass⟩

theorem Adding.added (h : Adding st s) (hst : ∀ o ∈ st.objects, o.derivedFrom = none) :
    st.Added s.store := by
  obtain ⟨derived, hderived, hobjects⟩ := h.objects
  refine ⟨?_, derived, hderived, hobjects⟩
  have hwritten : s.store.objects.filterMap ObjectType.written? = st.objects := by
    have hsplit : s.store.objects.toList.filterMap ObjectType.written? =
        (s.store.objects.toList.map ObjectType.underived).filterMap fun o =>
          if o.derivedFrom.isSome then none else some o := by
      rw [List.filterMap_map]
      rfl
    have hold : (st.objects.toList.filterMap fun o =>
        if o.derivedFrom.isSome then none else some o) = st.objects.toList := by
      refine (List.filterMap_congr fun o ho => ?_).trans List.filterMap_some
      rw [hst o (Array.mem_toList_iff.1 ho)]
      rfl
    have hnew : (derived.filterMap fun o =>
        if o.derivedFrom.isSome then none else some o) = [] :=
      List.filterMap_eq_nil_iff.2 fun o ho => if_pos (hderived o ho)
    apply Array.toList_inj.1
    rw [Array.toList_filterMap, hsplit, hobjects, List.filterMap_append, hold, hnew,
      List.append_nil]
  unfold Store.withoutDerived
  rw [hwritten, h.namespaces, h.structs, h.enums, h.delegates]

/-- A derivation adds derived interfaces to a store without any, and nothing else. -/
theorem added_run (h : s.store.Recorded) (horiginal : ∀ o ∈ s.store.objects, o.Original) :
    s.store.Added s.run.store := by
  have hstart : Adding s.store s := by
    refine ⟨recording_start h, ⟨[], by simp, ?_⟩, ?_, rfl, rfl, rfl⟩
    · have hsame : ∀ o ∈ s.store.objects.toList, o.underived = o :=
        fun o ho => (horiginal o (Array.mem_toList_iff.1 ho)).underived
      rw [List.append_nil, List.map_congr_left hsame, List.map_id']
    · have hnone : s.store.isDerived = fun _ => false := by
        funext σ
        cases σ with
        | interface i =>
          show (s.store.objects[i]?).any _ = false
          cases hi : s.store.objects[i]? with
          | none => rfl
          | some o => rw [Option.any_some, (horiginal o (Array.mem_of_getElem? hi)).written]; rfl
        | runtimeClass i => rfl
        | struct i => rfl
        | enum i => rfl
        | delegate i => rfl
        | imported i kind => rfl
      rw [hnone, Namespaces.without_none]
  exact ((invariant_adding s.store).slots hstart _).added fun o ho => (horiginal o ho).written

end Derivation

end ComponentIdl
