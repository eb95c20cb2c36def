import ComponentIdl.Proofs.Derivation.Added
import ComponentIdl.Proofs.Derivation.Original
import ComponentIdl.Proofs.Repeat.Derivation

/-!
# Candidates admitted and refused

A first derivation settles its candidates in turn. One whose name is taken, by a declaration of the
store or by an interface that was admitted before, is refused. The others are admitted: their interfaces
fill the slots after those of the store.
-/

namespace ComponentIdl

namespace Candidate

/-- The namespace and the simple name under which the interface is to be declared. -/
def key (x : Candidate) : String × String := (x.interface.scope, x.interface.name)

/-- The report of a candidate whose name is taken. -/
def clash (x : Candidate) : Diagnostic :=
  .of .duplicateNamespaceMember x.owner.line x.interface.dottedName

end Candidate

/-- Whether the namespace has a declaration of the name. -/
def Store.holds (st : Store) (key : String × String) : Bool :=
  ((st.namespaces.find? key.1).bind fun n => st.namespaces.symbol? n key.2).isSome

/-- Candidates that were admitted and candidates that were refused, both in order. -/
structure Verdicts where
  admitted : List Candidate := []
  refused : List Candidate := []

namespace Verdicts

variable {st : Store} {v : Verdicts} {x : Candidate}

def taken (st : Store) (v : Verdicts) (x : Candidate) : Bool :=
  st.holds x.key || v.admitted.any fun y => y.key == x.key

def judge (st : Store) (v : Verdicts) (x : Candidate) : Verdicts :=
  if v.taken st x then { v with refused := v.refused ++ [x] }
  else { v with admitted := v.admitted ++ [x] }

theorem judge_taken (h : v.taken st x = true) :
    v.judge st x = { v with refused := v.refused ++ [x] } :=
  if_pos h

theorem judge_free (h : v.taken st x = false) :
    v.judge st x = { v with admitted := v.admitted ++ [x] } :=
  if_neg (Bool.eq_false_iff.1 h)

/-- The admitted ones with their slots, which start at `first`, entered under their dotted names. -/
def entered (v : Verdicts) (first : Nat) (symbols : NameTable) : NameTable :=
  v.admitted.zipIdx.foldl
    (fun t x => t.insert x.1.interface.dottedName (.interface (first + x.2))) symbols

theorem entered_admit (first : Nat) (symbols : NameTable) (x : Candidate) :
    entered { v with admitted := v.admitted ++ [x] } first symbols =
      (v.entered first symbols).insert x.interface.dottedName
        (.interface (first + v.admitted.length)) := by
  unfold entered
  dsimp only
  rw [List.zipIdx_append, List.foldl_append, Nat.zero_add]
  rfl

end Verdicts

/-- The verdicts on candidates that come one after the other. -/
def Store.verdicts (st : Store) (xs : List Candidate) : Verdicts := xs.foldl (Verdicts.judge st) {}

/-- Every candidate is either admitted or refused. -/
theorem Verdicts.perm_foldl (st : Store) (v : Verdicts) (xs : List Candidate) :
    ((xs.foldl (judge st) v).admitted ++ (xs.foldl (judge st) v).refused).Perm
      (v.admitted ++ v.refused ++ xs) := by
  induction xs generalizing v with
  | nil => rw [List.foldl_nil, List.append_nil]
  | cons x xs ih =>
    have hone : ((v.judge st x).admitted ++ (v.judge st x).refused).Perm
        (v.admitted ++ v.refused ++ [x]) := by
      cases h : v.taken st x with
      | true => rw [judge_taken h, List.append_assoc]
      | false =>
        rw [judge_free h, List.append_assoc, List.append_assoc]
        exact (List.perm_append_comm).append_left _
    have hsplit : v.admitted ++ v.refused ++ x :: xs = v.admitted ++ v.refused ++ [x] ++ xs := by
      rw [List.append_assoc _ [x], List.singleton_append]
    rw [List.foldl_cons, hsplit]
    exact (ih (v.judge st x)).trans (hone.append_right xs)

theorem Verdicts.prefix_foldl (st : Store) (v : Verdicts) (xs : List Candidate) :
    v.admitted <+: (xs.foldl (judge st) v).admitted ∧
      v.refused <+: (xs.foldl (judge st) v).refused := by
  induction xs generalizing v with
  | nil => exact ⟨List.prefix_refl _, List.prefix_refl _⟩
  | cons x xs ih =>
    obtain ⟨hadmitted, hrefused⟩ := ih (v.judge st x)
    cases h : v.taken st x with
    | true =>
      rw [judge_taken h] at hadmitted hrefused
      rw [List.foldl_cons, judge_taken h]
      exact ⟨hadmitted, (List.prefix_append _ _).trans hrefused⟩
    | false =>
      rw [judge_free h] at hadmitted hrefused
      rw [List.foldl_cons, judge_free h]
      exact ⟨(List.prefix_append _ _).trans hadmitted, hrefused⟩

namespace Derivation

variable {s : Derivation} {st : Store} {v : Verdicts} {x : Candidate}

theorem holds_iff (h : st.Recorded) (hx : st.objects[x.id]? = some x.owner)
    (hclass : x.owner.isClass = true) :
    st.holds x.key = true ↔ st.Occupied x.interface := by
  have hheader : st.header? (.runtimeClass x.id) = some x.owner.toHeader := by
    rw [Store.header?, hx, Option.bind_some, if_pos hclass]
  have hstart : Recording st { store := st, symbols := {} } := ⟨h, fun _ => rfl⟩
  obtain ⟨node, -, hpath, -, -⟩ := hstart.place hheader
  have hfind : st.namespaces.find? x.key.1 = some node := hpath
  unfold Store.holds
  rw [hfind, Option.bind_some]
  constructor
  · intro hsome
    obtain ⟨σ, hσ⟩ := Option.isSome_iff_exists.1 hsome
    show st.Occupied (interfaceOf x.id x.owner x.plan.1 x.plan.2)
    exact hstart.occupied hheader hpath hσ
  · intro hoccupied
    have hused : st.namespaces.symbol? node (interfaceOf x.id x.owner x.plan.1 x.plan.2).name ≠ none :=
      hstart.not_free hoccupied hpath
    exact Option.isSome_iff_ne_none.2 hused

/-- One more interface takes one more name. -/
theorem occupied_withInterface {node : NamespaceId} {block : Nat} {interface : ObjectType}
    (hheader : ∀ σ, (withInterface st node block x.id st.objects.size x.role x.interface).header? σ =
      if σ = .interface st.objects.size then some x.interface.toHeader else st.header? σ) :
    (withInterface st node block x.id st.objects.size x.role x.interface).Occupied interface ↔
      st.Occupied interface ∨ x.key = (interface.scope, interface.name) := by
  have hunused : st.header? (.interface st.objects.size) = none := by
    rw [Store.header?, Array.getElem?_eq_none (Nat.le_refl _), Option.bind_none]
  constructor
  · rintro ⟨σ, header, hσ, hname, hscope⟩
    rw [hheader] at hσ
    split at hσ
    · obtain rfl := Option.some.inj hσ
      exact Or.inr (Prod.ext hscope hname)
    · exact Or.inl ⟨σ, header, hσ, hname, hscope⟩
  · rintro (⟨σ, header, hσ, hname, hscope⟩ | hkey)
    · refine ⟨σ, header, ?_, hname, hscope⟩
      rw [hheader, if_neg, hσ]
      rintro rfl
      exact absurd (hunused.symm.trans hσ) (by simp)
    · refine ⟨.interface st.objects.size, x.interface.toHeader, ?_, congrArg Prod.snd hkey,
        congrArg Prod.fst hkey⟩
      rw [hheader, if_pos rfl]

/-- A block has both the class and the interface. -/
def Beside (st : Store) (id slot : ObjectId) : Prop :=
  ∃ node, ∃ b ∈ st.namespaces.blocks node,
    .runtimeClass id ∈ b.declarations ∧ .interface slot ∈ b.declarations

section Blocks

variable {node : NamespaceId} {block : Nat} {id : ObjectId} {role : DerivedRole}
  {interface : ObjectType}

theorem namespaces_withInterface (hfree : st.namespaces.symbol? node interface.name = none)
    (hinterface : interface.isClass = false) :
    (withInterface st node block id st.objects.size role interface).namespaces =
      st.namespaces.modify node fun n =>
        Namespaces.Namespace.addSymbol n block interface.name (.interface st.objects.size) := by
  have hnext : st.nextSymbol (.object interface) = .interface st.objects.size := by
    simp [Store.nextSymbol, hinterface]
  show (st.declare node block interface.name (.object interface)).namespaces = _
  unfold Store.declare
  rw [Namespaces.addSymbol_free hfree, hnext]

theorem size_withInterface (slot : Nat) :
    (withInterface st node block id slot role interface).objects.size = st.objects.size + 1 := by
  unfold withInterface Store.modifyObject
  dsimp only
  rw [Array.size_modify, (Builder.slots_declare ..).1]
  exact Array.size_push _

variable (hfree : st.namespaces.symbol? node interface.name = none)
  (hinterface : interface.isClass = false) (hblock : block < (st.namespaces.blocks node).length)

include hfree hinterface hblock

theorem Beside.withInterface {i slot : ObjectId} (h : Beside st i slot) :
    Beside (withInterface st node block id st.objects.size role interface) i slot := by
  obtain ⟨m, b, hb, hclass, hslot⟩ := h
  have hlt := Namespaces.lt_size_of_block hblock
  unfold Beside
  rw [namespaces_withInterface hfree hinterface]
  by_cases hm : m = node
  · subst hm
    refine ⟨m, ?_⟩
    rw [Namespaces.blocks_addSymbol hlt, if_pos rfl]
    rcases mem_modify_of_mem (i := block) hb with ⟨hb', -⟩ | hb'
    · exact ⟨_, hb', List.mem_append_left _ hclass, List.mem_append_left _ hslot⟩
    · exact ⟨b, hb', hclass, hslot⟩
  · refine ⟨m, b, ?_, hclass, hslot⟩
    rw [Namespaces.blocks_addSymbol hlt, if_neg hm]
    exact hb

/-- A new interface stands in the block where its class was found. -/
theorem beside_withInterface
    (hbeside : st.namespaces.blockOf? node (.runtimeClass id) = some block) :
    Beside (withInterface st node block id st.objects.size role interface) id st.objects.size := by
  have hlt := Namespaces.lt_size_of_block hblock
  generalize hb : (st.namespaces.blocks node)[block] = b
  have hclass : .runtimeClass id ∈ b.declarations := by
    obtain ⟨space, hspace, hfound⟩ := Option.bind_eq_some_iff.1 hbeside
    obtain ⟨_, hcontains, -⟩ := List.findIdx?_eq_some_iff_getElem.1 hfound
    have hblocks : st.namespaces.blocks node = space.blocks := by
      rw [Namespaces.blocks, hspace]
      rfl
    simp only [← hblocks, hb] at hcontains
    exact List.contains_iff_mem.1 hcontains
  unfold Beside
  rw [namespaces_withInterface hfree hinterface]
  refine ⟨node, { b with declarations := b.declarations ++ [.interface st.objects.size] }, ?_,
    List.mem_append_left _ hclass, List.mem_append_right _ List.mem_cons_self⟩
  rw [Namespaces.blocks_addSymbol hlt, if_pos rfl]
  refine List.mem_of_getElem? (i := block) ?_
  rw [List.getElem?_modify_eq, List.getElem?_eq_getElem hblock, hb]
  rfl

end Blocks

theorem getElem?_concat_eq_some {α : Type} {as : List α} {a b : α} {k : Nat} :
    (as ++ [a])[k]? = some b ↔ as[k]? = some b ∨ (k = as.length ∧ b = a) := by
  rcases Nat.lt_trichotomy k as.length with hlt | rfl | hgt
  · rw [List.getElem?_append_left hlt]
    simp [Nat.ne_of_lt hlt]
  · simp [eq_comm]
  · rw [List.getElem?_append_right (Nat.le_of_lt hgt), List.getElem?_eq_none (Nat.le_of_lt hgt),
      List.getElem?_eq_none (by rw [List.length_singleton]; omega)]
    simp [Nat.ne_of_gt hgt]

theorem derived_recorded {c : ObjectType} (role : DerivedRole) (slot : ObjectId)
    (hc : c.isClass = true) : (recorded role slot c).derived = role.record c.derived slot :=
  congrArg Descent.derived (ObjectType.descent_recorded role slot hc)

theorem isClass_of_underived {c c' : ObjectType} (h : c'.underived = c) (hc : c.isClass = true) :
    c'.isClass = true := by
  rw [← h] at hc
  rw [← hc]
  unfold ObjectType.underived ObjectType.isClass
  exact Option.isSome_map.symm

/-- The record of the class `id` tells the slots of its admitted interfaces, which start at `first`. -/
def Records (v : Verdicts) (first : Nat) (id : ObjectId) (d : Derived) : Prop :=
  ∀ role slot, d.slot? role = some slot ↔
    ∃ k x, v.admitted[k]? = some x ∧ x.id = id ∧ x.role = role ∧ slot = first + k

theorem Records.admit {first : Nat} {id : ObjectId} {d : Derived} (h : Records v first id d)
    (hnew : ∀ y ∈ v.admitted, y.id = x.id → y.role ≠ x.role) :
    Records { v with admitted := v.admitted ++ [x] } first id
      (if x.id = id then x.role.record d (first + v.admitted.length) else d) := by
  intro role slot
  have hsplit : (∃ k y, (v.admitted ++ [x])[k]? = some y ∧ y.id = id ∧ y.role = role ∧
      slot = first + k) ↔ d.slot? role = some slot ∨
        (x.id = id ∧ x.role = role ∧ slot = first + v.admitted.length) := by
    rw [h role slot]
    constructor
    · rintro ⟨k, y, hy, hid, hrole, hslot⟩
      rcases getElem?_concat_eq_some.1 hy with hold | ⟨rfl, rfl⟩
      · exact Or.inl ⟨k, y, hold, hid, hrole, hslot⟩
      · exact Or.inr ⟨hid, hrole, hslot⟩
    · rintro (⟨k, y, hold, hid, hrole, hslot⟩ | ⟨hid, hrole, hslot⟩)
      · exact ⟨k, y, getElem?_concat_eq_some.2 (Or.inl hold), hid, hrole, hslot⟩
      · exact ⟨_, x, getElem?_concat_eq_some.2 (Or.inr ⟨rfl, rfl⟩), hid, hrole, hslot⟩
  rw [hsplit]
  by_cases hid : x.id = id
  · rw [if_pos hid, Derived.slot?_record]
    by_cases hrole : role = x.role
    · subst hrole
      -- The role had no interface, since no candidate before was of the same class and role.
      have hvacant : d.slot? x.role ≠ some slot := by
        intro hslot
        obtain ⟨k, y, hy, hyid, hyrole, -⟩ := (h x.role slot).1 hslot
        exact hnew y (List.mem_of_getElem? hy) (hyid.trans hid.symm) hyrole
      simp [hid, hvacant, eq_comm]
    · simp [hrole, Ne.symm hrole]
  · simp [hid]

/-- The derivation that started with the store `st` and the names `symbols` has come to the verdicts
`v`. -/
structure Settled (st : Store) (symbols : NameTable) (v : Verdicts) (s : Derivation) : Prop where
  recording : Recording st s
  owners : ∀ x ∈ v.admitted, st.objects[x.id]? = some x.owner
  occupied : ∀ interface, s.store.Occupied interface ↔
    st.Occupied interface ∨ ∃ x ∈ v.admitted, x.key = (interface.scope, interface.name)
  size : s.store.objects.size = st.objects.size + v.admitted.length
  old : ∀ (id : ObjectId) c, st.objects[id]? = some c → ∃ c', s.store.objects[id]? = some c' ∧
    c'.underived = c ∧ Records v st.objects.size id c'.derived
  new : ∀ (k : Nat) x, v.admitted[k]? = some x →
    s.store.objects[st.objects.size + k]? = some x.interface ∧
      Beside s.store x.id (st.objects.size + k)
  symbols : s.symbols = v.entered st.objects.size symbols
  found : s.found = v.refused.map Candidate.clash
  interfaces : s.interfaces = v.admitted.length

variable {symbols : NameTable}

theorem settled_start (h : st.Recorded) (horiginal : ∀ o ∈ st.objects, o.Original) :
    Settled st symbols {} { store := st, symbols } where
  recording := ⟨h, fun _ => rfl⟩
  owners x hx := absurd hx List.not_mem_nil
  occupied interface := by simp
  size := rfl
  old id c hc := by
    have hc' := horiginal c (Array.mem_of_getElem? hc)
    refine ⟨c, hc, hc'.underived, ?_⟩
    intro role slot
    rw [hc'.derived_eq, Derived.slot?_empty]
    simp
  new k x hx := by simp at hx
  symbols := rfl
  found := rfl
  interfaces := rfl

section Step

variable (hst : st.Recorded) (h : Settled st symbols v s) (hx : st.objects[x.id]? = some x.owner)
  (hclass : x.owner.isClass = true)

include hst h hx hclass

theorem Settled.taken_iff : v.taken st x = true ↔ s.store.Occupied x.interface := by
  unfold Verdicts.taken
  rw [h.occupied, Bool.or_eq_true, holds_iff hst hx hclass, List.any_eq_true]
  simp only [beq_iff_eq]
  rfl

theorem Settled.refuse {node : NamespaceId} {σ : Symbol}
    (hpath : s.store.namespaces.path? (segments x.owner.scope) = some node)
    (hused : s.store.namespaces.symbol? node x.interface.name = some σ) :
    Settled st symbols (v.judge st x) (s.settle x) := by
  have hheader : st.header? (.runtimeClass x.id) = some x.owner.toHeader := by
    rw [Store.header?, hx, Option.bind_some, if_pos hclass]
  have hoccupied : s.store.Occupied (interfaceOf x.id x.owner x.plan.1 x.plan.2) :=
    h.recording.occupied hheader hpath hused
  have htaken : v.taken st x = true := (h.taken_iff hst hx hclass).2 hoccupied
  have hsettle : s.settle x = { s with found := s.found ++ [x.clash] } := by
    show declare x.id x.owner s x.plan = _
    exact declare_taken hpath hused
  rw [Verdicts.judge_taken htaken, hsettle]
  exact
    { h with
      recording := ⟨h.recording.store, h.recording.classes⟩
      found := by rw [List.map_append, ← h.found]; rfl }

theorem Settled.admit {node : NamespaceId} {block : Nat} (hnew : x ∉ v.admitted)
    (hpath : s.store.namespaces.path? (segments x.owner.scope) = some node)
    (hfree : s.store.namespaces.symbol? node x.interface.name = none)
    (hbeside : s.store.namespaces.blockOf? node (.runtimeClass x.id) = some block)
    (hblock : block < (s.store.namespaces.blocks node).length) :
    Settled st symbols (v.judge st x) (s.settle x) := by
  have hheader : st.header? (.runtimeClass x.id) = some x.owner.toHeader := by
    rw [Store.header?, hx, Option.bind_some, if_pos hclass]
  have hplan : s.store.namespaces.symbol? node
      (interfaceOf x.id x.owner x.plan.1 x.plan.2).name = none := hfree
  have hvacant : v.taken st x = false := by
    refine Bool.eq_false_iff.2 fun htaken => ?_
    have hoccupied : s.store.Occupied (interfaceOf x.id x.owner x.plan.1 x.plan.2) :=
      (h.taken_iff hst hx hclass).1 htaken
    exact h.recording.not_free hoccupied hpath hplan
  obtain ⟨hrecorded, hheaders⟩ := h.recording.declared hheader hpath hplan hbeside
  have hsettle : s.settle x =
      { s with
        store := withInterface s.store node block x.id s.store.objects.size x.role x.interface
        symbols := s.symbols.insert x.interface.dottedName (.interface s.store.objects.size)
        interfaces := s.interfaces + 1 } :=
    declare_free hpath hplan hbeside
  rw [Verdicts.judge_free hvacant, hsettle]
  refine
    { recording := ⟨hrecorded, fun k => ?_⟩
      owners := ?_
      occupied := fun interface => ?_
      size := ?_
      old := ?_
      new := ?_
      symbols := ?_
      found := h.found
      interfaces := ?_ }
  · rw [← h.recording.classes]
    exact (hheaders _).trans (if_neg (by simp))
  · exact List.forall_mem_append.2 ⟨h.owners, fun y hy => List.mem_singleton.1 hy ▸ hx⟩
  · rw [occupied_withInterface hheaders, h.occupied]
    simp [or_assoc]
  · rw [size_withInterface, h.size, List.length_append]
    rfl
  · intro id c hc
    obtain ⟨c', hc', hsame, hrecords⟩ := h.old id c hc
    have hrecords' := hrecords.admit (x := x) fun y hy hid hrole =>
      hnew (Candidate.eq_of_owner (h.owners y hy) hx hid hrole ▸ hy)
    rw [← h.size] at hrecords'
    by_cases hid : x.id = id
    · subst hid
      obtain rfl : c = x.owner := Option.some.inj (hc.symm.trans hx)
      rw [if_pos rfl] at hrecords'
      refine ⟨_, getElem?_class _ _ _ _ _ hc', (underived_recorded _ _ c').trans hsame, ?_⟩
      rw [derived_recorded _ _ (isClass_of_underived hsame hclass)]
      exact hrecords'
    · rw [if_neg hid] at hrecords'
      exact ⟨c', getElem?_other _ _ _ _ _ (Ne.symm hid) hc', hsame, hrecords'⟩
  · intro k y hy
    obtain ⟨c, hc, -⟩ := h.old x.id x.owner hx
    rcases getElem?_concat_eq_some.1 hy with hold | ⟨rfl, rfl⟩
    · obtain ⟨hy', hbeside'⟩ := h.new k y hold
      have hne : st.objects.size + k ≠ x.id := by
        have hlt : x.id < st.objects.size := (Array.getElem?_eq_some_iff.1 hx).1
        exact Nat.ne_of_gt (Nat.lt_of_lt_of_le hlt (Nat.le_add_right _ k))
      exact ⟨getElem?_other _ _ _ _ _ hne hy', hbeside'.withInterface hfree rfl hblock⟩
    · rw [← h.size]
      exact ⟨getElem?_new _ _ _ _ hc, beside_withInterface hfree rfl hblock hbeside⟩
  · rw [Verdicts.entered_admit, ← h.symbols, ← h.size]
  · rw [List.length_append, h.interfaces]
    rfl

theorem Settled.step (hnew : x ∉ v.admitted) :
    Settled st symbols (v.judge st x) (s.settle x) := by
  have hheader : st.header? (.runtimeClass x.id) = some x.owner.toHeader := by
    rw [Store.header?, hx, Option.bind_some, if_pos hclass]
  obtain ⟨node, block, hpath, -, hbeside, hblock⟩ := h.recording.place hheader
  cases hsymbol : s.store.namespaces.symbol? node x.interface.name with
  | some σ => exact h.refuse hst hx hclass hpath hsymbol
  | none => exact h.admit hst hx hclass hnew hpath hsymbol hbeside hblock

end Step

theorem Settled.steps (hst : st.Recorded) (h : Settled st symbols v s) {xs : List Candidate}
    (hxs : ∀ x ∈ xs, st.objects[x.id]? = some x.owner ∧ x.owner.isClass = true)
    (hnodup : (v.admitted ++ xs).Nodup) :
    Settled st symbols (xs.foldl (Verdicts.judge st) v) (xs.foldl settle s) := by
  induction xs generalizing v s with
  | nil => exact h
  | cons x xs ih =>
    obtain ⟨⟨hx, hclass⟩, hrest⟩ := List.forall_mem_cons.1 hxs
    have hnew : x ∉ v.admitted := fun hmem =>
      (List.nodup_append'.1 hnodup).2.2 hmem List.mem_cons_self
    refine ih (h.step hst hx hclass hnew) hrest ?_
    cases htaken : v.taken st x with
    | true =>
      rw [Verdicts.judge_taken htaken]
      exact hnodup.sublist ((List.sublist_cons_self x xs).append_left _)
    | false =>
      rw [Verdicts.judge_free htaken, List.append_assoc]
      exact hnodup

end Derivation

/-- A first derivation has settled all candidates when it ends. -/
theorem Workspace.settled {w : Workspace} (hst : w.store.Recorded)
    (horiginal : ∀ o ∈ w.store.objects, o.Original) :
    Derivation.Settled w.store w.symbols (w.store.verdicts w.store.candidates)
      w.derivation.run := by
  rw [Derivation.run_eq_foldl (s := w.derivation) horiginal]
  refine (Derivation.settled_start hst horiginal).steps hst (fun x hx => ?_)
    w.store.nodup_candidates
  obtain ⟨howner, hclass, -⟩ := Store.mem_candidates.1 hx
  exact ⟨howner, hclass⟩

end ComponentIdl
