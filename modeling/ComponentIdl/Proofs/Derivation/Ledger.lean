import ComponentIdl.Proofs.Derivation.Step
import ComponentIdl.Proofs.Store.Ledger

/-!
# A derivation records what it derives

A class is recorded in its namespace and in a block of it, so the place beside it is found whenever
one of its interfaces has its turn. The interface is then declared there, unless its name is taken.
-/

namespace ComponentIdl.Derivation

variable {s t : Derivation} {st : Store} {id : ObjectId} {o : ObjectType}
  {plan : DerivedRole × MemberSet}

/-- The derivation when the first `count` slots have had their turn. -/
def after (s : Derivation) (count : Nat) : Derivation := (List.range count).foldl deriveFrom s

/-- In the derivation that starts at `s`, it is the turn of a plan of the class in the slot `id`; the
derivation has come to `t`. -/
inductive Turn (s : Derivation) (id : ObjectId) (o : ObjectType)
    (plan : DerivedRole × MemberSet) : Derivation → Prop where
  | mk (slot : id < s.store.objects.size) (class_ : (s.after id).store.objects[id]? = some o)
      (awaits : o.awaitsDerivation = true) (earlier later : List (DerivedRole × MemberSet))
      (plans : o.derivedRoles id = earlier ++ plan :: later) :
      Turn s id o plan (earlier.foldl (declare id o) (s.after id))

theorem Invariant.ofTurn {P : Derivation → Prop}
    {Q : Derivation → ObjectId → ObjectType → List (DerivedRole × MemberSet) → Prop}
    (h : Invariant P Q) (hs : P s) (ht : Turn s id o plan t) :
    P t ∧ ∃ later, Q t id o (plan :: later) := by
  obtain ⟨-, hclass, hawaits, earlier, later, hplans⟩ := ht
  have hafter : P (s.after id) := h.slots hs _
  have hturn := h.turn _ id o hafter hclass hawaits
  rw [hplans] at hturn
  obtain ⟨hp, hq⟩ := h.plans hafter hturn
  exact ⟨hp, later, hq⟩

/-- The derivation has its declarations recorded, and the classes are those of `st`. -/
structure Recording (st : Store) (s : Derivation) : Prop where
  store : s.store.Recorded
  classes : ∀ id, s.store.header? (.runtimeClass id) = st.header? (.runtimeClass id)

/-- The place where the interfaces of a class are declared. -/
theorem Recording.place (h : Recording st s) {header : Header}
    (hclass : st.header? (.runtimeClass id) = some header) :
    ∃ node block, s.store.namespaces.path? (segments header.scope) = some node ∧
      s.store.namespaces.nameOf node = header.scope ∧
      s.store.namespaces.blockOf? node (.runtimeClass id) = some block ∧
      block < (s.store.namespaces.blocks node).length := by
  obtain ⟨node, hnode, hscope, hsymbol⟩ :=
    h.store.registered.complete _ header ((h.classes id).trans hclass)
  have hpath := h.store.registered.tree.path?_nameOf hnode
  rw [hscope] at hpath
  have hblockOf : s.store.namespaces.blockOf? node (.runtimeClass id) =
      (s.store.namespaces.blocks node).findIdx? fun b =>
        b.declarations.contains (.runtimeClass id) := by
    unfold Namespaces.blockOf? Namespaces.blocks
    cases s.store.namespaces.node? node <;> rfl
  obtain ⟨b, hb, hmem⟩ := List.mem_flatMap.1 (h.store.balanced.mem_listed.2 ⟨_, hsymbol⟩)
  cases hfound : s.store.namespaces.blockOf? node (.runtimeClass id) with
  | none =>
    rw [hblockOf, List.findIdx?_eq_none_iff] at hfound
    have hlists := hfound b hb
    rw [List.contains_iff_mem.2 hmem] at hlists
    exact absurd hlists (by simp)
  | some block =>
    refine ⟨node, block, hpath, hscope, hfound, ?_⟩
    rw [hblockOf] at hfound
    exact (List.findIdx?_eq_some_iff_findIdx_eq.1 hfound).1

theorem recorded_withInterface (h : st.Recorded) {node : NamespaceId} {block : Nat}
    (id : ObjectId) (role : DerivedRole) {interface : ObjectType}
    (hblock : block < (st.namespaces.blocks node).length)
    (hscope : st.namespaces.nameOf node = interface.scope)
    (hfree : st.namespaces.symbol? node interface.name = none)
    (hinterface : interface.isClass = false) :
    (withInterface st node block id st.objects.size role interface).Recorded ∧
      ∀ σ, (withInterface st node block id st.objects.size role interface).header? σ =
        if σ = .interface st.objects.size then some interface.toHeader else st.header? σ := by
  have hnode := Namespaces.lt_size_of_block hblock
  have hdeclared := h.declare (e := .object interface) hblock hscope hfree
  obtain ⟨-, hheader⟩ :=
    registered_withInterface block id role h.registered hnode hscope hfree hinterface
  exact ⟨hdeclared.of_sameHeaders (sameHeaders_withInterface ..) rfl, hheader⟩

theorem Recording.declared (h : Recording st s) {node : NamespaceId} {block : Nat}
    (hclass : st.header? (.runtimeClass id) = some o.toHeader)
    (hpath : s.store.namespaces.path? (segments o.scope) = some node)
    (hfree : s.store.namespaces.symbol? node (interfaceOf id o plan.1 plan.2).name = none)
    (hbeside : s.store.namespaces.blockOf? node (.runtimeClass id) = some block) :
    (withInterface s.store node block id s.store.objects.size plan.1
        (interfaceOf id o plan.1 plan.2)).Recorded ∧
      ∀ σ, (withInterface s.store node block id s.store.objects.size plan.1
          (interfaceOf id o plan.1 plan.2)).header? σ =
        if σ = .interface s.store.objects.size then some (interfaceOf id o plan.1 plan.2).toHeader
        else s.store.header? σ := by
  obtain ⟨node', block', hpath', hscope, hfound, hblock⟩ := h.place hclass
  obtain rfl : node = node' := Option.some.inj (hpath.symm.trans hpath')
  obtain rfl : block = block' := Option.some.inj (hbeside.symm.trans hfound)
  have hinterface : s.store.namespaces.nameOf node = (interfaceOf id o plan.1 plan.2).scope := hscope
  exact recorded_withInterface h.store id plan.1 hblock hinterface hfree rfl

/-- Interfaces are added, classes are not. -/
theorem Recording.step (h : Recording st s)
    (hclass : st.header? (.runtimeClass id) = some o.toHeader) (hstep : Step id o plan s t) :
    Recording st t := by
  cases hstep with
  | passed _ => exact h
  | taken d _ _ _ _ => exact ⟨h.store, h.classes⟩
  | declared node block path free beside =>
    obtain ⟨hrecorded, hheader⟩ := h.declared hclass path free beside
    refine ⟨hrecorded, fun k => ?_⟩
    rw [hheader, if_neg (by simp)]
    exact h.classes k

theorem invariant_recording (st : Store) :
    Invariant (Recording st) fun _ id o _ => st.header? (.runtimeClass id) = some o.toHeader where
  turn s id o hs ho hawaits := by
    rw [← hs.classes, Store.header?, ho, Option.bind_some,
      if_pos (isClass_of_awaitsDerivation hawaits)]
  step _ _ _ _ _ _ hs hclass hstep := ⟨hs.step hclass hstep, hclass⟩

theorem recording_start (h : s.store.Recorded) : Recording s.store s :=
  ⟨h, fun _ => rfl⟩

theorem recorded_run (h : s.store.Recorded) : s.run.store.Recorded :=
  ((invariant_recording s.store).slots (recording_start h) _).store

/-- Whenever an interface has its turn, its place is there: a free name is recorded. -/
theorem place_ofTurn (h : s.store.Recorded) (ht : Turn s id o plan t) :
    ∃ node block, t.store.namespaces.path? (segments o.scope) = some node ∧
      t.store.namespaces.blockOf? node (.runtimeClass id) = some block ∧
      t.store.namespaces.Accepts node block := by
  obtain ⟨hrecording, -, hclass⟩ :=
    (invariant_recording s.store).ofTurn (recording_start h) ht
  obtain ⟨node, block, hpath, -, hbeside, hblock⟩ := hrecording.place hclass
  exact ⟨node, block, hpath, hbeside, Namespaces.accepts_of_block hblock⟩

end ComponentIdl.Derivation
