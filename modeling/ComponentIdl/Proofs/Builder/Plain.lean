import ComponentIdl.Proofs.Compile
import ComponentIdl.Proofs.Conflict.Remarks

/-!
# Nothing is linked or derived before the last two passes

Links are made by the check of members and derived interfaces by the last pass of all. What a build
and the three analyses leave has neither.
-/

namespace ComponentIdl

namespace ObjectType

/-- A class without its record of derived interfaces; an interface has none. -/
def underived (o : ObjectType) : ObjectType :=
  { o with classPart := o.classPart.map fun p => { p with derived := {} } }

/-- Nothing is derived from the class or interface, nor is it derived itself. -/
structure Original (o : ObjectType) : Prop where
  derived : ∀ c, o.classPart = some c → c.derived = {}
  written : o.derivedFrom = none

/-- A class or interface without links and without anything derived. -/
structure Plain (o : ObjectType) : Prop extends o.Original where
  methods : ∀ m ∈ o.methods, m.overrides = none
  properties : ∀ p ∈ o.properties, p.overrides = none
  events : ∀ e ∈ o.events, e.overrides = none

variable {o o' : ObjectType}

theorem Plain.unlinked (h : o.Plain) : o.unlinked = o :=
  unlinked_eq_self h.methods h.properties h.events

theorem Original.underived (h : o.Original) : o.underived = o := by
  have hpart : (o.classPart.map fun p => { p with derived := {} }) = o.classPart := by
    cases hc : o.classPart with
    | none => rfl
    | some c => rw [Option.map_some, ← h.derived c hc]
  unfold ObjectType.underived
  rw [hpart]

theorem plain_of_new {header : Header} (h : o.IsNew header) : o.Plain :=
  ⟨⟨h.derived, h.derivedFrom⟩, by simp [h.methods], by simp [h.properties], by simp [h.events]⟩

theorem Plain.pushMethod (h : o.Plain) {m : Method} (hm : m.overrides = none) :
    (o.pushMethod m).Plain := by
  refine ⟨⟨h.derived, h.written⟩, ?_, h.properties, h.events⟩
  exact List.forall_mem_append.2 ⟨h.methods, fun n hn => List.mem_singleton.1 hn ▸ hm⟩

theorem Plain.addAccessor (h : o.Plain) (index : Nat) (role : PropertyRole) (line : Nat) :
    (o.addAccessor index role line).Plain := by
  unfold ObjectType.addAccessor
  split
  · exact h
  · next p _ =>
    have hpush := h.pushMethod (m := p.accessor role line) rfl
    refine ⟨⟨h.derived, h.written⟩, hpush.methods, ?_, h.events⟩
    intro q' hq'
    rcases mem_modify hq' with ⟨q, hq, rfl⟩ | hold
    · have hnone := h.properties q (List.mem_of_getElem? hq)
      cases role <;> exact hnone
    · exact h.properties q' hold

theorem Plain.addAccessors (h : o.Plain) (index : Nat) (asked : List (PropertyRole × Nat)) :
    (o.addAccessors index asked).Plain := by
  induction asked generalizing o with
  | nil => exact h
  | cons a asked ih => exact ih (h.addAccessor index a.1 a.2)

theorem Plain.grows (h : o.Plain) (hg : o.Grows o') : o'.Plain := by
  cases hg with
  | method d => exact h.pushMethod rfl
  | constructor d =>
    refine ⟨⟨?_, h.written⟩, h.methods, h.properties, h.events⟩
    intro c hc
    obtain ⟨c', hc', rfl⟩ := Option.map_eq_some_iff.1 hc
    exact h.derived c' hc'
  | fragment d count ho =>
    obtain ⟨-, ⟨-, rfl⟩ | ⟨p, index, -, -, -, -, -, rfl⟩⟩ := addFragment_cases ho
    · have hfirst : ({ o with properties := o.properties ++ [.first d] } : ObjectType).Plain := by
        refine ⟨⟨h.derived, h.written⟩, h.methods, ?_, h.events⟩
        exact List.forall_mem_append.2
          ⟨h.properties, fun q hq => List.mem_singleton.1 hq ▸ rfl⟩
      exact hfirst.addAccessors _ _
    · exact h.addAccessors _ _
  | event d he hp =>
    have hadd := fun e : Event =>
      (h.pushMethod (m := e.accessor .add) rfl).pushMethod (m := e.accessor .remove) rfl
    refine ⟨⟨h.derived, h.written⟩, (hadd _).methods, h.properties, ?_⟩
    exact List.forall_mem_append.2 ⟨h.events, fun e he => List.mem_singleton.1 he ▸ rfl⟩

theorem Plain.boundIn (h : o.Plain) (t : NameTable) : (o.boundIn t).Plain := by
  refine ⟨⟨?_, h.written⟩, ?_, ?_, ?_⟩
  · intro c hc
    obtain ⟨c', hc', rfl⟩ := Option.map_eq_some_iff.1 hc
    exact h.derived c' hc'
  · exact List.forall_mem_map.2 h.methods
  · exact List.forall_mem_map.2 h.properties
  · exact List.forall_mem_map.2 h.events

theorem Plain.withCycle (h : o.Plain) (cycle : Circularity) :
    ({ o with cycle } : ObjectType).Plain :=
  ⟨⟨h.derived, h.written⟩, h.methods, h.properties, h.events⟩

/-- Links tell nothing of what is derived. -/
theorem Original.of_unlinked (h : o.Original) (hsame : o'.unlinked = o.unlinked) : o'.Original := by
  have hclass : o'.unlinked.classPart = o.unlinked.classPart := congrArg _ hsame
  have hfrom : o'.unlinked.derivedFrom = o.unlinked.derivedFrom := congrArg _ hsame
  exact ⟨fun c hc => h.derived c (hclass.symm.trans hc), hfrom.trans h.written⟩

end ObjectType

/-- Before the last two passes no class or interface has links, or anything derived. -/
theorem analyzed_plain (settings : Settings) (catalog : Catalog) (u : Decl.Unit) :
    ∀ o ∈ (declared settings catalog u).analyzed.store.objects, o.Plain := by
  have hbuilt : ∀ o ∈ (declared settings catalog u).store.objects, o.Plain :=
    Builder.run_objects u.visits (fun _ _ => ObjectType.plain_of_new)
      (fun _ _ hg h => h.grows hg) fun o ho => absurd ho (Array.not_mem_empty o)
  rw [Workspace.analyzed_eq]
  intro o ho
  obtain ⟨i, hi⟩ := Array.mem_iff_getElem?.1 ho
  simp only [Store.withCycles, Store.evaluateEnums, Store.boundIn, Array.getElem?_mapIdx,
    Array.getElem?_map, Option.map_eq_some_iff] at hi
  obtain ⟨_, ⟨o', ho', rfl⟩, rfl⟩ := hi
  exact ((hbuilt o' (Array.mem_of_getElem? ho')).boundIn _).withCycle _

end ComponentIdl
