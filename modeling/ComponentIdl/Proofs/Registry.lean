import ComponentIdl.Proofs.Builder.Ledger
import ComponentIdl.Proofs.Builder.Remarks
import ComponentIdl.Proofs.Derivation.Ledger
import ComponentIdl.Proofs.Reached
import ComponentIdl.Proofs.Shadowing

/-!
# Slots and the namespaces that record them

Slots, entries by name and lists of blocks are three records of the same declarations. Builds and the
derivation of interfaces write all three, each in its own way; the other passes write none. So in
every workspace that is reached the three agree, and no declaration is ever written to a namespace
that would not take it.
-/

namespace ComponentIdl

/-- Every slot is recorded under its own name in its own namespace, and in one block of it; nothing
else is recorded. -/
structure Store.Registry (st : Store) : Prop where
  objects : ∀ (i : ObjectId) o, st.objects[i]? = some o → ∃ n,
    st.RecordedIn (if o.isClass then .runtimeClass i else .interface i) o.toHeader n
  structs : ∀ (i : StructId) s, st.structs[i]? = some s → ∃ n,
    st.RecordedIn (.struct i) s.toHeader n
  enums : ∀ (i : EnumId) e, st.enums[i]? = some e → ∃ n, st.RecordedIn (.enum i) e.toHeader n
  delegates : ∀ (i : DelegateId) d, st.delegates[i]? = some d → ∃ n,
    st.RecordedIn (.delegate i) d.toHeader n
  entries : ∀ n name σ, st.namespaces.symbol? n name = some σ → ∃ h, st.header? σ = some h
  blocks : ∀ n, ∀ b ∈ st.namespaces.blocks n, ∀ σ ∈ b.declarations, ∃ h, st.header? σ = some h

theorem Store.Recorded.registry {st : Store} (h : st.Recorded) : st.Registry := by
  constructor
  · intro i o ho
    apply h.recordedIn
    cases hc : o.isClass <;> simp [header?, ho, hc]
  · intro i s hs
    exact h.recordedIn (by rw [header?, hs, Option.map_some])
  · intro i e he
    exact h.recordedIn (by rw [header?, he, Option.map_some])
  · intro i d hd
    exact h.recordedIn (by rw [header?, hd, Option.map_some])
  · intro n name σ hσ
    obtain ⟨header, hheader, -⟩ := h.entry n name σ hσ
    exact ⟨header, hheader⟩
  · intro n b hb σ hσ
    obtain ⟨name, hname⟩ := h.balanced.mem_listed.1 (List.mem_flatMap.2 ⟨b, hb, hσ⟩)
    obtain ⟨header, hheader, -⟩ := h.entry n name σ hname
    exact ⟨header, hheader⟩

namespace Workspace

/-- After any visits a declaration can be recorded in the open block. The tally of the visits counts
the new slots and the new diagnostics for names that were taken. -/
structure BuildsOrderly (w : Workspace) (visits : List Visit) : Prop where
  accepts : ∀ x ∈ (w.builder.run visits).openBlocks,
    (w.builder.run visits).store.namespaces.Accepts x.1 x.2
  declarations : (w.declareVisits visits).1.store.size =
    w.store.size + (w.declareVisits visits).2.declarations
  skipped : (w.declareVisits visits).1.report.countOf .duplicateNamespaceMember =
    w.report.countOf .duplicateNamespaceMember + (w.declareVisits visits).2.skipped

/-- Whenever a derived interface has its turn, it can be recorded beside its class. -/
def DerivesOrderly (w : Workspace) : Prop :=
  ∀ id o plan t, Derivation.Turn { store := w.store, symbols := w.symbols } id o plan t →
    ∃ node block, t.store.namespaces.path? (segments o.scope) = some node ∧
      t.store.namespaces.blockOf? node (.runtimeClass id) = some block ∧
      t.store.namespaces.Accepts node block

variable {w : Workspace}

theorem buildsOrderly (h : w.store.Recorded) (visits : List Visit) : w.BuildsOrderly visits := by
  have hstart : w.builder.Tallied w.store.size := ⟨rfl, rfl⟩
  have htally := hstart.run visits
  refine ⟨fun x hx => ((recording_builder h).run visits).accepts hx, htally.declarations, ?_⟩
  have hreport : (w.declareVisits visits).1.report =
      w.report.add (w.builder.run visits).found := rfl
  rw [hreport, Report.countOf, Report.add, List.countP_append]
  exact congrArg _ htally.skipped.symm

theorem invariant_recorded : Invariant fun w => w.store.Recorded where
  build w visits h := ((recording_builder h).run visits).store
  bindReferences w h := by
    rw [w.bindReferences_eq]
    exact h.of_sameHeaders (w.store.sameHeaders_boundIn _) rfl
  evaluateEnums w h := h.of_sameHeaders w.store.similar_evaluateEnums.sameHeaders rfl
  findCycles w h := h.of_sameHeaders w.store.similar_withCycles.sameHeaders rfl
  checkMembers w h := h.of_sameHeaders (Store.similar_checkMembers w).sameHeaders rfl
  deriveInterfaces w h := Derivation.recorded_run (s := { store := w.store, symbols := w.symbols }) h

/-- In every workspace that is reached, slots, names and blocks record the same declarations, and
neither a build nor a derivation can fail to record a declaration under a free name. -/
theorem registry_reached (settings : Settings) (catalog : Catalog) (stages : List Stage) :
    (reached settings catalog stages).store.Registry ∧
      (∀ visits, (reached settings catalog stages).BuildsOrderly visits) ∧
      (reached settings catalog stages).DerivesOrderly := by
  have h : (reached settings catalog stages).store.Recorded :=
    invariant_recorded.reached (P := fun w => w.store.Recorded) Store.recorded_empty stages
  refine ⟨h.registry, buildsOrderly h, ?_⟩
  intro id o plan t ht
  exact Derivation.place_ofTurn h ht

end Workspace

end ComponentIdl
