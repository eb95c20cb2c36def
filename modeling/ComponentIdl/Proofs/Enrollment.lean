import ComponentIdl.Proofs.Derivation.Settled

/-!
# Derived interfaces are registered or reported

In a first derivation every class has, for each role that it qualifies for, one of two outcomes. Either
an interface is registered beside it, and the two point at each other, or its name was taken and that is
reported once. Nothing else is changed, and the tally counts the interfaces.
-/

namespace ComponentIdl

/-- The interface of a candidate is registered in its slot, and the class has it for the role. -/
structure Store.Enrolled (st : Store) (x : Candidate) (slot : ObjectId) : Prop where
  interface : ∃ i, st.objects[slot]? = some i ∧ i.isInterface = true ∧
    i.toHeader = { x.owner.toHeader with name := x.role.interfaceNamed x.owner.name } ∧
    i.derivedFrom = some x.id
  owner : ∃ c, st.objects[x.id]? = some c ∧ c.underived = x.owner ∧
    c.derived.slot? x.role = some slot
  /-- The name is that of the slot in the namespace of the class, and one block has both. -/
  recorded : ∃ n, st.namespaces.find? x.owner.scope = some n ∧
    st.namespaces.symbol? n (x.role.interfaceNamed x.owner.name) = some (.interface slot) ∧
    ∃ b ∈ st.namespaces.blocks n, .runtimeClass x.id ∈ b.declarations ∧
      .interface slot ∈ b.declarations

/-- The candidates of a workspace have all been settled, with the verdicts `v`, and nothing else has
been done. -/
structure Workspace.Enrolls (w w' : Workspace) (tally : DerivationTally) (v : Verdicts) : Prop where
  candidates : ∀ x, x ∈ w.store.candidates ↔ w.store.objects[x.id]? = some x.owner ∧
    x.owner.isClass = true ∧ x.owner.qualifies x.role = true
  nodup : w.store.candidates.Nodup
  verdicts : (v.admitted ++ v.refused).Perm w.store.candidates
  /-- Names are taken by declarations, or by interfaces admitted before. -/
  refused : ∀ earlier x later, w.store.candidates = earlier ++ x :: later → (x ∈ v.refused ↔
    w.store.holds x.key = true ∨ ∃ y ∈ earlier, y ∈ v.admitted ∧ y.key = x.key)
  enrolled : ∀ (k : Nat) x, v.admitted[k]? = some x →
    w'.store.Enrolled x (w.store.objects.size + k)
  slots : ∀ (id : ObjectId) c, w.store.objects[id]? = some c → ∃ c',
    w'.store.objects[id]? = some c' ∧ c'.underived = c ∧
      ∀ role, (∀ x ∈ v.admitted, x.id = id → x.role ≠ role) → c'.derived.slot? role = none
  size : w'.store.objects.size = w.store.objects.size + v.admitted.length
  added : w.store.Added w'.store
  workspace : w' = { w with
    store := w'.store
    symbols := v.entered w.store.objects.size w.symbols
    report := w.report.add (v.refused.map Candidate.clash) }
  tally : tally.interfaces = v.admitted.length

namespace Verdicts

variable {st : Store} {v : Verdicts} {x : Candidate}

theorem perm_verdicts (st : Store) (xs : List Candidate) :
    ((st.verdicts xs).admitted ++ (st.verdicts xs).refused).Perm xs :=
  perm_foldl st {} xs

theorem taken_iff : v.taken st x = true ↔
    st.holds x.key = true ∨ ∃ y ∈ v.admitted, y.key = x.key := by
  simp [taken]

theorem mem_refused {earlier later : List Candidate} (hnodup : (earlier ++ x :: later).Nodup) :
    x ∈ (st.verdicts (earlier ++ x :: later)).refused ↔ st.holds x.key = true ∨
      ∃ y ∈ earlier, y ∈ (st.verdicts (earlier ++ x :: later)).admitted ∧ y.key = x.key := by
  have hsplit : st.verdicts (earlier ++ x :: later) =
      later.foldl (judge st) ((st.verdicts earlier).judge st x) := by
    rw [Store.verdicts, List.foldl_append, List.foldl_cons]
    rfl
  have hearlier := perm_verdicts st earlier
  have hdisjoint := (List.nodup_append'.1
    ((perm_verdicts st (earlier ++ x :: later)).nodup_iff.2 hnodup)).2.2
  rw [hsplit] at hdisjoint ⊢
  generalize st.verdicts earlier = v at hearlier hdisjoint ⊢
  obtain ⟨hadmitted, hrefused⟩ := prefix_foldl st (v.judge st x) later
  generalize later.foldl (judge st) (v.judge st x) = w at hdisjoint hadmitted hrefused ⊢
  cases htaken : v.taken st x with
  | true =>
    rw [judge_taken htaken] at hadmitted hrefused
    refine iff_of_true (hrefused.subset (by simp)) ?_
    refine (taken_iff.1 htaken).imp_right fun ⟨y, hy, hkey⟩ => ?_
    exact ⟨y, hearlier.subset (List.mem_append_left _ hy), hadmitted.subset hy, hkey⟩
  | false =>
    rw [judge_free htaken] at hadmitted hrefused
    refine iff_of_false (fun hx => hdisjoint (hadmitted.subset (by simp)) hx) fun hx => ?_
    refine Bool.eq_false_iff.1 htaken (taken_iff.2 (hx.imp_right ?_))
    rintro ⟨y, hy, hyadmitted, hkey⟩
    -- What was refused before is not admitted later.
    rcases List.mem_append.1 (hearlier.symm.subset hy) with hold | hold
    · exact ⟨y, hold, hkey⟩
    · exact absurd (hrefused.subset hold) (hdisjoint hyadmitted)

end Verdicts

namespace Derivation

variable {s : Derivation} {st : Store} {symbols : NameTable} {v : Verdicts}

theorem Settled.enrolled (h : Settled st symbols v s) {k : Nat} {x : Candidate}
    (hx : v.admitted[k]? = some x) : s.store.Enrolled x (st.objects.size + k) := by
  obtain ⟨hslot, m, b, hb, hclass, hinterface⟩ := h.new k x hx
  obtain ⟨c, hc, hsame, hrecords⟩ := h.old x.id x.owner (h.owners x (List.mem_of_getElem? hx))
  have hheader : s.store.header? (.interface (st.objects.size + k)) = some x.interface.toHeader := by
    rw [Store.header?, hslot]
    rfl
  obtain ⟨n, hn⟩ := h.recording.store.recordedIn hheader
  have hplace : m = n := by
    obtain ⟨j, -, hcount⟩ := hn.block
    obtain ⟨i, hi⟩ := List.mem_iff_getElem?.1 hb
    by_contra hne
    have hzero := hcount m i b hi
    rw [if_neg fun hc => hne hc.1, List.count_eq_zero] at hzero
    exact hzero hinterface
  refine ⟨⟨_, hslot, rfl, rfl, rfl⟩, ⟨c, hc, hsame, ?_⟩, n, ?_, ?_, b, hplace ▸ hb, hclass,
    hinterface⟩
  · exact (hrecords x.role _).2 ⟨k, x, hx, rfl, rfl, rfl⟩
  · have hpath := h.recording.store.registered.tree.path?_nameOf hn.node
    rw [hn.scope] at hpath
    exact hpath
  · exact (hn.entry n x.interface.name).2 ⟨rfl, rfl⟩

end Derivation

namespace Workspace

theorem enrolls {w : Workspace} (hst : w.store.Recorded)
    (horiginal : ∀ o ∈ w.store.objects, o.Original) :
    w.Enrolls w.deriveInterfaces.1 w.deriveInterfaces.2
      (w.store.verdicts w.store.candidates) := by
  have h := settled hst horiginal
  refine
    { candidates := fun x => Store.mem_candidates
      nodup := w.store.nodup_candidates
      verdicts := Verdicts.perm_verdicts _ _
      refused := ?_
      enrolled := fun k x hx => h.enrolled hx
      slots := ?_
      size := h.size
      added := Derivation.added_run (s := w.derivation) hst horiginal
      workspace := ?_
      tally := h.interfaces }
  · intro earlier x later hsplit
    have hnodup := w.store.nodup_candidates
    rw [hsplit] at hnodup ⊢
    exact Verdicts.mem_refused hnodup
  · intro id c hc
    obtain ⟨c', hc', hsame, hrecords⟩ := h.old id c hc
    refine ⟨c', hc', hsame, fun role hnone => ?_⟩
    by_contra hsome
    obtain ⟨slot, hslot⟩ := Option.ne_none_iff_exists'.1 hsome
    obtain ⟨k, x, hx, hid, hrole, -⟩ := (hrecords role slot).1 hslot
    exact hnone x (List.mem_of_getElem? hx) hid hrole
  · rw [deriveInterfaces_eq, h.symbols, h.found]

/-- A first derivation registers an interface for every class and each role that it qualifies for, or
reports that the name of the interface is taken. -/
theorem enrolls_reached (settings : Settings) (catalog : Catalog) {stages : List Stage}
    (hfirst : Stage.pass .deriveInterfaces ∉ stages) :
    let w := reached settings catalog stages
    w.Enrolls w.deriveInterfaces.1 w.deriveInterfaces.2
      (w.store.verdicts w.store.candidates) := by
  have hrecorded : (reached settings catalog stages).store.Recorded :=
    invariant_recorded.reached (P := fun w => w.store.Recorded) Store.recorded_empty stages
  exact enrolls hrecorded (original_reached settings catalog hfirst)

/-- The name of the interface for static members is also that of the default interface of the second
class. The name of the default interface of the third class is declared. -/
def street : Decl.Unit :=
  ⟨[⟨"Street", 1,
    [.type (.classDecl ⟨"Lamp", 2, {}, [], [.method ⟨"Count", 3, true, some "Int32", []⟩]⟩),
      .type (.classDecl ⟨"LampStatics", 4, {}, [], []⟩),
      .type (.interfaceDecl ⟨"IBulb", 5, [], []⟩),
      .type (.classDecl ⟨"Bulb", 6, {}, [],
        [.constructor ⟨7, [⟨"watts", 7, .input, "Int32"⟩]⟩]⟩)]⟩], 0⟩

theorem enrolls_reached_street :
    let w := reached {} .empty [.pass (.declare street), .pass .bindReferences]
    let v := w.store.verdicts w.store.candidates
    w.Enrolls w.deriveInterfaces.1 w.deriveInterfaces.2 v ∧
      v.admitted.map Candidate.key =
        [("Street", "ILamp"), ("Street", "ILampStatics"), ("Street", "IBulbFactory")] ∧
      v.refused.map Candidate.clash = [.of .duplicateNamespaceMember 4 "Street.ILampStatics",
        .of .duplicateNamespaceMember 6 "Street.IBulb"] := by
  refine ⟨enrolls_reached {} .empty ?_, ?_, ?_⟩
  · simp
  · decide +kernel
  · decide +kernel

end Workspace

end ComponentIdl
