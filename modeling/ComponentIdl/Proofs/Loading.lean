import Mathlib.Data.List.Dedup
import ComponentIdl.Project
import ComponentIdl.Proofs.Lists

/-!
# Sources loaded in any order

The sources of a project may be loaded at the same time, and their loads may end in any order. What each
source yields is kept at the position of the source, and the first failure is kept beside it; when all
loads have ended, the yields are merged by position. So the catalog does not depend on the order of the
ends. After a failure the loads that have not ended may be given up, because it decides the outcome.
-/

namespace ComponentIdl

namespace Catalog

/-- The catalog has the first entry of each name that the types have. -/
structure FirstWins (c : Catalog) (types : List Import) : Prop where
  get? : ∀ name, c.get? name = types.find? fun t => t.name == name
  size : c.size = (types.map Import.name).dedup.length

theorem get?_foldl_insertNew (c : Catalog) (types : List Import) (name : String) :
    (types.foldl insertNew c).get? name = (c.get? name).or (types.find? fun t => t.name == name) := by
  induction types generalizing c with
  | nil => rw [List.foldl_nil, List.find?_nil, Option.or_none]
  | cons t types ih =>
    rw [List.foldl_cons, ih, get?_insertNew, List.find?_cons]
    by_cases hname : name = t.name
    · subst hname
      cases c.get? t.name <;> simp
    · have hother : (t.name == name) = false := beq_eq_false_iff_ne.2 (Ne.symm hname)
      rw [if_neg hname, hother]

theorem get?_ofList (types : List Import) (name : String) :
    (ofList types).get? name = types.find? fun t => t.name == name :=
  get?_foldl_insertNew empty types name

theorem mem_names_ofList (types : List Import) (name : String) :
    name ∈ (ofList types).types.map Import.name ↔ name ∈ types.map Import.name := by
  have hnone := get?_eq_none_iff (ofList types) name
  rw [get?_ofList] at hnone
  rw [← not_iff_not, ← hnone]
  simp

theorem firstWins_ofList (types : List Import) : (ofList types).FirstWins types where
  get? := get?_ofList types
  size := by
    have hperm : ((ofList types).types.map Import.name).Perm (types.map Import.name).dedup := by
      rw [List.perm_ext_iff_of_nodup (ofList types).distinct (List.nodup_dedup _)]
      intro name
      rw [mem_names_ofList, List.mem_dedup]
    rw [← hperm.length_eq, List.length_map]
    rfl

end Catalog

/-- What the sources of a list have yielded so far, each at its position, and the first failure. -/
structure Loading (ε : Type) where
  yields : List (Option (List Import))
  failure : Option ε

namespace Loading

section

variable {σ ε : Type} (load : σ → Except ε (List Import)) (sources : List σ)

def start : Loading ε where
  yields := sources.map fun _ => none
  failure := none

/-- The load of the source at position `i` ends. -/
def finish (l : Loading ε) (i : Nat) : Loading ε :=
  match sources[i]?.map load with
  | some (.ok types) => { l with yields := l.yields.set i (some types) }
  | some (.error e) => { l with failure := l.failure.or (some e) }
  | none => l

def outcome (l : Loading ε) : Except ε Catalog :=
  match l.failure with
  | some e => .error e
  | none => .ok (Catalog.ofList (l.yields.flatMap fun yielded => yielded.getD []))

/-- The loads of the sources at the given positions end one after the other. -/
def run (order : List Nat) : Except ε Catalog :=
  (order.foldl (finish load sources) (start sources)).outcome

/-- The failure of the load at position `i`. -/
def failureAt? (i : Nat) : Option ε :=
  match sources[i]?.map load with
  | some (.error e) => some e
  | _ => none

/-- The load of each source has ended, or one that has ended has failed. -/
def Complete (order : List Nat) : Prop :=
  ∀ i < sources.length, i ∈ order ∨ ∃ j ∈ order, (failureAt? load sources j).isSome = true

instance (order : List Nat) : Decidable (Complete load sources order) :=
  inferInstanceAs (Decidable (∀ i < sources.length, i ∈ order ∨ _))

/-- One source fails, and it fails with `e`. -/
def OnlyFailure (e : ε) : Prop :=
  ∃ before s after, sources = before ++ s :: after ∧ load s = .error e ∧
    ∀ t ∈ before ++ after, ∃ types, load t = .ok types

/-- What is kept when the loads at the given positions have ended. -/
structure Keeps (ended : List Nat) (l : Loading ε) : Prop where
  length : l.yields.length = sources.length
  yields : ∀ i s types, sources[i]? = some s → load s = .ok types →
    l.yields[i]? = some (if i ∈ ended then some types else none)
  failure : l.failure = ended.findSome? (failureAt? load sources)

end

variable {σ ε : Type} {load : σ → Except ε (List Import)} {sources : List σ} {l : Loading ε}
  {ended order : List Nat} {e : ε}

theorem failureAt?_eq_some_iff {i : Nat} :
    failureAt? load sources i = some e ↔ ∃ s, sources[i]? = some s ∧ load s = .error e := by
  have hresult : failureAt? load sources i = some e ↔ sources[i]?.map load = some (.error e) := by
    unfold failureAt?
    cases sources[i]?.map load with
    | none => simp
    | some result => cases result <;> simp
  rw [hresult, Option.map_eq_some_iff]

theorem failure_finish (l : Loading ε) (i : Nat) :
    (l.finish load sources i).failure = l.failure.or (failureAt? load sources i) := by
  unfold finish failureAt?
  cases sources[i]?.map load with
  | none => exact Option.or_none.symm
  | some result =>
    cases result with
    | ok types => exact Option.or_none.symm
    | error e => rfl

theorem length_finish (l : Loading ε) (i : Nat) :
    (l.finish load sources i).yields.length = l.yields.length := by
  unfold finish
  cases sources[i]?.map load with
  | none => rfl
  | some result =>
    cases result with
    | ok types => exact List.length_set
    | error e => rfl

theorem yields_finish_self {i : Nat} {s : σ} {types : List Import} (hs : sources[i]? = some s)
    (hload : load s = .ok types) (hi : i < l.yields.length) :
    (l.finish load sources i).yields[i]? = some (some types) := by
  unfold finish
  rw [hs, Option.map_some, hload]
  exact List.getElem?_set_self hi

theorem yields_finish_other (l : Loading ε) {i j : Nat} (h : j ≠ i) :
    (l.finish load sources i).yields[j]? = l.yields[j]? := by
  unfold finish
  cases sources[i]?.map load with
  | none => rfl
  | some result =>
    cases result with
    | ok types => exact List.getElem?_set_ne h.symm
    | error e => rfl

theorem keeps_start : Keeps load sources [] (start sources) where
  length := List.length_map _
  yields i s types hs _ := by
    rw [start, List.getElem?_map, hs]
    rfl
  failure := rfl

theorem Keeps.finish (h : Keeps load sources ended l) (i : Nat) :
    Keeps load sources (ended ++ [i]) (l.finish load sources i) where
  length := (length_finish l i).trans h.length
  yields j s types hs hload := by
    by_cases hj : j = i
    · subst hj
      have hlt : j < l.yields.length := h.length ▸ (List.getElem?_eq_some_iff.1 hs).1
      rw [yields_finish_self hs hload hlt, if_pos (List.mem_append_right ended List.mem_cons_self)]
    · rw [yields_finish_other l hj, h.yields j s types hs hload]
      simp only [List.mem_append, List.mem_singleton, hj, or_false]
  failure := by
    rw [failure_finish, h.failure, List.findSome?_append, List.findSome?_singleton]

theorem Keeps.foldl (h : Keeps load sources ended l) (order : List Nat) :
    Keeps load sources (ended ++ order) (order.foldl (Loading.finish load sources) l) := by
  induction order generalizing ended l with
  | nil => rwa [List.append_nil]
  | cons i order ih =>
    rw [List.append_cons]
    exact ih (h.finish i)

theorem keeps_run (load : σ → Except ε (List Import)) (sources : List σ) (order : List Nat) :
    Keeps load sources order (order.foldl (Loading.finish load sources) (start sources)) :=
  keeps_start.foldl order

variable {loads : List (List Import)}

theorem failureAt?_eq_none (h : List.Forall₂ (fun s types => load s = .ok types) sources loads)
    (i : Nat) : failureAt? load sources i = none := by
  by_contra hne
  obtain ⟨e, he⟩ := Option.ne_none_iff_exists'.1 hne
  obtain ⟨s, hs, hload⟩ := failureAt?_eq_some_iff.1 he
  obtain ⟨types, -, hok⟩ := getElem?_right h hs
  rw [hload] at hok
  cases hok

theorem Keeps.yields_eq (h : Keeps load sources ended l) (hended : ∀ i < sources.length, i ∈ ended)
    (hloads : List.Forall₂ (fun s types => load s = .ok types) sources loads) :
    l.yields = loads.map some := by
  apply List.ext_getElem?
  intro i
  rw [List.getElem?_map]
  cases hs : sources[i]? with
  | none =>
    have hle := List.getElem?_eq_none_iff.1 hs
    rw [List.getElem?_eq_none (h.length ▸ hle), List.getElem?_eq_none (hloads.length_eq ▸ hle)]
    rfl
  | some s =>
    obtain ⟨types, htypes, hload⟩ := getElem?_right hloads hs
    rw [h.yields i s types hs hload, if_pos (hended i (List.getElem?_eq_some_iff.1 hs).1), htypes]
    rfl

theorem run_ok (horder : Complete load sources order)
    (hloads : List.Forall₂ (fun s types => load s = .ok types) sources loads) :
    run load sources order = .ok (Catalog.ofList loads.flatten) := by
  have hsound := failureAt?_eq_none hloads
  have hended : ∀ i < sources.length, i ∈ order := by
    intro i hi
    refine (horder i hi).resolve_right ?_
    rintro ⟨j, -, hj⟩
    simp [hsound j] at hj
  have hkept := keeps_run load sources order
  have hfailure : (order.foldl (Loading.finish load sources) (start sources)).failure = none := by
    rw [hkept.failure, List.findSome?_eq_none_iff]
    exact fun j _ => hsound j
  unfold run outcome
  rw [hfailure, hkept.yields_eq hended hloads, List.flatMap_map]
  exact congrArg (fun types => Except.ok (Catalog.ofList types)) List.flatMap_id'

theorem OnlyFailure.eq {e' : ε} {s : σ} (h : OnlyFailure load sources e) (hs : s ∈ sources)
    (hload : load s = .error e') : e' = e := by
  obtain ⟨before, t, after, rfl, ht, hrest⟩ := h
  by_cases hst : s = t
  · subst hst
    exact Except.error.inj (hload.symm.trans ht)
  · obtain ⟨types, hok⟩ := hrest s (by simpa [hst] using hs)
    rw [hload] at hok
    cases hok

/-- In a complete order the failure is met, be it that all loads have ended or that a failure is what
completes the order. -/
theorem OnlyFailure.exists_ended (h : OnlyFailure load sources e) (horder : Complete load sources order) :
    ∃ j ∈ order, (failureAt? load sources j).isSome = true := by
  obtain ⟨before, s, after, hsources, hs, -⟩ := h
  have hget : sources[before.length]? = some s := by simp [hsources]
  rcases horder before.length (List.getElem?_eq_some_iff.1 hget).1 with hended | hfailed
  · exact ⟨_, hended, Option.isSome_iff_exists.2 ⟨e, failureAt?_eq_some_iff.2 ⟨s, hget, hs⟩⟩⟩
  · exact hfailed

theorem run_error (horder : Complete load sources order) (h : OnlyFailure load sources e) :
    run load sources order = .error e := by
  have hfailure : (order.foldl (Loading.finish load sources) (start sources)).failure = some e := by
    obtain ⟨e', he'⟩ := Option.isSome_iff_exists.1 (List.findSome?_isSome_iff.2 (h.exists_ended horder))
    obtain ⟨j, -, hj⟩ := List.exists_of_findSome?_eq_some he'
    obtain ⟨s, hs, hload⟩ := failureAt?_eq_some_iff.1 hj
    rw [(keeps_run load sources order).failure, he', h.eq (List.mem_of_getElem? hs) hload]
  unfold run outcome
  rw [hfailure]

end Loading

namespace Catalog

variable {sources : List Source} {loads : List (List Import)} {e : SourceError}

theorem ofSources_ok (h : List.Forall₂ (fun (s : Source) types => s.load = .ok types) sources loads) :
    ofSources sources = .ok (ofList loads.flatten) := by
  have hall : loadAll sources = .ok loads.flatten := by
    induction h with
    | nil => rfl
    | cons hload _ ih =>
      rw [loadAll, hload, ih]
      rfl
  unfold ofSources
  rw [hall]
  rfl

theorem ofSources_error (h : Loading.OnlyFailure Source.load sources e) :
    ofSources sources = .error e := by
  obtain ⟨before, s, after, rfl, hs, hrest⟩ := h
  have hall : loadAll (before ++ s :: after) = .error e := by
    induction before with
    | nil => rw [List.nil_append, loadAll, hs]
    | cons t before ih =>
      obtain ⟨types, ht⟩ := hrest t List.mem_cons_self
      rw [List.cons_append, loadAll, ht, ih fun t ht => hrest t (List.mem_cons_of_mem _ ht)]
  unfold ofSources
  rw [hall]
  rfl

end Catalog

open Loading in
/-- Sources of any sort that all load give, in whatever order their loads end, a catalog in which the first
entry of each name wins, by the order of the sources and of the entries in each; if one source fails, its
failure is the outcome. The catalog of a project is that of its sources, and a project with one source that
fails cannot be loaded for this reason. -/
theorem Project.load_firstWins :
    (∀ {σ ε : Type} (load : σ → Except ε (List Import)) (sources : List σ) (order : List Nat),
      Complete load sources order →
      (∀ loads, List.Forall₂ (fun s types => load s = .ok types) sources loads →
        ∃ c, run load sources order = .ok c ∧ c.FirstWins loads.flatten) ∧
      ∀ e, OnlyFailure load sources e → run load sources order = .error e) ∧
    ∀ (p : Project) (order : List Nat), Complete Source.load p.sources order →
      (∀ loads, List.Forall₂ (fun (s : Source) types => s.load = .ok types) p.sources loads →
        ∃ c, run Source.load p.sources order = .ok c ∧ Catalog.ofSources p.sources = .ok c ∧
          p.load = .ok { settings := p.settings, catalog := c } ∧ c.FirstWins loads.flatten) ∧
      ∀ e, OnlyFailure Source.load p.sources e →
        run Source.load p.sources order = .error e ∧ Catalog.ofSources p.sources = .error e ∧
          p.load = .error (.metadata e) := by
  refine ⟨fun load sources order horder => ⟨fun loads hloads => ?_, fun e he => run_error horder he⟩,
    fun p order horder => ⟨fun loads hloads => ?_, fun e he => ?_⟩⟩
  · exact ⟨_, run_ok horder hloads, Catalog.firstWins_ofList _⟩
  · have hcatalog := Catalog.ofSources_ok hloads
    refine ⟨_, run_ok horder hloads, hcatalog, ?_, Catalog.firstWins_ofList _⟩
    rw [Project.load, hcatalog]
  · have hcatalog := Catalog.ofSources_error he
    refine ⟨run_error horder he, hcatalog, ?_⟩
    rw [Project.load, hcatalog]

/-- Two sources that name the same type. -/
def signals : Project where
  sources := [.database (.addType (.addType ⟨"sea", []⟩ "Sea.Flag" .runtimeClass) "Sea.Bell" .interface),
    .database (.addType ⟨"coast", []⟩ "Sea.Flag" .struct)]

/-- A source that cannot be read between two that can. -/
def stranded : Project where
  sources := signals.sources.take 1 ++ .manifest ⟨"reef", none⟩ :: signals.sources.drop 1

open Loading in
theorem Project.load_firstWins_signals :
    Complete Source.load signals.sources [1, 0] ∧
      (∃ c, run Source.load signals.sources [1, 0] = .ok c ∧
        c.get? "Sea.Flag" = some ⟨"Sea.Flag", .runtimeClass, none, "sea"⟩ ∧ c.size = 2) ∧
      Complete Source.load stranded.sources [2, 1] ∧
      run Source.load stranded.sources [2, 1] = .error (.unreadable "reef" .missing) ∧
      stranded.load = .error (.metadata (.unreadable "reef" .missing)) := by
  have hsignals : Complete Source.load signals.sources [1, 0] := by decide
  have hstranded : Complete Source.load stranded.sources [2, 1] := by decide
  have hloads : List.Forall₂ (fun (s : Source) types => s.load = .ok types) signals.sources
      [[⟨"Sea.Flag", .runtimeClass, none, "sea"⟩, ⟨"Sea.Bell", .interface, none, "sea"⟩],
        [⟨"Sea.Flag", .struct, none, "coast"⟩]] := .cons rfl (.cons rfl .nil)
  have honly : OnlyFailure Source.load stranded.sources (.unreadable "reef" .missing) := by
    refine ⟨signals.sources.take 1, _, signals.sources.drop 1, rfl, rfl, ?_⟩
    rintro t (_ | ⟨_, _ | ⟨_, ⟨⟩⟩⟩)
    · exact ⟨_, rfl⟩
    · exact ⟨_, rfl⟩
  obtain ⟨c, hrun, hfirst⟩ := (Project.load_firstWins.1 Source.load _ _ hsignals).1 _ hloads
  obtain ⟨herror, -, hload⟩ := (Project.load_firstWins.2 stranded _ hstranded).2 _ honly
  exact ⟨hsignals, ⟨c, hrun, hfirst.get? _, hfirst.size⟩, hstranded, herror, hload⟩

end ComponentIdl
