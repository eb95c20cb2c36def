import Mathlib.Data.List.Forall2
import ComponentIdl.Proofs.Binding.Sites
import ComponentIdl.Proofs.Passes

/-!
# What binding makes of each reference

A key means its entry in the table, else the import of its name. What a reference is bound to and
what is reported of it follow from the meaning of its key before any reference was looked up: no
look-up changes the meaning of a key.
-/

namespace ComponentIdl

/-- What a key means: the entry of the table, or an import that is not in the table yet. -/
inductive Meaning where
  | entry (symbol : Symbol)
  | imported (i : Import)

namespace Meaning

def isInterface : Meaning → Bool
  | entry symbol => symbol.isInterface
  | imported i => i.kind == .interface

def isDelegate : Meaning → Bool
  | entry symbol => symbol.isDelegate
  | imported i => i.kind == .delegate

/-- The target of a reference with this meaning. An import is the one of its name in the table that
binding leaves. -/
inductive Denotes (t : NameTable) (key : String) : Meaning → Target → Prop where
  | entry (symbol : Symbol) : Denotes t key (.entry symbol) symbol.target
  | imported {i : Import} {id : ImportId} (hi : t.imports[id]? = some i) (hname : i.name = key)
      (hentry : t.get? key = some (.imported id i.kind))
      (hsingle : ∀ id' i', t.imports[id']? = some i' → i'.name = key → id' = id) :
      Denotes t key (.imported i) (.imported id)

end Meaning

/-- The type of the tokens of event registration, which no catalog has to list. -/
def tokenType : Import where
  name := registrationToken
  kind := .struct
  underlying := none
  source := "<intrinsic>"

def NameTable.meaning? (t : NameTable) (key : String) : Option Meaning :=
  match t.get? key, t.catalog.get? key with
  | some symbol, _ => some (.entry symbol)
  | none, some i => some (.imported i)
  | none, none => if key = registrationToken then some (.imported tokenType) else none

namespace Site

def remarks (t : NameTable) (s : Site) : List Diagnostic :=
  if s.reference.isBound then []
  else match t.meaning? s.key, s.role with
    | none, .accessor => []
    | none, _ => [.of .unresolvedType s.line s.key]
    | some m, .required => if m.isInterface then [] else [.of .typeNotInterface s.line s.key]
    | some m, .event => if m.isDelegate then [] else [.of .typeNotDelegate s.line s.key]
    | some _, _ => []

/-- What binding makes of a site, between the table before and the table after. -/
structure Resolves (t t' : NameTable) (s s' : Site) : Prop where
  place : s' = { s with reference := ⟨s.reference.text, s'.reference.target⟩ }
  old : s.reference.isBound = true → s'.reference = s.reference
  bound : s.reference.isBound = false → (s'.reference.isBound = true ↔
    ∃ m, t.meaning? s.key = some m ∧ (s.role = .required → m.isInterface = true))
  target : s.reference.isBound = false → ∀ target, s'.reference.target = some target →
    ∃ m, t.meaning? s.key = some m ∧ m.Denotes t' s.key target

end Site

namespace NameTable

variable {t : NameTable} {key : String} {keys : List String}

theorem meaning?_of_get? {symbol : Symbol} (h : t.get? key = some symbol) :
    t.meaning? key = some (.entry symbol) := by
  simp [meaning?, h]

theorem meaning?_of_import (h : t.get? key = none) :
    t.meaning? key = (t.import? key).map .imported := by
  have hbuiltin : (builtins.find? fun i => i.name == key) =
      if key = registrationToken then some tokenType else none := by
    by_cases hk : key = registrationToken
    · rw [if_pos hk, hk]
      rfl
    · have hne : (registrationToken == key) = false := by simpa using fun h => hk h.symm
      rw [if_neg hk]
      simp [builtins, hne]
  unfold meaning? import?
  rw [h, hbuiltin]
  cases t.catalog.get? key with
  | some i => rfl
  | none => by_cases hk : key = registrationToken <;> simp [hk]

theorem Listed.denotes (h : t.Listed) {i : Import} {id : ImportId} (hi : t.imports[id]? = some i)
    (hname : i.name = key) : (Meaning.imported i).Denotes t key (.imported id) := by
  have hentry : t.get? key = some (.imported id i.kind) := hname ▸ h id i hi
  refine .imported hi hname hentry fun id' i' hi' hname' => ?_
  have hentry' : t.get? key = some (.imported id' i'.kind) := hname' ▸ h id' i' hi'
  rw [hentry, Option.some.injEq, Symbol.imported.injEq] at hentry'
  exact hentry'.1.symm

structure Finds (t : NameTable) (key : String) (m : Meaning) (symbol : Symbol) : Prop where
  isInterface : m.isInterface = symbol.isInterface
  isDelegate : m.isDelegate = symbol.isDelegate
  denotes : m.Denotes t key symbol.target

theorem finds_imported (h : t.Listed) {i : Import} {id : ImportId}
    (hi : t.imports[id]? = some i) (hname : i.name = key) :
    t.Finds key (.imported i) (.imported id i.kind) := by
  have hkinds : (Meaning.imported i).isInterface = (Symbol.imported id i.kind).isInterface ∧
      (Meaning.imported i).isDelegate = (Symbol.imported id i.kind).isDelegate := by
    show (i.kind == .interface) = _ ∧ (i.kind == .delegate) = _
    cases i.kind <;> exact ⟨rfl, rfl⟩
  exact ⟨hkinds.1, hkinds.2, h.denotes hi hname⟩

/-- After all look-ups the table answers every key that was looked up by what it meant before. -/
theorem get?_lookupAll_cases (hl : (t.lookupAll keys).Listed) (hk : key ∈ keys) :
    ((t.lookupAll keys).get? key = none ∧ t.meaning? key = none) ∨
    ∃ symbol m, (t.lookupAll keys).get? key = some symbol ∧ t.meaning? key = some m ∧
      (t.lookupAll keys).Finds key m symbol := by
  cases hget : t.get? key with
  | some symbol =>
    exact Or.inr ⟨symbol, .entry symbol, (grows_lookupAll t keys).get? hget, meaning?_of_get? hget,
      rfl, rfl, .entry symbol⟩
  | none =>
    have hmeaning := meaning?_of_import hget
    have hsome := isSome_get?_lookupAll t keys key
    rw [hget, List.contains_iff_mem.2 hk] at hsome
    cases hafter : (t.lookupAll keys).get? key with
    | none =>
      rw [hafter] at hsome
      cases hi : t.import? key with
      | some i => simp [hi] at hsome
      | none =>
        rw [hi] at hmeaning
        exact Or.inl ⟨rfl, hmeaning⟩
    | some symbol =>
      -- What the table learnt about the key can only be its import.
      rcases entry_lookupAll keys hafter with hbefore | ⟨-, id, i, rfl, hi, himport⟩
      · simp [hget] at hbefore
      · rw [import?_lookupAll] at himport
        rw [himport] at hmeaning
        exact Or.inr ⟨_, _, rfl, hmeaning, finds_imported hl hi (name_import? himport)⟩

end NameTable

namespace Site

variable {t t' : NameTable} {s : Site}

theorem mem_keys (h : s.reference.isBound = false) : s.key ∈ s.keys := by
  simp [key, keys, Reference.keys, h]

theorem text_boundIn (t : NameTable) (s : Site) :
    (s.boundIn t).reference.text = s.reference.text := by
  unfold boundIn
  cases s.role with
  | required =>
    unfold Reference.requiredIn
    dsimp only
    split
    · rfl
    · split
      · split <;> rfl
      · rfl
  | accessor => exact Reference.text_boundIn ..
  | event => exact Reference.text_boundIn ..
  | other => exact Reference.text_boundIn ..

theorem reference_boundIn_old (t : NameTable) (h : s.reference.isBound = true) :
    (s.boundIn t).reference = s.reference := by
  unfold boundIn
  cases s.role <;> simp [Reference.requiredIn, Reference.boundIn, h]

theorem target_boundIn (h : s.reference.isBound = false) :
    (s.boundIn t).reference.target = (t.get? s.key).bind fun symbol =>
      if s.role = .required ∧ symbol.isInterface = false then none else some symbol.target := by
  have hnone : s.reference.target = none := by
    unfold Reference.isBound at h
    simpa using h
  unfold boundIn key Reference.requiredIn Reference.boundIn
  rw [h]
  cases hget : t.get? (absoluteName s.scope s.reference.text) with
  | none => cases s.role <;> simp [hnone]
  | some symbol =>
    cases s.role with
    | required => cases hi : symbol.isInterface <;> simp [hnone, hi, Reference.bindTo]
    | accessor => simp [hnone, Reference.bindTo]
    | event => simp [hnone, Reference.bindTo]
    | other => simp [hnone, Reference.bindTo]

theorem place_boundIn (t : NameTable) (s : Site) : s.boundIn t =
    { s with reference := ⟨s.reference.text, (s.boundIn t).reference.target⟩ } := by
  show ({ s with reference := (s.boundIn t).reference } : Site) = _
  rw [← text_boundIn t s]

section Looked

variable {keys : List String} (hl : (t.lookupAll keys).Listed) (hk : ∀ key ∈ s.keys, key ∈ keys)
include hl hk

theorem resolves_boundIn : s.Resolves t (t.lookupAll keys) (s.boundIn (t.lookupAll keys)) := by
  refine ⟨place_boundIn _ s, reference_boundIn_old _, fun hb => ?_, fun hb target htarget => ?_⟩
  · unfold Reference.isBound
    rw [target_boundIn hb]
    rcases NameTable.get?_lookupAll_cases hl (hk _ (mem_keys hb)) with
      ⟨hget, hmeaning⟩ | ⟨symbol, m, hget, hmeaning, hfinds⟩
    · simp [hget, hmeaning]
    · rw [hget, hmeaning, Option.bind_some]
      by_cases hr : s.role = .required
      · cases hi : symbol.isInterface <;> simp [hr, hfinds.isInterface, hi]
      · simp [hr]
  · rw [target_boundIn hb] at htarget
    rcases NameTable.get?_lookupAll_cases hl (hk _ (mem_keys hb)) with
      ⟨hget, -⟩ | ⟨symbol, m, hget, hmeaning, hfinds⟩
    · simp [hget] at htarget
    · rw [hget, Option.bind_some] at htarget
      split at htarget
      · simp at htarget
      · rw [← Option.some.inj htarget]
        exact ⟨m, hmeaning, hfinds.denotes⟩

theorem faults_eq_remarks : s.faults (t.lookupAll keys) = s.remarks t := by
  cases hb : s.reference.isBound with
  | true =>
    unfold faults remarks
    cases s.role <;> simp [Reference.faults, Reference.requiredFaults, misfit, hb]
  | false =>
    unfold faults remarks Reference.faults Reference.requiredFaults misfit
    rcases NameTable.get?_lookupAll_cases hl (hk _ (mem_keys hb)) with
      ⟨hget, hmeaning⟩ | ⟨symbol, m, hget, hmeaning, hfinds⟩
    · unfold key at hget hmeaning ⊢
      rw [hget, hmeaning, hb]
      cases s.role <;> rfl
    · unfold key at hget hmeaning ⊢
      rw [hget, hmeaning, hb]
      cases s.role with
      | required => simp [hfinds.isInterface]
      | accessor => rfl
      | event => cases hd : symbol.isDelegate <;> simp [hfinds.isDelegate, hd]
      | other => rfl

end Looked

end Site

/-- Binding is exact, whatever passes came before: each reference that was bound stays, each other
one is bound to what its key means, and what is reported is what is wrong with those. -/
theorem bindReferences_exact (settings : Settings) (catalog : Catalog) (passes : List Pass) :
    let w := passes.foldl Workspace.run (.ofCatalog settings catalog)
    let w' := w.bindReferences.1
    w.symbols.catalog = catalog ∧
      List.Forall₂ (Site.Resolves w.symbols w'.symbols) w.store.sites w'.store.sites ∧
      w'.report = w.report.add (w.store.sites.flatMap (Site.remarks w.symbols)) := by
  intro w w'
  have hevolves : (NameTable.ofCatalog catalog).Evolves w.symbols :=
    Workspace.evolves_passes (.ofCatalog settings catalog) passes
  have hlisted : (w.symbols.lookupAll w.store.keys).Listed :=
    (NameTable.listed_ofCatalog catalog).evolves
      (hevolves.trans (w.symbols.evolves_lookupAll w.store.keys))
  have hkeys : ∀ s ∈ w.store.sites, ∀ key ∈ s.keys, key ∈ w.store.keys := by
    intro s hs key hkey
    rw [Store.keys_eq]
    exact List.mem_flatMap_of_mem hs hkey
  have hw' : w' = _ := w.bindReferences_eq
  refine ⟨hevolves.catalog, ?_, ?_⟩
  · rw [hw']
    dsimp only
    rw [Store.sites_boundIn]
    refine List.forall₂_map_right_iff.2 (List.forall₂_same.2 fun s hs => ?_)
    exact Site.resolves_boundIn hlisted (hkeys s hs)
  · rw [hw']
    dsimp only
    rw [Store.bindingFaults_eq]
    congr 1
    refine List.flatMap_congr fun s hs => ?_
    exact Site.faults_eq_remarks hlisted (hkeys s hs)

end ComponentIdl
