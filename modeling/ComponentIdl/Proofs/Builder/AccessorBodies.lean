import Mathlib.Data.List.Induction
import ComponentIdl.Proofs.Builder.Firsts

/-!
# What accessor bodies ask for

A property without a body asks for both accessors. A body asks for each accessor at its first mention;
every other mention is reported, and so is every word that asks for none.
-/

namespace ComponentIdl

section Lists

variable {α : Type}

/-- The elements, each with those before it. -/
def withBefore (as : List α) : List (List α × α) := as.zipIdx.map fun x => (as.take x.2, x.1)

theorem withBefore_concat (as : List α) (a : α) :
    withBefore (as ++ [a]) = withBefore as ++ [(as, a)] := by
  have hold : ((as.zipIdx).map fun x => ((as ++ [a]).take x.2, x.1)) = withBefore as := by
    refine List.map_congr_left fun x hx => ?_
    rw [List.take_append_of_le_length (Nat.le_of_lt (List.snd_lt_of_mem_zipIdx hx))]
  rw [withBefore, List.zipIdx_append, List.map_append, hold]
  simp

theorem mem_withBefore {as before : List α} {a : α} :
    (before, a) ∈ withBefore as ↔ ∃ after, as = before ++ a :: after := by
  induction as using List.reverseRecOn with
  | nil => simp [withBefore]
  | append_singleton as b ih =>
    rw [withBefore_concat, List.mem_append, List.mem_singleton, ih]
    constructor
    · rintro (⟨after, rfl⟩ | heq)
      · exact ⟨after ++ [b], by rw [List.append_assoc, List.cons_append]⟩
      · obtain ⟨rfl, rfl⟩ := Prod.mk.inj heq
        exact ⟨[], rfl⟩
    · rintro ⟨after, hsplit⟩
      rcases List.eq_nil_or_concat after with rfl | ⟨after, c, rfl⟩
      · obtain ⟨rfl, heq⟩ := List.append_inj' hsplit rfl
        exact Or.inr (by rw [(List.cons.inj heq).1])
      · rw [List.concat_eq_append, ← List.cons_append, ← List.append_assoc] at hsplit
        exact Or.inl ⟨after, (List.append_inj' hsplit rfl).1⟩

end Lists

namespace Decl

/-- What an accessor asks for, with its line. -/
def Accessor.role? (a : Accessor) : Option (PropertyRole × Nat) :=
  match a.word with
  | .get => some (.get, a.line)
  | .set => some (.set, a.line)
  | _ => none

/-- The accessors that some part of a body asks for, each at its first mention. -/
def rolesOf (body : List Accessor) : List (PropertyRole × Nat) :=
  firsts Prod.fst (body.filterMap Accessor.role?)

namespace Property

/-- The accessors that the property asks for, in written order. -/
def requested (p : Property) : List (PropertyRole × Nat) :=
  match p.accessors with
  | none => [(.get, p.line), (.set, p.line)]
  | some body => rolesOf body

/-- What is wrong with an accessor after those before it. -/
def fault? (p : Property) (before : List Accessor) (a : Accessor) : Option Diagnostic :=
  match a.role? with
  | none => some (.of .invalidPropertyAccessor p.line p.name)
  | some (role, line) =>
    if (rolesOf before).any fun b => b.1 == role then
      some (.of .duplicatePropertyAccessor line p.name)
    else none

/-- What is wrong with the accessor body of the property. -/
def bodyFaults (p : Property) : List Diagnostic :=
  match p.accessors with
  | none => []
  | some [] => [.of .invalidPropertyAccessor p.line p.name]
  | some body => (withBefore body).filterMap fun x => p.fault? x.1 x.2

/-- Whether the body is empty, or has a word that asks for no accessor. -/
def isMalformed (p : Property) : Bool :=
  p.accessors.any fun body => body.isEmpty || body.any fun a => a.role?.isNone

end Property

end Decl

section Words

variable {body : List Decl.Accessor} {a : Decl.Accessor} {role : PropertyRole} {line : Nat}

theorem Decl.rolesOf_other (ha : a.role? = none) : rolesOf (body ++ [a]) = rolesOf body := by
  unfold rolesOf
  rw [List.filterMap_append, List.filterMap_cons_none ha, List.filterMap_nil, List.append_nil]

theorem Decl.rolesOf_role (ha : a.role? = some (role, line)) :
    rolesOf (body ++ [a]) = if (rolesOf body).any fun b => b.1 == role then rolesOf body
      else rolesOf body ++ [(role, line)] := by
  have hasked : ((rolesOf body).any fun b => b.1 == role) =
      (body.filterMap Accessor.role?).any fun b => b.1 == role := any_firsts _ _
  rw [hasked]
  unfold rolesOf
  rw [List.filterMap_append, List.filterMap_cons_some ha, List.filterMap_nil]
  generalize body.filterMap Accessor.role? = asked
  cases h : asked.any fun b => b.1 == role with
  | true =>
    rw [if_pos rfl]
    exact firsts_concat_repeat (a := (role, line)) h
  | false =>
    rw [if_neg Bool.false_ne_true]
    exact firsts_concat_new (a := (role, line)) h

end Words

namespace AccessorRequest

variable {p : Decl.Property} {body : List Decl.Accessor} {a : Decl.Accessor}

/-- The request of the part of a body that has been read. -/
def ofBody (p : Decl.Property) (body : List Decl.Accessor) : AccessorRequest where
  asked := Decl.rolesOf body
  found := (withBefore body).filterMap fun x => p.fault? x.1 x.2
  isMalformed := body.any fun a => a.role?.isNone

theorem ofBody_concat (p : Decl.Property) (body : List Decl.Accessor) (a : Decl.Accessor) :
    ofBody p (body ++ [a]) =
      { asked := Decl.rolesOf (body ++ [a])
        found := (ofBody p body).found ++ (p.fault? body a).toList
        isMalformed := (ofBody p body).isMalformed || a.role?.isNone } := by
  unfold ofBody
  rw [withBefore_concat, List.filterMap_append, List.any_append, List.any_cons, List.any_nil,
    Bool.or_false]
  rfl

theorem ask_ofBody {role : PropertyRole} {line : Nat} (ha : a.role? = some (role, line)) :
    (ofBody p body).ask p role line = ofBody p (body ++ [a]) := by
  rw [ofBody_concat, Decl.rolesOf_role ha]
  unfold ask Decl.Property.fault?
  rw [ha]
  dsimp only
  have hasked : (ofBody p body).asked = Decl.rolesOf body := rfl
  rw [hasked]
  split <;> simp

theorem reject_ofBody (ha : a.role? = none) :
    (ofBody p body).reject p = ofBody p (body ++ [a]) := by
  rw [ofBody_concat, Decl.rolesOf_other ha]
  unfold reject Decl.Property.fault?
  rw [ha]
  simp [ofBody]

theorem read_ofBody (p : Decl.Property) (body : List Decl.Accessor) (a : Decl.Accessor) :
    read p (ofBody p body) a = ofBody p (body ++ [a]) := by
  obtain ⟨word, line⟩ := a
  cases word with
  | get => exact ask_ofBody rfl
  | set => exact ask_ofBody rfl
  | add => exact reject_ofBody rfl
  | remove => exact reject_ofBody rfl
  | other keyword => exact reject_ofBody rfl

theorem foldl_read (p : Decl.Property) (body : List Decl.Accessor) :
    body.foldl (read p) {} = ofBody p body := by
  induction body using List.reverseRecOn with
  | nil => rfl
  | append_singleton body a ih => rw [List.foldl_append, ih, List.foldl_cons, List.foldl_nil, read_ofBody]

/-- The request of a property: each accessor at its first mention, and what is wrong with the others. -/
theorem ofDecl_eq (p : Decl.Property) : ofDecl p = ⟨p.requested, p.bodyFaults, p.isMalformed⟩ := by
  unfold ofDecl Decl.Property.requested Decl.Property.bodyFaults Decl.Property.isMalformed
  cases p.accessors with
  | none => rfl
  | some body =>
    cases body with
    | nil => rfl
    | cons a body => exact foldl_read p (a :: body)

end AccessorRequest

/-- What is malformed has been reported under the name of the property. -/
theorem Decl.Property.faults_of_isMalformed {p : Property} (h : p.isMalformed = true) :
    ∃ r ∈ p.bodyFaults, r.kind = .invalidPropertyAccessor ∧ r.symbol = p.name := by
  unfold isMalformed at h
  unfold bodyFaults
  cases hbody : p.accessors with
  | none => simp [hbody] at h
  | some body =>
    rw [hbody, Option.any_some] at h
    cases body with
    | nil => exact ⟨_, List.mem_cons_self, rfl, rfl⟩
    | cons a body =>
      rw [List.isEmpty_cons, Bool.false_or] at h
      obtain ⟨b, hb, hnone⟩ := List.any_eq_true.1 h
      obtain ⟨before, after, hsplit⟩ := List.append_of_mem hb
      refine ⟨.of .invalidPropertyAccessor p.line p.name, List.mem_filterMap.2
        ⟨(before, b), mem_withBefore.2 ⟨after, hsplit⟩, ?_⟩, rfl, rfl⟩
      unfold fault?
      rw [Option.isNone_iff_eq_none.1 hnone]

end ComponentIdl
