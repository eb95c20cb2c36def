import Mathlib.Data.List.Induction
import ComponentIdl.Proofs.Builder.Beside
import ComponentIdl.Proofs.Builder.Remarks
import ComponentIdl.Proofs.Store.Entities

/-!
# First ones and repeats

Of the fields of a struct, and of the members of an enum, the first one of each name is kept, and every
further one is reported once. A class or an interface reports its members under other kinds of errors.
-/

namespace ComponentIdl

section Lists

variable {α β κ : Type} [BEq κ] (key : α → κ)

/-- The elements, each with whether an earlier one has its key. -/
def withRepeats (as : List α) : List (α × Bool) :=
  as.zipIdx.map fun x => (x.1, (as.take x.2).any fun a => key a == key x.1)

/-- The elements whose key no earlier one has. -/
def firsts (as : List α) : List α := ((withRepeats key as).filter fun x => !x.2).map Prod.fst

/-- The elements whose key an earlier one has. -/
def repeats (as : List α) : List α := ((withRepeats key as).filter Prod.snd).map Prod.fst

theorem withRepeats_concat (as : List α) (a : α) :
    withRepeats key (as ++ [a]) = withRepeats key as ++ [(a, as.any fun b => key b == key a)] := by
  have hold : ∀ x ∈ as.zipIdx, (as ++ [a]).take x.2 = as.take x.2 := by
    intro x hx
    exact List.take_append_of_le_length (Nat.le_of_lt (List.snd_lt_of_mem_zipIdx hx))
  have hmap : (as.zipIdx.map fun x => (x.1, ((as ++ [a]).take x.2).any fun b => key b == key x.1)) =
      withRepeats key as := by
    refine List.map_congr_left fun x hx => ?_
    rw [hold x hx]
  rw [withRepeats, List.zipIdx_append, List.map_append, hmap]
  simp

variable {key} {as : List α} {a : α}

theorem firsts_concat_new (h : (as.any fun b => key b == key a) = false) :
    firsts key (as ++ [a]) = firsts key as ++ [a] := by
  simp [firsts, withRepeats_concat, h]

theorem firsts_concat_repeat (h : (as.any fun b => key b == key a) = true) :
    firsts key (as ++ [a]) = firsts key as := by
  simp [firsts, withRepeats_concat, h]

theorem repeats_concat_new (h : (as.any fun b => key b == key a) = false) :
    repeats key (as ++ [a]) = repeats key as := by
  simp [repeats, withRepeats_concat, h]

theorem repeats_concat_repeat (h : (as.any fun b => key b == key a) = true) :
    repeats key (as ++ [a]) = repeats key as ++ [a] := by
  simp [repeats, withRepeats_concat, h]

theorem any_firsts [LawfulBEq κ] (as : List α) (k : κ) :
    ((firsts key as).any fun a => key a == k) = as.any fun a => key a == k := by
  induction as using List.reverseRecOn with
  | nil => rfl
  | append_singleton as a ih =>
    cases h : as.any fun b => key b == key a with
    | false => rw [firsts_concat_new h, List.any_append, ih, List.any_append]
    | true =>
      rw [firsts_concat_repeat h, ih, List.any_append, List.any_cons, List.any_nil, Bool.or_false]
      -- A repeat has no key that was not there before.
      cases hk : key a == k with
      | false => rw [Bool.or_false]
      | true => rw [← beq_iff_eq.1 hk, h, Bool.or_true]

/-- A state that takes in each element as a first one or as a repeat of what it holds ends with the first
ones and the repeats. -/
theorem foldl_firsts [LawfulBEq κ] {step : β → α → β} (state : List α → List α → β)
    (hnew : ∀ fs rs a, (fs.any fun f => key f == key a) = false →
      step (state fs rs) a = state (fs ++ [a]) rs)
    (hrepeat : ∀ fs rs a, (fs.any fun f => key f == key a) = true →
      step (state fs rs) a = state fs (rs ++ [a])) (as : List α) :
    as.foldl step (state [] []) = state (firsts key as) (repeats key as) := by
  induction as using List.reverseRecOn with
  | nil => rfl
  | append_singleton as a ih =>
    rw [List.foldl_append, ih, List.foldl_cons, List.foldl_nil]
    cases h : as.any fun b => key b == key a with
    | false => rw [hnew _ _ _ ((any_firsts as _).trans h), firsts_concat_new h, repeats_concat_new h]
    | true =>
      rw [hrepeat _ _ _ ((any_firsts as _).trans h), firsts_concat_repeat h, repeats_concat_repeat h]

theorem firsts_sublist (key : α → κ) (as : List α) : (firsts key as).Sublist as := by
  have hall : (withRepeats key as).map Prod.fst = as := by
    rw [withRepeats, List.map_map]
    exact List.zipIdx_map_fst 0 as
  have hsome := (List.filter_sublist (p := fun x => !x.2) (l := withRepeats key as)).map Prod.fst
  rw [hall] at hsome
  exact hsome

end Lists

theorem Entity.Grown.keyword {e e' : Entity} (h : e.Grown e') : e'.keyword = e.keyword := by
  cases e with
  | object o =>
    cases e' with
    | object o' =>
      have hclass : o'.isClass = o.isClass := congrArg Prod.snd h
      simp only [Entity.keyword, hclass]
    | _ => exact h.elim
  | _ => cases e' <;> first | exact h.elim | rfl

namespace Decl.TypeDecl

/-- A builder that is in the body of a struct with the given fields, after the given repeats. -/
def structState (d : Decl.Struct) (h : Header) (fields repeats : List Decl.Field) : Builder :=
  { (structDecl d).seed h with
    store := Store.add {} (.struct
      { toHeader := h, fields := fields.map fun f => ⟨f.name, f.line, .parse f.type⟩ })
    found := repeats.map fun f => .of .duplicateField f.line f.name }

theorem alone_struct (d : Decl.Struct) (h : Header) :
    (structDecl d).alone h =
      (structState d h (firsts Decl.Field.name d.fields) (repeats Decl.Field.name d.fields)).leave := by
  have hhas : ∀ (fs : List Decl.Field) (f : Decl.Field),
      (StructType.mk h (fs.map fun f => ⟨f.name, f.line, .parse f.type⟩) .unknown).hasFieldNamed
        f.name = fs.any fun g => g.name == f.name := by
    intro fs f
    rw [StructType.hasFieldNamed, List.any_map]
    rfl
  have hnew : ∀ fs rs f, (fs.any fun g => g.name == f.name) = false →
      (structState d h fs rs).addField f = structState d h (fs ++ [f]) rs := by
    intro fs rs f hf
    rw [← hhas] at hf
    simp [structState, Builder.addField, seed, Store.add, hf, Store.modifyStruct]
  have hrepeat : ∀ fs rs f, (fs.any fun g => g.name == f.name) = true →
      (structState d h fs rs).addField f = structState d h fs (rs ++ [f]) := by
    intro fs rs f hf
    rw [← hhas] at hf
    simp [structState, Builder.addField, seed, Store.add, hf, Builder.report]
  have hfields : d.fields.foldl Builder.addField ((structDecl d).seed h) =
      structState d h (firsts Decl.Field.name d.fields) (repeats Decl.Field.name d.fields) :=
    foldl_firsts (structState d h) hnew hrepeat d.fields
  have hrun : ((structDecl d).seed h).run (d.fields.map Visit.field) =
      d.fields.foldl Builder.addField ((structDecl d).seed h) := List.foldl_map
  unfold alone innerVisits
  rw [Builder.run_append, hrun, hfields]
  rfl

def enumState (d : Decl.Enum) (h : Header) (members repeats : List Decl.EnumMember) : Builder :=
  { (enumDecl d).seed h with
    store := Store.add {} (.enum
      { toHeader := h, base := d.base, members := (members.map EnumMember.ofDecl).toArray })
    found := repeats.map fun m => .of .duplicateTypeMember m.line m.name }

theorem alone_enum (d : Decl.Enum) (h : Header) :
    (enumDecl d).alone h =
      (enumState d h (firsts Decl.EnumMember.name d.members)
        (repeats Decl.EnumMember.name d.members)).leave := by
  have hhas : ∀ (ms : List Decl.EnumMember) (m : Decl.EnumMember),
      (({ toHeader := h, base := d.base, members := (ms.map EnumMember.ofDecl).toArray } :
        EnumType).memberIndex? m.name).isSome = ms.any fun n => n.name == m.name := by
    intro ms m
    rw [EnumType.memberIndex?, Array.findIdx?_isSome, List.any_toArray, List.any_map]
    rfl
  have hnew : ∀ ms rs m, (ms.any fun n => n.name == m.name) = false →
      (enumState d h ms rs).addEnumMember m = enumState d h (ms ++ [m]) rs := by
    intro ms rs m hm
    rw [← hhas] at hm
    simp [enumState, Builder.addEnumMember, seed, Store.add, hm, Store.modifyEnum]
  have hrepeat : ∀ ms rs m, (ms.any fun n => n.name == m.name) = true →
      (enumState d h ms rs).addEnumMember m = enumState d h ms (rs ++ [m]) := by
    intro ms rs m hm
    rw [← hhas] at hm
    simp [enumState, Builder.addEnumMember, seed, Store.add, hm, Builder.report]
  have hmembers : d.members.foldl Builder.addEnumMember ((enumDecl d).seed h) =
      enumState d h (firsts Decl.EnumMember.name d.members)
        (repeats Decl.EnumMember.name d.members) :=
    foldl_firsts (enumState d h) hnew hrepeat d.members
  have hrun : ((enumDecl d).seed h).run (d.members.map Visit.enumMember) =
      d.members.foldl Builder.addEnumMember ((enumDecl d).seed h) := List.foldl_map
  unfold alone innerVisits
  rw [Builder.run_append, hrun, hmembers]
  rfl

/-- The type as it is kept, with the first field or member of each name. -/
def kept (h : Header) : TypeDecl → Entity
  | structDecl d => .struct
      { toHeader := h
        fields := (firsts Decl.Field.name d.fields).map fun f => ⟨f.name, f.line, .parse f.type⟩ }
  | enumDecl d => .enum
      { toHeader := h, base := d.base
        members := ((firsts Decl.EnumMember.name d.members).map EnumMember.ofDecl).toArray }
  | d => d.built h

/-- What is reported of the members of the type: each repeat of a field or an enum member, once. -/
def excess (h : Header) : TypeDecl → List Diagnostic
  | structDecl d => (repeats Decl.Field.name d.fields).map fun f => .of .duplicateField f.line f.name
  | enumDecl d =>
    (repeats Decl.EnumMember.name d.members).map fun m => .of .duplicateTypeMember m.line m.name
  | d => d.faults h

theorem built_eq_kept (d : TypeDecl) (h : Header) : d.built h = d.kept h := by
  cases d with
  | structDecl d =>
    unfold built
    rw [alone_struct]
    rfl
  | enumDecl d =>
    unfold built
    rw [alone_enum]
    rfl
  | _ => rfl

theorem faults_eq_excess (d : TypeDecl) (h : Header) : d.faults h = d.excess h := by
  cases d with
  | structDecl d =>
    unfold faults
    rw [alone_struct]
    rfl
  | enumDecl d =>
    unfold faults
    rw [alone_enum]
    rfl
  | _ => rfl

def keyword : TypeDecl → String
  | classDecl _ => "class"
  | interfaceDecl _ => "interface"
  | structDecl _ => "struct"
  | enumDecl _ => "enum"
  | delegateDecl _ => "delegate"

theorem keyword_kept (d : TypeDecl) (h : Header) : (d.kept h).keyword = d.keyword := by
  rw [← built_eq_kept, (d.alone_store h).1.keyword]
  cases d <;> rfl

theorem header_kept (d : TypeDecl) (h : Header) : (d.kept h).header = h := by
  rw [← built_eq_kept, (d.alone_store h).1.header]
  cases d <;> rfl

end Decl.TypeDecl

/-- The kinds of errors that are found in the body of a class or interface. -/
def Diagnostic.Kind.isOfBody : Diagnostic.Kind → Bool
  | .duplicateTypeMember | .invalidPropertyAccessor | .duplicatePropertyAccessor
  | .repeatedPropertyAccessor | .conflictingEventAccessor => true
  | _ => false

def OfBody (found : List Diagnostic) : Prop := ∀ d ∈ found, d.kind.isOfBody = true

namespace Builder

variable {b : Builder}

theorem ofBody_addEvent (h : OfBody b.found) (d : Decl.Event) : OfBody (b.addEvent d).found := by
  have hreport : ∀ {kind : Diagnostic.Kind}, kind.isOfBody = true →
      OfBody (b.report kind d.line d.name).found := fun hk =>
    List.forall_mem_append.2 ⟨h, fun _ hr => List.mem_singleton.1 hr ▸ hk⟩
  unfold addEvent
  split
  · split
    · exact h
    · split
      · exact hreport rfl
      · dsimp only
        split
        · exact hreport rfl
        · exact h
  · exact h

theorem ofBody_addProperty (h : OfBody b.found) (d : Decl.Property) :
    OfBody (b.addProperty d).found := by
  have hrequest : OfBody (b.found ++ (AccessorRequest.ofDecl d).found) := by
    refine List.forall_mem_append.2 ⟨h, fun r hr => ?_⟩
    rcases AccessorRequest.ofAccessors_ofDecl d r hr with hk | hk <;> rw [hk] <;> rfl
  unfold addProperty
  split
  · dsimp only
    split
    · exact hrequest
    · split
      · next herror =>
        refine List.forall_mem_append.2 ⟨hrequest, fun r hr => ?_⟩
        rw [List.mem_singleton.1 hr]
        rcases ObjectType.kind_addFragment herror with hk | hk <;> subst hk <;> rfl
      · exact hrequest
  · exact h

theorem ofBody_closeObject (h : OfBody b.found) : OfBody b.closeObject.found := by
  unfold closeObject
  split
  · split
    · next o _ =>
      refine List.forall_mem_append.2 ⟨h, fun r hr => ?_⟩
      rw [o.kind_missingGetters b.malformed r hr]
      rfl
    · exact h
  · exact h

theorem ofBody_member (h : OfBody b.found) (m : Decl.Member) : OfBody (b.visit m.visit).found := by
  cases m with
  | method d =>
    simp only [Decl.Member.visit, visit, addMethod]
    split <;> exact h
  | constructor d =>
    simp only [Decl.Member.visit, visit, addConstructor]
    split <;> exact h
  | property d => exact ofBody_addProperty h d
  | event d => exact ofBody_addEvent h d

theorem ofBody_body (h : OfBody b.found) (members : List Decl.Member) {close : Visit}
    (hclose : ∀ b : Builder, b.visit close = b.closeObject) :
    OfBody (b.run (members.map Decl.Member.visit ++ [close])).found := by
  induction members generalizing b with
  | nil =>
    show OfBody (b.visit close).found
    rw [hclose]
    exact ofBody_closeObject h
  | cons m members ih => exact ih (ofBody_member h m)

end Builder

namespace Decl.TypeDecl

theorem ofBody_class (d : Decl.Class) (h : Header) : OfBody ((classDecl d).excess h) :=
  Builder.ofBody_body (b := (classDecl d).seed h) (fun _ hr => absurd hr List.not_mem_nil) d.members
    fun _ => rfl

theorem ofBody_interface (d : Decl.Interface) (h : Header) : OfBody ((interfaceDecl d).excess h) :=
  Builder.ofBody_body (b := (interfaceDecl d).seed h) (fun _ hr => absurd hr List.not_mem_nil)
    d.members fun _ => rfl

def repeatedFields : TypeDecl → List Decl.Field
  | structDecl d => repeats Decl.Field.name d.fields
  | _ => []

/-- What is reported of members under the name of a member before: of an enum, each repeat. -/
def repeatedMembers (h : Header) : TypeDecl → List Diagnostic
  | enumDecl d =>
    (repeats Decl.EnumMember.name d.members).map fun m => .of .duplicateTypeMember m.line m.name
  | d => (d.faults h).filter fun r => r.kind == .duplicateTypeMember

/-- Of its own members a type reports neither its name nor the names of namespaces. -/
theorem kind_excess (d : TypeDecl) (h : Header) : ∀ r ∈ d.excess h,
    r.kind ≠ .duplicateNamespaceMember ∧ r.kind ≠ .namespaceCaseConflict := by
  have hbody : ∀ {found : List Diagnostic}, OfBody found → ∀ r ∈ found,
      r.kind ≠ .duplicateNamespaceMember ∧ r.kind ≠ .namespaceCaseConflict := by
    intro found hfound r hr
    have hkind := hfound r hr
    constructor <;> intro heq <;> rw [heq] at hkind <;> exact absurd hkind Bool.false_ne_true
  cases d with
  | classDecl d => exact hbody (ofBody_class d h)
  | interfaceDecl d => exact hbody (ofBody_interface d h)
  | structDecl d =>
    intro r hr
    obtain ⟨f, -, rfl⟩ := List.mem_map.1 hr
    exact ⟨nofun, nofun⟩
  | enumDecl d =>
    intro r hr
    obtain ⟨m, -, rfl⟩ := List.mem_map.1 hr
    exact ⟨nofun, nofun⟩
  | delegateDecl d => exact fun r hr => absurd hr List.not_mem_nil

theorem filter_excess_field (d : TypeDecl) (h : Header) :
    ((d.excess h).filter fun r => r.kind == .duplicateField) =
      d.repeatedFields.map fun f => .of .duplicateField f.line f.name := by
  have hbody : ∀ {found : List Diagnostic}, OfBody found →
      (found.filter fun r => r.kind == .duplicateField) = [] := by
    intro found hfound
    refine List.filter_eq_nil_iff.2 fun r hr heq => ?_
    have hkind := hfound r hr
    rw [beq_iff_eq.1 heq] at hkind
    exact absurd hkind Bool.false_ne_true
  cases d with
  | classDecl d => exact hbody (ofBody_class d h)
  | interfaceDecl d => exact hbody (ofBody_interface d h)
  | structDecl d =>
    refine List.filter_eq_self.2 fun r hr => ?_
    obtain ⟨f, -, rfl⟩ := List.mem_map.1 hr
    rfl
  | enumDecl d =>
    refine hbody fun r hr => ?_
    obtain ⟨m, -, rfl⟩ := List.mem_map.1 hr
    rfl
  | delegateDecl d => rfl

theorem filter_excess_member (d : TypeDecl) (h : Header) :
    ((d.excess h).filter fun r => r.kind == .duplicateTypeMember) = d.repeatedMembers h := by
  cases d with
  | enumDecl d =>
    refine List.filter_eq_self.2 fun r hr => ?_
    obtain ⟨m, -, rfl⟩ := List.mem_map.1 hr
    rfl
  | _ => rw [← faults_eq_excess]; rfl

end Decl.TypeDecl

end ComponentIdl
