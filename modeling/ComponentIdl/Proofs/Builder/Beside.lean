import ComponentIdl.Proofs.Builder.Getters
import ComponentIdl.Proofs.Builder.Registry

/-!
# The members of a type, apart from the rest of a build

Members are added to the slot of their type and to nothing else. So they can be added before the type
has a slot among others: alone in a store. What comes of it is the same, beside any other slots.
-/

namespace ComponentIdl

/-! ### Stores side by side -/

theorem modify_append_right {α : Type} (as bs : Array α) (i : Nat) (f : α → α) :
    (as ++ bs).modify (as.size + i) f = as ++ bs.modify i f := by
  apply Array.ext_getElem?
  intro j
  rw [Array.getElem?_modify, Array.getElem?_append, Array.getElem?_append, Array.getElem?_modify]
  by_cases hj : j < as.size
  · rw [if_neg (by omega), if_pos hj, if_pos hj]
  · rw [if_neg hj, if_neg hj]
    by_cases hij : as.size + i = j
    · rw [if_pos hij, if_pos (by omega)]
    · rw [if_neg hij, if_neg (by omega)]

theorem getElem?_append_size {α : Type} (as bs : Array α) (i : Nat) :
    (as ++ bs)[as.size + i]? = bs[i]? := by
  rw [Array.getElem?_append_right (Nat.le_add_right _ _), Nat.add_sub_cancel_left]

namespace Store

/-- The slots of the first store before those of the second, under the tree of the first. -/
def append (st st' : Store) : Store :=
  { st with
    objects := st.objects ++ st'.objects
    structs := st.structs ++ st'.structs
    enums := st.enums ++ st'.enums
    delegates := st.delegates ++ st'.delegates }

theorem modifyObject_append (st st' : Store) (id : ObjectId) (f : ObjectType → ObjectType) :
    (st.append st').modifyObject (st.objects.size + id) f = st.append (st'.modifyObject id f) :=
  congrArg (fun objects => { st.append st' with objects }) (modify_append_right ..)

theorem modifyStruct_append (st st' : Store) (id : StructId) (f : StructType → StructType) :
    (st.append st').modifyStruct (st.structs.size + id) f = st.append (st'.modifyStruct id f) :=
  congrArg (fun structs => { st.append st' with structs }) (modify_append_right ..)

theorem modifyEnum_append (st st' : Store) (id : EnumId) (f : EnumType → EnumType) :
    (st.append st').modifyEnum (st.enums.size + id) f = st.append (st'.modifyEnum id f) :=
  congrArg (fun enums => { st.append st' with enums }) (modify_append_right ..)

theorem namespaces_add (st : Store) (e : Entity) : (st.add e).namespaces = st.namespaces := by
  cases e <;> rfl

theorem declare_free {st : Store} {n : NamespaceId} {name : String}
    (hfree : st.namespaces.symbol? n name = none) (block : Nat) (e : Entity) :
    st.declare n block name e =
      { st.add e with
        namespaces := st.namespaces.modify n fun node =>
          Namespaces.Namespace.addSymbol node block name (st.nextSymbol e) } := by
  unfold declare
  rw [Namespaces.addSymbol_free hfree]

theorem add_tree (st : Store) (tree : Namespaces) (e : Entity) :
    ({ st with namespaces := tree } : Store).add e = { st.add e with namespaces := tree } := by
  cases e <;> rfl

theorem append_add (st : Store) (e : Entity) : st.append (Store.add {} e) = st.add e := by
  cases e <;> simp [append, add]

end Store

/-- The focus after the slots of a store. -/
def Focus.after (st : Store) : Focus → Focus
  | .object id => .object (st.objects.size + id)
  | .struct id => .struct (st.structs.size + id)
  | .enum id => .enum (st.enums.size + id)
  | focus => focus

/-- The visits of members, and those that leave a body. -/
def Visit.isInner : Visit → Bool
  | .method _ | .property _ | .event _ | .constructor _ | .field _ | .enumMember _
  | .closeClass _ | .closeInterface _ | .closeStruct _ | .closeEnum _ | .closeDelegate _ => true
  | _ => false

namespace Builder

/-- The slots and the findings of `y` before those of `x`, with the focus in the part of `x`. -/
def beside (x y : Builder) : Builder :=
  { y with
    store := y.store.append x.store
    found := y.found ++ x.found
    focus := x.focus.after y.store
    fragments := x.fragments
    malformed := x.malformed }

variable {b x y : Builder} {v : Visit}

section Beside

/-- The slot that the focus is on, before and after. -/
theorem object_beside (x y : Builder) (id : ObjectId) :
    (y.store.append x.store).objects[y.store.objects.size + id]? = x.store.objects[id]? :=
  getElem?_append_size ..

theorem struct_beside (x y : Builder) (id : StructId) :
    (y.store.append x.store).structs[y.store.structs.size + id]? = x.store.structs[id]? :=
  getElem?_append_size ..

theorem enum_beside (x y : Builder) (id : EnumId) :
    (y.store.append x.store).enums[y.store.enums.size + id]? = x.store.enums[id]? :=
  getElem?_append_size ..

theorem closeObject_beside : (x.beside y).closeObject = x.closeObject.beside y := by
  unfold closeObject
  cases hf : x.focus with
  | object id =>
    simp only [beside, hf, Focus.after, object_beside]
    cases x.store.objects[id]? <;> simp [leave, List.append_assoc]
  | _ => simp [beside, hf, Focus.after, leave]

theorem addMethod_beside (d : Decl.Method) :
    (x.beside y).addMethod d = (x.addMethod d).beside y := by
  unfold addMethod
  cases hf : x.focus with
  | object id => simp only [beside, hf, Focus.after, Store.modifyObject_append]
  | _ => simp only [beside, hf, Focus.after]

theorem addConstructor_beside (d : Decl.Constructor) :
    (x.beside y).addConstructor d = (x.addConstructor d).beside y := by
  unfold addConstructor
  cases hf : x.focus with
  | object id => simp only [beside, hf, Focus.after, Store.modifyObject_append]
  | _ => simp only [beside, hf, Focus.after]

theorem addProperty_beside (d : Decl.Property) :
    (x.beside y).addProperty d = (x.addProperty d).beside y := by
  unfold addProperty
  cases hf : x.focus with
  | object id =>
    simp only [beside, hf, Focus.after, object_beside, List.append_assoc]
    cases x.store.objects[id]? with
    | none => rfl
    | some o =>
      dsimp only
      split
      · simp only [report, List.append_assoc]
      · simp only [Store.modifyObject_append]
  | _ => simp only [beside, hf, Focus.after]

theorem addEvent_beside (d : Decl.Event) :
    (x.beside y).addEvent d = (x.addEvent d).beside y := by
  unfold addEvent
  cases hf : x.focus with
  | object id =>
    simp only [beside, hf, Focus.after, object_beside]
    cases x.store.objects[id]? with
    | none => simp only [hf]
    | some o =>
      dsimp only
      split
      · simp only [report, hf, List.append_assoc]
      · split
        · simp only [report, hf, List.append_assoc, Store.modifyObject_append]
        · simp only [hf, Store.modifyObject_append]
  | _ => simp only [beside, hf, Focus.after]

theorem addField_beside (d : Decl.Field) :
    (x.beside y).addField d = (x.addField d).beside y := by
  unfold addField
  cases hf : x.focus with
  | struct id =>
    simp only [beside, hf, Focus.after, struct_beside]
    cases x.store.structs[id]? with
    | none => simp only [hf]
    | some s =>
      dsimp only
      split
      · simp only [report, hf, List.append_assoc]
      · simp only [Store.modifyStruct_append]
  | _ => simp only [beside, hf, Focus.after]

theorem addEnumMember_beside (d : Decl.EnumMember) :
    (x.beside y).addEnumMember d = (x.addEnumMember d).beside y := by
  unfold addEnumMember
  cases hf : x.focus with
  | enum id =>
    simp only [beside, hf, Focus.after, enum_beside]
    cases x.store.enums[id]? with
    | none => simp only [hf]
    | some e =>
      dsimp only
      split
      · simp only [report, hf, List.append_assoc]
      · simp only [Store.modifyEnum_append]
  | _ => simp only [beside, hf, Focus.after]

/-- A member does to a slot what it does to that slot alone. -/
theorem visit_beside (hv : v.isInner = true) : (x.beside y).visit v = (x.visit v).beside y := by
  cases v with
  | method d => exact addMethod_beside d
  | property d => exact addProperty_beside d
  | event d => exact addEvent_beside d
  | constructor d => exact addConstructor_beside d
  | field d => exact addField_beside d
  | enumMember d => exact addEnumMember_beside d
  | closeClass d => exact closeObject_beside
  | closeInterface d => exact closeObject_beside
  | closeStruct d => rfl
  | closeEnum d => rfl
  | closeDelegate d => rfl
  | _ => exact absurd hv Bool.false_ne_true

theorem run_beside {visits : List Visit} (hv : ∀ v ∈ visits, v.isInner = true) :
    (x.beside y).run visits = (x.run visits).beside y := by
  induction visits generalizing x with
  | nil => rfl
  | cons v visits ih =>
    rw [run_cons, run_cons, visit_beside (hv v List.mem_cons_self)]
    exact ih fun w hw => hv w (List.mem_cons_of_mem v hw)

end Beside

end Builder

/-! ### A type alone -/

/-- The second entity is the first one with members. -/
def Entity.Grown : Entity → Entity → Prop
  | .object o, .object o' => Store.label o' = Store.label o
  | .struct s, .struct s' => s'.toHeader = s.toHeader
  | .enum e, .enum e' => e'.toHeader = e.toHeader
  | .delegate d, .delegate d' => d' = d
  | _, _ => False

theorem Entity.Grown.header {e e' : Entity} (h : e.Grown e') : e'.header = e.header := by
  cases e <;> cases e' <;> first
    | exact h.elim
    | exact congrArg Prod.fst h
    | exact h
    | exact congrArg DelegateType.toHeader h

theorem Entity.Grown.nextSymbol {e e' : Entity} (h : e.Grown e') (st : Store) :
    st.nextSymbol e' = st.nextSymbol e := by
  cases e with
  | object o =>
    cases e' with
    | object o' =>
      have hclass : o'.isClass = o.isClass := congrArg Prod.snd h
      simp only [Store.nextSymbol, hclass]
    | _ => exact h.elim
  | _ => cases e' <;> first | exact h.elim | rfl

/-- The entity in the first slot, of the kind of the one given. -/
def Store.sole (st : Store) : Entity → Entity
  | .object o => .object (st.objects[0]?.getD o)
  | .struct s => .struct (st.structs[0]?.getD s)
  | .enum e => .enum (st.enums[0]?.getD e)
  | .delegate d => .delegate (st.delegates[0]?.getD d)

namespace Decl.TypeDecl

/-- The type without its members. -/
def opened (h : Header) : TypeDecl → Entity
  | classDecl d => .object
      { toHeader := h, classPart := some { modifiers := d.modifiers },
        requires := d.requires.map Reference.named }
  | interfaceDecl d => .object
      { toHeader := h, classPart := none, requires := d.requires.map Reference.named }
  | structDecl _ => .struct { toHeader := h }
  | enumDecl d => .enum { toHeader := h, base := d.base }
  | delegateDecl d => .delegate
      { toHeader := h, result := d.result.map Reference.parse,
        parameters := d.parameters.map Parameter.ofDecl }

/-- The first visit. -/
def openingVisit : TypeDecl → Visit
  | classDecl d => .openClass d
  | interfaceDecl d => .openInterface d
  | structDecl d => .openStruct d
  | enumDecl d => .openEnum d
  | delegateDecl d => .openDelegate d

/-- The focus of a builder on the members of the type, once it is declared. -/
def focusOn : TypeDecl → Option Symbol → Focus
  | delegateDecl _, _ => .nothing
  | _, some symbol => .ofSymbol symbol
  | _, none => .skipped

/-- The visits after the first one. -/
def innerVisits : TypeDecl → List Visit
  | classDecl d => d.members.map Member.visit ++ [.closeClass d]
  | interfaceDecl d => d.members.map Member.visit ++ [.closeInterface d]
  | structDecl d => d.fields.map Visit.field ++ [.closeStruct d]
  | enumDecl d => d.members.map Visit.enumMember ++ [.closeEnum d]
  | delegateDecl d => [.closeDelegate d]

theorem visits_eq_cons (d : TypeDecl) : d.visits = d.openingVisit :: d.innerVisits := by
  cases d <;> rfl

theorem isInner_innerVisits (d : TypeDecl) : ∀ v ∈ d.innerVisits, v.isInner = true := by
  have hmember : ∀ m : Member, m.visit.isInner = true := by
    intro m
    cases m <;> rfl
  have hbody : ∀ {α : Type} (members : List α) (visit : α → Visit) (close : Visit),
      (∀ a, (visit a).isInner = true) → close.isInner = true →
        ∀ v ∈ members.map visit ++ [close], v.isInner = true := by
    intro α members visit close hvisit hclose
    exact List.forall_mem_append.2
      ⟨List.forall_mem_map.2 fun a _ => hvisit a, fun v hv => List.mem_singleton.1 hv ▸ hclose⟩
  cases d with
  | classDecl d => exact hbody d.members _ (.closeClass d) hmember rfl
  | interfaceDecl d => exact hbody d.members _ (.closeInterface d) hmember rfl
  | structDecl d => exact hbody d.fields _ (.closeStruct d) (fun _ => rfl) rfl
  | enumDecl d => exact hbody d.members _ (.closeEnum d) (fun _ => rfl) rfl
  | delegateDecl d => exact fun v hv => List.mem_singleton.1 hv ▸ rfl

/-- A builder that has the type alone, at the beginning of its body. -/
def seed (d : TypeDecl) (h : Header) : Builder where
  assembly := h.assembly
  store := Store.add {} (d.opened h)
  symbols := {}
  focus := match d with
    | classDecl _ | interfaceDecl _ => .object 0
    | structDecl _ => .struct 0
    | enumDecl _ => .enum 0
    | delegateDecl _ => .nothing

/-- The same builder at the end of the body. -/
def alone (d : TypeDecl) (h : Header) : Builder := (d.seed h).run d.innerVisits

/-- The type with its members. -/
def built (d : TypeDecl) (h : Header) : Entity := (d.alone h).store.sole (d.opened h)

/-- What is wrong with the members of the type. -/
def faults (d : TypeDecl) (h : Header) : List Diagnostic := (d.alone h).found

end Decl.TypeDecl

namespace Builder

variable {b : Builder} {v : Visit}

theorem openBlocks_inner (hv : v.isInner = true) : (b.visit v).openBlocks = b.openBlocks := by
  have hclose : b.closeObject.openBlocks = b.openBlocks := by
    unfold closeObject
    repeat' split
    all_goals rfl
  cases v with
  | closeClass d => exact hclose
  | closeInterface d => exact hclose
  | closeStruct d => rfl
  | closeEnum d => rfl
  | closeDelegate d => rfl
  | method d =>
    simp only [visit, addMethod]
    split <;> rfl
  | constructor d =>
    simp only [visit, addConstructor]
    split <;> rfl
  | property d =>
    simp only [visit, addProperty]
    repeat' split
    all_goals rfl
  | event d =>
    simp only [visit, addEvent]
    repeat' split
    all_goals rfl
  | field d =>
    simp only [visit, addField]
    repeat' split
    all_goals rfl
  | enumMember d =>
    simp only [visit, addEnumMember]
    repeat' split
    all_goals rfl
  | _ => exact absurd hv Bool.false_ne_true

/-- Members change no header and nothing of the tree. -/
theorem sameHeaders_inner (hv : v.isInner = true) :
    b.store.SameHeaders (b.visit v).store ∧
      (b.visit v).store.namespaces = b.store.namespaces := by
  have hunnamed : v.typeName? = none := by
    cases v <;> first | rfl | exact absurd hv Bool.false_ne_true
  rcases (step_visit b v).header_cases with ⟨hsame, htree, -, -⟩ | ⟨d, hd⟩ | ⟨_, _, _, hd⟩
  · exact ⟨hsame, htree⟩
  · -- A block that is opened stays open, but a member opens none.
    have hblocks := congrArg (List.length ∘ openBlocks) hd
    simp [openBlocks_inner hv, openBlock] at hblocks
  · have hnamed := hd.named
    rw [hunnamed] at hnamed
    exact absurd hnamed (by simp)

theorem sameHeaders_run {visits : List Visit} (hv : ∀ v ∈ visits, v.isInner = true) :
    b.store.SameHeaders (b.run visits).store ∧
      (b.run visits).store.namespaces = b.store.namespaces := by
  refine run_preserves (P := fun b' => b.store.SameHeaders b'.store ∧
    b'.store.namespaces = b.store.namespaces) visits ?_ ⟨.refl _, rfl⟩
  rintro v hmem b' ⟨hsame, htree⟩
  obtain ⟨hsame', htree'⟩ := sameHeaders_inner (b := b') (hv v hmem)
  exact ⟨hsame.trans hsame', htree'.trans htree⟩

end Builder

theorem eq_empty_of_map {α β : Type} {f : α → β} {as : Array α} (h : (as[0]?).map f = none) :
    as = #[] := by
  rw [Option.map_eq_none_iff, Array.getElem?_eq_none_iff] at h
  exact Array.eq_empty_of_size_eq_zero (Nat.le_zero.1 h)

theorem eq_singleton_of_map {α β : Type} {f : α → β} {as : Array α} {b : β}
    (h : (as[0]?).map f = some b) (hend : (as[1]?).map f = none) : ∃ a, as = #[a] ∧ f a = b := by
  obtain ⟨a, ha, hab⟩ := Option.map_eq_some_iff.1 h
  rw [Option.map_eq_none_iff, Array.getElem?_eq_none_iff] at hend
  refine ⟨a, ?_, hab⟩
  apply Array.ext_getElem?
  intro i
  cases i with
  | zero => rw [ha]; rfl
  | succ i => rw [Array.getElem?_eq_none (by omega), Array.getElem?_eq_none (by simp)]

namespace Decl.TypeDecl

variable (d : TypeDecl) (h : Header)

/-- A type that grows alone stays alone. -/
theorem alone_store :
    (d.opened h).Grown (d.built h) ∧ (d.alone h).store = Store.add {} (d.built h) := by
  have hseed : (d.seed h).store.namespaces = .empty := Store.namespaces_add {} (d.opened h)
  obtain ⟨hsame, htree⟩ : (Store.add {} (d.opened h)).SameHeaders (d.alone h).store ∧
      (d.alone h).store.namespaces = (d.seed h).store.namespaces :=
    Builder.sameHeaders_run (b := d.seed h) d.isInner_innerVisits
  rw [hseed] at htree
  have hkind : ∀ e : Entity, d.opened h = e → (∀ d', e ≠ .delegate d') →
      (d.opened h).Grown (d.built h) ∧ (d.alone h).store = Store.add {} (d.built h) := by
    intro e he hnot
    unfold built
    rw [he] at hsame ⊢
    generalize (d.alone h).store = st at hsame htree
    obtain ⟨tree, objects, structs, enums, delegates⟩ := st
    obtain rfl : tree = .empty := htree
    cases e with
    | object o =>
      obtain ⟨o', rfl, ho⟩ := eq_singleton_of_map (hsame.objects 0) (hsame.objects 1)
      obtain rfl := eq_empty_of_map (hsame.structs 0)
      obtain rfl := eq_empty_of_map (hsame.enums 0)
      obtain rfl := eq_empty_of_map (hsame.delegates 0)
      exact ⟨ho, rfl⟩
    | struct s =>
      obtain ⟨s', rfl, hs⟩ := eq_singleton_of_map (hsame.structs 0) (hsame.structs 1)
      obtain rfl := eq_empty_of_map (hsame.objects 0)
      obtain rfl := eq_empty_of_map (hsame.enums 0)
      obtain rfl := eq_empty_of_map (hsame.delegates 0)
      exact ⟨hs, rfl⟩
    | enum e =>
      obtain ⟨e', rfl, he⟩ := eq_singleton_of_map (hsame.enums 0) (hsame.enums 1)
      obtain rfl := eq_empty_of_map (hsame.objects 0)
      obtain rfl := eq_empty_of_map (hsame.structs 0)
      obtain rfl := eq_empty_of_map (hsame.delegates 0)
      exact ⟨he, rfl⟩
    | delegate d' => exact absurd rfl (hnot d')
  cases d with
  | delegateDecl d => exact ⟨rfl, rfl⟩
  | classDecl d => exact hkind _ rfl fun _ => nofun
  | interfaceDecl d => exact hkind _ rfl fun _ => nofun
  | structDecl d => exact hkind _ rfl fun _ => nofun
  | enumDecl d => exact hkind _ rfl fun _ => nofun

end Decl.TypeDecl

end ComponentIdl
