import ComponentIdl.Proofs.Binding.Sites
import ComponentIdl.Proofs.Store.Registry
import ComponentIdl.Evaluation

/-!
# Declarations of any kind

A symbol stands for a declaration, whatever its kind, and a store is the list of its declarations. What
is told of each declaration apart does not depend on the order of the list.
-/

namespace ComponentIdl

namespace Entity

def isInterface : Entity → Bool
  | object o => o.isInterface
  | _ => false

def isDelegate : Entity → Bool
  | delegate _ => true
  | _ => false

/-- The sites of all references of a declaration. -/
def sites : Entity → List Site
  | object o => o.sites
  | struct s => s.sites
  | enum _ => []
  | delegate d => d.sites

/-- The keyword of the kind of a declaration. -/
def keyword : Entity → String
  | object o => if o.isClass then "class" else "interface"
  | struct _ => "struct"
  | enum _ => "enum"
  | delegate _ => "delegate"

/-- The members of an enum, each with its value. -/
def members : Entity → Array EnumMember
  | enum e => e.members
  | _ => #[]

/-- The cycle state of a struct, class or interface. -/
def cycle? : Entity → Option Circularity
  | object o => some o.cycle
  | struct s => some s.cycle
  | _ => none

/-- What is wrong with the values of an enum. -/
def valueFaults : Entity → List Diagnostic
  | enum e => e.search.found
  | _ => []

end Entity

namespace Store

variable {st : Store} {σ : Symbol} {e : Entity}

/-- The declaration that a symbol stands for. -/
def entity? (st : Store) : Symbol → Option Entity
  | .runtimeClass id => (st.objects[id]?).bind fun o => if o.isClass then some (.object o) else none
  | .interface id => (st.objects[id]?).bind fun o => if o.isClass then none else some (.object o)
  | .struct id => (st.structs[id]?).map .struct
  | .enum id => (st.enums[id]?).map .enum
  | .delegate id => (st.delegates[id]?).map .delegate
  | .imported _ _ => none

theorem entity?_add (st : Store) (e : Entity) (σ : Symbol) :
    (st.add e).entity? σ = if σ = st.nextSymbol e then some e else st.entity? σ := by
  cases e with
  | object o =>
    cases hc : o.isClass <;> cases σ <;>
      simp only [add, entity?, nextSymbol, hc, Array.getElem?_push, reduceCtorEq,
        if_false, if_true, Bool.false_eq_true, Symbol.runtimeClass.injEq, Symbol.interface.injEq]
    all_goals split <;> simp_all
  | struct s =>
    cases σ <;> simp only [add, entity?, nextSymbol, Array.getElem?_push, reduceCtorEq,
      if_false, Symbol.struct.injEq]
    split <;> simp
  | enum e =>
    cases σ <;> simp only [add, entity?, nextSymbol, Array.getElem?_push, reduceCtorEq,
      if_false, Symbol.enum.injEq]
    split <;> simp
  | delegate d =>
    cases σ <;> simp only [add, entity?, nextSymbol, Array.getElem?_push, reduceCtorEq,
      if_false, Symbol.delegate.injEq]
    split <;> simp

theorem entity?_tree (st : Store) (tree : Namespaces) (σ : Symbol) :
    ({ st with namespaces := tree } : Store).entity? σ = st.entity? σ := by
  cases σ <;> rfl

theorem entity?_declare (st : Store) (n : NamespaceId) (block : Nat) (name : String) (e : Entity)
    (σ : Symbol) : (st.declare n block name e).entity? σ = (st.add e).entity? σ := by
  unfold declare
  split
  · exact entity?_tree ..
  · rfl

/-- A symbol and the declaration that is in its slot. -/
inductive Holds (st : Store) : Symbol → Entity → Prop where
  | runtimeClass {id : ObjectId} {o : ObjectType} (h : st.objects[id]? = some o)
      (hc : o.isClass = true) : Holds st (.runtimeClass id) (.object o)
  | interface {id : ObjectId} {o : ObjectType} (h : st.objects[id]? = some o)
      (hc : o.isClass = false) : Holds st (.interface id) (.object o)
  | struct {id : StructId} {s : StructType} (h : st.structs[id]? = some s) :
      Holds st (.struct id) (.struct s)
  | enum {id : EnumId} {e : EnumType} (h : st.enums[id]? = some e) : Holds st (.enum id) (.enum e)
  | delegate {id : DelegateId} {d : DelegateType} (h : st.delegates[id]? = some d) :
      Holds st (.delegate id) (.delegate d)

theorem holds_iff : st.Holds σ e ↔ st.entity? σ = some e := by
  constructor
  · intro h
    cases h with
    | runtimeClass h hc => simp [entity?, h, hc]
    | interface h hc => simp [entity?, h, hc]
    | struct h => simp [entity?, h]
    | enum h => simp [entity?, h]
    | delegate h => simp [entity?, h]
  · intro h
    cases σ with
    | runtimeClass id =>
      obtain ⟨o, ho, hc⟩ := Option.bind_eq_some_iff.1 h
      split at hc
      · next hclass => exact Option.some.inj hc ▸ .runtimeClass ho hclass
      · simp at hc
    | interface id =>
      obtain ⟨o, ho, hc⟩ := Option.bind_eq_some_iff.1 h
      split at hc
      · simp at hc
      · next hclass => exact Option.some.inj hc ▸ .interface ho (Bool.eq_false_iff.2 hclass)
    | struct id =>
      obtain ⟨s, hs, rfl⟩ := Option.map_eq_some_iff.1 h
      exact .struct hs
    | enum id =>
      obtain ⟨e, he, rfl⟩ := Option.map_eq_some_iff.1 h
      exact .enum he
    | delegate id =>
      obtain ⟨d, hd, rfl⟩ := Option.map_eq_some_iff.1 h
      exact .delegate hd
    | imported id kind => simp [entity?] at h

theorem Holds.isInterface (h : st.Holds σ e) : σ.isInterface = e.isInterface := by
  have hkind : ∀ o : ObjectType, o.isInterface = !o.isClass := by
    intro o
    unfold ObjectType.isInterface ObjectType.isClass
    cases o.classPart <;> rfl
  cases h with
  | runtimeClass _ hc => rw [Entity.isInterface, hkind, hc]; rfl
  | interface _ hc => rw [Entity.isInterface, hkind, hc]; rfl
  | struct _ => rfl
  | enum _ => rfl
  | delegate _ => rfl

theorem Holds.isDelegate (h : st.Holds σ e) : σ.isDelegate = e.isDelegate := by
  cases h <;> rfl

theorem Holds.header? (h : st.Holds σ e) : st.header? σ = some e.header := by
  cases h with
  | runtimeClass h hc => simp [Store.header?, h, hc, Entity.header]
  | interface h hc => simp [Store.header?, h, hc, Entity.header]
  | struct h => simp [Store.header?, h, Entity.header]
  | enum h => simp [Store.header?, h, Entity.header]
  | delegate h => simp [Store.header?, h, Entity.header]

theorem entity?_nextSymbol (st : Store) (e : Entity) : st.entity? (st.nextSymbol e) = none := by
  cases h : st.entity? (st.nextSymbol e) with
  | none => rfl
  | some e' =>
    have hheader := (holds_iff.2 h).header?
    rw [header?_nextSymbol] at hheader
    exact absurd hheader (by simp)

theorem holds_of_header? {header : Header} (h : st.header? σ = some header) :
    ∃ e, st.Holds σ e ∧ e.header = header := by
  cases σ with
  | runtimeClass id =>
    obtain ⟨o, ho, hc⟩ := Option.bind_eq_some_iff.1 h
    split at hc
    · next hclass => exact ⟨_, .runtimeClass ho hclass, Option.some.inj hc⟩
    · simp at hc
  | interface id =>
    obtain ⟨o, ho, hc⟩ := Option.bind_eq_some_iff.1 h
    split at hc
    · simp at hc
    · next hclass =>
      exact ⟨_, .interface ho (Bool.eq_false_iff.2 hclass), Option.some.inj hc⟩
  | struct id =>
    obtain ⟨s, hs, rfl⟩ := Option.map_eq_some_iff.1 h
    exact ⟨_, .struct hs, rfl⟩
  | enum id =>
    obtain ⟨e, he, rfl⟩ := Option.map_eq_some_iff.1 h
    exact ⟨_, .enum he, rfl⟩
  | delegate id =>
    obtain ⟨d, hd, rfl⟩ := Option.map_eq_some_iff.1 h
    exact ⟨_, .delegate hd, rfl⟩
  | imported id kind => simp [Store.header?] at h

/-- The declarations of a store, kind after kind. -/
def entities (st : Store) : List Entity :=
  st.objects.toList.map .object ++ st.structs.toList.map .struct ++ st.enums.toList.map .enum ++
    st.delegates.toList.map .delegate

theorem entities_add (st : Store) (e : Entity) : (st.add e).entities.Perm (e :: st.entities) := by
  have hmiddle : ∀ before after : List Entity,
      (before ++ e :: after).Perm (e :: (before ++ after)) :=
    fun _ _ => List.perm_middle
  let objects := st.objects.toList.map Entity.object
  let structs := st.structs.toList.map Entity.struct
  let enums := st.enums.toList.map Entity.enum
  let delegates := st.delegates.toList.map Entity.delegate
  unfold entities
  cases e with
  | object o => simp [add]
  | struct s => simpa [add] using hmiddle (objects ++ structs) (enums ++ delegates)
  | enum e => simpa [add] using hmiddle (objects ++ (structs ++ enums)) delegates
  | delegate d => simpa [add] using hmiddle (objects ++ (structs ++ (enums ++ delegates))) []

theorem entities_tree (st : Store) (tree : Namespaces) :
    ({ st with namespaces := tree } : Store).entities = st.entities := rfl

theorem entities_declare (st : Store) (n : NamespaceId) (block : Nat) (name : String) (e : Entity) :
    (st.declare n block name e).entities = (st.add e).entities := by
  unfold declare
  split <;> rfl

theorem mem_entities : e ∈ st.entities ↔ ∃ σ, st.Holds σ e := by
  unfold entities
  simp only [List.mem_append, List.mem_map, Array.mem_toList_iff, Array.mem_iff_getElem?]
  constructor
  · rintro (((⟨o, ⟨i, hi⟩, rfl⟩ | ⟨s, ⟨i, hi⟩, rfl⟩) | ⟨e, ⟨i, hi⟩, rfl⟩) | ⟨d, ⟨i, hi⟩, rfl⟩)
    · cases hc : o.isClass
      · exact ⟨_, .interface hi hc⟩
      · exact ⟨_, .runtimeClass hi hc⟩
    · exact ⟨_, .struct hi⟩
    · exact ⟨_, .enum hi⟩
    · exact ⟨_, .delegate hi⟩
  · rintro ⟨σ, h⟩
    cases h with
    | runtimeClass h _ => exact Or.inl (Or.inl (Or.inl ⟨_, ⟨_, h⟩, rfl⟩))
    | interface h _ => exact Or.inl (Or.inl (Or.inl ⟨_, ⟨_, h⟩, rfl⟩))
    | struct h => exact Or.inl (Or.inl (Or.inr ⟨_, ⟨_, h⟩, rfl⟩))
    | enum h => exact Or.inl (Or.inr ⟨_, ⟨_, h⟩, rfl⟩)
    | delegate h => exact Or.inr ⟨_, ⟨_, h⟩, rfl⟩

theorem sites_eq (st : Store) : st.sites = st.entities.flatMap Entity.sites := by
  have hnone : st.enums.toList.flatMap (fun _ => ([] : List Site)) = [] :=
    List.flatMap_eq_nil_iff.2 fun _ _ => rfl
  unfold sites entities
  simp only [List.flatMap_append, List.flatMap_map, Entity.sites, hnone, List.append_nil]

theorem enumDiagnostics_eq (st : Store) :
    st.enumDiagnostics = st.entities.flatMap Entity.valueFaults := by
  have hnone : ∀ {α : Type} (as : List α), as.flatMap (fun _ => ([] : List Diagnostic)) = [] :=
    fun as => List.flatMap_eq_nil_iff.2 fun _ _ => rfl
  unfold enumDiagnostics entities
  simp only [List.flatMap_append, List.flatMap_map, Entity.valueFaults, hnone, List.append_nil,
    List.nil_append]

end Store

end ComponentIdl
