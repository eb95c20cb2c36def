import ComponentIdl.Store.Entity
import ComponentIdl.Store.Namespaces

/-!
# The type store

All declarations of a compilation, each kind in a series of slots of its own, and the namespace tree
that names them. Slots are only added; what is declared stays.
-/

namespace ComponentIdl

/-- A declaration of any kind. -/
inductive Entity where
  | object (o : ObjectType)
  | struct (s : StructType)
  | enum (e : EnumType)
  | delegate (d : DelegateType)

structure Store where
  namespaces : Namespaces := .empty
  objects : Array ObjectType := #[]
  structs : Array StructType := #[]
  enums : Array EnumType := #[]
  delegates : Array DelegateType := #[]

namespace Store

def empty : Store := {}

def lookup? (st : Store) (name : String) : Option Symbol :=
  let q := DottedName.parse name
  (st.namespaces.path? q.scope).bind fun n => st.namespaces.symbol? n q.name

def nextSymbol (st : Store) : Entity → Symbol
  | .object o => if o.isClass then .runtimeClass st.objects.size else .interface st.objects.size
  | .struct _ => .struct st.structs.size
  | .enum _ => .enum st.enums.size
  | .delegate _ => .delegate st.delegates.size

def add (st : Store) : Entity → Store
  | .object o => { st with objects := st.objects.push o }
  | .struct s => { st with structs := st.structs.push s }
  | .enum e => { st with enums := st.enums.push e }
  | .delegate d => { st with delegates := st.delegates.push d }

def declare (st : Store) (n : NamespaceId) (block : Nat) (name : String) (e : Entity) : Store :=
  match st.namespaces.addSymbol n block name (st.nextSymbol e) with
  | .ok tree => { st.add e with namespaces := tree }
  | .error _ => st.add e

def modifyObject (st : Store) (id : ObjectId) (f : ObjectType → ObjectType) : Store :=
  { st with objects := st.objects.modify id f }

def modifyStruct (st : Store) (id : StructId) (f : StructType → StructType) : Store :=
  { st with structs := st.structs.modify id f }

def modifyEnum (st : Store) (id : EnumId) (f : EnumType → EnumType) : Store :=
  { st with enums := st.enums.modify id f }

def class? (st : Store) (name : String) : Option ObjectType :=
  match st.lookup? name with
  | some (.runtimeClass id) => st.objects[id]?
  | _ => none

def interface? (st : Store) (name : String) : Option ObjectType :=
  match st.lookup? name with
  | some (.interface id) => st.objects[id]?
  | _ => none

def struct? (st : Store) (name : String) : Option StructType :=
  match st.lookup? name with
  | some (.struct id) => st.structs[id]?
  | _ => none

def enum? (st : Store) (name : String) : Option EnumType :=
  match st.lookup? name with
  | some (.enum id) => st.enums[id]?
  | _ => none

def delegate? (st : Store) (name : String) : Option DelegateType :=
  match st.lookup? name with
  | some (.delegate id) => st.delegates[id]?
  | _ => none

def size (st : Store) : Nat :=
  st.objects.size + st.structs.size + st.enums.size + st.delegates.size

end Store

end ComponentIdl
