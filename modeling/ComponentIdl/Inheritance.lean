import ComponentIdl.SelfReference

/-!
# Inherited interfaces

The local interfaces that a class or interface requires, directly or through others. Imported and
unbound bases contribute nothing.
-/

namespace ComponentIdl

namespace Store

/-- The local interfaces required by `id`, the nearest first, each once and never `id` itself. -/
def inherited (st : Store) (id : ObjectId) : List ObjectId :=
  st.requirement.nearestFirst id

def inheritedByAll (st : Store) : List (List ObjectId) :=
  let g := st.requirement
  (List.range st.objects.size).map g.nearestFirst

def ancestors (st : Store) (id : ObjectId) : List (ObjectId × ObjectType) :=
  (st.inherited id).filterMap fun base => (st.objects[base]?).map fun o => (base, o)

end Store

end ComponentIdl
