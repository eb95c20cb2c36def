import ComponentIdl.Graph.CycleSearch
import ComponentIdl.Workspace

/-!
# Declarations that contain or require themselves

A struct may not contain itself by value, an interface may not require itself. Both are cycles of a
graph over slots: one leads from a struct to the structs it holds, the other from a class or
interface to the interfaces it requires. A declaration that only leads into a cycle is circular too.
-/

namespace ComponentIdl

structure CycleTally where
  structs : Nat := 0
  interfaces : Nat := 0
deriving DecidableEq

namespace Store

/-- Which structs the fields of each struct hold by value. -/
def containment (st : Store) : Graph := ⟨st.structs.map StructType.parts⟩

/-- Which local interfaces each class and interface requires. -/
def requirement (st : Store) : Graph := ⟨st.objects.map ObjectType.bases⟩

/-- The cycle states of the structs, and the circular structs. -/
def structCycles (st : Store) : Array Circularity × List StructId :=
  st.containment.exploreAll (st.structs.map StructType.cycle) (List.range st.structs.size)

/-- The cycle states of the classes and interfaces, and the circular ones. -/
def objectCycles (st : Store) : Array Circularity × List ObjectId :=
  st.requirement.exploreAll (st.objects.map ObjectType.cycle) (List.range st.objects.size)

def withCycles (st : Store) : Store :=
  let structs := st.structCycles.1
  let objects := st.objectCycles.1
  { st with
    structs := st.structs.mapIdx fun i s => { s with cycle := stateOf structs i }
    objects := st.objects.mapIdx fun i o => { o with cycle := stateOf objects i } }

def circularStructs (st : Store) : List StructType :=
  st.structCycles.2.filterMap fun id => st.structs[id]?

/-- The circular interfaces; a circular class is not counted. -/
def circularInterfaces (st : Store) : List ObjectType :=
  (st.objectCycles.2.filterMap fun id => st.objects[id]?).filter ObjectType.isInterface

def cycleDiagnostics (st : Store) : List Diagnostic :=
  (st.circularStructs.map fun s => .of .circularStructField s.line s.dottedName) ++
    st.circularInterfaces.map fun o => .of .circularInterface o.line o.dottedName

end Store

def Workspace.findCycles (w : Workspace) : Workspace × CycleTally :=
  ({ w with store := w.store.withCycles, report := w.report.add w.store.cycleDiagnostics },
   { structs := w.store.circularStructs.length
     interfaces := w.store.circularInterfaces.length })

end ComponentIdl
