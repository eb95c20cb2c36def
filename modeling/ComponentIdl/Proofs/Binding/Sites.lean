import ComponentIdl.Proofs.Binding.Bound

/-!
# The sites of references

A reference stands at a site: in a namespace, on a line, in a role. The sites of a store in the order
of their walk hold every reference of it, and what binding makes of a store and reports about it is
what it makes of each site and reports there.
-/

namespace ComponentIdl

/-- Whether a reference is an entry of a requires list, stands in an accessor, is the type of an
event, or none of these. -/
inductive SiteRole where
  | required
  | accessor
  | event
  | other
deriving DecidableEq

structure Site where
  scope : String
  line : Nat
  role : SiteRole
  reference : Reference
deriving DecidableEq

namespace Site

def key (s : Site) : String := absoluteName s.scope s.reference.text

def keys (s : Site) : List String := s.reference.keys s.scope

def boundIn (t : NameTable) (s : Site) : Site :=
  { s with
    reference := match s.role with
      | .required => s.reference.requiredIn t s.scope
      | _ => s.reference.boundIn t s.scope }

def misfit (t : NameTable) (s : Site) : List Diagnostic :=
  if !s.reference.isBound && (t.get? s.key).any fun symbol => !symbol.isDelegate then
    [.of .typeNotDelegate s.line s.key]
  else []

def faults (t : NameTable) (s : Site) : List Diagnostic :=
  match s.role with
  | .required => s.reference.requiredFaults t s.scope s.line
  | .accessor => []
  | .event => s.reference.faults t s.scope s.line ++ s.misfit t
  | .other => s.reference.faults t s.scope s.line

end Site

def Method.sites (scope : String) (m : Method) : List Site :=
  m.references.map fun r => ⟨scope, m.line, if m.isWritten then .other else .accessor, r⟩

def Property.site (scope : String) (p : Property) : Site := ⟨scope, p.line, .other, p.type⟩

def Event.site (scope : String) (e : Event) : Site := ⟨scope, e.line, .event, e.type⟩

def Constructor.sites (scope : String) (c : Constructor) : List Site :=
  c.parameters.map fun p => ⟨scope, c.line, .other, p.type⟩

def ObjectType.sites (o : ObjectType) : List Site :=
  o.requires.map (fun r => ⟨o.scope, o.line, .required, r⟩) ++
    o.methods.flatMap (Method.sites o.scope) ++ o.properties.map (Property.site o.scope) ++
    o.events.map (Event.site o.scope) ++ o.constructors.flatMap (Constructor.sites o.scope)

def StructType.sites (s : StructType) : List Site :=
  s.fields.map fun f => ⟨s.scope, f.line, .other, f.type⟩

def DelegateType.sites (d : DelegateType) : List Site :=
  d.references.map fun r => ⟨d.scope, d.line, .other, r⟩

def Store.sites (st : Store) : List Site :=
  st.objects.toList.flatMap ObjectType.sites ++ st.structs.toList.flatMap StructType.sites ++
    st.delegates.toList.flatMap DelegateType.sites

theorem ObjectType.keys_eq (o : ObjectType) : o.keys = o.sites.flatMap Site.keys := by
  unfold ObjectType.keys ObjectType.sites Method.keys Method.sites Constructor.keys Constructor.sites
  simp only [List.flatMap_append, List.flatMap_map, List.flatMap_assoc]
  rfl

theorem Store.keys_eq (st : Store) : st.keys = st.sites.flatMap Site.keys := by
  unfold Store.keys Store.sites StructType.keys StructType.sites DelegateType.keys DelegateType.sites
  simp only [List.flatMap_append, List.flatMap_map, List.flatMap_assoc, ← ObjectType.keys_eq]
  rfl

section Image

variable (t : NameTable)

theorem Method.sites_boundIn (scope : String) (m : Method) :
    (m.boundIn t scope).sites scope = (m.sites scope).map (Site.boundIn t) := by
  unfold Method.sites
  rw [Method.references_boundIn, List.map_map, List.map_map]
  refine List.map_congr_left fun r _ => ?_
  show (⟨scope, m.line, if m.isWritten then .other else .accessor, r.boundIn t scope⟩ : Site) = _
  cases hw : m.isWritten <;> rfl

theorem Constructor.sites_boundIn (scope : String) (c : Constructor) :
    (c.boundIn t scope).sites scope = (c.sites scope).map (Site.boundIn t) := by
  unfold Constructor.sites Constructor.boundIn
  rw [List.map_map, List.map_map]
  rfl

theorem ObjectType.sites_boundIn (o : ObjectType) :
    (o.boundIn t).sites = o.sites.map (Site.boundIn t) := by
  unfold ObjectType.sites
  rw [constructors_boundIn]
  simp only [List.map_append, List.map_flatMap, ← Method.sites_boundIn,
    ← Constructor.sites_boundIn]
  simp only [ObjectType.boundIn, List.map_map, List.flatMap_map]
  rfl

theorem StructType.sites_boundIn (s : StructType) :
    (s.boundIn t).sites = s.sites.map (Site.boundIn t) := by
  unfold StructType.sites StructType.boundIn
  rw [List.map_map, List.map_map]
  rfl

theorem DelegateType.sites_boundIn (d : DelegateType) :
    (d.boundIn t).sites = d.sites.map (Site.boundIn t) := by
  have hreferences : (d.boundIn t).references = d.references.map (Reference.boundIn t d.scope) := by
    unfold DelegateType.references DelegateType.boundIn
    rw [List.map_append, List.map_map, List.map_map]
    cases d.result <;> rfl
  unfold DelegateType.sites
  rw [hreferences, List.map_map, List.map_map]
  rfl

theorem Store.sites_boundIn (st : Store) :
    (st.boundIn t).sites = st.sites.map (Site.boundIn t) := by
  unfold Store.sites
  simp only [List.map_append, List.map_flatMap, ← ObjectType.sites_boundIn,
    ← StructType.sites_boundIn, ← DelegateType.sites_boundIn]
  simp only [Store.boundIn, Array.toList_map, List.flatMap_map]

theorem Method.faults_eq (scope : String) (m : Method) :
    m.faults t scope = (m.sites scope).flatMap (Site.faults t) := by
  unfold Method.faults Method.sites
  rw [List.flatMap_map]
  cases m.isWritten with
  | true => rfl
  | false => exact (List.flatMap_eq_nil_iff.2 fun _ _ => rfl).symm

theorem ObjectType.faults_eq (o : ObjectType) : o.faults t = o.sites.flatMap (Site.faults t) := by
  unfold ObjectType.faults ObjectType.sites Constructor.faults Constructor.sites
  simp only [List.flatMap_append, List.flatMap_map, List.flatMap_assoc, ← Method.faults_eq]
  rfl

theorem Store.bindingFaults_eq (st : Store) :
    st.bindingFaults t = st.sites.flatMap (Site.faults t) := by
  unfold Store.bindingFaults Store.sites StructType.faults StructType.sites DelegateType.faults
    DelegateType.sites
  simp only [List.flatMap_append, List.flatMap_map, List.flatMap_assoc, ← ObjectType.faults_eq]
  rfl

end Image

end ComponentIdl
