import ComponentIdl.Proofs.Binding.Sites
import ComponentIdl.Proofs.Builder.Remarks
import ComponentIdl.Proofs.Compile

/-!
# The types of events

What an event is of has to be a delegate. Binding checks this where it looks the type up, so the
check sees local and imported types; a built-in type is bound when its keyword is read, and escapes
it.
-/

namespace ComponentIdl

namespace Target

def isDelegate (imports : Array Import) : Target → Bool
  | delegate _ => true
  | imported id => (imports[id]?).any fun i => i.kind == .delegate
  | _ => false

def isBuiltin : Target → Bool
  | primitive _ => true
  | object => true
  | _ => false

end Target

/-- The report of an event whose type is bound to something other than a delegate, unless that is a
built-in type. -/
def Event.misfit? (imports : Array Import) (scope : String) (e : Event) : Option Diagnostic :=
  e.type.target.bind fun target =>
    if target.isDelegate imports || target.isBuiltin then none
    else some (.of .typeNotDelegate e.line (absoluteName scope e.type.text))

section Faults

variable (t : NameTable)

theorem Site.filter_faults (s : Site) :
    (s.faults t).filter (fun d => d.kind == .typeNotDelegate) =
      if s.role = .event then s.misfit t else [] := by
  have hreference : (s.reference.faults t s.scope s.line).filter
      (fun d => d.kind == .typeNotDelegate) = [] := by
    unfold Reference.faults
    split <;> rfl
  have hrequired : (s.reference.requiredFaults t s.scope s.line).filter
      (fun d => d.kind == .typeNotDelegate) = [] := by
    unfold Reference.requiredFaults
    repeat' split
    all_goals rfl
  have hmisfit : (s.misfit t).filter (fun d => d.kind == .typeNotDelegate) = s.misfit t := by
    unfold misfit
    split <;> rfl
  unfold faults
  cases hr : s.role with
  | required => exact hrequired
  | accessor => rfl
  | event => rw [List.filter_append, hreference, hmisfit, List.nil_append, if_pos rfl]
  | other => exact hreference

theorem Site.filter_flatMap (sites : List Site) :
    (sites.flatMap (Site.faults t)).filter (fun d => d.kind == .typeNotDelegate) =
      (sites.filter fun s => s.role == .event).flatMap (Site.misfit t) := by
  induction sites with
  | nil => rfl
  | cons s sites ih =>
    rw [List.flatMap_cons, List.filter_append, ih, Site.filter_faults]
    by_cases hr : s.role = .event <;> simp [hr]

theorem Site.filter_map {α : Type} {site : α → Site} (h : ∀ x, (site x).role ≠ .event)
    (l : List α) : (l.map site).filter (fun s => s.role == .event) = [] := by
  rw [List.filter_map, List.map_eq_nil_iff, List.filter_eq_nil_iff]
  intro x _
  simpa using h x

theorem Site.filter_flatMap_nil {α : Type} {sites : α → List Site}
    (h : ∀ x, (sites x).filter (fun s => s.role == .event) = []) (l : List α) :
    l.flatMap (fun x => (sites x).filter fun s => s.role == .event) = [] :=
  List.flatMap_eq_nil_iff.2 fun x _ => h x

theorem Method.filter_sites (scope : String) (m : Method) :
    (m.sites scope).filter (fun s => s.role == .event) = [] := by
  refine Site.filter_map (fun r => ?_) m.references
  cases m.isWritten <;> simp

theorem ObjectType.filter_sites (o : ObjectType) :
    o.sites.filter (fun s => s.role == .event) = o.events.map (Event.site o.scope) := by
  have hevents : (o.events.map (Event.site o.scope)).filter (fun s => s.role == .event) =
      o.events.map (Event.site o.scope) := by
    rw [List.filter_eq_self]
    intro s hs
    obtain ⟨e, -, rfl⟩ := List.mem_map.1 hs
    rfl
  have hconstructor : ∀ c : Constructor,
      (c.sites o.scope).filter (fun s => s.role == .event) = [] :=
    fun c => Site.filter_map (fun _ => by simp) c.parameters
  unfold ObjectType.sites
  simp only [List.filter_append, List.filter_flatMap, hevents]
  rw [Site.filter_map (fun _ => by simp), Site.filter_flatMap_nil (Method.filter_sites o.scope),
    Site.filter_map (fun _ => by simp [Property.site]), Site.filter_flatMap_nil hconstructor]
  simp

theorem Store.filter_sites (st : Store) : st.sites.filter (fun s => s.role == .event) =
    st.objects.toList.flatMap fun o => o.events.map (Event.site o.scope) := by
  have hstruct : ∀ s : StructType, s.sites.filter (fun s => s.role == .event) = [] :=
    fun s => Site.filter_map (fun _ => by simp) s.fields
  have hdelegate : ∀ d : DelegateType, d.sites.filter (fun s => s.role == .event) = [] :=
    fun d => Site.filter_map (fun _ => by simp) d.references
  unfold Store.sites
  simp only [List.filter_append, List.filter_flatMap, ObjectType.filter_sites]
  rw [Site.filter_flatMap_nil hstruct, Site.filter_flatMap_nil hdelegate]
  simp

end Faults

/-- The type of every event is unbound, or built in. -/
def ObjectType.PlainEvents (o : ObjectType) : Prop :=
  ∀ e ∈ o.events, ∀ target, e.type.target = some target → target.isBuiltin = true

theorem Reference.isBuiltin_parse {text : String} {target : Target}
    (h : (parse text).target = some target) : target.isBuiltin = true := by
  unfold parse at h
  split at h
  · cases h
    rfl
  · split at h
    · cases h
      rfl
    · simp [named] at h

namespace ObjectType

variable {o o' : ObjectType}

theorem events_addAccessors (o : ObjectType) (index : Nat) (asked : List (PropertyRole × Nat)) :
    (o.addAccessors index asked).events = o.events := by
  have hone : ∀ (o : ObjectType) role line, (o.addAccessor index role line).events = o.events := by
    intro o role line
    unfold addAccessor
    split <;> rfl
  induction asked generalizing o with
  | nil => rfl
  | cons a asked ih => exact (ih _).trans (hone o a.1 a.2)

theorem PlainEvents.grows (h : o.PlainEvents) (hg : o.Grows o') : o'.PlainEvents := by
  cases hg with
  | method d => exact h
  | constructor d => exact h
  | fragment d count ho =>
    have hevents : o'.events = o.events := by
      obtain ⟨-, ⟨-, rfl⟩ | ⟨p, index, -, -, -, -, -, rfl⟩⟩ := addFragment_cases ho
      · exact events_addAccessors ..
      · exact events_addAccessors ..
    unfold PlainEvents
    rw [hevents]
    exact h
  | event d he hp =>
    intro e hmem target htarget
    rcases List.mem_append.1 hmem with hmem | hmem
    · exact h e hmem target htarget
    · rw [List.mem_singleton.1 hmem] at htarget
      exact Reference.isBuiltin_parse htarget

end ObjectType

theorem declared_plainEvents (settings : Settings) (catalog : Catalog) (u : Decl.Unit) :
    ∀ o ∈ (declared settings catalog u).store.objects, o.PlainEvents := by
  refine Builder.run_objects u.visits (fun o header hnew => ?_) (fun _ _ hg h => h.grows hg)
    fun o ho => absurd ho (Array.not_mem_empty o)
  intro e he
  rw [hnew.events] at he
  exact absurd he List.not_mem_nil

theorem declared_reports (settings : Settings) (catalog : Catalog) (u : Decl.Unit) :
    OfDeclarations (declared settings catalog u).report.entries :=
  Builder.ofDeclarations_run ofDeclarations_nil u.visits

def NameTable.KindsListed (t : NameTable) : Prop :=
  ∀ name id kind, t.get? name = some (.imported id kind) →
    ∃ i, t.imports[id]? = some i ∧ i.kind = kind

theorem Workspace.Declared.kindsListed {w : Workspace} (h : w.Declared) :
    w.boundSymbols.KindsListed := by
  intro name id kind hget
  rcases h.entry hget with ⟨header, hheader, -⟩ | ⟨-, id', i, hsymbol, hi, -⟩
  · simp [Store.header?] at hheader
  · cases hsymbol
    exact ⟨i, hi, rfl⟩

namespace Symbol

theorem isBuiltin_target (symbol : Symbol) : symbol.target.isBuiltin = false := by
  cases symbol <;> rfl

theorem isDelegate_target {t : NameTable} {name : String} {symbol : Symbol} (ht : t.KindsListed)
    (h : t.get? name = some symbol) : symbol.target.isDelegate t.imports = symbol.isDelegate := by
  cases symbol with
  | imported id kind =>
    obtain ⟨i, hi, rfl⟩ := ht name id kind h
    simp only [target, Target.isDelegate, hi, Option.any_some]
    cases i.kind <;> rfl
  | runtimeClass id => rfl
  | interface id => rfl
  | struct id => rfl
  | enum id => rfl
  | delegate id => rfl

end Symbol

theorem Event.misfit_site {t : NameTable} {scope : String} {e : Event} (ht : t.KindsListed)
    (hplain : ∀ target, e.type.target = some target → target.isBuiltin = true) :
    (e.site scope).misfit t = ((e.boundIn t scope).misfit? t.imports scope).toList := by
  unfold Site.misfit misfit? Event.boundIn
  rw [Reference.text_boundIn]
  cases htarget : e.type.target with
  | some target =>
    have hb : e.type.isBound = true := by simp [Reference.isBound, htarget]
    simp [Reference.boundIn, site, hb, htarget, hplain target htarget]
  | none =>
    have hb : e.type.isBound = false := by simp [Reference.isBound, htarget]
    cases hget : t.get? (absoluteName scope e.type.text) with
    | none => simp [Reference.boundIn, site, Site.key, hb, hget, htarget]
    | some symbol =>
      have hdelegate := Symbol.isDelegate_target ht hget
      have hbuiltin := symbol.isBuiltin_target
      cases hd : symbol.isDelegate <;>
        simp [Reference.boundIn, Reference.bindTo, site, Site.key, hb, hget, htarget, hdelegate,
          hbuiltin, hd]

/-- After declaring and binding, what is reported of event types is one diagnostic for each event
whose type is bound to something other than a delegate or a built-in type. -/
theorem bindReferences_eventTypes (settings : Settings) (catalog : Catalog) (u : Decl.Unit) :
    let w := (declared settings catalog u).bindReferences.1
    w.report.entries.filter (fun d => d.kind == .typeNotDelegate) =
      w.store.objects.toList.flatMap fun o =>
        o.events.filterMap (Event.misfit? w.symbols.imports o.scope) := by
  intro w
  have hkinds := (declared_declared settings catalog u).kindsListed
  have hplain := declared_plainEvents settings catalog u
  have hreports := declared_reports settings catalog u
  have hw : w = _ := (declared settings catalog u).bindReferences_eq
  rw [hw]
  generalize declared settings catalog u = before at hkinds hplain hreports
  show (before.report.entries ++ before.store.bindingFaults before.boundSymbols).filter _ =
    (before.store.boundIn before.boundSymbols).objects.toList.flatMap _
  have hold : before.report.entries.filter (fun d => d.kind == .typeNotDelegate) = [] := by
    rw [List.filter_eq_nil_iff]
    intro d hd hkind
    have hdeclaration := hreports d hd
    rw [beq_iff_eq.1 hkind] at hdeclaration
    exact Bool.false_ne_true hdeclaration
  rw [List.filter_append, hold, List.nil_append, Store.bindingFaults_eq, Site.filter_flatMap,
    Store.filter_sites, List.flatMap_assoc]
  simp only [Store.boundIn, Array.toList_map, List.flatMap_map]
  refine List.flatMap_congr fun o ho => ?_
  have hobject := hplain o (Array.mem_toList_iff.1 ho)
  simp only [ObjectType.boundIn, List.filterMap_eq_flatMap_toList, List.flatMap_map]
  refine List.flatMap_congr fun e he => ?_
  exact Event.misfit_site hkinds (hobject e he)

def clock : Decl.Unit where
  syntaxErrors := 0
  blocks := [⟨"N", 1, [
    .type (.interfaceDecl ⟨"Clock", 2, [], [.event ⟨"Tick", 3, false, "Int32", none⟩]⟩)]⟩]

/-- The type of the event is bound, and to no delegate, but nothing is reported. -/
theorem builtin_eventType_passed :
    (declared {} .empty clock).bindReferences.1.report.entries = [] ∧
      ∃ o e target, (declared {} .empty clock).bindReferences.1.store.objects[0]? = some o ∧
        e ∈ o.events ∧ e.line = 3 ∧ e.type.target = some target ∧
        target.isDelegate (declared {} .empty clock).bindReferences.1.symbols.imports = false := by
  have hevent : ((declared {} .empty clock).bindReferences.1.store.objects[0]?.bind
      fun o : ObjectType => o.events[0]?) =
        some ⟨"Tick", 3, false, .primitive .int32, 0, 1, none⟩ := by
    decide +kernel
  obtain ⟨o, ho, he⟩ := Option.bind_eq_some_iff.1 hevent
  exact ⟨by decide +kernel, o, _, _, ho, List.mem_of_getElem? he, rfl, rfl, rfl⟩

end ComponentIdl
