import ComponentIdl.Proofs.Builder.Whole
import ComponentIdl.Proofs.Compile
import ComponentIdl.Proofs.Derivation.Simulation
import ComponentIdl.Proofs.Passes

/-!
# What a compilation sees of its catalog

The catalog is asked in one place: when a reference is looked up under a key that has no entry in the
name table. Declarations have their entries before the first look-up, so a compilation depends on a
catalog through the keys of its references that name no declaration, and through nothing else.

`withCatalog` puts another catalog under a table. Whatever is done to the table then goes the same
way, as long as both catalogs agree on the keys that are asked for.
-/

namespace ComponentIdl

namespace NameTable

variable {t : NameTable} {catalog : Catalog}

/-- The table over another catalog, with its entries and imports as they are. -/
def withCatalog (t : NameTable) (catalog : Catalog) : NameTable := { t with catalog }

theorem import?_withCatalog {name : String} (h : catalog.get? name = t.catalog.get? name) :
    (t.withCatalog catalog).import? name = t.import? name := by
  show (catalog.get? name).or _ = (t.catalog.get? name).or _
  rw [h]

/-- A look-up asks the catalog for a name without an entry, and for no other name. -/
theorem lookup_withCatalog {name : String}
    (h : t.get? name = none → catalog.get? name = t.catalog.get? name) :
    (t.withCatalog catalog).lookup name =
      ((t.lookup name).1, (t.lookup name).2.withCatalog catalog) := by
  rcases lookup_cases t name with ⟨symbol, hget, heq⟩ | ⟨hget, hi, heq⟩ | ⟨i, hget, hi, heq⟩
  · rw [heq]
    exact lookup_known hget
  · rw [heq]
    exact lookup_missing hget ((import?_withCatalog (h hget)).trans hi)
  · rw [heq]
    exact lookup_import hget ((import?_withCatalog (h hget)).trans hi)

theorem lookupAll_withCatalog {keys : List String}
    (h : ∀ key ∈ keys, t.get? key = none → catalog.get? key = t.catalog.get? key) :
    (t.withCatalog catalog).lookupAll keys = (t.lookupAll keys).withCatalog catalog := by
  induction keys generalizing t with
  | nil => rfl
  | cons key keys ih =>
    rw [lookupAll_cons, lookupAll_cons, lookup_withCatalog (h key List.mem_cons_self)]
    apply ih
    intro other hother hnone
    rw [catalog_lookup]
    -- A name without an entry now had none before.
    cases hget : t.get? other with
    | none => exact h other (List.mem_cons_of_mem key hother) hget
    | some symbol =>
      rw [(grows_lookup t key).get? hget] at hnone
      exact absurd hnone (by simp)

end NameTable

namespace Builder

variable (b : Builder) (catalog : Catalog)

def withCatalog : Builder := { b with symbols := b.symbols.withCatalog catalog }

/-- No declaration asks for the catalog. -/
theorem accept_withCatalog (d : Decl.TypeDecl) :
    (b.withCatalog catalog).accept d = (b.accept d).withCatalog catalog := by
  cases hopen : b.openBlocks with
  | nil =>
    rw [accept_closed hopen]
    exact accept_closed (b := b.withCatalog catalog) hopen
  | cons head rest =>
    cases hs : b.store.namespaces.symbol? head.1 d.name with
    | some σ =>
      rw [accept_taken hopen hs]
      exact accept_taken (b := b.withCatalog catalog) hopen hs
    | none =>
      rw [accept_free hopen hs]
      exact accept_free (b := b.withCatalog catalog) hopen hs

theorem simulation_withCatalog : Simulation fun b b' => b' = b.withCatalog catalog where
  accept b b' d hb := by rw [hb, accept_withCatalog]
  openBlock b b' d hb := by
    rw [hb]
    rfl
  closeBlock b b' c c' _ hc _ _ := by
    rw [hc]
    rfl

end Builder

namespace Derivation

variable (s : Derivation) (catalog : Catalog)

def withCatalog : Derivation := { s with symbols := s.symbols.withCatalog catalog }

theorem declare_withCatalog (id : ObjectId) (o : ObjectType) (plan : DerivedRole × MemberSet) :
    declare id o (s.withCatalog catalog) plan = (declare id o s plan).withCatalog catalog := by
  unfold declare withCatalog
  dsimp only
  split
  · rfl
  · split
    · rfl
    · split <;> rfl

theorem simulation_withCatalog :
    Simulation (fun s s' => s' = s.withCatalog catalog) fun _ o o' => o' = o where
  slots s s' hs := hs ▸ rfl
  objects s s' id o o' hs ho ho' := by
    subst hs
    obtain rfl : o = o' := Option.some.inj (ho.symm.trans ho')
    exact ⟨rfl, fun _ => rfl⟩
  roles id o o' ho := by rw [ho]
  declare s s' id o o' plan hs ho _ := by rw [hs, ho, declare_withCatalog]

theorem run_withCatalog : (s.withCatalog catalog).run = s.run.withCatalog catalog :=
  (simulation_withCatalog catalog).run rfl

end Derivation

namespace Workspace

/-- The workspace over another catalog. Store and report, and entries and imports of the name table,
are as they were. -/
def withCatalog (w : Workspace) (catalog : Catalog) : Workspace :=
  { w with symbols := w.symbols.withCatalog catalog }

variable {w : Workspace} {catalog : Catalog}

theorem analyzed_withCatalog
    (h : ∀ key ∈ w.store.keys, w.symbols.get? key = none →
      catalog.get? key = w.symbols.catalog.get? key) :
    (w.withCatalog catalog).analyzed = w.analyzed.withCatalog catalog := by
  have hbound : (w.withCatalog catalog).boundSymbols = w.boundSymbols.withCatalog catalog :=
    NameTable.lookupAll_withCatalog h
  rw [analyzed_eq, analyzed_eq, hbound]
  rfl

theorem deriveInterfaces_withCatalog (w : Workspace) (catalog : Catalog) :
    (w.withCatalog catalog).deriveInterfaces.1 = w.deriveInterfaces.1.withCatalog catalog := by
  have hrun : (w.withCatalog catalog).derivation.run = w.derivation.run.withCatalog catalog :=
    Derivation.run_withCatalog w.derivation catalog
  rw [deriveInterfaces_eq, hrun]
  rfl

theorem finished_withCatalog (w : Workspace) (catalog : Catalog) :
    (w.withCatalog catalog).finished = w.finished.withCatalog catalog := by
  have hchecked : (w.withCatalog catalog).checkMembers.1 = w.checkMembers.1.withCatalog catalog := rfl
  unfold finished
  rw [hchecked, show (w.withCatalog catalog).settings = w.settings from rfl]
  cases w.settings.validatesMembers <;> cases w.settings.derivesInterfaces <;>
    first | rfl | exact deriveInterfaces_withCatalog _ catalog

end Workspace

variable (settings : Settings) (catalog catalog' : Catalog) (u : Decl.Unit)

theorem declared_withCatalog :
    declared settings catalog' u = (declared settings catalog u).withCatalog catalog' := by
  have hbuild := (Builder.simulation_withCatalog catalog').items u.items
    (Workspace.ofCatalog settings catalog).builder _ rfl
  have hstart : (Workspace.ofCatalog settings catalog').builder =
      (Workspace.ofCatalog settings catalog).builder.withCatalog catalog' := rfl
  unfold declared
  rw [Workspace.declare_eq, Workspace.declare_eq, hstart, hbuild]
  rfl

namespace Decl.Unit

/-- The keys under which the references of a source file are looked up. -/
def keys : List String := (declared settings {} u).store.keys

/-- Whether a source file declares a type of the dotted name. -/
def declares (name : String) : Bool := (declared settings {} u).symbols.contains name

end Decl.Unit

/-- Two catalogs that agree on every key of a reference that names no declaration give the same store,
report, entries and imports. In particular an import named like a declaration, or like no key, changes
nothing. -/
theorem compile_withCatalog :
    ((∀ key ∈ u.keys settings, u.declares settings key = false →
        catalog'.get? key = catalog.get? key) →
      compile settings catalog' u = (compile settings catalog u).withCatalog catalog') ∧
    ∀ i : Import, (u.declares settings i.name = true ∨ i.name ∉ u.keys settings) →
      compile settings (catalog.insertNew i) u =
        (compile settings catalog u).withCatalog (catalog.insertNew i) := by
  have hagree : ∀ other : Catalog,
      (∀ key ∈ u.keys settings, u.declares settings key = false →
        other.get? key = catalog.get? key) →
      compile settings other u = (compile settings catalog u).withCatalog other := by
    intro other h
    by_cases herrors : u.syntaxErrors = 0
    · rw [compile_eq_finished settings other u herrors,
        compile_eq_finished settings catalog u herrors, declared_withCatalog settings catalog other u,
        ← Workspace.finished_withCatalog, Workspace.analyzed_withCatalog]
      intro key hkey hnone
      rw [declared_withCatalog settings {} catalog u] at hkey hnone ⊢
      exact h key hkey (Option.isSome_eq_false_iff.2 (Option.isNone_iff_eq_none.2 hnone))
    · have hpos : u.syntaxErrors > 0 := Nat.pos_of_ne_zero herrors
      rw [compile_syntaxErrors settings other u hpos, compile_syntaxErrors settings catalog u hpos]
      rfl
  refine ⟨hagree catalog', ?_⟩
  intro i hi
  apply hagree
  intro key hkey hfree
  rw [Catalog.get?_insertNew]
  split
  · next heq =>
    subst heq
    rcases hi with hdeclared | hnot
    · rw [hdeclared] at hfree
      exact absurd hfree (by simp)
    · exact absurd hkey hnot
  · rfl

/-- Two structs, one of which holds the other and an imported one. -/
def harbor : Decl.Unit where
  syntaxErrors := 0
  blocks := [⟨"Port", 1, [
    .type (.structDecl ⟨"Berth", 2, [⟨"depth", 3, "Depth"⟩, ⟨"flag", 4, "Sea.Flag"⟩]⟩),
    .type (.structDecl ⟨"Depth", 5, [⟨"meters", 6, "Int32"⟩]⟩)]⟩]

/-- The one import that `harbor` needs. -/
def flagged : Catalog := .ofList [⟨"Sea.Flag", .struct, none, "sea"⟩]

/-- With `flagged`, an import that a declaration of `harbor` hides and one that nothing names. -/
def charted : Catalog :=
  .ofList [⟨"Port.Depth", .runtimeClass, none, "port"⟩, ⟨"Sea.Flag", .struct, none, "sea"⟩,
    ⟨"Sea.Tide", .interface, none, "sea"⟩]

theorem compile_withCatalog_harbor :
    charted.get? "Port.Depth" ≠ flagged.get? "Port.Depth" ∧
      (∀ key ∈ harbor.keys {}, harbor.declares {} key = false →
        charted.get? key = flagged.get? key) ∧
      compile {} charted harbor = (compile {} flagged harbor).withCatalog charted ∧
      compile {} (flagged.insertNew ⟨"Port.Berth", .enum, none, "port"⟩) harbor =
        (compile {} flagged harbor).withCatalog
          (flagged.insertNew ⟨"Port.Berth", .enum, none, "port"⟩) := by
  have hagree : ∀ key ∈ harbor.keys {}, harbor.declares {} key = false →
      charted.get? key = flagged.get? key := by decide +kernel
  have hdeclared : harbor.declares {} "Port.Berth" = true := by decide +kernel
  have hover := compile_withCatalog {} flagged charted harbor
  exact ⟨by decide +kernel, hagree, hover.1 hagree, hover.2 _ (Or.inl hdeclared)⟩

end ComponentIdl
