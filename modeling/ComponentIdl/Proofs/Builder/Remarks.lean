import ComponentIdl.Proofs.Builder.Step

/-!
# What a build reports and counts

A build looks up no reference, so all that it reports is of the kinds of errors that a declaration
shows by itself or beside its neighbours. A visit adds a declaration and counts it, or passes one over,
reports its name and counts that, or does neither.
-/

namespace ComponentIdl

/-- The kinds of errors that are found while types and members are declared. -/
def Diagnostic.Kind.isOfDeclaration : Diagnostic.Kind → Bool
  | .duplicateNamespaceMember | .duplicateTypeMember | .duplicateField
  | .invalidPropertyAccessor | .duplicatePropertyAccessor | .repeatedPropertyAccessor
  | .conflictingEventAccessor | .namespaceCaseConflict => true
  | _ => false

/-- The kinds of errors that are found in a member, or in the name of a block. -/
def Diagnostic.Kind.isOfPart : Diagnostic.Kind → Bool
  | .duplicateTypeMember | .duplicateField | .invalidPropertyAccessor | .duplicatePropertyAccessor
  | .repeatedPropertyAccessor | .conflictingEventAccessor | .namespaceCaseConflict => true
  | _ => false

/-- All of the diagnostics are of kinds found while declaring. -/
def OfDeclarations (found : List Diagnostic) : Prop := ∀ d ∈ found, d.kind.isOfDeclaration = true

/-- All of the diagnostics are about members or names of blocks. -/
def OfParts (found : List Diagnostic) : Prop := ∀ d ∈ found, d.kind.isOfPart = true

variable {found more : List Diagnostic} {kind : Diagnostic.Kind}

theorem ofDeclarations_nil : OfDeclarations [] := fun _ hd => absurd hd List.not_mem_nil

theorem ofParts_nil : OfParts [] := fun _ hd => absurd hd List.not_mem_nil

theorem OfParts.append (h : OfParts found) (h' : OfParts more) : OfParts (found ++ more) := by
  intro d hd
  rcases List.mem_append.1 hd with hd | hd
  · exact h d hd
  · exact h' d hd

theorem OfParts.concat (h : OfParts found) (hk : kind.isOfPart = true) (line : Nat)
    (symbol : String) : OfParts (found ++ [.of kind line symbol]) := by
  refine h.append fun d hd => ?_
  rw [List.mem_singleton.1 hd]
  exact hk

theorem ofParts_one (hk : kind.isOfPart = true) (line : Nat) (symbol : String) :
    OfParts [.of kind line symbol] :=
  ofParts_nil.concat hk line symbol

theorem isOfDeclaration_of_isOfPart (h : kind.isOfPart = true) : kind.isOfDeclaration = true := by
  cases kind <;> first | rfl | exact absurd h Bool.false_ne_true

theorem OfParts.countP_eq_zero (h : OfParts found) :
    (found.countP fun d => d.kind == .duplicateNamespaceMember) = 0 := by
  rw [List.countP_eq_zero]
  intro d hd heq
  have hpart := h d hd
  rw [beq_iff_eq.1 heq] at hpart
  exact absurd hpart Bool.false_ne_true

/-- All of the diagnostics are about accessors asked for twice, or about words that ask for none. -/
def OfAccessors (found : List Diagnostic) : Prop :=
  ∀ d ∈ found, d.kind = .duplicatePropertyAccessor ∨ d.kind = .invalidPropertyAccessor

theorem ofAccessors_nil : OfAccessors [] := fun _ hd => absurd hd List.not_mem_nil

theorem OfAccessors.concat (h : OfAccessors found)
    (hk : kind = .duplicatePropertyAccessor ∨ kind = .invalidPropertyAccessor) (line : Nat)
    (symbol : String) : OfAccessors (found ++ [.of kind line symbol]) :=
  List.forall_mem_append.2 ⟨h, fun _ hd => List.mem_singleton.1 hd ▸ hk⟩

theorem AccessorRequest.ofAccessors_ofDecl (p : Decl.Property) :
    OfAccessors (AccessorRequest.ofDecl p).found := by
  have hread : ∀ (request : AccessorRequest) a, OfAccessors request.found →
      OfAccessors (read p request a).found := by
    intro request a h
    have hask : ∀ role, OfAccessors (request.ask p role a.line).found := by
      intro role
      unfold ask
      split
      · exact h.concat (Or.inl rfl) _ _
      · exact h
    have hreject : OfAccessors (request.reject p).found := h.concat (Or.inr rfl) _ _
    unfold read
    split
    · exact hask _
    · exact hask _
    · exact hreject
  have hbody : ∀ (body : List Decl.Accessor) (request : AccessorRequest),
      OfAccessors request.found → OfAccessors (body.foldl (read p) request).found := by
    intro body
    induction body with
    | nil => exact fun _ h => h
    | cons a body ih => exact fun request h => ih _ (hread request a h)
  unfold ofDecl
  split
  · exact ofAccessors_nil
  · exact ofAccessors_nil.concat (Or.inr rfl) _ _
  · exact hbody _ _ ofAccessors_nil

theorem AccessorRequest.ofParts_ofDecl (p : Decl.Property) :
    OfParts (AccessorRequest.ofDecl p).found := by
  intro d hd
  rcases ofAccessors_ofDecl p d hd with hkind | hkind <;> rw [hkind] <;> rfl

theorem ObjectType.kind_addFragment {o : ObjectType} {p : Decl.Property} {count : Nat}
    {asked : List (PropertyRole × Nat)} (h : o.addFragment p count asked = .error kind) :
    kind = .duplicateTypeMember ∨ kind = .repeatedPropertyAccessor := by
  unfold addFragment at h
  dsimp only at h
  repeat' split at h
  all_goals first
    | (cases h; exact Or.inl rfl)
    | (cases h; exact Or.inr rfl)
    | exact absurd h (by simp)

theorem ObjectType.isOfPart_addFragment {o : ObjectType} {p : Decl.Property} {count : Nat}
    {asked : List (PropertyRole × Nat)} (h : o.addFragment p count asked = .error kind) :
    kind.isOfPart = true := by
  rcases kind_addFragment h with rfl | rfl <;> rfl

theorem ObjectType.kind_missingGetters (o : ObjectType) (malformed : List String) :
    ∀ d ∈ o.missingGetters malformed, d.kind = .invalidPropertyAccessor := by
  intro d hd
  obtain ⟨p, -, rfl⟩ := List.mem_map.1 hd
  rfl

theorem ObjectType.ofParts_missingGetters (o : ObjectType) (malformed : List String) :
    OfParts (o.missingGetters malformed) := by
  intro d hd
  rw [o.kind_missingGetters malformed d hd]
  rfl

/-- All that is reported on opening a namespace is that siblings differ by case only. -/
theorem Opening.kind_foldl (line : Nat) {o : Opening} (segments : List String)
    (h : ∀ d ∈ o.found, d.kind = .namespaceCaseConflict) :
    ∀ d ∈ (segments.foldl (Opening.enter line) o).found, d.kind = .namespaceCaseConflict := by
  induction segments generalizing o with
  | nil => exact h
  | cons segment segments ih =>
    apply ih
    unfold enter
    dsimp only
    split
    · exact List.forall_mem_append.2 ⟨h, fun d hd => List.mem_singleton.1 hd ▸ rfl⟩
    · exact h

theorem Opening.ofParts_foldl (line : Nat) {o : Opening} (segments : List String)
    (h : ∀ d ∈ o.found, d.kind = .namespaceCaseConflict) :
    OfParts (segments.foldl (Opening.enter line) o).found := by
  intro d hd
  rw [kind_foldl line segments h d hd]
  rfl

namespace Builder

variable {b b' : Builder}

/-- What a visit adds to the store, to what is found and to the tally. -/
inductive Counts (b b' : Builder) : Prop where
  | part (more : List Diagnostic) (ofParts : OfParts more) (found : b'.found = b.found ++ more)
      (size : b'.store.size = b.store.size)
      (declarations : b'.tally.declarations = b.tally.declarations)
      (skipped : b'.tally.skipped = b.tally.skipped)
  | declared (found : b'.found = b.found) (size : b'.store.size = b.store.size + 1)
      (declarations : b'.tally.declarations = b.tally.declarations + 1)
      (skipped : b'.tally.skipped = b.tally.skipped)
  | skipped (line : Nat) (name : String)
      (found : b'.found = b.found ++ [.of .duplicateNamespaceMember line name])
      (size : b'.store.size = b.store.size)
      (declarations : b'.tally.declarations = b.tally.declarations)
      (skipped : b'.tally.skipped = b.tally.skipped + 1)

theorem Counts.silent (found : b'.found = b.found) (size : b'.store.size = b.store.size)
    (tally : b'.tally = b.tally) : b.Counts b' :=
  .part [] ofParts_nil (by rw [found, List.append_nil]) size (by rw [tally]) (by rw [tally])

theorem Counts.one (hk : kind.isOfPart = true) (line : Nat) (name : String)
    (found : b'.found = b.found ++ [.of kind line name]) (size : b'.store.size = b.store.size)
    (tally : b'.tally = b.tally) : b.Counts b' :=
  .part _ (ofParts_one hk line name) found size (by rw [tally]) (by rw [tally])

/-- Only store, diagnostics and tally matter. -/
theorem Counts.congr {b'' : Builder} (h : b.Counts b') (found : b''.found = b'.found)
    (store : b''.store = b'.store) (tally : b''.tally = b'.tally) : b.Counts b'' := by
  cases h with
  | part more ofParts hfound size declarations skipped =>
    exact .part more ofParts (found.trans hfound) (store ▸ size) (tally ▸ declarations)
      (tally ▸ skipped)
  | declared hfound size declarations skipped =>
    exact .declared (found.trans hfound) (store ▸ size) (tally ▸ declarations) (tally ▸ skipped)
  | skipped line name hfound size declarations skipped =>
    exact .skipped line name (found.trans hfound) (store ▸ size) (tally ▸ declarations)
      (tally ▸ skipped)

theorem size_add (st : Store) (e : Entity) : (st.add e).size = st.size + 1 := by
  cases e <;> simp only [Store.add, Store.size, Array.size_push] <;> omega

theorem size_declare (st : Store) (node : NamespaceId) (block : Nat) (name : String) (e : Entity) :
    (st.declare node block name e).size = st.size + 1 := by
  rw [← size_add st e]
  unfold Store.declare
  split <;> rfl

theorem size_modifyObject (st : Store) (id : ObjectId) (f : ObjectType → ObjectType) :
    (st.modifyObject id f).size = st.size := by
  simp only [Store.modifyObject, Store.size, Array.size_modify]

theorem size_modifyStruct (st : Store) (id : StructId) (f : StructType → StructType) :
    (st.modifyStruct id f).size = st.size := by
  simp only [Store.modifyStruct, Store.size, Array.size_modify]

theorem size_modifyEnum (st : Store) (id : EnumId) (f : EnumType → EnumType) :
    (st.modifyEnum id f).size = st.size := by
  simp only [Store.modifyEnum, Store.size, Array.size_modify]

theorem counts_declare (b : Builder) (name : String) (line : Nat) (make : Header → Entity) :
    b.Counts (b.declare name line make).1 := by
  unfold declare
  split
  · exact .silent rfl rfl rfl
  · dsimp only
    split
    · exact .skipped _ _ rfl rfl rfl rfl
    · exact .declared rfl (size_declare ..) rfl rfl

theorem counts_closeObject (b : Builder) : b.Counts b.closeObject := by
  unfold closeObject
  split
  · split
    · next o _ => exact .part _ (o.ofParts_missingGetters b.malformed) rfl rfl rfl rfl
    · exact .silent rfl rfl rfl
  · exact .silent rfl rfl rfl

theorem counts_addProperty (b : Builder) (d : Decl.Property) : b.Counts (b.addProperty d) := by
  have hrequest := AccessorRequest.ofParts_ofDecl d
  unfold addProperty
  split
  · dsimp only
    split
    · exact .part _ hrequest rfl rfl rfl rfl
    · split
      · next herror =>
        exact .part _ (hrequest.concat (ObjectType.isOfPart_addFragment herror) d.line d.name)
          (List.append_assoc ..) rfl rfl rfl
      · exact .part _ hrequest rfl (size_modifyObject ..) rfl rfl
  · exact .silent rfl rfl rfl

theorem counts_addEvent (b : Builder) (d : Decl.Event) : b.Counts (b.addEvent d) := by
  unfold addEvent
  split
  · split
    · exact .silent rfl rfl rfl
    · split
      · exact .one rfl _ _ rfl rfl rfl
      · dsimp only
        split
        · exact .one rfl _ _ rfl (size_modifyObject ..) rfl
        · exact .silent rfl (size_modifyObject ..) rfl
  · exact .silent rfl rfl rfl

theorem counts_addField (b : Builder) (d : Decl.Field) : b.Counts (b.addField d) := by
  unfold addField
  split
  · split
    · exact .silent rfl rfl rfl
    · split
      · exact .one rfl _ _ rfl rfl rfl
      · exact .silent rfl (size_modifyStruct ..) rfl
  · exact .silent rfl rfl rfl

theorem counts_addEnumMember (b : Builder) (d : Decl.EnumMember) :
    b.Counts (b.addEnumMember d) := by
  unfold addEnumMember
  split
  · split
    · exact .silent rfl rfl rfl
    · split
      · exact .one rfl _ _ rfl rfl rfl
      · exact .silent rfl (size_modifyEnum ..) rfl
  · exact .silent rfl rfl rfl

theorem counts_openBlock (b : Builder) (d : Decl.Block) : b.Counts (b.openBlock d) := by
  have hsize : (b.openBlock d).store.size = b.store.size := by
    obtain ⟨hobjects, hstructs, henums, hdelegates⟩ := b.slots_openBlock d
    unfold Store.size
    rw [hobjects, hstructs, henums, hdelegates]
  have hnone : ∀ r ∈ ([] : List Diagnostic), r.kind = .namespaceCaseConflict :=
    fun _ hr => absurd hr List.not_mem_nil
  exact .part _ (Opening.ofParts_foldl d.line _ hnone) rfl hsize rfl rfl

theorem counts_visit (b : Builder) (v : Visit) : b.Counts (b.visit v) := by
  cases v with
  | openUnit d => exact .silent rfl rfl rfl
  | closeUnit d => exact .silent rfl rfl rfl
  | openBlock d => exact counts_openBlock b d
  | closeBlock d => exact .silent rfl rfl rfl
  | openClass d => exact (counts_declare ..).congr rfl rfl rfl
  | closeClass d => exact counts_closeObject b
  | openInterface d => exact (counts_declare ..).congr rfl rfl rfl
  | closeInterface d => exact counts_closeObject b
  | openStruct d => exact (counts_declare ..).congr rfl rfl rfl
  | closeStruct d => exact .silent rfl rfl rfl
  | openEnum d => exact (counts_declare ..).congr rfl rfl rfl
  | closeEnum d => exact .silent rfl rfl rfl
  | openDelegate d => exact counts_declare ..
  | closeDelegate d => exact .silent rfl rfl rfl
  | enumMember d => exact counts_addEnumMember b d
  | field d => exact counts_addField b d
  | method d =>
    simp only [visit, addMethod]
    split
    · exact .silent rfl (size_modifyObject ..) rfl
    · exact .silent rfl rfl rfl
  | property d => exact counts_addProperty b d
  | event d => exact counts_addEvent b d
  | constructor d =>
    simp only [visit, addConstructor]
    split
    · exact .silent rfl (size_modifyObject ..) rfl
    · exact .silent rfl rfl rfl

theorem Counts.ofDeclarations (h : b.Counts b') (hb : OfDeclarations b.found) :
    OfDeclarations b'.found := by
  have hadd : ∀ more, OfDeclarations more → OfDeclarations (b.found ++ more) := by
    intro more hmore d hd
    rcases List.mem_append.1 hd with hd | hd
    · exact hb d hd
    · exact hmore d hd
  cases h with
  | part more ofParts found _ _ _ =>
    rw [found]
    exact hadd more fun d hd => isOfDeclaration_of_isOfPart (ofParts d hd)
  | declared found _ _ _ =>
    rw [found]
    exact hb
  | skipped line name found _ _ _ =>
    rw [found]
    refine hadd _ fun d hd => ?_
    rw [List.mem_singleton.1 hd]
    rfl

theorem ofDeclarations_run (h : OfDeclarations b.found) (visits : List Visit) :
    OfDeclarations (b.run visits).found :=
  run_preserves (P := fun b => OfDeclarations b.found) visits
    (fun v _ b hb => (counts_visit b v).ofDeclarations hb) h

/-- The tally of a build that started with `n` declarations. -/
structure Tallied (n : Nat) (b : Builder) : Prop where
  declarations : b.store.size = n + b.tally.declarations
  skipped : b.tally.skipped = b.found.countP fun d => d.kind == .duplicateNamespaceMember

theorem Tallied.counts {n : Nat} (h : b.Tallied n) (hc : b.Counts b') : b'.Tallied n := by
  have hdeclarations := h.declarations
  have hskipped := h.skipped
  cases hc with
  | part more ofParts found size declarations skipped =>
    refine ⟨by omega, ?_⟩
    rw [found, List.countP_append, ofParts.countP_eq_zero, Nat.add_zero, skipped, hskipped]
  | declared found size declarations skipped =>
    exact ⟨by omega, by rw [found, skipped, hskipped]⟩
  | skipped line name found size declarations skipped =>
    refine ⟨by omega, ?_⟩
    rw [found, List.countP_append, skipped, hskipped]
    rfl

/-- A build counts the declarations that it adds, and the diagnostics for those it passes over. -/
theorem Tallied.run {n : Nat} (h : b.Tallied n) (visits : List Visit) :
    (b.run visits).Tallied n :=
  run_preserves visits (fun v _ b hb => hb.counts (counts_visit b v)) h

end Builder

end ComponentIdl
