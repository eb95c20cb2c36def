import ComponentIdl.Binding
import ComponentIdl.Proofs.Binding.Image
import ComponentIdl.Proofs.NameTable

/-!
# What binding does

The binder threads a name table through the store. Nothing it makes depends on how far it has come:
with the table it ends with, or any that grows from it, every declaration becomes its image and every
fault is reported.
-/

namespace ComponentIdl

namespace Binder

/-- A binding function looks up the keys, makes the image under every table that grows from the one
it leaves, and reports the faults under it. -/
structure Binds {α : Type} (f : Binder → α → α × Binder) (keys : α → List String)
    (image : NameTable → α → α) (faults : NameTable → α → List Diagnostic) : Prop where
  symbols : ∀ s x, (f s x).2.symbols = s.symbols.lookupAll (keys x)
  image : ∀ s x t, (f s x).2.symbols.Grows t → (f s x).1 = image t x
  found : ∀ s x t, (f s x).2.symbols.Grows t → (f s x).2.found = s.found ++ faults t x

section Binds

variable {α : Type} {f : Binder → α → α × Binder} {keys : α → List String}
  {image : NameTable → α → α} {faults : NameTable → α → List Diagnostic}

theorem Binds.grows (h : Binds f keys image faults) (s : Binder) (x : α) :
    s.symbols.Grows (f s x).2.symbols := ⟨keys x, h.symbols s x⟩

theorem Binds.threadMap (h : Binds f keys image faults) :
    Binds (threadMap f) (fun xs => xs.flatMap keys) (fun t xs => xs.map (image t))
      (fun t xs => xs.flatMap (faults t)) := by
  have hsymbols : ∀ s xs, (ComponentIdl.threadMap f s xs).2.symbols
      = s.symbols.lookupAll (xs.flatMap keys) := by
    intro s xs
    induction xs generalizing s with
    | nil => rfl
    | cons x xs ih =>
      rw [List.flatMap_cons, NameTable.lookupAll_append, ← h.symbols s x, ← ih]
      rfl
  -- The table after the head of a list is one from which the table after its tail grows.
  have hhead : ∀ s x xs t, (ComponentIdl.threadMap f s (x :: xs)).2.symbols.Grows t →
      (f s x).2.symbols.Grows t := by
    intro s x xs t ht
    have htail : (f s x).2.symbols.Grows (ComponentIdl.threadMap f (f s x).2 xs).2.symbols :=
      ⟨_, hsymbols (f s x).2 xs⟩
    exact htail.trans ht
  refine ⟨hsymbols, ?_, ?_⟩
  · intro s xs t ht
    induction xs generalizing s with
    | nil => rfl
    | cons x xs ih =>
      have hx := h.image s x t (hhead s x xs t ht)
      have hxs := ih (f s x).2 ht
      rw [List.map_cons, ← hx, ← hxs]
      rfl
  · intro s xs t ht
    induction xs generalizing s with
    | nil => simp [ComponentIdl.threadMap]
    | cons x xs ih =>
      have hx := h.found s x t (hhead s x xs t ht)
      have hxs := ih (f s x).2 ht
      rw [List.flatMap_cons, ← List.append_assoc, ← hx, ← hxs]
      rfl

theorem Binds.both {β : Type} {g : Binder → β → β × Binder} {gkeys : β → List String}
    {gimage : NameTable → β → β} {gfaults : NameTable → β → List Diagnostic}
    (h : Binds f keys image faults) (hg : Binds g gkeys gimage gfaults) :
    Binds (fun s (x : α × β) => (((f s x.1).1, (g (f s x.1).2 x.2).1), (g (f s x.1).2 x.2).2))
      (fun x => keys x.1 ++ gkeys x.2) (fun t x => (image t x.1, gimage t x.2))
      (fun t x => faults t x.1 ++ gfaults t x.2) := by
  have hfirst : ∀ s (x : α × β) t, (g (f s x.1).2 x.2).2.symbols.Grows t →
      (f s x.1).2.symbols.Grows t := fun s x t ht => (hg.grows (f s x.1).2 x.2).trans ht
  refine ⟨?_, ?_, ?_⟩
  · intro s x
    rw [NameTable.lookupAll_append, ← h.symbols s x.1, ← hg.symbols _ x.2]
  · intro s x t ht
    rw [← h.image s x.1 t (hfirst s x t ht), ← hg.image _ x.2 t ht]
  · intro s x t ht
    rw [← List.append_assoc, ← h.found s x.1 t (hfirst s x t ht), ← hg.found _ x.2 t ht]

theorem Binds.part {β : Type} {f : β → Binder → α → α × Binder} {keys : β → α → List String}
    {image : β → NameTable → α → α} {faults : β → NameTable → α → List Diagnostic}
    (h : ∀ x, Binds (f x) (keys x) (image x) (faults x)) (get : β → α) (put : β → α → β) :
    Binds (fun s x => (put x (f x s (get x)).1, (f x s (get x)).2)) (fun x => keys x (get x))
      (fun t x => put x (image x t (get x))) (fun t x => faults x t (get x)) := by
  refine ⟨fun s x => (h x).symbols s (get x), ?_, fun s x => (h x).found s (get x)⟩
  intro s x t ht
  rw [← (h x).image s (get x) t ht]

end Binds

section Reference

variable {scope : String} {line : Nat} {reports : Bool} {s : Binder} {r : Reference}

theorem symbols_bindReference (hb : r.isBound = false) :
    (bindReference scope line reports s r).2.symbols
      = (s.symbols.lookup (absoluteName scope r.text)).2 := by
  unfold bindReference
  simp only [hb, Bool.false_eq_true, if_false, lookup]
  cases (s.symbols.lookup (absoluteName scope r.text)).1 <;> cases reports <;> rfl

theorem symbols_bindRequired (hb : r.isBound = false) :
    (bindRequired scope line s r).2.symbols = (s.symbols.lookup (absoluteName scope r.text)).2 := by
  unfold bindRequired
  simp only [hb, Bool.false_eq_true, if_false, lookup]
  cases (s.symbols.lookup (absoluteName scope r.text)).1 with
  | none => rfl
  | some symbol => by_cases hi : symbol.isInterface <;> simp [hi, countBound, report]

end Reference

theorem binds_reference (scope : String) (line : Nat) (reports : Bool) :
    Binds (bindReference scope line reports) (Reference.keys scope)
      (fun t => Reference.boundIn t scope)
      (fun t r => if reports then r.faults t scope line else []) := by
  refine ⟨?_, ?_, ?_⟩
  · intro s r
    cases hb : r.isBound with
    | true => simp [bindReference, Reference.keys, hb]
    | false =>
      rw [symbols_bindReference hb]
      simp [Reference.keys, hb]
  · intro s r t ht
    cases hb : r.isBound with
    | true => simp [bindReference, Reference.boundIn, hb]
    | false =>
      rw [symbols_bindReference hb] at ht
      have hanswer := ht.answer
      simp only [bindReference, Reference.boundIn, hb, hanswer, lookup, Bool.false_eq_true, if_false]
      cases (s.symbols.lookup (absoluteName scope r.text)).1 <;> rfl
  · intro s r t ht
    cases hb : r.isBound with
    | true => simp [bindReference, Reference.faults, hb]
    | false =>
      rw [symbols_bindReference hb] at ht
      have hanswer := ht.answer
      simp only [bindReference, Reference.faults, hb, hanswer, lookup, Bool.false_eq_true, if_false]
      cases (s.symbols.lookup (absoluteName scope r.text)).1 <;> cases reports <;>
        simp [countBound, countUnbound, report]

theorem binds_required (scope : String) (line : Nat) :
    Binds (bindRequired scope line) (Reference.keys scope) (fun t => Reference.requiredIn t scope)
      (fun t => Reference.requiredFaults t scope line) := by
  refine ⟨?_, ?_, ?_⟩
  · intro s r
    cases hb : r.isBound with
    | true => simp [bindRequired, Reference.keys, hb]
    | false =>
      rw [symbols_bindRequired hb]
      simp [Reference.keys, hb]
  · intro s r t ht
    cases hb : r.isBound with
    | true => simp [bindRequired, Reference.requiredIn, hb]
    | false =>
      rw [symbols_bindRequired hb] at ht
      have hanswer := ht.answer
      simp only [bindRequired, Reference.requiredIn, hb, hanswer, lookup, Bool.false_eq_true, if_false]
      cases (s.symbols.lookup (absoluteName scope r.text)).1 with
      | none => rfl
      | some symbol => by_cases hi : symbol.isInterface <;> simp [hi]
  · intro s r t ht
    cases hb : r.isBound with
    | true => simp [bindRequired, Reference.requiredFaults, hb]
    | false =>
      rw [symbols_bindRequired hb] at ht
      have hanswer := ht.answer
      simp only [bindRequired, Reference.requiredFaults, hb, hanswer, lookup, Bool.false_eq_true,
        if_false]
      cases (s.symbols.lookup (absoluteName scope r.text)).1 with
      | none => simp [countUnbound, report]
      | some symbol => by_cases hi : symbol.isInterface <;> simp [hi, countBound, report]

section Members

variable (scope : String) (line : Nat) (reports : Bool)

theorem binds_parameter :
    Binds (bindParameter scope line reports) (fun p => p.type.keys scope)
      (fun t => Parameter.boundIn t scope)
      (fun t p => if reports then p.type.faults t scope line else []) :=
  Binds.part (fun _ : Parameter => binds_reference scope line reports) Parameter.type
    fun p type => { p with type }

theorem binds_result :
    Binds (bindResult scope line reports) (fun r => r.toList.flatMap (Reference.keys scope))
      (fun t r => r.map (Reference.boundIn t scope))
      (fun t r => r.toList.flatMap fun r => if reports then r.faults t scope line else []) := by
  have h := binds_reference scope line reports
  refine ⟨?_, ?_, ?_⟩
  · intro s r
    cases r with
    | none => rfl
    | some r => simpa [bindResult] using h.symbols s r
  · intro s r t ht
    cases r with
    | none => rfl
    | some r =>
      have htype := h.image s r t ht
      show some _ = some (r.boundIn t scope)
      rw [htype]
  · intro s r t ht
    cases r with
    | none => simp [bindResult]
    | some r => simpa [bindResult] using h.found s r t ht

theorem binds_signature :
    Binds (fun s (x : Option Reference × List Parameter) =>
        let result := bindResult scope line reports s x.1
        let parameters := threadMap (bindParameter scope line reports) result.2 x.2
        ((result.1, parameters.1), parameters.2))
      (fun x => (x.1.toList ++ x.2.map Parameter.type).flatMap (Reference.keys scope))
      (fun t x => (x.1.map (Reference.boundIn t scope), x.2.map (Parameter.boundIn t scope)))
      (fun t x => if reports then
        (x.1.toList ++ x.2.map Parameter.type).flatMap (Reference.faults t scope line) else []) := by
  have h := (binds_result scope line reports).both (binds_parameter scope line reports).threadMap
  refine ⟨?_, h.image, ?_⟩
  · intro s x
    rw [List.flatMap_append, List.flatMap_map]
    exact h.symbols s x
  · intro s x t ht
    have hfound := h.found s x t ht
    cases reports with
    | true => simpa [List.flatMap_map] using hfound
    | false =>
      have hnone : ∀ {α : Type} (l : List α), l.flatMap (fun _ => ([] : List Diagnostic)) = [] :=
        fun l => List.flatMap_eq_nil_iff.2 fun _ _ => rfl
      simpa [hnone] using hfound

theorem binds_method :
    Binds (bindMethod scope) (Method.keys scope) (fun t => Method.boundIn t scope)
      (fun t => Method.faults t scope) := by
  have h := Binds.part (fun m : Method => binds_signature scope m.line m.isWritten)
    (fun m => (m.result, m.parameters)) (fun m x => { m with result := x.1, parameters := x.2 })
  exact h

theorem binds_property :
    Binds (bindProperty scope) (fun p => p.type.keys scope) (fun t => Property.boundIn t scope)
      (fun t => Property.faults t scope) := by
  have h := Binds.part (fun p : Property => binds_reference scope p.line true) Property.type
    (fun p type => { p with type })
  exact h

theorem binds_field :
    Binds (bindField scope) (fun f => f.type.keys scope) (fun t => Field.boundIn t scope)
      (fun t => Field.faults t scope) := by
  have h := Binds.part (fun f : Field => binds_reference scope f.line true) Field.type
    (fun f type => { f with type })
  exact h

-- The type is looked up twice; the second look-up starts from the same table, so it answers alike.
theorem binds_event :
    Binds (bindEvent scope) (fun e => e.type.keys scope) (fun t => Event.boundIn t scope)
      (fun t => Event.faults t scope) := by
  have href := fun e : Event => binds_reference scope e.line true
  have hsymbols : ∀ s e, (bindEvent scope s e).2.symbols
      = (bindReference scope e.line true s e.type).2.symbols := by
    intro s e
    unfold bindEvent
    dsimp only
    split <;> rfl
  refine ⟨?_, ?_, ?_⟩
  · intro s e
    rw [hsymbols, (href e).symbols]
  · intro s e t ht
    rw [hsymbols] at ht
    have htype := (href e).image s e.type t ht
    show { e with type := _ } = e.boundIn t scope
    rw [htype]
    rfl
  · intro s e t ht
    rw [hsymbols] at ht
    have hfound := (href e).found s e.type t ht
    have hmisfit : (!e.type.isBound && (s.lookup (absoluteName scope e.type.text)).1.any
        fun symbol => !symbol.isDelegate)
        = (!e.type.isBound && (t.get? (absoluteName scope e.type.text)).any
          fun symbol => !symbol.isDelegate) := by
      cases hb : e.type.isBound with
      | true => rfl
      | false =>
        rw [symbols_bindReference hb] at ht
        rw [ht.answer]
        rfl
    unfold bindEvent Event.faults
    dsimp only
    rw [hmisfit]
    split
    · rw [← List.append_assoc]
      exact congrArg (· ++ _) hfound
    · rw [List.append_nil]
      exact hfound

theorem binds_constructor :
    Binds (bindConstructor scope) (Constructor.keys scope) (fun t => Constructor.boundIn t scope)
      (fun t => Constructor.faults t scope) := by
  have h := Binds.part (fun c : Constructor => (binds_parameter scope c.line true).threadMap)
    Constructor.parameters (fun c parameters => { c with parameters })
  exact h

theorem binds_classPart :
    Binds (bindClassPart scope)
      (fun c => (c.elim [] ClassPart.constructors).flatMap (Constructor.keys scope))
      (fun t c => c.map (ClassPart.boundIn t scope))
      (fun t c => (c.elim [] ClassPart.constructors).flatMap (Constructor.faults t scope)) := by
  have h := (binds_constructor scope).threadMap
  refine ⟨?_, ?_, ?_⟩
  · intro s c
    cases c with
    | none => rfl
    | some c => exact h.symbols s c.constructors
  · intro s c t ht
    cases c with
    | none => rfl
    | some c =>
      have himage := h.image s c.constructors t ht
      show some { c with constructors := _ } = some (c.boundIn t scope)
      rw [himage]
      rfl
  · intro s c t ht
    cases c with
    | none => simp [bindClassPart]
    | some c => exact h.found s c.constructors t ht

end Members

theorem constructors_eq_elim (o : ObjectType) :
    o.constructors = o.classPart.elim [] ClassPart.constructors := by
  unfold ObjectType.constructors
  cases o.classPart <;> rfl

theorem binds_object :
    Binds bindObject ObjectType.keys ObjectType.boundIn ObjectType.faults := by
  have h := Binds.part
    (fun o : ObjectType => ((((binds_required o.scope o.line).threadMap.both
      (binds_method o.scope).threadMap).both (binds_property o.scope).threadMap).both
      (binds_event o.scope).threadMap).both (binds_classPart o.scope))
    (fun o => ((((o.requires, o.methods), o.properties), o.events), o.classPart))
    (fun o x =>
      { o with
        requires := x.1.1.1.1, methods := x.1.1.1.2, properties := x.1.1.2, events := x.1.2
        classPart := x.2 })
  refine ⟨?_, h.image, ?_⟩
  · intro s o
    rw [ObjectType.keys, constructors_eq_elim]
    exact h.symbols s o
  · intro s o t ht
    rw [ObjectType.faults, constructors_eq_elim]
    exact h.found s o t ht

theorem binds_struct :
    Binds bindStruct StructType.keys StructType.boundIn StructType.faults := by
  have h := Binds.part (fun s : StructType => (binds_field s.scope).threadMap) StructType.fields
    (fun s fields => { s with fields })
  exact h

theorem binds_delegate :
    Binds bindDelegate DelegateType.keys DelegateType.boundIn DelegateType.faults := by
  have h := Binds.part (fun d : DelegateType => binds_signature d.scope d.line true)
    (fun d => (d.result, d.parameters)) (fun d x => { d with result := x.1, parameters := x.2 })
  exact h

theorem binds_store :
    Binds bindStore Store.keys Store.boundIn Store.bindingFaults := by
  have h := Binds.part (fun _ : Store =>
    (binds_object.threadMap.both binds_struct.threadMap).both binds_delegate.threadMap)
    (fun st => ((st.objects.toList, st.structs.toList), st.delegates.toList))
    (fun st x =>
      { st with
        objects := x.1.1.toArray, structs := x.1.2.toArray, delegates := x.2.toArray })
  refine ⟨h.symbols, ?_, h.found⟩
  intro s st t ht
  have himage := h.image s st t ht
  simp only [← Array.toList_map, Array.toArray_toList] at himage
  exact himage

end Binder

namespace Workspace

/-- Binding the references looks up the keys of the store, makes its image under the table that this
leaves, and reports the faults under that table. -/
theorem bindReferences_eq (w : Workspace) :
    let symbols := w.symbols.lookupAll w.store.keys
    w.bindReferences.1 =
      { w with
        store := w.store.boundIn symbols, symbols
        report := w.report.add (w.store.bindingFaults symbols) } := by
  intro symbols
  have hsymbols : (Binder.bindStore { symbols := w.symbols } w.store).2.symbols = symbols :=
    Binder.binds_store.symbols { symbols := w.symbols } w.store
  have hgrows := NameTable.Grows.refl symbols
  rw [← hsymbols] at hgrows
  have himage := Binder.binds_store.image _ _ _ hgrows
  have hfound := Binder.binds_store.found _ _ _ hgrows
  unfold bindReferences
  dsimp only
  rw [himage, hfound, hsymbols]
  rfl

end Workspace

end ComponentIdl
