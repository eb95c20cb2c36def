import ComponentIdl.Proofs.Overrides
import ComponentIdl.Proofs.Store.Similar

/-!
# The check of members repeated

What the check says depends on no link, so a second check says what the first one said. Each of its
links is written over by the same link again.
-/

namespace ComponentIdl

namespace ObjectType

variable (o : ObjectType) (bases : List (ObjectId × ObjectType))

theorem writtenMethods_core :
    o.core.writtenMethods = o.writtenMethods.map (Prod.map Method.unlinked id) := by
  unfold writtenMethods
  rw [methods_core, List.zipIdx_map, List.filter_map]
  rfl

theorem hasWrittenMethod_core (name : String) :
    o.core.hasWrittenMethod name = o.hasWrittenMethod name := by
  unfold hasWrittenMethod
  rw [methods_core, List.any_map]
  rfl

theorem signatureClashes_core : o.core.signatureClashes = o.signatureClashes := by
  unfold signatureClashes
  rw [writtenMethods_core, List.map_map]
  rfl

theorem accessorClashes_core : o.core.accessorClashes = o.accessorClashes := by
  unfold accessorClashes
  rw [writtenMethods_core, List.flatMap_map]
  refine congrArg (List.flatMap · _) (funext fun m => ?_)
  exact congrArg₂ (· ++ ·) (List.flatMap_map ..) (List.flatMap_map ..)

theorem signed?_core (signature : Identity) (b : ObjectId × ObjectType) :
    signed? signature (b.1, b.2.core) = (signed? signature b).map (Prod.map Method.unlinked id) := by
  unfold signed?
  rw [methods_core, find?_zipIdx_map, Option.map_map, Option.map_map]
  rfl

theorem methodRemarks_core (m : Method × Nat) :
    o.core.methodRemarks (cores bases) (Prod.map Method.unlinked id m) = o.methodRemarks bases m := by
  have hfound : (cores bases).findSome? (signed? m.1.signature) =
      (bases.findSome? (signed? m.1.signature)).map (Prod.map Method.unlinked id) := by
    unfold cores
    rw [List.findSome?_map, List.map_findSome?]
    exact congrArg (List.findSome? · bases) (funext fun b => signed?_core m.1.signature b)
  unfold methodRemarks
  rw [show (Prod.map Method.unlinked id m).1.signature = m.1.signature from rfl, hfound,
    isClass_core]
  cases bases.findSome? (signed? m.1.signature) <;> rfl

theorem propertyVerdict_core (p : Property × Nat) (b : ObjectId × ObjectType) :
    o.core.propertyVerdict (Prod.map Property.unlinked id p) (b.1, b.2.core) =
      o.propertyVerdict p b := by
  have hname : (Prod.map Property.unlinked id p).1.name = p.1.name := rfl
  unfold propertyVerdict
  dsimp only
  rw [hname, property?_core, event?_core, hasWrittenMethod_core, isClass_core, Option.isSome_map]
  cases b.2.property? p.1.name <;> rfl

theorem eventVerdict_core (e : Event × Nat) (b : ObjectId × ObjectType) :
    o.core.eventVerdict (Prod.map Event.unlinked id e) (b.1, b.2.core) = o.eventVerdict e b := by
  have hname : (Prod.map Event.unlinked id e).1.name = e.1.name := rfl
  unfold eventVerdict
  dsimp only
  rw [hname, property?_core, event?_core, hasWrittenMethod_core, isClass_core, Option.isSome_map]
  cases b.2.event? e.1.name <;> rfl

theorem propertyRemarks_core (p : Property × Nat) :
    o.core.propertyRemarks (cores bases) (Prod.map Property.unlinked id p) =
      o.propertyRemarks bases p := by
  unfold propertyRemarks cores
  rw [List.findSome?_map]
  exact congrArg (fun verdict => (bases.findSome? verdict).getD [])
    (funext fun b => o.propertyVerdict_core p b)

theorem eventRemarks_core (e : Event × Nat) :
    o.core.eventRemarks (cores bases) (Prod.map Event.unlinked id e) = o.eventRemarks bases e := by
  unfold eventRemarks cores
  rw [List.findSome?_map]
  exact congrArg (fun verdict => (bases.findSome? verdict).getD [])
    (funext fun b => o.eventVerdict_core e b)

theorem instanceMembers_core : o.core.instanceMembers = o.instanceMembers := by
  have hmembers : ∀ {α : Type} (f : α → α) (as : List α) (p : α → Bool) (g : α → Remark),
      (∀ a, p (f a) = p a) → (∀ a, g (f a) = g a) →
        ((as.map f).filter p).map g = (as.filter p).map g := by
    intro α f as p g hp hg
    rw [List.filter_map, List.map_map, show p ∘ f = p from funext hp, show g ∘ f = g from funext hg]
  unfold instanceMembers
  rw [isStaticClass_core, constructors_core]
  refine congrArg (fun remarks => if o.isStaticClass then remarks else []) ?_
  refine congrArg₂ (· ++ ·) (congrArg₂ (· ++ ·) (congrArg₂ (· ++ ·) ?_ ?_) ?_) rfl
  · exact hmembers _ _ _ _ (fun _ => rfl) fun _ => rfl
  · exact hmembers _ _ _ _ (fun _ => rfl) fun _ => rfl
  · exact hmembers _ _ _ _ (fun _ => rfl) fun _ => rfl

theorem remarks_core : o.core.remarks (cores bases) = o.remarks bases := by
  have hproperties : o.core.properties.zipIdx.flatMap (o.core.propertyRemarks (cores bases)) =
      o.properties.zipIdx.flatMap (o.propertyRemarks bases) := by
    have hzip : o.core.properties.zipIdx = o.properties.zipIdx.map (Prod.map Property.unlinked id) :=
      List.zipIdx_map ..
    rw [hzip, List.flatMap_map]
    exact congrArg (List.flatMap · _) (funext fun p => o.propertyRemarks_core bases p)
  have hevents : o.core.events.zipIdx.flatMap (o.core.eventRemarks (cores bases)) =
      o.events.zipIdx.flatMap (o.eventRemarks bases) := by
    have hzip : o.core.events.zipIdx = o.events.zipIdx.map (Prod.map Event.unlinked id) :=
      List.zipIdx_map ..
    rw [hzip, List.flatMap_map]
    exact congrArg (List.flatMap · _) (funext fun e => o.eventRemarks_core bases e)
  have hmethods : o.core.writtenMethods.flatMap (o.core.methodRemarks (cores bases)) =
      o.writtenMethods.flatMap (o.methodRemarks bases) := by
    rw [writtenMethods_core, List.flatMap_map]
    exact congrArg (List.flatMap · _) (funext fun m => o.methodRemarks_core bases m)
  unfold remarks
  rw [signatureClashes_core, accessorClashes_core, hmethods, hproperties, hevents,
    instanceMembers_core]

end ObjectType

section Modify

variable {α β : Type} (put : β → α → α) (h : ∀ b b' a, put b (put b' a) = put b a)
include h

theorem modify_over (i : Nat) (b b' : β) (as : List α) :
    (as.modify i (put b')).modify i (put b) = as.modify i (put b) := by
  rw [List.modify_modify_eq]
  exact congrArg (as.modify i) (funext (h b b'))

/-- A later value is put over an earlier one, or beside it. -/
theorem modify_cases (i j : Nat) (b b' : β) :
    (∀ as : List α, (as.modify i (put b)).modify j (put b') = as.modify j (put b')) ∨
      ∀ as : List α,
        (as.modify i (put b)).modify j (put b') = (as.modify j (put b')).modify i (put b) := by
  by_cases hij : i = j
  · subst hij
    exact Or.inl (modify_over put h i b' b)
  · exact Or.inr fun as => List.modify_modify_ne (put b) (put b') as hij

end Modify

namespace Remark

variable {o : ObjectType}

/-- A later link writes over an earlier one, or has nothing to do with it. -/
theorem link_link (r s : Remark) :
    (∀ o, s.link (r.link o) = s.link o) ∨ ∀ o, s.link (r.link o) = r.link (s.link o) := by
  cases r with
  | report d => exact Or.inl fun _ => rfl
  | overload i => exact Or.inl fun _ => rfl
  | linkMethod i base =>
    cases s with
    | linkMethod j base' =>
      exact (modify_cases (fun link (m : Method) => { m with overrides := some link })
        (fun _ _ _ => rfl) i j base base').imp
        (fun h o => congrArg (fun methods => { o with methods }) (h o.methods))
        (fun h o => congrArg (fun methods => { o with methods }) (h o.methods))
    | report d => exact Or.inr fun _ => rfl
    | overload j => exact Or.inr fun _ => rfl
    | linkProperty j base' => exact Or.inr fun _ => rfl
    | linkEvent j base' => exact Or.inr fun _ => rfl
  | linkProperty i base =>
    cases s with
    | linkProperty j base' =>
      exact (modify_cases (fun link (p : Property) => { p with overrides := some link })
        (fun _ _ _ => rfl) i j base base').imp
        (fun h o => congrArg (fun properties => { o with properties }) (h o.properties))
        (fun h o => congrArg (fun properties => { o with properties }) (h o.properties))
    | report d => exact Or.inr fun _ => rfl
    | overload j => exact Or.inr fun _ => rfl
    | linkMethod j base' => exact Or.inr fun _ => rfl
    | linkEvent j base' => exact Or.inr fun _ => rfl
  | linkEvent i base =>
    cases s with
    | linkEvent j base' =>
      exact (modify_cases (fun link (e : Event) => { e with overrides := some link })
        (fun _ _ _ => rfl) i j base base').imp
        (fun h o => congrArg (fun events => { o with events }) (h o.events))
        (fun h o => congrArg (fun events => { o with events }) (h o.events))
    | report d => exact Or.inr fun _ => rfl
    | overload j => exact Or.inr fun _ => rfl
    | linkMethod j base' => exact Or.inr fun _ => rfl
    | linkProperty j base' => exact Or.inr fun _ => rfl

theorem link_self (r : Remark) (o : ObjectType) : r.link (r.link o) = r.link o := by
  cases r with
  | report d => rfl
  | overload i => rfl
  | linkMethod i base =>
    exact congrArg (fun methods => { o with methods })
      (modify_over (fun link (m : Method) => { m with overrides := some link })
        (fun _ _ _ => rfl) i base base o.methods)
  | linkProperty i base =>
    exact congrArg (fun properties => { o with properties })
      (modify_over (fun link (p : Property) => { p with overrides := some link })
        (fun _ _ _ => rfl) i base base o.properties)
  | linkEvent i base =>
    exact congrArg (fun events => { o with events })
      (modify_over (fun link (e : Event) => { e with overrides := some link })
        (fun _ _ _ => rfl) i base base o.events)

theorem foldl_link_of_mem {r : Remark} {remarks : List Remark} (h : r ∈ remarks) (o : ObjectType) :
    remarks.foldl link (r.link o) = remarks.foldl link o := by
  induction remarks generalizing o with
  | nil => exact absurd h List.not_mem_nil
  | cons s remarks ih =>
    rw [List.foldl_cons, List.foldl_cons]
    rcases List.mem_cons.1 h with rfl | h
    · rw [link_self]
    · rcases link_link r s with hover | happart
      · rw [hover]
      · rw [happart, ih h]

theorem foldl_link_again (remarks : List Remark) (o : ObjectType) :
    remarks.foldl link (remarks.foldl link o) = remarks.foldl link o := by
  have hpart : ∀ part ⊆ remarks, ∀ o, remarks.foldl link (part.foldl link o) =
      remarks.foldl link o := by
    intro part hsub
    induction part with
    | nil => exact fun _ => rfl
    | cons r part ih =>
      obtain ⟨hr, hrest⟩ := List.cons_subset.1 hsub
      intro o
      rw [List.foldl_cons, ih hrest, foldl_link_of_mem hr]
  exact hpart remarks (List.Subset.refl _) o

theorem diagnostic?_unlinked (methods : List Method) (r : Remark) :
    r.diagnostic? (methods.map Method.unlinked) = r.diagnostic? methods := by
  cases r with
  | overload i =>
    unfold diagnostic?
    dsimp only
    rw [List.getElem?_map, Option.map_map]
    rfl
  | report d => rfl
  | linkMethod i base => rfl
  | linkProperty i base => rfl
  | linkEvent i base => rfl

theorem diagnostic?_foldl (remarks : List Remark) (o : ObjectType) :
    diagnostic? (remarks.foldl link o).methods = diagnostic? o.methods := by
  funext r
  have hmethods : (remarks.foldl link o).methods.map Method.unlinked =
      o.methods.map Method.unlinked := congrArg ObjectType.methods (unlinked_foldl o remarks)
  rw [← diagnostic?_unlinked, hmethods, diagnostic?_unlinked]

end Remark

namespace Workspace

variable (w : Workspace)

theorem remarks_checkMembers {id : ObjectId} {o o' : ObjectType} (hcore : o'.core = o.core) :
    o'.remarks (w.checkMembers.1.store.ancestors id) = o.remarks (w.store.ancestors id) := by
  have hsimilar := Store.similar_checkMembers w
  have hancestors : ObjectType.cores (w.checkMembers.1.store.ancestors id) =
      ObjectType.cores (w.store.ancestors id) := by
    apply Store.cores_ancestors
    · intro a
      rw [hsimilar.requirement]
    · exact fun base _ => Store.getElem?_of_map_eq hsimilar.objects base
  rw [← ObjectType.remarks_core, hcore, hancestors, ObjectType.remarks_core]

theorem memberRemarks_checkMembers :
    w.checkMembers.1.store.memberRemarks =
      w.store.memberRemarks.map fun c => (c.2.foldl Remark.link c.1, c.2) := by
  have hobjects : w.checkMembers.1.store.objects.toList =
      w.store.memberRemarks.map fun c => c.2.foldl Remark.link c.1 := rfl
  unfold Store.memberRemarks at hobjects ⊢
  rw [hobjects]
  apply List.ext_getElem?
  intro id
  simp only [List.getElem?_map, List.getElem?_mapIdx, Option.map_map]
  cases w.store.objects.toList[id]? with
  | none => rw [Option.map_none, Option.map_none]
  | some o =>
    have hcore :=
      Store.core_of_unlinked (Remark.unlinked_foldl o (o.remarks (w.store.ancestors id)))
    simp only [Option.map_some, Function.comp_apply, w.remarks_checkMembers hcore]

/-- What the check of members reports. -/
def memberDiagnostics (st : Store) : List Diagnostic :=
  st.memberRemarks.flatMap fun c => c.2.filterMap (Remark.diagnostic? c.1.methods)

/-- A second check changes nothing and reports what the first one did. -/
theorem checkMembers_again :
    w.checkMembers.1.checkMembers.1 =
      { w.checkMembers.1 with
        report := w.checkMembers.1.report.add (memberDiagnostics w.store) } := by
  have hfound : memberDiagnostics w.checkMembers.1.store = memberDiagnostics w.store := by
    unfold memberDiagnostics
    rw [memberRemarks_checkMembers, List.flatMap_map]
    refine congrArg (List.flatMap · _) (funext fun c => ?_)
    exact congrArg (List.filterMap · c.2) (Remark.diagnostic?_foldl c.2 c.1)
  have hobjects : (w.checkMembers.1.store.memberRemarks.map fun c => c.2.foldl Remark.link c.1) =
      w.store.memberRemarks.map fun c => c.2.foldl Remark.link c.1 := by
    rw [memberRemarks_checkMembers, List.map_map]
    exact congrArg (List.map · _) (funext fun c => Remark.foldl_link_again c.2 c.1)
  have hagain : ∀ w' : Workspace, w'.checkMembers.1 = { w' with
      store := { w'.store with
        objects := (w'.store.memberRemarks.map fun c => c.2.foldl Remark.link c.1).toArray }
      report := w'.report.add (memberDiagnostics w'.store) } := fun _ => rfl
  rw [hagain w.checkMembers.1, hfound, hobjects]
  rfl

end Workspace

end ComponentIdl
