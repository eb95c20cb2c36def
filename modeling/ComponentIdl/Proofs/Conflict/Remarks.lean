import ComponentIdl.Conflict
import ComponentIdl.Proofs.Lists

/-!
# What remarks do

Dropping repeated overloads loses no remark altogether. Following the links of a list of remarks
changes links and nothing else, and a method is linked afterwards exactly if it was before or some
remark links it.
-/

namespace ComponentIdl

namespace Remark

theorem mem_of_withoutRepeats {remark : Remark} {seen : List Nat} {remarks : List Remark}
    (h : remark ∈ withoutRepeats seen remarks) : remark ∈ remarks := by
  induction remarks generalizing seen with
  | nil => simp [withoutRepeats] at h
  | cons first rest ih =>
    unfold withoutRepeats at h
    split at h
    · exact absurd ‹_ = []› (by simp)
    · next index _ heq =>
      obtain ⟨rfl, rfl⟩ := List.cons.inj heq
      split at h
      · exact List.mem_cons_of_mem _ (ih h)
      · rcases List.mem_cons.1 h with rfl | h
        · exact List.mem_cons_self
        · exact List.mem_cons_of_mem _ (ih h)
    · next heq =>
      obtain ⟨rfl, rfl⟩ := List.cons.inj heq
      rcases List.mem_cons.1 h with rfl | h
      · exact List.mem_cons_self
      · exact List.mem_cons_of_mem _ (ih h)

theorem mem_withoutRepeats {remark : Remark} {seen : List Nat} {remarks : List Remark}
    (h : remark ∈ remarks) (hseen : ∀ index, remark = .overload index → index ∉ seen) :
    remark ∈ withoutRepeats seen remarks := by
  induction remarks generalizing seen with
  | nil => simp at h
  | cons first rest ih =>
    rcases List.mem_cons.1 h with rfl | hrest
    · cases remark with
      | overload index =>
        have hnot := hseen index rfl
        simp [withoutRepeats, hnot]
      | report d => simp [withoutRepeats]
      | linkMethod index base => simp [withoutRepeats]
      | linkProperty index base => simp [withoutRepeats]
      | linkEvent index base => simp [withoutRepeats]
    · cases first with
      | overload index =>
        unfold withoutRepeats
        split
        · exact ih hrest hseen
        · by_cases heq : remark = .overload index
          · rw [heq]
            exact List.mem_cons_self
          · apply List.mem_cons_of_mem
            apply ih hrest
            intro other hother
            rw [List.mem_cons, not_or]
            refine ⟨?_, hseen other hother⟩
            rintro rfl
            exact heq hother
      | report d => exact List.mem_cons_of_mem _ (ih hrest hseen)
      | linkMethod index base => exact List.mem_cons_of_mem _ (ih hrest hseen)
      | linkProperty index base => exact List.mem_cons_of_mem _ (ih hrest hseen)
      | linkEvent index base => exact List.mem_cons_of_mem _ (ih hrest hseen)

theorem mem_withoutRepeats_iff {remark : Remark} {remarks : List Remark} :
    remark ∈ withoutRepeats [] remarks ↔ remark ∈ remarks :=
  ⟨mem_of_withoutRepeats, fun h => mem_withoutRepeats h fun _ _ => by simp⟩

end Remark

def Method.unlinked (m : Method) : Method := { m with overrides := none }

def Property.unlinked (p : Property) : Property := { p with overrides := none }

def Event.unlinked (e : Event) : Event := { e with overrides := none }

/-- The class or interface without its links. -/
def ObjectType.unlinked (o : ObjectType) : ObjectType :=
  { o with
    methods := o.methods.map Method.unlinked
    properties := o.properties.map Property.unlinked
    events := o.events.map Event.unlinked }

theorem ObjectType.unlinked_eq_self {o : ObjectType} (hmethods : ∀ m ∈ o.methods, m.overrides = none)
    (hproperties : ∀ p ∈ o.properties, p.overrides = none)
    (hevents : ∀ e ∈ o.events, e.overrides = none) : o.unlinked = o := by
  have hm : o.methods.map Method.unlinked = o.methods := by
    refine (List.map_congr_left fun m hm => ?_).trans (List.map_id' _)
    unfold Method.unlinked
    rw [← hmethods m hm]
  have hp : o.properties.map Property.unlinked = o.properties := by
    refine (List.map_congr_left fun p hp => ?_).trans (List.map_id' _)
    unfold Property.unlinked
    rw [← hproperties p hp]
  have he : o.events.map Event.unlinked = o.events := by
    refine (List.map_congr_left fun e he => ?_).trans (List.map_id' _)
    unfold Event.unlinked
    rw [← hevents e he]
  unfold unlinked
  rw [hm, hp, he]

theorem Remark.unlinked_link (o : ObjectType) (remark : Remark) :
    (remark.link o).unlinked = o.unlinked := by
  cases remark with
  | report d => rfl
  | overload index => rfl
  | linkMethod index base =>
    have hmethods : (o.methods.modify index fun m => { m with overrides := some base }).map
        Method.unlinked = o.methods.map Method.unlinked := map_modify _ _ fun _ => rfl
    simp only [link, ObjectType.unlinked, hmethods]
  | linkProperty index base =>
    have hproperties : (o.properties.modify index fun p => { p with overrides := some base }).map
        Property.unlinked = o.properties.map Property.unlinked := map_modify _ _ fun _ => rfl
    simp only [link, ObjectType.unlinked, hproperties]
  | linkEvent index base =>
    have hevents : (o.events.modify index fun e => { e with overrides := some base }).map
        Event.unlinked = o.events.map Event.unlinked := map_modify _ _ fun _ => rfl
    simp only [link, ObjectType.unlinked, hevents]

theorem Remark.unlinked_foldl (o : ObjectType) (remarks : List Remark) :
    (remarks.foldl link o).unlinked = o.unlinked := by
  induction remarks generalizing o with
  | nil => rfl
  | cons remark remarks ih => exact (ih (remark.link o)).trans (unlinked_link o remark)

theorem Remark.linked_link (o : ObjectType) (remark : Remark) (i : Nat) :
    ((remark.link o).methods[i]?).bind Method.overrides =
      match remark with
      | .linkMethod index base =>
        if index = i then (o.methods[i]?).map fun _ => base
        else (o.methods[i]?).bind Method.overrides
      | _ => (o.methods[i]?).bind Method.overrides := by
  cases remark with
  | linkMethod index base =>
    simp only [link, List.getElem?_modify]
    cases o.methods[i]? with
    | none => simp
    | some m => by_cases hi : index = i <;> simp [hi]
  | report d => rfl
  | overload index => rfl
  | linkProperty index base => rfl
  | linkEvent index base => rfl

theorem Remark.linked_foldl {o : ObjectType} (remarks : List Remark) {i : Nat} {m : Method}
    (hm : o.methods[i]? = some m) :
    (((remarks.foldl link o).methods[i]?).bind Method.overrides).isSome = true ↔
      m.overrides.isSome = true ∨ ∃ base, .linkMethod i base ∈ remarks := by
  induction remarks generalizing o m with
  | nil => simp [hm]
  | cons remark remarks ih =>
    have hlinked := linked_link o remark i
    obtain ⟨n, hn⟩ : ∃ n, (remark.link o).methods[i]? = some n := by
      have hlen := congrArg (fun o => (o.methods.map Method.name)[i]?) (unlinked_link o remark)
      cases hnext : (remark.link o).methods[i]? with
      | some n => exact ⟨n, rfl⟩
      | none => simp [ObjectType.unlinked, hnext, hm] at hlen
    rw [List.foldl_cons, ih hn]
    rw [hn, hm, Option.bind_some] at hlinked
    cases remark with
    | linkMethod index base =>
      by_cases hi : index = i
      · subst hi
        simp at hlinked
        simp [hlinked]
      · simp [hi] at hlinked
        simp [hlinked, Ne.symm hi]
    | report d => simp_all
    | overload index => simp_all
    | linkProperty index base => simp_all
    | linkEvent index base => simp_all

/-- What is changed in one place is found there, or what was found before is. -/
theorem bind_modify {α β : Type} {f : α → α} {g : α → Option β} {as : List α} {i k : Nat} {b c : β}
    (hf : ∀ a, g (f a) = some c) (h : ((as.modify k f)[i]?).bind g = some b) :
    (as[i]?).bind g = some b ∨ (k = i ∧ c = b) := by
  rw [List.getElem?_modify] at h
  cases ha : as[i]? with
  | none => simp [ha] at h
  | some a =>
    by_cases hki : k = i
    · simp [ha, hki, hf] at h
      exact Or.inr ⟨hki, h⟩
    · simp [ha, hki] at h
      exact Or.inl h

namespace Remark

variable {o : ObjectType} {remarks : List Remark} {i : Nat} {base : MemberLink}

/-- A link that is found after the remarks was there before, or one of them has made it. -/
theorem made_foldl (look : ObjectType → Option MemberLink) {made : Remark}
    (hstep : ∀ (o : ObjectType) (remark : Remark), look (remark.link o) = some base →
      look o = some base ∨ remark = made)
    (h : look (remarks.foldl link o) = some base) : look o = some base ∨ made ∈ remarks := by
  induction remarks generalizing o with
  | nil => exact Or.inl h
  | cons remark remarks ih =>
    rcases ih h with hold | hmem
    · rcases hstep o remark hold with hold | rfl
      · exact Or.inl hold
      · exact Or.inr List.mem_cons_self
    · exact Or.inr (List.mem_cons_of_mem _ hmem)

theorem methodLink_foldl
    (h : ((remarks.foldl link o).methods[i]?).bind Method.overrides = some base) :
    (o.methods[i]?).bind Method.overrides = some base ∨ .linkMethod i base ∈ remarks := by
  refine made_foldl (fun o => (o.methods[i]?).bind Method.overrides) ?_ h
  intro o remark h
  cases remark with
  | linkMethod k c =>
    have hmade := bind_modify (f := fun m : Method => { m with overrides := some c })
      (g := Method.overrides) (fun _ => rfl) h
    refine hmade.imp_right ?_
    rintro ⟨rfl, rfl⟩
    rfl
  | report d => exact Or.inl h
  | overload k => exact Or.inl h
  | linkProperty k c => exact Or.inl h
  | linkEvent k c => exact Or.inl h

theorem propertyLink_foldl
    (h : ((remarks.foldl link o).properties[i]?).bind Property.overrides = some base) :
    (o.properties[i]?).bind Property.overrides = some base ∨ .linkProperty i base ∈ remarks := by
  refine made_foldl (fun o => (o.properties[i]?).bind Property.overrides) ?_ h
  intro o remark h
  cases remark with
  | linkProperty k c =>
    have hmade := bind_modify (f := fun p : Property => { p with overrides := some c })
      (g := Property.overrides) (fun _ => rfl) h
    refine hmade.imp_right ?_
    rintro ⟨rfl, rfl⟩
    rfl
  | report d => exact Or.inl h
  | overload k => exact Or.inl h
  | linkMethod k c => exact Or.inl h
  | linkEvent k c => exact Or.inl h

theorem eventLink_foldl
    (h : ((remarks.foldl link o).events[i]?).bind Event.overrides = some base) :
    (o.events[i]?).bind Event.overrides = some base ∨ .linkEvent i base ∈ remarks := by
  refine made_foldl (fun o => (o.events[i]?).bind Event.overrides) ?_ h
  intro o remark h
  cases remark with
  | linkEvent k c =>
    have hmade := bind_modify (f := fun e : Event => { e with overrides := some c })
      (g := Event.overrides) (fun _ => rfl) h
    refine hmade.imp_right ?_
    rintro ⟨rfl, rfl⟩
    rfl
  | report d => exact Or.inl h
  | overload k => exact Or.inl h
  | linkMethod k c => exact Or.inl h
  | linkProperty k c => exact Or.inl h

/-- A method that remarks link to one member only is linked to that. -/
theorem methodLink_of_unique {m : Method} (hm : o.methods[i]? = some m) (hnone : m.overrides = none)
    (h : ∀ c, .linkMethod i c ∈ remarks ↔ c = base) :
    ((remarks.foldl link o).methods[i]?).bind Method.overrides = some base := by
  obtain ⟨c, hc⟩ := Option.isSome_iff_exists.1
    ((linked_foldl remarks hm).2 (Or.inr ⟨base, (h base).2 rfl⟩))
  rcases methodLink_foldl hc with hold | hmem
  · rw [hm, Option.bind_some, hnone] at hold
    cases hold
  · rw [hc, (h c).1 hmem]

end Remark

end ComponentIdl
