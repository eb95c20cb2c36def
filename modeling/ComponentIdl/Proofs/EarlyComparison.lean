import ComponentIdl.Proofs.OneName
import ComponentIdl.Proofs.Store.Handles

/-!
# Types compared before they are bound

The type of a second property fragment is compared with that of the first while the references are kept
by name: built-in types by themselves, all others by the name under which they will be looked up. Since
a symbol has one name, the comparison has the outcome that it would have once both are bound, however
they are spelled.
-/

namespace ComponentIdl

namespace Reference

variable {st : Store} {t : NameTable} {scope a b : String}

/-- A text is that of a built-in type, which no symbol stands for, or it is kept by name. -/
theorem parse_cases (text : String) :
    (∃ target, (parse text).target = some target ∧ ∀ σ : Symbol, σ.target ≠ target) ∨
      parse text = named text := by
  unfold parse
  split
  · next p _ => exact Or.inl ⟨.primitive p, rfl, fun σ => by cases σ <;> exact nofun⟩
  · split
    · exact Or.inl ⟨.object, rfl, fun σ => by cases σ <;> exact nofun⟩
    · exact Or.inr rfl

theorem boundIn_of_target {r : Reference} {target : Target} (h : r.target = some target) :
    r.boundIn t scope = r := by
  unfold boundIn
  rw [if_pos (by rw [isBound, h]; rfl)]

theorem target_boundIn_named {text : String} (h : ((named text).boundIn t scope).isBound = true) :
    ∃ σ, t.get? (absoluteName scope text) = some σ ∧
      ((named text).boundIn t scope).target = some σ.target := by
  rw [isBound_boundIn] at h
  obtain ⟨σ, hσ⟩ := Option.isSome_iff_exists.1 h
  have hkey : t.get? (absoluteName scope (named text).text) = some σ := hσ
  refine ⟨σ, hσ, ?_⟩
  unfold boundIn
  rw [hkey]
  rfl

/-- What two texts are compared to before look-up is what they are compared to after it. -/
theorem sameMeaning_parse (h : st.Titles t) (ha : ((parse a).boundIn t scope).isBound = true)
    (hb : ((parse b).boundIn t scope).isBound = true) :
    sameMeaning scope (parse a) (parse b) =
      ((parse a).boundIn t scope).agrees ((parse b).boundIn t scope) := by
  unfold sameMeaning
  rcases parse_cases a with ⟨x, hx, hbuiltIn⟩ | hnamed
  · rw [boundIn_of_target hx, if_pos (by rw [isBound, hx]; rfl)]
    rcases parse_cases b with ⟨y, hy, -⟩ | hnamed
    · rw [boundIn_of_target hy]
    · rw [hnamed] at hb ⊢
      obtain ⟨σ, -, hσ⟩ := target_boundIn_named hb
      unfold agrees
      rw [hx, hσ]
      exact (beq_false_of_ne (hbuiltIn σ).symm).symm
  · rw [hnamed] at ha ⊢
    obtain ⟨σ, hkey, hσ⟩ := target_boundIn_named ha
    rcases parse_cases b with ⟨y, hy, hbuiltIn⟩ | hnamed'
    · rw [boundIn_of_target hy, if_pos (by simp [isBound, hy])]
      unfold agrees
      rw [hy, hσ]
      exact (beq_false_of_ne (hbuiltIn σ)).symm
    · rw [hnamed'] at hb ⊢
      obtain ⟨σ', hkey', hσ'⟩ := target_boundIn_named hb
      unfold agrees
      rw [hσ, hσ', if_neg (by simp [isBound, named]), Bool.eq_iff_iff, beq_iff_eq, beq_iff_eq]
      constructor
      · intro heq
        have heq : absoluteName scope a = absoluteName scope b := heq
        rw [heq, hkey', Option.some.injEq] at hkey
        rw [hkey]
      · exact fun htarget => h.name_eq hkey hkey' htarget.symm

end Reference

/-- The class has a property of the name, written with the type `a`, which the fragment may add to if the
types are the same. -/
structure ObjectType.Awaits (o : ObjectType) (a : String) (d : Decl.Property) (count : Nat) : Prop where
  event : o.event? d.name = none
  property : ∃ existing index, o.property? d.name = some (existing, index) ∧
    existing.type = .parse a ∧ existing.isStatic = d.isStatic
  count : count < 3

theorem ObjectType.Awaits.error_iff {o : ObjectType} {a : String} {d : Decl.Property} {count : Nat}
    (h : o.Awaits a d count) (asked : List (PropertyRole × Nat)) :
    o.addFragment d count asked = .error .duplicateTypeMember ↔
      sameMeaning o.scope (.parse a) (.parse d.type) = false := by
  obtain ⟨existing, index, hproperty, htype, hstatic⟩ := h.property
  have hcount : decide (count ≥ 3) = false := decide_eq_false (Nat.not_le.2 h.count)
  unfold addFragment
  dsimp only
  rw [h.event, if_neg (by simp), hproperty]
  dsimp only
  rw [htype, hstatic, hcount, bne_self_eq_false, Bool.false_or, Bool.or_false]
  cases sameMeaning o.scope (.parse a) (.parse d.type) with
  | false => simp
  | true =>
    refine iff_of_false ?_ Bool.noConfusion
    rw [Bool.not_true, if_neg Bool.false_ne_true]
    split <;> exact nofun

namespace Workspace

/-- The reference for a text in a scope, bound under the name table after look-ups of the keys. -/
def meant (w : Workspace) (keys : List String) (scope text : String) : Reference :=
  (Reference.parse text).boundIn (w.symbols.lookupAll keys) scope

/-- What is compared by name has the same outcome once it is bound. -/
structure ComparesEarly (w : Workspace) : Prop where
  oneName : ∀ name name' σ, w.symbols.get? name = some σ → w.symbols.get? name' = some σ → name = name'
  /-- Texts in any scope, under any name table that comes from look-ups. -/
  texts : ∀ keys scope a b, (w.meant keys scope a).isBound = true →
    (w.meant keys scope b).isBound = true →
    sameMeaning scope (.parse a) (.parse b) = (w.meant keys scope a).agrees (w.meant keys scope b)
  /-- Types that are written in one class or interface, before the references are bound and after. -/
  written : ∀ (id : ObjectId) o o' (i j : Nat) a b r r', w.store.objects[id]? = some o →
    w.bindReferences.1.store.objects[id]? = some o' →
    o.references[i]? = some (.parse a) → o.references[j]? = some (.parse b) →
    o'.references[i]? = some r → o'.references[j]? = some r' →
    r.isBound = true → r'.isBound = true →
    sameMeaning o.scope (.parse a) (.parse b) = r.agrees r'
  /-- A fragment is kept apart from the property exactly if they turn out to differ in type. -/
  fragments : ∀ keys (o : ObjectType) a d count asked, o.Awaits a d count →
    (w.meant keys o.scope a).isBound = true → (w.meant keys o.scope d.type).isBound = true →
    (o.addFragment d count asked = .error .duplicateTypeMember ↔
      (w.meant keys o.scope a).agrees (w.meant keys o.scope d.type) = false)

variable {w : Workspace}

theorem comparesEarly (h : w.store.Titles w.symbols) : w.ComparesEarly := by
  have htexts : ∀ keys scope a b, (w.meant keys scope a).isBound = true →
      (w.meant keys scope b).isBound = true →
      sameMeaning scope (.parse a) (.parse b) =
        (w.meant keys scope a).agrees (w.meant keys scope b) :=
    fun keys _ _ _ ha hb => Reference.sameMeaning_parse (h.lookupAll keys) ha hb
  refine ⟨fun _ _ _ hσ hσ' => h.name_eq hσ hσ' rfl, htexts, ?_, ?_⟩
  · intro id o o' i j a b r r' ho ho' hi hj hr hr' hbound hbound'
    have himage : o' = o.boundIn (w.symbols.lookupAll w.store.keys) := by
      rw [w.bindReferences_eq] at ho'
      unfold Store.boundIn at ho'
      dsimp only at ho'
      rw [Array.getElem?_map, ho] at ho'
      exact (Option.some.inj ho').symm
    rw [himage, ObjectType.references_boundIn, List.getElem?_map] at hr hr'
    rw [hi] at hr
    rw [hj] at hr'
    obtain rfl := Option.some.inj hr
    obtain rfl := Option.some.inj hr'
    exact htexts w.store.keys o.scope a b hbound hbound'
  · intro keys o a d count asked hawaits ha hd
    rw [hawaits.error_iff, htexts keys o.scope a d.type ha hd]

/-- In every workspace that is reached, types are told apart before they are bound as they are after. -/
theorem comparesEarly_reached (settings : Settings) (catalog : Catalog) (stages : List Stage) :
    (reached settings catalog stages).ComparesEarly :=
  comparesEarly (titles_reached settings catalog stages)

/-- A struct by its simple and by its dotted name, beside an import and a built-in type. -/
def beaconStages : List Stage :=
  [.build [.openBlock ⟨"Sea", 1, []⟩, .openStruct ⟨"Light", 2, []⟩, .closeStruct ⟨"Light", 2, []⟩,
    .openClass ⟨"Beacon", 3, {}, [], []⟩,
    .property ⟨"Lamp", 4, false, "Light", some [⟨.get, 4⟩]⟩,
    .property ⟨"Lamp", 5, false, "Sea.Light", some [⟨.set, 5⟩]⟩,
    .method ⟨"Show", 6, false, none, [⟨"light", 6, .input, "Sea.Light"⟩,
      ⟨"height", 6, .input, "Int32"⟩]⟩]]

theorem comparesEarly_reached_beacon :
    ∃ o o' : ObjectType, (reached {} .empty beaconStages).store.objects[0]? = some o ∧
      (reached {} .empty beaconStages).bindReferences.1.store.objects[0]? = some o' ∧
      o.methods.map Method.name = ["get_Lamp", "put_Lamp", "Show"] ∧
      o.references = [.named "Light", .named "Light", .named "Sea.Light", .parse "Int32",
        .named "Light"] ∧
      o'.references = [.bound "Light" (.struct 0), .bound "Light" (.struct 0),
        .bound "Sea.Light" (.struct 0), .parse "Int32", .bound "Light" (.struct 0)] ∧
      sameMeaning o.scope (.parse "Light") (.parse "Sea.Light") = true ∧
      sameMeaning o.scope (.parse "Light") (.parse "Int32") = false := by
  have hbefore : ((reached {} .empty beaconStages).store.objects[0]?.map fun o : ObjectType =>
      (o.methods.map Method.name, o.references)) =
        some (["get_Lamp", "put_Lamp", "Show"], [.named "Light", .named "Light",
          .named "Sea.Light", .parse "Int32", .named "Light"]) := by
    decide +kernel
  have hafter : ((reached {} .empty beaconStages).bindReferences.1.store.objects[0]?.map
      ObjectType.references) = some [.bound "Light" (.struct 0), .bound "Light" (.struct 0),
        .bound "Sea.Light" (.struct 0), .parse "Int32", .bound "Light" (.struct 0)] := by
    decide +kernel
  obtain ⟨o, ho, heq⟩ := Option.map_eq_some_iff.1 hbefore
  obtain ⟨hmethods, hreferences⟩ := Prod.mk.inj heq
  obtain ⟨o', ho', hreferences'⟩ := Option.map_eq_some_iff.1 hafter
  have hwritten := (comparesEarly_reached {} .empty beaconStages).written 0 o o'
  refine ⟨o, o', ho, ho', hmethods, hreferences, hreferences', ?_, ?_⟩
  · exact hwritten 0 2 "Light" "Sea.Light" _ _ ho ho' (by rw [hreferences]; rfl)
      (by rw [hreferences]; rfl) (by rw [hreferences']; rfl) (by rw [hreferences']; rfl) rfl rfl
  · exact hwritten 0 3 "Light" "Int32" _ _ ho ho' (by rw [hreferences]; rfl)
      (by rw [hreferences]; rfl) (by rw [hreferences']; rfl) (by rw [hreferences']; rfl) rfl rfl

end Workspace

end ComponentIdl
