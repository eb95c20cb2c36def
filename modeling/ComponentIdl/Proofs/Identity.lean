import ComponentIdl.Proofs.Hash.XxHash
import ComponentIdl.Reference

/-!
# Identities tell their targets

The identity of a declaration is hashed from five bytes, its kind and its slot, and a slot that fits into
three of them leaves the last byte zero. The hash can then be undone up to the word of kind and slot.
The built-in types are hashed from their keywords; undone in the same way, none of their identities gives
a word as small as that of a kind and a slot.
-/

namespace ComponentIdl

/-- The slots below this number are told apart by three bytes. -/
def slotLimit : Nat := 2 ^ 24

namespace Identity

/-- The word that was hashed, if the identity is that of a kind and a slot below the limit. -/
def slotWord (i : Identity) : UInt64 := Hash.halfOfFive 0 (slotDomain ^^^ i.bits)

theorem slotBytes_eq {slot : Nat} (h : slot < slotLimit) :
    ∃ b0 b1 b2 : UInt8, slotBytes slot = [b0, b1, b2, 0] ∧
      b0.toNat + 256 * (b1.toNat + 256 * b2.toNat) = slot := by
  have hlt : slot < 2 ^ 24 := h
  have hword : (UInt32.ofNat slot).toNat = slot :=
    UInt32.toNat_ofNat_of_lt' (Nat.lt_trans hlt (by decide))
  refine ⟨_, _, _, congrArg (fun b => [_, _, _, b]) ?_, ?_⟩
  · apply UInt8.toNat_inj.1
    simp only [UInt32.toNat_toUInt8, UInt32.toNat_shiftRight, hword, UInt32.reduceToNat, Nat.reduceMod,
      Nat.shiftRight_eq_div_pow, Nat.reducePow, UInt8.toNat_zero]
    omega
  · simp only [UInt32.toNat_toUInt8, UInt32.toNat_shiftRight, hword, UInt32.reduceToNat, Nat.reduceMod,
      Nat.shiftRight_eq_div_pow, Nat.reducePow]
    omega

theorem slotWord_ofSlot (kind : UInt8) {slot : Nat} (h : slot < slotLimit) :
    (ofSlot kind slot).slotWord.toNat = kind.toNat + 256 * slot := by
  obtain ⟨b0, b1, b2, hbytes, hslot⟩ := slotBytes_eq h
  have hlt : slot < 2 ^ 24 := h
  have hkind := kind.toNat_lt
  have hdigits : Nat.ofDigits 256 ([kind, b0, b1, b2].map UInt8.toNat) = kind.toNat + 256 * slot := by
    simp [Nat.ofDigits, hslot]
  unfold slotWord ofSlot
  rw [hbytes, Hash.xor_xor_cancel_left, Hash.xxHash64_five, Hash.halfOfFive_hashFive,
    Hash.ofLittleEndian_eq, hdigits]
  exact UInt64.toNat_ofNat_of_lt' (show _ < 2 ^ 64 by omega)

theorem slotWord_lt (kind : UInt8) {slot : Nat} (h : slot < slotLimit) :
    (ofSlot kind slot).slotWord.toNat < 2 ^ 32 := by
  have hlt : slot < 2 ^ 24 := h
  have hkind := kind.toNat_lt
  rw [slotWord_ofSlot kind h]
  omega

theorem ofSlot_inj {kind kind' : UInt8} {slot slot' : Nat} (h : slot < slotLimit)
    (h' : slot' < slotLimit) (heq : ofSlot kind slot = ofSlot kind' slot') :
    kind = kind' ∧ slot = slot' := by
  have hword : kind.toNat + 256 * slot = kind'.toNat + 256 * slot' := by
    rw [← slotWord_ofSlot kind h, heq, slotWord_ofSlot kind' h']
  have hkind := kind.toNat_lt
  have hkind' := kind'.toNat_lt
  exact ⟨UInt8.toNat_inj.1 (by omega), by omega⟩

end Identity

namespace Target

/-- Where a declaration or an import is: the kind of its slots, and its slot. -/
def place? : Target → Option (UInt8 × Nat)
  | runtimeClass id => some (1, id)
  | interface id => some (2, id)
  | struct id => some (3, id)
  | enum id => some (4, id)
  | delegate id => some (5, id)
  | imported id => some (6, id)
  | primitive _ => none
  | object => none

/-- The target is a built-in type or has its slot below the limit. -/
def InReach (t : Target) : Prop := ∀ place ∈ t.place?, place.2 < slotLimit

instance (t : Target) : Decidable t.InReach :=
  inferInstanceAs (Decidable (∀ place ∈ t.place?, place.2 < slotLimit))

/-- The types that have no slot. -/
def builtins : List Target := Primitive.all.map primitive ++ [object]

variable {s t : Target}

theorem mem_builtins (h : t.place? = none) : t ∈ builtins := by
  cases t with
  | primitive p => cases p <;> decide
  | object => decide
  | _ => exact nomatch h

theorem identity_of_place {kind : UInt8} {slot : Nat} (h : t.place? = some (kind, slot)) :
    t.identity = Identity.ofSlot kind slot := by
  cases t <;> cases h <;> rfl

theorem place?_inj {place : UInt8 × Nat} (hs : s.place? = some place) (ht : t.place? = some place) :
    s = t := by
  cases s <;> cases hs <;> cases t <;> cases ht <;> rfl

theorem builtins_identity_inj :
    ∀ s ∈ builtins, ∀ t ∈ builtins, s.identity = t.identity → s = t := by
  decide +kernel

theorem builtins_slotWord : ∀ t ∈ builtins, 2 ^ 32 ≤ t.identity.slotWord.toNat := by
  decide +kernel

theorem identity_ne_of_builtin (ht : t.InReach) (hplace : t.place? ≠ none) (hs : s.place? = none) :
    s.identity ≠ t.identity := by
  obtain ⟨⟨kind, slot⟩, hplace⟩ := Option.ne_none_iff_exists'.1 hplace
  intro heq
  have hlarge := builtins_slotWord s (mem_builtins hs)
  rw [heq, identity_of_place hplace] at hlarge
  exact absurd (Identity.slotWord_lt kind (ht _ hplace)) (Nat.not_lt.2 hlarge)

theorem identity_inj (hs : s.InReach) (ht : t.InReach) : s.identity = t.identity ↔ s = t := by
  refine ⟨fun heq => ?_, congrArg identity⟩
  cases hplace : s.place? with
  | none =>
    cases hplace' : t.place? with
    | none => exact builtins_identity_inj s (mem_builtins hplace) t (mem_builtins hplace') heq
    | some place' => exact absurd heq (identity_ne_of_builtin ht (by simp [hplace']) hplace)
  | some place =>
    cases hplace' : t.place? with
    | none => exact absurd heq.symm (identity_ne_of_builtin hs (by simp [hplace]) hplace')
    | some place' =>
      rw [identity_of_place hplace, identity_of_place hplace'] at heq
      obtain ⟨hkind, hslot⟩ := Identity.ofSlot_inj (hs _ hplace) (ht _ hplace') heq
      obtain rfl : place = place' := Prod.ext hkind hslot
      exact place?_inj hplace hplace'

end Target

theorem Symbol.place?_ne_none (σ : Symbol) : σ.target.place? ≠ none := by
  cases σ <;> exact nofun

/-- Bound references have the same identity exactly if they agree, whatever they are spelled like. So two
declarations or imports never share an identity, and none shares that of a built-in type. -/
theorem Reference.identity_exact :
    (∀ (a b : Reference) (s t : Target), a.target = some s → b.target = some t → s.InReach → t.InReach →
      ((a.identity = b.identity ↔ a.agrees b = true) ∧ (a.agrees b = true ↔ s = t))) ∧
    ∀ σ : Symbol, σ.target.InReach →
      (∀ τ : Symbol, τ.target.InReach → τ.target ≠ σ.target →
        τ.target.identity ≠ σ.target.identity) ∧
      (∀ p : Primitive, p.identity ≠ σ.target.identity) ∧
      Identity.ofName opaqueKeyword ≠ σ.target.identity := by
  refine ⟨?_, fun σ hσ => ⟨?_, ?_, ?_⟩⟩
  · intro a b s t ha hb hs ht
    have hagrees : a.agrees b = true ↔ s = t := by
      simp only [agrees, ha, hb, beq_iff_eq]
    have hidentity : a.identity = b.identity ↔ s.identity = t.identity := by
      simp only [identity, ha, hb]
    exact ⟨hidentity.trans ((Target.identity_inj hs ht).trans hagrees.symm), hagrees⟩
  · exact fun τ hτ hne => mt (Target.identity_inj hτ hσ).1 hne
  · exact fun p => Target.identity_ne_of_builtin (s := .primitive p) hσ σ.place?_ne_none rfl
  · exact Target.identity_ne_of_builtin (s := .object) hσ σ.place?_ne_none rfl

/-- A class in two spellings, the interface in the slot of the class, and the last struct within reach. -/
theorem Reference.identity_exact_pier :
    (Target.runtimeClass 7).InReach ∧ (Target.interface 7).InReach ∧ (Target.struct 0xFFFFFF).InReach ∧
      (bound "Pier" (.runtimeClass 7)).identity = (bound "Port.Pier" (.runtimeClass 7)).identity ∧
      (bound "Pier" (.runtimeClass 7)).identity ≠ (bound "Pier" (.interface 7)).identity ∧
      Primitive.int32.identity ≠ (Symbol.struct 0xFFFFFF).target.identity := by
  have hclass : (Target.runtimeClass 7).InReach := by decide
  have hinterface : (Target.interface 7).InReach := by decide
  have hstruct : (Target.struct 0xFFFFFF).InReach := by decide
  obtain ⟨hbound, hdeclared⟩ := Reference.identity_exact
  refine ⟨hclass, hinterface, hstruct, ?_, ?_, (hdeclared (.struct 0xFFFFFF) hstruct).2.1 .int32⟩
  · exact (hbound _ _ _ _ rfl rfl hclass hclass).1.2 (by decide)
  · exact mt (hbound _ _ _ _ rfl rfl hclass hinterface).1.1 (by decide)

end ComponentIdl
