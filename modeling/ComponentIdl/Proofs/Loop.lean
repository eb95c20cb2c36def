import Mathlib.Data.List.Nodup
import ComponentIdl.Loop

/-!
# Runs of a loop

What every step keeps holds at the end of a run. A measure that every step lowers, unless it is the last
one, bounds the fuel that a run needs, and more fuel than it needs changes nothing.

A loop may work on a stack. What its steps push on the stack is never pushed twice if it is fresh before
it is pushed and not afterwards, and if no step makes anything fresh again.
-/

namespace ComponentIdl.Loop

variable {σ α : Type} {l : Loop σ} {s : σ} {P : σ → Prop}

theorem run_of_isOver (fuel : Nat) (h : l.isOver s) : l.run fuel s = s := by
  cases fuel with
  | zero => rfl
  | succ fuel => exact if_pos h

theorem run_succ (fuel : Nat) (h : ¬ l.isOver s) : l.run (fuel + 1) s = l.run fuel (l.step s) :=
  if_neg h

theorem run_preserves (hstep : ∀ s, P s → ¬ l.isOver s → P (l.step s)) (fuel : Nat) (h : P s) :
    P (l.run fuel s) := by
  induction fuel generalizing s with
  | zero => exact h
  | succ fuel ih =>
    by_cases hover : l.isOver s
    · rwa [run_of_isOver _ hover]
    · rw [run_succ fuel hover]
      exact ih (hstep s h hover)

theorem isOver_run {μ : σ → Nat} (hstep : ∀ s, P s → ¬ l.isOver s → P (l.step s))
    (hpos : ∀ s, ¬ l.isOver s → 0 < μ s)
    (hless : ∀ s, P s → ¬ l.isOver s → μ (l.step s) < μ s ∨ l.isOver (l.step s))
    (fuel : Nat) (h : P s) (hfuel : μ s ≤ fuel) : l.isOver (l.run fuel s) := by
  induction fuel generalizing s with
  | zero =>
    by_contra hover
    have hmore := hpos s hover
    omega
  | succ fuel ih =>
    by_cases hover : l.isOver s
    · rwa [run_of_isOver _ hover]
    · rw [run_succ fuel hover]
      rcases hless s h hover with hless | hlast
      · exact ih (hstep s h hover) (by omega)
      · rwa [run_of_isOver fuel hlast]

theorem run_enough (fuel : Nat) (h : l.isOver (l.run fuel s)) (k : Nat) (hk : fuel ≤ k) :
    l.run k s = l.run fuel s := by
  induction fuel generalizing s k with
  | zero => exact run_of_isOver k h
  | succ fuel ih =>
    by_cases hover : l.isOver s
    · rw [run_of_isOver k hover, run_of_isOver _ hover]
    · obtain ⟨k, rfl⟩ := Nat.exists_eq_add_of_le' hk
      rw [run_succ fuel hover] at h ⊢
      rw [← Nat.add_assoc, run_succ _ hover]
      exact ih h _ (Nat.le_add_left fuel k)

variable (l) (stack : σ → List α)

/-- What the next step pushes. -/
def pushed? (s : σ) : Option α :=
  if (stack s).length < (stack (l.step s)).length then (stack (l.step s)).head? else none

/-- What is pushed in the next `fuel` steps. -/
def pushes : Nat → σ → List α
  | 0, _ => []
  | fuel + 1, s =>
    if l.isOver s then [] else (l.pushed? stack s).toList ++ pushes fuel (l.step s)

variable {l stack}

theorem pushed?_of_le (h : (stack (l.step s)).length ≤ (stack s).length) :
    l.pushed? stack s = none :=
  if_neg (Nat.not_lt.2 h)

theorem pushed?_of_cons {a : α} (h : stack (l.step s) = a :: stack s) :
    l.pushed? stack s = some a := by
  simp [pushed?, h]

theorem pushes_of_isOver (fuel : Nat) (h : l.isOver s) : l.pushes stack fuel s = [] := by
  cases fuel with
  | zero => rfl
  | succ fuel => exact if_pos h

theorem pushes_succ (fuel : Nat) (h : ¬ l.isOver s) :
    l.pushes stack (fuel + 1) s =
      (l.pushed? stack s).toList ++ l.pushes stack fuel (l.step s) :=
  if_neg h

theorem pushes_fresh {F : σ → α → Prop} (hstep : ∀ s, P s → ¬ l.isOver s → P (l.step s))
    (hfresh : ∀ s, P s → ¬ l.isOver s → ∀ a, F (l.step s) a → F s a)
    (hpushed : ∀ s, P s → ¬ l.isOver s → ∀ a ∈ l.pushed? stack s, F s a ∧ ¬ F (l.step s) a)
    (fuel : Nat) (h : P s) :
    (l.pushes stack fuel s).Nodup ∧ ∀ a ∈ l.pushes stack fuel s, F s a := by
  induction fuel generalizing s with
  | zero => exact ⟨List.nodup_nil, nofun⟩
  | succ fuel ih =>
    by_cases hover : l.isOver s
    · rw [pushes_of_isOver _ hover]
      exact ⟨List.nodup_nil, nofun⟩
    · obtain ⟨hdistinct, hlater⟩ := ih (hstep s h hover)
      rw [pushes_succ fuel hover]
      refine ⟨List.nodup_append.2 ⟨Option.toList_nodup _, hdistinct, ?_⟩, ?_⟩
      · rintro a ha b hb rfl
        exact (hpushed s h hover a (Option.mem_toList.1 ha)).2 (hlater a hb)
      · intro a ha
        rcases List.mem_append.1 ha with ha | ha
        · exact (hpushed s h hover a (Option.mem_toList.1 ha)).1
        · exact hfresh s h hover a (hlater a ha)

end ComponentIdl.Loop
