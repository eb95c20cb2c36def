/-!
# Loops

A loop changes a state step by step until the state says that it is over. It runs on fuel, which bounds
the number of steps.
-/

namespace ComponentIdl

structure Loop (σ : Type) where
  step : σ → σ
  /-- Whether no step is left to take. -/
  isOver : σ → Bool

/-- Steps until the loop is over, `fuel` times at most. -/
def Loop.run {σ : Type} (l : Loop σ) : Nat → σ → σ
  | 0, s => s
  | fuel + 1, s => if l.isOver s then s else l.run fuel (l.step s)

end ComponentIdl
