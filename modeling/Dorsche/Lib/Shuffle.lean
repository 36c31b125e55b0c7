import Dorsche.Lib.Futures

/-!
The parts of a run of two futures that are polled together.

A run of `Attempt.tryJoin` or `Attempt.select` is a run of each side, in turns.
`Shuffles` says how the two were put together. What one side alone does is found in the
whole as that side did it.
-/

namespace Dorsche.Lib

variable {I : Type} {R : I → Type} {α β γ : Type}

namespace Prog.Shuffles

variable {poll : I} {t₁ t₂ t u : List (Sigma R)}

theorem symm (shuffles : Shuffles poll t₁ t₂ t) : Shuffles poll t₂ t₁ t := by
  induction shuffles with
  | nil => exact .nil
  | left _ ih => exact .right ih
  | right _ ih => exact .left ih
  | poll turn _ ih => exact .poll turn ih

/-- One side goes on alone. -/
theorem append_left (shuffles : Shuffles poll t₁ t₂ t) (u : List (Sigma R)) :
    Shuffles poll (t₁ ++ u) t₂ (t ++ u) := by
  induction shuffles with
  | nil =>
      induction u with
      | nil => exact .nil
      | cons e u ih => exact .left ih
  | left _ ih => exact .left ih
  | right _ ih => exact .right ih
  | poll turn _ ih => exact .poll turn ih

end Prog.Shuffles

namespace Attempt

variable {x : Attempt I R α} {y : Attempt I R β} {poll : I} {first : R poll → Bool}
  {urgent : I → Bool} {t : List (Sigma R)}

end Attempt

end Dorsche.Lib
