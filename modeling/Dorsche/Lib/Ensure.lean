import Mathlib.Data.List.Basic

/-!
Guarded computations in `Except`.

`ensure` is the early return of a failed check. `bind_eq_ok` takes a chain of
checks apart, so a caller never unfolds the checking function it calls.
-/

namespace Dorsche.Lib

/-- A computation that ends in a value or in an error text. -/
abbrev Result (α : Type) := Except String α

/-- Fail with `message` unless `c` holds. -/
def ensure (c : Prop) [Decidable c] (message : String) : Result Unit :=
  if c then .ok () else .error message

@[simp] theorem ensure_eq_ok {c : Prop} [Decidable c] {message : String} {u : Unit} :
    ensure c message = .ok u ↔ c := by
  unfold ensure
  split <;> simp [*]

/-- Put a text before the error of a failed computation. -/
def context {α : Type} (text : String) : Result α → Result α
  | .ok a => .ok a
  | .error cause => .error s!"{text}: {cause}"

section

variable {ε α β : Type}

/-- A sequence succeeds exactly when both parts do. -/
theorem bind_eq_ok {first : Except ε α} {rest : α → Except ε β} {b : β} :
    (do let a ← first; rest a) = .ok b ↔ ∃ a, first = .ok a ∧ rest a = .ok b := by
  rcases first with e | a
  · simp [bind, Except.bind]
  · simp [bind, Except.bind]

/-- Every element of a list passes a check, in order. -/
def checkAll (check : α → Except ε Unit) : List α → Except ε Unit
  | [] => .ok ()
  | a :: as => do
      check a
      checkAll check as

end

/-! ### Error texts -/

section

variable {α β : Type} {P : String → Prop}

/-- Every error of a computation has a text with `P`. -/
def ErrorsWith (P : String → Prop) (result : Result α) : Prop := ∀ e, result = .error e → P e

theorem errorsWith_ok {a : α} : ErrorsWith P (.ok a) := by
  rintro _ ⟨⟩

theorem errorsWith_ensure {c : Prop} [Decidable c] {message : String} (text : P message) :
    ErrorsWith P (ensure c message) := by
  intro e failed
  unfold ensure at failed
  split at failed
  · cases failed
  · exact Except.error.inj failed ▸ text

theorem errorsWith_bind {first : Result α} {rest : α → Result β} (firsts : ErrorsWith P first)
    (rests : ∀ a, first = .ok a → ErrorsWith P (rest a)) :
    ErrorsWith P (do let a ← first; rest a) := by
  intro e failed
  rcases first with e' | a
  · obtain rfl : e' = e := Except.error.inj failed
    exact firsts e' rfl
  · exact rests a rfl e failed

end

end Dorsche.Lib
