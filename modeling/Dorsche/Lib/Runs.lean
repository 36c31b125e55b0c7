import Mathlib.Data.List.Basic

/-!
Labelled runs of a step relation.

The log of a run is the list of the labels of its steps. A run can be cut wherever
its log can, so that a statement about every run also speaks of what comes after
some event.
-/

namespace Dorsche.Lib

variable {S L : Type} {Step : S → L → S → Prop}

/-- A run from one state to another, with the labels of its steps. -/
inductive Runs (Step : S → L → S → Prop) : S → List L → S → Prop where
  | nil {s : S} : Runs Step s [] s
  | cons {s s' s'' : S} {label : L} {log : List L} :
      Step s label s' → Runs Step s' log s'' → Runs Step s (label :: log) s''

namespace Runs

variable {s s' s'' : S} {label : L} {log log' : List L}

theorem append (first : Runs Step s log s') (second : Runs Step s' log' s'') :
    Runs Step s (log ++ log') s'' := by
  induction first with
  | nil => exact second
  | cons step _ ih => exact .cons step (ih second)

theorem snoc (run : Runs Step s log s') (step : Step s' label s'') :
    Runs Step s (log ++ [label]) s'' :=
  run.append (.cons step .nil)

/-- The state where the log is cut. -/
theorem split (run : Runs Step s (log ++ log') s'') :
    ∃ s', Runs Step s log s' ∧ Runs Step s' log' s'' := by
  induction log generalizing s with
  | nil => exact ⟨s, .nil, run⟩
  | cons label log ih =>
      cases run with
      | cons step rest =>
          obtain ⟨s', first, second⟩ := ih rest
          exact ⟨s', .cons step first, second⟩

/-- A map that takes steps to steps takes runs to runs. -/
theorem map {T : Type} {Step' : T → L → T → Prop} (f : S → T)
    (maps : ∀ s label s', Step s label s' → Step' (f s) label (f s')) (run : Runs Step s log s') :
    Runs Step' (f s) log (f s') := by
  induction run with
  | nil => exact .nil
  | cons step _ ih => exact .cons (maps _ _ _ step) ih

/-- A property of the log and the state that every step keeps. -/
theorem logged {P : List L → S → Prop}
    (keeps : ∀ log s label s', P log s → Step s label s' → P (log ++ [label]) s')
    (run : Runs Step s log s') (first : P [] s) : P log s' := by
  suffices general : ∀ before, P before s → P (before ++ log) s' from general [] first
  clear first
  induction run with
  | nil =>
      intro before holds
      rwa [List.append_nil]
  | cons step _ ih =>
      intro before holds
      have rest := ih _ (keeps _ _ _ _ holds step)
      rwa [List.append_assoc] at rest

end Runs

end Dorsche.Lib
