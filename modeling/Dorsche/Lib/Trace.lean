import Dorsche.Lib.Ensure
import Dorsche.Lib.Interleave

/-!
Programs against an environment that answers as it likes.

A trace lists the actions of a run, each with its reply. `Prog.Traces` says
which traces a program has and what it returns on each; no reply is excluded, so
a statement about every trace is a statement about every environment.

`Attempt` adds failure, which ends the program early, and a budget for loops: a
loop whose budget is spent ends with `none`, which is neither success nor
failure. `loop_spends` describes the runs that get so far, from which a
budget that is always enough is found.
-/

namespace Dorsche.Lib

variable {I : Type} {R : I → Type} {α β : Type}

namespace Prog

/-- Answered as in `t`, the program performs the actions of `t` and returns a value. -/
inductive Traces : Prog I R α → List (Sigma R) → α → Prop where
  | ret (a : α) : Traces (.ret a) [] a
  | act {i : I} {k : R i → Prog I R α} {r : R i} {t : List (Sigma R)} {a : α} :
      Traces (k r) t a → Traces (.act i k) (⟨i, r⟩ :: t) a

theorem traces_ret {a b : α} {t : List (Sigma R)} :
    (Prog.ret a : Prog I R α).Traces t b ↔ t = [] ∧ b = a := by
  constructor
  · rintro ⟨⟩
    exact ⟨rfl, rfl⟩
  · rintro ⟨rfl, rfl⟩
    exact .ret _

theorem traces_perform {i : I} {t : List (Sigma R)} {r : R i} :
    (perform i).Traces t r ↔ t = [⟨i, r⟩] := by
  constructor
  · rintro ⟨⟩
    rename_i traces
    obtain ⟨rfl, rfl⟩ := traces_ret.mp traces
    rfl
  · rintro rfl
    exact .act (.ret _)

theorem forall_mem_of_traces_perform {S : I → Prop} {i : I} (mem : S i) (t : List (Sigma R))
    (r : R i) (traces : (perform i).Traces t r) : ∀ e ∈ t, S e.1 := by
  rw [traces_perform.mp traces]
  exact List.forall_mem_singleton.mpr mem

/-- A trace of a sequence splits where its first part returns. -/
theorem traces_bind {p : Prog I R α} {f : α → Prog I R β} {t : List (Sigma R)} {b : β} :
    (p >>= f).Traces t b ↔ ∃ a t₁ t₂, t = t₁ ++ t₂ ∧ p.Traces t₁ a ∧ (f a).Traces t₂ b := by
  constructor
  · intro traces
    induction p generalizing t with
    | ret a => exact ⟨a, [], t, rfl, .ret a, traces⟩
    | act i k ih =>
        rcases traces with _ | traces
        obtain ⟨a, t₁, t₂, rfl, first, second⟩ := ih _ traces
        exact ⟨a, _ :: t₁, t₂, rfl, .act first, second⟩
  · rintro ⟨a, t₁, t₂, rfl, first, second⟩
    induction first with
    | ret a => exact second
    | act _ ih => exact .act (ih second)

theorem traces_map {p : Prog I R α} {g : α → β} {t : List (Sigma R)} {b : β} :
    (g <$> p).Traces t b ↔ ∃ a, p.Traces t a ∧ b = g a := by
  refine traces_bind.trans ⟨?_, ?_⟩
  · rintro ⟨a, t₁, t₂, rfl, first, second⟩
    obtain ⟨rfl, rfl⟩ := traces_ret.mp second
    exact ⟨a, by rwa [List.append_nil], rfl⟩
  · rintro ⟨a, first, rfl⟩
    exact ⟨a, t, [], (List.append_nil t).symm, first, .ret _⟩

/-- The trace and the value of a program under fixed answers. -/
def record (answers : (i : I) → R i) : Prog I R α → List (Sigma R) × α
  | .ret a => ([], a)
  | .act i k =>
      let (t, a) := (k (answers i)).record answers
      (⟨i, answers i⟩ :: t, a)

theorem traces_record (answers : (i : I) → R i) (p : Prog I R α) :
    p.Traces (p.record answers).1 (p.record answers).2 := by
  induction p with
  | ret a => exact .ret a
  | act i k ih => exact .act (ih (answers i))

end Prog

/-! ### Programs that fail and loop -/

/-- A program that may fail with a text, and may still be in a loop when the
budget of the loop is spent. -/
abbrev Attempt (I : Type) (R : I → Type) (α : Type) := ExceptT String (OptionT (Prog I R)) α

namespace Attempt

/-- The traces of an attempt; `none` is a spent budget. -/
def Traces (x : Attempt I R α) (t : List (Sigma R)) (out : Option (Result α)) : Prop :=
  x.run.run.Traces t out

/-- A program whose reply is a result. -/
def call (p : Prog I R (Result α)) : Attempt I R α := ExceptT.mk (OptionT.mk (some <$> p))

/-- A program that cannot fail. -/
def always (p : Prog I R α) : Attempt I R α :=
  ExceptT.mk (OptionT.mk ((fun a => some (.ok a)) <$> p))

/-- Run an attempt and keep its result instead of propagating a failure. -/
def outcome (x : Attempt I R α) : Attempt I R (Result α) :=
  ExceptT.mk (OptionT.mk (Option.map .ok <$> x.run.run))

/-- The end of a loop whose budget is spent. -/
def spent : Attempt I R α := ExceptT.mk OptionT.fail

/-- Take turns until one of them yields a value. -/
def loop (turn : Attempt I R (Option α)) : Nat → Attempt I R α
  | 0 => spent
  | budget + 1 => do
      match ← turn with
      | some a => return a
      | none => loop turn budget

variable {x : Attempt I R α} {f : α → Attempt I R β} {t : List (Sigma R)}

theorem traces_pure {a : α} {out : Option (Result α)} :
    Traces (pure a : Attempt I R α) t out ↔ t = [] ∧ out = some (.ok a) := Prog.traces_ret

theorem traces_throw {e : String} {out : Option (Result α)} :
    Traces (throw e : Attempt I R α) t out ↔ t = [] ∧ out = some (.error e) := Prog.traces_ret

theorem traces_spent {out : Option (Result α)} :
    Traces (spent : Attempt I R α) t out ↔ t = [] ∧ out = none := Prog.traces_ret

theorem traces_lift {r : Result α} {out : Option (Result α)} :
    Traces (liftM r : Attempt I R α) t out ↔ t = [] ∧ out = some r := by
  cases r with
  | ok a => exact Prog.traces_ret
  | error e => exact Prog.traces_ret

/-- A sequence succeeds through both parts, or ends where its first part ends. -/
theorem traces_bind {out : Option (Result β)} :
    Traces (x >>= f) t out ↔
      (∃ a t₁ t₂, t = t₁ ++ t₂ ∧ Traces x t₁ (some (.ok a)) ∧ Traces (f a) t₂ out) ∨
      (∃ e, Traces x t (some (.error e)) ∧ out = some (.error e)) ∨
      (Traces x t none ∧ out = none) := by
  refine Prog.traces_bind.trans ?_
  constructor
  · rintro ⟨_ | e | a, t₁, t₂, rfl, first, second⟩
    · obtain ⟨rfl, rfl⟩ := Prog.traces_ret.mp second
      exact .inr (.inr ⟨by rwa [List.append_nil], rfl⟩)
    · obtain ⟨rfl, rfl⟩ := Prog.traces_ret.mp second
      exact .inr (.inl ⟨e, by rwa [List.append_nil], rfl⟩)
    · exact .inl ⟨a, t₁, t₂, rfl, first, second⟩
  · rintro (⟨a, t₁, t₂, rfl, first, second⟩ | ⟨e, first, rfl⟩ | ⟨first, rfl⟩)
    · exact ⟨_, t₁, t₂, rfl, first, second⟩
    · exact ⟨_, t, [], (List.append_nil t).symm, first, .ret _⟩
    · exact ⟨_, t, [], (List.append_nil t).symm, first, .ret _⟩

/-- A sequence succeeds exactly when both parts do. -/
theorem traces_bind_ok {b : β} :
    Traces (x >>= f) t (some (.ok b)) ↔
      ∃ a t₁ t₂, t = t₁ ++ t₂ ∧ Traces x t₁ (some (.ok a)) ∧ Traces (f a) t₂ (some (.ok b)) := by
  simp [traces_bind]

/-- A sequence that returns goes through both parts, or fails in the first. -/
theorem traces_bind_some {r : Result β} :
    Traces (x >>= f) t (some r) ↔
      (∃ a t₁ t₂, t = t₁ ++ t₂ ∧ Traces x t₁ (some (.ok a)) ∧ Traces (f a) t₂ (some r)) ∨
      ∃ e, Traces x t (some (.error e)) ∧ r = .error e := by
  simp [traces_bind]

/-- A sequence that spends a budget does so in one of its parts. -/
theorem traces_bind_none :
    Traces (x >>= f) t none ↔
      (∃ a t₁ t₂, t = t₁ ++ t₂ ∧ Traces x t₁ (some (.ok a)) ∧ Traces (f a) t₂ none) ∨
      Traces x t none := by
  simp [traces_bind]

theorem traces_bind_of_ok {a : α} {t₂ : List (Sigma R)} {out : Option (Result β)}
    (first : Traces x t (some (.ok a))) (rest : Traces (f a) t₂ out) :
    Traces (x >>= f) (t ++ t₂) out :=
  traces_bind.mpr (.inl ⟨a, t, t₂, rfl, first, rest⟩)

theorem traces_bind_of_error {e : String} (first : Traces x t (some (.error e))) :
    Traces (x >>= f) t (some (.error e)) :=
  traces_bind.mpr (.inr (.inl ⟨e, first, rfl⟩))

theorem traces_call {p : Prog I R (Result α)} {out : Option (Result α)} :
    Traces (call p) t out ↔ ∃ r, p.Traces t r ∧ out = some r := Prog.traces_map

theorem traces_always {p : Prog I R α} {out : Option (Result α)} :
    Traces (always p) t out ↔ ∃ a, p.Traces t a ∧ out = some (.ok a) := Prog.traces_map

theorem traces_always_bind {p : Prog I R α} {out : Option (Result β)} :
    Traces (always p >>= f) t out ↔
      ∃ a t₁ t₂, t = t₁ ++ t₂ ∧ p.Traces t₁ a ∧ Traces (f a) t₂ out := by
  simp [traces_bind, traces_always]

theorem traces_outcome {out : Option (Result (Result α))} :
    Traces (outcome x) t out ↔ ∃ o, Traces x t o ∧ out = o.map .ok := Prog.traces_map

/-- A result kept as a value ends the program only by a spent budget. -/
theorem traces_outcome_bind {g : Result α → Attempt I R β} {out : Option (Result β)} :
    Traces (outcome x >>= g) t out ↔
      (∃ r t₁ t₂, t = t₁ ++ t₂ ∧ Traces x t₁ (some r) ∧ Traces (g r) t₂ out) ∨
      (Traces x t none ∧ out = none) := by
  refine traces_bind.trans ⟨?_, ?_⟩
  · rintro (⟨r, t₁, t₂, rfl, first, rest⟩ | ⟨e, first, -⟩ | ⟨first, rfl⟩)
    · obtain ⟨_ | o, traces, same⟩ := traces_outcome.mp first
      · cases same
      · cases same
        exact .inl ⟨_, t₁, t₂, rfl, traces, rest⟩
    · obtain ⟨_ | o, -, same⟩ := traces_outcome.mp first
      · cases same
      · cases same
    · obtain ⟨_ | o, traces, same⟩ := traces_outcome.mp first
      · exact .inr ⟨traces, rfl⟩
      · cases same
  · rintro (⟨r, t₁, t₂, rfl, first, rest⟩ | ⟨first, rfl⟩)
    · exact .inl ⟨r, t₁, t₂, rfl, traces_outcome.mpr ⟨_, first, rfl⟩, rest⟩
    · exact .inr (.inr ⟨traces_outcome.mpr ⟨_, first, rfl⟩, rfl⟩)

/-- A reply kept as a value never ends the program. -/
theorem traces_outcome_call_bind {p : Prog I R (Result α)} {g : Result α → Attempt I R β}
    {out : Option (Result β)} :
    Traces (outcome (call p) >>= g) t out ↔
      ∃ r t₁ t₂, t = t₁ ++ t₂ ∧ p.Traces t₁ r ∧ Traces (g r) t₂ out := by
  simp [traces_bind, traces_outcome, traces_call]

/-! ### Loops -/

section Loops

variable {turn : Attempt I R (Option α)} {budget : Nat}

/-- A loop that yields a value took it from its last turn. -/
theorem loop_yields {a : α} (traces : Traces (loop turn budget) t (some (.ok a))) :
    ∃ t₁ t₂, t = t₁ ++ t₂ ∧ Traces turn t₂ (some (.ok (some a))) := by
  induction budget generalizing t with
  | zero =>
      obtain ⟨-, ended⟩ := traces_spent.mp traces
      cases ended
  | succ budget ih =>
      obtain ⟨next, t₁, t₂, rfl, first, rest⟩ := traces_bind_ok.mp traces
      cases next with
      | none =>
          obtain ⟨u₁, u₂, rfl, last⟩ := ih rest
          exact ⟨t₁ ++ u₁, u₂, by rw [List.append_assoc], last⟩
      | some b =>
          obtain ⟨rfl, ended⟩ := traces_pure.mp rest
          cases ended
          exact ⟨[], t₁, by rw [List.append_nil, List.nil_append], first⟩

/-- A loop that spends its budget took that many turns. `P n t` is what `n` turns
with the trace `t` establish. -/
theorem loop_spends {P : Nat → List (Sigma R) → Prop} (begin : P 0 [])
    (more : ∀ n t u, P n t → Traces turn u (some (.ok none)) → P (n + 1) (t ++ u))
    (ends : ∀ u, ¬ Traces turn u none) (traces : Traces (loop turn budget) t none) :
    P budget t := by
  suffices general : ∀ n u, P n u → P (n + budget) (u ++ t) by
    simpa using general 0 [] begin
  induction budget generalizing t with
  | zero =>
      intro n u holds
      obtain ⟨rfl, -⟩ := traces_spent.mp traces
      simpa using holds
  | succ budget ih =>
      intro n u holds
      rcases traces_bind_none.mp traces with ⟨next, t₁, t₂, rfl, first, rest⟩ | first
      · cases next with
        | none =>
            have next := ih rest (n + 1) (u ++ t₁) (more n u t₁ holds first)
            rwa [List.append_assoc, Nat.add_right_comm] at next
        | some b => cases (traces_pure.mp rest).2
      · exact absurd first (ends _)

end Loops

/-! ### Programs without loops -/

/-- No run ends by a spent budget. -/
def Ends (x : Attempt I R α) : Prop := ∀ t, ¬ Traces x t none

theorem ends_pure {a : α} : Ends (pure a : Attempt I R α) := fun _ traces =>
  nomatch (traces_pure.mp traces).2

theorem ends_throw {e : String} : Ends (throw e : Attempt I R α) := fun _ traces =>
  nomatch (traces_throw.mp traces).2

theorem ends_lift {r : Result α} : Ends (liftM r : Attempt I R α) := fun _ traces =>
  nomatch (traces_lift.mp traces).2

theorem ends_call {p : Prog I R (Result α)} : Ends (call p) := by
  intro t traces
  obtain ⟨r, -, ended⟩ := traces_call.mp traces
  cases ended

theorem ends_always {p : Prog I R α} : Ends (always p) := by
  intro t traces
  obtain ⟨a, -, ended⟩ := traces_always.mp traces
  cases ended

theorem Ends.bind (first : Ends x) (rest : ∀ a, Ends (f a)) : Ends (x >>= f) := by
  intro t traces
  rcases traces_bind_none.mp traces with ⟨a, t₁, t₂, rfl, -, right⟩ | left
  · exact rest a t₂ right
  · exact first t left

/-! ### Programs of some actions only -/

/-- Every action of every run is one of `S`. -/
def Only (S : I → Prop) (x : Attempt I R α) : Prop :=
  ∀ t out, Traces x t out → ∀ e ∈ t, S e.1

section Only

variable {S : I → Prop}

theorem only_pure {a : α} : Only (R := R) S (pure a) := by
  intro t out traces
  obtain ⟨rfl, -⟩ := traces_pure.mp traces
  exact List.forall_mem_nil _

theorem only_throw {e : String} : Only (R := R) S (throw e : Attempt I R α) := by
  intro t out traces
  obtain ⟨rfl, -⟩ := traces_throw.mp traces
  exact List.forall_mem_nil _

theorem only_lift {r : Result α} : Only (R := R) S (liftM r) := by
  intro t out traces
  obtain ⟨rfl, -⟩ := traces_lift.mp traces
  exact List.forall_mem_nil _

theorem only_call {p : Prog I R (Result α)} (only : ∀ t r, p.Traces t r → ∀ e ∈ t, S e.1) :
    Only S (call p) := by
  intro t out traces
  obtain ⟨r, traces, -⟩ := traces_call.mp traces
  exact only t r traces

theorem only_always {p : Prog I R α} (only : ∀ t a, p.Traces t a → ∀ e ∈ t, S e.1) :
    Only S (always p) := by
  intro t out traces
  obtain ⟨a, traces, -⟩ := traces_always.mp traces
  exact only t a traces

theorem Only.bind (first : Only S x) (rest : ∀ a, Only S (f a)) : Only S (x >>= f) := by
  intro t out traces
  rcases traces_bind.mp traces with ⟨a, t₁, t₂, rfl, left, right⟩ | ⟨e, left, -⟩ | ⟨left, -⟩
  · exact List.forall_mem_append.mpr ⟨first _ _ left, rest a _ _ right⟩
  · exact first _ _ left
  · exact first _ _ left

theorem Only.loop {turn : Attempt I R (Option α)} (only : Only S turn) (budget : Nat) :
    Only S (loop turn budget) := by
  induction budget with
  | zero =>
      intro t out traces
      obtain ⟨rfl, -⟩ := traces_spent.mp traces
      exact List.forall_mem_nil _
  | succ budget ih =>
      apply only.bind
      intro next
      cases next with
      | none => exact ih
      | some a => exact only_pure

end Only

end Attempt

end Dorsche.Lib
