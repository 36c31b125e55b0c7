import Dorsche.Lib.Futures

/-!
Programs under a monitor.

A monitor reads the actions of a program with their replies and keeps a state of its
own: it says which actions are allowed in a state, and which replies are expected of
the surroundings there. `Prog.Keeps` is the precondition from which a program, answered
as expected, does nothing that is not allowed and ends as it should; `Attempt.Keeps`
has one postcondition for each way to end. The rules follow the program, so that a
proof with them is an execution of the program on states of the monitor.
-/

namespace Dorsche.Lib

variable {I : Type} {R : I → Type} {α β σ : Type}

structure Monitor (I : Type) (R : I → Type) (σ : Type) where
  allows : σ → I → Prop
  expects : σ → (i : I) → R i → Prop
  next : σ → (i : I) → R i → σ

namespace Monitor

variable (M : Monitor I R σ)

/-- The state after a run. -/
def after (s : σ) (t : List (Sigma R)) : σ := t.foldl (fun s e => M.next s e.1 e.2) s

/-- Every reply is one that is expected. -/
def Expected : σ → List (Sigma R) → Prop
  | _, [] => True
  | s, e :: t => M.expects s e.1 e.2 ∧ Expected (M.next s e.1 e.2) t

/-- Every action is one that is allowed. -/
def Allowed : σ → List (Sigma R) → Prop
  | _, [] => True
  | s, e :: t => M.allows s e.1 ∧ Allowed (M.next s e.1 e.2) t

end Monitor

variable {M : Monitor I R σ} {s : σ}

namespace Prog

/-- From `s` on, the program only does what is allowed, and ends in `Q`. -/
def Keeps (M : Monitor I R σ) (Q : α → σ → Prop) : Prog I R α → σ → Prop
  | .ret a, s => Q a s
  | .act i k, s => M.allows s i ∧ ∀ r, M.expects s i r → (k r).Keeps M Q (M.next s i r)

variable {p q : Prog I R α} {Q Q' : α → σ → Prop} {t : List (Sigma R)}

theorem Keeps.mono (keeps : p.Keeps M Q s) (post : ∀ a s', Q a s' → Q' a s') :
    p.Keeps M Q' s := by
  induction p generalizing s with
  | ret a => exact post a s keeps
  | act i k ih => exact ⟨keeps.1, fun r expected => ih r (keeps.2 r expected)⟩

theorem Keeps.bind {f : α → Prog I R β} {U : β → σ → Prop}
    (keeps : p.Keeps M (fun a s' => (f a).Keeps M U s') s) : (p >>= f).Keeps M U s := by
  induction p generalizing s with
  | ret a => exact keeps
  | act i k ih => exact ⟨keeps.1, fun r expected => ih r (keeps.2 r expected)⟩

/-- A run that is answered as expected does only what is allowed, and what is left of
the program goes on like that. -/
theorem Keeps.comes (keeps : p.Keeps M Q s) (comes : p.Comes t q) (expected : M.Expected s t) :
    M.Allowed s t ∧ q.Keeps M Q (M.after s t) := by
  induction comes generalizing s with
  | refl p => exact ⟨trivial, keeps⟩
  | act _ ih =>
      obtain ⟨allowed, left⟩ := ih (keeps.2 _ expected.1) expected.2
      exact ⟨⟨keeps.1, allowed⟩, left⟩

end Prog

namespace Attempt

/-- A postcondition for each way to end: with a value, with a failure, and with a spent
budget. -/
structure Post (α σ : Type) where
  ok : α → σ → Prop
  error : σ → Prop
  spent : σ → Prop

def Post.Holds (Q : Post α σ) : Option (Result α) → σ → Prop
  | some (.ok a), s => Q.ok a s
  | some (.error _), s => Q.error s
  | none, s => Q.spent s

/-- The postcondition of a part whose rest starts with `next`. -/
abbrev Post.before (Q : Post β σ) (next : α → σ → Prop) : Post α σ := ⟨next, Q.error, Q.spent⟩

def Keeps (M : Monitor I R σ) (x : Attempt I R α) (s : σ) (Q : Post α σ) : Prop :=
  x.run.run.Keeps M Q.Holds s

variable {x : Attempt I R α} {f : α → Attempt I R β} {Q Q' : Post α σ} {U : Post β σ}

theorem keeps_pure {a : α} (ok : Q.ok a s) : Keeps M (pure a) s Q := ok

theorem keeps_throw {e : String} (error : Q.error s) : Keeps M (throw e) s Q := error

theorem keeps_lift {r : Result α} (ok : ∀ a, r = .ok a → Q.ok a s)
    (error : ∀ e, r = .error e → Q.error s) : Keeps M (liftM r) s Q := by
  cases r with
  | ok a => exact keeps_pure (ok a rfl)
  | error e => exact keeps_throw (e := e) (error e rfl)

theorem keeps_perform {i : I} {Q : Post (R i) σ} (allowed : M.allows s i)
    (ok : ∀ r, M.expects s i r → Q.ok r (M.next s i r)) :
    Keeps M (always (Prog.perform i)) s Q :=
  ⟨allowed, ok⟩

theorem Keeps.mono (keeps : Keeps M x s Q) (ok : ∀ a s', Q.ok a s' → Q'.ok a s')
    (error : ∀ s', Q.error s' → Q'.error s') (spent : ∀ s', Q.spent s' → Q'.spent s') :
    Keeps M x s Q' := by
  refine Prog.Keeps.mono keeps fun out s' holds => ?_
  rcases out with _ | e | a
  · exact spent s' holds
  · exact error s' holds
  · exact ok a s' holds

theorem Keeps.bind (keeps : Keeps M x s (U.before fun a s' => Keeps M (f a) s' U)) :
    Keeps M (x >>= f) s U := by
  refine Prog.Keeps.bind (Prog.Keeps.mono keeps fun out s' holds => ?_)
  rcases out with _ | e | a
  · exact holds
  · exact holds
  · exact holds

theorem keeps_perform_bind {i : I} {f : R i → Attempt I R β} (allowed : M.allows s i)
    (rest : ∀ r, M.expects s i r → Keeps M (f r) (M.next s i r) U) :
    Keeps M (always (Prog.perform i) >>= f) s U :=
  Keeps.bind (keeps_perform allowed rest)

/-- The value of a result, or its failure. -/
theorem keeps_lift_bind {r : Result α} (ok : ∀ a, r = .ok a → Keeps M (f a) s U)
    (error : ∀ e, r = .error e → U.error s) : Keeps M (liftM r >>= f) s U :=
  Keeps.bind (keeps_lift ok error)

/-- A loop keeps an invariant that counts the turns taken. -/
theorem keeps_loop {turn : Attempt I R (Option α)} {budget : Nat} (Inv : Nat → σ → Prop)
    (step : ∀ n s, Inv n s → Keeps M turn s (Q.before fun next s' =>
      match next with
      | some a => Q.ok a s'
      | none => Inv (n + 1) s'))
    (spent : ∀ s, Inv budget s → Q.spent s) (begin : Inv 0 s) :
    Keeps M (loop turn budget) s Q := by
  suffices general : ∀ left n s, n + left = budget → Inv n s → Keeps M (loop turn left) s Q from
    general budget 0 s (Nat.zero_add _) begin
  intro left
  induction left with
  | zero =>
      intro n s total inv
      rw [Nat.add_zero] at total
      subst total
      exact spent s inv
  | succ left ih =>
      intro n s total inv
      refine Keeps.bind ((step n s inv).mono ?_ (fun _ holds => holds) fun _ holds => holds)
      intro next s' holds
      cases next with
      | some a => exact (keeps_pure holds : Keeps M (pure a) s' Q)
      | none => exact ih (n + 1) s' (by omega) holds

/-- A loop over a list keeps an invariant of what is done. -/
theorem keeps_foldlM {γ : Type} {body : β → γ → Attempt I R β} {items : List γ} {b : β}
    (Inv : List γ → β → σ → Prop)
    (step : ∀ done item rest b s, items = done ++ item :: rest → Inv done b s →
      Keeps M (body b item) s (U.before (Inv (done ++ [item]))))
    (ok : ∀ b s, Inv items b s → U.ok b s) (begin : Inv [] b s) :
    Keeps M (items.foldlM body b) s U := by
  suffices general : ∀ left done b s, items = done ++ left → Inv done b s →
      Keeps M (left.foldlM body b) s U from general items [] b s rfl begin
  intro left
  induction left with
  | nil =>
      intro done b s all inv
      rw [List.append_nil] at all
      subst all
      exact keeps_pure (ok b s inv)
  | cons item rest ih =>
      intro done b s all inv
      rw [List.foldlM_cons]
      refine Keeps.bind ((step done item rest b s all inv).mono ?_ (fun _ holds => holds)
        fun _ holds => holds)
      intro b' s' holds
      exact ih (done ++ [item]) b' s' (by rw [all, List.append_assoc, List.singleton_append]) holds

/-- What a run under a monitor comes to. -/
theorem Keeps.comes {t : List (Sigma R)} {q : Prog I R (Option (Result α))}
    (keeps : Keeps M x s Q) (comes : x.run.run.Comes t q) (expected : M.Expected s t) :
    M.Allowed s t ∧
      (∀ i k, q = .act i k → M.allows (M.after s t) i) ∧
      ∀ out, q = .ret out → Q.Holds out (M.after s t) := by
  obtain ⟨allowed, left⟩ := Prog.Keeps.comes keeps comes expected
  refine ⟨allowed, ?_, ?_⟩
  · rintro i k rfl
    exact left.1
  · rintro out rfl
    exact left

end Attempt

end Dorsche.Lib
