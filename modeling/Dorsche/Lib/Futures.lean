import Dorsche.Lib.Trace

/-!
Programs that are left half-way, and futures that are polled together.

`Prog.Comes` is a run as far as it has come, so it also speaks about a program that
never returns: one that is killed, or one that waits for a reply of an empty type,
which is how a panic is written. `Prog.Ensures` is read off the program and bounds
what such a run does.

`Prog.together` polls two programs in turns and asks its surroundings whose turn
it is; `Attempt.tryJoin` and `Attempt.select` are the two ways to end that.
`Attempt.FailsBy` says that a program fails exactly when it is answered so.
-/

namespace Dorsche.Lib

variable {I J : Type} {R : I → Type} {S : J → Type} {α β γ : Type}

namespace Prog

/-- Answered as in `t`, the program has performed the actions of `t`, and `q` is left. -/
inductive Comes : Prog I R α → List (Sigma R) → Prog I R α → Prop where
  | refl (p : Prog I R α) : Comes p [] p
  | act {i : I} {k : R i → Prog I R α} {r : R i} {t : List (Sigma R)} {q : Prog I R α} :
      Comes (k r) t q → Comes (.act i k) (⟨i, r⟩ :: t) q

variable {p q : Prog I R α} {t : List (Sigma R)}

theorem comes_ret_iff {a : α} : p.Comes t (.ret a) ↔ p.Traces t a := by
  constructor
  · intro comes
    generalize last : Prog.ret a = q at comes
    induction comes with
    | refl p =>
        subst last
        exact .ret a
    | act _ ih => exact .act (ih last)
  · intro traces
    induction traces with
    | ret a => exact .refl _
    | act _ ih => exact .act ih

/-- The replies decide where a run is. -/
theorem Comes.unique {q' : Prog I R α} (comes : p.Comes t q) (other : p.Comes t q') : q = q' := by
  induction comes with
  | refl p =>
      cases other
      rfl
  | act _ ih =>
      cases other with
      | act other => exact ih other

/-- A run of a sequence is about to act in its first part, or has left it. -/
theorem Comes.bind {f : α → Prog I R β} {q : Prog I R β} (comes : (p >>= f).Comes t q) :
    (∃ i k, p.Comes t (.act i k) ∧ q = .act i fun r => k r >>= f) ∨
      ∃ a t₁ t₂, t = t₁ ++ t₂ ∧ p.Traces t₁ a ∧ (f a).Comes t₂ q := by
  induction p generalizing t with
  | ret a => exact .inr ⟨a, [], t, rfl, .ret a, comes⟩
  | act i k ih =>
      cases comes with
      | refl => exact .inl ⟨i, k, .refl _, rfl⟩
      | act comes =>
          rcases ih _ comes with ⟨j, l, first, rfl⟩ | ⟨a, t₁, t₂, rfl, first, second⟩
          · exact .inl ⟨j, l, .act first, rfl⟩
          · exact .inr ⟨a, _ :: t₁, t₂, rfl, .act first, second⟩

/-- The first part of a sequence is about to act. -/
theorem Comes.bind_left {f : α → Prog I R β} {i : I} {k : R i → Prog I R α}
    (comes : p.Comes t (.act i k)) : (p >>= f).Comes t (.act i fun r => k r >>= f) := by
  generalize next : Prog.act i k = q at comes
  induction comes with
  | refl p =>
      subst next
      exact .refl _
  | act _ ih => exact .act (ih next)

/-- The first part of a sequence has returned. -/
theorem Traces.comes_bind {f : α → Prog I R β} {a : α} {u : List (Sigma R)} {q : Prog I R β}
    (traces : p.Traces t a) (comes : (f a).Comes u q) : (p >>= f).Comes (t ++ u) q := by
  induction traces with
  | ret a => exact comes
  | act _ ih => exact .act (ih comes)

/-- A run goes on from where it has come. -/
theorem Comes.traces {u : List (Sigma R)} {a : α} (comes : p.Comes t q) (traces : q.Traces u a) :
    p.Traces (t ++ u) a := by
  induction comes with
  | refl p => exact traces
  | act _ ih => exact .act (ih traces)

/-- Every action the program can come to is one of `P`, and every value it can return
one of `Q`. -/
def Ensures (P : I → Prop) (Q : α → Prop) : Prog I R α → Prop
  | .ret a => Q a
  | .act i k => P i ∧ ∀ r, (k r).Ensures P Q

section Ensures

variable {P P' : I → Prop} {Q Q' : α → Prop}

theorem Ensures.mono (ensures : p.Ensures P Q) (acts : ∀ i, P i → P' i)
    (values : ∀ a, Q a → Q' a) : p.Ensures P' Q' := by
  induction p with
  | ret a => exact values a ensures
  | act i k ih => exact ⟨acts i ensures.1, fun r => ih r (ensures.2 r)⟩

theorem Ensures.bind {f : α → Prog I R β} {U : β → Prop} (first : p.Ensures P Q)
    (rest : ∀ a, Q a → (f a).Ensures P U) : (p >>= f).Ensures P U := by
  induction p with
  | ret a => exact rest a first
  | act i k ih => exact ⟨first.1, fun r => ih r (first.2 r)⟩

/-- A run keeps to it, and so does what is left. -/
theorem Ensures.comes (ensures : p.Ensures P Q) (comes : p.Comes t q) :
    (∀ e ∈ t, P e.1) ∧ q.Ensures P Q := by
  induction comes with
  | refl p => exact ⟨List.forall_mem_nil _, ensures⟩
  | act _ ih =>
      obtain ⟨done, left⟩ := ih (ensures.2 _)
      exact ⟨List.forall_mem_cons.mpr ⟨ensures.1, done⟩, left⟩

end Ensures

/-- The trace and the value of a program under fixed answers, if it needs no other. -/
def record? (answers : (i : I) → Option (R i)) : Prog I R α → Option (List (Sigma R) × α)
  | .ret a => some ([], a)
  | .act i k => (answers i).bind fun r =>
      ((k r).record? answers).map fun out => (⟨i, r⟩ :: out.1, out.2)

theorem traces_of_record? {answers : (i : I) → Option (R i)} {a : α}
    (recorded : p.record? answers = some (t, a)) : p.Traces t a := by
  induction p generalizing t with
  | ret b =>
      cases recorded
      exact .ret _
  | act i k ih =>
      obtain ⟨r, -, recorded⟩ := Option.bind_eq_some_iff.mp recorded
      obtain ⟨⟨u, b⟩, rest, same⟩ := Option.map_eq_some_iff.mp recorded
      cases same
      exact .act (ih r rest)

/-- The trace and the value of a program under answers that change, if it needs no
other. -/
def recordFrom {σ : Type} (answers : (i : I) → σ → Option (R i × σ)) :
    Prog I R α → σ → Option (List (Sigma R) × α)
  | .ret a, _ => some ([], a)
  | .act i k, s => (answers i s).bind fun (r, s') =>
      ((k r).recordFrom answers s').map fun out => (⟨i, r⟩ :: out.1, out.2)

theorem traces_of_recordFrom {σ : Type} {answers : (i : I) → σ → Option (R i × σ)} {s : σ} {a : α}
    (recorded : p.recordFrom answers s = some (t, a)) : p.Traces t a := by
  induction p generalizing t s with
  | ret b =>
      cases recorded
      exact .ret _
  | act i k ih =>
      obtain ⟨⟨r, s'⟩, -, recorded⟩ := Option.bind_eq_some_iff.mp recorded
      obtain ⟨⟨u, b⟩, rest, same⟩ := Option.map_eq_some_iff.mp recorded
      cases same
      exact .act (ih r rest)

/-- How far a program comes under fixed answers, and what is left. -/
def reach (answers : (i : I) → Option (R i)) : Prog I R α → List (Sigma R) × Prog I R α
  | .ret a => ([], .ret a)
  | .act i k =>
      match answers i with
      | none => ([], .act i k)
      | some r =>
          let (t, rest) := (k r).reach answers
          (⟨i, r⟩ :: t, rest)

/-- The same program, its actions named in a larger set. -/
def within (f : I → J) : Prog I (fun i => S (f i)) α → Prog J S α
  | .ret a => .ret a
  | .act i k => .act (f i) fun r => (k r).within f

/-- An action and its reply, named in a larger set. -/
def named (f : I → J) (e : (i : I) × S (f i)) : Sigma S := ⟨f e.1, e.2⟩

theorem traces_within {f : I → J} {p : Prog I (fun i => S (f i)) α} {t : List (Sigma S)} {a : α} :
    (p.within f).Traces t a ↔ ∃ u, p.Traces u a ∧ t = u.map (named f) := by
  constructor
  · intro traces
    induction p generalizing t with
    | ret b =>
        obtain ⟨rfl, rfl⟩ := traces_ret.mp traces
        exact ⟨[], .ret _, rfl⟩
    | act i k ih =>
        cases traces with
        | act traces =>
            obtain ⟨u, inner, rfl⟩ := ih _ traces
            exact ⟨⟨i, _⟩ :: u, .act inner, rfl⟩
  · rintro ⟨u, traces, rfl⟩
    induction traces with
    | ret a => exact .ret a
    | act _ ih => exact .act ih

theorem comes_within {f : I → J} {p : Prog I (fun i => S (f i)) α} {t : List (Sigma S)} {j : J}
    {k : S j → Prog J S α} (comes : (p.within f).Comes t (.act j k)) :
    ∃ u i l, t = u.map (named f) ∧ p.Comes u (.act i l) ∧ j = f i := by
  induction p generalizing t with
  | ret a => cases comes
  | act i l ih =>
      cases comes with
      | refl => exact ⟨[], i, l, rfl, .refl _, rfl⟩
      | act rest =>
          obtain ⟨u, i', l', rfl, inside, same⟩ := ih _ rest
          exact ⟨⟨i, _⟩ :: u, i', l', rfl, .act inside, same⟩

/-! ### Polling in turns -/

/-- `i` is next on one side; the other side is polled in turn with it. What is `urgent`
is done in the poll that comes to it. -/
def beside (poll : I) (first : R poll → Bool) (urgent : I → Bool) (i : I)
    (step : R i → Prog I R β → Prog I R γ) (done : β → Prog I R γ) : Prog I R β → Prog I R γ
  | .ret b => done b
  | .act j l =>
      if urgent j then .act j fun r => beside poll first urgent i step done (l r)
      else .act poll fun turn =>
        if first turn then .act i fun r => step r (.act j l)
        else .act j fun r => beside poll first urgent i step done (l r)

/-- Two programs in turns, until one of them returns; what then becomes of the rest
of the other is said by `left` and `right`. -/
def together (poll : I) (first : R poll → Bool) (urgent : I → Bool)
    (left : α → Prog I R β → Prog I R γ) (right : β → Prog I R α → Prog I R γ) :
    Prog I R α → Prog I R β → Prog I R γ
  | .ret a, q => left a q
  | .act i k, q =>
      if urgent i then .act i fun r => together poll first urgent left right (k r) q
      else beside poll first urgent i (fun r => together poll first urgent left right (k r))
        (fun b => right b (.act i k)) q

/-- Two runs in some order, with polls between. -/
inductive Shuffles (poll : I) :
    List (Sigma R) → List (Sigma R) → List (Sigma R) → Prop where
  | nil : Shuffles poll [] [] []
  | left {e : Sigma R} {t₁ t₂ t : List (Sigma R)} :
      Shuffles poll t₁ t₂ t → Shuffles poll (e :: t₁) t₂ (e :: t)
  | right {e : Sigma R} {t₁ t₂ t : List (Sigma R)} :
      Shuffles poll t₁ t₂ t → Shuffles poll t₁ (e :: t₂) (e :: t)
  | poll {t₁ t₂ t : List (Sigma R)} (turn : R poll) :
      Shuffles poll t₁ t₂ t → Shuffles poll t₁ t₂ (⟨poll, turn⟩ :: t)

theorem Shuffles.forall_mem {poll : I} {t₁ t₂ t : List (Sigma R)}
    (shuffles : Shuffles poll t₁ t₂ t) {P : Sigma R → Prop} (polls : ∀ turn, P ⟨poll, turn⟩) :
    (∀ e ∈ t, P e) ↔ (∀ e ∈ t₁, P e) ∧ ∀ e ∈ t₂, P e := by
  induction shuffles with
  | nil => simp
  | left _ ih =>
      simp only [List.forall_mem_cons, ih]
      exact and_assoc.symm
  | right _ ih =>
      simp only [List.forall_mem_cons, ih]
      exact and_left_comm
  | poll turn _ ih => rw [List.forall_mem_cons, and_iff_right (polls turn), ih]

section Together

variable {poll : I} {first : R poll → Bool} {urgent : I → Bool}
  {left : α → Prog I R β → Prog I R γ} {right : β → Prog I R α → Prog I R γ}

/-- Both sides run, one of them to its end. -/
theorem traces_together {q : Prog I R β} {c : γ}
    (traces : (together poll first urgent left right p q).Traces t c) :
    ∃ t₁ t₂ woven rest, t = woven ++ rest ∧ Shuffles poll t₁ t₂ woven ∧
      ((∃ a q', p.Traces t₁ a ∧ q.Comes t₂ q' ∧ (left a q').Traces rest c) ∨
        ∃ b p', q.Traces t₂ b ∧ p.Comes t₁ p' ∧ (right b p').Traces rest c) := by
  induction p generalizing q t with
  | ret a => exact ⟨[], [], [], t, rfl, .nil, .inl ⟨a, q, .ret a, .refl q, traces⟩⟩
  | act i k ih =>
      -- a step of the left side, after the polls `before`
      have onLeft {q : Prog I R β} {r : R i} {u : List (Sigma R)}
          (going : (together poll first urgent left right (k r) q).Traces u c) :
          ∃ t₁ t₂ woven rest, ⟨i, r⟩ :: u = woven ++ rest ∧ Shuffles poll t₁ t₂ woven ∧
            ((∃ a q', (act i k).Traces t₁ a ∧ q.Comes t₂ q' ∧ (left a q').Traces rest c) ∨
              ∃ b p', q.Traces t₂ b ∧ (act i k).Comes t₁ p' ∧ (right b p').Traces rest c) := by
        obtain ⟨t₁, t₂, woven, rest, rfl, shuffles, ends⟩ := ih r going
        refine ⟨⟨i, r⟩ :: t₁, t₂, ⟨i, r⟩ :: woven, rest, rfl, shuffles.left, ?_⟩
        rcases ends with ⟨a, q', runs, comes, after⟩ | ⟨b, p', runs, comes, after⟩
        · exact .inl ⟨a, q', .act runs, comes, after⟩
        · exact .inr ⟨b, p', runs, .act comes, after⟩
      rw [together] at traces
      split at traces
      · cases traces with
        | act going => exact onLeft going
      · induction q generalizing t with
        | ret b => exact ⟨[], [], [], t, rfl, .nil, .inr ⟨b, _, .ret b, .refl _, traces⟩⟩
        | act j l ih' =>
            have onRight {r : R j} {u : List (Sigma R)} (going : (beside poll first urgent i
                (fun r => together poll first urgent left right (k r))
                (fun b => right b (.act i k)) (l r)).Traces u c) :
                ∃ t₁ t₂ woven rest, ⟨j, r⟩ :: u = woven ++ rest ∧ Shuffles poll t₁ t₂ woven ∧
                  ((∃ a q', (act i k).Traces t₁ a ∧ (act j l).Comes t₂ q' ∧
                      (left a q').Traces rest c) ∨
                    ∃ b p', (act j l).Traces t₂ b ∧ (act i k).Comes t₁ p' ∧
                      (right b p').Traces rest c) := by
              obtain ⟨t₁, t₂, woven, rest, rfl, shuffles, ends⟩ := ih' r going
              refine ⟨t₁, ⟨j, r⟩ :: t₂, ⟨j, r⟩ :: woven, rest, rfl, shuffles.right, ?_⟩
              rcases ends with ⟨a, q', runs, comes, after⟩ | ⟨b, p', runs, comes, after⟩
              · exact .inl ⟨a, q', runs, .act comes, after⟩
              · exact .inr ⟨b, p', .act runs, comes, after⟩
            rw [beside] at traces
            split at traces
            · cases traces with
              | act going => exact onRight going
            · cases traces with
              | @act _ _ turn u _ polled =>
                  have more : ∃ t₁ t₂ woven rest, u = woven ++ rest ∧
                      Shuffles poll t₁ t₂ woven ∧
                      ((∃ a q', (act i k).Traces t₁ a ∧ (act j l).Comes t₂ q' ∧
                          (left a q').Traces rest c) ∨
                        ∃ b p', (act j l).Traces t₂ b ∧ (act i k).Comes t₁ p' ∧
                          (right b p').Traces rest c) := by
                    dsimp only at polled
                    split at polled
                    · cases polled with
                      | act going => exact onLeft going
                    · cases polled with
                      | act going => exact onRight going
                  obtain ⟨t₁, t₂, woven, rest, rfl, shuffles, ends⟩ := more
                  exact ⟨t₁, t₂, ⟨poll, turn⟩ :: woven, rest, rfl, shuffles.poll turn, ends⟩

end Together

end Prog

namespace Attempt

variable {x : Attempt I R α} {y : Attempt I R β} {t : List (Sigma R)}

/-- A sequence that is about to act is in its first part, or has left it with a value. -/
theorem comes_bind {f : α → Attempt I R β} {i : I} {k : R i → Prog I R (Option (Result β))}
    (comes : (x >>= f).run.run.Comes t (.act i k)) :
    (∃ k', x.run.run.Comes t (.act i k')) ∨
      ∃ a t₁ t₂, t = t₁ ++ t₂ ∧ Traces x t₁ (some (.ok a)) ∧
        (f a).run.run.Comes t₂ (.act i k) := by
  rcases Prog.Comes.bind comes with ⟨j, l, first, same⟩ | ⟨out, t₁, t₂, rfl, first, second⟩
  · cases same
    exact .inl ⟨l, first⟩
  · rcases out with _ | e | a
    · cases second
    · cases second
    · exact .inr ⟨a, t₁, t₂, rfl, first, second⟩

theorem comes_outcome_bind {g : Result α → Attempt I R β} {i : I}
    {k : R i → Prog I R (Option (Result β))}
    (comes : (x.outcome >>= g).run.run.Comes t (.act i k)) :
    (∃ k', x.run.run.Comes t (.act i k')) ∨
      ∃ r t₁ t₂, t = t₁ ++ t₂ ∧ Traces x t₁ (some r) ∧ (g r).run.run.Comes t₂ (.act i k) := by
  rcases comes_bind comes with ⟨k', first⟩ | ⟨r, t₁, t₂, rfl, first, rest⟩
  · rcases Prog.Comes.bind first with ⟨j, l, inside, same⟩ | ⟨_, _, _, _, _, ended⟩
    · cases same
      exact .inl ⟨l, inside⟩
    · cases ended
  · obtain ⟨_ | r', traces, same⟩ := traces_outcome.mp first
    · cases same
    · cases same
      exact .inr ⟨_, t₁, t₂, rfl, traces, rest⟩

theorem comes_lift_bind {r : Result α} {f : α → Attempt I R β} {i : I}
    {k : R i → Prog I R (Option (Result β))}
    (comes : (liftM r >>= f : Attempt I R β).run.run.Comes t (.act i k)) :
    ∃ a, r = .ok a ∧ (f a).run.run.Comes t (.act i k) := by
  cases r with
  | ok a => exact ⟨a, rfl, comes⟩
  | error e => cases comes

/-! ### What every run does -/

/-- Every action the attempt can come to is one of `P`, and every value it can succeed
with one of `Q`. -/
def Ensures (P : I → Prop) (Q : α → Prop) (x : Attempt I R α) : Prop :=
  x.run.run.Ensures P fun out => ∀ a, out = some (.ok a) → Q a

section Ensures

variable {P : I → Prop} {Q : α → Prop}

theorem ensures_pure {a : α} (value : Q a) : Ensures (R := R) P Q (pure a) := by
  rintro _ ⟨⟩
  exact value

theorem ensures_throw {e : String} : Ensures (R := R) P Q (throw e) := by
  rintro _ ⟨⟩

theorem ensures_spent : Ensures (R := R) P Q spent := by
  rintro _ ⟨⟩

theorem ensures_lift {r : Result α} (value : ∀ a, r = .ok a → Q a) :
    Ensures (R := R) P Q (liftM r) := by
  cases r with
  | ok a => exact ensures_pure (value a rfl)
  | error e => exact ensures_throw

theorem Ensures.mono {P' : I → Prop} {Q' : α → Prop} (ensures : Ensures P Q x)
    (acts : ∀ i, P i → P' i) (values : ∀ a, Q a → Q' a) : Ensures P' Q' x :=
  Prog.Ensures.mono ensures acts fun _ value a same => values a (value a same)

theorem Ensures.bind {f : α → Attempt I R β} {U : β → Prop} (first : Ensures P Q x)
    (rest : ∀ a, Q a → Ensures P U (f a)) : Ensures P U (x >>= f) := by
  refine Prog.Ensures.bind first fun out value => ?_
  rcases out with _ | e | a
  · exact ensures_spent
  · exact ensures_throw (e := e)
  · exact rest a (value a rfl)

theorem Ensures.outcome (ensures : Ensures P Q x) :
    Ensures P (fun r => ∀ a, r = .ok a → Q a) x.outcome := by
  refine Prog.Ensures.bind ensures fun out value => ?_
  rintro r same a rfl
  cases out with
  | none => cases same
  | some result =>
      cases same
      exact value a rfl

theorem Ensures.loop {turn : Attempt I R (Option α)}
    (ensures : Ensures P (fun next => ∀ a, next = some a → Q a) turn) (budget : Nat) :
    Ensures P Q (loop turn budget) := by
  induction budget with
  | zero => exact ensures_spent
  | succ budget ih =>
      apply ensures.bind
      intro next value
      cases next with
      | none => exact ih
      | some a => exact ensures_pure (value a rfl)

/-- A run keeps to it. -/
theorem Ensures.forall_mem {out : Option (Result α)} (ensures : Ensures P Q x)
    (traces : x.Traces t out) : ∀ e ∈ t, P e.1 :=
  (Prog.Ensures.comes ensures (Prog.comes_ret_iff.mpr traces)).1

end Ensures

/-! ### Two futures -/

/-- An attempt that has come to its end. -/
def settled (out : Option (Result α)) : Attempt I R α := ExceptT.mk (OptionT.mk (.ret out))

/-- Both to their ends, or the first failure; the other future is then dropped. -/
def tryJoin (poll : I) (first : R poll → Bool) (urgent : I → Bool) (x : Attempt I R α)
    (y : Attempt I R β) : Attempt I R (α × β) :=
  ExceptT.mk (OptionT.mk (Prog.together poll first urgent
    (fun out rest => ExceptT.run (m := OptionT (Prog I R)) (do
      let a ← settled out
      let b ← ExceptT.mk (OptionT.mk rest)
      return (a, b)))
    (fun out rest => ExceptT.run (m := OptionT (Prog I R)) (do
      let b ← settled out
      let a ← ExceptT.mk (OptionT.mk rest)
      return (a, b)))
    x.run.run y.run.run))

/-- The first to come to its end; the other future is then dropped. -/
def select (poll : I) (first : R poll → Bool) (urgent : I → Bool) (x y : Attempt I R α) :
    Attempt I R α :=
  ExceptT.mk (OptionT.mk (Prog.together poll first urgent (fun out _ => .ret out)
    (fun out _ => .ret out) x.run.run y.run.run))

/-! ### Failing by an answer -/

/-- A run that returns succeeds exactly if none of its replies is a failure. -/
def FailsBy (fails : Sigma R → Prop) (x : Attempt I R α) : Prop :=
  ∀ t r, Traces x t (some r) → ((∃ a, r = .ok a) ↔ ∀ e ∈ t, ¬ fails e)

section FailsBy

variable {fails : Sigma R → Prop}

theorem failsBy_pure {a : α} : FailsBy fails (pure a) := by
  intro t r traces
  obtain ⟨rfl, same⟩ := traces_pure.mp traces
  cases same
  exact iff_of_true ⟨a, rfl⟩ (List.forall_mem_nil _)

theorem FailsBy.congr {fails' : Sigma R → Prop} (failsBy : FailsBy fails x)
    (agree : ∀ e, fails e ↔ fails' e) : FailsBy fails' x := by
  intro t r traces
  simpa only [agree] using failsBy t r traces

/-- A computation that succeeds. -/
theorem failsBy_lift {r : Result α} {a : α} (ok : r = .ok a) :
    FailsBy fails (liftM r : Attempt I R α) := by
  subst ok
  exact failsBy_pure

theorem FailsBy.bind {f : α → Attempt I R β} (first : FailsBy fails x)
    (rest : ∀ a, FailsBy fails (f a)) : FailsBy fails (x >>= f) := by
  intro t r traces
  rcases traces_bind_some.mp traces with ⟨a, t₁, t₂, rfl, left, right⟩ | ⟨e, left, rfl⟩
  · have before := (first t₁ _ left).mp ⟨a, rfl⟩
    rw [List.forall_mem_append, rest a t₂ r right]
    exact (and_iff_right before).symm
  · rw [← first t _ left]
    refine iff_of_false ?_ ?_
    · rintro ⟨_, ⟨⟩⟩
    · rintro ⟨_, ⟨⟩⟩

theorem failsBy_perform {i : I} {f : R i → Attempt I R β}
    (answered : ∀ r, ¬ fails ⟨i, r⟩ → FailsBy fails (f r))
    (refused : ∀ r, fails ⟨i, r⟩ → ∃ e, f r = throw e) :
    FailsBy fails (always (Prog.perform i) >>= f) := by
  intro t r traces
  obtain ⟨reply, t₁, t₂, rfl, asked, rest⟩ := traces_always_bind.mp traces
  obtain rfl := Prog.traces_perform.mp asked
  rw [List.singleton_append, List.forall_mem_cons]
  by_cases failed : fails ⟨i, reply⟩
  · obtain ⟨e, throws⟩ := refused reply failed
    rw [throws] at rest
    obtain ⟨-, same⟩ := traces_throw.mp rest
    cases same
    refine iff_of_false ?_ fun none => none.1 failed
    rintro ⟨_, ⟨⟩⟩
  · rw [answered reply failed t₂ r rest]
    exact (and_iff_right failed).symm

/-- A request whose reply says whether it failed. -/
theorem failsBy_perform_lift {i : I} {f : R i → Result α}
    (agree : ∀ r, fails ⟨i, r⟩ ↔ ∃ e, f r = .error e) :
    FailsBy fails (always (Prog.perform i) >>= fun r => liftM (f r)) := by
  refine failsBy_perform (fun r answered => ?_) fun r refused => ?_
  · cases same : f r with
    | ok a => exact failsBy_pure
    | error e => exact absurd ((agree r).mpr ⟨e, same⟩) answered
  · obtain ⟨e, same⟩ := (agree r).mp refused
    exact ⟨e, by rw [same]; rfl⟩

/-- The same, with what follows it. -/
theorem failsBy_perform_lift_bind {i : I} {f : R i → Result α} {g : α → Attempt I R β}
    (agree : ∀ r, fails ⟨i, r⟩ ↔ ∃ e, f r = .error e) (rest : ∀ a, FailsBy fails (g a)) :
    FailsBy fails (always (Prog.perform i) >>= fun r => liftM (f r) >>= g) := by
  refine failsBy_perform (fun r answered => ?_) fun r refused => ?_
  · cases same : f r with
    | ok a => exact failsBy_pure.bind rest
    | error e => exact absurd ((agree r).mpr ⟨e, same⟩) answered
  · obtain ⟨e, same⟩ := (agree r).mp refused
    exact ⟨e, by rw [same]; rfl⟩

theorem FailsBy.forM {body : β → Attempt I R PUnit} (every : ∀ b, FailsBy fails (body b))
    (l : List β) : FailsBy fails (l.forM body) := by
  induction l with
  | nil => exact failsBy_pure
  | cons b l ih => exact (every b).bind fun _ => ih

/-- A result that is kept fails nothing. -/
theorem failsBy_outcome {P : I → Prop} {Q : α → Prop} (ensures : Ensures P Q x)
    (harmless : ∀ e, P e.1 → ¬ fails e) : FailsBy fails x.outcome := by
  intro t r traces
  obtain ⟨out, ran, same⟩ := traces_outcome.mp traces
  cases out with
  | none => cases same
  | some result =>
      cases same
      exact iff_of_true ⟨result, rfl⟩ fun e mem => harmless e (ensures.forall_mem ran e mem)

/-- One side has come to its end; the pair ends as the rest of the other does. -/
theorem FailsBy.rest {t₁ t₂ u : List (Sigma R)} {out : Option (Result α)} {f : α → β → γ}
    {rest : Prog I R (Option (Result β))} {r : Result γ} (hx : FailsBy fails x)
    (hy : FailsBy fails y) (ended : x.Traces t₁ out) (comes : y.run.run.Comes t₂ rest)
    (after : Attempt.Traces (do
      let a ← settled out
      let b ← ExceptT.mk (OptionT.mk rest)
      return f a b) u (some r)) :
    (∃ c, r = .ok c) ↔ (∀ e ∈ t₁, ¬ fails e) ∧ ∀ e ∈ t₂ ++ u, ¬ fails e := by
  rcases traces_bind_some.mp after with ⟨a, u₁, u₂, rfl, done, more⟩ | ⟨e, done, rfl⟩
  · obtain ⟨rfl, rfl⟩ := Prog.traces_ret.mp done
    rw [List.nil_append, and_iff_right ((hx t₁ _ ended).mp ⟨a, rfl⟩)]
    rcases traces_bind_some.mp more with ⟨b, v₁, v₂, rfl, second, paired⟩ | ⟨e, second, rfl⟩
    · obtain ⟨rfl, same⟩ := traces_pure.mp paired
      cases same
      have whole : y.Traces (t₂ ++ v₁) (some (.ok b)) := comes.traces second
      rw [List.append_nil]
      exact iff_of_true ⟨_, rfl⟩ ((hy _ _ whole).mp ⟨b, rfl⟩)
    · have whole : y.Traces (t₂ ++ u₂) (some (.error e)) := comes.traces second
      rw [← hy _ _ whole]
      refine iff_of_false ?_ ?_
      · rintro ⟨_, ⟨⟩⟩
      · rintro ⟨_, ⟨⟩⟩
  · obtain ⟨-, rfl⟩ := Prog.traces_ret.mp done
    rw [← hx t₁ _ ended]
    refine iff_of_false ?_ ?_
    · rintro ⟨_, ⟨⟩⟩
    · rintro ⟨⟨_, ⟨⟩⟩, -⟩

/-- A joined pair fails by what one of the two is answered. -/
theorem FailsBy.tryJoin {poll : I} {first : R poll → Bool} {urgent : I → Bool}
    (polls : ∀ turn, ¬ fails ⟨poll, turn⟩) (hx : FailsBy fails x) (hy : FailsBy fails y) :
    FailsBy fails (tryJoin poll first urgent x y) := by
  intro t r traces
  obtain ⟨t₁, t₂, woven, u, rfl, shuffles, ends⟩ := Prog.traces_together traces
  rw [List.forall_mem_append, shuffles.forall_mem polls]
  rcases ends with ⟨out, rest, left, right, after⟩ | ⟨out, rest, right, left, after⟩
  · rw [and_assoc, ← List.forall_mem_append]
    exact hx.rest hy left right after
  · rw [and_right_comm, ← List.forall_mem_append, and_comm]
    exact hy.rest (f := fun b a => (a, b)) hx right left after

end FailsBy

end Attempt

end Dorsche.Lib
