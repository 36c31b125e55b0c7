import Mathlib.Logic.Function.Basic
import Mathlib.Logic.Relation

/-!
Programs of atomic actions, their interleavings, and a rely-guarantee rule.

A `Prog` performs one action at a time and continues with its reply. `exec`
gives the meaning of an action on a shared state; `none` means that the action
is blocked there. A loop is not a `Prog`: a thread is at a control point `t`,
starts any program its `menu` offers there, and ends at the next control point.
So a thread's remaining work is always a `Prog` whose value is a control point,
and `.ret t` is a thread resting at `t`.

`Contract.Holds` is what one thread may assume and must keep when others act
between any two of its actions. `pair_invariant` composes two threads,
`solo_invariant` one thread and an arbitrary environment, `many_invariant` any
number of threads and an environment.
-/

namespace Dorsche.Lib

/-- A finite program of actions `I`, where action `i` is answered by `R i`. -/
inductive Prog (I : Type) (R : I → Type) (α : Type) : Type where
  | ret (a : α)
  | act (i : I) (k : R i → Prog I R α)

namespace Prog

variable {I : Type} {R : I → Type} {α β σ : Type}

def bind : Prog I R α → (α → Prog I R β) → Prog I R β
  | .ret a, f => f a
  | .act i k, f => .act i fun r => (k r).bind f

instance : Monad (Prog I R) where
  pure := .ret
  bind := Prog.bind

/-- The program of one action. -/
def perform (i : I) : Prog I R (R i) := .act i .ret

@[simp] theorem pure_eq (a : α) : (Pure.pure a : Prog I R α) = .ret a := rfl

@[simp] theorem ret_bind (a : α) (f : α → Prog I R β) : (Prog.ret a >>= f) = f a := rfl

@[simp] theorem act_bind (i : I) (k : R i → Prog I R α) (f : α → Prog I R β) :
    (Prog.act i k >>= f) = .act i fun r => k r >>= f := rfl

@[simp] theorem perform_bind (i : I) (f : R i → Prog I R β) :
    (perform i >>= f) = .act i f := rfl

/-- Execution without interference; `none` when an action blocks. -/
def run (exec : (i : I) → σ → Option (R i × σ)) : Prog I R α → σ → Option (α × σ)
  | .ret a, s => some (a, s)
  | .act i k, s =>
      match exec i s with
      | none => none
      | some (r, s') => (k r).run exec s'

theorem run_bind (exec : (i : I) → σ → Option (R i × σ)) (p : Prog I R α)
    (f : α → Prog I R β) (s : σ) :
    (p >>= f).run exec s = (p.run exec s).bind fun out => (f out.1).run exec out.2 := by
  induction p generalizing s with
  | ret a => rfl
  | act i k ih =>
      simp only [act_bind, run]
      cases h : exec i s with
      | none => rfl
      | some out => exact ih out.1 out.2

/-- The action a program is about to perform. -/
def head? : Prog I R α → Option I
  | .ret _ => none
  | .act i _ => some i

theorem exists_of_head? {p : Prog I R α} {i : I} (head : p.head? = some i) :
    ∃ k, p = .act i k := by
  cases p with
  | ret a => cases head
  | act j k =>
      obtain rfl := Option.some.inj head
      exact ⟨k, rfl⟩

/-- Execution against a scripted environment: each function acts before one
action of the program. -/
def against (exec : (i : I) → σ → Option (R i × σ)) :
    List (σ → σ) → Prog I R α → σ → Option (Prog I R α × σ)
  | [], p, s => some (p, s)
  | _ :: _, .ret _, _ => none
  | f :: fs, .act i k, s =>
      match exec i (f s) with
      | none => none
      | some (r, s') => against exec fs (k r) s'

/-- Say less about the value. -/
def map (f : α → β) : Prog I R α → Prog I R β
  | .ret a => .ret (f a)
  | .act i k => .act i fun r => (k r).map f

theorem map_bind {γ : Type} (p : Prog I R α) (g : α → Prog I R β) (f : β → γ) :
    (p >>= g).map f = p >>= fun a => (g a).map f := by
  induction p with
  | ret a => rfl
  | act i k ih =>
      simp only [act_bind, map]
      congr 1
      funext r
      exact ih r

/-- Every way through the program adds up the costs of its actions to a number that
is right for its value. -/
def Tallies (cost : I → Nat) (Q : α → Nat → Prop) : Prog I R α → Nat → Prop
  | .ret a, n => Q a n
  | .act i k, n => ∀ r, (k r).Tallies cost Q (n + cost i)

theorem Tallies.bind {cost : I → Nat} {Q : α → Nat → Prop} {P : β → Nat → Prop}
    {p : Prog I R α} {f : α → Prog I R β} {n : Nat} (tallies : p.Tallies cost Q n)
    (next : ∀ a m, Q a m → (f a).Tallies cost P m) : (p >>= f).Tallies cost P n := by
  induction p generalizing n with
  | ret a => exact next a n tallies
  | act i k ih => exact fun r => ih r (tallies r)

/-- Every action the program can come to. -/
def Every (P : I → Prop) : Prog I R α → Prop
  | .ret _ => True
  | .act i k => P i ∧ ∀ r, (k r).Every P

theorem Every.bind {P : I → Prop} {p : Prog I R α} {f : α → Prog I R β} (every : p.Every P)
    (next : ∀ a, (f a).Every P) : (p >>= f).Every P := by
  induction p with
  | ret a => exact next a
  | act i k ih => exact ⟨every.1, fun r => ih r (every.2 r)⟩

/-- Every value the program can return. -/
def Ends (P : α → Prop) : Prog I R α → Prop
  | .ret a => P a
  | .act _ k => ∀ r, (k r).Ends P

theorem ends_any (p : Prog I R α) : p.Ends fun _ => True := by
  induction p with
  | ret a => trivial
  | act i k ih => exact ih

theorem Ends.bind {P : α → Prop} {Q : β → Prop} {p : Prog I R α} {f : α → Prog I R β}
    (ends : p.Ends P) (next : ∀ a, P a → (f a).Ends Q) : (p >>= f).Ends Q := by
  induction p with
  | ret a => exact next a ends
  | act i k ih => exact fun r => ih r (ends r)

/-- A program without costs leaves the count. -/
theorem Every.tallies {cost : I → Nat} {p : Prog I R α} (free : p.Every (cost · = 0)) (n : Nat) :
    p.Tallies cost (fun _ m => m = n) n := by
  induction p with
  | ret a => rfl
  | act i k ih =>
      intro r
      rw [free.1]
      exact ih r (free.2 r)

end Prog

/-! ### Contracts -/

/-- The rely-guarantee interface of one thread. `inv` holds in every state,
`rely` bounds what others do between two actions, `guar` bounds what each own
action does, and `safe` must hold of an action whenever it is next. -/
structure Contract (I : Type) (R : I → Type) (σ : Type) where
  exec : (i : I) → σ → Option (R i × σ)
  inv : σ → Prop
  rely : σ → σ → Prop
  guar : σ → σ → Prop
  safe : I → σ → Prop
  rely_refl : ∀ s, rely s s
  rely_trans : ∀ {a b c}, rely a b → rely b c → rely a c

namespace Contract

variable {I : Type} {R : I → Type} {α β σ : Type} (C : Contract I R σ)

/-- From `s` on, every action of the program is safe, keeps the invariant and
the guarantee, and a returned value satisfies `Q`, whatever the others do
within the rely. -/
def Holds (Q : α → σ → Prop) : Prog I R α → σ → Prop
  | .ret a, s => ∀ s', C.rely s s' → C.inv s' → Q a s'
  | .act i k, s => ∀ s', C.rely s s' → C.inv s' → C.safe i s' ∧
      ∀ r s'', C.exec i s' = some (r, s'') →
        C.inv s'' ∧ C.guar s' s'' ∧ Holds Q (k r) s''

variable {C} {Q Q' : α → σ → Prop}

theorem Holds.of_ret {a : α} {s : σ} (post : ∀ s', C.rely s s' → C.inv s' → Q a s') :
    C.Holds Q (.ret a) s := post

theorem Holds.of_act {i : I} {k : R i → Prog I R α} {s : σ}
    (next : ∀ s', C.rely s s' → C.inv s' → C.safe i s' ∧
      ∀ r s'', C.exec i s' = some (r, s'') → C.inv s'' ∧ C.guar s' s'' ∧ C.Holds Q (k r) s'') :
    C.Holds Q (.act i k) s := next

/-- A resting thread satisfies its postcondition. -/
theorem Holds.ret {a : α} {s : σ} (holds : C.Holds Q (.ret a) s) (inv : C.inv s) : Q a s :=
  holds s (C.rely_refl s) inv

/-- A thread about to act may do so. -/
theorem Holds.act {i : I} {k : R i → Prog I R α} {s : σ} (holds : C.Holds Q (.act i k) s)
    (inv : C.inv s) : C.safe i s ∧
      ∀ r s', C.exec i s = some (r, s') → C.inv s' ∧ C.guar s s' ∧ C.Holds Q (k r) s' :=
  holds s (C.rely_refl s) inv

/-- A contract survives the actions of the others. -/
theorem Holds.stable {p : Prog I R α} {s s' : σ} (holds : C.Holds Q p s)
    (rely : C.rely s s') : C.Holds Q p s' := by
  cases p with
  | ret a => exact fun t step inv => holds t (C.rely_trans rely step) inv
  | act i k => exact fun t step inv => holds t (C.rely_trans rely step) inv

theorem Holds.mono {p : Prog I R α} {s : σ} (holds : C.Holds Q p s)
    (weaker : ∀ a s, C.inv s → Q a s → Q' a s) : C.Holds Q' p s := by
  induction p generalizing s with
  | ret a => exact fun s' rely inv => weaker a s' inv (holds s' rely inv)
  | act i k ih =>
      intro s' rely inv
      obtain ⟨safe, next⟩ := holds s' rely inv
      refine ⟨safe, fun r s'' ran => ?_⟩
      obtain ⟨inv', guar, rest⟩ := next r s'' ran
      exact ⟨inv', guar, ih r rest⟩

/-- Sequencing: the second program starts from whatever the first ensures. -/
theorem Holds.bind {p : Prog I R α} {f : α → Prog I R β} {P : β → σ → Prop} {s : σ}
    (holds : C.Holds Q p s) (next : ∀ a s, C.inv s → Q a s → C.Holds P (f a) s) :
    C.Holds P (p >>= f) s := by
  induction p generalizing s with
  | ret a =>
      show C.Holds P (f a) s
      -- The first program's value is only known at a later, still related, state.
      cases h : f a with
      | ret b =>
          intro s' rely inv
          have := next a s' inv (holds s' rely inv)
          rw [h] at this
          exact this s' (C.rely_refl s') inv
      | act i k =>
          intro s' rely inv
          have := next a s' inv (holds s' rely inv)
          rw [h] at this
          exact this s' (C.rely_refl s') inv
  | act i k ih =>
      intro s' rely inv
      obtain ⟨safe, rest⟩ := holds s' rely inv
      refine ⟨safe, fun r s'' ran => ?_⟩
      obtain ⟨inv', guar, held⟩ := rest r s'' ran
      exact ⟨inv', guar, ih r held⟩

/-- An uninterrupted run is one of the interleavings a contract speaks about; if
safe actions never block, it returns. -/
theorem Holds.run {p : Prog I R α} {s : σ} (holds : C.Holds Q p s) (inv : C.inv s)
    (live : ∀ i s, C.safe i s → (C.exec i s).isSome) :
    ∃ a s', p.run C.exec s = some (a, s') ∧ C.inv s' ∧ Q a s' ∧
      Relation.ReflTransGen C.guar s s' := by
  induction p generalizing s with
  | ret b => exact ⟨b, s, rfl, inv, holds s (C.rely_refl s) inv, .refl⟩
  | act i k ih =>
      obtain ⟨safe, next⟩ := holds s (C.rely_refl s) inv
      obtain ⟨⟨r, t⟩, ran⟩ := Option.isSome_iff_exists.mp (live i s safe)
      obtain ⟨inv', guar, rest⟩ := next r t ran
      obtain ⟨a, s', returned, inv'', post, moves⟩ := ih r rest inv'
      refine ⟨a, s', ?_, inv'', post, .head guar moves⟩
      simp only [Prog.run, ran, returned]

-- Proofs about programs go through the rules above; unfolded, a goal would
-- evaluate the program it is about.
attribute [irreducible] Holds

end Contract

/-! ### One thread in an environment -/

section Solo

variable {I : Type} {R : I → Type} {τ σ : Type}

/-- A thread's remaining work and the shared state. -/
structure Solo (I : Type) (R : I → Type) (τ σ : Type) where
  thread : Prog I R τ
  shared : σ

/-- One action of the thread, the start of a program it is offered, or one step
of the environment. -/
inductive SoloStep (exec : (i : I) → σ → Option (R i × σ)) (menu : τ → Prog I R τ → Prop)
    (env : σ → σ → Prop) : Solo I R τ σ → Solo I R τ σ → Prop where
  | act {i k s r s'} : exec i s = some (r, s') → SoloStep exec menu env ⟨.act i k, s⟩ ⟨k r, s'⟩
  | start {t p s} : menu t p → SoloStep exec menu env ⟨.ret t, s⟩ ⟨p, s⟩
  | env {p s s'} : env s s' → SoloStep exec menu env ⟨p, s⟩ ⟨p, s'⟩

/-- A thread that keeps its contract in an environment that keeps the rely. -/
theorem solo_invariant (C : Contract I R σ) {Q : τ → σ → Prop}
    {menu : τ → Prog I R τ → Prop} {env : σ → σ → Prop}
    (offers : ∀ t p s, C.inv s → Q t s → menu t p → C.Holds Q p s)
    (environment : ∀ s s', C.inv s → env s s' → C.inv s' ∧ C.rely s s')
    {c₀ c : Solo I R τ σ} (reach : Relation.ReflTransGen (SoloStep C.exec menu env) c₀ c)
    (inv₀ : C.inv c₀.shared) (holds₀ : C.Holds Q c₀.thread c₀.shared) :
    C.inv c.shared ∧ C.Holds Q c.thread c.shared := by
  induction reach with
  | refl => exact ⟨inv₀, holds₀⟩
  | tail _ step ih =>
      obtain ⟨inv, holds⟩ := ih
      cases step with
      | act ran =>
          obtain ⟨inv', -, rest⟩ := (holds.act inv).2 _ _ ran
          exact ⟨inv', rest⟩
      | start offered => exact ⟨inv, offers _ _ _ inv (holds.ret inv) offered⟩
      | env step =>
          obtain ⟨inv', rely⟩ := environment _ _ inv step
          exact ⟨inv', holds.stable rely⟩

/-- A scripted environment that keeps to `env` is one of the possible ones. -/
theorem solo_against {exec : (i : I) → σ → Option (R i × σ)} {menu : τ → Prog I R τ → Prop}
    {env : σ → σ → Prop} {fs : List (σ → σ)} (allowed : ∀ f ∈ fs, ∀ s, env s (f s))
    {p p' : Prog I R τ} {s s' : σ} (ran : p.against exec fs s = some (p', s')) :
    Relation.ReflTransGen (SoloStep exec menu env) ⟨p, s⟩ ⟨p', s'⟩ := by
  induction fs generalizing p s with
  | nil =>
      obtain ⟨rfl, rfl⟩ := Prod.mk.inj (Option.some.inj ran)
      exact .refl
  | cons f fs ih =>
      cases p with
      | ret t => cases ran
      | act i k =>
          simp only [Prog.against] at ran
          cases h : exec i (f s) with
          | none => simp [h] at ran
          | some out =>
              rw [h] at ran
              have rest := ih (fun f' mem => allowed f' (List.mem_cons_of_mem _ mem)) ran
              exact .head (.env (allowed f List.mem_cons_self s)) (.head (.act h) rest)

end Solo

/-! ### Two threads -/

section Pair

variable {I : Type} {R : I → Type} {τ₁ τ₂ σ : Type}

/-- Two threads over one shared state. -/
structure Pair (I : Type) (R : I → Type) (τ₁ τ₂ σ : Type) where
  left : Prog I R τ₁
  right : Prog I R τ₂
  shared : σ

/-- One step of either thread. -/
inductive PairStep (exec : (i : I) → σ → Option (R i × σ)) (menu₁ : τ₁ → Prog I R τ₁ → Prop)
    (menu₂ : τ₂ → Prog I R τ₂ → Prop) : Pair I R τ₁ τ₂ σ → Pair I R τ₁ τ₂ σ → Prop where
  | leftAct {i k q s r s'} : exec i s = some (r, s') →
      PairStep exec menu₁ menu₂ ⟨.act i k, q, s⟩ ⟨k r, q, s'⟩
  | leftStart {t p q s} : menu₁ t p → PairStep exec menu₁ menu₂ ⟨.ret t, q, s⟩ ⟨p, q, s⟩
  | rightAct {i k p s r s'} : exec i s = some (r, s') →
      PairStep exec menu₁ menu₂ ⟨p, .act i k, s⟩ ⟨p, k r, s'⟩
  | rightStart {t p q s} : menu₂ t q → PairStep exec menu₁ menu₂ ⟨p, .ret t, s⟩ ⟨p, q, s⟩

/-- An uninterrupted run of the left thread is one of the interleavings. -/
theorem left_run {exec : (i : I) → σ → Option (R i × σ)} {menu₁ : τ₁ → Prog I R τ₁ → Prop}
    {menu₂ : τ₂ → Prog I R τ₂ → Prop} {p : Prog I R τ₁} {q : Prog I R τ₂} {s s' : σ} {t : τ₁}
    (ran : p.run exec s = some (t, s')) :
    Relation.ReflTransGen (PairStep exec menu₁ menu₂) ⟨p, q, s⟩ ⟨.ret t, q, s'⟩ := by
  induction p generalizing s with
  | ret a =>
      obtain ⟨rfl, rfl⟩ := Prod.mk.inj (Option.some.inj ran)
      exact .refl
  | act i k ih =>
      simp only [Prog.run] at ran
      cases h : exec i s with
      | none => simp [h] at ran
      | some out =>
          rw [h] at ran
          exact .head (.leftAct h) (ih out.1 ran)

/-- An uninterrupted run of the right thread is one of the interleavings. -/
theorem right_run {exec : (i : I) → σ → Option (R i × σ)} {menu₁ : τ₁ → Prog I R τ₁ → Prop}
    {menu₂ : τ₂ → Prog I R τ₂ → Prop} {p : Prog I R τ₁} {q : Prog I R τ₂} {s s' : σ} {t : τ₂}
    (ran : q.run exec s = some (t, s')) :
    Relation.ReflTransGen (PairStep exec menu₁ menu₂) ⟨p, q, s⟩ ⟨p, .ret t, s'⟩ := by
  induction q generalizing s with
  | ret a =>
      obtain ⟨rfl, rfl⟩ := Prod.mk.inj (Option.some.inj ran)
      exact .refl
  | act i k ih =>
      simp only [Prog.run] at ran
      cases h : exec i s with
      | none => simp [h] at ran
      | some out =>
          rw [h] at ran
          exact .head (.rightAct h) (ih out.1 ran)

/-- Parallel composition: two threads whose guarantees meet each other's rely
keep their contracts in every interleaving. -/
theorem pair_invariant (C₁ C₂ : Contract I R σ) {Q₁ : τ₁ → σ → Prop} {Q₂ : τ₂ → σ → Prop}
    {menu₁ : τ₁ → Prog I R τ₁ → Prop} {menu₂ : τ₂ → Prog I R τ₂ → Prop}
    (exec_eq : C₂.exec = C₁.exec) (inv_eq : C₂.inv = C₁.inv)
    (left_meets : ∀ s s', C₁.guar s s' → C₂.rely s s')
    (right_meets : ∀ s s', C₂.guar s s' → C₁.rely s s')
    (offers₁ : ∀ t p s, C₁.inv s → Q₁ t s → menu₁ t p → C₁.Holds Q₁ p s)
    (offers₂ : ∀ t p s, C₂.inv s → Q₂ t s → menu₂ t p → C₂.Holds Q₂ p s)
    {c₀ c : Pair I R τ₁ τ₂ σ}
    (reach : Relation.ReflTransGen (PairStep C₁.exec menu₁ menu₂) c₀ c)
    (inv₀ : C₁.inv c₀.shared) (left₀ : C₁.Holds Q₁ c₀.left c₀.shared)
    (right₀ : C₂.Holds Q₂ c₀.right c₀.shared) :
    C₁.inv c.shared ∧ C₁.Holds Q₁ c.left c.shared ∧ C₂.Holds Q₂ c.right c.shared := by
  induction reach with
  | refl => exact ⟨inv₀, left₀, right₀⟩
  | tail _ step ih =>
      obtain ⟨inv, left, right⟩ := ih
      have inv₂ := inv
      rw [← inv_eq] at inv₂
      cases step with
      | leftAct ran =>
          obtain ⟨inv', guar, rest⟩ := (left.act inv).2 _ _ ran
          exact ⟨inv', rest, right.stable (left_meets _ _ guar)⟩
      | leftStart offered =>
          exact ⟨inv, offers₁ _ _ _ inv (left.ret inv) offered, right⟩
      | rightAct ran =>
          rw [← exec_eq] at ran
          obtain ⟨inv', guar, rest⟩ := (right.act inv₂).2 _ _ ran
          exact ⟨inv_eq ▸ inv', left.stable (right_meets _ _ guar), rest⟩
      | rightStart offered =>
          exact ⟨inv, left, offers₂ _ _ _ inv₂ (right.ret inv₂) offered⟩

/-- A thread whose control points say less makes the same steps. -/
theorem pair_map {exec : (i : I) → σ → Option (R i × σ)} {τ : Type} (f : τ → τ₁)
    {menu : τ → Prog I R τ → Prop} {menu₁ : τ₁ → Prog I R τ₁ → Prop}
    {menu₂ : τ₂ → Prog I R τ₂ → Prop} (offers : ∀ t p, menu t p → menu₁ (f t) (p.map f))
    {c₀ c : Pair I R τ τ₂ σ} (reach : Relation.ReflTransGen (PairStep exec menu menu₂) c₀ c) :
    Relation.ReflTransGen (PairStep exec menu₁ menu₂) ⟨c₀.left.map f, c₀.right, c₀.shared⟩
      ⟨c.left.map f, c.right, c.shared⟩ := by
  induction reach with
  | refl => exact .refl
  | tail _ step ih =>
      apply ih.tail
      cases step with
      | leftAct ran => exact .leftAct ran
      | leftStart offered => exact .leftStart (offers _ _ offered)
      | rightAct ran => exact .rightAct ran
      | rightStart offered => exact .rightStart offered

/-! ### Calls cut at an action -/

section Cut

variable {exec : (i : I) → σ → Option (R i × σ)} {menu₁ : τ₁ → Prog I R τ₁ → Prop}
variable {menu₂ : τ₂ → Prog I R τ₂ → Prop} {s s' : σ}

/-- Steps of the right thread do not look at the left one. -/
theorem beside_left {q q' : Prog I R τ₂}
    (run : Relation.ReflTransGen (PairStep exec (fun (_ : Unit) _ => False) menu₂)
      ⟨.ret (), q, s⟩ ⟨.ret (), q', s'⟩) (p : Prog I R τ₁) :
    Relation.ReflTransGen (PairStep exec menu₁ menu₂) ⟨p, q, s⟩ ⟨p, q', s'⟩ := by
  suffices general : ∀ c, Relation.ReflTransGen (PairStep exec (fun (_ : Unit) _ => False) menu₂)
      ⟨.ret (), q, s⟩ c → c.left = .ret () ∧
        Relation.ReflTransGen (PairStep exec menu₁ menu₂) ⟨p, q, s⟩ ⟨p, c.right, c.shared⟩ from
    (general _ run).2
  intro c run
  induction run with
  | refl => exact ⟨rfl, .refl⟩
  | tail _ step ih =>
      cases step with
      | leftAct ran => cases ih.1
      | leftStart offered => exact offered.elim
      | rightAct ran => exact ⟨ih.1, ih.2.tail (.rightAct ran)⟩
      | rightStart offered => exact ⟨ih.1, ih.2.tail (.rightStart offered)⟩

/-- Steps of the left thread do not look at the right one. -/
theorem beside_right {p p' : Prog I R τ₁}
    (run : Relation.ReflTransGen (PairStep exec menu₁ fun (_ : Unit) _ => False)
      ⟨p, .ret (), s⟩ ⟨p', .ret (), s'⟩) (q : Prog I R τ₂) :
    Relation.ReflTransGen (PairStep exec menu₁ menu₂) ⟨p, q, s⟩ ⟨p', q, s'⟩ := by
  suffices general : ∀ c, Relation.ReflTransGen (PairStep exec menu₁ fun (_ : Unit) _ => False)
      ⟨p, .ret (), s⟩ c → c.right = .ret () ∧
        Relation.ReflTransGen (PairStep exec menu₁ menu₂) ⟨p, q, s⟩ ⟨c.left, q, c.shared⟩ from
    (general _ run).2
  intro c run
  induction run with
  | refl => exact ⟨rfl, .refl⟩
  | tail _ step ih =>
      cases step with
      | leftAct ran => exact ⟨ih.1, ih.2.tail (.leftAct ran)⟩
      | leftStart offered => exact ⟨ih.1, ih.2.tail (.leftStart offered)⟩
      | rightAct ran => cases ih.1
      | rightStart offered => exact offered.elim

/-- A call of the left thread that has returned has performed its first action, after
some steps of the right one. -/
theorem left_first {i : I} {k : R i → Prog I R τ₁} {q q' : Prog I R τ₂} {a : τ₁}
    (run : Relation.ReflTransGen (PairStep exec (fun (_ : τ₁) _ => False) menu₂)
      ⟨.act i k, q, s⟩ ⟨.ret a, q', s'⟩) :
    ∃ q₁ s₁ r s₂, Relation.ReflTransGen (PairStep exec (fun (_ : Unit) _ => False) menu₂)
        ⟨.ret (), q, s⟩ ⟨.ret (), q₁, s₁⟩ ∧ exec i s₁ = some (r, s₂) ∧
      Relation.ReflTransGen (PairStep exec (fun (_ : τ₁) _ => False) menu₂)
        ⟨k r, q₁, s₂⟩ ⟨.ret a, q', s'⟩ := by
  generalize from_ : (⟨.act i k, q, s⟩ : Pair I R τ₁ τ₂ σ) = c at run
  induction run using Relation.ReflTransGen.head_induction_on generalizing q s with
  | refl => cases from_
  | head step rest ih =>
      subst from_
      cases step with
      | leftAct ran => exact ⟨q, s, _, _, .refl, ran, rest⟩
      | rightAct ran =>
          obtain ⟨q₁, s₁, r, s₂, before, first, after⟩ := ih rfl
          exact ⟨q₁, s₁, r, s₂, before.head (.rightAct ran), first, after⟩
      | rightStart offered =>
          obtain ⟨q₁, s₁, r, s₂, before, first, after⟩ := ih rfl
          exact ⟨q₁, s₁, r, s₂, before.head (.rightStart offered), first, after⟩

theorem right_first {i : I} {k : R i → Prog I R τ₂} {p p' : Prog I R τ₁} {a : τ₂}
    (run : Relation.ReflTransGen (PairStep exec menu₁ fun (_ : τ₂) _ => False)
      ⟨p, .act i k, s⟩ ⟨p', .ret a, s'⟩) :
    ∃ p₁ s₁ r s₂, Relation.ReflTransGen (PairStep exec menu₁ fun (_ : Unit) _ => False)
        ⟨p, .ret (), s⟩ ⟨p₁, .ret (), s₁⟩ ∧ exec i s₁ = some (r, s₂) ∧
      Relation.ReflTransGen (PairStep exec menu₁ fun (_ : τ₂) _ => False)
        ⟨p₁, k r, s₂⟩ ⟨p', .ret a, s'⟩ := by
  generalize from_ : (⟨p, .act i k, s⟩ : Pair I R τ₁ τ₂ σ) = c at run
  induction run using Relation.ReflTransGen.head_induction_on generalizing p s with
  | refl => cases from_
  | head step rest ih =>
      subst from_
      cases step with
      | rightAct ran => exact ⟨p, s, _, _, .refl, ran, rest⟩
      | leftAct ran =>
          obtain ⟨p₁, s₁, r, s₂, before, first, after⟩ := ih rfl
          exact ⟨p₁, s₁, r, s₂, before.head (.leftAct ran), first, after⟩
      | leftStart offered =>
          obtain ⟨p₁, s₁, r, s₂, before, first, after⟩ := ih rfl
          exact ⟨p₁, s₁, r, s₂, before.head (.leftStart offered), first, after⟩

end Cut

/-- Where every program of the left thread ends, it rests, whatever the other does. -/
theorem left_ends {exec : (i : I) → σ → Option (R i × σ)} {Q : τ₁ → Prop}
    {menu₁ : τ₁ → Prog I R τ₁ → Prop} {menu₂ : τ₂ → Prog I R τ₂ → Prop}
    (offers : ∀ t p, Q t → menu₁ t p → p.Ends Q)
    {c₀ c : Pair I R τ₁ τ₂ σ} (reach : Relation.ReflTransGen (PairStep exec menu₁ menu₂) c₀ c)
    (left₀ : c₀.left.Ends Q) : c.left.Ends Q := by
  induction reach with
  | refl => exact left₀
  | tail _ step ih =>
      cases step with
      | leftAct ran => exact ih _
      | leftStart offered => exact offers _ _ ih offered
      | rightAct ran => exact ih
      | rightStart offered => exact ih

/-- Parallel composition for a count: what the left thread still adds to it is right
in every interleaving with a thread that adds nothing. -/
theorem pair_tally {exec : (i : I) → σ → Option (R i × σ)} {count : σ → Nat} {cost : I → Nat}
    {Q : τ₁ → Nat → Prop} {menu₁ : τ₁ → Prog I R τ₁ → Prop} {menu₂ : τ₂ → Prog I R τ₂ → Prop}
    (counts : ∀ i s r s', exec i s = some (r, s') → count s' = count s + cost i)
    (offers₁ : ∀ t p n, Q t n → menu₁ t p → p.Tallies cost Q n)
    (offers₂ : ∀ t p, menu₂ t p → p.Every (cost · = 0))
    {c₀ c : Pair I R τ₁ τ₂ σ} (reach : Relation.ReflTransGen (PairStep exec menu₁ menu₂) c₀ c)
    (left₀ : c₀.left.Tallies cost Q (count c₀.shared))
    (right₀ : c₀.right.Every (cost · = 0)) :
    c.left.Tallies cost Q (count c.shared) ∧ c.right.Every (cost · = 0) := by
  induction reach with
  | refl => exact ⟨left₀, right₀⟩
  | tail _ step ih =>
      obtain ⟨left, right⟩ := ih
      cases step with
      | leftAct ran =>
          refine ⟨?_, right⟩
          rw [counts _ _ _ _ ran]
          exact left _
      | leftStart offered => exact ⟨offers₁ _ _ _ left offered, right⟩
      | rightAct ran =>
          obtain ⟨free, rest⟩ := right
          refine ⟨?_, rest _⟩
          rw [counts _ _ _ _ ran, free]
          exact left
      | rightStart offered => exact ⟨left, offers₂ _ _ offered⟩

end Pair

/-! ### Any number of threads -/

section Many

variable {I : Type} {R : I → Type} {ι τ σ : Type}

/-- Threads over one shared state. -/
structure Many (I : Type) (R : I → Type) (ι τ σ : Type) where
  threads : ι → Prog I R τ
  shared : σ

/-- One step of one thread, or of the environment. -/
inductive ManyStep [DecidableEq ι] (exec : (i : I) → σ → Option (R i × σ))
    (menu : ι → τ → Prog I R τ → Prop) (env : σ → σ → Prop) :
    Many I R ι τ σ → Many I R ι τ σ → Prop where
  | act {threads s} (t : ι) {i k r s'} : threads t = .act i k → exec i s = some (r, s') →
      ManyStep exec menu env ⟨threads, s⟩ ⟨Function.update threads t (k r), s'⟩
  | start {threads s} (t : ι) {point p} : threads t = .ret point → menu t point p →
      ManyStep exec menu env ⟨threads, s⟩ ⟨Function.update threads t p, s⟩
  | env {threads s s'} : env s s' → ManyStep exec menu env ⟨threads, s⟩ ⟨threads, s'⟩

/-- Parallel composition of threads whose guarantees meet the rely of every other
one, in an environment that keeps every rely. -/
theorem many_invariant [DecidableEq ι] {exec : (i : I) → σ → Option (R i × σ)} {inv : σ → Prop}
    (C : ι → Contract I R σ) {Q : ι → τ → σ → Prop} {menu : ι → τ → Prog I R τ → Prop}
    {env : σ → σ → Prop} (exec_eq : ∀ t, (C t).exec = exec) (inv_eq : ∀ t, (C t).inv = inv)
    (meets : ∀ t t' s s', t ≠ t' → (C t).guar s s' → (C t').rely s s')
    (offers : ∀ t point p s, inv s → Q t point s → menu t point p → (C t).Holds (Q t) p s)
    (environment : ∀ s s', inv s → env s s' → inv s' ∧ ∀ t, (C t).rely s s')
    {c₀ c : Many I R ι τ σ} (reach : Relation.ReflTransGen (ManyStep exec menu env) c₀ c)
    (inv₀ : inv c₀.shared) (holds₀ : ∀ t, (C t).Holds (Q t) (c₀.threads t) c₀.shared) :
    inv c.shared ∧ ∀ t, (C t).Holds (Q t) (c.threads t) c.shared := by
  induction reach with
  | refl => exact ⟨inv₀, holds₀⟩
  | tail _ step ih =>
      obtain ⟨inv, holds⟩ := ih
      cases step with
      | @act threads s t i k r s' is ran =>
          have held : (C t).Holds (Q t) (threads t) s := holds t
          rw [is] at held
          obtain ⟨inv', guar, rest⟩ := (held.act (inv_eq t ▸ inv)).2 r s' (exec_eq t ▸ ran)
          refine ⟨inv_eq t ▸ inv', fun t' => ?_⟩
          by_cases same : t' = t
          · subst same
            simpa using rest
          · simpa [Function.update_of_ne same] using
              (holds t').stable (meets t t' _ _ (Ne.symm same) guar)
      | @start threads s t point p is offered =>
          have held : (C t).Holds (Q t) (threads t) s := holds t
          rw [is] at held
          refine ⟨inv, fun t' => ?_⟩
          by_cases same : t' = t
          · subst same
            simpa using offers _ _ _ _ inv (held.ret (inv_eq _ ▸ inv)) offered
          · simpa [Function.update_of_ne same] using holds t'
      | env moved =>
          obtain ⟨inv', relies⟩ := environment _ _ inv moved
          exact ⟨inv', fun t => (holds t).stable (relies t)⟩

/-- An uninterrupted run of one thread is one of the interleavings. -/
theorem many_run [DecidableEq ι] {exec : (i : I) → σ → Option (R i × σ)}
    {menu : ι → τ → Prog I R τ → Prop} {env : σ → σ → Prop} {threads : ι → Prog I R τ} (t : ι)
    {p : Prog I R τ} {s s' : σ} {point : τ} (ran : p.run exec s = some (point, s')) :
    Relation.ReflTransGen (ManyStep exec menu env) ⟨Function.update threads t p, s⟩
      ⟨Function.update threads t (.ret point), s'⟩ := by
  induction p generalizing s with
  | ret a =>
      obtain ⟨rfl, rfl⟩ := Prod.mk.inj (Option.some.inj ran)
      exact .refl
  | act i k ih =>
      simp only [Prog.run] at ran
      cases h : exec i s with
      | none => simp [h] at ran
      | some out =>
          rw [h] at ran
          have step : ManyStep exec menu env ⟨Function.update threads t (.act i k), s⟩
              ⟨Function.update (Function.update threads t (.act i k)) t (k out.1), out.2⟩ :=
            .act t (Function.update_self t _ threads) h
          rw [Function.update_idem] at step
          exact .head step (ih out.1 ran)

end Many

end Dorsche.Lib
