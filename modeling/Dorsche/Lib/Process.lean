import Dorsche.Lib.Monitor
import Dorsche.Lib.Shuffle
import Mathlib.Algebra.Group.Nat.Defs

/-!
Processes: programs that print lines, compute on machine words, allocate and halt.

Besides the requests of its own a process has the same few effects everywhere. An
operation on machine words is an effect, so that a run shows what was computed. A halt
is never answered, so nothing that follows it in the program is done; a process halts in
the poll that comes to it.

`Effect.Fatal` are the replies after which a process halts. `Proc.Obeys` bounds what
a process does, as `Attempt.Ensures`, and says that it halts exactly after a fatal reply.
-/

namespace Dorsche.Lib

variable {I L : Type} {R : I → Type} {α β γ : Type}

/-- An operation on machine words. -/
structure Operation where
  /-- What a panic over the result says. -/
  text : String
  exact : Nat
  /-- The results below it are representable. -/
  limit : Nat
  /-- Another result is a panic; otherwise it wraps. -/
  checked : Bool
deriving DecidableEq, Repr

def Operation.Fits (self : Operation) : Prop := self.exact < self.limit

instance (operation : Operation) : Decidable operation.Fits := Nat.decLt _ _

inductive Halt where
  | panic (text : String)
  | abort (text : String)
deriving DecidableEq, Repr

/-- What a process does: requests of its own, and what every process can do. -/
inductive Effect (I L : Type) where
  | ask (request : I)
  | print (line : L)
  | operate (operation : Operation)
  | allocate (octets : Nat)
  | halt (reason : Halt)
deriving DecidableEq, Repr

namespace Effect

abbrev Reply (R : I → Type) : Effect I L → Type
  | .ask request => R request
  | .print _ => Result Unit
  | .operate _ => Unit
  | .allocate _ => Bool
  | .halt _ => Empty

def isHalt : Effect I L → Bool
  | .halt _ => true
  | _ => false

/-- The replies after which a process halts; of its own requests those of `expects`. -/
def Fatal (expects : Sigma R → Prop) : Sigma (Reply (L := L) R) → Prop
  | ⟨.ask request, reply⟩ => expects ⟨request, reply⟩
  | ⟨.print _, printed⟩ => ∃ e, printed = .error e
  | ⟨.operate operation, _⟩ => operation.checked = true ∧ ¬ operation.Fits
  | ⟨.allocate _, granted⟩ => granted = false
  | ⟨.halt _, _⟩ => False

/-- Answers to the requests, in surroundings that take every line and grant all memory. -/
def answers (own : (request : I) → Option (R request)) :
    (effect : Effect I L) → Option (effect.Reply R)
  | .ask request => own request
  | .print _ => some (.ok ())
  | .operate _ => some ()
  | .allocate _ => some true
  | .halt _ => none

end Effect

abbrev Proc (L : Type) (R : I → Type) := Attempt (Effect I L) (Effect.Reply R)

namespace Proc

def perform (effect : Effect I L) : Proc L R (effect.Reply R) := .always (Prog.perform effect)

def request (r : I) : Proc L R (R r) := perform (.ask r)

def halt (reason : Halt) : Proc L R α := do
  let never : Empty ← perform (.halt reason)
  nomatch never

def panic (text : String) : Proc L R α := halt (.panic text)

/-- A line, and the name of the stream it goes to. -/
def print (stream : String) (line : L) : Proc L R Unit := do
  let printed : Result Unit ← perform (.print line)
  match printed with
  | .ok () => return ()
  | .error e => panic s!"failed printing to {stream}: {e}"

def println (line : L) : Proc L R Unit := print "stdout" line

def eprintln (line : L) : Proc L R Unit := print "stderr" line

def operate (operation : Operation) : Proc L R Nat := do
  let () ← perform (.operate operation)
  if operation.Fits then return operation.exact
  else if operation.checked then panic operation.text
  else return operation.exact % operation.limit

/-- A `u64` result; `checks` are the `overflow-checks` of the build. -/
def word (checks : Bool) (text : String) (exact : Nat) : Proc L R Nat :=
  operate ⟨text, exact, 2 ^ 64, checks⟩

def add (checks : Bool) (a b : Nat) : Proc L R Nat :=
  word checks "attempt to add with overflow" (a + b)

def multiply (checks : Bool) (a b : Nat) : Proc L R Nat :=
  word checks "attempt to multiply with overflow" (a * b)

/-- `&slice[..stop]`. -/
def sliceTo (stop length : Nat) : Proc L R Unit := do
  let _ ← operate ⟨"range end index out of range for slice", stop, length + 1, true⟩

/-- The memory of a vector of octets. -/
def withCapacity (octets : Nat) : Proc L R Unit := do
  let _ ← operate ⟨"capacity overflow", octets, 2 ^ 63, true⟩
  let granted : Bool ← perform (.allocate octets)
  if granted then return ()
  else halt (.abort s!"memory allocation of {octets} bytes failed")

def unwrap : Option α → Proc L R α
  | some a => return a
  | none => panic "called `Option::unwrap()` on a `None` value"

/-- `try_join!`. -/
def tryJoin (poll : I) (first : R poll → Bool) (x : Proc L R α) (y : Proc L R β) :
    Proc L R (α × β) :=
  Attempt.tryJoin (.ask poll) first Effect.isHalt x y

/-- `select!`. -/
def select (poll : I) (first : R poll → Bool) (x y : Proc L R α) : Proc L R α :=
  Attempt.select (.ask poll) first Effect.isHalt x y

/-- A process that goes on after a line has got it out. -/
theorem traces_print {stream : String} {line : L} {t : List (Sigma (Effect.Reply R))}
    {out : Option (Result Unit)} :
    (print stream line : Proc L R Unit).Traces t out ↔
      t = [⟨.print line, .ok ()⟩] ∧ out = some (.ok ()) := by
  constructor
  · intro traces
    obtain ⟨printed, t₁, t₂, rfl, asked, rest⟩ := Attempt.traces_always_bind.mp traces
    obtain rfl := Prog.traces_perform.mp asked
    cases printed with
    | ok done =>
        obtain ⟨rfl, same⟩ := Attempt.traces_pure.mp rest
        exact ⟨rfl, same⟩
    | error e =>
        obtain ⟨never, _, _, _, _, _⟩ := Attempt.traces_always_bind.mp rest
        cases never
  · rintro ⟨rfl, rfl⟩
    exact .act (.ret _)

/-- A process goes on with the exact result of an operation that fits. -/
theorem traces_operate {operation : Operation} (fits : operation.Fits)
    {f : Nat → Proc L R α} {t : List (Sigma (Effect.Reply R))} {out : Option (Result α)}
    (rest : (f operation.exact).Traces t out) :
    Attempt.Traces (operate operation >>= f) (⟨.operate operation, ()⟩ :: t) out := by
  refine Attempt.traces_bind_of_ok (t := [⟨.operate operation, ()⟩]) ?_ rest
  refine Attempt.traces_always_bind.mpr ⟨(), [_], [], rfl, Prog.traces_perform.mpr rfl, ?_⟩
  rw [if_pos fits]
  exact Attempt.traces_pure.mpr ⟨rfl, rfl⟩

end Proc

/-! ### The end of a process -/

inductive Exit (I L : Type) where
  | returned (result : Result Unit)
  | halted (reason : Halt)
  /-- By a signal that is not handled, before an effect. -/
  | killed (effect : Effect I L)

/-- The end of a process, and what it has done until then. -/
inductive Exits (main : Proc L R Unit) : List (Sigma (Effect.Reply R)) → Exit I L → Prop where
  | returned {t result} : main.Traces t (some result) → Exits main t (.returned result)
  | halted {t reason k} : main.run.run.Comes t (.act (.halt reason) k) →
      Exits main t (.halted reason)
  | killed {t effect k} : main.run.run.Comes t (.act effect k) → effect.isHalt = false →
      Exits main t (.killed effect)

/-! ### Halting by a reply -/

namespace Prog

/-- The program is at a halt that is allowed by `P`. -/
def Halts (P : Effect I L → Prop) : Prog (Effect I L) (Effect.Reply R) α → Prop
  | .act (.halt reason) _ => P (.halt reason)
  | _ => False

/-- The program does what is allowed by `P`, returns what is allowed by `Q`, and halts
exactly after a fatal reply. -/
def Obeys (fatal : Sigma (Effect.Reply (L := L) R) → Prop) (P : Effect I L → Prop)
    (Q : α → Prop) : Prog (Effect I L) (Effect.Reply R) α → Prop
  | .ret a => Q a
  | .act i k => P i ∧ i.isHalt = false ∧
      ∀ r, (fatal ⟨i, r⟩ → (k r).Halts P) ∧ (¬ fatal ⟨i, r⟩ → (k r).Obeys fatal P Q)

variable {fatal : Sigma (Effect.Reply (L := L) R) → Prop} {P P' : Effect I L → Prop}
  {Q Q' : α → Prop} {U : β → Prop} {p : Prog (Effect I L) (Effect.Reply R) α}
  {t : List (Sigma (Effect.Reply (L := L) R))}

theorem Halts.exists (halts : p.Halts P) :
    ∃ reason l, p = .act (.halt reason) l ∧ P (.halt reason) := by
  cases p with
  | ret a => cases halts
  | act i k =>
      cases i with
      | halt reason => exact ⟨reason, k, rfl, halts⟩
      | _ => cases halts

theorem Halts.mono (halts : p.Halts P) (acts : ∀ i, P i → P' i) : p.Halts P' := by
  obtain ⟨reason, l, rfl, allowed⟩ := halts.exists
  exact acts _ allowed

theorem Halts.bind {f : α → Prog (Effect I L) (Effect.Reply R) β} (halts : p.Halts P) :
    (p >>= f).Halts P := by
  obtain ⟨reason, l, rfl, allowed⟩ := halts.exists
  exact allowed

/-- Nothing is done after a halt. -/
theorem Halts.ensures (halts : p.Halts P) : p.Ensures P Q := by
  obtain ⟨reason, l, rfl, allowed⟩ := halts.exists
  exact ⟨allowed, fun never => nomatch never⟩

theorem Obeys.mono (obeys : p.Obeys fatal P Q) (acts : ∀ i, P i → P' i)
    (values : ∀ a, Q a → Q' a) : p.Obeys fatal P' Q' := by
  induction p with
  | ret a => exact values a obeys
  | act i k ih =>
      obtain ⟨act, going, next⟩ := obeys
      exact ⟨acts i act, going, fun r => ⟨fun failed => ((next r).1 failed).mono acts,
        fun served => ih r ((next r).2 served)⟩⟩

theorem Obeys.bind {f : α → Prog (Effect I L) (Effect.Reply R) β} (first : p.Obeys fatal P Q)
    (rest : ∀ a, Q a → (f a).Obeys fatal P U) : (p >>= f).Obeys fatal P U := by
  induction p with
  | ret a => exact rest a first
  | act i k ih =>
      obtain ⟨act, going, next⟩ := first
      exact ⟨act, going, fun r => ⟨fun failed => ((next r).1 failed).bind,
        fun served => ih r ((next r).2 served)⟩⟩

theorem Obeys.ensures (obeys : p.Obeys fatal P Q) : p.Ensures P Q := by
  induction p with
  | ret a => exact obeys
  | act i k ih =>
      obtain ⟨act, -, next⟩ := obeys
      refine ⟨act, fun r => ?_⟩
      by_cases failed : fatal ⟨i, r⟩
      · exact ((next r).1 failed).ensures
      · exact ih r ((next r).2 failed)

/-- A run that is about to act halts exactly if one of its replies was fatal. -/
theorem Obeys.comes {i : Effect I L} {k : i.Reply R → Prog (Effect I L) (Effect.Reply R) α}
    (obeys : p.Obeys fatal P Q) (comes : p.Comes t (.act i k)) :
    i.isHalt = true ↔ ∃ e ∈ t, fatal e := by
  generalize last : Prog.act i k = q at comes
  induction comes with
  | refl p =>
      subst last
      simp [obeys.2.1]
  | @act j l r t q comes ih =>
      by_cases failed : fatal ⟨j, r⟩
      · obtain ⟨reason, l', halts, -⟩ := ((obeys.2.2 r).1 failed).exists
        rw [halts] at comes
        cases comes with
        | refl =>
            cases last
            exact iff_of_true rfl ⟨_, List.mem_cons_self, failed⟩
        | @act _ _ never => cases never
      · rw [ih ((obeys.2.2 r).2 failed) last]
        simp [failed]

/-- No reply to a program that has returned was fatal. -/
theorem Obeys.traces {a : α} (obeys : p.Obeys fatal P Q) (traces : p.Traces t a) :
    ∀ e ∈ t, ¬ fatal e := by
  induction traces with
  | ret a => exact List.forall_mem_nil _
  | @act i k r t a traces ih =>
      have served : ¬ fatal ⟨i, r⟩ := by
        intro failed
        obtain ⟨reason, l, halts, -⟩ := ((obeys.2.2 r).1 failed).exists
        rw [halts] at traces
        cases traces with
        | @act _ _ never => cases never
      exact List.forall_mem_cons.mpr ⟨served, ih ((obeys.2.2 r).2 served)⟩

/-- A halt of either side is one of both. -/
theorem Obeys.together {W : γ → Prop} {poll : Effect I L} {first : poll.Reply R → Bool}
    {left : α → Prog (Effect I L) (Effect.Reply R) β → Prog (Effect I L) (Effect.Reply R) γ}
    {right : β → Prog (Effect I L) (Effect.Reply R) α → Prog (Effect I L) (Effect.Reply R) γ}
    {q : Prog (Effect I L) (Effect.Reply R) β} (polls : P poll) (going : poll.isHalt = false)
    (harmless : ∀ turn, ¬ fatal ⟨poll, turn⟩) (hp : p.Obeys fatal P Q) (hq : q.Obeys fatal P U)
    (onLeft : ∀ a q', Q a → q'.Obeys fatal P U → (left a q').Obeys fatal P W)
    (onRight : ∀ b p', U b → p'.Obeys fatal P Q → (right b p').Obeys fatal P W) :
    (together poll first Effect.isHalt left right p q).Obeys fatal P W := by
  induction p generalizing q with
  | ret a => exact onLeft a q hp hq
  | act i k ih =>
      rw [Prog.together, if_neg (by simp [hp.2.1])]
      induction q with
      | ret b => exact onRight b _ hq hp
      | act j l ih' =>
          rw [beside, if_neg (by simp [hq.2.1])]
          refine ⟨polls, going, fun turn => ⟨fun failed => absurd failed (harmless turn), ?_⟩⟩
          intro _
          dsimp only
          split
          · refine ⟨hp.1, hp.2.1, fun r => ⟨fun failed => ?_, fun served => ?_⟩⟩
            · obtain ⟨reason, m, halts, allowed⟩ := ((hp.2.2 r).1 failed).exists
              dsimp only
              rw [halts]
              exact allowed
            · exact ih r ((hp.2.2 r).2 served) hq
          · refine ⟨hq.1, hq.2.1, fun r => ⟨fun failed => ?_, fun served => ?_⟩⟩
            · obtain ⟨reason, m, halts, allowed⟩ := ((hq.2.2 r).1 failed).exists
              dsimp only
              rw [halts]
              exact allowed
            · exact ih' r ((hq.2.2 r).2 served)

end Prog

namespace Proc

open Attempt

/-- The process does what is allowed by `P`, succeeds with what is allowed by `Q`, and
halts exactly after a fatal reply. -/
def Obeys (fatal : Sigma (Effect.Reply (L := L) R) → Prop) (P : Effect I L → Prop)
    (Q : α → Prop) (x : Proc L R α) : Prop :=
  x.run.run.Obeys fatal P fun out => ∀ a, out = some (.ok a) → Q a

section Obeys

variable {fatal : Sigma (Effect.Reply (L := L) R) → Prop} {P P' : Effect I L → Prop}
  {Q Q' : α → Prop} {x : Proc L R α} {y : Proc L R β}

theorem obeys_pure {a : α} (value : Q a) : Obeys fatal P Q (pure a) := by
  rintro _ ⟨⟩
  exact value

theorem obeys_throw {e : String} : Obeys fatal P Q (throw e) := by
  rintro _ ⟨⟩

theorem obeys_spent : Obeys fatal P Q spent := by
  rintro _ ⟨⟩

theorem obeys_lift {r : Result α} (value : ∀ a, r = .ok a → Q a) :
    Obeys fatal P Q (liftM r) := by
  cases r with
  | ok a => exact obeys_pure (value a rfl)
  | error e => exact obeys_throw

theorem Obeys.mono (obeys : Obeys fatal P Q x) (acts : ∀ i, P i → P' i)
    (values : ∀ a, Q a → Q' a) : Obeys fatal P' Q' x :=
  Prog.Obeys.mono obeys acts fun _ value a same => values a (value a same)

theorem Obeys.ensures (obeys : Obeys fatal P Q x) : Ensures P Q x := Prog.Obeys.ensures obeys

theorem Obeys.bind {f : α → Proc L R β} {U : β → Prop} (first : Obeys fatal P Q x)
    (rest : ∀ a, Q a → Obeys fatal P U (f a)) : Obeys fatal P U (x >>= f) := by
  refine Prog.Obeys.bind first fun out value => ?_
  rcases out with _ | e | a
  · exact obeys_spent
  · exact obeys_throw (e := e)
  · exact rest a (value a rfl)

theorem Obeys.outcome (obeys : Obeys fatal P Q x) :
    Obeys fatal P (fun r => ∀ a, r = .ok a → Q a) x.outcome := by
  refine Prog.Obeys.bind obeys fun out value => ?_
  rintro r same a rfl
  cases out with
  | none => cases same
  | some result =>
      cases same
      exact value a rfl

theorem Obeys.forM {body : β → Proc L R PUnit}
    (obeys : ∀ b, Obeys fatal P (fun _ => True) (body b)) (l : List β) :
    Obeys fatal P (fun _ => True) (l.forM body) := by
  induction l with
  | nil => exact obeys_pure trivial
  | cons b l ih => exact (obeys b).bind fun _ _ => ih

theorem Obeys.loop {turn : Proc L R (Option α)}
    (obeys : Obeys fatal P (fun next => ∀ a, next = some a → Q a) turn) (budget : Nat) :
    Obeys fatal P Q (loop turn budget) := by
  induction budget with
  | zero => exact obeys_spent
  | succ budget ih =>
      apply obeys.bind
      intro next value
      cases next with
      | none => exact ih
      | some a => exact obeys_pure (value a rfl)

variable {poll : I} {first : R poll → Bool}

theorem Obeys.tryJoin {U : β → Prop} (polls : P (.ask poll))
    (harmless : ∀ turn, ¬ fatal ⟨.ask poll, turn⟩) (hx : Obeys fatal P Q x)
    (hy : Obeys fatal P U y) :
    Obeys fatal P (fun pair => Q pair.1 ∧ U pair.2) (tryJoin poll first x y) := by
  refine Prog.Obeys.together polls rfl harmless hx hy (fun out rest value later => ?_)
    fun out rest value later => ?_
  · have ended : Obeys fatal P Q (settled out) := value
    have going : Obeys fatal P U (ExceptT.mk (OptionT.mk rest)) := later
    exact ended.bind fun a left => going.bind fun b right => obeys_pure ⟨left, right⟩
  · have ended : Obeys fatal P U (settled out) := value
    have going : Obeys fatal P Q (ExceptT.mk (OptionT.mk rest)) := later
    exact ended.bind fun b right => going.bind fun a left => obeys_pure ⟨left, right⟩

theorem Obeys.select {y : Proc L R α} (polls : P (.ask poll))
    (harmless : ∀ turn, ¬ fatal ⟨.ask poll, turn⟩) (hx : Obeys fatal P Q x)
    (hy : Obeys fatal P Q y) : Obeys fatal P Q (select poll first x y) :=
  Prog.Obeys.together polls rfl harmless hx hy (fun _ _ value _ => value) fun _ _ value _ => value

end Obeys

section Effects

variable {expects : Sigma R → Prop} {P : Effect I L → Prop} {Q : α → Prop}

theorem obeys_request {r : I} (asks : P (.ask r)) (harmless : ∀ reply, ¬ expects ⟨r, reply⟩) :
    Obeys (Effect.Fatal expects) P (fun _ => True) (request r : Proc L R (R r)) :=
  ⟨asks, rfl, fun reply => ⟨fun failed => absurd failed (harmless reply),
    fun _ _ _ => trivial⟩⟩

/-- A request whose failure is a panic. -/
theorem obeys_request_bind {r : I} {f : R r → Proc L R α} (asks : P (.ask r))
    (halts : ∀ reply, expects ⟨r, reply⟩ →
      ∃ reason, f reply = halt reason ∧ P (.halt reason))
    (rest : ∀ reply, ¬ expects ⟨r, reply⟩ → Obeys (Effect.Fatal expects) P Q (f reply)) :
    Obeys (Effect.Fatal expects) P Q (request r >>= f) := by
  refine ⟨asks, rfl, fun reply => ⟨fun failed => ?_, rest reply⟩⟩
  obtain ⟨reason, same, allowed⟩ := halts reply failed
  change (f reply).run.run.Halts P
  rw [same]
  exact allowed

theorem obeys_print {stream : String} {line : L} (asks : P (.print line))
    (panics : ∀ e : String, P (.halt (.panic s!"failed printing to {stream}: {e}"))) :
    Obeys (Effect.Fatal expects) P (fun _ => True) (print stream line : Proc L R Unit) := by
  refine ⟨asks, rfl, fun printed => ?_⟩
  cases printed with
  | ok done =>
      refine ⟨?_, fun _ => obeys_pure trivial⟩
      rintro ⟨e, ⟨⟩⟩
  | error e => exact ⟨fun _ => panics e, fun served => absurd ⟨e, rfl⟩ served⟩

theorem obeys_eprintln {line : L} (asks : P (.print line))
    (panics : ∀ e : String, P (.halt (.panic s!"failed printing to stderr: {e}"))) :
    Obeys (Effect.Fatal expects) P (fun _ => True) (eprintln line : Proc L R Unit) :=
  obeys_print asks panics

theorem obeys_operate {o : Operation} (asks : P (.operate o))
    (panics : o.checked = true → ¬ o.Fits → P (.halt (.panic o.text))) :
    Obeys (Effect.Fatal expects) P (fun value => value = o.exact % o.limit)
      (operate o : Proc L R Nat) := by
  refine ⟨asks, rfl, fun _ => ⟨fun failed => ?_, fun served => ?_⟩⟩
  · change (if o.Fits then pure o.exact else
      if o.checked then panic o.text else pure (o.exact % o.limit) :
        Proc L R Nat).run.run.Halts P
    rw [if_neg failed.2, if_pos failed.1]
    exact panics failed.1 failed.2
  · change Obeys (Effect.Fatal expects) P (fun value => value = o.exact % o.limit)
      (if o.Fits then pure o.exact else
        if o.checked then panic o.text else pure (o.exact % o.limit))
    split
    · rename_i fits
      exact obeys_pure (Nat.mod_eq_of_lt fits).symm
    · rename_i large
      split
      · rename_i checked
        exact absurd ⟨checked, large⟩ served
      · exact obeys_pure rfl

theorem obeys_withCapacity {octets : Nat}
    (asks : P (.operate ⟨"capacity overflow", octets, 2 ^ 63, true⟩))
    (allocates : P (.allocate octets))
    (panics : 2 ^ 63 ≤ octets → P (.halt (.panic "capacity overflow")))
    (aborts : P (.halt (.abort s!"memory allocation of {octets} bytes failed"))) :
    Obeys (Effect.Fatal expects) P (fun _ => True) (withCapacity octets : Proc L R Unit) := by
  refine (obeys_operate asks fun _ large => panics (Nat.le_of_not_lt large)).bind fun _ _ => ?_
  refine ⟨allocates, rfl, fun granted => ?_⟩
  cases granted with
  | false => exact ⟨fun _ => aborts, fun served => absurd rfl served⟩
  | true => exact ⟨fun failed => absurd failed.symm Bool.false_ne_true, fun _ => obeys_pure trivial⟩

theorem obeys_unwrap {fatal : Sigma (Effect.Reply (L := L) R) → Prop} {o : Option α} {a : α}
    (is : o = some a) : Obeys fatal P (fun b => b = a) (unwrap o : Proc L R α) := by
  subst is
  exact obeys_pure rfl

end Effects

section Ensures

variable {P : Effect I L → Prop}

theorem ensures_print {stream : String} {line : L} (asks : P (.print line))
    (panics : ∀ e : String, P (.halt (.panic s!"failed printing to {stream}: {e}"))) :
    Ensures P (fun _ => True) (print stream line : Proc L R Unit) := by
  have obeys : Obeys (Effect.Fatal fun _ => False) P (fun _ => True)
    (print stream line : Proc L R Unit) := obeys_print asks panics
  exact obeys.ensures

end Ensures

/-! ### Failing by a reply -/

section FailsBy

variable {fails : Sigma (Effect.Reply (L := L) R) → Prop}

theorem failsBy_halt {reason : Halt} : FailsBy fails (halt reason : Proc L R α) := by
  intro t r traces
  obtain ⟨never, _, _, _, _, _⟩ := traces_always_bind.mp traces
  cases never

theorem failsBy_print {stream : String} {line : L}
    (harmless : ∀ reply, ¬ fails ⟨.print line, reply⟩) :
    FailsBy fails (print stream line : Proc L R Unit) := by
  refine failsBy_perform (fun reply _ => ?_) fun reply failed => absurd failed (harmless reply)
  cases reply with
  | ok done => exact failsBy_pure
  | error e => exact failsBy_halt

theorem failsBy_operate {o : Operation} (harmless : ¬ fails ⟨.operate o, ()⟩) :
    FailsBy fails (operate o : Proc L R Nat) := by
  refine failsBy_perform (fun _ _ => ?_) fun _ failed => absurd failed harmless
  split
  · exact failsBy_pure
  · split
    · exact failsBy_halt
    · exact failsBy_pure

theorem failsBy_withCapacity {octets : Nat}
    (harmless : ∀ operation, ¬ fails ⟨.operate operation, ()⟩)
    (granted : ∀ reply, ¬ fails ⟨.allocate octets, reply⟩) :
    FailsBy fails (withCapacity octets : Proc L R Unit) := by
  refine (failsBy_operate (harmless _)).bind fun _ => failsBy_perform (fun reply _ => ?_)
    fun reply failed => absurd failed (granted reply)
  cases reply with
  | false => exact failsBy_halt
  | true => exact failsBy_pure

theorem failsBy_unwrap_bind {o : Option α} {a : α} {f : α → Proc L R β} (is : o = some a)
    (rest : FailsBy fails (f a)) : FailsBy fails (unwrap o >>= f) := by
  subst is
  exact rest

end FailsBy

/-! ### Under a monitor -/

section Keeps

variable {σ : Type} {M : Monitor (Effect I L) (Effect.Reply R) σ} {s : σ}

theorem keeps_print {stream : String} {line : L} {Q : Post Unit σ}
    (allowed : M.allows s (.print line))
    (panics : ∀ e : String, M.allows (M.next s (.print line) (.error e))
      (.halt (.panic s!"failed printing to {stream}: {e}")))
    (ok : Q.ok () (M.next s (.print line) (.ok ()))) :
    Keeps M (print stream line) s Q := by
  refine keeps_perform_bind allowed fun printed _ => ?_
  cases printed with
  | ok done => exact keeps_pure ok
  | error e => exact keeps_perform_bind (panics e) fun never _ => nomatch never

theorem keeps_operate {o : Operation} {Q : Post Nat σ} (allowed : M.allows s (.operate o))
    (panics : o.checked = true → ¬ o.Fits →
      M.allows (M.next s (.operate o) ()) (.halt (.panic o.text)))
    (ok : Q.ok (o.exact % o.limit) (M.next s (.operate o) ())) :
    Keeps M (operate o) s Q := by
  refine keeps_perform_bind allowed fun _ _ => ?_
  split
  · rename_i fits
    rw [Nat.mod_eq_of_lt fits] at ok
    exact keeps_pure ok
  · rename_i large
    split
    · rename_i checked
      exact keeps_perform_bind (panics checked large) fun never _ => nomatch never
    · exact keeps_pure ok

end Keeps

end Proc

end Dorsche.Lib
