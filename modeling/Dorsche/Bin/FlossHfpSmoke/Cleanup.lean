import Dorsche.Bin.FlossHfpSmoke.Main

/-!
Whether `floss_hfp_smoke` stops the call it has started.

The result of the test is kept, so no error of it prevents `StopScoCall`. What does is
an end of the process in the middle of the test: a panic of the arithmetic on a long
duration, a line that is not taken, a recording that is not allocated, or a signal. The
computations of a run are in its log, so that a test which ends before them is not blamed
for the durations it was given.
-/

namespace Dorsche.Bin.FlossHfpSmoke

open Dorsche.Lib Attempt Proc

variable {uptime : Nat} {α : Type}

/-- The requests of the tool have no failure that is a panic. -/
abbrev fatal : Sigma (Effect.Reply (L := Message) (Request.Reply uptime)) → Prop :=
  Effect.Fatal fun _ => False

def isStop : Effect Request Message → Bool
  | .ask (.stopScoCall _) => true
  | _ => false

/-- How often `StopScoCall` was issued. -/
def stops (t : Log uptime) : Nat := t.countP fun e => isStop e.1

/-- Every computation that was made is exact. -/
def Exact (t : Log uptime) : Prop := ∀ operation, ⟨.operate operation, ()⟩ ∈ t → operation.Fits

/-- What the test does: nothing that belongs to the stop, and under the condition `fits`
only computations that are exact. -/
def Tests (fits : Prop) : Effect Request Message → Prop
  | .ask (.stopScoCall _) => False
  | .ask (.waitForListener operation) => operation ≠ "SCO stop"
  | .print line => line ≠ .stopped
  | .operate operation => fits → operation.Fits
  | _ => True

/-! ### Arithmetic that fits -/

section Arithmetic

variable {fits : Prop} {checks : Bool}

theorem obeys_ask {P : Effect Request Message → Prop} {r : Request} (asks : P (.ask r)) :
    Obeys fatal P (fun _ => True) (request r : Program uptime (r.Reply uptime)) :=
  obeys_request asks fun _ => id

theorem obeys_println {line : Message} (early : line ≠ .stopped) :
    Obeys fatal (Tests fits) (fun _ => True) (println line : Program uptime Unit) :=
  obeys_print early fun _ => trivial

theorem obeys_exact {operation : Operation} (small : fits → operation.Fits) :
    Obeys fatal (Tests fits) (fun value => fits → value = operation.exact)
      (operate operation : Program uptime Nat) :=
  (obeys_operate small fun _ _ => trivial).mono (fun _ => id)
    fun _ is holds => is.trans (Nat.mod_eq_of_lt (small holds))

theorem obeys_word {text : String} {exact : Nat} (small : fits → exact < 2 ^ 64) :
    Obeys fatal (Tests fits) (fun value => fits → value = exact)
      (word checks text exact : Program uptime Nat) :=
  obeys_exact small

end Arithmetic

/-- The arithmetic of the test is exact, however far it comes. -/
structure Fits {F : Type} (args : Args F) (uptime : Nat) : Prop where
  capacity : args.codec.sampleRate * 2 * args.seconds.toNat < 2 ^ 63
  connecting : uptime + 3 * 1000000000 ≤ 2 ^ 63 * 1000000000
  deadline : uptime + (args.seconds.toNat + args.loopbackDelaySeconds.toNat) * 1000000000 ≤
    2 ^ 63 * 1000000000

/-- What the test of these arguments does. -/
abbrev Args.Tests {F : Type} (args : Args F) (uptime : Nat) : Effect Request Message → Prop :=
  FlossHfpSmoke.Tests (Fits args uptime)

section Steps

variable {F : Type} {checks : Bool} {turns : Nat} {args : Args F}

theorem obeys_writeCapture (path : String) (capturedPcm : List UInt8) :
    Obeys fatal (args.Tests uptime) (fun _ => True)
      (writeCapture args path capturedPcm : Program uptime Unit) := by
  unfold writeCapture
  refine (obeys_ask trivial).bind fun written _ => ?_
  exact (obeys_lift fun _ _ => trivial).bind fun _ _ => obeys_println (by simp)

end Steps

section Test

variable {F : Type} [F32 F] {checks : Bool} {turns : Nat} {args : Args F}

end Test

/-! ### The start of `main` -/

/-- What is asked up to `StartScoCall`. -/
def Starts : Effect Request Message → Prop
  | .ask .system | .ask .build | .ask (.setHfpActiveDevice _) | .ask .listenerPair => True
  | .ask (.startScoCall ..) => True
  | _ => False

section Start

variable {F : Type} {args : Args F} {t : Log uptime}

end Start

/-! ### The end of `main` -/

section Ends

variable {address : String} {t : Log uptime}

end Ends

section Main

variable {F : Type} [F32 F] {checks : Bool} {turns : Nat} {args : Args F} {t t₀ t₁ t₂ : Log uptime}
  {exit : Exit Request Message}

/-- What the surroundings have to grant until the stop: durations that can be computed
with as far as they are used, lines, memory, and no signal. -/
structure Served (t : Log uptime) (exit : Exit Request Message) : Prop where
  exact : Exact t
  lines : ∀ line reply, ⟨.print line, reply⟩ ∈ t → line ≠ .stopped → reply = .ok ()
  memory : ∀ octets granted, ⟨.allocate octets, granted⟩ ∈ t → granted = true
  spared : ∀ effect, exit = .killed effect →
    effect = .ask (.waitForListener "SCO stop") ∨ effect = .print .stopped

theorem Tests.isStop {fits : Prop} {i : Effect Request Message} (tests : Tests fits i) :
    isStop i = false := by
  cases i with
  | ask r =>
      cases r with
      | stopScoCall address => cases tests
      | _ => rfl
  | _ => rfl

theorem Starts.isStop {i : Effect Request Message} (starts : Starts i) : isStop i = false := by
  cases i with
  | ask r =>
      cases r with
      | stopScoCall address => cases starts
      | _ => rfl
  | _ => rfl

/-- Arithmetic that leaves samples as they are. -/
instance plainF32 : F32 Unit where
  isFinite _ := true
  nonPositive _ := false
  aboveOne _ := false
  amplify _ sample := sample
  tone _ _ _ := []

end Main

end Dorsche.Bin.FlossHfpSmoke
