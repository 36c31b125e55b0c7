import Dorsche.Bin.FlossHfpSmoke.Loopback
import Dorsche.Lib.Process
import Mathlib.Algebra.Group.Nat.Defs

/-!
`main` of `floss_hfp_smoke` (`src/bin/floss_hfp_smoke.rs`) with parsed arguments.

The tool is a process, and every step of its own that can go one way or the other is a
`Request`. `usize` has 64 bits; `checks` are the build's `overflow-checks`.

The halves of `exercise_full_duplex` do not share anything and are programs of their
own. Those of `exercise_loopback` are a run of `Dorsche.Bin.FlossHfpSmoke.Loopback`.
-/

namespace Dorsche.Bin.FlossHfpSmoke

open Dorsche.Lib Proc

/-- What the tool needs of `f32`. -/
class F32 (F : Type) where
  isFinite : F → Bool
  /-- `value <= 0.0`. -/
  nonPositive : F → Bool
  /-- `value > 1.0`. -/
  aboveOne : F → Bool
  /-- A sample with gain. -/
  amplify : F → Int16 → Int16
  /-- A frame of the reference tone, by its number. -/
  tone : F → Codec → Nat → List UInt8

structure Args (F : Type) where
  address : String
  seconds : UInt64
  frequencyHz : F
  loopback : Bool
  loopbackGain : F
  loopbackDelaySeconds : UInt64
  capturePath : Option String
  codec : Codec

/-- The checks at the end of `Args::parse`. -/
def Args.validate {F : Type} [F32 F] (self : Args F) : Result Unit := do
  ensure (self.address ≠ "") "--address is required"
  ensure (¬ (self.seconds = 0 ∨ ¬ F32.isFinite self.frequencyHz ∨
    F32.nonPositive self.frequencyHz)) "duration and frequency must be positive"
  ensure (¬ (¬ F32.isFinite self.loopbackGain ∨ F32.nonPositive self.loopbackGain ∨
    F32.aboveOne self.loopbackGain)) "--loopback-gain must be in (0.0, 1.0]"
  ensure (self.loopbackDelaySeconds ≤ 60) "--loopback-delay-seconds must not exceed 60"
  ensure (¬ (self.loopbackDelaySeconds ≠ 0 ∧ ¬ self.loopback))
    "--loopback-delay-seconds requires --loopback"

/-! ### Requests -/

/-- A line of the output. -/
inductive Message where
  | started (codec : Codec) (mode : String)
  | fullDuplex (played : Nat) (captured : CaptureStats)
  | capturedPcm (path : String) (codec : Codec) (octets : Nat)
  | stopped
deriving DecidableEq, Repr

/-- What `main` asks of its surroundings. -/
inductive Request where
  /-- `Connection::system()`. -/
  | system
  /-- The proxy of `BluetoothMedia`. -/
  | build
  | setHfpActiveDevice (address : String)
  | listenerPair
  | startScoCall (address : String) (scoOffload : Bool) (disabledCodecs : Int32)
  | waitForListener (operation : String)
  | getHfpAudioFinalCodecs (address : String)
  | stopScoCall (address : String)
  /-- `Instant::now()`. -/
  | now
  | connect
  /-- Whether an instant is still to come. -/
  | before (deadline : Nat)
  | sleep
  | tick
  | writeAll (octets : List UInt8)
  | shutdown
  /-- `select!` between a deadline and a read. -/
  | readUntil (deadline : Nat)
  /-- `try_join!` of the halves of `exercise_loopback`. -/
  | joinLoopback (setup : Setup)
  | timer (seconds : Nat)
  | writeFile (path : String) (octets : List UInt8)
  /-- Which of two futures goes on. -/
  | poll

/-- A run of the halves of `exercise_loopback`. -/
structure LoopbackRun (setup : Setup) where
  log : List Act
  world : World
  run : Runs (World.Step setup) (.start setup) log world

/-- The type of a reply. The clock counts nanoseconds, and the machine has been up for
less than `uptime` of them. -/
abbrev Request.Reply (uptime : Nat) : Request → Type
  | .system | .build | .setHfpActiveDevice _ | .listenerPair => Result Unit
  | .startScoCall .. => Result Bool
  | .waitForListener _ | .getHfpAudioFinalCodecs _ => Result UInt8
  | .stopScoCall _ | .connect | .writeAll _ | .shutdown | .writeFile .. => Result Unit
  | .now => Fin uptime
  | .before _ | .poll => Bool
  | .readUntil _ => Option (Result (List UInt8))
  | .joinLoopback setup => LoopbackRun setup
  | .sleep | .tick | .timer _ => Unit

abbrev Log (uptime : Nat) := List (Sigma (Effect.Reply (L := Message) (Request.Reply uptime)))

abbrev Program (uptime : Nat) := Proc Message (Request.Reply uptime)

variable {uptime : Nat} {α : Type}

abbrev request (r : Request) : Program uptime (r.Reply uptime) := Proc.request r

/-- `instant + Duration::from_secs(seconds)`. An instant has `i64` seconds. -/
def instantAdd (instant seconds : Nat) : Program uptime Nat :=
  operate ⟨"overflow when adding duration to instant", instant + seconds * 1000000000,
    2 ^ 63 * 1000000000, true⟩

/-! ### The test -/

section Test

variable {F : Type} [F32 F] (checks : Bool) (turns : Nat) (args : Args F)

/-- The capacity of the recording. -/
def recording : Program uptime Unit := do
  let octetsPerSecond ← multiply checks args.codec.sampleRate 2
  let capacity ← multiply checks octetsPerSecond args.seconds.toNat
  withCapacity capacity

def connectTurn (deadline : Nat) : Program uptime (Option Unit) := do
  match ← request .connect with
  | .ok () => return some ()
  | .error e =>
      let early : Bool ← request (.before deadline)
      if early then
        request .sleep
        return none
      else throw s!"connect to /run/bluetooth/audio/.sco_data: {e}"

/-- `connect_sco_uipc`, in at most `turns` attempts. -/
def connectScoUipc : Program uptime Unit := do
  let now : Fin uptime ← request .now
  let deadline ← instantAdd now 3
  Attempt.loop (connectTurn deadline) turns

/-- A frame of the reference tone. -/
def playFrame (frame : Nat) : Program uptime Unit := do
  request .tick
  let written : Result Unit ← request (.writeAll (F32.tone args.frequencyHz args.codec frame))
  context "write SCO playback PCM" written

/-- The playback half of `exercise_full_duplex`. -/
def playTone : Program uptime Nat := do
  let samplesPerFrame := args.codec.sampleRate / 100
  let ticks := args.seconds.toNat * 1000 % 2 ^ 64 / 10
  (List.range ticks).forM (playFrame args)
  let closed : Result Unit ← request .shutdown
  context "close SCO playback half" closed
  return ticks * (samplesPerFrame * 2)

/-- The loop of the capture half, for at most `turns` reads. -/
def captureUntil (deadline : Nat) :
    Nat → CaptureStats → List UInt8 → Program uptime (CaptureStats × List UInt8)
  | 0, _, _ => Attempt.spent
  | turns + 1, stats, capturedPcm => do
      match ← request (.readUntil deadline) with
      | none => return (stats, capturedPcm)
      | some result =>
          let octets ← context "read SCO microphone PCM" result
          if octets = [] then return (stats, capturedPcm)
          else captureUntil deadline turns (stats.account octets) (capturedPcm ++ octets)

/-- The capture half of `exercise_full_duplex`. -/
def captureTone : Program uptime (CaptureStats × List UInt8) := do
  let now : Fin uptime ← request .now
  let deadline ← instantAdd now args.seconds.toNat
  recording checks args
  captureUntil deadline turns .initial []

def exerciseFullDuplex : Program uptime (Nat × CaptureStats × List UInt8) :=
  tryJoin .poll id (playTone args) (captureTone checks turns args)

/-- What `exercise_loopback` makes of its arguments at an instant. -/
def Args.setup (self : Args F) (started : Nat) : Setup where
  codec := self.codec
  seconds := self.seconds.toNat
  delaySeconds := self.loopbackDelaySeconds.toNat
  gain := F32.amplify self.loopbackGain
  started := started

/-- The end of `try_join!`. A run that is not over yet has none. -/
def joined (w : World) : Program uptime (Nat × CaptureStats × List UInt8) :=
  match w.capture.point, w.playing.point with
  | .panicked, _ | _, .panicked => Proc.panic "exercise_loopback"
  | .failed text, _ | _, .failed text => throw text
  | .returned, .returned =>
      return (w.playing.player.bytes, w.capture.stats, w.capture.capturedPcm)
  | _, _ => Attempt.spent

def exerciseLoopback : Program uptime (Nat × CaptureStats × List UInt8) := do
  let now : Fin uptime ← request .now
  let captureDeadline ← instantAdd now args.seconds.toNat
  let _ ← instantAdd captureDeadline args.loopbackDelaySeconds.toNat
  recording checks args
  let halves : LoopbackRun (args.setup now) ← request (.joinLoopback (args.setup now))
  joined halves.world

/-- `tokio::time::timeout`: the exercise is dropped when its time is over. -/
def timeout (seconds : Nat) (exercise : Program uptime α) : Program uptime α :=
  select .poll id exercise do
    request (.timer seconds)
    throw "full-duplex SCO test timed out: deadline has elapsed"

def mode : String :=
  if args.loopbackDelaySeconds ≠ 0 then s!"delayed-mic-loopback/{args.loopbackDelaySeconds}s"
  else if args.loopback then "mic-loopback"
  else "reference-tone"

def requireCodec : Program uptime Unit := do
  let listener : Result UInt8 ← request (.waitForListener "SCO start")
  let codec ← listener
  let final : Result UInt8 ← request (.getHfpAudioFinalCodecs args.address)
  let reported ← final
  let expected := args.codec.expectedBit
  let name := args.codec.name
  ensure (¬ (codec ≠ expected ∨ reported ≠ expected))
    s!"expected {name} codec bit {expected}, listener={codec}, reported={reported}"

def writeCapture (path : String) (capturedPcm : List UInt8) : Program uptime Unit := do
  let written : Result Unit ← request (.writeFile path capturedPcm)
  context s!"write captured PCM to {path}" written
  println (.capturedPcm path args.codec capturedPcm.length)

/-- The block whose result is `test_result`. -/
def test : Program uptime Unit := do
  requireCodec args
  println (.started args.codec (mode args))
  connectScoUipc turns
  let seconds ← add checks args.seconds.toNat args.loopbackDelaySeconds.toNat
  let seconds ← add checks seconds 5
  let (played, captured, capturedPcm) ← timeout seconds
    (if args.loopback then exerciseLoopback checks args
      else exerciseFullDuplex checks turns args)
  println (.fullDuplex played captured)
  ensure (captured.bytes ≠ 0) "SCO uplink produced no microphone PCM"
  ensure (¬ (captured.samples = 0 ∨ captured.peak = 0))
    "SCO uplink produced only zero-valued microphone PCM"
  match args.capturePath with
  | some path => writeCapture args path capturedPcm
  | none => return ()

/-- `main` up to `StartScoCall`. -/
def prepare : Program uptime Unit := do
  let connection : Result Unit ← request .system
  context "connect to system D-Bus" connection
  let media : Result Unit ← request .build
  context "create Floss BluetoothMedia proxy" media
  let active : Result Unit ← request (.setHfpActiveDevice args.address)
  active
  let pair : Result Unit ← request .listenerPair
  pair

def startScoCall : Program uptime Unit := do
  let reply : Result Bool ←
    request (.startScoCall args.address false args.codec.disabledCodecs)
  let started ← reply
  ensure (started = true) "Floss rejected StartScoCall (is the HFP SLC connected?)"

/-- `stop_sco`, with its socket pair. -/
def stopSco (address : String) : Program uptime UInt8 := do
  let stopped : Result Unit ← request (.stopScoCall address)
  stopped
  let status : Result UInt8 ← request (.waitForListener "SCO stop")
  status

/-- The end of `main`. -/
def conclude : Result Unit → Result UInt8 → Program uptime Unit
  | .ok (), .ok status =>
      if status = 0 then println .stopped
      else throw s!"unexpected SCO stop listener status={status}"
  | .ok (), .error stopError => throw s!"SCO test passed but cleanup failed: {stopError}"
  | .error testError, .ok _ => throw testError
  | .error testError, .error stopError =>
      throw s!"SCO cleanup also failed: {stopError}: {testError}"

/-- `main` after `StartScoCall` has returned true. -/
def testAndStop : Program uptime Unit := do
  let testResult ← (test checks turns args).outcome
  let stopResult ← (stopSco args.address).outcome
  conclude testResult stopResult

def main : Program uptime Unit := do
  prepare args
  startScoCall args
  testAndStop checks turns args

end Test

end Dorsche.Bin.FlossHfpSmoke
