import Dorsche.Lib.Blocks
import Dorsche.Lib.Bytes
import Dorsche.Lib.Process

/-!
`main` of `floss_audio_smoke` (`src/bin/floss_audio_smoke.rs`) with parsed arguments.

The tool is a process, and every step of its own that can go one way or the other is a
`Request`. The clock counts nanoseconds; `checks` are the build's `overflow-checks`. The
tone is left as a function from the index of a sample to its value.
-/

namespace Dorsche.Bin.FlossAudioSmoke

open Dorsche.Lib Proc

structure Args (F : Type) where
  address : String
  seconds : UInt64
  volume : UInt8
  frequencyHz : F
  pcmPath : Option String

/-- `FRAMES_PER_TICK`. -/
@[irreducible] def framesPerTick : Nat := 960

/-- `CHANNELS`. -/
def channels : Nat := 2

/-- The octets of a tick. -/
def frameBytes : Nat := framesPerTick * channels * 2

/-- A line of the output. -/
inductive Message where
  | started (volume : UInt8)
  | sentFile (bytes : Nat) (path : String)
  | sentTone (bytes : Nat)
  | stopped (status : UInt8)
deriving DecidableEq, Repr

/-- What `main` asks of its surroundings. -/
inductive Request where
  /-- `Connection::system()`. -/
  | system
  /-- The proxy of `BluetoothMedia`. -/
  | build
  | setActiveDevice (address : String)
  | getA2dpAudioStarted (address : String)
  | listenerPair
  | stopAudioRequest
  /-- The octet of a listener, or nothing in eight seconds. -/
  | waitForListener (operation : String)
  | setAudioConfig (address : String) (codecType : UInt32)
      (sampleRate bitsPerSample channelMode : Int32)
  | setVolume (volume : UInt8)
  | startAudioRequest
  /-- `Instant::now()`. -/
  | now
  | sleep (ns : Nat)
  | connect
  | readFile (path : String)
  | tick
  | writeAll (octets : List UInt8)
  | shutdown
deriving DecidableEq, Repr

abbrev Request.Reply : Request → Type
  | .system | .build | .setActiveDevice _ | .listenerPair | .stopAudioRequest => Result Unit
  | .setVolume _ | .connect | .writeAll _ | .shutdown => Result Unit
  | .getA2dpAudioStarted _ | .setAudioConfig .. | .startAudioRequest => Result Bool
  | .waitForListener _ => Option (Result UInt8)
  | .readFile _ => Result (List UInt8)
  | .now => Nat
  | .sleep _ | .tick => Unit

abbrev Program := Proc Message Request.Reply

variable {F : Type}

abbrev request (r : Request) : Program r.Reply := Proc.request r

/-! ### Waiting -/

/-- `Duration::from_millis(20)`. -/
def pause : Nat := 20000000

/-- `Duration::from_secs(3)`. -/
def patience : Nat := 3000000000

def waitForListener (operation : String) : Program UInt8 := do
  match ← request (.waitForListener operation) with
  | none => throw s!"timed out waiting for Floss {operation}: deadline has elapsed"
  | some result => result

def getA2dpAudioStarted (address : String) : Program Bool := do
  let started : Result Bool ← request (.getA2dpAudioStarted address)
  started

def audioStateTurn (address : String) (expected : Bool) (deadline : Nat) :
    Program (Option Unit) := do
  let started ← getA2dpAudioStarted address
  if started = expected then return some ()
  else
    let reading : Nat ← request .now
    if deadline ≤ reading then throw s!"timed out waiting for A2DP started={expected}"
    else
      request (.sleep pause)
      return none

/-- `wait_for_audio_state`, in at most `turns` turns. -/
def waitForAudioState (turns : Nat) (address : String) (expected : Bool) : Program Unit := do
  let start : Nat ← request .now
  Attempt.loop (audioStateTurn address expected (start + patience)) turns

/-- A request to stop, with its listener. -/
def stopAudio (operation : String) : Program UInt8 := do
  let pair : Result Unit ← request .listenerPair
  pair
  let stopped : Result Unit ← request .stopAudioRequest
  stopped
  waitForListener operation

def stopExistingStream (turns : Nat) (address : String) : Program Unit := do
  if ← getA2dpAudioStarted address then
    let status ← stopAudio "pre-test A2DP stop"
    ensure (status = 0) s!"unexpected pre-test A2DP stop status={status}"
    waitForAudioState turns address false
  else return ()

def connectTurn (deadline : Nat) : Program (Option Unit) := do
  match ← request .connect with
  | .ok () => return some ()
  | .error e =>
      let reading : Nat ← request .now
      if reading < deadline then
        request (.sleep pause)
        return none
      else throw s!"connect to /run/bluetooth/audio/.a2dp_data: {e}"

/-- `connect_uipc`, in at most `turns` turns. -/
def connectUipc (turns : Nat) : Program Unit := do
  let start : Nat ← request .now
  Attempt.loop (connectTurn (start + patience)) turns

/-! ### Feeding -/

/-- The loops over the frames and channels of a tick; `none` is a slice out of range. -/
def fillTone (sample : UInt64 → Int16) (sampleIndex : UInt64) (pcm : Buffer UInt8) :
    Option (Buffer UInt8) :=
  (List.range framesPerTick).foldlM (fun pcm frame =>
    (List.range channels).foldlM (fun pcm channel =>
      pcm.copyFromSlice ((frame * channels + channel) * 2)
        (leBytes 2 (sample (sampleIndex + UInt64.ofNat frame)).toUInt16.toNat)) pcm) pcm

def writeAll (text : String) (octets : List UInt8) : Program Unit := do
  let written : Result Unit ← request (.writeAll octets)
  context text written

def closeStream : Program Unit := do
  let closed : Result Unit ← request .shutdown
  context "close A2DP data stream" closed

/-- A tick of the tone. The index of the sample is incremented for every frame. -/
def toneTick (checks : Bool) (sample : UInt64 → Int16) (state : Buffer UInt8 × UInt64) (_ : Nat) :
    Program (Buffer UInt8 × UInt64) := do
  request .tick
  match fillTone sample state.2 state.1 with
  | none => Proc.panic "range end index out of range for slice"
  | some pcm =>
      let sampleIndex ← add checks state.2.toNat framesPerTick
      writeAll "feed A2DP PCM" pcm.cells
      return (pcm, UInt64.ofNat sampleIndex)

def silentTick (pcm : List UInt8) (_ : Unit) (_ : Nat) : Program Unit := do
  request .tick
  writeAll "feed A2DP drain silence" pcm

def writeTestTone (checks : Bool) (sample : UInt64 → Int16) (seconds : UInt64) :
    Program Nat := do
  let pcm : Buffer UInt8 := ⟨List.replicate frameBytes 0, []⟩
  let milliseconds ← multiply checks seconds.toNat 1000
  let tickCount := milliseconds / 20
  let (pcm, _) ← (List.range tickCount).foldlM (toneTick checks sample) (pcm, 0)
  -- `pcm.fill(0)`
  let pcm := List.replicate pcm.cells.length (0 : UInt8)
  (List.range 5).foldlM (silentTick pcm) ()
  closeStream
  let ticks ← add checks tickCount 5
  multiply checks ticks pcm.length

def chunkTick (bytes : Nat) (chunk : List UInt8) : Program Nat := do
  request .tick
  writeAll "feed A2DP PCM file" chunk
  return bytes + chunk.length

/-- The count of the octets of a vector does not overflow. -/
def writePcmFile (path : String) : Program Nat := do
  let file : Result (List UInt8) ← request (.readFile path)
  let pcm ← context s!"read PCM from {path}" file
  ensure (¬ (pcm = [] ∨ pcm.length % (channels * 2) ≠ 0))
    "PCM file must contain non-empty 48-kHz/S16LE/stereo frames"
  let bytes ← (chunks frameBytes pcm).foldlM chunkTick 0
  closeStream
  return bytes

/-! ### The tool -/

section Main

variable (checks : Bool) (turns : Nat) (sample : F → UInt64 → Int16) (args : Args F)

/-- `main` up to `StartAudioRequest`. -/
def prepare : Program Unit := do
  let connection : Result Unit ← request .system
  context "connect to system D-Bus" connection
  let media : Result Unit ← request .build
  context "create Floss BluetoothMedia proxy" media
  let active : Result Unit ← request (.setActiveDevice args.address)
  active
  stopExistingStream turns args.address
  let config : Result Bool ← request (.setAudioConfig args.address 0 0x02 0x01 0x02)
  let accepted ← config
  ensure (accepted = true) "Floss rejected SBC 48-kHz/S16/stereo configuration"
  waitForAudioState turns args.address false
  let volume : Result Unit ← request (.setVolume args.volume)
  volume

def startAudio : Program Unit := do
  let pair : Result Unit ← request .listenerPair
  pair
  let reply : Result Bool ← request .startAudioRequest
  let accepted ← reply
  ensure (accepted = true) "Floss rejected StartAudioRequest"
  let status ← waitForListener "A2DP start"
  ensure (status = 1) s!"A2DP start failed: listener status={status}"
  let started ← getA2dpAudioStarted args.address
  ensure (started = true) s!"A2DP start failed: listener status={status}"

def feed : Program Unit := do
  connectUipc turns
  match args.pcmPath with
  | some path =>
      let bytes ← writePcmFile path
      println (.sentFile bytes path)
  | none =>
      let bytes ← writeTestTone checks (sample args.frequencyHz) args.seconds
      println (.sentTone bytes)

def main : Program Unit := do
  prepare turns args
  startAudio args
  println (.started args.volume)
  feed checks turns sample args
  let status ← stopAudio "A2DP stop"
  println (.stopped status)

end Main

end Dorsche.Bin.FlossAudioSmoke
