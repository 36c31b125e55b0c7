import Dorsche.Lib.Process
import Dorsche.Wireless.DataPlane.Sizing
import Dorsche.Wireless.Floss.Control
import Dorsche.Wireless.PipeWire

/-!
The two LE Audio tools (`src/bin/floss_le_audio_smoke.rs`, `src/bin/dorsche_pipewire.rs`)
after `start_software_unicast` has returned a data path.

The tools are processes. Every step that can go wrong is a `Request` with the outcomes
the source distinguishes: system calls, files, the socket, the operations of the two
ring ends, the signal handler. The pumps, which have no end of their own, take a budget
of turns.

A data path that is dropped before it is stopped prints a warning (`orDrop`). What is
printed while a panic unwinds is left out.

The octets of the test tone are a parameter: `write_sample` computes them in
floating point.
-/

namespace Dorsche.Bin

open Dorsche.Lib Dorsche.Wireless Dorsche.Wireless.DataPlane Dorsche.Wireless.Floss Proc

/-- `Mode` of `floss_le_audio_smoke`. -/
inductive FlossLeAudioSmoke.Mode where
  | output
  | input
  | duplex
deriving DecidableEq, Repr

/-- `Direction` of `dorsche_pipewire`. -/
inductive DorschePipewire.Direction where
  | source
  | sink
deriving DecidableEq, Repr

/-- What a tool asks of its surroundings. -/
inductive Request where
  | media (call : Call)
  | createRing (slotCount payloadCapacity : UInt32)
  | spawn (name : String)
  | tick
  | writeAll (bytes : List UInt8)
  | shutdown
  /-- Straight into the reserved slot. -/
  | readExact (octets : Nat)
  | createFile (path : String)
  | writeFile (bytes : List UInt8)
  | tryReserve
  | commit (descriptor : FrameDescriptor) (octets : Nat)
  | tryAcquire
  | waitReadable
  | monotonicTime
  | ctrlC
  /-- Which of two futures goes on. -/
  | poll

/-- The type of a reply. -/
abbrev Request.Reply (V : Type) : Request → Type
  | .media call => call.Reply V
  | .createRing .. => SystemCalls
  | .spawn _ | .writeAll _ | .shutdown | .readExact _ | .createFile _ | .writeFile _ => Result Unit
  | .tryReserve => Option Unit
  | .commit .. | .waitReadable | .ctrlC => Result Unit
  | .tryAcquire => Result (Option Frame)
  | .tick => Unit
  | .monotonicTime => UInt64
  | .poll => Bool

/-- The lines on standard error. -/
inductive Line where
  | negotiated (hostPcm peerPcm : Option PcmConfiguration) (mode : FlossLeAudioSmoke.Mode)
  /-- Without the samples, their level and the drops. -/
  | peerCapture (bytes : Nat)
  | stopped (bytes : Nat)
  | active (direction : DorschePipewire.Direction)
  /-- The warning of the destructor. -/
  | dropped

/-- What a run did, with the replies. -/
abbrev Log (V : Type) := List (Sigma (Effect.Reply (L := Line) (Request.Reply V)))

/-- A program of a tool. -/
abbrev Program (V : Type) := Proc Line (Request.Reply V)

variable {V α : Type}

abbrev request (r : Request) : Program V (r.Reply V) := Proc.request r

/-- Calls of the control plane. -/
def media (x : Control V α) : Program V α :=
  ExceptT.mk (OptionT.mk (Prog.within (fun call => Effect.ask (Request.media call)) x.run.run))

/-- A fallible request, and the text its error is given. -/
def attempt (text : String) (reply : Program V (Result α)) : Program V α := do
  let outcome ← reply
  context text outcome

/-- `RingPair::create` on a 64-bit `usize`. -/
def createRing (slotCount payloadCapacity : UInt32) : Program V RingPair := do
  let sys : SystemCalls ← request (.createRing slotCount payloadCapacity)
  RingPair.create 64 sys slotCount payloadCapacity

/-- `try_reserve`, and the slice of the payload to read into. The slice is as long as the
ring was made for. -/
def reserve (overrun : String) (capacity : UInt32) (octets : Nat) : Program V Unit := do
  match ← request .tryReserve with
  | none => throw overrun
  | some () => sliceTo octets capacity.toNat

/-- A failure that drops a data path which is not stopped. -/
def orDrop (x : Program V α) : Program V α := do
  match ← x.outcome with
  | .ok a => return a
  | .error e =>
      eprintln .dropped
      throw e

/-- `stop`, which consumes the data path. Without a proxy it is dropped unstopped. -/
def stop (dataPath : FlossLeDataPath) : Program V Unit := do
  orDrop (media dataPath.owner.proxy)
  media dataPath.requestStops

/-- The end of both `main`s: `stop` is awaited before either result is looked at. -/
def closing (finish : α → Program V Unit) (dataPath : FlossLeDataPath) (ioResult : Result α) :
    Program V Unit := do
  let stopResult ← (stop dataPath).outcome
  let value ← ioResult
  stopResult
  finish value

/-! ### `floss_le_audio_smoke` -/

namespace FlossLeAudioSmoke

structure Args where
  groupId : Int32
  seconds : UInt64
  mode : Mode
  capture : Option String
deriving DecidableEq, Repr

def Args.directions (args : Args) : FlossLeDirections :=
  match args.mode with
  | .output => .output
  | .input => .input
  | .duplex => .fullDuplex

section

variable (checks : Bool) (tone : PcmConfiguration → Nat → List UInt8) (args : Args)

/-- One turn of the loop of `write_tone`. -/
def writeInterval (pcm : PcmConfiguration) (interval : Nat) : Program V Unit := do
  let () ← request .tick
  attempt "write LE Audio host PCM" (request (.writeAll (tone pcm interval)))

def writeTone (pcm : PcmConfiguration) : Program V Nat := do
  let bytesPerInterval ← pcm.bytesPerInterval
  let micros ← multiply checks args.seconds.toNat 1000000
  let intervals := micros / pcm.dataIntervalUs.toNat
  -- `vec![0_u8; bytes_per_interval]`
  withCapacity bytesPerInterval
  (List.range intervals).forM (writeInterval tone pcm)
  let shutdown ← request .shutdown
  shutdown
  multiply checks intervals bytesPerInterval

/-- The first whole sample of an unsupported width is an error; the values only feed
the level that is printed. -/
def decodeSamples (bytes : List UInt8) (bits : UInt8) : Result Unit :=
  ensure (bytes.length < (bits / 8).toNat ∨ bits ∈ [16, 24, 32]) s!"unsupported PCM width {bits}"

/-- A frame goes to the capture file, if there is one. -/
def writeCapture (bytes : List UInt8) : Program V Unit := do
  if args.capture.isSome then
    let written ← request (.writeFile bytes)
    written

/-- One turn of the loop of `capture_peer`. -/
def captureInterval (pcm : PcmConfiguration) (octets sequence : Nat) : Program V Unit := do
  reserve "LE Audio capture ring overrun" (UInt32.ofNat octets) octets
  attempt "read LE Audio peer PCM" (request (.readExact octets))
  let captureTimeNs ← request .monotonicTime
  let committed ← request
    (.commit (PipeWire.sinkDescriptor pcm (UInt64.ofNat sequence) captureTimeNs) octets)
  committed
  let acquired ← request .tryAcquire
  match ← acquired with
  | none => throw "published LE Audio frame was not visible"
  | some frame =>
      writeCapture args frame.payload
      decodeSamples frame.payload pcm.bitsPerSample

/-- The file of `--capture`. -/
def createCapture : Program V Unit :=
  match args.capture with
  | none => return ()
  | some path => attempt "create LE Audio capture file" (request (.createFile path))

def capturePeer (pcm : PcmConfiguration) : Program V Nat := do
  let bytesPerInterval ← pcm.bytesPerInterval
  let micros ← multiply checks args.seconds.toNat 1000000
  let intervals := micros / pcm.dataIntervalUs.toNat
  let _ ← createRing 8 (UInt32.ofNat bytesPerInterval)
  createCapture args
  (List.range intervals).forM (captureInterval args pcm bytesPerInterval)
  let printed ← multiply checks intervals bytesPerInterval
  eprintln (.peerCapture printed)
  multiply checks intervals bytesPerInterval

/-- The `match` over the mode. The single modes keep their result; `try_join!` is
followed by a question mark. -/
def stream (dataPath : FlossLeDataPath) : Program V (Result Nat) :=
  match args.mode with
  | .output => do
      let pcm ← unwrap dataPath.hostPcm
      (writeTone checks tone args pcm).outcome
  | .input => do
      let pcm ← unwrap dataPath.peerPcm
      (capturePeer checks args pcm).outcome
  | .duplex => do
      let hostPcm ← unwrap dataPath.hostPcm
      let peerPcm ← unwrap dataPath.peerPcm
      let (played, captured) ← tryJoin .poll id
        (writeTone checks tone args hostPcm) (capturePeer checks args peerPcm)
      let total ← add checks played captured
      return .ok total

/-- `main` until `stop`: the data path without its stream, and the result. -/
def streaming (dataPath : FlossLeDataPath) : Program V (FlossLeDataPath × Result Nat) := do
  eprintln (.negotiated dataPath.hostPcm dataPath.peerPcm args.mode)
  let (_, dataPath) ← dataPath.takeStream
  let ioResult ← stream checks tone args dataPath
  return (dataPath, ioResult)

/-- `main` after `start_software_unicast`. -/
def main (dataPath : FlossLeDataPath) : Program V Unit := do
  let (dataPath, ioResult) ← orDrop (streaming checks tone args dataPath)
  closing (fun bytes => eprintln (.stopped bytes)) dataPath ioResult

end

end FlossLeAudioSmoke

/-! ### `dorsche_pipewire` -/

namespace DorschePipewire

structure Args where
  groupId : Int32
  direction : Direction
deriving DecidableEq, Repr

def Args.directions (args : Args) : FlossLeDirections :=
  match args.direction with
  | .source => .input
  | .sink => .output

/-- `spawn_pipewire_source` and `spawn_pipewire_sink`. -/
def spawnPipewire (name expected : String) : Program V Unit := do
  match ← request (.spawn name) with
  | .ok () => return ()
  | .error error => Proc.panic s!"{expected}: {error}"

/-- The loop of `pump_peer_to_ring`. -/
def pumpFrames (pcm : PcmConfiguration) (bytes : Nat) : Nat → UInt64 → Program V Unit
  | 0, _ => Attempt.spent
  | budget + 1, sequence => do
      reserve "PipeWire source ring overrun" (UInt32.ofNat bytes) bytes
      attempt "read Floss LE Audio peer PCM" (request (.readExact bytes))
      let captureTimeNs ← request .monotonicTime
      let committed ← request
        (.commit (PipeWire.sinkDescriptor pcm sequence captureTimeNs) bytes)
      committed
      pumpFrames pcm bytes budget (sequence + 1)

def pumpPeerToRing (budget : Nat) (pcm : PcmConfiguration) : Program V Unit := do
  let bytes ← pcm.bytesPerInterval
  pumpFrames pcm bytes budget 0

/-- One turn of the loop of `pump_ring_to_host`. -/
def pumpTurn : Program V (Option Unit) := do
  let acquired ← request .tryAcquire
  match ← acquired with
  | some frame =>
      ensure (frame.descriptor.payloadKind = PayloadKind.pcm.toUInt8)
        "PipeWire sink received a non-PCM frame"
      attempt "write Floss LE Audio host PCM" (request (.writeAll frame.payload))
      return none
  | none =>
      let readable ← request .waitReadable
      readable
      return none

def pumpRingToHost (budget : Nat) : Program V Unit := Attempt.loop pumpTurn budget

/-- The `select!` of a pump and the signal. -/
def untilCtrlC (pump : Program V Unit) : Program V Unit :=
  select .poll id pump (attempt "Ctrl-C handler" (request .ctrlC))

/-- Either direction, with its configuration and its pump. Only the `select!` keeps its
result. -/
def pumping (direction : Direction) (name expected : String) (pcm : PcmConfiguration)
    (pump : Program V Unit) : Program V (Result Unit) := do
  let octets ← pcm.bytesPerInterval
  let _ ← createRing 16 (UInt32.ofNat octets)
  spawnPipewire name expected
  eprintln (.active direction)
  (untilCtrlC pump).outcome

/-- The `match` over the direction. -/
def stream (budget : Nat) (args : Args) (dataPath : FlossLeDataPath) : Program V (Result Unit) :=
  match args.direction with
  | .source =>
      match dataPath.peerPcm with
      | none => throw "Floss returned no peer PCM config"
      | some pcm =>
          pumping .source "dorsche-pw-source" "spawn PipeWire source thread" pcm
            (pumpPeerToRing budget pcm)
  | .sink =>
      match dataPath.hostPcm with
      | none => throw "Floss returned no host PCM config"
      | some pcm =>
          pumping .sink "dorsche-pw-sink" "spawn PipeWire sink thread" pcm (pumpRingToHost budget)

/-- `main` until `stop`: the data path without its stream, and the result. -/
def streaming (budget : Nat) (args : Args) (dataPath : FlossLeDataPath) :
    Program V (FlossLeDataPath × Result Unit) := do
  let (_, dataPath) ← dataPath.takeStream
  let pumpResult ← stream budget args dataPath
  return (dataPath, pumpResult)

/-- `main` after `start_software_unicast`. -/
def main (budget : Nat) (args : Args) (dataPath : FlossLeDataPath) : Program V Unit := do
  let (dataPath, pumpResult) ← orDrop (streaming budget args dataPath)
  closing (fun _ => return ()) dataPath pumpResult

end DorschePipewire

end Dorsche.Bin
