import Dorsche.Lib.Trace
import Dorsche.Wireless.Types

/-!
The Floss LE Audio control plane (`src/wireless/floss.rs`).

Everything outside the process is a `Call`: the requests to the media service,
the clock, sleeping and the data socket. A run is a trace of calls with the
replies the service chose, so what is proved of `startSoftwareUnicast` holds
against every service. The two waiting loops take a budget of turns.
-/

namespace Dorsche.Wireless.Floss

open Dorsche.Lib

/-- `FLOSS_SERVICE`. -/
def flossService : String := "org.chromium.bluetooth"

/-- `LE_AUDIO_DATA_PATH`. -/
def leAudioDataPath : String := "/run/bluetooth/audio/.lea_data"

/-- The two directions of a stream: `Host…` and `Peer…` in the media interface. -/
inductive Direction where
  | hostToPeer
  | peerToHost
deriving DecidableEq, Repr

structure FlossLeDirections where
  hostToPeer : Bool
  peerToHost : Bool
deriving DecidableEq, Repr

namespace FlossLeDirections

/-- `FlossLeDirections::OUTPUT`. -/
def output : FlossLeDirections := ⟨true, false⟩

/-- `FlossLeDirections::INPUT`. -/
def input : FlossLeDirections := ⟨false, true⟩

/-- `FlossLeDirections::FULL_DUPLEX`. -/
def fullDuplex : FlossLeDirections := ⟨true, true⟩

def validate (self : FlossLeDirections) : Result Unit :=
  ensure (self.hostToPeer || self.peerToHost) "at least one LE Audio direction must be selected"

/-- The flag of one direction. -/
def has (self : FlossLeDirections) : Direction → Bool
  | .hostToPeer => self.hostToPeer
  | .peerToHost => self.peerToHost

end FlossLeDirections

/-! ### Replies of the service -/

/-- What the PCM parser asks of a D-Bus value: `TryFrom<&OwnedValue>` at the two
integer types it uses. -/
class OwnedValue (V : Type) where
  toU32 : V → Result UInt32
  toU8 : V → Result UInt8

/-- A D-Bus value of one of the two types the parser asks for. -/
inductive SampleValue where
  | u32 (value : UInt32)
  | u8 (value : UInt8)

instance : OwnedValue SampleValue where
  toU32
    | .u32 value => .ok value
    | .u8 _ => .error "incorrect type"
  toU8
    | .u8 value => .ok value
    | .u32 _ => .error "incorrect type"

/-- The properties of a PCM configuration, by name. -/
abbrev PropertyMap (V : Type) := List (String × V)

/-- A connected data socket. -/
structure UnixStream where
  fd : Nat
deriving DecidableEq, Repr

/-- What the control plane asks of its surroundings. -/
inductive Call where
  | proxyDestination (service : String)
  | proxyPath (path : String)
  | proxyBuild
  | groupSetActive (groupId : Int32)
  | sourceMetadataChanged (usage contentType : Int32) (gain : Float)
  | sinkMetadataChanged (source : Int32) (gain : Float)
  | startAudioRequest (direction : Direction)
  | stopAudioRequest (direction : Direction)
  | getStreamStarted (direction : Direction)
  | getPcmConfig (direction : Direction)
  /-- `Instant::now`, in nanoseconds. -/
  | now
  | sleep (ns : Nat)
  | connect (path : String)

/-- The type of a reply. A request to the service may fail with any text. -/
abbrev Call.Reply (V : Type) : Call → Type
  | .proxyDestination _ | .proxyPath _ | .proxyBuild | .groupSetActive _ => Result Unit
  | .sourceMetadataChanged .. | .sinkMetadataChanged .. => Result Bool
  | .startAudioRequest _ => Result Bool
  | .stopAudioRequest _ => Result Unit
  | .getStreamStarted _ => Result Int32
  | .getPcmConfig _ => Result (PropertyMap V)
  | .now => Nat
  | .sleep _ => Unit
  | .connect _ => Result UnixStream

/-- A program of the control plane. -/
abbrev Control (V : Type) := Attempt Call (Call.Reply V)

/-- A run of the control plane. -/
abbrev Trace (V : Type) := List (Sigma (Call.Reply V))

variable {V : Type}

/-! ### PCM configurations -/

section Pcm

variable [OwnedValue V]

/-- One property, converted. -/
def property {α : Type} (convert : V → Result α) (properties : PropertyMap V) (name : String) :
    Result α :=
  match properties.lookup name with
  | none => .error s!"Floss PCM config missing {name}"
  | some value => context s!"invalid Floss PCM property {name}" (convert value)

def parsePcmConfig (properties : PropertyMap V) : Result PcmConfiguration := do
  let dataIntervalUs ← property OwnedValue.toU32 properties "data_interval_us"
  let sampleRateHz ← property OwnedValue.toU32 properties "sample_rate"
  let bitsPerSample ← property OwnedValue.toU8 properties "bits_per_sample"
  let channels ← property OwnedValue.toU8 properties "channels_count"
  let config : PcmConfiguration := ⟨sampleRateHz, bitsPerSample, channels, dataIntervalUs⟩
  config.validate
  let _ ← config.bytesPerInterval
  return config

end Pcm

/-! ### Requests -/

/-- One call, with its reply as a value. -/
def ask (call : Call) : Prog Call (Call.Reply V) (call.Reply V) := Prog.perform call

def now : Control V Nat := .always (ask .now)

def sleep (ns : Nat) : Control V Unit := .always (ask (.sleep ns))

namespace BluetoothMedia

def groupSetActive (groupId : Int32) : Control V Unit := .call (ask (.groupSetActive groupId))

def sourceMetadataChanged (usage contentType : Int32) (gain : Float) : Control V Bool :=
  .call (ask (.sourceMetadataChanged usage contentType gain))

def sinkMetadataChanged (source : Int32) (gain : Float) : Control V Bool :=
  .call (ask (.sinkMetadataChanged source gain))

def startAudioRequest (direction : Direction) : Control V Bool :=
  .call (ask (.startAudioRequest direction))

def stopAudioRequest (direction : Direction) : Control V Unit :=
  .call (ask (.stopAudioRequest direction))

def getStreamStarted (direction : Direction) : Control V Int32 :=
  .call (ask (.getStreamStarted direction))

def getPcmConfig (direction : Direction) : Control V (PropertyMap V) :=
  .call (ask (.getPcmConfig direction))

end BluetoothMedia

open BluetoothMedia

/-! ### Waiting, stopping, connecting -/

/-- The pause between two turns of a waiting loop, 20 ms. -/
def pause : Nat := 20000000

/-- A direction that was not requested counts as started. -/
def streamStarted (directions : FlossLeDirections) (direction : Direction) : Control V Bool := do
  if directions.has direction then
    let status ← getStreamStarted direction
    return status == 1
  else return true

def waitStartedTurn (directions : FlossLeDirections) (deadline : Nat) :
    Control V (Option Unit) := do
  let host ← streamStarted directions .hostToPeer
  let peer ← streamStarted directions .peerToHost
  if host && peer then
    return some ()
  else
    let reading ← now
    if deadline ≤ reading then
      throw "timed out waiting for Floss LE Audio stream confirmation"
    else
      sleep pause
      return none

def waitStarted (turns : Nat) (directions : FlossLeDirections) (timeout : Nat) :
    Control V Unit := do
  let deadline := (← now) + timeout
  Attempt.loop (waitStartedTurn directions deadline) turns

/-- Stop one direction and ignore the reply. -/
def stopDirection (started : Bool) (direction : Direction) : Control V Unit := do
  if started then
    let _ ← (stopAudioRequest direction).outcome

def stopDirections (host peer : Bool) : Control V Unit := do
  stopDirection peer .peerToHost
  stopDirection host .hostToPeer

def connectTurn (path : String) (deadline : Nat) : Control V (Option UnixStream) := do
  let reply : Result UnixStream ← .always (ask (.connect path))
  match reply with
  | .ok stream => return some stream
  | .error error =>
      let reading ← now
      if reading < deadline then
        sleep pause
        return none
      else throw s!"connect to {path}: {error}"

def connectWithDeadline (turns : Nat) (path : String) (timeout : Nat) :
    Control V UnixStream := do
  let deadline := (← now) + timeout
  Attempt.loop (connectTurn path deadline) turns

/-! ### Starting a stream -/

structure FlossLeAudio where
  mediaPath : String
  dataPath : String
deriving DecidableEq, Repr

structure FlossLeDataPath where
  owner : FlossLeAudio
  stream : Option UnixStream
  directions : FlossLeDirections
  hostPcm : Option PcmConfiguration
  peerPcm : Option PcmConfiguration
  stopped : Bool
deriving DecidableEq, Repr

/-- The configuration of one direction. -/
def FlossLeDataPath.pcm (self : FlossLeDataPath) : Direction → Option PcmConfiguration
  | .hostToPeer => self.hostPcm
  | .peerToHost => self.peerPcm

namespace FlossLeAudio

def withConnection (adapter : UInt32) : FlossLeAudio where
  mediaPath := s!"/org/chromium/bluetooth/hci{adapter}/media"
  dataPath := leAudioDataPath

def withDataPath (self : FlossLeAudio) (dataPath : String) : FlossLeAudio :=
  { self with dataPath := dataPath }

def proxy (self : FlossLeAudio) : Control V Unit := do
  Attempt.call (ask (.proxyDestination flossService))
  Attempt.call (ask (.proxyPath self.mediaPath))
  let built : Result Unit ← Attempt.always (ask .proxyBuild)
  context "create Floss BluetoothMedia proxy" built

/-- Announce the media context of a requested host direction. -/
def announceSource (directions : FlossLeDirections) : Control V Unit := do
  if directions.hostToPeer then
    let accepted ← sourceMetadataChanged 1 2 1.0
    ensure accepted "Floss rejected LE Audio media metadata"

/-- Announce the microphone context of a requested peer direction. -/
def announceSink (directions : FlossLeDirections) : Control V Unit := do
  if directions.peerToHost then
    let accepted ← sinkMetadataChanged 1 1.0
    ensure accepted "Floss rejected LE Audio microphone metadata"

/-- The part of `start_software_unicast` before any direction is started. -/
def activate (self : FlossLeAudio) (groupId : Int32) (directions : FlossLeDirections) :
    Control V Unit := do
  directions.validate
  ensure (0 ≤ groupId) "LE Audio group id must be non-negative"
  self.proxy
  groupSetActive groupId
  announceSource directions
  announceSink directions

/-- One start request of the `async` block: the flag it leaves behind, and
whether the block goes on. -/
def requestStart (directions : FlossLeDirections) (direction : Direction) (rejected : String) :
    Control V (Bool × Result Unit) := do
  if directions.has direction then
    match ← (startAudioRequest direction).outcome with
    | .error error => return (false, .error error)
    | .ok false => return (false, .error rejected)
    | .ok true => return (true, .ok ())
  else return (false, .ok ())

/-- The `async` block that starts the directions: `host_started`,
`peer_started` and `start_result`. -/
def startDirections (turns : Nat) (directions : FlossLeDirections) :
    Control V (Bool × Bool × Result Unit) := do
  let (hostStarted, first) ←
    requestStart directions .hostToPeer "Floss rejected HostStartAudioRequest"
  match first with
  | .error error => return (hostStarted, false, .error error)
  | .ok () =>
      let (peerStarted, second) ←
        requestStart directions .peerToHost "Floss rejected PeerStartAudioRequest"
      match second with
      | .error error => return (hostStarted, peerStarted, .error error)
      | .ok () =>
          let waited ← (waitStarted turns directions 8000000000).outcome
          return (hostStarted, peerStarted, waited)

/-- The PCM configuration of a requested direction. -/
def pcmConfig [OwnedValue V] (directions : FlossLeDirections) (direction : Direction) :
    Control V (Option PcmConfiguration) := do
  if directions.has direction then
    let properties ← getPcmConfig direction
    let config ← parsePcmConfig properties
    return some config
  else return none

/-- The part of `start_software_unicast` after the streams are confirmed. -/
def openDataPath [OwnedValue V] (self : FlossLeAudio) (turns : Nat)
    (directions : FlossLeDirections) (hostStarted peerStarted : Bool) :
    Control V FlossLeDataPath := do
  let hostPcm ← pcmConfig directions .hostToPeer
  let peerPcm ← pcmConfig directions .peerToHost
  match ← (connectWithDeadline turns self.dataPath 5000000000).outcome with
  | .error error =>
      stopDirections hostStarted peerStarted
      throw error
  | .ok stream =>
      return { owner := self, stream := some stream, directions, hostPcm, peerPcm,
               stopped := false }

def startSoftwareUnicast [OwnedValue V] (self : FlossLeAudio) (turns : Nat) (groupId : Int32)
    (directions : FlossLeDirections) : Control V FlossLeDataPath := do
  self.activate groupId directions
  let (hostStarted, peerStarted, startResult) ← startDirections turns directions
  match startResult with
  | .error error =>
      stopDirections hostStarted peerStarted
      throw error
  | .ok () => self.openDataPath turns directions hostStarted peerStarted

end FlossLeAudio

/-! ### Stopping a stream -/

namespace FlossLeDataPath

def takeStream (self : FlossLeDataPath) : Result (UnixStream × FlossLeDataPath) :=
  match self.stream with
  | some stream => .ok (stream, { self with stream := none })
  | none => .error "LE Audio data stream already taken"

/-- One stop request of `stop`, its reply kept. -/
def requestStop (self : FlossLeDataPath) (direction : Direction) : Control V (Result Unit) := do
  if self.directions.has direction then (stopAudioRequest direction).outcome
  else return .ok ()

/-- `stop` with its proxy. The peer is stopped first, and the first error is returned at
the end. -/
def requestStops (self : FlossLeDataPath) : Control V Unit := do
  let peer ← self.requestStop .peerToHost
  let host ← self.requestStop .hostToPeer
  context "stop Floss LE Audio data path" (peer.bind fun _ => host)

def stop (self : FlossLeDataPath) : Control V Unit := do
  self.owner.proxy
  self.requestStops

end FlossLeDataPath

end Dorsche.Wireless.Floss
