import Dorsche.Lib.Bytes
import Dorsche.Lib.Ensure

/-!
The wireless audio data model (`src/wireless/types.rs`).

Machine integers keep their width. A failed check returns the text of its
`ensure!`, in the order of the source, so that the first failing check decides
the error. `FrameDescriptor` is a process ABI: `encode` is its 64-octet
`repr(C)` image, with four octets of padding before `sequence` and before
`captureTimeNs`.
-/

namespace Dorsche.Wireless

open Dorsche.Lib

/-- `WIRELESS_AUDIO_ABI_VERSION`. -/
def wirelessAudioAbiVersion : UInt16 := 1

inductive SessionType where
  | leUnicastSoftwareEncoding
  | leUnicastSoftwareDecoding
  | leUnicastHardwareEncoding
  | leUnicastHardwareDecoding
  | leBroadcastSoftwareEncoding
  | leBroadcastHardwareEncoding
deriving DecidableEq, Repr

namespace SessionType

def isOffloaded : SessionType → Bool
  | .leUnicastHardwareEncoding => true
  | .leUnicastHardwareDecoding => true
  | .leBroadcastHardwareEncoding => true
  | _ => false

def carriesHostPayload (t : SessionType) : Bool := !t.isOffloaded

/-- The `matches!` that separates broadcast from unicast sessions. -/
def isBroadcast : SessionType → Bool
  | .leBroadcastSoftwareEncoding => true
  | .leBroadcastHardwareEncoding => true
  | _ => false

end SessionType

inductive StreamDirection where
  | sink
  | source
deriving DecidableEq, Repr

inductive AudioContext where
  | unspecified | conversational | media | game | live | soundEffects
  | notifications | emergencyAlarm
deriving DecidableEq, Repr

inductive Framing where
  | unframed
  | framed
deriving DecidableEq, Repr

inductive Phy where
  | le1M
  | le2M
  | leCoded
deriving DecidableEq, Repr

inductive Packing where
  | sequential
  | interleaved
deriving DecidableEq, Repr

/-! ### PCM -/

structure PcmConfiguration where
  sampleRateHz : UInt32
  bitsPerSample : UInt8
  channels : UInt8
  dataIntervalUs : UInt32
deriving DecidableEq, Repr

/-- The sampling rates that both PCM and LC3 configurations admit. -/
def supportedRates : List UInt32 := [8000, 16000, 24000, 32000, 44100, 48000]

namespace PcmConfiguration

def validate (self : PcmConfiguration) : Result Unit := do
  ensure (self.sampleRateHz ∈ supportedRates)
    s!"unsupported PCM sample rate {self.sampleRateHz}"
  ensure (self.bitsPerSample ∈ [16, 24, 32]) "PCM width must be 16, 24, or 32 bits"
  ensure (1 ≤ self.channels ∧ self.channels ≤ 8) "PCM channel count must be 1..=8"
  ensure (0 < self.dataIntervalUs) "PCM data interval must be non-zero"

/-- Octets of one data interval on a 64-bit `usize`: the product is checked in
`u64`, then divided down to frames before it is scaled up again. -/
def bytesPerInterval (self : PcmConfiguration) : Result Nat := do
  self.validate
  ensure (self.sampleRateHz.toNat * self.dataIntervalUs.toNat < 2 ^ 64) "PCM interval overflow"
  let frames := self.sampleRateHz.toUInt64 * self.dataIntervalUs.toUInt64
  ensure (frames % 1000000 = 0) "PCM interval is not an integral number of frames"
  let bytes := frames / 1000000 * self.channels.toUInt64 * (self.bitsPerSample / 8).toUInt64
  return bytes.toNat

end PcmConfiguration

/-! ### LC3, isochronous streams and broadcasts -/

structure Lc3Configuration where
  samplingFrequencyHz : UInt32
  frameDurationUs : UInt16
  octetsPerCodecFrame : UInt16
  codecFramesPerSdu : UInt8
  audioChannelAllocation : UInt32
deriving DecidableEq, Repr

def Lc3Configuration.validate (self : Lc3Configuration) : Result Unit := do
  ensure (self.samplingFrequencyHz ∈ supportedRates) "unsupported LC3 sampling frequency"
  ensure (self.frameDurationUs ∈ [7500, 10000]) "LC3 frame duration must be 7.5 or 10 ms"
  ensure (0 < self.octetsPerCodecFrame) "LC3 frame cannot be empty"
  ensure (0 < self.codecFramesPerSdu) "SDU must contain at least one codec frame"

structure IsoQos where
  sduIntervalUs : UInt32
  framing : Framing
  phys : List Phy
  maxSdu : UInt16
  retransmissionNumber : UInt8
  maxTransportLatencyMs : UInt16
  presentationDelayMinUs : UInt32
  presentationDelayMaxUs : UInt32
deriving DecidableEq, Repr

def IsoQos.validate (self : IsoQos) : Result Unit := do
  ensure (0 < self.sduIntervalUs) "SDU interval must be non-zero"
  ensure (self.phys ≠ []) "at least one LE PHY is required"
  ensure (0 < self.maxSdu) "Max SDU must be non-zero"
  ensure (self.presentationDelayMinUs ≤ self.presentationDelayMaxUs)
    "invalid presentation delay range"

structure DataPathConfiguration where
  dataPathId : UInt8
  transparent : Bool
  controllerDelayUs : UInt32
  codecConfiguration : List UInt8
  vendorConfiguration : List UInt8
deriving DecidableEq, Repr

structure AseConfiguration where
  aseId : UInt8
  direction : StreamDirection
  cisHandle : Option UInt16
  lc3 : Lc3Configuration
  qos : IsoQos
  dataPath : DataPathConfiguration
deriving DecidableEq, Repr

def AseConfiguration.validate (self : AseConfiguration) : Result Unit := do
  ensure (self.aseId ≠ 0) "ASE id zero is reserved"
  self.lc3.validate
  self.qos.validate
  let sduOctets := self.lc3.octetsPerCodecFrame.toUInt32 * self.lc3.codecFramesPerSdu.toUInt32
  ensure (sduOctets ≤ self.qos.maxSdu.toUInt32) "LC3 payload exceeds Max SDU"
  if self.dataPath.transparent then
    ensure (self.dataPath.codecConfiguration = [])
      "transparent ISO path cannot carry controller codec configuration"

structure LeAudioConfiguration where
  groupId : Int32
  context : AudioContext
  packing : Packing
  pcm : PcmConfiguration
  ases : List AseConfiguration
deriving DecidableEq, Repr

structure BisConfiguration where
  bisIndex : UInt8
  streamHandle : Option UInt16
  lc3 : Lc3Configuration
  dataPath : DataPathConfiguration
deriving DecidableEq, Repr

structure BroadcastSubgroup where
  codec : Lc3Configuration
  metadata : List UInt8
  bis : List BisConfiguration
deriving DecidableEq, Repr

structure BroadcastConfiguration where
  broadcastId : UInt32
  encrypted : Bool
  presentationDelayUs : UInt32
  pcm : PcmConfiguration
  subgroups : List BroadcastSubgroup
deriving DecidableEq, Repr

namespace BroadcastConfiguration

/-- The inner loop over one subgroup. `seen` is `seen_bis`; an index past its
end is the bounds panic of the source, given here as the panic's text. -/
def validateBis (codec : Lc3Configuration) : List Bool → List BisConfiguration → Result (List Bool)
  | seen, [] => return seen
  | seen, bis :: rest => do
      ensure (1 ≤ bis.bisIndex ∧ bis.bisIndex ≤ 31) "BIS index must be 1..=31"
      match seen[bis.bisIndex.toNat]? with
      | none =>
          .error s!"index out of bounds: the len is {seen.length} but the index is {bis.bisIndex}"
      | some marked =>
          ensure (marked = false) s!"duplicate BIS index {bis.bisIndex}"
          let seen := seen.set bis.bisIndex.toNat true
          bis.lc3.validate
          ensure (bis.lc3 = codec) "BIS codec must match its subgroup codec"
          validateBis codec seen rest

/-- The outer loop over the subgroups; the table outlives each subgroup. -/
def validateSubgroups : List Bool → List BroadcastSubgroup → Result (List Bool)
  | seen, [] => return seen
  | seen, subgroup :: rest => do
      subgroup.codec.validate
      ensure (subgroup.bis ≠ []) "broadcast subgroup requires at least one BIS"
      let seen ← validateBis subgroup.codec seen subgroup.bis
      validateSubgroups seen rest

def validate (self : BroadcastConfiguration) : Result Unit := do
  ensure (self.broadcastId ≤ 0x00ffffff) "broadcast id is a 24-bit value"
  ensure (0 < self.presentationDelayUs) "broadcast presentation delay must be non-zero"
  self.pcm.validate
  ensure (self.subgroups ≠ []) "broadcast requires at least one subgroup"
  let _ ← validateSubgroups (List.replicate 32 false) self.subgroups

end BroadcastConfiguration

inductive AudioConfiguration where
  | pcm (pcm : PcmConfiguration)
  | leAudio (le : LeAudioConfiguration)
  | leBroadcast (broadcast : BroadcastConfiguration)
deriving DecidableEq, Repr

def AudioConfiguration.validateFor (self : AudioConfiguration) (sessionType : SessionType) :
    Result Unit :=
  match self with
  | .pcm config => do
      config.validate
      if sessionType.isOffloaded then
        .error "hardware-offload session requires a negotiated LE Audio configuration"
  | .leAudio le => do
      ensure (sessionType.isBroadcast = false)
        "unicast LE Audio configuration cannot configure a broadcast session"
      ensure (0 ≤ le.groupId) "LE Audio group id must be non-negative"
      le.pcm.validate
      ensure (le.ases ≠ []) "LE Audio session requires at least one ASE"
      checkAll AseConfiguration.validate le.ases
  | .leBroadcast broadcast => do
      ensure (sessionType.isBroadcast = true) "broadcast configuration requires a broadcast session"
      broadcast.validate

/-- An offloaded session accepts no bare PCM configuration. -/
theorem AudioConfiguration.not_pcm_of_offloaded {sessionType : SessionType}
    {configuration : AudioConfiguration} (offloaded : sessionType.isOffloaded = true)
    (valid : configuration.validateFor sessionType = .ok ()) :
    ∀ pcm, configuration ≠ .pcm pcm := by
  rintro pcm rfl
  simp [validateFor, bind_eq_ok, offloaded] at valid

/-- A unicast session accepts no broadcast configuration. -/
theorem AudioConfiguration.not_leBroadcast_of_unicast {sessionType : SessionType}
    {configuration : AudioConfiguration} (unicast : sessionType.isBroadcast = false)
    (valid : configuration.validateFor sessionType = .ok ()) :
    ∀ broadcast, configuration ≠ .leBroadcast broadcast := by
  rintro broadcast rfl
  simp [validateFor, bind_eq_ok, unicast] at valid

structure PresentationPosition where
  remoteDelayNs : UInt64
  transmittedOctets : UInt64
  monotonicTimeNs : UInt64
deriving DecidableEq, Repr

/-- `PresentationPosition::default`. -/
instance : Inhabited PresentationPosition := ⟨⟨0, 0, 0⟩⟩

/-! ### Frame descriptors -/

inductive PayloadKind where
  | pcm
  | lc3Sdu
deriving DecidableEq, Repr

/-- The `repr(u8)` discriminant. -/
def PayloadKind.toUInt8 : PayloadKind → UInt8
  | .pcm => 1
  | .lc3Sdu => 2

inductive IsoStatus where
  | valid
  | possiblyInvalid
  | lost
  | late
deriving DecidableEq, Repr

def IsoStatus.toUInt8 : IsoStatus → UInt8
  | .valid => 0
  | .possiblyInvalid => 1
  | .lost => 2
  | .late => 3

structure FrameDescriptor where
  abiVersion : UInt16
  headerBytes : UInt16
  payloadKind : UInt8
  isoStatus : UInt8
  flags : UInt16
  payloadBytes : UInt32
  sequence : UInt64
  streamHandle : UInt32
  sampleRateHz : UInt32
  channels : UInt16
  bitsPerSample : UInt16
  captureTimeNs : UInt64
  presentationTimeNs : UInt64
  deadlineNs : UInt64
deriving DecidableEq, Repr

namespace FrameDescriptor

/-- `size_of::<FrameDescriptor>()`. -/
def sizeOf : Nat := 64

def new (kind : PayloadKind) (sequence : UInt64) : FrameDescriptor where
  abiVersion := wirelessAudioAbiVersion
  headerBytes := UInt16.ofNat sizeOf
  payloadKind := kind.toUInt8
  isoStatus := IsoStatus.valid.toUInt8
  flags := 0
  payloadBytes := 0
  sequence := sequence
  streamHandle := 0
  sampleRateHz := 0
  channels := 0
  bitsPerSample := 0
  captureTimeNs := 0
  presentationTimeNs := 0
  deadlineNs := 0

/-- The `repr(C)` image, padding as zero octets. -/
def encode (d : FrameDescriptor) : List UInt8 :=
  leBytes 2 d.abiVersion.toNat ++ (leBytes 2 d.headerBytes.toNat ++
    (leBytes 1 d.payloadKind.toNat ++ (leBytes 1 d.isoStatus.toNat ++
    (leBytes 2 d.flags.toNat ++ (leBytes 4 d.payloadBytes.toNat ++ (leBytes 4 0 ++
    (leBytes 8 d.sequence.toNat ++ (leBytes 4 d.streamHandle.toNat ++
    (leBytes 4 d.sampleRateHz.toNat ++ (leBytes 2 d.channels.toNat ++
    (leBytes 2 d.bitsPerSample.toNat ++ (leBytes 4 0 ++ (leBytes 8 d.captureTimeNs.toNat ++
    (leBytes 8 d.presentationTimeNs.toNat ++ leBytes 8 d.deadlineNs.toNat))))))))))))))

/-- Read an image field by field; the padding is skipped. -/
def decode (bs : List UInt8) : FrameDescriptor :=
  let (abiVersion, bs) := takeWord 2 bs
  let (headerBytes, bs) := takeWord 2 bs
  let (payloadKind, bs) := takeWord 1 bs
  let (isoStatus, bs) := takeWord 1 bs
  let (flags, bs) := takeWord 2 bs
  let (payloadBytes, bs) := takeWord 4 bs
  let (_, bs) := takeWord 4 bs
  let (sequence, bs) := takeWord 8 bs
  let (streamHandle, bs) := takeWord 4 bs
  let (sampleRateHz, bs) := takeWord 4 bs
  let (channels, bs) := takeWord 2 bs
  let (bitsPerSample, bs) := takeWord 2 bs
  let (_, bs) := takeWord 4 bs
  let (captureTimeNs, bs) := takeWord 8 bs
  let (presentationTimeNs, bs) := takeWord 8 bs
  let (deadlineNs, _) := takeWord 8 bs
  { abiVersion := UInt16.ofNat abiVersion
    headerBytes := UInt16.ofNat headerBytes
    payloadKind := UInt8.ofNat payloadKind
    isoStatus := UInt8.ofNat isoStatus
    flags := UInt16.ofNat flags
    payloadBytes := UInt32.ofNat payloadBytes
    sequence := UInt64.ofNat sequence
    streamHandle := UInt32.ofNat streamHandle
    sampleRateHz := UInt32.ofNat sampleRateHz
    channels := UInt16.ofNat channels
    bitsPerSample := UInt16.ofNat bitsPerSample
    captureTimeNs := UInt64.ofNat captureTimeNs
    presentationTimeNs := UInt64.ofNat presentationTimeNs
    deadlineNs := UInt64.ofNat deadlineNs }

@[simp] theorem length_encode (d : FrameDescriptor) : d.encode.length = sizeOf := by
  simp [encode, sizeOf]

/-- A descriptor survives the trip through shared memory. -/
@[simp] theorem decode_encode (d : FrameDescriptor) : decode d.encode = d := by
  have h8 (v : UInt8) : v.toNat % 256 = v.toNat := Nat.mod_eq_of_lt v.toNat_lt
  have h16 (v : UInt16) : v.toNat % 65536 = v.toNat := Nat.mod_eq_of_lt v.toNat_lt
  have h32 (v : UInt32) : v.toNat % 4294967296 = v.toNat := Nat.mod_eq_of_lt v.toNat_lt
  have h64 (v : UInt64) : v.toNat % 18446744073709551616 = v.toNat :=
    Nat.mod_eq_of_lt v.toNat_lt
  simp [decode, encode, h8, h16, h32, h64]

end FrameDescriptor

end Dorsche.Wireless
