import Dorsche.Wireless.Types

/-!
Capability providers and their registry (`src/wireless/provider.rs`).

A provider may override `accepts`; the result of `select` is described for
providers that do not. `Suits` says what such a provider promises, and
`Earliest` which of them `select` returns.
-/

namespace Dorsche.Wireless

open Dorsche.Lib

structure CodecCapability where
  samplingFrequenciesHz : List UInt32
  frameDurationsUs : List UInt16
  octetsPerFrameMin : UInt16
  octetsPerFrameMax : UInt16
  maxCodecFramesPerSdu : UInt8
  channelAllocations : UInt32
deriving DecidableEq, Repr

def CodecCapability.supports (self : CodecCapability) (codec : Lc3Configuration) : Bool :=
  self.samplingFrequenciesHz.contains codec.samplingFrequencyHz &&
    self.frameDurationsUs.contains codec.frameDurationUs &&
    (self.octetsPerFrameMin ≤ codec.octetsPerCodecFrame &&
      codec.octetsPerCodecFrame ≤ self.octetsPerFrameMax) &&
    codec.codecFramesPerSdu ≤ self.maxCodecFramesPerSdu &&
    codec.audioChannelAllocation &&& ~~~self.channelAllocations == 0

structure SessionRequest where
  sessionType : SessionType
  direction : StreamDirection
  context : AudioContext
  codec : Lc3Configuration
  requireMultidirectional : Bool
deriving DecidableEq, Repr

structure ProviderCapabilities where
  name : String
  sessionTypes : List SessionType
  codecs : List CodecCapability
  maxStreams : UInt8
  supportsAsymmetric : Bool
  supportsMultidirectional : Bool
  supportsTransparentIso : Bool
  supportsControllerCodec : Bool
deriving DecidableEq, Repr

def ProviderCapabilities.supports (self : ProviderCapabilities) (request : SessionRequest) : Bool :=
  self.sessionTypes.contains request.sessionType &&
    self.codecs.any fun capability => capability.supports request.codec

/-- A `dyn CapabilityProvider`. -/
structure CapabilityProvider where
  capabilities : ProviderCapabilities
  accepts : SessionRequest → Bool

/-- A provider with the default `accepts` of the trait. -/
def CapabilityProvider.ofCapabilities (capabilities : ProviderCapabilities) :
    CapabilityProvider where
  capabilities := capabilities
  accepts request := capabilities.supports request &&
    (!request.requireMultidirectional || capabilities.supportsMultidirectional)

/-! ### The `Debug` text of a request -/

def SessionType.debug : SessionType → String
  | .leUnicastSoftwareEncoding => "LeUnicastSoftwareEncoding"
  | .leUnicastSoftwareDecoding => "LeUnicastSoftwareDecoding"
  | .leUnicastHardwareEncoding => "LeUnicastHardwareEncoding"
  | .leUnicastHardwareDecoding => "LeUnicastHardwareDecoding"
  | .leBroadcastSoftwareEncoding => "LeBroadcastSoftwareEncoding"
  | .leBroadcastHardwareEncoding => "LeBroadcastHardwareEncoding"

def StreamDirection.debug : StreamDirection → String
  | .sink => "Sink"
  | .source => "Source"

def AudioContext.debug : AudioContext → String
  | .unspecified => "Unspecified"
  | .conversational => "Conversational"
  | .media => "Media"
  | .game => "Game"
  | .live => "Live"
  | .soundEffects => "SoundEffects"
  | .notifications => "Notifications"
  | .emergencyAlarm => "EmergencyAlarm"

/-- The text of a record with the given fields. -/
def debugStruct (name : String) (fields : List (String × String)) : String :=
  name ++ " \x7b " ++ ", ".intercalate (fields.map fun field => field.1 ++ ": " ++ field.2) ++
    " \x7d"

def Lc3Configuration.debug (self : Lc3Configuration) : String :=
  debugStruct "Lc3Configuration"
    [("sampling_frequency_hz", toString self.samplingFrequencyHz),
      ("frame_duration_us", toString self.frameDurationUs),
      ("octets_per_codec_frame", toString self.octetsPerCodecFrame),
      ("codec_frames_per_sdu", toString self.codecFramesPerSdu),
      ("audio_channel_allocation", toString self.audioChannelAllocation)]

def SessionRequest.debug (self : SessionRequest) : String :=
  debugStruct "SessionRequest"
    [("session_type", self.sessionType.debug), ("direction", self.direction.debug),
      ("context", self.context.debug), ("codec", self.codec.debug),
      ("require_multidirectional", toString self.requireMultidirectional)]

/-! ### The registry -/

structure CapabilityRegistry where
  providers : List CapabilityProvider

namespace CapabilityRegistry

def new : CapabilityRegistry := ⟨[]⟩

def register (self : CapabilityRegistry) (provider : CapabilityProvider) : CapabilityRegistry :=
  ⟨self.providers ++ [provider]⟩

/-- Register some providers, one after the other. -/
def registerAll (self : CapabilityRegistry) (providers : List CapabilityProvider) :
    CapabilityRegistry :=
  providers.foldl register self

def select (self : CapabilityRegistry) (request : SessionRequest) : Result ProviderCapabilities :=
  match self.providers.find? fun provider => provider.accepts request with
  | some provider => .ok provider.capabilities
  | none => .error ("no provider accepts " ++ request.debug)

def requireExplicitFallback (self : CapabilityRegistry) (preferred : SessionRequest)
    (fallback : Option SessionRequest) : Result ProviderCapabilities :=
  match self.select preferred with
  | .ok provider => .ok provider
  | .error _ =>
      match fallback with
      | some fallback => self.select fallback
      | none => .error "preferred provider unavailable and no explicit fallback supplied"

end CapabilityRegistry

/-- `SoftwareLc3Provider::new`. -/
def softwareLc3Provider : CapabilityProvider := .ofCapabilities
  { name := "floss-host-lc3"
    sessionTypes := [.leUnicastSoftwareEncoding, .leUnicastSoftwareDecoding]
    codecs := [
      { samplingFrequenciesHz := [8000, 16000, 24000, 32000, 44100, 48000]
        frameDurationsUs := [7500, 10000]
        octetsPerFrameMin := 20
        octetsPerFrameMax := 400
        maxCodecFramesPerSdu := 4
        channelAllocations := 0xffffffff }]
    maxStreams := 31
    supportsAsymmetric := true
    supportsMultidirectional := true
    supportsTransparentIso := true
    supportsControllerCodec := false }

/-! ### What a provider promises -/

/-- One codec capability admits all five parameters of a codec; the channels of the
codec are among its channels. -/
structure CodecCapability.Admits (capability : CodecCapability) (codec : Lc3Configuration) :
    Prop where
  samplingFrequency : codec.samplingFrequencyHz ∈ capability.samplingFrequenciesHz
  frameDuration : codec.frameDurationUs ∈ capability.frameDurationsUs
  octets : capability.octetsPerFrameMin ≤ codec.octetsPerCodecFrame ∧
    codec.octetsPerCodecFrame ≤ capability.octetsPerFrameMax
  frames : codec.codecFramesPerSdu ≤ capability.maxCodecFramesPerSdu
  channels : ∀ i, codec.audioChannelAllocation.toBitVec.getLsbD i = true →
    capability.channelAllocations.toBitVec.getLsbD i = true

/-- The capabilities meet a request. -/
structure ProviderCapabilities.Suits (capabilities : ProviderCapabilities)
    (request : SessionRequest) : Prop where
  sessionType : request.sessionType ∈ capabilities.sessionTypes
  codec : ∃ capability ∈ capabilities.codecs, capability.Admits request.codec
  multidirectional : request.requireMultidirectional = true →
    capabilities.supportsMultidirectional = true

/-- No bit is left outside a mask. -/
theorem and_not_eq_zero {bits mask : UInt32} :
    bits &&& ~~~mask = 0 ↔
      ∀ i, bits.toBitVec.getLsbD i = true → mask.toBitVec.getLsbD i = true := by
  rw [← UInt32.toBitVec_inj, BitVec.eq_of_getLsbD_eq_iff]
  constructor
  · intro outside i set
    have small : i < 32 := BitVec.lt_of_getLsbD set
    simpa [set, small] using outside i small
  · intro inside i small
    cases set : bits.toBitVec.getLsbD i with
    | false => simp [set]
    | true => simp [inside i set]

theorem CodecCapability.supports_iff {capability : CodecCapability} {codec : Lc3Configuration} :
    capability.supports codec = true ↔ capability.Admits codec := by
  simp only [supports, Bool.and_eq_true, List.contains_iff_mem, decide_eq_true_eq, beq_iff_eq,
    and_not_eq_zero]
  constructor
  · rintro ⟨⟨⟨⟨frequency, duration⟩, octets⟩, frames⟩, channels⟩
    exact ⟨frequency, duration, octets, frames, channels⟩
  · rintro ⟨frequency, duration, octets, frames, channels⟩
    exact ⟨⟨⟨⟨frequency, duration⟩, octets⟩, frames⟩, channels⟩

theorem CapabilityProvider.accepts_iff {capabilities : ProviderCapabilities}
    {request : SessionRequest} :
    (ofCapabilities capabilities).accepts request = true ↔ capabilities.Suits request := by
  simp only [ofCapabilities, ProviderCapabilities.supports, Bool.and_eq_true, Bool.or_eq_true,
    Bool.not_eq_true', List.contains_iff_mem, List.any_eq_true, CodecCapability.supports_iff]
  constructor
  · rintro ⟨⟨sessionType, codec⟩, single | multidirectional⟩
    · exact ⟨sessionType, codec, fun required => by cases single.symm.trans required⟩
    · exact ⟨sessionType, codec, fun _ => multidirectional⟩
  · rintro ⟨sessionType, codec, multidirectional⟩
    refine ⟨⟨sessionType, codec⟩, ?_⟩
    cases required : request.requireMultidirectional with
    | false => exact .inl rfl
    | true => exact .inr (multidirectional required)

/-! ### Selection -/

namespace CapabilityRegistry

variable {registry : CapabilityRegistry} {request : SessionRequest}
  {capabilities : ProviderCapabilities} {known : List ProviderCapabilities}

theorem providers_registerAll (providers : List CapabilityProvider) :
    (registry.registerAll providers).providers = registry.providers ++ providers := by
  induction providers generalizing registry with
  | nil => exact (List.append_nil _).symm
  | cons provider rest ih =>
      rw [registerAll, List.foldl_cons]
      exact ih.trans (List.append_assoc _ _ _)

theorem select_eq_ok :
    registry.select request = .ok capabilities ↔ ∃ provider,
      registry.providers.find? (fun provider => provider.accepts request) = some provider ∧
        provider.capabilities = capabilities := by
  rw [select]
  cases registry.providers.find? fun provider => provider.accepts request <;> simp

/-- A registry of providers with the default `accepts`. -/
def ofKnown (known : List ProviderCapabilities) : CapabilityRegistry :=
  new.registerAll (known.map .ofCapabilities)

theorem providers_ofKnown : (ofKnown known).providers = known.map .ofCapabilities :=
  providers_registerAll _

/-- The earliest provider that suits a request. -/
def Earliest (known : List ProviderCapabilities) (request : SessionRequest)
    (capabilities : ProviderCapabilities) : Prop :=
  capabilities.Suits request ∧ ∃ earlier later, known = earlier ++ capabilities :: later ∧
    ∀ other ∈ earlier, ¬ other.Suits request

theorem select_ofKnown_eq_ok :
    (ofKnown known).select request = .ok capabilities ↔ Earliest known request capabilities := by
  rw [select_eq_ok, providers_ofKnown, List.find?_map]
  simp only [Option.map_eq_some_iff, List.find?_eq_some_iff_append, Function.comp,
    CapabilityProvider.accepts_iff, Bool.not_eq_true', ← Bool.not_eq_true]
  constructor
  · rintro ⟨_, ⟨found, first, rfl⟩, rfl⟩
    exact first
  · intro first
    exact ⟨_, ⟨capabilities, first, rfl⟩, rfl⟩

theorem select_ofKnown_eq_error :
    (∃ e, (ofKnown known).select request = .error e) ↔ ∀ other ∈ known, ¬ other.Suits request := by
  have none : (∃ e, (ofKnown known).select request = .error e) ↔
      (ofKnown known).providers.find? (fun provider => provider.accepts request) = none := by
    rw [select]
    cases (ofKnown known).providers.find? fun provider => provider.accepts request <;> simp
  rw [none, providers_ofKnown, List.find?_map, Option.map_eq_none_iff, List.find?_eq_none]
  simp only [Function.comp, CapabilityProvider.accepts_iff]

/-- Providers that are registered later do not change a selection. -/
theorem select_registerAll (more : List CapabilityProvider)
    (selected : registry.select request = .ok capabilities) :
    (registry.registerAll more).select request = .ok capabilities := by
  obtain ⟨provider, found, same⟩ := select_eq_ok.mp selected
  refine select_eq_ok.mpr ⟨provider, ?_, same⟩
  rw [providers_registerAll, List.find?_append, found]
  rfl

theorem requireExplicitFallback_of_ok {fallback : Option SessionRequest}
    (selected : registry.select request = .ok capabilities) :
    registry.requireExplicitFallback request fallback = .ok capabilities := by
  simp only [requireExplicitFallback, selected]

theorem requireExplicitFallback_of_error {fallback : Option SessionRequest} {e : String}
    (refused : registry.select request = .error e) :
    registry.requireExplicitFallback request fallback = fallback.elim
      (.error "preferred provider unavailable and no explicit fallback supplied")
      registry.select := by
  cases fallback <;> simp only [requireExplicitFallback, refused, Option.elim]

/-- A selection comes from the providers and the requests alone: the earliest
provider that suits the request, whatever is registered later, and another
request only where one is given. -/
structure NoHiddenFallback (known : List ProviderCapabilities) (registry : CapabilityRegistry) :
    Prop where
  first : ∀ request capabilities,
    registry.select request = .ok capabilities ↔ Earliest known request capabilities
  refuses : ∀ request,
    (∃ e, registry.select request = .error e) ↔ ∀ other ∈ known, ¬ other.Suits request
  stable : ∀ request capabilities more, registry.select request = .ok capabilities →
    (registry.registerAll more).select request = .ok capabilities
  preferred : ∀ preferred fallback capabilities, registry.select preferred = .ok capabilities →
    registry.requireExplicitFallback preferred fallback = .ok capabilities
  explicit : ∀ preferred fallback e, registry.select preferred = .error e →
    registry.requireExplicitFallback preferred (some fallback) = registry.select fallback
  missing : ∀ preferred e, registry.select preferred = .error e →
    ∃ e', registry.requireExplicitFallback preferred none = .error e'
  sessionType : ∀ preferred fallback capabilities,
    registry.requireExplicitFallback preferred fallback = .ok capabilities →
    preferred.sessionType ∈ capabilities.sessionTypes ∨
      ∃ request, fallback = some request ∧ request.sessionType ∈ capabilities.sessionTypes

/-- Whatever the registered providers are, no session type is exchanged for another
one unless the caller asks for it. -/
theorem no_hidden_fallback (known : List ProviderCapabilities) :
    NoHiddenFallback known (ofKnown known) where
  first _ _ := select_ofKnown_eq_ok
  refuses _ := select_ofKnown_eq_error
  stable _ _ more selected := select_registerAll more selected
  preferred _ _ _ selected := requireExplicitFallback_of_ok selected
  explicit _ _ _ refused := requireExplicitFallback_of_error refused
  missing _ _ refused := ⟨_, requireExplicitFallback_of_error refused⟩
  sessionType preferred fallback capabilities returned := by
    cases selected : (ofKnown known).select preferred with
    | ok chosen =>
        rw [requireExplicitFallback_of_ok selected] at returned
        cases returned
        exact .inl (select_ofKnown_eq_ok.mp selected).1.sessionType
    | error e =>
        rw [requireExplicitFallback_of_error selected] at returned
        cases fallback with
        | none => cases returned
        | some request =>
            exact .inr ⟨request, rfl, (select_ofKnown_eq_ok.mp returned).1.sessionType⟩

/-- Stereo media at 48 kHz with the codec on the controller. -/
def offloadRequest : SessionRequest :=
  ⟨.leUnicastHardwareEncoding, .sink, .media, ⟨48000, 10000, 120, 1, 3⟩, false⟩

-- The software provider takes the request only as an explicit fallback.
example :
    let registry := new.register softwareLc3Provider
    let software := { offloadRequest with sessionType := .leUnicastSoftwareEncoding }
    (registry.select offloadRequest).toOption = none ∧
      (registry.requireExplicitFallback offloadRequest (some software)).toOption.map (·.name) =
        some "floss-host-lc3" := by decide

end CapabilityRegistry

end Dorsche.Wireless
