import Dorsche.Wireless.Provider

/-!
Codecs that the registry grants (`src/wireless/provider.rs`) and what
`validate` of a session's configuration (`src/wireless/types.rs`) says of them.

`CodecCapability::supports` bounds the codec frames of an SDU from above only,
and `Lc3Configuration::validate` from below only. On the other parameters the two
agree as soon as a capability advertises nothing but valid values.
-/

namespace Dorsche.Wireless

open Dorsche.Lib

/-! ### Codecs and their checks -/

/-- Everything that `validate` can say against a codec. -/
def Lc3Configuration.refusals : List String :=
  ["unsupported LC3 sampling frequency", "LC3 frame duration must be 7.5 or 10 ms",
    "LC3 frame cannot be empty", "SDU must contain at least one codec frame"]

theorem Lc3Configuration.errorsWith_refusals (codec : Lc3Configuration) :
    ErrorsWith (· ∈ refusals) codec.validate :=
  errorsWith_bind (errorsWith_ensure (by simp [refusals])) fun _ _ =>
    errorsWith_bind (errorsWith_ensure (by simp [refusals])) fun _ _ =>
    errorsWith_bind (errorsWith_ensure (by simp [refusals])) fun _ _ =>
    errorsWith_ensure (by simp [refusals])

/-- A capability that advertises only rates and durations `validate` admits, and no
empty frame. -/
structure CodecCapability.Sound (capability : CodecCapability) : Prop where
  samplingFrequencies : ∀ frequency ∈ capability.samplingFrequenciesHz, frequency ∈ supportedRates
  frameDurations : ∀ duration ∈ capability.frameDurationsUs, duration ∈ [7500, 10000]
  octets : 1 ≤ capability.octetsPerFrameMin

/-- The one parameter on which a sound capability and `validate` can differ. -/
theorem CodecCapability.Admits.validate_iff {capability : CodecCapability}
    {codec : Lc3Configuration} (sound : capability.Sound) (admits : capability.Admits codec) :
    codec.validate = .ok () ↔ codec.codecFramesPerSdu ≠ 0 := by
  have frequency := sound.samplingFrequencies _ admits.samplingFrequency
  have duration := sound.frameDurations _ admits.frameDuration
  have octets : 0 < codec.octetsPerCodecFrame := by
    have min : 1 ≤ codec.octetsPerCodecFrame := UInt16.le_trans sound.octets admits.octets.1
    rw [UInt16.le_iff_toNat_le] at min
    exact UInt16.lt_iff_toNat_lt.mpr min
  simp only [Lc3Configuration.validate, bind_eq_ok, ensure_eq_ok, frequency, duration, octets,
    exists_const, true_and]
  exact UInt8.pos_iff_ne_zero

/-! ### Codecs in a configuration -/

/-- The codecs that `validateFor` looks at. -/
def AudioConfiguration.codecs : AudioConfiguration → List Lc3Configuration
  | .pcm _ => []
  | .leAudio le => le.ases.map (·.lc3)
  | .leBroadcast broadcast => broadcast.subgroups.flatMap fun subgroup =>
      subgroup.codec :: subgroup.bis.map (·.lc3)

/-- An error about something other than a codec. -/
def Unrelated (e : String) : Prop := e ∉ Lc3Configuration.refusals

@[simp] theorem unrelated_iff {e : String} :
    Unrelated e ↔ e ≠ "unsupported LC3 sampling frequency" ∧
      e ≠ "LC3 frame duration must be 7.5 or 10 ms" ∧ e ≠ "LC3 frame cannot be empty" ∧
      e ≠ "SDU must contain at least one codec frame" := by
  simp [Unrelated, Lc3Configuration.refusals]

namespace Unrelated

/-- A text with a number in it is told apart by the words before the number. -/
theorem of_start (start : String)
    (differs : ∀ text ∈ Lc3Configuration.refusals, ¬ start.toList <+: text.toList)
    (rest : String) : Unrelated (start ++ rest) := by
  intro mem
  apply differs _ mem
  rw [String.toList_append]
  exact List.prefix_append _ _

theorem of_valid {codec : Lc3Configuration} (valid : codec.validate = .ok ()) :
    ErrorsWith Unrelated codec.validate := by
  rw [valid]
  exact errorsWith_ok

theorem iso (qos : IsoQos) : ErrorsWith Unrelated qos.validate :=
  errorsWith_bind (errorsWith_ensure (by simp)) fun _ _ =>
    errorsWith_bind (errorsWith_ensure (by simp)) fun _ _ =>
    errorsWith_bind (errorsWith_ensure (by simp)) fun _ _ =>
    errorsWith_ensure (by simp)

theorem pcm (config : PcmConfiguration) : ErrorsWith Unrelated config.validate := by
  have rate : Unrelated s!"unsupported PCM sample rate {config.sampleRateHz}" :=
    of_start "unsupported PCM sample rate " (by simp [Lc3Configuration.refusals]) _
  exact errorsWith_bind (errorsWith_ensure rate) fun _ _ =>
    errorsWith_bind (errorsWith_ensure (by simp)) fun _ _ =>
    errorsWith_bind (errorsWith_ensure (by simp)) fun _ _ =>
    errorsWith_ensure (by simp)

theorem ase {config : AseConfiguration} (valid : config.lc3.validate = .ok ()) :
    ErrorsWith Unrelated config.validate := by
  refine errorsWith_bind (errorsWith_ensure (by simp)) fun _ _ =>
    errorsWith_bind (of_valid valid) fun _ _ =>
    errorsWith_bind (iso _) fun _ _ =>
    errorsWith_bind (errorsWith_ensure (by simp)) fun _ _ => ?_
  split
  · exact errorsWith_ensure (by simp)
  · exact errorsWith_ok

theorem ases {configs : List AseConfiguration}
    (valid : ∀ config ∈ configs, config.lc3.validate = .ok ()) :
    ErrorsWith Unrelated (checkAll AseConfiguration.validate configs) := by
  induction configs with
  | nil => exact errorsWith_ok
  | cons config rest ih =>
      rw [List.forall_mem_cons] at valid
      exact errorsWith_bind (ase valid.1) fun _ _ => ih valid.2

theorem bis {codec : Lc3Configuration} {configs : List BisConfiguration} {seen : List Bool}
    (valid : ∀ config ∈ configs, config.lc3.validate = .ok ()) :
    ErrorsWith Unrelated (BroadcastConfiguration.validateBis codec seen configs) := by
  induction configs generalizing seen with
  | nil => exact errorsWith_ok
  | cons config rest ih =>
      rw [List.forall_mem_cons] at valid
      rw [BroadcastConfiguration.validateBis]
      refine errorsWith_bind (errorsWith_ensure (by simp)) fun _ _ => ?_
      split
      · rintro _ ⟨⟩
        change Unrelated ("index out of bounds: the len is " ++ _ ++ _ ++ _)
        rw [String.append_assoc, String.append_assoc]
        exact of_start "index out of bounds: the len is " (by simp [Lc3Configuration.refusals]) _
      · have duplicate : Unrelated s!"duplicate BIS index {config.bisIndex}" :=
          of_start "duplicate BIS index " (by simp [Lc3Configuration.refusals]) _
        exact errorsWith_bind (errorsWith_ensure duplicate) fun _ _ =>
          errorsWith_bind (of_valid valid.1) fun _ _ =>
          errorsWith_bind (errorsWith_ensure (by simp)) fun _ _ => ih valid.2

theorem subgroups {groups : List BroadcastSubgroup} {seen : List Bool}
    (valid : ∀ group ∈ groups, group.codec.validate = .ok () ∧
      ∀ config ∈ group.bis, config.lc3.validate = .ok ()) :
    ErrorsWith Unrelated (BroadcastConfiguration.validateSubgroups seen groups) := by
  induction groups generalizing seen with
  | nil => exact errorsWith_ok
  | cons group rest ih =>
      rw [List.forall_mem_cons] at valid
      rw [BroadcastConfiguration.validateSubgroups]
      exact errorsWith_bind (of_valid valid.1.1) fun _ _ =>
        errorsWith_bind (errorsWith_ensure (by simp)) fun _ _ =>
        errorsWith_bind (bis valid.1.2) fun _ _ => ih valid.2

end Unrelated

/-- A configuration of valid codecs is never refused for a codec. -/
theorem AudioConfiguration.errorsWith_unrelated {configuration : AudioConfiguration}
    {sessionType : SessionType}
    (valid : ∀ codec ∈ configuration.codecs, codec.validate = .ok ()) :
    ErrorsWith Unrelated (configuration.validateFor sessionType) := by
  cases configuration with
  | pcm config =>
      refine errorsWith_bind (Unrelated.pcm config) fun _ _ => ?_
      split
      · rintro _ ⟨⟩
        simp
      · exact errorsWith_ok
  | leAudio le =>
      have each : ∀ config ∈ le.ases, config.lc3.validate = .ok () := by
        intro config mem
        exact valid _ (List.mem_map_of_mem mem)
      exact errorsWith_bind (errorsWith_ensure (by simp)) fun _ _ =>
        errorsWith_bind (errorsWith_ensure (by simp)) fun _ _ =>
        errorsWith_bind (Unrelated.pcm _) fun _ _ =>
        errorsWith_bind (errorsWith_ensure (by simp)) fun _ _ => Unrelated.ases each
  | leBroadcast broadcast =>
      have each : ∀ group ∈ broadcast.subgroups, group.codec.validate = .ok () ∧
          ∀ config ∈ group.bis, config.lc3.validate = .ok () := by
        intro group mem
        constructor
        · exact valid _ (List.mem_flatMap.mpr ⟨group, mem, List.mem_cons_self⟩)
        · intro config inner
          exact valid _ (List.mem_flatMap.mpr
            ⟨group, mem, List.mem_cons_of_mem _ (List.mem_map_of_mem inner)⟩)
      refine errorsWith_bind (errorsWith_ensure (by simp)) fun _ _ => ?_
      exact errorsWith_bind (errorsWith_ensure (by simp)) fun _ _ =>
        errorsWith_bind (errorsWith_ensure (by simp)) fun _ _ =>
        errorsWith_bind (Unrelated.pcm _) fun _ _ =>
        errorsWith_bind (errorsWith_ensure (by simp)) fun _ _ =>
        errorsWith_bind (Unrelated.subgroups each) fun _ _ => errorsWith_ok

/-! ### Granted codecs -/

namespace CapabilityRegistry

variable {known : List ProviderCapabilities}

/-- Some request for the codec succeeds. -/
def Grants (registry : CapabilityRegistry) (codec : Lc3Configuration) : Prop :=
  ∃ request capabilities, request.codec = codec ∧ registry.select request = .ok capabilities

/-- Selection and `validate` agree, apart from SDUs without a codec frame: of the
codecs in granted requests `validate` refuses those alone, and a session's
configuration of other granted codecs never fails as a codec does. -/
structure AgreesWithValidate (registry : CapabilityRegistry) : Prop where
  selected : ∀ request capabilities, registry.select request = .ok capabilities →
    (request.codec.validate = .ok () ↔ request.codec.codecFramesPerSdu ≠ 0)
  configured : ∀ (configuration : AudioConfiguration) (sessionType : SessionType),
    (∀ codec ∈ configuration.codecs, registry.Grants codec ∧ codec.codecFramesPerSdu ≠ 0) →
    ∀ (refused : Lc3Configuration) (e : String), refused.validate = .error e →
      configuration.validateFor sessionType ≠ .error e

theorem validate_of_select {request : SessionRequest} {capabilities : ProviderCapabilities}
    (sound : ∀ capabilities ∈ known, ∀ capability ∈ capabilities.codecs, capability.Sound)
    (selected : (ofKnown known).select request = .ok capabilities) :
    request.codec.validate = .ok () ↔ request.codec.codecFramesPerSdu ≠ 0 := by
  obtain ⟨suits, earlier, later, split, -⟩ := select_ofKnown_eq_ok.mp selected
  obtain ⟨capability, mem, admits⟩ := suits.codec
  have registered : capabilities ∈ known := by simp [split]
  exact admits.validate_iff (sound capabilities registered capability mem)

theorem agreesWithValidate
    (sound : ∀ capabilities ∈ known, ∀ capability ∈ capabilities.codecs, capability.Sound) :
    (ofKnown known).AgreesWithValidate where
  selected _ _ := validate_of_select sound
  configured configuration sessionType granted refused e refusal failed := by
    have valid : ∀ codec ∈ configuration.codecs, codec.validate = .ok () := by
      intro codec mem
      obtain ⟨⟨request, capabilities, rfl, selected⟩, frames⟩ := granted codec mem
      exact (validate_of_select sound selected).mpr frames
    exact AudioConfiguration.errorsWith_unrelated valid e failed
      (refused.errorsWith_refusals e refusal)

/-- The software provider advertises nothing that `validate` refuses. -/
theorem softwareLc3Provider_sound :
    ∀ capabilities ∈ [softwareLc3Provider.capabilities],
      ∀ capability ∈ capabilities.codecs, capability.Sound := by
  simp only [softwareLc3Provider, CapabilityProvider.ofCapabilities, List.mem_singleton,
    forall_eq]
  exact ⟨fun _ => id, fun _ => id, by decide⟩

/-- A request for 48 kHz stereo media with the given codec frames per SDU. -/
def softwareRequest (frames : UInt8) : SessionRequest :=
  ⟨.leUnicastSoftwareEncoding, .sink, .media, ⟨48000, 10000, 120, frames, 3⟩, false⟩

theorem agreesWithValidate_software :
    (softwareRequest 1).codec.validate = .ok () ∧
      ((ofKnown [softwareLc3Provider.capabilities]).select (softwareRequest 1)).toOption.isSome :=
  ⟨((agreesWithValidate softwareLc3Provider_sound).selected _ softwareLc3Provider.capabilities
    rfl).mpr (by decide), by decide⟩

/-- An ASE for the codec of a request. -/
def aseFor (request : SessionRequest) : AseConfiguration :=
  ⟨1, request.direction, none, request.codec,
    ⟨10000, .unframed, [.le2M], 120, 13, 100, 20000, 40000⟩, ⟨0, true, 0, [], []⟩⟩

/-- An SDU without a codec frame is granted and refused afterwards. -/
theorem not_agreesWithValidate_empty_sdu :
    (ofKnown [softwareLc3Provider.capabilities]).select (softwareRequest 0) =
        .ok softwareLc3Provider.capabilities ∧
      (softwareRequest 0).codec.validate = .error "SDU must contain at least one codec frame" ∧
      (AudioConfiguration.leAudio
          ⟨0, .media, .sequential, ⟨48000, 16, 2, 10000⟩, [aseFor (softwareRequest 0)]⟩).validateFor
        (softwareRequest 0).sessionType =
        .error "SDU must contain at least one codec frame" :=
  ⟨rfl, by decide, by decide⟩

end CapabilityRegistry

end Dorsche.Wireless
