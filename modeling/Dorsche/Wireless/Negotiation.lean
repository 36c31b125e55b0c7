import Dorsche.Wireless.DataPlane.Delivery
import Dorsche.Wireless.Floss.Control

/-!
From a negotiated PCM configuration to the ring that carries it.

Two functions accept configurations: `parse_pcm_config` for what the service
reports and `validate_for` for what a session is configured with. The tools then
create a ring of `bytes_per_interval()? as u32` octets a slot and fill
`payload_mut()[..n]` (`src/bin/dorsche_pipewire.rs`,
`src/bin/floss_le_audio_smoke.rs`). That works for the accepted configurations
whose interval is a whole number of frames and fits a slot.
-/

namespace Dorsche.Wireless

open Dorsche.Lib DataPlane

namespace PcmConfiguration

/-- What `validate` admits, as bounds on the numbers it computes with. -/
structure Valid (pcm : PcmConfiguration) : Prop where
  rate_pos : 0 < pcm.sampleRateHz.toNat
  rate_le : pcm.sampleRateHz.toNat ≤ 48000
  width : pcm.bitsPerSample.toNat = 16 ∨ pcm.bitsPerSample.toNat = 24 ∨
    pcm.bitsPerSample.toNat = 32
  channels_pos : 0 < pcm.channels.toNat
  channels_le : pcm.channels.toNat ≤ 8
  interval_pos : 0 < pcm.dataIntervalUs.toNat

theorem valid_of_validate {self : PcmConfiguration} (ok : self.validate = .ok ()) : self.Valid := by
  simp only [validate, bind_eq_ok, ensure_eq_ok, exists_const, supportedRates, List.mem_cons,
    List.not_mem_nil, or_false] at ok
  obtain ⟨rate, width, ⟨some, few⟩, interval⟩ := ok
  refine ⟨?_, ?_, ?_, UInt8.le_iff_toNat_le.mp some, UInt8.le_iff_toNat_le.mp few,
    UInt32.lt_iff_toNat_lt.mp interval⟩
  · rcases rate with is | is | is | is | is | is <;> rw [is] <;> decide
  · rcases rate with is | is | is | is | is | is <;> rw [is] <;> decide
  · rcases width with is | is | is
    · exact .inl (by rw [is]; rfl)
    · exact .inr (.inl (by rw [is]; rfl))
    · exact .inr (.inr (by rw [is]; rfl))

/-- Frames of one interval, times a million. -/
def microframes (self : PcmConfiguration) : Nat :=
  self.sampleRateHz.toNat * self.dataIntervalUs.toNat

/-- Octets of the whole frames of one interval. -/
def wholeOctets (self : PcmConfiguration) : Nat :=
  self.microframes / 1000000 * self.channels.toNat * (self.bitsPerSample.toNat / 8)

theorem microframes_lt {self : PcmConfiguration} (valid : self.Valid) :
    self.microframes < 48001 * 2 ^ 32 :=
  calc self.microframes ≤ 48000 * self.dataIntervalUs.toNat := Nat.mul_le_mul_right _ valid.rate_le
    _ < 48001 * 2 ^ 32 := by
      have := self.dataIntervalUs.toNat_lt
      omega

/-- The product of `bytes_per_interval` fits. -/
theorem toNat_microframes {self : PcmConfiguration} (valid : self.Valid) :
    (self.sampleRateHz.toUInt64 * self.dataIntervalUs.toUInt64).toNat = self.microframes := by
  have frames := microframes_lt valid
  rw [UInt64.toNat_mul, UInt32.toNat_toUInt64, UInt32.toNat_toUInt64]
  exact Nat.mod_eq_of_lt (by unfold microframes at frames; omega)

theorem width_le {self : PcmConfiguration} (valid : self.Valid) :
    self.bitsPerSample.toNat / 8 ≤ 4 := by
  have := valid.width
  omega

theorem scaled_le {self : PcmConfiguration} (valid : self.Valid) :
    self.microframes / 1000000 * self.channels.toNat ≤ 2 ^ 32 * 8 := by
  have frames : self.microframes / 1000000 ≤ 2 ^ 32 := by
    have := microframes_lt valid
    omega
  exact Nat.mul_le_mul frames valid.channels_le

theorem wholeOctets_le {self : PcmConfiguration} (valid : self.Valid) :
    self.wholeOctets ≤ 2 ^ 32 * 8 * 4 :=
  Nat.mul_le_mul (scaled_le valid) (width_le valid)

/-- No step of `bytes_per_interval` wraps on a valid configuration. -/
theorem bytes_eq_wholeOctets {self : PcmConfiguration} (valid : self.Valid) :
    (self.sampleRateHz.toUInt64 * self.dataIntervalUs.toUInt64 / 1000000 *
      self.channels.toUInt64 * (self.bitsPerSample / 8).toUInt64).toNat = self.wholeOctets := by
  rw [UInt64.toNat_mul, UInt64.toNat_mul, UInt64.toNat_div, toNat_microframes valid,
    UInt8.toNat_toUInt64, UInt8.toNat_toUInt64, UInt8.toNat_div]
  change self.microframes / 1000000 * self.channels.toNat % 2 ^ 64 *
    (self.bitsPerSample.toNat / 8) % 2 ^ 64 = _
  rw [Nat.mod_eq_of_lt (lt_of_le_of_lt (scaled_le valid) (by decide))]
  exact Nat.mod_eq_of_lt (lt_of_le_of_lt (wholeOctets_le valid) (by decide))

/-- `bytes_per_interval` returns exactly on intervals of whole frames. -/
theorem bytesPerInterval_eq_ok_iff {self : PcmConfiguration} {n : Nat}
    (ok : self.validate = .ok ()) :
    self.bytesPerInterval = .ok n ↔ 1000000 ∣ self.microframes ∧ n = self.wholeOctets := by
  have valid := valid_of_validate ok
  have frames := microframes_lt valid
  have whole : self.sampleRateHz.toUInt64 * self.dataIntervalUs.toUInt64 % 1000000 = 0 ↔
      1000000 ∣ self.microframes := by
    rw [← UInt64.toNat_inj, UInt64.toNat_mod, toNat_microframes valid, Nat.dvd_iff_mod_eq_zero]
    rfl
  have fits : self.sampleRateHz.toNat * self.dataIntervalUs.toNat < 2 ^ 64 := by
    change self.microframes < _
    omega
  simp only [bytesPerInterval, ok, bind_eq_ok, ensure_eq_ok, exists_const, fits, whole, true_and,
    bytes_eq_wholeOctets valid]
  constructor
  · rintro ⟨dvd, is⟩
    exact ⟨dvd, (Except.ok.inj is).symm⟩
  · rintro ⟨dvd, rfl⟩
    exact ⟨dvd, rfl⟩

/-- An interval of whole frames is not empty. -/
theorem wholeOctets_pos {self : PcmConfiguration} (valid : self.Valid)
    (dvd : 1000000 ∣ self.microframes) : 0 < self.wholeOctets := by
  have pos : 0 < self.microframes := Nat.mul_pos valid.rate_pos valid.interval_pos
  have frames : 0 < self.microframes / 1000000 := Nat.div_pos (Nat.le_of_dvd pos dvd) (by decide)
  have width : 0 < self.bitsPerSample.toNat / 8 := by
    have := valid.width
    omega
  exact Nat.mul_pos (Nat.mul_pos frames valid.channels_pos) width

end PcmConfiguration

/-! ### Acceptance -/

/-- The PCM part of a configuration. -/
def AudioConfiguration.pcmPart : AudioConfiguration → PcmConfiguration
  | .pcm config => config
  | .leAudio le => le.pcm
  | .leBroadcast broadcast => broadcast.pcm

/-- The control plane accepts a PCM configuration: the parser returns it for some
reply of the service, or a session type admits a configuration with it. -/
def ControlPlaneAccepts (V : Type) [Floss.OwnedValue V] (pcm : PcmConfiguration) : Prop :=
  (∃ properties : Floss.PropertyMap V, Floss.parsePcmConfig properties = .ok pcm) ∨
    ∃ (configuration : AudioConfiguration) (sessionType : SessionType),
      configuration.validateFor sessionType = .ok () ∧ configuration.pcmPart = pcm

section Accepted

variable {V : Type} [Floss.OwnedValue V] {pcm : PcmConfiguration}

theorem validate_of_parsePcmConfig {properties : Floss.PropertyMap V}
    (parsed : Floss.parsePcmConfig properties = .ok pcm) :
    pcm.validate = .ok () ∧ ∃ n, pcm.bytesPerInterval = .ok n := by
  simp only [Floss.parsePcmConfig, bind_eq_ok] at parsed
  obtain ⟨_, -, _, -, _, -, _, -, _, valid, n, octets, is⟩ := parsed
  obtain rfl := Except.ok.inj is
  exact ⟨valid, n, octets⟩

theorem AudioConfiguration.validate_of_validateFor {configuration : AudioConfiguration}
    {sessionType : SessionType} (valid : configuration.validateFor sessionType = .ok ()) :
    configuration.pcmPart.validate = .ok () := by
  cases configuration with
  | pcm config =>
      obtain ⟨_, ok, -⟩ := bind_eq_ok.mp valid
      exact ok
  | leAudio le =>
      simp only [validateFor, bind_eq_ok] at valid
      obtain ⟨_, -, _, -, _, ok, -⟩ := valid
      exact ok
  | leBroadcast broadcast =>
      simp only [validateFor, BroadcastConfiguration.validate, bind_eq_ok] at valid
      obtain ⟨_, -, _, -, _, -, _, ok, -⟩ := valid
      exact ok

theorem ControlPlaneAccepts.validate (accepted : ControlPlaneAccepts V pcm) :
    pcm.validate = .ok () := by
  rcases accepted with ⟨properties, parsed⟩ | ⟨configuration, sessionType, valid, rfl⟩
  · exact (validate_of_parsePcmConfig parsed).1
  · exact AudioConfiguration.validate_of_validateFor valid

/-! ### The ring of the tools -/

/-- A ring of `n as u32` octets a slot carries frames of `n` octets: it is created
when the system calls succeed, it has that capacity, and a slice that a
producer's client gets from `payload_mut` is that long. -/
structure Carries (n : Nat) : Prop where
  creates : ∀ (sys : SystemCalls) (slotCount : UInt32), sys.Succeed → 2 ≤ slotCount →
    ∃ ring, RingPair.create 64 sys slotCount (UInt32.ofNat n) = .ok ring
  capacity : ∀ (sys : SystemCalls) (slotCount : UInt32) (ring : RingPair),
    RingPair.create 64 sys slotCount (UInt32.ofNat n) = .ok ring →
    (RingHeader.load ring.memory).payloadCapacity.toNat = n
  slices : ∀ (sys : SystemCalls) (slotCount : UInt32) (ring : RingPair),
    RingPair.create 64 sys slotCount (UInt32.ofNat n) = .ok ring →
    ∀ faults c, ring.Reaches (UInt32.ofNat n) faults c →
    ∀ given lease slice image, c.left = .ret (.leased given lease (some slice) image) →
    slice.len = n

/-- A slot of `2 ^ 32 - 127` octets or more is too long for the header. -/
theorem capacity_lt_of_create {sys : SystemCalls} {slotCount payloadCapacity : UInt32}
    {ring : RingPair} (created : RingPair.create 64 sys slotCount payloadCapacity = .ok ring) :
    payloadCapacity.toNat < 2 ^ 32 - 127 := by
  have capacity := payloadCapacity.toNat_lt
  obtain ⟨g, -, -, stride, -⟩ := RingPair.create_laid (by decide)
    (by simp only [FrameDescriptor.sizeOf]; omega) created
  have := g.slotStride.toNat_lt
  omega

theorem payloadCapacity_of_create {sys : SystemCalls} {slotCount payloadCapacity : UInt32}
    {ring : RingPair} (created : RingPair.create 64 sys slotCount payloadCapacity = .ok ring) :
    (RingHeader.load ring.memory).payloadCapacity = payloadCapacity := by
  obtain ⟨g, -, rfl, -, memory⟩ := RingPair.create_geometry created
  rw [memory, RingHeader.load_store]
  rfl

/-- The narrowing cast and the stride field decide what a ring can carry. -/
theorem carries_iff {n : Nat} (pos : 0 < n) : Carries n ↔ n < 2 ^ 32 - 127 := by
  constructor
  · intro carries
    obtain ⟨ring, created⟩ := carries.creates .calm 2 SystemCalls.calm_succeed (by decide)
    have whole := carries.capacity _ _ ring created
    rw [payloadCapacity_of_create created] at whole
    exact whole ▸ capacity_lt_of_create created
  · intro small
    have exactly : (UInt32.ofNat n).toNat = n := by
      rw [UInt32.toNat_ofNat', Nat.mod_eq_of_lt (by omega)]
    refine ⟨fun sys slotCount works two => ?_, fun sys slotCount ring created => ?_,
      fun sys slotCount ring created faults c reached given lease slice image rests => ?_⟩
    · refine RingPair.create_succeeds works two ?_ (exactly.trans_lt small)
      rw [UInt32.lt_iff_toNat_lt, exactly]
      exact pos
    · rw [payloadCapacity_of_create created, exactly]
    · obtain ⟨g, -, capacity, inv, left, -⟩ := RingPair.reaches_contracts created reached
      rw [rests] at left
      obtain ⟨-, -, borrowed, -⟩ := left.ret inv
      rw [borrowed slice rfl]
      change g.payloadCapacity.toNat = n
      rw [capacity, exactly]

/-- The data plane carries a configuration: an interval is a positive number of
octets, and the ring the tools create for it takes an interval a slot. -/
def DataPlaneCarries (pcm : PcmConfiguration) : Prop :=
  ∃ n, pcm.bytesPerInterval = .ok n ∧ 0 < n ∧ Carries n

/-- The data plane carries exactly those accepted configurations whose interval is
a whole number of frames and whose octets fit a slot. -/
theorem dataPlaneCarries_iff (accepted : ControlPlaneAccepts V pcm) :
    DataPlaneCarries pcm ↔ 1000000 ∣ pcm.microframes ∧ pcm.wholeOctets < 2 ^ 32 - 127 := by
  have ok := accepted.validate
  have valid := PcmConfiguration.valid_of_validate ok
  constructor
  · rintro ⟨n, octets, pos, carries⟩
    obtain ⟨dvd, rfl⟩ := (PcmConfiguration.bytesPerInterval_eq_ok_iff ok).mp octets
    exact ⟨dvd, (carries_iff pos).mp carries⟩
  · rintro ⟨dvd, small⟩
    have pos := PcmConfiguration.wholeOctets_pos valid dvd
    exact ⟨_, (PcmConfiguration.bytesPerInterval_eq_ok_iff ok).mpr ⟨dvd, rfl⟩, pos,
      (carries_iff pos).mpr small⟩

end Accepted

theorem dataPlaneCarries_iff_ten_milliseconds :
    ControlPlaneAccepts Floss.SampleValue ⟨48000, 16, 2, 10000⟩ ∧
      DataPlaneCarries ⟨48000, 16, 2, 10000⟩ := by
  have accepted : ControlPlaneAccepts Floss.SampleValue ⟨48000, 16, 2, 10000⟩ :=
    .inr ⟨.pcm ⟨48000, 16, 2, 10000⟩, .leUnicastSoftwareEncoding, by decide +kernel, rfl⟩
  exact ⟨accepted, (dataPlaneCarries_iff accepted).mpr (by decide +kernel)⟩

/-- Two accepted configurations that are not carried: one millisecond at 44.1 kHz
is not a whole number of frames, and 3000 s of 48 kHz, 32 bits and 8 channels are
4 608 000 000 octets, of which the cast leaves 313 032 704. -/
theorem not_dataPlaneCarries :
    (AudioConfiguration.pcm ⟨44100, 16, 2, 1000⟩).validateFor .leUnicastSoftwareEncoding = .ok () ∧
      ¬ DataPlaneCarries ⟨44100, 16, 2, 1000⟩ ∧
      Floss.parsePcmConfig [("data_interval_us", Floss.SampleValue.u32 3000000000),
        ("sample_rate", .u32 48000), ("bits_per_sample", .u8 32), ("channels_count", .u8 8)] =
          .ok ⟨48000, 32, 8, 3000000000⟩ ∧
      (RingPair.create 64 .calm 16 (UInt32.ofNat 4608000000)).toOption.map
          (fun ring => (RingHeader.load ring.memory).payloadCapacity) = some 313032704 ∧
      ¬ DataPlaneCarries ⟨48000, 32, 8, 3000000000⟩ := by
  refine ⟨by decide +kernel, ?_, by decide +kernel, by decide +kernel, ?_⟩
  · rintro ⟨n, octets, -⟩
    have fails : (PcmConfiguration.bytesPerInterval ⟨44100, 16, 2, 1000⟩).toOption = none := by
      decide +kernel
    rw [octets] at fails
    cases fails
  · rintro ⟨n, octets, pos, carries⟩
    have is : PcmConfiguration.bytesPerInterval ⟨48000, 32, 8, 3000000000⟩ = .ok 4608000000 := by
      decide +kernel
    obtain rfl := Except.ok.inj (octets.symm.trans is)
    exact absurd ((carries_iff pos).mp carries) (by decide)

end Dorsche.Wireless
