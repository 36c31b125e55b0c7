import Dorsche.Bin.Tools
import Dorsche.Lib.Blocks
import Dorsche.Wireless.Negotiation

/-!
The PCM samples of `src/bin/floss_le_audio_smoke.rs`: `write_sample`, which `write_tone`
calls for every frame of an interval, and `decode_samples`.

The floating-point ends are left out. `write_sample` starts from the integer it has
scaled, `decode_samples` stops before its division. A panic, of a slice or of
`chunks_exact`, is `none`. Offsets are exact: one that is inside a buffer is a `usize`.
-/

namespace Dorsche.Bin.FlossLeAudioSmoke.Samples

open Dorsche.Lib Dorsche.Wireless

/-! ### The two functions -/

/-- `write_sample` from `integer` on: the low octets once for every channel. -/
def writeSample (buffer : Buffer UInt8) (frame : Nat) (channels bits : UInt8) (integer : Int64) :
    Option (Buffer UInt8) :=
  let width := (bits / 8).toNat
  let encoded := leBytes 8 integer.toUInt64.toNat
  (List.range channels.toNat).foldlM (fun buffer channel =>
    let offset := (frame * channels.toNat + channel) * width
    -- `&encoded[..width]`
    if width ≤ 8 then buffer.copyFromSlice offset (encoded.take width) else none) buffer

/-- Write the given frames, one after the other; frame `i` has the sample `i`. -/
def writeFrames (channels bits : UInt8) (samples : List Int64) (frames : List Nat)
    (buffer : Buffer UInt8) : Option (Buffer UInt8) :=
  frames.foldlM (fun buffer frame => writeSample buffer frame channels bits (samples.getD frame 0))
    buffer

/-- The closure of `decode_samples`; a chunk has as many octets as are indexed. -/
def decodeSample (bits : UInt8) (sample : List UInt8) : Result Int64 :=
  let octet := fun i => sample.getD i 0
  if bits = 16 then .ok (UInt16.ofNat (leValue [octet 0, octet 1])).toInt16.toInt64
  else if bits = 24 then
    let extended : UInt8 := if octet 2 &&& 0x80 = 0 then 0 else 0xff
    .ok (UInt32.ofNat (leValue [octet 0, octet 1, octet 2, extended])).toInt32.toInt64
  else if bits = 32 then
    .ok (UInt32.ofNat (leValue [octet 0, octet 1, octet 2, octet 3])).toInt32.toInt64
  else .error s!"unsupported PCM width {bits}"

def decodeSamples (bytes : List UInt8) (bits : UInt8) : Option (List (Result Int64)) :=
  let width := (bits / 8).toNat
  if width = 0 then none else some ((chunksExact width bytes).map (decodeSample bits))

/-- A loop over the samples that a question mark leaves at the first error. -/
def firstError (items : List (Result Int64)) : Result Unit :=
  checkAll (fun item => do let _ ← item) items

/-! ### Widths -/

variable {bits channels : UInt8} {samples : List Int64}

theorem decodeSample_supported (width : bits ∈ [16, 24, 32]) (sample : List UInt8) :
    ∃ integer, decodeSample bits sample = .ok integer := by
  simp only [List.mem_cons, List.not_mem_nil, or_false] at width
  rcases width with rfl | rfl | rfl <;> exact ⟨_, rfl⟩

theorem decodeSample_unsupported (width : bits ∉ [16, 24, 32]) (sample : List UInt8) :
    decodeSample bits sample = .error s!"unsupported PCM width {bits}" := by
  simp only [List.mem_cons, List.not_mem_nil, or_false, not_or] at width
  simp only [decodeSample, width, if_false]

/-- A loop over the decoded samples ends as the tool's `decodeSamples` says. -/
theorem firstError_decodeSamples {bytes : List UInt8} {items : List (Result Int64)}
    (decoded : decodeSamples bytes bits = some items) :
    firstError items = FlossLeAudioSmoke.decodeSamples bytes bits := by
  simp only [decodeSamples] at decoded
  split at decoded
  · cases decoded
  rename_i nonzero
  cases decoded
  by_cases width : bits ∈ [16, 24, 32]
  · rw [FlossLeAudioSmoke.decodeSamples, ensure, if_pos (.inr width)]
    generalize chunksExact (bits / 8).toNat bytes = chunks
    induction chunks with
    | nil => rfl
    | cons chunk rest ih =>
        obtain ⟨integer, is⟩ := decodeSample_supported width chunk
        rw [List.map_cons, firstError, checkAll, is]
        exact ih
  · have text := decodeSample_unsupported width
    have none : chunksExact (bits / 8).toNat bytes = [] ↔ bytes.length < (bits / 8).toNat := by
      rw [chunksExact, List.map_eq_nil_iff, List.range_eq_nil, Nat.div_eq_zero_iff]
      omega
    simp only [FlossLeAudioSmoke.decodeSamples, width, or_false, ← none]
    cases chunksExact (bits / 8).toNat bytes with
    | nil => rfl
    | cons chunk rest =>
        rw [List.map_cons, firstError, checkAll, text]
        rfl

/-! ### One sample -/

/-- What a sample of the given width can be. -/
def InRange (bits : UInt8) (sample : Int64) : Prop :=
  -2 ^ (bits.toNat - 1) ≤ sample.toInt ∧ sample.toInt < 2 ^ (bits.toNat - 1)

instance (bits : UInt8) (sample : Int64) : Decidable (InRange bits sample) :=
  inferInstanceAs (Decidable (_ ∧ _))

theorem toInt_eq_bmod (sample : Int64) :
    sample.toInt = (sample.toUInt64.toNat : Int).bmod (2 ^ 64) :=
  BitVec.toInt_eq_toNat_bmod _

/-- The octets of a 16-bit or a 32-bit sample are the integer's own. -/
theorem decodeSample_sixteen {sample : Int64} (inRange : InRange 16 sample) :
    decodeSample 16 (leBytes 2 sample.toUInt64.toNat) = .ok sample := by
  obtain ⟨lower, upper⟩ := inRange
  have low := bmod_two_pow_of_lane (k := 15) (by decide) (toInt_eq_bmod sample) lower upper
  have same : (UInt16.ofNat (leValue (leBytes 2 sample.toUInt64.toNat))).toInt16.toInt64 =
      sample := by
    rw [← Int64.toInt_inj, Int16.toInt_toInt64, UInt16.toInt16_ofNat', Int16.toInt_ofNat',
      leValue_leBytes]
    exact low
  exact congrArg Except.ok same

/-- `i64::from(i32::from_le_bytes(..))`. -/
theorem toInt64_ofNat_of_bmod {v : Nat} {sample : Int64}
    (value : (v : Int).bmod (2 ^ 32) = sample.toInt) :
    (UInt32.ofNat v).toInt32.toInt64 = sample := by
  rw [← Int64.toInt_inj, Int32.toInt_toInt64, UInt32.toInt32_ofNat', Int32.toInt_ofNat']
  exact value

theorem decodeSample_thirtyTwo {sample : Int64} (inRange : InRange 32 sample) :
    decodeSample 32 (leBytes 4 sample.toUInt64.toNat) = .ok sample := by
  obtain ⟨lower, upper⟩ := inRange
  have low := bmod_two_pow_of_lane (k := 31) (by decide) (toInt_eq_bmod sample) lower upper
  have value := leValue_leBytes 4 sample.toUInt64.toNat
  exact congrArg Except.ok (toInt64_ofNat_of_bmod (value ▸ low))

theorem and_high_bit_eq_zero {octet : UInt8} : octet &&& 0x80 = 0 ↔ octet.toNat < 128 := by
  rw [← UInt8.toBitVec_inj]
  change octet.toBitVec &&& 0x80#8 = 0#8 ↔ octet.toBitVec.toNat < 128
  generalize octet.toBitVec = bits
  revert bits
  decide

/-- The fourth octet of `decode_samples` makes the sign of 24 bits that of 32. -/
theorem bmod_extended {m : Nat} {x : Int} (small : m < 2 ^ 24)
    (low : (m : Int).bmod (2 ^ 24) = x) :
    ((m + 2 ^ 24 * (if m / 65536 < 128 then 0 else 255) : Nat) : Int).bmod (2 ^ 32) = x := by
  rw [Int.bmod_eq_iff (by decide)] at low ⊢
  split <;> omega

theorem decodeSample_twentyFour {sample : Int64} (inRange : InRange 24 sample) :
    decodeSample 24 (leBytes 3 sample.toUInt64.toNat) = .ok sample := by
  obtain ⟨lower, upper⟩ := inRange
  have low := bmod_two_pow_of_lane (k := 23) (by decide) (toInt_eq_bmod sample) lower upper
  generalize sample.toUInt64.toNat = v at low ⊢
  have extended := bmod_extended (Nat.mod_lt _ (by decide)) low
  have value : leValue [UInt8.ofNat v, UInt8.ofNat (v / 256), UInt8.ofNat (v / 256 / 256),
      if UInt8.ofNat (v / 256 / 256) &&& 0x80 = 0 then 0 else 0xff] =
      v % 2 ^ 24 + 2 ^ 24 * (if v % 2 ^ 24 / 65536 < 128 then 0 else 255) := by
    have octet : v / 256 / 256 % 256 = v % 2 ^ 24 / 65536 := by omega
    simp only [and_high_bit_eq_zero, leValue, UInt8.toNat_ofNat', Nat.reducePow, octet]
    split <;> simp <;> omega
  rw [← value] at extended
  exact congrArg Except.ok (toInt64_ofNat_of_bmod extended)

theorem decodeSample_leBytes {sample : Int64} (width : bits ∈ [16, 24, 32])
    (inRange : InRange bits sample) :
    decodeSample bits (leBytes (bits / 8).toNat sample.toUInt64.toNat) = .ok sample := by
  simp only [List.mem_cons, List.not_mem_nil, or_false] at width
  rcases width with rfl | rfl | rfl
  · exact decodeSample_sixteen inRange
  · exact decodeSample_twentyFour inRange
  · exact decodeSample_thirtyTwo inRange

/-! ### All frames of a buffer -/

/-- The block of a frame and a channel. -/
def encodedAt (channels bits : UInt8) (samples : List Int64) (block : Nat) : List UInt8 :=
  leBytes (bits / 8).toNat (samples.getD (block / channels.toNat) 0).toUInt64.toNat

/-- The blocks of some frames, in the order of the loops. -/
def blocksOf (channels : UInt8) (frames : List Nat) : List Nat :=
  frames.flatMap fun frame => (List.range channels.toNat).map (frame * channels.toNat + ·)

theorem writeSample_eq {frame : Nat} (width : (bits / 8).toNat ≤ 8) (buffer : Buffer UInt8) :
    writeSample buffer frame channels bits (samples.getD frame 0) =
      buffer.writeBlocks (bits / 8).toNat (encodedAt channels bits samples)
        ((List.range channels.toNat).map (frame * channels.toNat + ·)) := by
  rw [Buffer.writeBlocks, List.foldlM_map, writeSample]
  -- Every block of the frame has the octets of its one sample.
  have block : ∀ channel ∈ List.range channels.toNat,
      encodedAt channels bits samples (frame * channels.toNat + channel) =
        leBytes (bits / 8).toNat (samples.getD frame 0).toUInt64.toNat := by
    intro channel mem
    rw [encodedAt, block_div (List.mem_range.mp mem)]
  generalize List.range channels.toNat = all at block
  induction all generalizing buffer with
  | nil => rfl
  | cons channel rest ih =>
      rw [List.forall_mem_cons] at block
      simp only [List.foldlM_cons, block.1, take_leBytes width, width, if_true]
      congr 1
      funext next
      simpa only [take_leBytes width, width, if_true] using ih next block.2

theorem writeFrames_eq (width : (bits / 8).toNat ≤ 8) (frames : List Nat)
    (buffer : Buffer UInt8) :
    writeFrames channels bits samples frames buffer =
      buffer.writeBlocks (bits / 8).toNat (encodedAt channels bits samples)
        (blocksOf channels frames) := by
  induction frames generalizing buffer with
  | nil => rfl
  | cons frame rest ih =>
      rw [writeFrames, List.foldlM_cons, blocksOf, List.flatMap_cons, Buffer.writeBlocks_append,
        writeSample_eq width]
      congr 1
      funext next
      exact ih next

theorem blocksOf_perm (channels : UInt8) {frames : List Nat}
    (order : frames.Perm (List.range samples.length)) :
    (blocksOf channels frames).Perm (List.range (samples.length * channels.toNat)) := by
  rw [← flatMap_range_blocks]
  exact order.flatMap_right _

/-- Sample by sample and channel by channel. -/
theorem flatMap_replicate_eq (channels : Nat) :
    samples.flatMap (List.replicate channels) =
      (List.range (samples.length * channels)).map
        fun block => samples.getD (block / channels) 0 := by
  have frames : samples = (List.range samples.length).map (samples.getD · 0) := by
    apply List.ext_getElem
    · simp
    · intro i inside _
      rw [List.getElem_map, List.getElem_range, List.getD_eq_getElem _ _ inside]
  rw [← flatMap_range_blocks, List.map_flatMap]
  conv_lhs => rw [frames, List.flatMap_map]
  refine List.flatMap_congr fun frame _ => ?_
  rw [List.map_map]
  refine (List.eq_replicate_iff.mpr ⟨by simp, ?_⟩).symm
  intro sample mem
  obtain ⟨channel, inside, rfl⟩ := List.mem_map.mp mem
  simp only [Function.comp, block_div (List.mem_range.mp inside)]

theorem sample_mem {block channels : Nat} (inside : block < samples.length * channels) :
    samples.getD (block / channels) 0 ∈ samples := by
  have frame : block / channels < samples.length := Nat.div_lt_of_lt_mul (Nat.mul_comm _ _ ▸ inside)
  rw [List.getD_eq_getElem _ _ frame]
  exact List.getElem_mem frame

/-- What a round trip through a buffer gives. -/
structure RoundTrip (channels bits : UInt8) (samples : List Int64) (before after : Buffer UInt8) :
    Prop where
  length : after.cells.length = before.cells.length
  /-- Every octet once. -/
  written : after.written.Perm (before.written ++ List.range before.cells.length)
  decoded : decodeSamples after.cells bits =
    some ((samples.flatMap (List.replicate channels.toNat)).map .ok)
  consumed : chunksRemainder (bits / 8).toNat after.cells = []

theorem width_of_mem (width : bits ∈ [16, 24, 32]) :
    0 < (bits / 8).toNat ∧ (bits / 8).toNat ≤ 8 := by
  simp only [List.mem_cons, List.not_mem_nil, or_false] at width
  rcases width with rfl | rfl | rfl <;> decide

theorem writeFrames_roundTrip {frames : List Nat} (buffer : Buffer UInt8)
    (width : bits ∈ [16, 24, 32]) (inRange : ∀ sample ∈ samples, InRange bits sample)
    (order : frames.Perm (List.range samples.length))
    (length : buffer.cells.length = samples.length * channels.toNat * (bits / 8).toNat) :
    ∃ out, writeFrames channels bits samples frames buffer = some out ∧
      RoundTrip channels bits samples buffer out := by
  obtain ⟨pos, small⟩ := width_of_mem width
  have blocks := blocksOf_perm channels order
  have sized : ∀ block, (encodedAt channels bits samples block).length = (bits / 8).toNat :=
    fun _ => length_leBytes _ _
  have inside : ∀ block ∈ blocksOf channels frames,
      block < samples.length * channels.toNat :=
    fun block mem => List.mem_range.mp (blocks.mem_iff.mp mem)
  obtain ⟨out, wrote, has⟩ := Buffer.writeBlocks_eq_some sized inside length
  refine ⟨out, (writeFrames_eq small frames buffer).trans wrote, has.length, ?_, ?_, ?_⟩
  · rw [has.written, length, ← flatMap_range_blocks]
    exact (blocks.flatMap_right _).append_left _
  · have chunks := chunksExact_eq pos sized (has.length.trans length) fun block place within =>
      has.block block place (blocks.mem_iff.mpr (List.mem_range.mpr within))
    rw [decodeSamples, if_neg (Nat.pos_iff_ne_zero.mp pos), chunks, flatMap_replicate_eq,
      List.map_map, List.map_map]
    refine congrArg some (List.map_congr_left fun block mem => ?_)
    exact decodeSample_leBytes width (inRange _ (sample_mem (List.mem_range.mp mem)))
  · exact chunksRemainder_eq_nil pos (has.length.trans length)

/-- Samples survive the way through a buffer of their size: `write_sample`, frame by frame
in any order, writes every octet once and none outside, and `decode_samples` finds each
sample once for every channel. -/
theorem samples_roundTrip (bits channels : UInt8) (samples : List Int64) (frames : List Nat)
    (octets : List UInt8) (width : bits ∈ [16, 24, 32])
    (inRange : ∀ sample ∈ samples, InRange bits sample)
    (order : frames.Perm (List.range samples.length))
    (length : octets.length = samples.length * channels.toNat * (bits / 8).toNat) :
    ∃ out, writeFrames channels bits samples frames ⟨octets, []⟩ = some out ∧
      out.cells.length = octets.length ∧ out.written.Perm (List.range octets.length) ∧
      decodeSamples out.cells bits =
        some ((samples.flatMap (List.replicate channels.toNat)).map .ok) ∧
      chunksRemainder (bits / 8).toNat out.cells = [] := by
  obtain ⟨out, wrote, trip⟩ := writeFrames_roundTrip ⟨octets, []⟩ width inRange order length
  exact ⟨out, wrote, trip.length, trip.written, trip.decoded, trip.consumed⟩

/-- Both ends of the range of 24 bits, in stereo and not in order. -/
theorem samples_roundTrip_three_frames :
    (writeFrames 2 24 [-1, 8388607, -8388608] [2, 0, 1] ⟨List.replicate 18 7, []⟩).bind
        (fun out => decodeSamples out.cells 24) =
      some [.ok (-1), .ok (-1), .ok 8388607, .ok 8388607, .ok (-8388608), .ok (-8388608)] := by
  have inRange : ∀ sample ∈ [(-1 : Int64), 8388607, -8388608], InRange 24 sample := by
    simp only [List.forall_mem_cons, List.not_mem_nil, false_implies, implies_true, and_true]
    exact ⟨by decide, by decide, by decide⟩
  obtain ⟨out, wrote, -, -, decoded, -⟩ := samples_roundTrip 24 2 [-1, 8388607, -8388608] [2, 0, 1]
    (List.replicate 18 7) (by decide) inRange (by decide) rfl
  rw [wrote]
  exact decoded

/-! ### Intervals -/

/-- `frames_per_interval` of `write_tone`; a division by zero panics. -/
def framesPerInterval (pcm : PcmConfiguration) (bytesPerInterval : Nat) : Option Nat :=
  let channels := pcm.channels.toNat
  let width := (pcm.bitsPerSample / 8).toNat
  if channels = 0 ∨ width = 0 then none else some (bytesPerInterval / channels / width)

/-- The size of an interval, computed without a wrap and without a loss. -/
structure ExactInterval (pcm : PcmConfiguration) (bytesPerInterval : Nat) : Prop where
  product : pcm.sampleRateHz.toNat * pcm.dataIntervalUs.toNat < 2 ^ 64
  scaled : pcm.sampleRateHz.toNat * pcm.dataIntervalUs.toNat / 1000000 * pcm.channels.toNat <
    2 ^ 64
  octets : pcm.sampleRateHz.toNat * pcm.dataIntervalUs.toNat / 1000000 * pcm.channels.toNat *
    (pcm.bitsPerSample.toNat / 8) < 2 ^ 64
  bits : 8 * 1000000 * bytesPerInterval = pcm.sampleRateHz.toNat * pcm.dataIntervalUs.toNat *
    pcm.channels.toNat * pcm.bitsPerSample.toNat
  frames : framesPerInterval pcm bytesPerInterval =
    some (pcm.sampleRateHz.toNat * pcm.dataIntervalUs.toNat / 1000000)

section Interval

variable {pcm : PcmConfiguration} {n : Nat}

theorem validate_of_bytesPerInterval (returned : pcm.bytesPerInterval = .ok n) :
    pcm.validate = .ok () := by
  obtain ⟨⟨⟩, ok, -⟩ := bind_eq_ok.mp returned
  exact ok

theorem width_of_validate (ok : pcm.validate = .ok ()) : pcm.bitsPerSample ∈ [16, 24, 32] := by
  simp only [PcmConfiguration.validate, bind_eq_ok, ensure_eq_ok, exists_const] at ok
  exact ok.2.1

theorem bytesPerInterval_iff :
    pcm.bytesPerInterval = .ok n ↔
      pcm.validate = .ok () ∧ 1000000 ∣ pcm.microframes ∧ n = pcm.wholeOctets := by
  constructor
  · intro returned
    have ok := validate_of_bytesPerInterval returned
    exact ⟨ok, (PcmConfiguration.bytesPerInterval_eq_ok_iff ok).mp returned⟩
  · rintro ⟨ok, whole⟩
    exact (PcmConfiguration.bytesPerInterval_eq_ok_iff ok).mpr whole

theorem width_eq (pcm : PcmConfiguration) :
    (pcm.bitsPerSample / 8).toNat = pcm.bitsPerSample.toNat / 8 := UInt8.toNat_div _ _

/-- A supported width is a whole number of octets. -/
theorem eight_mul_width (valid : pcm.Valid) :
    8 * (pcm.bitsPerSample.toNat / 8) = pcm.bitsPerSample.toNat := by
  have := valid.width
  omega

theorem exactInterval_of_valid (valid : pcm.Valid) (whole : 1000000 ∣ pcm.microframes) :
    ExactInterval pcm pcm.wholeOctets where
  product := lt_trans (PcmConfiguration.microframes_lt valid) (by decide)
  scaled := lt_of_le_of_lt (PcmConfiguration.scaled_le valid) (by decide)
  octets := lt_of_le_of_lt (PcmConfiguration.wholeOctets_le valid) (by decide)
  bits := by
    obtain ⟨frames, product⟩ := whole
    change _ = pcm.microframes * _ * _
    rw [PcmConfiguration.wholeOctets, product, Nat.mul_div_cancel_left _ (by decide)]
    conv_rhs => rw [← eight_mul_width valid]
    ring
  frames := by
    have channels := valid.channels_pos
    have width : 0 < pcm.bitsPerSample.toNat / 8 := by
      have := valid.width
      omega
    rw [framesPerInterval, width_eq, if_neg (by omega), PcmConfiguration.wholeOctets,
      Nat.mul_right_comm, Nat.mul_div_cancel _ channels, Nat.mul_div_cancel _ width]
    rfl

/-- `bytes_per_interval` returns exactly for the valid configurations with a whole number
of frames in an interval, and then the exact size, from which `write_tone` has the number
of frames back. -/
theorem bytesPerInterval_exact (pcm : PcmConfiguration) :
    ((∃ n, pcm.bytesPerInterval = .ok n) ↔ pcm.validate = .ok () ∧
      1000000 ∣ pcm.sampleRateHz.toNat * pcm.dataIntervalUs.toNat) ∧
      ∀ n, pcm.bytesPerInterval = .ok n → ExactInterval pcm n := by
  refine ⟨⟨?_, ?_⟩, ?_⟩
  · rintro ⟨n, returned⟩
    obtain ⟨ok, whole, -⟩ := bytesPerInterval_iff.mp returned
    exact ⟨ok, whole⟩
  · rintro ⟨ok, whole⟩
    exact ⟨_, bytesPerInterval_iff.mpr ⟨ok, whole, rfl⟩⟩
  · intro n returned
    obtain ⟨ok, whole, rfl⟩ := bytesPerInterval_iff.mp returned
    exact exactInterval_of_valid (PcmConfiguration.valid_of_validate ok) whole

theorem bytesPerInterval_exact_stereo : framesPerInterval ⟨48000, 16, 2, 10000⟩ 1920 = some 480 :=
  ((bytesPerInterval_exact ⟨48000, 16, 2, 10000⟩).2 1920 rfl).frames

/-- The inner loop of `write_tone` fills the buffer of an interval, and a listener that
decodes it has the samples back. -/
theorem interval_roundTrip {samples : List Int64} (buffer : Buffer UInt8)
    (returned : pcm.bytesPerInterval = .ok n)
    (frames : framesPerInterval pcm n = some samples.length)
    (inRange : ∀ sample ∈ samples, InRange pcm.bitsPerSample sample)
    (length : buffer.cells.length = n) :
    ∃ out, writeFrames pcm.channels pcm.bitsPerSample samples (List.range samples.length) buffer =
      some out ∧ RoundTrip pcm.channels pcm.bitsPerSample samples buffer out := by
  obtain ⟨ok, whole, rfl⟩ := bytesPerInterval_iff.mp returned
  have exactly := (exactInterval_of_valid (PcmConfiguration.valid_of_validate ok) whole).frames
  have count : pcm.microframes / 1000000 = samples.length :=
    Option.some.inj (exactly.symm.trans frames)
  apply writeFrames_roundTrip buffer (width_of_validate ok) inRange (List.Perm.refl _)
  rw [length, PcmConfiguration.wholeOctets, count, width_eq]

end Interval

end Dorsche.Bin.FlossLeAudioSmoke.Samples
