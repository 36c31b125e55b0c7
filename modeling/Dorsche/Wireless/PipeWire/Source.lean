import Mathlib.Data.List.Infix
import Dorsche.Wireless.DataPlane.Delivery

/-!
The `process` callback of `PipeWireAdapter::run_source` (`src/wireless/pipewire.rs`).

A call acquires at most one frame, copies what fits of it into the buffer that
PipeWire gave, and drops the frame; what does not fit is gone. `Plays` is the
account of a run, frame by frame. The octets handed over continue each other as
long as every call that finds a frame has room for all of it.
-/

namespace Dorsche.Wireless.PipeWire.Source

open Dorsche.Lib Dorsche.Wireless.DataPlane

variable {g : Geometry} {s s' : Shared} {pcm : PcmConfiguration} {stride : Nat}

/-- `bytes_per_frame`. The product of two octets never overflows. -/
def bytesPerFrame (pcm : PcmConfiguration) : Result Nat := do
  let sampleBytes := (pcm.bitsPerSample / 8).toNat
  let stride := sampleBytes * pcm.channels.toNat
  ensure (0 < stride) "PipeWire PCM stride is zero"
  return stride

/-- What a call tells PipeWire, and the octets it wrote at the front of the
buffer. -/
structure Chunk where
  offset : UInt32
  stride : Nat
  size : UInt32
  octets : List UInt8
deriving DecidableEq, Repr

/-- The chunk after `octets` were copied. -/
def Chunk.of (stride : Nat) (octets : List UInt8) : Chunk :=
  ⟨0, stride, UInt32.ofNat octets.length, octets⟩

/-- The frame has the negotiated format. -/
def Negotiated (pcm : PcmConfiguration) (descriptor : FrameDescriptor) : Prop :=
  descriptor.payloadKind = PayloadKind.pcm.toUInt8 ∧
    descriptor.sampleRateHz = pcm.sampleRateHz ∧
    descriptor.channels = pcm.channels.toUInt16 ∧
    descriptor.bitsPerSample = pcm.bitsPerSample.toUInt16

instance (pcm : PcmConfiguration) (descriptor : FrameDescriptor) :
    Decidable (Negotiated pcm descriptor) :=
  inferInstanceAs (Decidable (_ ∧ _))

/-- The copy into a mapped buffer of `length` octets. The frame is dropped at the
end, in the format or not. -/
def copyFrame (pcm : PcmConfiguration) (length : Nat) (frame : FrameLease) :
    DataPlane.Ring (List UInt8) := do
  if Negotiated pcm frame.descriptor then
    let octets ← access (.readPayload frame.payload.offset (min length frame.payload.len))
    frame.drop
    return octets
  else
    frame.drop
    return []

/-- One call with a dequeued data plane, mapped with a length or not. The frame is
acquired whether the plane is mapped or not. The second component tells whether
there was one. -/
def process (pcm : PcmConfiguration) (stride : Nat) (destination : Option Nat) :
    DataPlane.Ring (Chunk × Bool) := do
  match destination, ← Consumer.tryAcquire with
  | some length, .ok (some frame) =>
      let octets ← copyFrame pcm length frame
      return (Chunk.of stride octets, true)
  | none, .ok (some frame) =>
      frame.drop
      return (Chunk.of stride [], true)
  | _, _ => return (Chunk.of stride [], false)

/-! ### What a call does -/

/-- The octets of a frame that a call hands over. -/
def portion (pcm : PcmConfiguration) (frame : Frame) (destination : Option Nat) : List UInt8 :=
  if Negotiated pcm frame.descriptor then frame.payload.take (destination.getD 0) else []

/-- What a call does: nothing, or it hands over its portion of the next frame and
gives the frame back. -/
inductive Processed (g : Geometry) (pcm : PcmConfiguration) (stride : Nat)
    (destination : Option Nat) (s t : Shared) : Chunk × Bool → Prop where
  | idle : t.released = s.released →
      Processed g pcm stride destination s t (Chunk.of stride [], false)
  | played {octets : List UInt8} : t.released = s.released + 1 →
      (Coherent g t.committed.length → ∃ frame, t.committed[s.released]? = some frame ∧
        octets = portion pcm frame destination) →
      Processed g pcm stride destination s t (Chunk.of stride octets, true)

theorem Processed.moved {destination : Option Nat} {t t' : Shared} {out : Chunk × Bool}
    (processed : Processed g pcm stride destination s t out) (moves : ProducerMoves t t') :
    Processed g pcm stride destination s t' out := by
  cases processed with
  | idle released => exact .idle (moves.released.trans released)
  | played released portioned =>
      refine .played (moves.released.trans released) fun coherent => ?_
      obtain ⟨frame, is, octets⟩ := portioned (coherent.mono moves.committed.length_le)
      refine ⟨frame, ?_, octets⟩
      obtain ⟨rest, longer⟩ := moves.committed
      rw [← longer, List.getElem?_append_left (List.getElem?_eq_some_iff.mp is).1, is]

section Contract

variable {park : Shared → Prop} {destination : Option Nat}

/-- The held frame, for as long as it is held and after. -/
theorem held_frame {frame : FrameLease} {t : Shared} (held : Held g frame s) (inv : RingInv g s)
    (longer : s.committed <+: t.committed) (coherent : Coherent g t.committed.length) :
    t.committed[s.released]? = some ⟨frame.descriptor,
      s.memory.read frame.payload.offset frame.payload.len⟩ := by
  have is := held.payload_eq inv (coherent.mono longer.length_le)
  obtain ⟨rest, longerBy⟩ := longer
  rw [← longerBy, List.getElem?_append_left held.nonempty, is]

theorem consumer_copyFrame {frame : FrameLease} (length : Nat) (held : Held g frame s)
    (inv : RingInv g s) :
    (consumer g park).Holds (fun octets t => s.committed <+: t.committed ∧
        t.released = s.released + 1 ∧
        (Coherent g t.committed.length → ∃ f, t.committed[s.released]? = some f ∧
          octets = portion pcm f (some length)))
      (copyFrame pcm length frame) s := by
  unfold copyFrame
  by_cases negotiated : Negotiated pcm frame.descriptor
  · rw [if_pos negotiated]
    apply consumer_load (fun t => t.memory.read frame.payload.offset
      (min length frame.payload.len)) rfl (fun _ => rfl)
    intro t₁ moved₁ inv₁
    have held₁ := held.moved moved₁
    apply (consumer_drop held₁).bind
    rintro _ t₂ _ ⟨committed₂, released₂, -⟩
    apply Contract.Holds.of_ret
    intro t₃ moved₃ _
    have longer := committed₂.trans moved₃.committed
    rw [moved₁.released] at released₂
    refine ⟨moved₁.committed.trans longer, moved₃.released.trans released₂, fun coherent => ?_⟩
    have is := held_frame held₁ inv₁ longer coherent
    rw [moved₁.released] at is
    refine ⟨_, is, ?_⟩
    unfold portion
    rw [if_pos negotiated, Option.getD_some, ← Memory.take_read (Nat.min_le_right _ _),
      List.take_eq_take_iff]
    simp
  · rw [if_neg negotiated]
    apply (consumer_drop held).bind
    rintro _ t₁ _ ⟨committed₁, released₁, -⟩
    apply Contract.Holds.of_ret
    intro t₂ moved₂ _
    have longer := committed₁.trans moved₂.committed
    refine ⟨longer, moved₂.released.trans released₁, fun coherent => ?_⟩
    refine ⟨_, held_frame held inv longer coherent, ?_⟩
    unfold portion
    rw [if_neg negotiated]

theorem consumer_process :
    (consumer g park).Holds (fun out t => s.committed <+: t.committed ∧
        Processed g pcm stride destination s t out)
      (process pcm stride destination) s := by
  unfold process
  apply consumer_tryAcquire.bind
  rintro result t₁ inv₁ ⟨moved₁, found⟩
  match destination, result, found with
  | some length, .ok (some frame), held =>
      apply (consumer_copyFrame length held inv₁).bind
      rintro octets t₂ _ ⟨longer₂, released₂, portioned⟩
      apply Contract.Holds.of_ret
      intro t₃ moved₃ _
      rw [moved₁.released] at released₂ portioned
      have processed : Processed g pcm stride (some length) s t₂ (Chunk.of stride octets, true) :=
        .played released₂ portioned
      exact ⟨moved₁.committed.trans (longer₂.trans moved₃.committed), processed.moved moved₃⟩
  | none, .ok (some frame), held =>
      apply (consumer_drop held).bind
      rintro _ t₂ _ ⟨longer₂, released₂, -⟩
      apply Contract.Holds.of_ret
      intro t₃ moved₃ _
      have longer := longer₂.trans moved₃.committed
      rw [moved₁.released] at released₂
      refine ⟨moved₁.committed.trans longer, .played (moved₃.released.trans released₂) ?_⟩
      intro coherent
      have is := held_frame held inv₁ longer coherent
      rw [moved₁.released] at is
      refine ⟨_, is, ?_⟩
      unfold portion
      rw [Option.getD_none, List.take_zero, ite_self]
  | some length, .ok none, _ | some length, .error _, _ | none, .ok none, _ | none, .error _, _ =>
      apply Contract.Holds.of_ret
      intro t₂ moved₂ _
      exact ⟨moved₁.committed.trans moved₂.committed,
        .idle (moved₂.released.trans moved₁.released)⟩

end Contract

/-! ### A source that keeps an account -/

/-- One call: the buffer it was given, the chunk it filled in, and whether it took a
frame. -/
structure Call where
  destination : Option Nat
  chunk : Chunk
  took : Bool
deriving DecidableEq, Repr

/-- The calls of a run against the frames they took. -/
inductive Plays (pcm : PcmConfiguration) (stride : Nat) : List Frame → List Call → Prop where
  | nothing : Plays pcm stride [] []
  | idle {frames : List Frame} {calls : List Call} (destination : Option Nat) :
      Plays pcm stride frames calls →
      Plays pcm stride frames (calls ++ [⟨destination, Chunk.of stride [], false⟩])
  | played {frames : List Frame} {calls : List Call} (frame : Frame) (destination : Option Nat) :
      Plays pcm stride frames calls →
      Plays pcm stride (frames ++ [frame])
        (calls ++ [⟨destination, Chunk.of stride (portion pcm frame destination), true⟩])

/-- A call and its entry. -/
def recorded (pcm : PcmConfiguration) (stride : Nat) (calls : List Call)
    (destination : Option Nat) : DataPlane.Ring (List Call) := do
  let (chunk, took) ← process pcm stride destination
  return calls ++ [⟨destination, chunk, took⟩]

/-- PipeWire calls `process` again and again, with whatever buffer. A call without a
buffer or without a data plane returns at once. -/
inductive Menu (pcm : PcmConfiguration) (stride : Nat) :
    List Call → DataPlane.Ring (List Call) → Prop where
  | process {calls} (destination) : Menu pcm stride calls (recorded pcm stride calls destination)
  | without {calls} : Menu pcm stride calls (.ret calls)

/-- A state that a producer's client and the source can reach over a new ring. -/
def Reaches (ring : RingPair) (payloadCapacity : UInt32) (pcm : PcmConfiguration) (stride : Nat)
    (faults : Nat → Option ErrorKind)
    (c : Pair Access Access.Reply ProducerAt (List Call) Shared) : Prop :=
  Relation.ReflTransGen (PairStep exec (ProducerMenu ring.mapLen payloadCapacity.toNat)
    (Menu pcm stride)) ⟨.ret (.idle []), .ret [], ring.shared faults⟩ c

/-- What holds of the source between two calls. -/
def Rests (g : Geometry) (pcm : PcmConfiguration) (stride : Nat) (calls : List Call)
    (s : Shared) : Prop :=
  Coherent g s.committed.length → Plays pcm stride (s.committed.take s.released) calls

theorem Rests.moved {calls : List Call} (rests : Rests g pcm stride calls s) (inv : RingInv g s)
    (moves : ProducerMoves s s') : Rests g pcm stride calls s' := by
  intro coherent
  rw [moves.released, take_of_prefix moves.committed inv.released_le]
  exact rests (coherent.mono moves.committed.length_le)

theorem consumer_rests {calls : List Call} {park : Shared → Prop} (inv : RingInv g s)
    (rests : Rests g pcm stride calls s) :
    (consumer g park).Holds (Rests g pcm stride) (.ret calls) s :=
  .of_ret fun _ moves _ => rests.moved inv moves

theorem Rests.processed {calls : List Call} {destination : Option Nat} {out : Chunk × Bool}
    (rests : Rests g pcm stride calls s) (inv : RingInv g s) (longer : s.committed <+: s'.committed)
    (processed : Processed g pcm stride destination s s' out) :
    Rests g pcm stride (calls ++ [⟨destination, out.1, out.2⟩]) s' := by
  intro coherent
  have before := rests (coherent.mono longer.length_le)
  rw [← take_of_prefix longer inv.released_le] at before
  cases processed with
  | idle released =>
      rw [released]
      exact before.idle destination
  | played released portioned =>
      obtain ⟨frame, is, rfl⟩ := portioned coherent
      rw [released, List.take_add_one, is]
      exact before.played frame destination

theorem consumer_offers {calls : List Call} {p : DataPlane.Ring (List Call)}
    {park : Shared → Prop} (inv : RingInv g s) (rests : Rests g pcm stride calls s)
    (offered : Menu pcm stride calls p) :
    (consumer g park).Holds (Rests g pcm stride) p s := by
  cases offered with
  | process destination =>
      unfold recorded
      apply consumer_process.bind
      rintro out t inv' ⟨longer, processed⟩
      exact consumer_rests inv' (rests.processed inv longer processed)
  | without => exact consumer_rests inv rests

theorem reaches_contracts {sys : SystemCalls} {slotCount payloadCapacity : UInt32}
    {ring : RingPair} (created : RingPair.create 64 sys slotCount payloadCapacity = .ok ring)
    {faults : Nat → Option ErrorKind} {c : Pair Access Access.Reply ProducerAt (List Call) Shared}
    (reached : Reaches ring payloadCapacity pcm stride faults c) :
    ∃ g : Geometry, g.slotCount = slotCount ∧ g.payloadCapacity = payloadCapacity ∧
      RingInv g c.shared ∧
      (consumer g fun _ => True).Holds (Rests g pcm stride) c.right c.shared := by
  obtain ⟨g, count, rfl, mapLen, memory⟩ := RingPair.create_geometry created
  have inv₀ := RingPair.ringInv faults memory
  have left₀ : (producer g anyLabel).Holds (ProducerRests g) (.ret (.idle []))
      (ring.shared faults) := producer_rests ⟨rfl, rfl⟩
  have right₀ : (consumer g fun _ => True).Holds (Rests g pcm stride) (.ret [])
      (ring.shared faults) := consumer_rests inv₀ fun _ => .nothing
  unfold Reaches at reached
  rw [mapLen] at reached
  have kept := ring_contracts (fun _ _ _ _ rests offered => producer_offers rests offered)
    (fun _ _ _ inv rests offered => consumer_offers inv rests offered) reached inv₀ left₀ right₀
  exact ⟨g, count, rfl, kept.1, kept.2.2⟩

/-! ### Continuity -/

/-- Every call that took a frame had room for all of it. -/
def Roomy (frames : List Frame) (calls : List Call) : Prop :=
  ∀ taken ∈ frames.zip (calls.filter (·.took)),
    taken.1.payload.length ≤ taken.2.destination.getD 0

theorem Plays.taken {frames : List Frame} {calls : List Call}
    (plays : Plays pcm stride frames calls) :
    (calls.filter (·.took)).length = frames.length := by
  induction plays with
  | nothing => rfl
  | idle destination _ ih => simpa using ih
  | played frame destination _ ih => simpa using ih

/-- The last frame goes with the last call that took one. -/
theorem roomy_append {frames : List Frame} {calls : List Call} {frame : Frame} {call : Call}
    (plays : Plays pcm stride frames calls) (took : call.took = true)
    (roomy : Roomy (frames ++ [frame]) (calls ++ [call])) :
    Roomy frames calls ∧ frame.payload.length ≤ call.destination.getD 0 := by
  unfold Roomy at roomy
  rw [List.filter_append, List.filter_singleton, took, cond_true,
    List.zip_append plays.taken.symm] at roomy
  constructor
  · intro taken mem
    exact roomy taken (List.mem_append_left _ mem)
  · exact roomy (frame, call) (List.mem_append_right _ (by simp))

theorem roomy_idle {frames : List Frame} {calls : List Call} {call : Call}
    (took : call.took = false) (roomy : Roomy frames (calls ++ [call])) : Roomy frames calls := by
  unfold Roomy at roomy ⊢
  rw [List.filter_append, List.filter_singleton, took, cond_false, List.append_nil] at roomy
  exact roomy

/-- Frames that nobody took yet make no difference. -/
theorem roomy_taken {frames later : List Frame} {calls : List Call}
    (plays : Plays pcm stride frames calls) (roomy : Roomy (frames ++ later) calls) :
    Roomy frames calls := by
  intro taken mem
  apply roomy taken
  rw [← List.append_nil (calls.filter (·.took)), List.zip_append plays.taken.symm]
  exact List.mem_append_left _ mem

/-- A frame in the negotiated format is handed over whole if there is room. -/
theorem portion_eq {frame : Frame} {destination : Option Nat}
    (negotiated : Negotiated pcm frame.descriptor)
    (room : frame.payload.length ≤ destination.getD 0) :
    portion pcm frame destination = frame.payload := by
  unfold portion
  rw [if_pos negotiated, List.take_of_length_le room]

/-- Frames in the negotiated format, handed over whole, make one stream. -/
theorem Plays.continuous {frames : List Frame} {calls : List Call}
    (plays : Plays pcm stride frames calls)
    (negotiated : ∀ f ∈ frames, Negotiated pcm f.descriptor) (roomy : Roomy frames calls) :
    calls.flatMap (·.chunk.octets) = frames.flatMap (·.payload) := by
  induction plays with
  | nothing => rfl
  | idle destination _ ih =>
      rw [List.flatMap_append, ih negotiated (roomy_idle rfl roomy)]
      exact List.append_nil _
  | played frame destination plays ih =>
      obtain ⟨before, room⟩ := roomy_append plays rfl roomy
      have whole := portion_eq (negotiated frame List.mem_concat_self) room
      have earlier := ih (fun f mem => negotiated f (List.mem_append_left _ mem)) before
      rw [List.flatMap_append, List.flatMap_append, earlier, whole]
      rfl

/-- Each call handed over nothing or one frame. -/
theorem Plays.chunks {frames : List Frame} {calls : List Call}
    (plays : Plays pcm stride frames calls)
    (negotiated : ∀ f ∈ frames, Negotiated pcm f.descriptor) (roomy : Roomy frames calls) :
    ∀ call ∈ calls, call.chunk = Chunk.of stride [] ∨
      ∃ f ∈ frames, call.chunk = Chunk.of stride f.payload := by
  induction plays with
  | nothing => exact fun call mem => absurd mem List.not_mem_nil
  | idle destination _ ih =>
      intro call mem
      rcases List.mem_append.mp mem with earlier | last
      · exact ih negotiated (roomy_idle rfl roomy) call earlier
      · left
        rw [List.mem_singleton.mp last]
  | played frame destination plays ih =>
      obtain ⟨before, room⟩ := roomy_append plays rfl roomy
      intro call mem
      rcases List.mem_append.mp mem with earlier | last
      · rcases ih (fun f old => negotiated f (List.mem_append_left _ old)) before call earlier with
          empty | ⟨f, old, chunk⟩
        · exact .inl empty
        · exact .inr ⟨f, List.mem_append_left _ old, chunk⟩
      · right
        refine ⟨frame, List.mem_concat_self, ?_⟩
        rw [List.mem_singleton.mp last, portion_eq (negotiated frame List.mem_concat_self) room]

theorem bytesPerFrame_eq (layout : bytesPerFrame pcm = .ok stride) :
    stride = (pcm.bitsPerSample / 8).toNat * pcm.channels.toNat := by
  unfold bytesPerFrame at layout
  simp only [bind_eq_ok, ensure_eq_ok, exists_const] at layout
  exact (Except.ok.inj layout.2).symm

/-- A chunk of whole PCM frames. -/
def Chunk.Whole (stride : Nat) (chunk : Chunk) : Prop :=
  chunk.offset = 0 ∧ chunk.stride = stride ∧ chunk.size.toNat = chunk.octets.length ∧
    stride ∣ chunk.size.toNat

theorem whole_of {octets : List UInt8} (whole : stride ∣ octets.length)
    (small : octets.length < 2 ^ 32) : (Chunk.of stride octets).Whole stride := by
  have size : (Chunk.of stride octets).size.toNat = octets.length :=
    UInt32.toNat_ofNat_of_lt' small
  refine ⟨rfl, rfl, size, ?_⟩
  rwa [size]

/-- The octets handed to PipeWire are one stream, and every chunk is whole PCM
frames, as long as every call that takes a frame is given a mapped buffer with
room for all of it. -/
theorem source_continuous {sys : SystemCalls} {slotCount payloadCapacity : UInt32}
    {ring : RingPair} (created : RingPair.create 64 sys slotCount payloadCapacity = .ok ring)
    (layout : bytesPerFrame pcm = .ok stride) {faults : Nat → Option ErrorKind}
    {c : Pair Access Access.Reply ProducerAt (List Call) Shared}
    (reached : Reaches ring payloadCapacity pcm stride faults c)
    (counted : c.shared.committed.length < 2 ^ 64 ∨ slotCount.toNat ∣ 2 ^ 64)
    (negotiated : ∀ f ∈ c.shared.committed, Negotiated pcm f.descriptor)
    (whole : ∀ f ∈ c.shared.committed,
      (pcm.bitsPerSample / 8).toNat * pcm.channels.toNat ∣ f.payload.length)
    (calls : List Call) (between : c.right = .ret calls) (roomy : Roomy c.shared.committed calls) :
    calls.flatMap (·.chunk.octets) <+: c.shared.committed.flatMap (·.payload) ∧
      ∀ call ∈ calls, call.chunk.Whole stride := by
  obtain ⟨g, rfl, rfl, inv, right⟩ := reaches_contracts created reached
  rw [between] at right
  have coherent : Coherent g c.shared.committed.length := by
    rcases counted with few | dvd
    · exact coherent_of_lt few
    · exact coherent_of_dvd dvd
  have plays := right.ret inv coherent
  rw [← List.take_append_drop c.shared.released c.shared.committed] at roomy
  have roomy' := roomy_taken plays roomy
  have taken (f : Frame) (mem : f ∈ c.shared.committed.take c.shared.released) :
      f ∈ c.shared.committed := List.mem_of_mem_take mem
  constructor
  · rw [plays.continuous (fun f mem => negotiated f (taken f mem)) roomy']
    exact List.IsPrefix.flatMap (List.take_prefix _ _) _
  · intro call mem
    rcases plays.chunks (fun f mem => negotiated f (taken f mem)) roomy' call mem with
      empty | ⟨f, old, chunk⟩
    · rw [empty]
      exact whole_of (dvd_zero _) (by decide)
    · rw [chunk]
      refine whole_of ?_ ?_
      · rw [bytesPerFrame_eq layout]
        exact whole f (taken f old)
      · rw [(inv.wellFormed f (taken f old)).length]
        exact f.descriptor.payloadBytes.toNat_lt

/-- 16 bits, one channel. -/
def sampleFormat : PcmConfiguration := ⟨48000, 16, 1, 10000⟩

def sampleDescriptor (sequence : UInt64) : FrameDescriptor :=
  { FrameDescriptor.new .pcm sequence with
    sampleRateHz := 48000
    channels := 1
    bitsPerSample := 16 }

/-- One call for each of the buffers. -/
def playAll : List (Option Nat) → List Call × Shared → Option (List Call × Shared)
  | [], out => some out
  | destination :: rest, (calls, s) =>
      ((recorded sampleFormat 2 calls destination).run exec s).bind (playAll rest)

/-- Two frames are put into the ring, then the calls are made. -/
def twoFrames (destinations : List (Option Nat)) : Option (ProducerAt × List Call × Shared) :=
  ((ProducerAt.pushCopy [] (sampleDescriptor 0) [1, 2]).run exec
    (sampleRing.shared fun _ => none)).bind fun (p₁, s₁) =>
  match p₁ with
  | .idle given =>
      ((ProducerAt.pushCopy given (sampleDescriptor 1) [3, 4]).run exec s₁).bind fun (p₂, s₂) =>
      (playAll destinations ([], s₂)).map fun out => (p₂, out)
  | _ => none

theorem playAll_reaches {destinations : List (Option Nat)} {calls calls' : List Call}
    {left : DataPlane.Ring ProducerAt} {s t : Shared}
    (reached : Reaches sampleRing 2 sampleFormat 2 (fun _ => none) ⟨left, .ret calls, s⟩)
    (ran : playAll destinations (calls, s) = some (calls', t)) :
    Reaches sampleRing 2 sampleFormat 2 (fun _ => none) ⟨left, .ret calls', t⟩ := by
  induction destinations generalizing calls s with
  | nil =>
      obtain ⟨rfl, rfl⟩ := Prod.mk.inj (Option.some.inj ran)
      exact reached
  | cons destination rest ih =>
      obtain ⟨⟨next, u⟩, called, ran⟩ := Option.bind_eq_some_iff.mp ran
      exact ih (reached.trans (.head (.rightStart (.process destination)) (right_run called))) ran

theorem twoFrames_reaches {destinations : List (Option Nat)} {p : ProducerAt} {calls : List Call}
    {t : Shared} (ran : twoFrames destinations = some (p, calls, t)) :
    Reaches sampleRing 2 sampleFormat 2 (fun _ => none) ⟨.ret p, .ret calls, t⟩ := by
  simp only [twoFrames, Option.bind_eq_some_iff, Prod.exists] at ran
  obtain ⟨p₁, s₁, first, ran⟩ := ran
  cases p₁ with
  | lost => cases ran
  | leased given lease slice image => cases ran
  | idle given =>
      obtain ⟨⟨p₂, s₂⟩, second, ran⟩ := Option.bind_eq_some_iff.mp ran
      obtain ⟨⟨calls', t'⟩, played, same⟩ := Option.map_eq_some_iff.mp ran
      obtain ⟨rfl, rfl, rfl⟩ : p₂ = p ∧ calls' = calls ∧ t' = t := by simpa using same
      refine playAll_reaches ?_ played
      refine .head (.leftStart (.pushCopy _ _)) ((left_run first).trans ?_)
      exact .head (.leftStart (.pushCopy _ _)) (left_run second)

/-- Buffers with room for a frame, one of them larger, and a last call without a
frame. -/
theorem source_continuous_two_frames :
    ∃ (c : Pair Access Access.Reply ProducerAt (List Call) Shared) (calls : List Call),
      Reaches sampleRing 2 sampleFormat 2 (fun _ => none) c ∧ c.right = .ret calls ∧
      calls.flatMap (·.chunk.octets) = [1, 2, 3, 4] ∧
      calls.flatMap (·.chunk.octets) <+: c.shared.committed.flatMap (·.payload) := by
  have outcome : (twoFrames [some 2, some 5, none]).map (fun out => decide
      (out.2.1.flatMap (·.chunk.octets) = [1, 2, 3, 4] ∧ out.2.2.committed.length < 2 ^ 64 ∧
        (∀ f ∈ out.2.2.committed, Negotiated sampleFormat f.descriptor) ∧
        (∀ f ∈ out.2.2.committed, 2 ∣ f.payload.length) ∧
        ∀ taken ∈ out.2.2.committed.zip (out.2.1.filter (·.took)),
          taken.1.payload.length ≤ taken.2.destination.getD 0)) = some true := by
    decide +kernel
  obtain ⟨⟨p, calls, t⟩, ran, checked⟩ := Option.map_eq_some_iff.mp outcome
  obtain ⟨octets, few, negotiated, whole, roomy⟩ := of_decide_eq_true checked
  have reached := twoFrames_reaches ran
  have continuous := source_continuous sampleRing_created rfl reached (.inl few) negotiated whole
    calls rfl roomy
  exact ⟨_, calls, reached, rfl, octets, continuous.1⟩

/-- A first buffer of one octet: the second octet of the first frame is lost, and the
chunk is half a PCM frame. A call without mapped data loses its frame whole. -/
theorem source_not_continuous :
    (∃ (c : Pair Access Access.Reply ProducerAt (List Call) Shared) (calls : List Call),
      Reaches sampleRing 2 sampleFormat 2 (fun _ => none) c ∧ c.right = .ret calls ∧
      c.shared.committed.flatMap (·.payload) = [1, 2, 3, 4] ∧
      (∀ f ∈ c.shared.committed, Negotiated sampleFormat f.descriptor) ∧
      calls.flatMap (·.chunk.octets) = [1, 3, 4] ∧ calls.map (·.chunk.size) = [1, 2]) ∧
    ∃ (c : Pair Access Access.Reply ProducerAt (List Call) Shared) (calls : List Call),
      Reaches sampleRing 2 sampleFormat 2 (fun _ => none) c ∧ c.right = .ret calls ∧
      c.shared.committed.flatMap (·.payload) = [1, 2, 3, 4] ∧
      calls.flatMap (·.chunk.octets) = [3, 4] := by
  constructor
  · have outcome : (twoFrames [some 1, some 2]).map (fun out => decide
        (out.2.2.committed.flatMap (·.payload) = [1, 2, 3, 4] ∧
          (∀ f ∈ out.2.2.committed, Negotiated sampleFormat f.descriptor) ∧
          out.2.1.flatMap (·.chunk.octets) = [1, 3, 4] ∧
          out.2.1.map (·.chunk.size) = [1, 2])) = some true := by
      decide +kernel
    obtain ⟨⟨p, calls, t⟩, ran, checked⟩ := Option.map_eq_some_iff.mp outcome
    exact ⟨_, calls, twoFrames_reaches ran, rfl, of_decide_eq_true checked⟩
  · have outcome : (twoFrames [none, some 2]).map (fun out => decide
        (out.2.2.committed.flatMap (·.payload) = [1, 2, 3, 4] ∧
          out.2.1.flatMap (·.chunk.octets) = [3, 4])) = some true := by
      decide +kernel
    obtain ⟨⟨p, calls, t⟩, ran, checked⟩ := Option.map_eq_some_iff.mp outcome
    exact ⟨_, calls, twoFrames_reaches ran, rfl, of_decide_eq_true checked⟩

end Dorsche.Wireless.PipeWire.Source
