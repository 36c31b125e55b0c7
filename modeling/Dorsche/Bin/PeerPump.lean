import Dorsche.Wireless.PipeWire

/-!
`pump_peer_to_ring` (`src/bin/dorsche_pipewire.rs`): the byte stream of a peer, cut
into frames.

The pump reserves a slot and reads one interval of PCM straight into it. The
stream arrives in pieces, and the future may end at any piece: at the end of the
stream, with a read error, or because it is dropped. `stream i` is the octet at
position `i`, and a control point carries how many octets were consumed. The slot
being read into is known octet by octet (`PumpRests`), so a frame is published
exactly when it is complete.
-/

namespace Dorsche.Bin

open Dorsche.Lib Dorsche.Wireless Dorsche.Wireless.DataPlane

variable {g : Geometry} {s s' : Shared} {pcm : PcmConfiguration} {stream : Nat → UInt8}

/-! ### The pump -/

/-- Octets of the stream. -/
def segment (stream : Nat → UInt8) (start n : Nat) : List UInt8 :=
  (List.range n).map fun i => stream (start + i)

/-- Why the pump ended. -/
inductive PumpEnd where
  | overrun
  | read
  | dropped
  | commit (error : RingError)
deriving DecidableEq, Repr

/-- Where the pump is: at the top of its loop; in `read_exact` with `got` octets of the
slot; or at its end. -/
inductive PumpAt where
  | top (sequence : UInt64) (consumed : Nat)
  | reading (sequence : UInt64) (lease : ProducerLease) (slice : Slice) (got consumed : Nat)
  | ended (reason : PumpEnd) (consumed : Nat)
deriving DecidableEq, Repr

namespace PumpAt

/-- `try_reserve`, and the part of the slot to read into. -/
def reserve (bytes : Nat) (sequence : UInt64) (consumed : Nat) : DataPlane.Ring PumpAt := do
  match ← Producer.tryReserve with
  | none => return .ended .overrun consumed
  | some lease =>
      let slice ← lease.payloadMut
      if slice.len < bytes then
        panicWith "range end index out of range for slice"
      return .reading sequence lease slice 0 consumed

/-- A piece of `k` octets arrives in the slot. -/
def receive (stream : Nat → UInt8) (sequence : UInt64) (lease : ProducerLease) (slice : Slice)
    (got consumed k : Nat) : DataPlane.Ring PumpAt := do
  access (.writePayload (slice.offset + got) (segment stream consumed k))
  return .reading sequence lease slice (got + k) (consumed + k)

/-- The rest of a turn of the loop after `read_exact`. The descriptor is made like
that of the sink. -/
def publish (pcm : PcmConfiguration) (bytes : Nat) (sequence : UInt64) (lease : ProducerLease)
    (consumed : Nat) (captureTimeNs : UInt64) : DataPlane.Ring PumpAt := do
  match ← lease.commit (PipeWire.sinkDescriptor pcm sequence captureTimeNs) bytes with
  | .ok () => return .top (sequence + 1) consumed
  | .error error => return .ended (.commit error) consumed

end PumpAt

/-- What can happen next. -/
inductive PumpMenu (pcm : PcmConfiguration) (bytes : Nat) (stream : Nat → UInt8) :
    PumpAt → DataPlane.Ring PumpAt → Prop where
  | reserve {sequence consumed} :
      PumpMenu pcm bytes stream (.top sequence consumed) (PumpAt.reserve bytes sequence consumed)
  | receive {sequence lease slice got consumed} (k) : 0 < k → got + k ≤ bytes →
      PumpMenu pcm bytes stream (.reading sequence lease slice got consumed)
        (PumpAt.receive stream sequence lease slice got consumed k)
  /-- The stream ends or fails before the slot is filled. -/
  | fail {sequence lease slice got consumed} : got < bytes →
      PumpMenu pcm bytes stream (.reading sequence lease slice got consumed)
        (.ret (.ended .read consumed))
  /-- The future is dropped while it waits. -/
  | drop {sequence lease slice got consumed} : got < bytes →
      PumpMenu pcm bytes stream (.reading sequence lease slice got consumed)
        (.ret (.ended .dropped consumed))
  | publish {sequence lease slice consumed} (captureTimeNs) :
      PumpMenu pcm bytes stream (.reading sequence lease slice bytes consumed)
        (PumpAt.publish pcm bytes sequence lease consumed captureTimeNs)

/-- A state that the pump and a consumer's client can reach over a new ring. The pump
does not start without a whole interval. -/
def PumpReaches (ring : RingPair) (pcm : PcmConfiguration) (stream : Nat → UInt8)
    (faults : Nat → Option ErrorKind) (c : Pair Access Access.Reply PumpAt ConsumerAt Shared) :
    Prop :=
  ∃ bytes, pcm.bytesPerInterval = .ok bytes ∧
    Relation.ReflTransGen (PairStep exec (PumpMenu pcm bytes stream) (ConsumerMenu ring.mapLen))
      ⟨.ret (.top 0 0), .ret .idle, ring.shared faults⟩ c

/-! ### Frames of the stream -/

/-- The frames are the intervals of the stream, numbered from zero. -/
def Framed (pcm : PcmConfiguration) (bytes : Nat) (stream : Nat → UInt8) (frames : List Frame) :
    Prop :=
  ∀ (i : Nat) (f : Frame), frames[i]? = some f → ∃ captureTimeNs,
    f = ⟨ProducerLease.stamped (PipeWire.sinkDescriptor pcm (UInt64.ofNat i) captureTimeNs) bytes,
      segment stream (i * bytes) bytes⟩

theorem framed_nil (bytes : Nat) : Framed pcm bytes stream [] := by
  intro i f is
  cases is

theorem Framed.append {bytes : Nat} {frames : List Frame} (framed : Framed pcm bytes stream frames)
    (captureTimeNs : UInt64) :
    Framed pcm bytes stream (frames ++ [⟨ProducerLease.stamped
      (PipeWire.sinkDescriptor pcm (UInt64.ofNat frames.length) captureTimeNs) bytes,
      segment stream (frames.length * bytes) bytes⟩]) := by
  intro i f is
  rw [List.getElem?_append] at is
  split at is
  · exact framed i f is
  · rename_i late
    rw [List.getElem?_singleton] at is
    split at is
    · obtain rfl : i = frames.length := by omega
      exact ⟨captureTimeNs, (Option.some.inj is).symm⟩
    · cases is

/-- What holds of some frames holds of the first of them. -/
theorem Framed.mono {bytes : Nat} {frames more : List Frame}
    (framed : Framed pcm bytes stream more) (pre : frames <+: more) :
    Framed pcm bytes stream frames := by
  intro i f is
  apply framed i f
  obtain ⟨rest, rfl⟩ := pre
  rw [List.getElem?_append_left (List.getElem?_eq_some_iff.mp is).1, is]

@[simp] theorem length_segment (stream : Nat → UInt8) (start n : Nat) :
    (segment stream start n).length = n := by
  simp [segment]

theorem segment_append (stream : Nat → UInt8) (start a b : Nat) :
    segment stream start a ++ segment stream (start + a) b = segment stream start (a + b) := by
  simp [segment, List.range_add, Nat.add_assoc]

/-! ### The pump between two steps -/

/-- What a pump that has ended has consumed: the intervals it published and, of one that
it was reading into a free slot, a part. -/
def PumpEnd.Consumed (g : Geometry) (bytes : Nat) (s : Shared) (consumed : Nat) : PumpEnd → Prop
  | .overrun | .commit _ => consumed = s.committed.length * bytes
  | .read | .dropped => s.committed.length < s.released + g.slotCount.toNat ∧
      ∃ got < bytes, consumed = s.committed.length * bytes + got

/-- What holds of the pump between two steps. -/
structure PumpRests (g : Geometry) (pcm : PcmConfiguration) (bytes : Nat) (stream : Nat → UInt8)
    (point : PumpAt) (s : Shared) : Prop where
  quiet : s.unsignalled = false
  framed : Framed pcm bytes stream s.committed
  top : ∀ sequence consumed, point = .top sequence consumed →
    sequence = UInt64.ofNat s.committed.length ∧ consumed = s.committed.length * bytes
  reading : ∀ sequence lease slice got consumed,
    point = .reading sequence lease slice got consumed →
    sequence = UInt64.ofNat s.committed.length ∧ consumed = s.committed.length * bytes + got ∧
      Leased g lease s ∧ slice = Leased.slice g s ∧
      s.memory.read (g.payloadAt s.committed.length) got =
        segment stream (s.committed.length * bytes) got
  ended : ∀ reason consumed, point = .ended reason consumed → reason.Consumed g bytes s consumed

theorem PumpEnd.Consumed.moved {bytes consumed : Nat} {reason : PumpEnd}
    (left : reason.Consumed g bytes s consumed) (moves : ConsumerMoves s s') :
    reason.Consumed g bytes s' consumed := by
  unfold Consumed at left ⊢
  rw [moves.committed]
  have released := moves.released
  cases reason with
  | overrun | commit _ => exact left
  | read | dropped => exact ⟨by have := left.1; omega, left.2⟩

theorem PumpRests.moved {bytes : Nat} {point : PumpAt}
    (rests : PumpRests g pcm bytes stream point s) (moves : ConsumerMoves s s') :
    PumpRests g pcm bytes stream point s' where
  quiet := moves.unsignalled.trans rests.quiet
  framed := by
    rw [moves.committed]
    exact rests.framed
  top := by
    rw [moves.committed]
    exact rests.top
  reading := by
    intro sequence lease slice got consumed at_
    obtain ⟨number, count, leased, borrowed, octets⟩ :=
      rests.reading sequence lease slice got consumed at_
    have region : Leased.slice g s' = Leased.slice g s := by
      unfold Leased.slice
      rw [moves.committed]
    rw [region, moves.read_slots (g.header_le_payloadAt _), moves.committed]
    exact ⟨number, count, leased.moved moves, borrowed, octets⟩
  ended reason consumed at_ := (rests.ended reason consumed at_).moved moves

theorem pump_rests {bytes : Nat} {point : PumpAt} (rests : PumpRests g pcm bytes stream point s) :
    (producer g anyLabel).Holds (PumpRests g pcm bytes stream) (.ret point) s :=
  .of_ret fun _ moves _ => rests.moved moves

theorem pumpRests_ended {bytes : Nat} {reason : PumpEnd} {consumed : Nat}
    (quiet : s.unsignalled = false) (framed : Framed pcm bytes stream s.committed)
    (left : reason.Consumed g bytes s consumed) :
    PumpRests g pcm bytes stream (.ended reason consumed) s where
  quiet := quiet
  framed := framed
  top := by rintro _ _ ⟨⟩
  reading := by rintro _ _ _ _ _ ⟨⟩
  ended := by
    rintro _ _ ⟨⟩
    exact left

/-- The pump ends in `read_exact`. -/
theorem PumpRests.interrupted {bytes got consumed : Nat} {sequence : UInt64}
    {lease : ProducerLease} {slice : Slice} {reason : PumpEnd}
    (rests : PumpRests g pcm bytes stream (.reading sequence lease slice got consumed) s)
    (short : got < bytes) (waiting : reason = .read ∨ reason = .dropped) :
    PumpRests g pcm bytes stream (.ended reason consumed) s := by
  obtain ⟨-, count, leased, -, -⟩ := rests.reading _ _ _ _ _ rfl
  apply pumpRests_ended rests.quiet rests.framed
  rcases waiting with rfl | rfl
  · exact ⟨leased.room, got, short, count⟩
  · exact ⟨leased.room, got, short, count⟩

theorem pump_reserve {sequence : UInt64} {consumed : Nat}
    (rests : PumpRests g pcm g.payloadCapacity.toNat stream (.top sequence consumed) s) :
    (producer g anyLabel).Holds (PumpRests g pcm g.payloadCapacity.toNat stream)
      (PumpAt.reserve g.payloadCapacity.toNat sequence consumed) s := by
  obtain ⟨number, count⟩ := rests.top sequence consumed rfl
  unfold PumpAt.reserve
  apply (producer_tryReserve rests.quiet).bind
  rintro lease t₁ _ ⟨committed₁, quiet₁, -, -, outcome⟩
  have framed₁ : Framed pcm g.payloadCapacity.toNat stream t₁.committed := by
    rw [committed₁]
    exact rests.framed
  cases lease with
  | none =>
      apply pump_rests
      apply pumpRests_ended quiet₁ framed₁
      change consumed = t₁.committed.length * g.payloadCapacity.toNat
      rw [committed₁]
      exact count
  | some lease =>
      apply (producer_payloadMut outcome.2).bind
      rintro slice t₂ _ ⟨borrowed, moved₂⟩
      subst borrowed
      have room : ¬ (Leased.slice g t₁).len < g.payloadCapacity.toNat := Nat.lt_irrefl _
      simp only [room, if_false]
      apply pump_rests
      refine ⟨moved₂.unsignalled.trans quiet₁, moved₂.committed ▸ framed₁, by rintro _ _ ⟨⟩, ?_,
        by rintro _ _ ⟨⟩⟩
      rintro _ _ _ _ _ ⟨⟩
      rw [moved₂.committed, committed₁]
      refine ⟨number, count, outcome.2.moved moved₂, ?_, rfl⟩
      unfold Leased.slice
      rw [moved₂.committed]

theorem pump_receive {sequence : UInt64} {lease : ProducerLease} {slice : Slice}
    {got consumed k : Nat} (rests : PumpRests g pcm g.payloadCapacity.toNat stream
      (.reading sequence lease slice got consumed) s)
    (inside : got + k ≤ g.payloadCapacity.toNat) :
    (producer g anyLabel).Holds (PumpRests g pcm g.payloadCapacity.toNat stream)
      (PumpAt.receive stream sequence lease slice got consumed k) s := by
  obtain ⟨number, count, leased, rfl, octets⟩ := rests.reading _ _ _ _ _ rfl
  unfold PumpAt.receive
  simp only [access, Prog.perform_bind]
  have place : (Leased.slice g s).offset = g.payloadAt s.committed.length := rfl
  rw [place]
  apply producer_writePayload leased (Nat.le_add_right _ _) (by rw [length_segment]; omega)
  intro t leased' committed' _ _ _ memory'
  apply pump_rests
  refine ⟨leased'.quiet, committed' ▸ rests.framed, by rintro _ _ ⟨⟩, ?_, by rintro _ _ ⟨⟩⟩
  rintro _ _ _ _ _ ⟨⟩
  rw [committed']
  refine ⟨number, by omega, leased', ?_, ?_⟩
  · unfold Leased.slice
    rw [committed']
  · -- what was there before, and the piece behind it
    have written : t.memory.read (g.payloadAt s.committed.length) (got + k) =
        (s.memory.write (g.payloadAt s.committed.length + got)
          (segment stream consumed k)).read (g.payloadAt s.committed.length) (got + k) :=
      Memory.read_congr fun o low _ => memory' o ((g.header_le_payloadAt _).trans low)
    rw [written, Memory.read_append, Memory.read_write_of_disjoint (.inl le_rfl),
      Memory.read_write_self (length_segment _ _ _), octets, count, segment_append]

theorem pump_publish {sequence : UInt64} {lease : ProducerLease} {slice : Slice} {consumed : Nat}
    (rests : PumpRests g pcm g.payloadCapacity.toNat stream
      (.reading sequence lease slice g.payloadCapacity.toNat consumed) s)
    (captureTimeNs : UInt64) :
    (producer g anyLabel).Holds (PumpRests g pcm g.payloadCapacity.toNat stream)
      (PumpAt.publish pcm g.payloadCapacity.toNat sequence lease consumed captureTimeNs) s := by
  obtain ⟨number, count, leased, -, octets⟩ := rests.reading _ _ _ _ _ rfl
  unfold PumpAt.publish
  apply (producer_commit leased _ g.payloadCapacity.toNat fun _ _ _ _ => trivial).bind
  rintro result t _ ⟨quiet, -, -, -, outcome⟩
  cases outcome with
  | rejected large _ => exact absurd large (Nat.lt_irrefl _)
  | published _ committed _ signalled =>
      rw [octets, number] at committed
      have framed : Framed pcm g.payloadCapacity.toNat stream t.committed := by
        rw [committed]
        exact rests.framed.append captureTimeNs
      have count' : consumed = t.committed.length * g.payloadCapacity.toNat := by
        rw [committed, List.length_append, List.length_singleton, Nat.add_mul, Nat.one_mul]
        exact count
      cases signalled with
      | failed _ => exact pump_rests (pumpRests_ended quiet framed count')
      | ok _ =>
          apply pump_rests
          refine ⟨quiet, framed, ?_, by rintro _ _ _ _ _ ⟨⟩, by rintro _ _ ⟨⟩⟩
          rintro _ _ ⟨⟩
          refine ⟨?_, count'⟩
          rw [committed, List.length_append, List.length_singleton, ← ofNat_add_one, number]

theorem pump_offers {point : PumpAt} {p : DataPlane.Ring PumpAt}
    (rests : PumpRests g pcm g.payloadCapacity.toNat stream point s)
    (offered : PumpMenu pcm g.payloadCapacity.toNat stream point p) :
    (producer g anyLabel).Holds (PumpRests g pcm g.payloadCapacity.toNat stream) p s := by
  cases offered with
  | reserve => exact pump_reserve rests
  | receive k _ inside => exact pump_receive rests inside
  | fail short => exact pump_rests (rests.interrupted short (.inl rfl))
  | drop short => exact pump_rests (rests.interrupted short (.inr rfl))
  | publish captureTimeNs => exact pump_publish rests captureTimeNs

/-! ### Every interleaving -/

theorem pump_contracts {sys : SystemCalls} {slotCount payloadCapacity : UInt32} {ring : RingPair}
    (created : RingPair.create 64 sys slotCount payloadCapacity = .ok ring)
    (interval : pcm.bytesPerInterval = .ok payloadCapacity.toNat)
    {faults : Nat → Option ErrorKind} {c : Pair Access Access.Reply PumpAt ConsumerAt Shared}
    (reached : PumpReaches ring pcm stream faults c) :
    ∃ g : Geometry, g.payloadCapacity = payloadCapacity ∧ RingInv g c.shared ∧
      (producer g anyLabel).Holds (PumpRests g pcm payloadCapacity.toNat stream)
        c.left c.shared := by
  obtain ⟨g, -, rfl, mapLen, memory⟩ := RingPair.create_geometry created
  obtain ⟨bytes, same, reached⟩ := reached
  obtain rfl := Except.ok.inj (interval.symm.trans same)
  have rests₀ : PumpRests g pcm g.payloadCapacity.toNat stream (.top 0 0) (ring.shared faults) := by
    refine ⟨rfl, framed_nil _, ?_, by rintro _ _ _ _ _ ⟨⟩, by rintro _ _ ⟨⟩⟩
    rintro _ _ ⟨⟩
    exact ⟨rfl, (Nat.zero_mul _).symm⟩
  rw [mapLen] at reached
  have kept := RingPair.client_contracts memory
    (fun _ _ _ _ rests offered => pump_offers rests offered) (pump_rests rests₀) reached
  exact ⟨g, rfl, kept.1, kept.2.1⟩

/-- The pump cuts the stream into intervals. However the stream is delivered, wherever
it ends and whatever the consumer does, in every state the published frames are
the first intervals of the stream, numbered from zero and complete; and a pump that
ended because the ring was full has consumed exactly those. -/
theorem pump_reframes {sys : SystemCalls} {slotCount payloadCapacity : UInt32} {ring : RingPair}
    (created : RingPair.create 64 sys slotCount payloadCapacity = .ok ring)
    (interval : pcm.bytesPerInterval = .ok payloadCapacity.toNat)
    {faults : Nat → Option ErrorKind} {c : Pair Access Access.Reply PumpAt ConsumerAt Shared}
    (reached : PumpReaches ring pcm stream faults c) :
    Framed pcm payloadCapacity.toNat stream c.shared.committed ∧
      ∀ consumed, c.left = .ret (.ended .overrun consumed) →
        consumed = c.shared.committed.length * payloadCapacity.toNat := by
  obtain ⟨g, rfl, inv, left⟩ := pump_contracts created interval reached
  constructor
  · -- a step under way comes to its end, and what is published then was so before
    obtain ⟨point, t, -, -, rests, moves⟩ := left.run inv fun _ _ safe => safe.runs
    exact rests.framed.mono (ProducerMoves.of_reflTransGen moves).committed
  · intro consumed ended
    rw [ended] at left
    exact (left.ret inv).ended .overrun consumed rfl

/-- An interval of one frame of two octets. -/
def samplePcm : PcmConfiguration := ⟨8000, 16, 1, 125⟩

/-- The octets 0, 1, 2 and so on. -/
def sampleStream (i : Nat) : UInt8 := UInt8.ofNat i

/-- The pump on the sample stream, which arrives octet by octet. -/
def drive : PumpAt → Option (DataPlane.Ring PumpAt)
  | .top sequence consumed => some (PumpAt.reserve 2 sequence consumed)
  | .reading sequence lease slice 0 consumed =>
      some (PumpAt.receive sampleStream sequence lease slice 0 consumed 1)
  | .reading sequence lease slice 1 consumed =>
      some (PumpAt.receive sampleStream sequence lease slice 1 consumed 1)
  | .reading sequence lease _ 2 consumed =>
      some (PumpAt.publish samplePcm 2 sequence lease consumed 0)
  | _ => none

theorem drive_offered {point : PumpAt} {p : DataPlane.Ring PumpAt} (driven : drive point = some p) :
    PumpMenu samplePcm 2 sampleStream point p := by
  unfold drive at driven
  split at driven
  · rw [← Option.some.inj driven]
    exact .reserve
  · rw [← Option.some.inj driven]
    exact .receive 1 (by decide) (by decide)
  · rw [← Option.some.inj driven]
    exact .receive 1 (by decide) (by decide)
  · rw [← Option.some.inj driven]
    exact .publish 0
  · cases driven

def driveAll : Nat → PumpAt × Shared → Option (PumpAt × Shared)
  | 0, out => some out
  | steps + 1, (point, s) =>
      (drive point).bind fun p => (p.run exec s).bind (driveAll steps)

theorem driveAll_reaches {steps : Nat} {point point' : PumpAt} {right : DataPlane.Ring ConsumerAt}
    {t : Shared} (ran : driveAll steps (point, s) = some (point', t)) :
    Relation.ReflTransGen
      (PairStep exec (PumpMenu samplePcm 2 sampleStream) (ConsumerMenu sampleRing.mapLen))
      ⟨.ret point, right, s⟩ ⟨.ret point', right, t⟩ := by
  induction steps generalizing point s with
  | zero =>
      obtain ⟨rfl, rfl⟩ := Prod.mk.inj (Option.some.inj ran)
      exact .refl
  | succ steps ih =>
      obtain ⟨p, driven, ran⟩ := Option.bind_eq_some_iff.mp ran
      obtain ⟨⟨next, u⟩, stepped, ran⟩ := Option.bind_eq_some_iff.mp ran
      exact .head (.leftStart (drive_offered driven)) ((left_run stepped).trans (ih ran))

/-- Nobody consumes: after two frames the ring is full, and four octets are consumed. -/
theorem pump_reframes_until_full :
    ∃ c, PumpReaches sampleRing samplePcm sampleStream (fun _ => none) c ∧
      c.left = .ret (.ended .overrun 4) ∧
      c.shared.committed.map (·.payload) = [[0, 1], [2, 3]] ∧
      Framed samplePcm 2 sampleStream c.shared.committed ∧
      4 = c.shared.committed.length * 2 := by
  have outcome : (driveAll 9 (.top 0 0, sampleRing.shared fun _ => none)).map
      (fun out => (out.1, out.2.committed.map (·.payload))) =
      some (.ended .overrun 4, [[0, 1], [2, 3]]) := by
    decide +kernel
  obtain ⟨⟨point, t⟩, ran, seen⟩ := Option.map_eq_some_iff.mp outcome
  obtain ⟨rfl, payloads⟩ := Prod.mk.inj seen
  have reached : PumpReaches sampleRing samplePcm sampleStream (fun _ => none)
      ⟨.ret (.ended .overrun 4), .ret .idle, t⟩ := ⟨2, rfl, driveAll_reaches ran⟩
  have reframed := pump_reframes sampleRing_created rfl reached
  exact ⟨_, reached, rfl, payloads, reframed.1, reframed.2 4 rfl⟩

end Dorsche.Bin
