import Dorsche.Bin.FlossLeAudioSmoke.Samples
import Dorsche.Wireless.DataPlane.SlotBounds

/-!
The loop of `capture_peer` (`src/bin/floss_le_audio_smoke.rs`) over its own ring.

Both ends of the ring are in one task: every turn reserves a slot, reads an interval of
the peer's stream into it, commits it and acquires it again. `Idle` is the ring between
two turns and `Filled` the ring between `commit` and the drop of the lease; in between
nothing else moves a cursor, so the ring never holds more than one frame.
-/

namespace Dorsche.Bin.FlossLeAudioSmoke.Capture

open Dorsche.Lib Dorsche.Wireless Dorsche.Wireless.DataPlane

/-! ### The loop -/

/-- What the loop meets outside: the octets of the peer and the error its stream ends
with, the clock, and the file of `--capture`. -/
structure Surroundings where
  stream : List UInt8
  streamError : String
  monotonicTimeNs : Nat → UInt64
  /-- The result of the `write_all` of each interval. -/
  capture : Option (Nat → Result Unit)

/-- The errors that end the loop. -/
inductive CaptureError where
  /-- "LE Audio capture ring overrun" -/
  | overrun
  /-- "read LE Audio peer PCM" -/
  | read (cause : String)
  | commit (error : RingError)
  | acquire (error : RingError)
  /-- "published LE Audio frame was not visible" -/
  | invisible
  | write (error : String)
  | decode (error : String)
deriving DecidableEq, Repr

/-- What a turn did with the ring. -/
structure Turn where
  /-- `try_reserve` returned a slot. -/
  reserved : Bool
  /-- The frame of a `commit` that returned `Ok`. -/
  committed : Option Frame
  /-- What the `try_acquire` behind it returned. -/
  acquired : Option (Except RingError (Option Frame))
deriving DecidableEq, Repr

/-- What is done with the payload of a lease: the file first, then the level. -/
def examine (pcm : PcmConfiguration) (written : Result Unit) (payload : List UInt8) :
    DataPlane.Ring (Except CaptureError Unit) :=
  match written with
  | .error e => return .error (.write e)
  | .ok () =>
      match Samples.decodeSamples payload pcm.bitsPerSample with
      | none => do
          panicWith "chunk size must be non-zero"
          return .ok ()
      | some items =>
          match Samples.firstError items with
          | .error e => return .error (.decode e)
          | .ok () => return .ok ()

/-- A turn behind its `commit`. The lease is dropped however the turn ends. -/
def consume (pcm : PcmConfiguration) (written : Result Unit) (frame : Frame) :
    DataPlane.Ring (Turn × Except CaptureError Unit) := do
  match ← Consumer.tryAcquire with
  | .error e => return (⟨true, frame, some (.error e)⟩, .error (.acquire e))
  | .ok none => return (⟨true, frame, some (.ok none)⟩, .error .invisible)
  | .ok (some lease) =>
      let payload ← access (.readPayload lease.payload.offset lease.payload.len)
      let examined ← examine pcm written payload
      lease.drop
      return (⟨true, frame, some (.ok (some ⟨lease.descriptor, payload⟩))⟩, examined)

/-- One turn, with what is left of the stream. -/
def turn (pcm : PcmConfiguration) (bytesPerInterval : Nat) (around : Surroundings)
    (sequence : Nat) (stream : List UInt8) :
    DataPlane.Ring (Turn × Except CaptureError (List UInt8)) := do
  match ← Producer.tryReserve with
  | none => return (⟨false, none, none⟩, .error .overrun)
  | some slot =>
      let slice ← slot.payloadMut
      if slice.len < bytesPerInterval then
        panicWith "range end index out of range for slice"
      let arrived := stream.take bytesPerInterval
      access (.writePayload slice.offset arrived)
      if arrived.length < bytesPerInterval then
        return (⟨true, none, none⟩, .error (.read around.streamError))
      let descriptor := PipeWire.sinkDescriptor pcm (UInt64.ofNat sequence)
        (around.monotonicTimeNs sequence)
      match ← slot.commit descriptor bytesPerInterval with
      | .error e => return (⟨true, none, none⟩, .error (.commit e))
      | .ok () =>
          let written := around.capture.elim (.ok ()) fun file => file sequence
          let (turn, examined) ← consume pcm written
            ⟨ProducerLease.stamped descriptor bytesPerInterval, arrived⟩
          return (turn, examined.map fun () => stream.drop bytesPerInterval)

/-- The loop from a sequence number on. -/
def loop (pcm : PcmConfiguration) (bytesPerInterval : Nat) (around : Surroundings) :
    Nat → Nat → List UInt8 → DataPlane.Ring (List Turn × Except CaptureError Unit)
  | 0, _, _ => return ([], .ok ())
  | intervals + 1, sequence, stream => do
      match ← turn pcm bytesPerInterval around sequence stream with
      | (turn, .error e) => return ([turn], .error e)
      | (turn, .ok stream) =>
          let (turns, result) ← loop pcm bytesPerInterval around intervals (sequence + 1) stream
          return (turn :: turns, result)

/-! ### The ring between two turns -/

variable {g : Geometry} {cursor : UInt64} {m : Memory} {s : Shared} {frame : Frame}

/-- The slot of a cursor. -/
def place (g : Geometry) (cursor : UInt64) : Nat := slotOffset 64 g.slotCount g.slotStride cursor

theorem header_le_place (g : Geometry) (cursor : UInt64) : ringHeaderSize ≤ place g cursor := by
  rw [place, slotOffset_eq g.slotCount_pos]
  exact Nat.le_add_right _ _

/-- No frame is in the ring, and none was refused. -/
structure Idle (g : Geometry) (cursor : UInt64) (m : Memory) : Prop where
  shaped : Shaped g m
  head : m.u64 headOffset = cursor
  tail : m.u64 tailOffset = cursor
  dropped : m.u64 droppedOffset = 0

/-- One frame is in the ring, and none was refused. -/
structure Filled (g : Geometry) (cursor : UInt64) (frame : Frame) (m : Memory) : Prop where
  shaped : Shaped g m
  head : m.u64 headOffset = cursor + 1
  tail : m.u64 tailOffset = cursor
  dropped : m.u64 droppedOffset = 0
  descriptor : .decode (m.read (place g cursor) FrameDescriptor.sizeOf) = frame.descriptor
  payload : m.read (place g cursor + FrameDescriptor.sizeOf) frame.payload.length = frame.payload

theorem slotCount_ne_zero (shaped : Shaped g m) : m.u32 slotCountOffset ≠ 0 := by
  rw [shaped.slotCount]
  intro zero
  have two := g.two_le_slotCount
  rw [zero] at two
  exact absurd two (by decide)

theorem Idle.write (idle : Idle g cursor m) {off : Nat} (octets : List UInt8)
    (behind : ringHeaderSize ≤ off) : Idle g cursor (m.write off octets) := by
  have same : ∀ o, o < ringHeaderSize → m.write off octets o = m o := fun o below =>
    Memory.write_apply_of_outside (.inl (by omega))
  have word (o : Nat) (inside : o + 8 ≤ ringHeaderSize) :
      (m.write off octets).u64 o = m.u64 o :=
    congrArg UInt64.ofNat (Memory.word_congr fun o' _ upper => same o' (by omega))
  refine ⟨idle.shaped.congr fun o below => same o (below.trans (by decide)), ?_, ?_, ?_⟩
  · rw [word _ (by decide), idle.head]
  · rw [word _ (by decide), idle.tail]
  · rw [word _ (by decide), idle.dropped]

theorem Idle.run_tryReserve (idle : Idle g cursor s.memory) :
    Producer.tryReserve.run exec s = some (some ⟨place g cursor, cursor, false⟩, s) := by
  have two := g.two_le_slotCount
  have room : ¬ g.slotCount.toUInt64 ≤ cursor - cursor := by
    rw [UInt64.le_iff_toNat_le, UInt32.toNat_toUInt64, UInt64.sub_self, UInt64.toNat_zero]
    omega
  simp only [Producer.tryReserve, access, Prog.perform_bind, Prog.run, exec, idle.head, idle.tail,
    idle.shaped.slotCount, if_neg room, Prog.run_bind, run_slot (slotCount_ne_zero idle.shaped),
    idle.shaped.slotStride, Option.bind_some, Prog.pure_eq]
  rfl

theorem run_payloadMut_eq (shaped : Shaped g s.memory) (slot : ProducerLease) :
    slot.payloadMut.run exec s =
      some (⟨slot.slot + FrameDescriptor.sizeOf, g.payloadCapacity.toNat⟩, s) := by
  simp only [ProducerLease.payloadMut, ProducerLease.capacity, access, Prog.perform_bind,
    Prog.act_bind, Prog.pure_eq, Prog.ret_bind, Prog.run, exec, shaped.payloadCapacity]

theorem run_signalEventfd (s : Shared) :
    ∃ result t, signalEventfd.run exec s = some (result, t) ∧ t.memory = s.memory ∧
      t.event = s.event.write.2 ∧ Signalled s result := by
  have sound {kind : Except ErrorKind Unit} (is : s.event.write.1 = kind)
      (other : ∀ errno, kind ≠ .error (.other errno)) (errno : Nat) :
      s.event.faults s.event.writes ≠ some (.other errno) := fun fault =>
    other errno (is.symm.trans (EventFd.write_other_iff.mpr fault))
  simp only [signalEventfd, access, Prog.perform_bind, Prog.run, exec]
  split
  · rename_i is
    exact ⟨_, _, rfl, rfl, rfl, .ok (sound is (by simp))⟩
  · rename_i is
    exact ⟨_, _, rfl, rfl, rfl, .ok (sound is (by simp))⟩
  · rename_i errno is
    exact ⟨_, _, rfl, rfl, rfl, .failed (EventFd.write_other_iff.mp is)⟩

theorem run_commit (shaped : Shaped g s.memory) (slot : Nat) (head : UInt64)
    (descriptor : FrameDescriptor) {octets : Nat} (fits : octets ≤ g.payloadCapacity.toNat) :
    ∃ result t, ((⟨slot, head, false⟩ : ProducerLease).commit descriptor octets).run exec s =
        some (result, t) ∧
      t.memory = (s.memory.write slot (ProducerLease.stamped descriptor octets).encode).setWord
        8 headOffset (head + 1).toNat ∧ t.event = s.event.write.2 ∧ Signalled s result := by
  have small : octets ≤ 2 ^ 32 - 1 := by
    have := g.payloadCapacity.toNat_lt
    omega
  simp only [ProducerLease.commit, ProducerLease.capacity, access, Prog.perform_bind,
    Prog.act_bind, Prog.ret_bind, Prog.pure_eq, Prog.run, exec, shaped.payloadCapacity, fits, small,
    not_true_eq_false, if_false, Bool.false_eq_true]
  obtain ⟨result, t, ran, memory, event, signalled⟩ := run_signalEventfd _
  exact ⟨result, t, ran, memory, event, signalled.congr rfl rfl⟩

/-- The slot of an idle ring, with its payload and its descriptor written and published,
holds the frame. -/
theorem Idle.filled {descriptor : FrameDescriptor} {octets : List UInt8}
    (idle : Idle g cursor m) :
    Filled g cursor ⟨descriptor, octets⟩
      (((m.write (place g cursor + FrameDescriptor.sizeOf) octets).write (place g cursor)
        descriptor.encode).setWord 8 headOffset (cursor + 1).toNat) := by
  have behind := header_le_place g cursor
  have behind' : ringHeaderSize ≤ place g cursor + FrameDescriptor.sizeOf :=
    behind.trans (Nat.le_add_right _ _)
  have written := (idle.write octets behind').write descriptor.encode behind
  have update := cursorStore ((m.write (place g cursor + FrameDescriptor.sizeOf) octets).write
    (place g cursor) descriptor.encode) (cursor + 1) (Nat.le_refl headOffset) (by decide)
  refine ⟨written.shaped.congr update.shape, update.stored, ?_, ?_, ?_, ?_⟩
  · rw [update.others _ (by decide), written.tail]
  · rw [update.others _ (by decide), written.dropped]
  · rw [Memory.read_congr fun o low _ => update.slots o (behind.trans low),
      Memory.read_write_self (FrameDescriptor.length_encode _), FrameDescriptor.decode_encode]
  · rw [Memory.read_congr fun o low _ => update.slots o (behind'.trans low),
      Memory.read_write_of_disjoint (.inr (by rw [FrameDescriptor.length_encode])),
      Memory.read_write_self rfl]

theorem Filled.run_tryAcquire (filled : Filled g cursor frame s.memory)
    (formed : frame.WellFormed g) :
    Consumer.tryAcquire.run exec s = some (.ok (some
      ⟨frame.descriptor, place g cursor + FrameDescriptor.sizeOf, cursor⟩), s) := by
  have apart : ¬ cursor = cursor + 1 := by
    have := cursor.toNat_lt
    rw [← UInt64.toNat_inj, UInt64.toNat_add, UInt64.toNat_one]
    omega
  have descriptor := filled.descriptor
  simp only [place] at descriptor
  simp only [Consumer.tryAcquire, access, Prog.perform_bind, Prog.run, exec, filled.head,
    filled.tail, if_neg apart, Prog.run_bind, run_slot (slotCount_ne_zero filled.shaped),
    filled.shaped.slotCount, filled.shaped.slotStride, Option.bind_some, descriptor,
    filled.shaped.payloadCapacity, formed.abiVersion, formed.headerBytes, formed.payloadBytes,
    not_true_eq_false, if_false, Prog.pure_eq, place]

/-- The drop of the lease leaves an idle ring. -/
theorem Filled.drop (filled : Filled g cursor frame m) :
    Idle g (cursor + 1) (m.setWord 8 tailOffset (cursor + 1).toNat) := by
  have update := cursorStore m (cursor + 1) (by decide : headOffset ≤ tailOffset) (by decide)
  refine ⟨filled.shaped.congr update.shape, ?_, update.stored, ?_⟩
  · rw [update.others _ (by decide), filled.head]
  · rw [update.others _ (by decide), filled.dropped]

/-! ### One turn -/

section Turn

variable {pcm : PcmConfiguration} {around : Surroundings} {sequence : Nat} {stream : List UInt8}

/-- The frame of a turn: an interval of the stream under its sequence number. -/
def frameOf (pcm : PcmConfiguration) (bytesPerInterval : Nat) (around : Surroundings)
    (sequence : Nat) (stream : List UInt8) : Frame :=
  ⟨ProducerLease.stamped (PipeWire.sinkDescriptor pcm (UInt64.ofNat sequence)
    (around.monotonicTimeNs sequence)) bytesPerInterval, stream.take bytesPerInterval⟩

theorem frameOf_wellFormed (whole : g.payloadCapacity.toNat ≤ stream.length) :
    (frameOf pcm g.payloadCapacity.toNat around sequence stream).WellFormed g where
  abiVersion := rfl
  headerBytes := rfl
  payloadBytes := by
    rw [UInt32.le_iff_toNat_le]
    exact Nat.le_of_eq (Nat.mod_eq_of_lt g.payloadCapacity.toNat_lt)
  length := by
    rw [frameOf, List.length_take, Nat.min_eq_left whole]
    exact (Nat.mod_eq_of_lt g.payloadCapacity.toNat_lt).symm

/-- With a width that is supported only the file can fail. -/
theorem run_examine (width : pcm.bitsPerSample ∈ [16, 24, 32]) (written : Result Unit)
    (payload : List UInt8) :
    (examine pcm written payload).run exec s = some (written.mapError .write, s) := by
  cases written with
  | error e => rfl
  | ok u =>
      obtain ⟨pos, -⟩ := Samples.width_of_mem width
      obtain ⟨items, decoded⟩ : ∃ items,
          Samples.decodeSamples payload pcm.bitsPerSample = some items :=
        ⟨_, if_neg (Nat.pos_iff_ne_zero.mp pos)⟩
      have fine : Samples.firstError items = .ok () := by
        rw [Samples.firstError_decodeSamples decoded]
        exact ensure_eq_ok.mpr (.inr width)
      simp only [examine, decoded, fine]
      rfl

/-- The frame of a filled ring is acquired, examined and given back. -/
theorem Filled.run_consume (filled : Filled g cursor frame s.memory) (formed : frame.WellFormed g)
    (width : pcm.bitsPerSample ∈ [16, 24, 32]) (written : Result Unit) :
    ∃ t, (consume pcm written frame).run exec s =
        some ((⟨true, frame, some (.ok (some frame))⟩, written.mapError .write), t) ∧
      Idle g (cursor + 1) t.memory ∧ t.event = s.event := by
  have payload : s.memory.read (place g cursor + FrameDescriptor.sizeOf)
      frame.descriptor.payloadBytes.toNat = frame.payload := by
    rw [← formed.length]
    exact filled.payload
  refine ⟨{ s.record .release with memory := s.memory.setWord 8 tailOffset (cursor + 1).toNat },
    ?_, filled.drop, rfl⟩
  simp only [consume, Prog.run_bind, filled.run_tryAcquire formed, Option.bind_some, access,
    Prog.run, exec, FrameLease.payload, payload, run_examine width, FrameLease.drop, Prog.perform,
    Prog.pure_eq]

/-- How a turn on an idle ring can end, and the ring it leaves. The eventfd is as it was
before the turn. -/
inductive TurnEnds (g : Geometry) (cursor : UInt64) (around : Surroundings) (sequence : Nat)
    (frame : Frame) (stream : List UInt8) (event : EventFd) :
    Turn × Except CaptureError (List UInt8) → Shared → Prop where
  | short {t : Shared} : Idle g cursor t.memory → stream.length < g.payloadCapacity.toNat →
      TurnEnds g cursor around sequence frame stream event
        (⟨true, none, none⟩, .error (.read around.streamError)) t
  | unsignalled {t : Shared} {errno : Nat} : Filled g cursor frame t.memory →
      g.payloadCapacity.toNat ≤ stream.length →
      event.faults event.writes = some (.other errno) →
      TurnEnds g cursor around sequence frame stream event
        (⟨true, none, none⟩, .error (.commit (.io (.other errno)))) t
  | unwritten {t : Shared} {file : Nat → Result Unit} {e : String} :
      Idle g (cursor + 1) t.memory → g.payloadCapacity.toNat ≤ stream.length →
      (∀ errno, event.faults event.writes ≠ some (.other errno)) →
      around.capture = some file → file sequence = .error e →
      TurnEnds g cursor around sequence frame stream event
        (⟨true, frame, some (.ok (some frame))⟩, .error (.write e)) t
  | done {t : Shared} : Idle g (cursor + 1) t.memory → g.payloadCapacity.toNat ≤ stream.length →
      (∀ errno, event.faults event.writes ≠ some (.other errno)) →
      (∀ file, around.capture = some file → file sequence = .ok ()) →
      t.event = event.write.2 →
      TurnEnds g cursor around sequence frame stream event
        (⟨true, frame, some (.ok (some frame))⟩, .ok (stream.drop g.payloadCapacity.toNat)) t

theorem Idle.run_turn (idle : Idle g cursor s.memory) (width : pcm.bitsPerSample ∈ [16, 24, 32])
    (around : Surroundings) (sequence : Nat) (stream : List UInt8) :
    ∃ r t, (turn pcm g.payloadCapacity.toNat around sequence stream).run exec s = some (r, t) ∧
      TurnEnds g cursor around sequence
        (frameOf pcm g.payloadCapacity.toNat around sequence stream) stream s.event r t := by
  have behind : ringHeaderSize ≤ place g cursor + FrameDescriptor.sizeOf :=
    (header_le_place g cursor).trans (Nat.le_add_right _ _)
  have idle' := idle.write (stream.take g.payloadCapacity.toNat) behind
  simp only [turn, Prog.run_bind, idle.run_tryReserve, Option.bind_some,
    run_payloadMut_eq idle.shaped, Nat.lt_irrefl, if_false, access, Prog.perform_bind, Prog.run,
    exec, Prog.pure_eq]
  by_cases whole : g.payloadCapacity.toNat ≤ stream.length
  · have length : ¬ (stream.take g.payloadCapacity.toNat).length < g.payloadCapacity.toNat := by
      rw [List.length_take]
      omega
    rw [if_neg length, Prog.run_bind]
    obtain ⟨result, t, ran, memory, event, signalled⟩ :=
      @run_commit g { s with memory := s.memory.write _ _ } idle'.shaped (place g cursor) cursor
        (PipeWire.sinkDescriptor pcm (UInt64.ofNat sequence) (around.monotonicTimeNs sequence)) _
        (Nat.le_refl _)
    rw [ran]
    have filled : Filled g cursor (frameOf pcm g.payloadCapacity.toNat around sequence stream)
        t.memory := by
      rw [memory]
      exact idle.filled
    cases signalled with
    | failed fault => exact ⟨_, _, rfl, .unsignalled filled whole fault⟩
    | ok sound =>
        obtain ⟨u, consumed, idle'', kept⟩ := filled.run_consume (frameOf_wellFormed whole) width
          (around.capture.elim (.ok ()) fun file => file sequence)
        rw [frameOf] at consumed
        simp only [Option.bind_some, Prog.run_bind, consumed, Prog.run]
        refine ⟨_, u, rfl, ?_⟩
        cases capture : around.capture with
        | none => exact .done idle'' whole sound (by simp [capture]) (kept.trans event)
        | some file =>
            cases written : file sequence with
            | error e =>
                simp only [Option.elim_some, written]
                exact .unwritten idle'' whole sound capture written
            | ok _ =>
                simp only [Option.elim_some, written]
                exact .done idle'' whole sound (by simp [capture, written]) (kept.trans event)
  · have length : (stream.take g.payloadCapacity.toNat).length < g.payloadCapacity.toNat := by
      rw [List.length_take]
      omega
    rw [if_pos length]
    exact ⟨_, _, rfl, .short idle' (Nat.lt_of_not_le whole)⟩

end Turn

/-! ### All turns -/

/-- The frame of the `i`-th interval. -/
def frameAt (pcm : PcmConfiguration) (bytesPerInterval : Nat) (around : Surroundings) (i : Nat) :
    Frame :=
  frameOf pcm bytesPerInterval around i (around.stream.drop (i * bytesPerInterval))

/-- Why the turn of an interval fails, if it does: too little is left of the stream, the
eventfd does not take the wakeup, or the file not the frame. -/
def failure (bytesPerInterval : Nat) (around : Surroundings) (faults : Nat → Option ErrorKind)
    (i : Nat) : Option CaptureError :=
  if around.stream.length < (i + 1) * bytesPerInterval then some (.read around.streamError)
  else
    match faults i with
    | some (.other errno) => some (.commit (.io (.other errno)))
    | _ =>
        match around.capture.elim (.ok ()) fun file => file i with
        | .error e => some (.write e)
        | .ok () => none

/-- A slot was reserved, and what was committed is what was acquired. -/
structure Turn.Sound (frame : Frame) (turn : Turn) : Prop where
  reserved : turn.reserved = true
  acquired : ∀ committed, turn.committed = some committed →
    committed = frame ∧ turn.acquired = some (.ok (some committed))

/-- The loop from a sequence number on, over a ring that never held more than one
frame. -/
structure LoopSound (pcm : PcmConfiguration) (bytesPerInterval : Nat) (around : Surroundings)
    (faults : Nat → Option ErrorKind) (sequence intervals : Nat) (turns : List Turn)
    (result : Except CaptureError Unit) (m : Memory) : Prop where
  each : ∀ (i : Nat) (turn : Turn), turns[i]? = some turn →
    turn.Sound (frameAt pcm bytesPerInterval around (sequence + i))
  /-- Every turn but the last has committed. -/
  passed : ∀ (i : Nat) (turn : Turn), turns[i]? = some turn → i + 1 < turns.length →
    turn.committed ≠ none
  completed : result = .ok () →
    turns.length = intervals ∧ (∀ turn ∈ turns, turn.committed ≠ none) ∧
      ∀ i < intervals, failure bytesPerInterval around faults (sequence + i) = none
  /-- An error is that of the first turn that fails. -/
  failed : ∀ e, result = .error e → ∃ i < intervals, turns.length = i + 1 ∧
    failure bytesPerInterval around faults (sequence + i) = some e ∧
    ∀ j < i, failure bytesPerInterval around faults (sequence + j) = none
  overrun : result ≠ .error .overrun
  invisible : result ≠ .error .invisible
  acquire : ∀ e, result ≠ .error (.acquire e)
  dropped : m.u64 droppedOffset = 0

variable {pcm : PcmConfiguration} {around : Surroundings}

section Ends

variable {sequence : Nat} {stream : List UInt8} {event : EventFd} {turn : Turn}
  {result : Except CaptureError (List UInt8)} {t : Shared} {e : CaptureError}

theorem TurnEnds.sound
    (ends : TurnEnds g cursor around sequence frame stream event (turn, result) t) :
    turn.Sound frame := by
  cases ends <;> exact ⟨rfl, by simp⟩

theorem TurnEnds.dropped
    (ends : TurnEnds g cursor around sequence frame stream event (turn, result) t) :
    t.memory.u64 droppedOffset = 0 := by
  cases ends with
  | short idle _ => exact idle.dropped
  | unsignalled filled _ _ => exact filled.dropped
  | unwritten idle _ _ _ _ => exact idle.dropped
  | done idle _ _ _ _ => exact idle.dropped

/-- The ring gives a turn no cause to fail. -/
theorem TurnEnds.error_ne
    (ends : TurnEnds g cursor around sequence frame stream event (turn, .error e) t) :
    e ≠ .overrun ∧ e ≠ .invisible ∧ ∀ e', e ≠ .acquire e' := by
  cases ends <;> simp

/-- Less than an interval is left of the stream exactly if the stream ends before the
interval does. -/
theorem length_drop_lt_iff {n : Nat} :
    (around.stream.drop (sequence * n)).length < n ↔
      around.stream.length < (sequence + 1) * n := by
  rw [List.length_drop, Nat.succ_mul]
  rcases Nat.eq_zero_or_pos n with rfl | positive
  · simp
  · omega

/-- A turn fails by what is foreseen for its interval. -/
theorem TurnEnds.failure_eq
    (ends : TurnEnds g cursor around sequence frame
      (around.stream.drop (sequence * g.payloadCapacity.toNat)) event (turn, result) t)
    (nth : event.writes = sequence) :
    failure g.payloadCapacity.toNat around event.faults sequence =
      match result with
      | .error e => some e
      | .ok _ => none := by
  have foreseen (whole : g.payloadCapacity.toNat ≤
      (around.stream.drop (sequence * g.payloadCapacity.toNat)).length)
      (sound : ∀ errno, event.faults event.writes ≠ some (.other errno)) :
      failure g.payloadCapacity.toNat around event.faults sequence =
        match around.capture.elim (.ok ()) fun file => file sequence with
        | .error e => some (.write e)
        | .ok () => none := by
    rw [nth] at sound
    rw [failure, if_neg fun short => Nat.not_lt_of_le whole (length_drop_lt_iff.mpr short)]
    split
    · exact absurd ‹_› (sound _)
    · rfl
  cases ends with
  | short _ short => rw [failure, if_pos (length_drop_lt_iff.mp short)]
  | unsignalled _ whole fault =>
      rw [nth] at fault
      rw [failure, if_neg fun short => Nat.not_lt_of_le whole (length_drop_lt_iff.mpr short), fault]
  | unwritten _ whole sound file failed =>
      rw [foreseen whole sound, file, Option.elim_some, failed]
  | done _ whole sound written _ =>
      rw [foreseen whole sound]
      cases capture : around.capture with
      | none => rfl
      | some file => rw [Option.elim_some, written file capture]

/-- A turn that ends the loop. -/
theorem LoopSound.last {intervals : Nat}
    (ends : TurnEnds g cursor around sequence
      (frameAt pcm g.payloadCapacity.toNat around sequence)
      (around.stream.drop (sequence * g.payloadCapacity.toNat)) event (turn, .error e) t)
    (nth : event.writes = sequence) :
    LoopSound pcm g.payloadCapacity.toNat around event.faults sequence (intervals + 1) [turn]
      (.error e) t.memory where
  each i turn' at_ := by
    rw [List.getElem?_singleton] at at_
    split at at_
    · rename_i zero
      cases at_
      rw [zero]
      exact ends.sound
    · cases at_
  passed i turn' _ before := by simp at before
  completed := by simp
  failed := by
    rintro _ ⟨rfl⟩
    exact ⟨0, Nat.succ_pos _, rfl, ends.failure_eq nth, by simp⟩
  overrun := by simpa using ends.error_ne.1
  invisible := by simpa using ends.error_ne.2.1
  acquire := by simpa using ends.error_ne.2.2
  dropped := ends.dropped

end Ends

/-- A turn before the rest of the loop. -/
theorem LoopSound.cons {n sequence intervals : Nat} {faults : Nat → Option ErrorKind} {turn : Turn}
    {turns : List Turn} {result : Except CaptureError Unit}
    (sound : turn.Sound (frameAt pcm n around sequence)) (committed : turn.committed ≠ none)
    (unfailed : failure n around faults sequence = none)
    (rest : LoopSound pcm n around faults (sequence + 1) intervals turns result m) :
    LoopSound pcm n around faults sequence (intervals + 1) (turn :: turns) result m := by
  have shift (i : Nat) : sequence + 1 + i = sequence + (i + 1) := by omega
  have earlier {k : Nat}
      (later : ∀ i < k, failure n around faults (sequence + 1 + i) = none) :
      ∀ i < k + 1, failure n around faults (sequence + i) = none := by
    intro i below
    cases i with
    | zero => exact unfailed
    | succ i =>
        rw [← shift]
        exact later i (Nat.lt_of_succ_lt_succ below)
  constructor
  case each =>
    intro i turn' at_
    cases i with
    | zero =>
        cases at_
        exact sound
    | succ i =>
        rw [← shift]
        exact rest.each i turn' at_
  case passed =>
    intro i turn' at_ before
    cases i with
    | zero =>
        cases at_
        exact committed
    | succ i => exact rest.passed i turn' at_ (Nat.lt_of_succ_lt_succ before)
  case completed =>
    intro ok
    obtain ⟨count, all, none⟩ := rest.completed ok
    exact ⟨congrArg (· + 1) count, List.forall_mem_cons.mpr ⟨committed, all⟩, earlier none⟩
  case failed =>
    intro e is
    obtain ⟨i, below, count, at_, before⟩ := rest.failed e is
    rw [shift] at at_
    exact ⟨i + 1, Nat.succ_lt_succ below, congrArg (· + 1) count, at_, earlier before⟩
  case overrun => exact rest.overrun
  case invisible => exact rest.invisible
  case acquire => exact rest.acquire
  case dropped => exact rest.dropped

theorem Idle.run_loop (width : pcm.bitsPerSample ∈ [16, 24, 32]) (intervals : Nat) {s : Shared}
    {cursor : UInt64} {sequence : Nat} (idle : Idle g cursor s.memory)
    (nth : s.event.writes = sequence) :
    ∃ turns result t,
      (loop pcm g.payloadCapacity.toNat around intervals sequence
        (around.stream.drop (sequence * g.payloadCapacity.toNat))).run exec s =
          some ((turns, result), t) ∧
      LoopSound pcm g.payloadCapacity.toNat around s.event.faults sequence intervals turns result
        t.memory := by
  induction intervals generalizing s cursor sequence with
  | zero =>
      refine ⟨[], .ok (), s, rfl, ?_⟩
      constructor <;> simp [idle.dropped]
  | succ intervals ih =>
      obtain ⟨⟨turn, result⟩, t, ran, ends⟩ := idle.run_turn width around sequence
        (around.stream.drop (sequence * g.payloadCapacity.toNat))
      simp only [loop, Prog.run_bind, ran, Option.bind_some]
      cases result with
      | error e => exact ⟨_, _, t, rfl, .last ends nth⟩
      | ok stream =>
          have sound : turn.Sound (frameAt pcm g.payloadCapacity.toNat around sequence) :=
            ends.sound
          have unfailed := ends.failure_eq nth
          cases ends with
          | done idle' _ _ _ event =>
              have next : t.event.writes = sequence + 1 := by
                rw [event, EventFd.write_writes, nth]
              obtain ⟨turns, result, u, later, rest⟩ := ih idle' next
              rw [event, EventFd.write_faults] at rest
              rw [Nat.succ_mul, ← List.drop_drop] at later
              simp only [Prog.run_bind, later, Option.bind_some, Prog.pure_eq, Prog.run]
              exact ⟨_, _, u, rfl, .cons sound (by simp) unfailed rest⟩

theorem idle_of_created {sys : SystemCalls} {ring : RingPair} {n : Nat} (small : n < 2 ^ 32)
    (created : RingPair.create 64 sys 8 (UInt32.ofNat n) = .ok ring)
    (faults : Nat → Option ErrorKind) :
    ∃ g : Geometry, g.payloadCapacity.toNat = n ∧ Idle g 0 (ring.shared faults).memory := by
  obtain ⟨g, -, capacity, -, memory⟩ := RingPair.create_geometry created
  have inv := RingPair.ringInv faults memory
  refine ⟨g, ?_, inv.shaped, inv.head, inv.tail, inv.dropped⟩
  rw [capacity, UInt32.toNat_ofNat', Nat.mod_eq_of_lt small]

/-- `capture_peer` never overruns its own ring. However many intervals there are and
whatever the peer sends, the loop ends; every turn has a slot, and its `try_acquire`
returns the very frame it has committed, the octets of its interval of the stream under
its own number. No frame is refused. The loop takes all intervals, or ends with the first
that fails for a reason outside the ring. -/
theorem capture_never_overruns {pcm : PcmConfiguration} {n : Nat} {sys : SystemCalls}
    {ring : RingPair} (interval : pcm.bytesPerInterval = .ok n) (small : n < 2 ^ 32)
    (created : RingPair.create 64 sys 8 (UInt32.ofNat n) = .ok ring) (around : Surroundings)
    (faults : Nat → Option ErrorKind) (intervals : Nat) :
    ∃ turns result t,
      (loop pcm n around intervals 0 around.stream).run exec (ring.shared faults) =
        some ((turns, result), t) ∧
      LoopSound pcm n around faults 0 intervals turns result t.memory ∧
      Producer.droppedFrames.run exec t = some (0, t) := by
  have width := Samples.width_of_validate (Samples.validate_of_bytesPerInterval interval)
  obtain ⟨g, rfl, idle⟩ := idle_of_created small created faults
  obtain ⟨turns, result, t, ran, sound⟩ :=
    @Idle.run_loop g pcm around width intervals _ 0 0 idle rfl
  rw [Nat.zero_mul, List.drop_zero] at ran
  refine ⟨turns, result, t, ran, sound, ?_⟩
  simp only [Producer.droppedFrames, access, Prog.perform, Prog.run, exec, sound.dropped]

/-- A peer that sends two intervals of two octets and one octet more. -/
def peer : Surroundings := ⟨[1, 2, 3, 4, 5], "early eof", fun _ => 0, none⟩

theorem capture_never_overruns_short_stream :
    ∃ ring first second third t, RingPair.create 64 .calm 8 2 = .ok ring ∧
      (loop ⟨8000, 16, 1, 125⟩ 2 peer 9 0 peer.stream).run exec (ring.shared fun _ => none) =
        some (([first, second, third], .error (.read "early eof")), t) ∧
      (∃ frame, first.committed = some frame ∧ first.acquired = some (.ok (some frame)) ∧
        frame.descriptor.sequence = 0 ∧ frame.payload = [1, 2]) ∧
      (∃ frame, second.committed = some frame ∧ second.acquired = some (.ok (some frame)) ∧
        frame.descriptor.sequence = 1 ∧ frame.payload = [3, 4]) ∧
      Producer.droppedFrames.run exec t = some (0, t) := by
  obtain ⟨ring, created⟩ : ∃ ring, RingPair.create 64 .calm 8 2 = .ok ring :=
    RingPair.create_succeeds SystemCalls.calm_succeed (by decide) (by decide) (by decide)
  obtain ⟨turns, result, t, ran, sound, dropped⟩ :=
    @capture_never_overruns ⟨8000, 16, 1, 125⟩ 2 .calm ring rfl (by decide) created peer
      (fun _ => none) 9
  have third : failure 2 peer (fun _ => none) 2 = some (.read "early eof") := by decide
  obtain ⟨rfl, count⟩ : result = .error (.read "early eof") ∧ turns.length = 3 := by
    cases result with
    | ok done => exact absurd ((sound.completed rfl).2.2 2 (by decide)) (by decide)
    | error e =>
        obtain ⟨i, -, count, is, before⟩ := sound.failed e rfl
        rw [Nat.zero_add] at is
        have two : i = 2 := by
          have most : i ≤ 2 := by
            by_contra more
            exact absurd (before 2 (by omega)) (by decide)
          have zero : i ≠ 0 := by
            rintro rfl
            simp [failure, peer] at is
          have one : i ≠ 1 := by
            rintro rfl
            simp [failure, peer] at is
          omega
        rw [two, third] at is
        exact ⟨congrArg _ (Option.some.inj is).symm, by rw [count, two]⟩
  obtain ⟨first, second, third, rfl⟩ := List.length_eq_three.mp count
  have committed (i : Nat) (turn : Turn) (at_ : [first, second, third][i]? = some turn)
      (before : i < 2) : turn.committed = some (frameAt ⟨8000, 16, 1, 125⟩ 2 peer i) ∧
        turn.acquired = some (.ok (some (frameAt ⟨8000, 16, 1, 125⟩ 2 peer i))) := by
    obtain ⟨frame, is⟩ :=
      Option.ne_none_iff_exists'.mp (sound.passed i turn at_ (Nat.succ_lt_succ before))
    obtain ⟨rfl, acquired⟩ := (sound.each i turn at_).acquired frame is
    rw [Nat.zero_add] at is acquired
    exact ⟨is, acquired⟩
  obtain ⟨at0, acquired0⟩ := committed 0 first rfl (by decide)
  obtain ⟨at1, acquired1⟩ := committed 1 second rfl (by decide)
  exact ⟨ring, first, second, third, t, created, ran, ⟨_, at0, acquired0, rfl, rfl⟩,
    ⟨_, at1, acquired1, rfl, rfl⟩, dropped⟩

/-! ### Back to the requests of the tool -/

section Requests

variable {V : Type} {args : Args}

/-- The text of an error, with the texts of the system's errors given. -/
def errorText (describe : ErrorKind → String) : RingError → String
  | .message text => text
  | .io kind => describe kind

def CaptureError.text (describe : ErrorKind → String) : CaptureError → String
  | .overrun => "LE Audio capture ring overrun"
  | .read cause => s!"read LE Audio peer PCM: {cause}"
  | .commit error | .acquire error => errorText describe error
  | .invisible => "published LE Audio frame was not visible"
  | .write error | .decode error => error

theorem traces_request {α : Type} (r : Request) (reply : r.Reply V) {f : r.Reply V → Program V α}
    {log : Log V} {out : Option (Result α)} (rest : (f reply).Traces log out) :
    Attempt.Traces (request r >>= f) (⟨.ask r, reply⟩ :: log) out :=
  Attempt.traces_always_bind.mpr
    ⟨reply, [⟨.ask r, reply⟩], log, rfl, Prog.traces_perform.mpr rfl, rest⟩

/-- The slice of a slot that is long enough. -/
def sliced (n : Nat) : Operation := ⟨"range end index out of range for slice", n, n + 1, true⟩

theorem traces_reserve {text : String} {n : Nat} (small : n < 2 ^ 32) :
    (reserve text (UInt32.ofNat n) n : Program V Unit).Traces
      [⟨.ask .tryReserve, some ()⟩, ⟨.operate (sliced n), ()⟩] (some (.ok ())) := by
  apply traces_request .tryReserve (some ())
  rw [UInt32.toNat_ofNat', Nat.mod_eq_of_lt small]
  have fits : (sliced n).Fits := Nat.lt_succ_self n
  exact Proc.traces_operate fits (Attempt.traces_pure.mpr ⟨rfl, rfl⟩)

theorem traces_readExact {text : String} {octets : Nat} (reply : Result Unit) :
    (attempt text (request (.readExact octets)) : Program V Unit).Traces
      [⟨.ask (.readExact octets), reply⟩] (some (context text reply)) :=
  traces_request (.readExact octets) reply (Attempt.traces_lift.mpr ⟨rfl, rfl⟩)

theorem traces_writeCapture_none (none : args.capture.isSome = false) (bytes : List UInt8) :
    (writeCapture args bytes : Program V Unit).Traces [] (some (.ok ())) := by
  simp only [writeCapture, none, Bool.false_eq_true, if_false]
  exact Attempt.traces_pure.mpr ⟨rfl, rfl⟩

theorem traces_writeCapture_some (some_ : args.capture.isSome = true) (bytes : List UInt8)
    (reply : Result Unit) :
    (writeCapture args bytes : Program V Unit).Traces [⟨.ask (.writeFile bytes), reply⟩]
      (some reply) := by
  simp only [writeCapture, some_, if_true]
  exact traces_request (.writeFile bytes) reply (Attempt.traces_lift.mpr ⟨rfl, rfl⟩)

/-- A frame is published and acquired; what is done with it then decides the turn. -/
theorem traces_published {sequence n : Nat} {frame : Frame} {log : Log V} {out : Result Unit}
    (small : n < 2 ^ 32) (captureTimeNs : UInt64)
    (rest : Attempt.Traces (do
      writeCapture args frame.payload
      decodeSamples frame.payload pcm.bitsPerSample) log (some out)) :
    (captureInterval args pcm n sequence : Program V Unit).Traces
      (⟨.ask .tryReserve, some ()⟩ :: ⟨.operate (sliced n), ()⟩ ::
        ⟨.ask (.readExact n), Except.ok ()⟩ :: ⟨.ask .monotonicTime, captureTimeNs⟩ ::
        ⟨.ask (.commit (PipeWire.sinkDescriptor pcm (UInt64.ofNat sequence) captureTimeNs) n),
          Except.ok ()⟩ ::
        ⟨.ask .tryAcquire, Except.ok (some frame)⟩ :: log) (some out) :=
  Attempt.traces_bind_of_ok (traces_reserve small)
    (Attempt.traces_bind_of_ok (traces_readExact (.ok ()))
    (traces_request .monotonicTime captureTimeNs
    (traces_request (.commit _ _) (Except.ok ())
    (Attempt.traces_bind_of_ok (Attempt.traces_lift.mpr ⟨rfl, rfl⟩)
    (traces_request .tryAcquire (Except.ok (some frame))
    (Attempt.traces_bind_of_ok (Attempt.traces_lift.mpr ⟨rfl, rfl⟩) rest))))))

/-- The frames that a log has acquired. -/
def acquiredOf (log : Log V) : List Frame := log.flatMap fun
  | ⟨.ask .tryAcquire, .ok (some frame)⟩ => [frame]
  | _ => []

def Turn.frames (turn : Turn) : List Frame :=
  match turn.acquired with
  | some (.ok (some frame)) => [frame]
  | _ => []

/-- A turn over the ring is one that the tool can take. -/
theorem TurnEnds.traces (V : Type) (describe : ErrorKind → String) {sequence : Nat}
    {stream : List UInt8} {event : EventFd} {turn : Turn}
    {result : Except CaptureError (List UInt8)} {t : Shared}
    (ends : TurnEnds g cursor around sequence frame stream event (turn, result) t)
    (width : pcm.bitsPerSample ∈ [16, 24, 32])
    (capture : args.capture.isSome = around.capture.isSome) :
    ∃ log, (captureInterval args pcm g.payloadCapacity.toNat sequence : Program V Unit).Traces log
      (some ((result.map fun _ => ()).mapError (CaptureError.text describe))) ∧
      acquiredOf log = turn.frames := by
  have small := g.payloadCapacity.toNat_lt
  have decoded (payload : List UInt8) :
      Attempt.Traces (decodeSamples payload pcm.bitsPerSample : Program V Unit) []
        (some (.ok ())) := by
    refine Attempt.traces_lift.mpr ⟨rfl, ?_⟩
    rw [decodeSamples, ensure, if_pos (.inr width)]
  cases ends with
  | short _ _ =>
      exact ⟨_, Attempt.traces_bind_of_ok (traces_reserve small)
        (Attempt.traces_bind_of_error (traces_readExact (.error around.streamError))), rfl⟩
  | unsignalled _ _ _ =>
      exact ⟨_, Attempt.traces_bind_of_ok (traces_reserve small)
        (Attempt.traces_bind_of_ok (traces_readExact (.ok ()))
        (traces_request .monotonicTime (around.monotonicTimeNs sequence)
        (traces_request (.commit _ _) (Except.error _)
        (Attempt.traces_bind_of_error (Attempt.traces_lift.mpr ⟨rfl, rfl⟩))))), rfl⟩
  | unwritten _ _ _ file _ =>
      rw [file] at capture
      exact ⟨_, traces_published small (around.monotonicTimeNs sequence)
        (Attempt.traces_bind_of_error (traces_writeCapture_some capture _ (.error _))), rfl⟩
  | done _ _ _ _ _ =>
      cases some_ : args.capture.isSome with
      | false =>
          exact ⟨_, traces_published small (around.monotonicTimeNs sequence)
            (Attempt.traces_bind_of_ok (traces_writeCapture_none some_ _) (decoded _)), rfl⟩
      | true =>
          exact ⟨_, traces_published small (around.monotonicTimeNs sequence)
            (Attempt.traces_bind_of_ok (traces_writeCapture_some some_ _ (.ok ())) (decoded _)),
            rfl⟩

/-- The loop over the ring is one that the tool can run. -/
theorem Idle.loop_traces (V : Type) (describe : ErrorKind → String)
    (width : pcm.bitsPerSample ∈ [16, 24, 32])
    (capture : args.capture.isSome = around.capture.isSome) {intervals sequence : Nat}
    {stream : List UInt8} {s t : Shared} {cursor : UInt64} {turns : List Turn}
    {result : Except CaptureError Unit} (idle : Idle g cursor s.memory)
    (ran : (loop pcm g.payloadCapacity.toNat around intervals sequence stream).run exec s =
      some ((turns, result), t)) :
    ∃ log, Attempt.Traces ((List.range' sequence intervals).forM
      (captureInterval args pcm g.payloadCapacity.toNat) : Program V Unit) log
        (some (result.mapError (CaptureError.text describe))) ∧
      acquiredOf log = turns.flatMap Turn.frames := by
  induction intervals generalizing sequence stream s cursor turns with
  | zero =>
      cases ran
      exact ⟨[], Attempt.traces_pure.mpr ⟨rfl, rfl⟩, rfl⟩
  | succ intervals ih =>
      obtain ⟨⟨turn, first⟩, u, turned, ends⟩ := idle.run_turn width around sequence stream
      obtain ⟨log, traces, frames⟩ := ends.traces V describe width capture
      simp only [loop, Prog.run_bind, turned, Option.bind_some] at ran
      rw [List.range'_succ]
      cases first with
      | error e =>
          cases ran
          exact ⟨log, Attempt.traces_bind_of_error traces, by simp [frames]⟩
      | ok rest =>
          simp only [Prog.run_bind, Prog.pure_eq] at ran
          obtain ⟨⟨⟨later, last⟩, v⟩, looped, same⟩ := Option.bind_eq_some_iff.mp ran
          cases same
          cases ends with
          | done idle' _ _ _ _ =>
              obtain ⟨log', traces', frames'⟩ := ih idle' looped
              refine ⟨log ++ log', Attempt.traces_bind_of_ok traces traces', ?_⟩
              rw [acquiredOf, List.flatMap_append, List.flatMap_cons, ← frames, ← frames']
              rfl

end Requests

end Dorsche.Bin.FlossLeAudioSmoke.Capture
