import Dorsche.Bin.PeerPump
import Dorsche.Wireless.PipeWire.Source

/-!
Recording end to end: from the PCM a peer sends over the socket of Floss, through
the ring, to the buffers that `run_source` fills for PipeWire.

Both ends have their own account (`Bin.PumpRests` and `PipeWire.Source.Rests`). The
frames between them are the intervals of the peer's stream in the negotiated
format, so none is filtered out, and the `j`-th call that finds a frame fills its
buffer from interval `j`.
-/

namespace Dorsche.Bin.DorschePipewire

open Dorsche.Lib Dorsche.Wireless Dorsche.Wireless.DataPlane
open Dorsche.Wireless.PipeWire.Source (Call Chunk Plays Roomy portion Negotiated)

variable {g : Geometry} {s : Shared} {pcm : PcmConfiguration} {stream : Nat → UInt8}
variable {stride bytes : Nat} {frames : List Frame} {calls : List Call}

/-! ### The frames of the stream -/

theorem negotiated_of_framed (framed : Framed pcm bytes stream frames) (f : Frame)
    (mem : f ∈ frames) : Negotiated pcm f.descriptor := by
  obtain ⟨i, is⟩ := List.mem_iff_getElem?.mp mem
  obtain ⟨captureTimeNs, rfl⟩ := framed i f is
  exact ⟨rfl, rfl, rfl, rfl⟩

theorem length_of_framed (framed : Framed pcm bytes stream frames) (f : Frame)
    (mem : f ∈ frames) : f.payload.length = bytes := by
  obtain ⟨i, is⟩ := List.mem_iff_getElem?.mp mem
  obtain ⟨captureTimeNs, rfl⟩ := framed i f is
  exact length_segment _ _ _

/-- The frames in a row are the stream. -/
theorem octets_of_framed (framed : Framed pcm bytes stream frames) :
    frames.flatMap (·.payload) = segment stream 0 (frames.length * bytes) := by
  induction frames using List.reverseRecOn with
  | nil => simp [segment]
  | append_singleton frames f ih =>
      obtain ⟨captureTimeNs, rfl⟩ := framed frames.length f (by simp)
      rw [List.flatMap_append, ih (framed.mono (List.prefix_append _ _)), List.length_append,
        List.length_singleton, Nat.add_mul, Nat.one_mul, ← segment_append, Nat.zero_add]
      simp

/-! ### The calls -/

/-- The calls that took a frame, each with its frame. -/
theorem taken_call (plays : Plays pcm stride frames calls) {j : Nat} {call : Call}
    (is : (calls.filter (·.took))[j]? = some call) :
    ∃ f, frames[j]? = some f ∧ call.chunk = Chunk.of stride (portion pcm f call.destination) := by
  induction plays with
  | nothing => cases is
  | idle destination _ ih =>
      rw [List.filter_append, List.filter_singleton] at is
      exact ih (by simpa using is)
  | played frame destination plays ih =>
      rw [List.filter_append, List.filter_singleton, List.getElem?_append, plays.taken] at is
      rw [List.getElem?_append]
      split at is
      · rename_i early
        obtain ⟨f, at_, chunk⟩ := ih is
        exact ⟨f, by rw [if_pos early, at_], chunk⟩
      · rename_i late
        simp only [cond_true, List.getElem?_singleton] at is
        split at is
        · rename_i last
          obtain rfl := Option.some.inj is
          exact ⟨frame, by rw [if_neg late, last]; rfl, rfl⟩
        · cases is

/-- A call that found no frame reports an empty chunk. -/
theorem idle_call (plays : Plays pcm stride frames calls) {call : Call} (mem : call ∈ calls)
    (idle : call.took = false) : call.chunk = Chunk.of stride [] := by
  induction plays with
  | nothing => cases mem
  | idle destination _ ih =>
      rcases List.mem_append.mp mem with earlier | last
      · exact ih earlier
      · rw [List.mem_singleton.mp last]
  | played frame destination _ ih =>
      rcases List.mem_append.mp mem with earlier | last
      · exact ih earlier
      · rw [List.mem_singleton.mp last] at idle
        cases idle

/-- Buffers of an interval are large enough for every frame. -/
theorem roomy_of_framed (framed : Framed pcm bytes stream frames)
    (room : ∀ call ∈ calls, call.took = true → bytes ≤ call.destination.getD 0) :
    Roomy frames calls := by
  intro taken mem
  obtain ⟨left, right⟩ := List.of_mem_zip mem
  obtain ⟨call, took⟩ := List.mem_filter.mp right
  rw [length_of_framed framed _ left]
  exact room _ call took

/-! ### How far the pump is ahead -/

/-- What the pump has read from the socket. -/
def consumedAt : PumpAt → Nat
  | .top _ consumed | .reading _ _ _ _ consumed | .ended _ consumed => consumed

/-- `read_exact` never reads past its slot. -/
def InSlot (bytes : Nat) : PumpAt → Prop
  | .reading _ _ _ got _ => got ≤ bytes
  | .top _ _ | .ended _ _ => True

theorem inSlot_offers {point : PumpAt} {p : DataPlane.Ring PumpAt}
    (offered : PumpMenu pcm bytes stream point p) : p.Ends (InSlot bytes) := by
  cases offered with
  | reserve =>
      apply Producer.tryReserve.ends_any.bind
      rintro (_ | lease) _
      · trivial
      · apply lease.payloadMut.ends_any.bind
        intro slice _
        split
        · exact fun never => Empty.elim never
        · exact Nat.zero_le _
  | receive k _ inside => exact fun _ => inside
  | fail _ | drop _ => trivial
  | publish captureTimeNs =>
      apply (Prog.ends_any _).bind
      rintro (error | _) _
      · trivial
      · trivial

/-! ### Every interleaving -/

/-- A state that the pump and the source can reach over a new ring. -/
def Records (ring : RingPair) (pcm : PcmConfiguration) (bytes stride : Nat)
    (stream : Nat → UInt8) (faults : Nat → Option ErrorKind)
    (c : Pair Access Access.Reply PumpAt (List Call) Shared) : Prop :=
  Relation.ReflTransGen
    (PairStep exec (PumpMenu pcm bytes stream) (PipeWire.Source.Menu pcm stride))
    ⟨.ret (.top 0 0), .ret [], ring.shared faults⟩ c

section Records

variable {sys : SystemCalls} {slotCount payloadCapacity : UInt32} {ring : RingPair}
variable {faults : Nat → Option ErrorKind}
variable {c : Pair Access Access.Reply PumpAt (List Call) Shared}

theorem records_contracts (created : RingPair.create 64 sys slotCount payloadCapacity = .ok ring)
    (reached : Records ring pcm payloadCapacity.toNat stride stream faults c) :
    ∃ g : Geometry, g.slotCount = slotCount ∧ g.payloadCapacity = payloadCapacity ∧
      RingInv g c.shared ∧
      (producer g anyLabel).Holds (PumpRests g pcm payloadCapacity.toNat stream)
        c.left c.shared ∧
      (consumer g fun _ => True).Holds (PipeWire.Source.Rests g pcm stride)
        c.right c.shared := by
  obtain ⟨g, count, rfl, -, memory⟩ := RingPair.create_geometry created
  have inv₀ := RingPair.ringInv faults memory
  have left₀ : PumpRests g pcm g.payloadCapacity.toNat stream (.top 0 0) (ring.shared faults) := by
    refine ⟨rfl, framed_nil _, ?_, by rintro _ _ _ _ _ ⟨⟩, by rintro _ _ ⟨⟩⟩
    rintro _ _ ⟨⟩
    exact ⟨rfl, (Nat.zero_mul _).symm⟩
  have right₀ : (consumer g fun _ => True).Holds (PipeWire.Source.Rests g pcm stride) (.ret [])
      (ring.shared faults) := PipeWire.Source.consumer_rests inv₀ fun _ => .nothing
  exact ⟨g, count, rfl, ring_contracts (fun _ _ _ _ rests offered => pump_offers rests offered)
    (fun _ _ _ inv rests offered => PipeWire.Source.consumer_offers inv rests offered)
    reached inv₀ (pump_rests left₀) right₀⟩

/-- Recording end to end. In every interleaving of the pump, whose peer delivers its
stream in pieces of any size, and PipeWire's calls with buffers of any size: the
`j`-th call that finds a frame fills its buffer with the first octets of interval `j`
of the stream and no other call hands over anything, so with buffers of an interval
PipeWire is given the stream itself without a gap; and the pump, while it runs and once
it has ended, has read at least the intervals handed over and at most one ring more. -/
theorem recording_end_to_end
    (created : RingPair.create 64 sys slotCount payloadCapacity = .ok ring)
    (reached : Records ring pcm payloadCapacity.toNat stride stream faults c)
    (counted : c.shared.committed.length < 2 ^ 64 ∨ slotCount.toNat ∣ 2 ^ 64)
    (calls : List Call) (between : c.right = .ret calls) :
    (∀ j call, (calls.filter (·.took))[j]? = some call →
      call.chunk = Chunk.of stride ((segment stream (j * payloadCapacity.toNat)
        payloadCapacity.toNat).take (call.destination.getD 0))) ∧
    (∀ call ∈ calls, call.took = false → call.chunk = Chunk.of stride []) ∧
    ((∀ call ∈ calls, call.took = true → payloadCapacity.toNat ≤ call.destination.getD 0) →
      calls.flatMap (·.chunk.octets) =
        segment stream 0 ((calls.filter (·.took)).length * payloadCapacity.toNat)) ∧
    ∀ point, c.left = .ret point →
      (calls.filter (·.took)).length * payloadCapacity.toNat ≤ consumedAt point ∧
      consumedAt point ≤
        ((calls.filter (·.took)).length + slotCount.toNat) * payloadCapacity.toNat := by
  obtain ⟨g, rfl, rfl, inv, left, right⟩ := records_contracts created reached
  have coherent : Coherent g c.shared.committed.length := by
    rcases counted with few | dvd
    · exact coherent_of_lt few
    · exact coherent_of_dvd dvd
  rw [between] at right
  have plays := right.ret inv coherent
  have framed : Framed pcm g.payloadCapacity.toNat stream c.shared.committed := by
    obtain ⟨point, t, -, -, rests, moves⟩ := left.run inv fun _ _ safe => safe.runs
    exact rests.framed.mono (ProducerMoves.of_reflTransGen moves).committed
  have played := framed.mono (List.take_prefix c.shared.released c.shared.committed)
  have count : (calls.filter (·.took)).length = c.shared.released := by
    rw [plays.taken, List.length_take, Nat.min_eq_left inv.released_le]
  refine ⟨?_, fun call mem idle => idle_call plays mem idle, ?_, ?_⟩
  · intro j call is
    obtain ⟨f, at_, chunk⟩ := taken_call plays is
    have negotiated := negotiated_of_framed played f (List.mem_of_getElem? at_)
    obtain ⟨captureTimeNs, rfl⟩ := played j f at_
    rw [chunk, portion, if_pos negotiated]
  · intro room
    rw [plays.continuous (negotiated_of_framed played) (roomy_of_framed played room),
      octets_of_framed played, plays.taken]
  · intro point rests
    have within : InSlot g.payloadCapacity.toNat point := by
      have ends := left_ends (fun _ _ _ offered => inSlot_offers offered) reached trivial
      rw [rests] at ends
      exact ends
    rw [rests] at left
    have pump := left.ret inv
    have visible := inv.released_le
    have bounded := inv.length_le
    rw [count]
    -- a slot is free for what is read beyond the published intervals
    have within_ring {got : Nat} (free : c.shared.committed.length < c.shared.released +
        g.slotCount.toNat) (part : got ≤ g.payloadCapacity.toNat) :
        c.shared.released * g.payloadCapacity.toNat ≤
            c.shared.committed.length * g.payloadCapacity.toNat + got ∧
          c.shared.committed.length * g.payloadCapacity.toNat + got ≤
            (c.shared.released + g.slotCount.toNat) * g.payloadCapacity.toNat := by
      constructor
      · exact (Nat.mul_le_mul_right _ visible).trans (Nat.le_add_right _ _)
      · calc c.shared.committed.length * g.payloadCapacity.toNat + got
            ≤ c.shared.committed.length * g.payloadCapacity.toNat +
                g.payloadCapacity.toNat := Nat.add_le_add_left part _
          _ = (c.shared.committed.length + 1) * g.payloadCapacity.toNat := by
              rw [Nat.add_mul, Nat.one_mul]
          _ ≤ (c.shared.released + g.slotCount.toNat) * g.payloadCapacity.toNat :=
              Nat.mul_le_mul_right _ free
    cases point with
    | ended reason consumed =>
        have left' := pump.ended reason consumed rfl
        cases reason with
        | overrun | commit _ =>
            obtain rfl : consumed = _ := left'
            exact ⟨Nat.mul_le_mul_right _ visible, Nat.mul_le_mul_right _ bounded⟩
        | read | dropped =>
            obtain ⟨free, got, short, rfl⟩ := left'
            exact within_ring free short.le
    | top sequence consumed =>
        obtain ⟨-, rfl⟩ := pump.top _ _ rfl
        exact ⟨Nat.mul_le_mul_right _ visible, Nat.mul_le_mul_right _ bounded⟩
    | reading sequence lease slice got consumed =>
        obtain ⟨-, rfl, leased, -, -⟩ := pump.reading _ _ _ _ _ rfl
        exact within_ring leased.room within

end Records

theorem driveAll_records {steps : Nat} {point point' : PumpAt} {t : Shared}
    {right : DataPlane.Ring (List Call)}
    (reached : Records sampleRing samplePcm 2 2 sampleStream (fun _ => none)
      ⟨.ret point, right, s⟩) (ran : driveAll steps (point, s) = some (point', t)) :
    Records sampleRing samplePcm 2 2 sampleStream (fun _ => none) ⟨.ret point', right, t⟩ := by
  induction steps generalizing point s with
  | zero =>
      obtain ⟨rfl, rfl⟩ := Prod.mk.inj (Option.some.inj ran)
      exact reached
  | succ steps ih =>
      obtain ⟨p, driven, ran⟩ := Option.bind_eq_some_iff.mp ran
      obtain ⟨⟨next, u⟩, stepped, ran⟩ := Option.bind_eq_some_iff.mp ran
      exact ih (reached.trans (.head (.leftStart (drive_offered driven)) (left_run stepped))) ran

/-- One interval arrives and half of another; PipeWire asks with a buffer of one octet. -/
def sampleRecording : Option (PumpAt × List Call × Shared) :=
  (driveAll 6 (.top 0 0, sampleRing.shared fun _ => none)).bind fun pumped =>
  ((PipeWire.Source.recorded samplePcm 2 [] (some 1)).run exec pumped.2).map fun called =>
    (pumped.1, called)

/-- What `read_exact` has of its slot, and of the stream. -/
def received : PumpAt → Option (Nat × Nat)
  | .reading _ _ _ got consumed => some (got, consumed)
  | .top _ _ | .ended _ _ => none

/-- The stream ends in the middle of the second interval. -/
theorem recording_end_to_end_one_octet :
    ∃ c calls, Records sampleRing samplePcm 2 2 sampleStream (fun _ => none) c ∧
      c.left = .ret (.ended .read 3) ∧ c.right = .ret calls ∧
      calls = [⟨some 1, Chunk.of 2 [0], true⟩] ∧
      (∀ j call, (calls.filter (·.took))[j]? = some call →
        call.chunk =
          Chunk.of 2 ((segment sampleStream (j * 2) 2).take (call.destination.getD 0))) ∧
      (calls.filter (·.took)).length * 2 ≤ consumedAt (.ended .read 3) ∧
      consumedAt (.ended .read 3) ≤ ((calls.filter (·.took)).length + 2) * 2 := by
  have outcome : sampleRecording.map (fun out => decide
      (received out.1 = some (1, 3) ∧ out.2.1 = [⟨some 1, Chunk.of 2 [0], true⟩] ∧
        out.2.2.committed.length < 2 ^ 64)) = some true := by
    decide +kernel
  obtain ⟨⟨point, calls, t⟩, ran, checked⟩ := Option.map_eq_some_iff.mp outcome
  obtain ⟨half, isCalls, few⟩ := of_decide_eq_true checked
  obtain ⟨⟨point', u⟩, pumped, ran⟩ := Option.bind_eq_some_iff.mp ran
  obtain ⟨⟨calls', t'⟩, called, same⟩ := Option.map_eq_some_iff.mp ran
  obtain ⟨rfl, rfl, rfl⟩ : point' = point ∧ calls' = calls ∧ t' = t := by simpa using same
  have before : Records sampleRing samplePcm 2 2 sampleStream (fun _ => none)
      ⟨.ret point', .ret calls', t'⟩ :=
    (driveAll_records .refl pumped).trans
      (.head (.rightStart (.process (some 1))) (right_run called))
  obtain ⟨sequence, lease, slice, rfl⟩ : ∃ sequence lease slice,
      point' = .reading sequence lease slice 1 3 := by
    cases point' with
    | reading sequence lease slice got consumed =>
        cases half
        exact ⟨_, _, _, rfl⟩
    | top _ _ | ended _ _ => cases half
  have reached : Records sampleRing samplePcm 2 2 sampleStream (fun _ => none)
      ⟨.ret (.ended .read 3), .ret calls', t'⟩ :=
    before.tail (.leftStart (.fail (by decide)))
  obtain ⟨heard, -, -, ahead⟩ :=
    recording_end_to_end sampleRing_created reached (.inl few) calls' rfl
  exact ⟨_, calls', reached, rfl, rfl, isCalls, heard, ahead _ rfl⟩

end Dorsche.Bin.DorschePipewire
