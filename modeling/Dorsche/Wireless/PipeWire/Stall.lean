import Dorsche.Lib.Runs
import Dorsche.Wireless.DataPlane.SlotBounds
import Dorsche.Wireless.PipeWire.Source

/-!
Whether a bad frame stalls the source of `PipeWireAdapter::run_source`.

Here the ring holds anything, not only what a `Producer` published. A call that
gets a lease releases its slot when the lease is dropped, in the negotiated format
or not. A descriptor that `try_acquire` rejects gives no lease: nothing is dropped,
`tail` stays, and the callback takes the error for an empty ring. The next call
finds the same slot.

`Remains` says what is left of a queue after some of its frames were taken. At
zero frames taken it is all that the other side of the ring may do between calls.
-/

namespace Dorsche.Wireless.PipeWire.Source

open Dorsche.Lib Dorsche.Wireless.DataPlane

variable {pcm : PcmConfiguration} {stride : Nat} {s t u : Shared} {cursor : UInt64}
  {destination : Option Nat}

/-- The `process` callback. A buffer is a list of data planes, each mapped with a
length or not; only the first is used. A call without a plane returns before it
looks at the ring. -/
def callback (pcm : PcmConfiguration) (stride : Nat) :
    Option (List (Option Nat)) → DataPlane.Ring (Option (Chunk × Bool))
  | some (destination :: _) => do
      let out ← process pcm stride destination
      return some out
  | _ => return none

/-! ### Frames in the slots -/

def slotAt (s : Shared) (cursor : UInt64) : Nat :=
  slotOffset 64 (s.memory.u32 slotCountOffset) (s.memory.u32 slotStrideOffset) cursor

/-- The descriptor in the slot of a cursor, whatever wrote it. -/
def descriptorAt (s : Shared) (cursor : UInt64) : FrameDescriptor :=
  .decode (s.memory.read (slotAt s cursor) FrameDescriptor.sizeOf)

/-- `try_acquire` accepts the frame in the slot of a cursor. -/
def WellFormed (s : Shared) (cursor : UInt64) : Prop :=
  (descriptorAt s cursor).abiVersion = wirelessAudioAbiVersion ∧
    (descriptorAt s cursor).headerBytes.toNat = FrameDescriptor.sizeOf ∧
    (descriptorAt s cursor).payloadBytes ≤ s.memory.u32 payloadCapacityOffset

instance (s : Shared) (cursor : UInt64) : Decidable (WellFormed s cursor) :=
  inferInstanceAs (Decidable (_ ∧ _))

/-- The octets of a well-formed frame that a call with this plane hands over. -/
def handed (pcm : PcmConfiguration) (s : Shared) (cursor : UInt64) :
    Option Nat → List UInt8
  | some length =>
      if Negotiated pcm (descriptorAt s cursor) then
        s.memory.read (slotAt s cursor + FrameDescriptor.sizeOf)
          (min length (descriptorAt s cursor).payloadBytes.toNat)
      else []
  | none => []

/-- Frames between the cursors: `head - tail`. -/
def waiting (s : Shared) : Nat := (s.memory.u64 headOffset - s.memory.u64 tailOffset).toNat

theorem waiting_eq_zero_iff :
    waiting s = 0 ↔ s.memory.u64 tailOffset = s.memory.u64 headOffset := by
  unfold waiting
  rw [UInt64.toNat_sub, ← UInt64.toNat_inj]
  have := (s.memory.u64 headOffset).toNat_lt
  have := (s.memory.u64 tailOffset).toNat_lt
  omega

/-- What the drop of a lease leaves. -/
def advance (s : Shared) : Shared :=
  { s.record .release with
    memory := s.memory.setWord 8 tailOffset (s.memory.u64 tailOffset + 1).toNat }

section Advance

theorem u32_advance {off : Nat} (below : off + 4 ≤ tailOffset) :
    (advance s).memory.u32 off = s.memory.u32 off :=
  congrArg UInt32.ofNat (Memory.word_setWord_of_disjoint (.inl below))

theorem head_advance : (advance s).memory.u64 headOffset = s.memory.u64 headOffset :=
  congrArg UInt64.ofNat (Memory.word_setWord_of_disjoint (.inl (by decide)))

theorem tail_advance : (advance s).memory.u64 tailOffset = s.memory.u64 tailOffset + 1 := by
  have stored := @Memory.word_setWord_self 8 s.memory tailOffset
    (s.memory.u64 tailOffset + 1).toNat (UInt64.toNat_lt _)
  exact (congrArg UInt64.ofNat stored).trans UInt64.ofNat_toNat

theorem read_advance {off n : Nat} (behind : ringHeaderSize ≤ off) :
    (advance s).memory.read off n = s.memory.read off n := by
  apply Memory.read_write_of_disjoint
  rw [length_leBytes]
  have : tailOffset + 8 ≤ ringHeaderSize := by decide
  omega

theorem waiting_advance (queued : waiting s ≠ 0) : waiting (advance s) + 1 = waiting s := by
  unfold waiting at queued ⊢
  rw [head_advance, tail_advance]
  rw [UInt64.toNat_sub] at queued
  rw [UInt64.toNat_sub, UInt64.toNat_sub, UInt64.toNat_add, UInt64.toNat_one]
  have := (s.memory.u64 headOffset).toNat_lt
  have := (s.memory.u64 tailOffset).toNat_lt
  omega

end Advance

/-! ### One call -/

section Call

theorem header_le_slotAt (nonzero : s.memory.u32 slotCountOffset ≠ 0) (cursor : UInt64) :
    ringHeaderSize ≤ slotAt s cursor := by
  have pos : 0 < (s.memory.u32 slotCountOffset).toNat :=
    Nat.pos_of_ne_zero fun zero => nonzero (UInt32.toNat_inj.mp zero)
  unfold slotAt
  rw [slotOffset_eq pos]
  exact Nat.le_add_right _ _

theorem run_tryAcquire_empty (empty : waiting s = 0) :
    Consumer.tryAcquire.run exec s = some (.ok none, s) := by
  simp only [Consumer.tryAcquire, access, Prog.perform_bind, Prog.run, exec,
    if_pos (waiting_eq_zero_iff.mp empty), Prog.pure_eq]

theorem run_tryAcquire_wellFormed (nonzero : s.memory.u32 slotCountOffset ≠ 0)
    (queued : waiting s ≠ 0) (sound : WellFormed s (s.memory.u64 tailOffset)) :
    Consumer.tryAcquire.run exec s = some (.ok (some
      ⟨descriptorAt s (s.memory.u64 tailOffset),
        slotAt s (s.memory.u64 tailOffset) + FrameDescriptor.sizeOf,
        s.memory.u64 tailOffset⟩), s) := by
  have apart := fun same => queued (waiting_eq_zero_iff.mpr same)
  obtain ⟨version, header, length⟩ := sound
  simp only [descriptorAt, slotAt] at version header length
  simp only [Consumer.tryAcquire, access, Prog.perform_bind, Prog.run, exec, if_neg apart,
    Prog.run_bind, run_slot nonzero, Option.bind_some, version, header, length,
    not_true_eq_false, if_false, Prog.pure_eq, descriptorAt, slotAt]

theorem run_tryAcquire_malformed (nonzero : s.memory.u32 slotCountOffset ≠ 0)
    (queued : waiting s ≠ 0) (malformed : ¬ WellFormed s (s.memory.u64 tailOffset)) :
    ∃ error, Consumer.tryAcquire.run exec s = some (.error error, s) := by
  have apart := fun same => queued (waiting_eq_zero_iff.mpr same)
  simp only [Consumer.tryAcquire, access, Prog.perform_bind, Prog.run, exec, if_neg apart,
    Prog.run_bind, run_slot nonzero, Option.bind_some]
  split
  · exact ⟨_, rfl⟩
  split
  · exact ⟨_, rfl⟩
  simp only [Prog.run, exec]
  split
  · exact ⟨_, rfl⟩
  · rename_i version header length
    exact absurd ⟨not_not.mp version, not_not.mp header, not_not.mp length⟩ malformed

/-- A call that finds a well-formed frame hands its part over and advances. -/
theorem run_process_wellFormed (nonzero : s.memory.u32 slotCountOffset ≠ 0)
    (queued : waiting s ≠ 0) (sound : WellFormed s (s.memory.u64 tailOffset)) :
    (process pcm stride destination).run exec s =
      some ((Chunk.of stride (handed pcm s (s.memory.u64 tailOffset) destination), true),
        advance s) := by
  unfold process
  rw [Prog.run_bind, run_tryAcquire_wellFormed nonzero queued sound]
  cases destination with
  | none => rfl
  | some length =>
      simp only [Option.bind_some, Prog.run_bind, copyFrame, handed]
      split <;> rfl

/-- A call on an empty ring or a malformed frame leaves the ring as it is. -/
theorem run_process_idle (nonzero : s.memory.u32 slotCountOffset ≠ 0)
    (nothing : waiting s = 0 ∨ ¬ WellFormed s (s.memory.u64 tailOffset)) :
    (process pcm stride destination).run exec s = some ((Chunk.of stride [], false), s) := by
  unfold process
  rw [Prog.run_bind]
  by_cases empty : waiting s = 0
  · rw [run_tryAcquire_empty empty]
    cases destination <;> rfl
  · obtain ⟨error, rejected⟩ :=
      run_tryAcquire_malformed nonzero empty (nothing.resolve_left empty)
    rw [rejected]
    cases destination <;> rfl

end Call

/-! ### What is left of a queue -/

/-- Cursor of the `k`-th frame of the queue. -/
def nth (s : Shared) (k : Nat) : UInt64 := s.memory.u64 tailOffset + UInt64.ofNat k

/-- The whole slot of a cursor: descriptor and payload. -/
def slotBytes (s : Shared) (off : Nat) : List UInt8 :=
  s.memory.read off (FrameDescriptor.sizeOf + (s.memory.u32 payloadCapacityOffset).toNat)

/-- `n` frames of the queue of `s` were taken, and the others are where they were.
New ones may have come behind them. -/
structure Remains (s : Shared) (n : Nat) (t : Shared) : Prop where
  slotCount : t.memory.u32 slotCountOffset = s.memory.u32 slotCountOffset
  slotStride : t.memory.u32 slotStrideOffset = s.memory.u32 slotStrideOffset
  payloadCapacity : t.memory.u32 payloadCapacityOffset = s.memory.u32 payloadCapacityOffset
  tail : t.memory.u64 tailOffset = nth s n
  queue : waiting s ≤ n + waiting t
  slots : ∀ k, n ≤ k → k < waiting s →
    slotBytes t (slotAt s (nth s k)) = slotBytes s (slotAt s (nth s k))

theorem nth_zero (s : Shared) : nth s 0 = s.memory.u64 tailOffset := UInt64.add_zero _

namespace Remains

variable {n m k : Nat}

theorem refl (s : Shared) : Remains s 0 s :=
  ⟨rfl, rfl, rfl, (nth_zero s).symm, (Nat.zero_add _).ge, fun _ _ _ => rfl⟩

theorem slotCount_ne_zero (remains : Remains s n t)
    (nonzero : s.memory.u32 slotCountOffset ≠ 0) : t.memory.u32 slotCountOffset ≠ 0 :=
  remains.slotCount.symm ▸ nonzero

theorem slotAt_eq (remains : Remains s n t) (cursor : UInt64) :
    slotAt t cursor = slotAt s cursor := by
  unfold slotAt
  rw [remains.slotCount, remains.slotStride]

theorem nth_eq (remains : Remains s n t) (k : Nat) : nth t k = nth s (n + k) := by
  unfold nth
  rw [remains.tail, nth, UInt64.ofNat_add, UInt64.add_assoc]

theorem trans (first : Remains s n t) (second : Remains t m u) : Remains s (n + m) u where
  slotCount := second.slotCount.trans first.slotCount
  slotStride := second.slotStride.trans first.slotStride
  payloadCapacity := second.payloadCapacity.trans first.payloadCapacity
  tail := second.tail.trans (first.nth_eq m)
  queue := by
    have := first.queue
    have := second.queue
    omega
  slots := by
    intro k taken queued
    obtain ⟨j, rfl⟩ := Nat.le.dest ((Nat.le_add_right n m).trans taken)
    have kept := second.slots j (by omega) (by have := first.queue; omega)
    rw [first.slotAt_eq, first.nth_eq] at kept
    exact kept.trans (first.slots _ (Nat.le_add_right _ _) queued)

/-- A drop takes one frame. -/
theorem advanced (nonzero : s.memory.u32 slotCountOffset ≠ 0) (queued : waiting s ≠ 0) :
    Remains s 1 (advance s) where
  slotCount := u32_advance (by decide)
  slotStride := u32_advance (by decide)
  payloadCapacity := u32_advance (by decide)
  tail := tail_advance
  queue := by
    have := waiting_advance queued
    omega
  slots := by
    intro k _ _
    unfold slotBytes
    rw [u32_advance (by decide), read_advance (header_le_slotAt nonzero _)]

/-- A queued frame that was not taken is as it was. -/
theorem descriptorAt_eq (remains : Remains s n t) (left : n ≤ k) (queued : k < waiting s) :
    descriptorAt t (nth s k) = descriptorAt s (nth s k) := by
  have same := congrArg (List.take FrameDescriptor.sizeOf) (remains.slots k left queued)
  simp only [slotBytes, Memory.take_read (Nat.le_add_right _ _)] at same
  unfold descriptorAt
  rw [remains.slotAt_eq, same]

theorem wellFormed_iff (remains : Remains s n t) (left : n ≤ k) (queued : k < waiting s) :
    WellFormed t (nth s k) ↔ WellFormed s (nth s k) := by
  unfold WellFormed
  rw [remains.descriptorAt_eq left queued, remains.payloadCapacity]

theorem handed_eq (remains : Remains s n t) (left : n ≤ k) (queued : k < waiting s)
    (sound : WellFormed s (nth s k)) :
    handed pcm t (nth s k) destination = handed pcm s (nth s k) destination := by
  cases destination with
  | none => rfl
  | some length =>
      have fits := UInt32.le_iff_toNat_le.mp sound.2.2
      have part : FrameDescriptor.sizeOf +
          min length (descriptorAt s (nth s k)).payloadBytes.toNat ≤
          FrameDescriptor.sizeOf + (s.memory.u32 payloadCapacityOffset).toNat := by omega
      have same := congrArg (fun slot => (slot.drop FrameDescriptor.sizeOf).take
        (min length (descriptorAt s (nth s k)).payloadBytes.toNat)) (remains.slots k left queued)
      simp only [slotBytes, remains.payloadCapacity, Memory.read_part part] at same
      simp only [handed, remains.descriptorAt_eq left queued, remains.slotAt_eq, same]

end Remains

/-! ### Calls after calls -/

/-- A call of PipeWire with what it got, or something the other side does. -/
inductive Act where
  | call (buffer : Option (List (Option Nat))) (out : Option (Chunk × Bool))
  | other

/-- A call runs the callback. Between calls the other side may do anything but
take frames away, write to a queued slot or reshape the ring. -/
def Step (pcm : PcmConfiguration) (stride : Nat) (s : Shared) : Act → Shared → Prop
  | .call buffer out, t => (callback pcm stride buffer).run exec s = some (out, t)
  | .other, t => Remains s 0 t

/-- The call that got a data plane, with the plane and what it told PipeWire. -/
def Act.served? : Act → Option (Option Nat × Chunk × Bool)
  | .call (some (destination :: _)) (some out) => some (destination, out)
  | _ => none

/-- The calls that got a data plane. -/
def served (log : List Act) : List (Option Nat × Chunk × Bool) := log.filterMap Act.served?

theorem run_callback (planes : List (Option Nat)) :
    (callback pcm stride (some (destination :: planes))).run exec s =
      ((process pcm stride destination).run exec s).map (Prod.map some id) := by
  unfold callback
  rw [Prog.run_bind]
  cases (process pcm stride destination).run exec s <;> rfl

/-- A step is a call with a plane, or it takes nothing from the queue. -/
theorem Step.cases {act : Act} (step : Step pcm stride s act t) :
    (∃ destination out, act.served? = some (destination, out) ∧
      (process pcm stride destination).run exec s = some (out, t)) ∨
    (act.served? = none ∧ Remains s 0 t) := by
  cases act with
  | other => exact .inr ⟨rfl, step⟩
  | call buffer out =>
      cases buffer with
      | none =>
          obtain ⟨rfl, rfl⟩ := Prod.mk.inj (Option.some.inj step)
          exact .inr ⟨rfl, .refl s⟩
      | some planes =>
          cases planes with
          | nil =>
              obtain ⟨rfl, rfl⟩ := Prod.mk.inj (Option.some.inj step)
              exact .inr ⟨rfl, .refl s⟩
          | cons destination planes =>
              obtain ⟨⟨result, u⟩, ran, same⟩ :=
                Option.map_eq_some_iff.mp ((run_callback planes).symm.trans step)
              obtain ⟨rfl, rfl⟩ := Prod.mk.inj same
              exact .inl ⟨destination, result, rfl, ran⟩

theorem served_snoc (log : List Act) (act : Act) :
    served (log ++ [act]) = served log ++ act.served?.toList := by
  unfold served
  rw [List.filterMap_append]
  cases seen : act.served? <;> simp [seen]

/-- The `i`-th call with a plane had the turn of the `i`-th frame of the queue, and
handed over what belongs to the plane. -/
def InTurn (pcm : PcmConfiguration) (stride : Nat) (s : Shared)
    (calls : List (Option Nat × Chunk × Bool)) : Prop :=
  ∀ i destination out, calls[i]? = some (destination, out) →
    out = (Chunk.of stride (handed pcm s (nth s i) destination), true)

/-- A bad frame does not stall the source: calls go through, each takes the next
frame of the queue, and the first one makes room in a full ring. -/
structure Flows (pcm : PcmConfiguration) (stride : Nat) (s : Shared) : Prop where
  goes_on : ∀ log t, Runs (Step pcm stride) s log t → (served log).length < waiting s →
    ∀ destination, ∃ out u, (process pcm stride destination).run exec t = some (out, u)
  takes : ∀ log t, Runs (Step pcm stride) s log t → (served log).length ≤ waiting s →
    t.memory.u64 tailOffset = nth s (served log).length ∧ InTurn pcm stride s (served log)
  frees : ∀ destination out t, (process pcm stride destination).run exec s = some (out, t) →
    waiting s ≤ (s.memory.u32 slotCountOffset).toNat →
    ∃ lease, Producer.tryReserve.run exec t = some (some lease, t)

section Runs

variable {log : List Act}

theorem InTurn.snoc {calls : List (Option Nat × Chunk × Bool)} {out : Chunk × Bool}
    (turns : InTurn pcm stride s calls)
    (next : out = (Chunk.of stride (handed pcm s (nth s calls.length) destination), true)) :
    InTurn pcm stride s (calls ++ [(destination, out)]) := by
  intro i destination' out' is
  rcases Nat.lt_trichotomy i calls.length with before | rfl | behind
  · rw [List.getElem?_append_left before] at is
    exact turns i destination' out' is
  · rw [List.getElem?_concat_length] at is
    obtain ⟨rfl, rfl⟩ := Prod.mk.inj (Option.some.inj is)
    exact next
  · rw [List.getElem?_eq_none (by simp only [List.length_append, List.length_singleton]; omega)]
      at is
    cases is

/-- A call after some frames were taken takes the next one, when it is well formed. -/
theorem Remains.run_process {n : Nat} (remains : Remains s n t)
    (nonzero : s.memory.u32 slotCountOffset ≠ 0) (queued : n < waiting s)
    (sound : WellFormed s (nth s n)) :
    ∃ u, (process pcm stride destination).run exec t =
        some ((Chunk.of stride (handed pcm s (nth s n) destination), true), u) ∧
      Remains s (n + 1) u := by
  have nonzero' := remains.slotCount_ne_zero nonzero
  have queued' : waiting t ≠ 0 := by
    have := remains.queue
    omega
  have sound' := (remains.wellFormed_iff le_rfl queued).mpr sound
  rw [← remains.handed_eq le_rfl queued sound, ← remains.tail]
  rw [← remains.tail] at sound'
  exact ⟨_, run_process_wellFormed nonzero' queued' sound',
    remains.trans (.advanced nonzero' queued')⟩

/-- As long as the queue lasts, the calls take its frames one by one. -/
theorem Runs.takes (nonzero : s.memory.u32 slotCountOffset ≠ 0)
    (sound : ∀ k < waiting s, WellFormed s (nth s k)) (run : Runs (Step pcm stride) s log t)
    (lasts : (served log).length ≤ waiting s) :
    Remains s (served log).length t ∧ InTurn pcm stride s (served log) := by
  refine run.logged (P := fun log t => (served log).length ≤ waiting s →
    Remains s (served log).length t ∧ InTurn pcm stride s (served log)) ?_ ?_ lasts
  · intro log t act u holds step lasts
    rw [served_snoc] at lasts ⊢
    rcases step.cases with ⟨destination, out, seen, ran⟩ | ⟨seen, rests⟩
    · rw [seen, Option.toList_some, List.length_append, List.length_singleton] at lasts
      obtain ⟨remains, turns⟩ := holds (by omega)
      obtain ⟨u', ran', remains'⟩ := remains.run_process nonzero lasts (sound _ lasts)
      obtain ⟨rfl, rfl⟩ := Prod.mk.inj (Option.some.inj (ran.symm.trans ran'))
      rw [seen, Option.toList_some, List.length_append, List.length_singleton]
      exact ⟨remains', turns.snoc rfl⟩
    · rw [seen, Option.toList_none, List.append_nil] at lasts ⊢
      obtain ⟨remains, turns⟩ := holds lasts
      exact ⟨remains.trans rests, turns⟩
  · intro _
    exact ⟨.refl s, by simp [InTurn, served]⟩

/-- A malformed frame at the tail stays there for good: no call gives anything or
moves the tail, whatever the other side does. -/
theorem Runs.stuck (nonzero : s.memory.u32 slotCountOffset ≠ 0) (queued : waiting s ≠ 0)
    (malformed : ¬ WellFormed s (s.memory.u64 tailOffset))
    (run : Runs (Step pcm stride) s log t) :
    Remains s 0 t ∧ ∀ call ∈ served log, call.2 = (Chunk.of stride [], false) := by
  refine run.logged (P := fun log t => Remains s 0 t ∧
    ∀ call ∈ served log, call.2 = (Chunk.of stride [], false)) ?_ ⟨.refl s, by simp [served]⟩
  rintro log t act u ⟨remains, idle⟩ step
  rw [served_snoc]
  rcases step.cases with ⟨destination, out, seen, ran⟩ | ⟨seen, rests⟩
  · have nonzero' := remains.slotCount_ne_zero nonzero
    have still : ¬ WellFormed t (t.memory.u64 tailOffset) := by
      rw [remains.tail, remains.wellFormed_iff le_rfl (Nat.pos_of_ne_zero queued), nth_zero]
      exact malformed
    obtain ⟨rfl, rfl⟩ :=
      Prod.mk.inj (Option.some.inj (ran.symm.trans (run_process_idle nonzero' (.inr still))))
    refine ⟨remains, ?_⟩
    rw [seen]
    intro call mem
    rcases List.mem_append.mp mem with before | last
    · exact idle call before
    · rw [List.mem_singleton.mp last]
  · rw [seen, Option.toList_none, List.append_nil]
    exact ⟨remains.trans rests, idle⟩

/-- A run of nothing but calls, through the well-formed part of the queue. -/
theorem Runs.exists_calls {n : Nat} (nonzero : s.memory.u32 slotCountOffset ≠ 0)
    (within : n ≤ waiting s) (sound : ∀ k < n, WellFormed s (nth s k)) :
    ∃ log t, Runs (Step pcm stride) s log t ∧ (served log).length = n ∧ Remains s n t := by
  induction n with
  | zero => exact ⟨[], s, .nil, rfl, .refl s⟩
  | succ n ih =>
      obtain ⟨log, t, run, count, remains⟩ :=
        ih (by omega) fun k below => sound k (Nat.lt_succ_of_lt below)
      obtain ⟨u, ran, remains'⟩ := @Remains.run_process pcm stride s t none n remains nonzero
        within (sound n n.lt_succ_self)
      have step : Step pcm stride t (.call (some [none]) (some _)) u :=
        (run_callback []).trans (congrArg (Option.map (Prod.map some id)) ran)
      refine ⟨_, u, run.snoc step, ?_, remains'⟩
      rw [served_snoc, List.length_append, count]
      rfl

end Runs

/-! ### The producer -/

theorem full_iff : (s.memory.u32 slotCountOffset).toUInt64 ≤
      s.memory.u64 headOffset - s.memory.u64 tailOffset ↔
    (s.memory.u32 slotCountOffset).toNat ≤ waiting s := by
  rw [UInt64.le_iff_toNat_le, UInt32.toNat_toUInt64, waiting]

theorem run_tryReserve_room (nonzero : s.memory.u32 slotCountOffset ≠ 0)
    (room : waiting s < (s.memory.u32 slotCountOffset).toNat) :
    ∃ lease, Producer.tryReserve.run exec s = some (some lease, s) := by
  have free := mt full_iff.mp (Nat.not_le.mpr room)
  simp only [Producer.tryReserve, access, Prog.perform_bind, Prog.run, exec, if_neg free,
    Prog.run_bind, run_slot nonzero, Option.bind_some]
  exact ⟨_, rfl⟩

theorem run_tryReserve_full (full : (s.memory.u32 slotCountOffset).toNat ≤ waiting s) :
    ∃ t, Producer.tryReserve.run exec s = some (none, t) := by
  simp only [Producer.tryReserve, access, Prog.perform_bind, Prog.run, exec,
    if_pos (full_iff.mpr full)]
  exact ⟨_, rfl⟩

/-! ### Progress -/

theorem flows_of_wellFormed (nonzero : s.memory.u32 slotCountOffset ≠ 0)
    (sound : ∀ k < waiting s, WellFormed s (nth s k)) : Flows pcm stride s where
  goes_on := by
    intro log t run lasts destination
    obtain ⟨remains, -⟩ := Runs.takes nonzero sound run lasts.le
    obtain ⟨u, ran, -⟩ := remains.run_process nonzero lasts (sound _ lasts)
    exact ⟨_, u, ran⟩
  takes := by
    intro log t run lasts
    obtain ⟨remains, turns⟩ := Runs.takes nonzero sound run lasts
    exact ⟨remains.tail, turns⟩
  frees := by
    intro destination out t ran fits
    by_cases empty : waiting s = 0
    · obtain ⟨-, rfl⟩ :=
        Prod.mk.inj (Option.some.inj (ran.symm.trans (run_process_idle nonzero (.inl empty))))
      have := mt UInt32.toNat_inj.mp nonzero
      exact run_tryReserve_room nonzero (by rw [empty]; exact Nat.pos_of_ne_zero this)
    · have first := sound 0 (Nat.pos_of_ne_zero empty)
      rw [nth_zero] at first
      obtain ⟨-, rfl⟩ := Prod.mk.inj
        (Option.some.inj (ran.symm.trans (run_process_wellFormed nonzero empty first)))
      have taken := Remains.advanced nonzero empty
      have fewer := waiting_advance empty
      refine run_tryReserve_room (taken.slotCount_ne_zero nonzero) ?_
      rw [taken.slotCount]
      omega

theorem Flows.wellFormed (nonzero : s.memory.u32 slotCountOffset ≠ 0)
    (flows : Flows pcm stride s) : ∀ k < waiting s, WellFormed s (nth s k) := by
  intro k
  induction k using Nat.strong_induction_on with
  | h k ih =>
      intro queued
      obtain ⟨log, t, run, count, remains⟩ := @Runs.exists_calls pcm stride s k nonzero queued.le
        fun j below => ih j below (below.trans queued)
      by_contra malformed
      have nonzero' := remains.slotCount_ne_zero nonzero
      have stands : ¬ WellFormed t (t.memory.u64 tailOffset) := by
        rw [remains.tail, remains.wellFormed_iff le_rfl queued]
        exact malformed
      have ran := @run_process_idle pcm stride t none nonzero' (.inr stands)
      have step : Step pcm stride t (.call (some [none]) (some (Chunk.of stride [], false))) t :=
        (run_callback []).trans (congrArg (Option.map (Prod.map some id)) ran)
      have calls : served (log ++ [.call (some [none]) (some (Chunk.of stride [], false))]) =
          served log ++ [(none, Chunk.of stride [], false)] := served_snoc _ _
      -- The call found nothing although the frame was due.
      have turn := (flows.takes _ t (run.snoc step) (by rw [calls]; simp [count]; omega)).2
      rw [calls] at turn
      have due := turn _ _ _ List.getElem?_concat_length
      exact Bool.false_ne_true (congrArg Prod.snd due)

/-- Octets come only from a well-formed frame of the negotiated format, and the
source flows exactly when every queued frame is well formed. -/
theorem source_flows_iff (nonzero : s.memory.u32 slotCountOffset ≠ 0) :
    (∀ destination out t, (process pcm stride destination).run exec s = some (out, t) →
      out.1.octets ≠ [] → waiting s ≠ 0 ∧ WellFormed s (nth s 0) ∧
        Negotiated pcm (descriptorAt s (nth s 0))) ∧
      (Flows pcm stride s ↔ ∀ k < waiting s, WellFormed s (nth s k)) := by
  refine ⟨?_, Flows.wellFormed nonzero, flows_of_wellFormed nonzero⟩
  intro destination out t ran some
  rw [nth_zero]
  by_cases nothing : waiting s = 0 ∨ ¬ WellFormed s (s.memory.u64 tailOffset)
  · rw [run_process_idle nonzero nothing] at ran
    obtain ⟨rfl, -⟩ := Prod.mk.inj (Option.some.inj ran)
    exact absurd rfl some
  · obtain ⟨queued, sound⟩ := not_or.mp nothing
    rw [run_process_wellFormed nonzero queued (not_not.mp sound)] at ran
    obtain ⟨rfl, -⟩ := Prod.mk.inj (Option.some.inj ran)
    refine ⟨queued, not_not.mp sound, ?_⟩
    by_contra foreign
    cases destination with
    | none => exact some rfl
    | some length => exact some (if_neg foreign)

/-- A full ring of two slots: the first descriptor as given, the second of a
well-formed frame of two samples. -/
def fullRing (first : FrameDescriptor) : Shared :=
  let header : RingHeader := { roomyHeader with head := 2 }
  let stamped := ProducerLease.stamped (.new .pcm 1) 4
  .fresh (((header.store fun _ => 0).write 256 first.encode).write 384 stamped.encode)
    fun _ => none

/-- Two frames in a ring of two slots. -/
theorem source_flows_two_frames :
    Flows ⟨48000, 16, 1, 10000⟩ 2 (fullRing (ProducerLease.stamped (.new .pcm 0) 4)) :=
  (source_flows_iff (by decide +kernel)).2.mpr (by decide +kernel)

/-- The first frame has another ABI version. The second never has its turn, and
no reservation succeeds again. -/
theorem source_stalls :
    let pcm : PcmConfiguration := ⟨48000, 16, 1, 10000⟩
    let s := fullRing { ProducerLease.stamped (.new .pcm 0) 4 with abiVersion := 2 }
    waiting s = 2 ∧ WellFormed s (nth s 1) ∧ ¬ Flows pcm 2 s ∧
      ∀ log t, Runs (Step pcm 2) s log t →
        t.memory.u64 tailOffset = s.memory.u64 tailOffset ∧
          (∀ call ∈ served log, call.2 = (Chunk.of 2 [], false)) ∧
          ∃ u, Producer.tryReserve.run exec t = some (none, u) := by
  intro pcm s
  have nonzero : s.memory.u32 slotCountOffset ≠ 0 := by decide +kernel
  have two : waiting s = 2 := by decide +kernel
  have full : (s.memory.u32 slotCountOffset).toNat ≤ waiting s := by decide +kernel
  have malformed : ¬ WellFormed s (s.memory.u64 tailOffset) := by decide +kernel
  refine ⟨two, by decide +kernel, fun flows => ?_, ?_⟩
  · have first := flows.wellFormed nonzero 0 (by rw [two]; decide)
    rw [nth_zero] at first
    exact malformed first
  · intro log t run
    obtain ⟨remains, idle⟩ := Runs.stuck nonzero (by rw [two]; decide) malformed run
    refine ⟨remains.tail.trans (nth_zero s), idle, run_tryReserve_full ?_⟩
    have := remains.queue
    rw [remains.slotCount]
    omega

end Dorsche.Wireless.PipeWire.Source
