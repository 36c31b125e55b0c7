import Dorsche.Wireless.DataPlane.Delivery

/-!
Publication and the result of `commit`.

`commit` stores the head cursor first and then writes the eventfd; only the
second step can fail, so an error may be returned for a frame that the consumer
already sees. The lemmas here compare the result of a call that nobody
interrupts with what it did to the ring: `visible` is what a consumer would
read from the mapping.
-/

namespace Dorsche.Wireless.DataPlane

open Dorsche.Lib

variable {g : Geometry} {s t : Shared}

/-! ### What the consumer sees -/

/-- The frame in the slot of a cursor value. -/
def frameAt (m : Memory) (index : UInt64) : Frame :=
  let slot := slotOffset 64 (m.u32 slotCountOffset) (m.u32 slotStrideOffset) index
  let descriptor := FrameDescriptor.decode (m.read slot FrameDescriptor.sizeOf)
  ⟨descriptor, m.read (slot + FrameDescriptor.sizeOf) descriptor.payloadBytes.toNat⟩

/-- The frames from tail to head. -/
def visible (m : Memory) : List Frame :=
  (List.range (m.u64 headOffset - m.u64 tailOffset).toNat).map fun i =>
    frameAt m (m.u64 tailOffset + UInt64.ofNat i)

/-- Where the slots keep count, the visible frames are the published ones that
have not been released. -/
theorem RingInv.visible_eq (inv : RingInv g s) (coherent : Coherent g s.committed.length) :
    visible s.memory = s.committed.drop s.released := by
  have count := inv.distance
  apply List.ext_getElem
  · simp [visible, count]
  · intro i inside _
    have below : s.released + i < s.committed.length := by
      simp only [visible, List.length_map, List.length_range, count] at inside
      omega
    have is : s.committed[s.released + i]? = some s.committed[s.released + i] :=
      List.getElem?_eq_getElem below
    have stored := inv.contents coherent _ _ (Nat.le_add_right _ _) is
    simp only [visible, List.getElem_map, List.getElem_range, List.getElem_drop, frameAt,
      inv.shaped.slotCount, inv.shaped.slotStride, inv.tail, ← UInt64.ofNat_add,
      g.slotOffset_ofNat, stored.descriptor]
    rw [show g.slotAt (s.released + i) + FrameDescriptor.sizeOf = g.payloadAt (s.released + i)
      from rfl, stored.payload]

/-! ### Atomicity of one call -/

/-- Cursors, drop counter and visible frames are as before. -/
structure Unchanged (s t : Shared) : Prop where
  head : t.memory.u64 headOffset = s.memory.u64 headOffset
  tail : t.memory.u64 tailOffset = s.memory.u64 tailOffset
  dropped : t.memory.u64 droppedOffset = s.memory.u64 droppedOffset
  visible : visible t.memory = visible s.memory

/-- One frame was added behind the visible ones. -/
def OneAdded (s t : Shared) : Prop := ∃ f, visible t.memory = visible s.memory ++ [f]

/-- The result of `commit` agrees with its effect. -/
def CommitAtomic (s t : Shared) : Except RingError Unit → Prop
  | .error _ => Unchanged s t
  | .ok () => OneAdded s t

/-- The result of `try_push_copy` agrees with its effect. -/
def PushAtomic (s t : Shared) : Except RingError Bool → Prop
  | .error _ => Unchanged s t
  | .ok true => OneAdded s t
  | .ok false => visible t.memory = visible s.memory

/-- The next eventfd write fails with an error other than `WouldBlock`. -/
def SignalFails (s : Shared) : Prop :=
  ∃ errno, s.event.faults s.event.writes = some (.other errno)

theorem ProducerMoves.of_reflTransGen (moves : Relation.ReflTransGen ProducerMoves s t) :
    ProducerMoves s t := by
  induction moves with
  | refl => exact .refl s
  | tail _ step ih => exact ih.trans step

theorem unchanged_of_same (inv : RingInv g s) (inv' : RingInv g t)
    (coherent : Coherent g s.committed.length) (committed : t.committed = s.committed)
    (released : t.released = s.released) (refused : t.refused = s.refused) : Unchanged s t := by
  refine ⟨?_, ?_, ?_, ?_⟩
  · rw [inv'.head, inv.head, committed]
  · rw [inv'.tail, inv.tail, released]
  · rw [inv'.dropped, inv.dropped, refused]
  · rw [inv'.visible_eq (by rwa [committed]), inv.visible_eq coherent, committed, released]

theorem oneAdded_of_append {f : Frame} (inv : RingInv g s) (inv' : RingInv g t)
    (coherent : Coherent g t.committed.length) (committed : t.committed = s.committed ++ [f])
    (released : t.released = s.released) : OneAdded s t := by
  refine ⟨f, ?_⟩
  have shorter : s.committed.length ≤ t.committed.length := by simp [committed]
  rw [inv'.visible_eq coherent, inv.visible_eq (coherent.mono shorter), committed, released,
    List.drop_append_of_le_length inv.released_le]

/-- A published frame moves the head cursor. -/
theorem head_ne_of_append {f : Frame} (inv : RingInv g s) (inv' : RingInv g t)
    (committed : t.committed = s.committed ++ [f]) :
    t.memory.u64 headOffset ≠ s.memory.u64 headOffset := by
  rw [inv'.head, inv.head, committed, List.length_append, List.length_singleton]
  intro same
  have := (ofNat_inj_of_near (Nat.le_succ _) (by omega)).mp same.symm
  omega

/-- An uninterrupted `commit` returns, and its result agrees with its effect
exactly when the payload does not fit or the eventfd write does not fail. -/
theorem commitAtomic_iff {lease : ProducerLease} (inv : RingInv g s) (leased : Leased g lease s)
    (few : s.committed.length + 1 < 2 ^ 64) (descriptor : FrameDescriptor) (payloadBytes : Nat) :
    ∃ result t, (lease.commit descriptor payloadBytes).run exec s = some (result, t) ∧
      (CommitAtomic s t result ↔
        g.payloadCapacity.toNat < payloadBytes ∨ ¬ SignalFails s) := by
  have holds : (producer g anyLabel).Holds _ (lease.commit descriptor payloadBytes) s :=
    producer_commit leased descriptor payloadBytes fun _ _ _ _ => trivial
  obtain ⟨result, t, ran, inv', ⟨-, refused, -, -, outcome⟩, moves⟩ :=
    holds.run inv fun _ _ safe => safe.runs
  have released := (ProducerMoves.of_reflTransGen moves).released
  refine ⟨result, t, ran, ?_⟩
  cases outcome with
  | rejected large committed =>
      exact iff_of_true (unchanged_of_same inv inv' (coherent_of_lt (by omega)) committed released
        refused) (.inl large)
  | published fits committed _ signalled =>
      have length : t.committed.length = s.committed.length + 1 := by simp [committed]
      cases signalled with
      | ok sound =>
          refine iff_of_true (oneAdded_of_append inv inv' (coherent_of_lt (by omega)) committed
            released) (.inr ?_)
          rintro ⟨errno, fault⟩
          exact sound errno fault
      | failed fault =>
          refine iff_of_false (fun same => head_ne_of_append inv inv' committed same.head) ?_
          rintro (large | sound)
          · exact absurd fits (Nat.not_le.mpr large)
          · exact sound ⟨_, fault⟩

/-- An uninterrupted `try_push_copy` returns, and its result agrees with its
effect exactly when the ring is full, the payload does not fit or the eventfd
write does not fail. -/
theorem pushAtomic_iff (inv : RingInv g s) (quiet : s.unsignalled = false)
    (few : s.committed.length + 1 < 2 ^ 64) (descriptor : FrameDescriptor) (payload : List UInt8) :
    ∃ result t, (Producer.tryPushCopy descriptor payload).run exec s = some (result, t) ∧
      (PushAtomic s t result ↔ s.released + g.slotCount.toNat ≤ s.committed.length ∨
        g.payloadCapacity.toNat < payload.length ∨ ¬ SignalFails s) := by
  have holds : (producer g anyLabel).Holds _ (Producer.tryPushCopy descriptor payload) s :=
    producer_tryPushCopy quiet descriptor payload fun _ _ _ _ => trivial
  obtain ⟨result, t, ran, inv', ⟨-, outcome⟩, moves⟩ := holds.run inv fun _ _ safe => safe.runs
  have released := (ProducerMoves.of_reflTransGen moves).released
  refine ⟨result, t, ran, ?_⟩
  cases outcome with
  | refused full committed =>
      refine iff_of_true ?_ (.inl full)
      change visible t.memory = visible s.memory
      rw [inv'.visible_eq (coherent_of_lt (by rw [committed]; omega)),
        inv.visible_eq (coherent_of_lt (by omega)), committed, released]
  | rejected large committed refused =>
      exact iff_of_true (unchanged_of_same inv inv' (coherent_of_lt (by omega)) committed released
        refused) (.inr (.inl large))
  | published fits room committed _ _ signalled =>
      have length : t.committed.length = s.committed.length + 1 := by simp [committed]
      cases signalled with
      | ok sound =>
          refine iff_of_true (oneAdded_of_append inv inv' (coherent_of_lt (by omega)) committed
            released) (.inr (.inr ?_))
          rintro ⟨errno, fault⟩
          exact sound errno fault
      | failed fault =>
          refine iff_of_false (fun same => head_ne_of_append inv inv' committed same.head) ?_
          rintro (full | large | sound)
          · omega
          · exact absurd fits (Nat.not_le.mpr large)
          · exact sound ⟨_, fault⟩

end Dorsche.Wireless.DataPlane
