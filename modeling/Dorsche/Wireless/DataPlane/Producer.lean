import Dorsche.Wireless.DataPlane.Contracts

/-!
The producer's operations under its contract.

One specification for each operation of `Producer` and `ProducerLease`: what
it returns, what it leaves to the next operation, and that it keeps the contract
meanwhile.
-/

namespace Dorsche.Wireless.DataPlane

open Dorsche.Lib

variable {g : Geometry} {label : Shared → FrameDescriptor → Prop}
variable {s s' : Shared}

/-- A lease of the slot after the last published one. -/
structure Leased (g : Geometry) (lease : ProducerLease) (s : Shared) : Prop where
  head : lease.head = UInt64.ofNat s.committed.length
  slot : lease.slot = g.slotAt s.committed.length
  uncommitted : lease.committed = false
  room : s.committed.length < s.released + g.slotCount.toNat
  quiet : s.unsignalled = false

theorem Leased.moved {lease : ProducerLease} (leased : Leased g lease s)
    (moves : ConsumerMoves s s') : Leased g lease s' := by
  refine ⟨?_, ?_, leased.uncommitted, ?_, moves.unsignalled.trans leased.quiet⟩
  · rw [moves.committed, leased.head]
  · rw [moves.committed, leased.slot]
  · rw [moves.committed]
    exact leased.room.trans_le (Nat.add_le_add_right moves.released _)

theorem Leased.withMemory {lease : ProducerLease} (leased : Leased g lease s) (m : Memory) :
    Leased g lease { s with memory := m } :=
  ⟨leased.head, leased.slot, leased.uncommitted, leased.room, leased.quiet⟩

/-- `try_reserve` after it has loaded both cursors. -/
def Producer.reserveWith (head tail : UInt64) : Ring (Option ProducerLease) := do
  let slotCount ← access (.loadU32 slotCountOffset)
  if slotCount.toUInt64 ≤ head - tail then
    let _ ← access (.fetchAddU64 droppedOffset 1 .refuse)
    return none
  let slot ← Mapping.slot head
  return some ⟨slot, head, false⟩

theorem Producer.tryReserve_eq : Producer.tryReserve = (do
    let head ← access (.loadU64 headOffset)
    let tail ← access (.loadU64 tailOffset)
    Producer.reserveWith head tail) := rfl

/-- What a reservation makes of the state `s` in which it loaded the tail. -/
structure Reserved (g : Geometry) (s t : Shared) (lease : Option ProducerLease) : Prop where
  committed : t.committed = s.committed
  quiet : t.unsignalled = false
  writes : t.event.writes = s.event.writes
  faults : t.event.faults = s.event.faults
  refused : t.refused = s.refused + if lease = none then 1 else 0
  full : lease = none ↔ s.released + g.slotCount.toNat ≤ s.committed.length
  leased : ∀ open_, lease = some open_ → Leased g open_ t

/-- From the tail load on, `try_reserve` leases the next slot exactly when one was
free at that instant. -/
theorem producer_reserveWith (inv : RingInv g s) (quiet : s.unsignalled = false) :
    (producer g label).Holds (fun lease t => Reserved g s t lease)
      (Producer.reserveWith (s.memory.u64 headOffset) (s.memory.u64 tailOffset)) s := by
  unfold Producer.reserveWith
  simp only [access, Prog.perform_bind]
  apply producer_load (fun t => t.memory.u32 slotCountOffset) quiet rfl (fun _ => rfl)
  intro t₁ moved₁ inv₁ quiet₁
  have test : (t₁.memory.u32 slotCountOffset).toUInt64 ≤
      s.memory.u64 headOffset - s.memory.u64 tailOffset ↔
      s.released + g.slotCount.toNat ≤ s.committed.length := by
    rw [UInt64.le_iff_toNat_le, inv₁.shaped.slotCount, UInt32.toNat_toUInt64]
    exact inv.full
  by_cases full : s.released + g.slotCount.toNat ≤ s.committed.length
  · rw [if_pos (test.mpr full)]
    apply producer_act (fun t => t.memory.u64 droppedOffset) (fun t => { t with
        refused := t.refused + 1
        memory := t.memory.setWord 8 droppedOffset (t.memory.u64 droppedOffset + 1).toNat })
      (fun _ => rfl)
    intro t₂ moved₂ inv₂
    have path : ConsumerMoves s t₂ := moved₁.trans moved₂
    have still : t₂.unsignalled = false := path.unsignalled.trans quiet
    refine ⟨fun loud => absurd loud (by simp [still]), by rintro _ ⟨⟩, ?_, ?_, ?_⟩
    · refine inv₂.refuse ?_ rfl rfl rfl rfl rfl
      rw [← ofNat_add_one, ← inv₂.dropped]
      exact cursorStore _ _ (by decide) (by decide)
    · exact .withMemory t₂ _ _
    · apply Contract.Holds.of_ret
      intro t₃ moved₃ _
      exact
        { committed := moved₃.committed.trans path.committed
          quiet := moved₃.unsignalled.trans still
          writes := moved₃.writes.trans path.writes
          faults := moved₃.faults.trans path.faults
          refused := moved₃.refused.trans (congrArg (· + 1) path.refused)
          full := iff_of_true rfl full
          leased := by rintro _ ⟨⟩ }
  · rw [if_neg (mt test.mp full), inv.head]
    apply (producer_reads.slot quiet₁ s.committed.length).bind
    rintro slot t₂ _ ⟨isSlot, moved₂⟩
    apply Contract.Holds.of_ret
    intro t₃ moved₃ _
    have path : ConsumerMoves s t₃ := (moved₁.trans moved₂).trans moved₃
    have still : t₃.unsignalled = false := path.unsignalled.trans quiet
    exact
      { committed := path.committed
        quiet := still
        writes := path.writes
        faults := path.faults
        refused := path.refused
        full := iff_of_false (by rintro ⟨⟩) full
        leased := by
          rintro _ ⟨⟩
          refine ⟨?_, ?_, rfl, ?_, still⟩
          · rw [path.committed]
          · rw [path.committed, isSlot]
          · have later := path.released
            rw [path.committed]
            omega }

/-- `try_reserve` leases the next slot or counts a refusal. -/
theorem producer_tryReserve (quiet : s.unsignalled = false) :
    (producer g label).Holds (fun lease t => t.committed = s.committed ∧ t.unsignalled = false ∧
        t.event.writes = s.event.writes ∧ t.event.faults = s.event.faults ∧
        match lease with
        | none => t.refused = s.refused + 1 ∧
            s.released + g.slotCount.toNat ≤ s.committed.length
        | some lease => t.refused = s.refused ∧ Leased g lease t)
      Producer.tryReserve s := by
  rw [Producer.tryReserve_eq]
  simp only [access, Prog.perform_bind]
  apply producer_load (fun t => t.memory.u64 headOffset) quiet rfl (fun _ => rfl)
  intro t₁ moved₁ inv₁ quiet₁
  apply producer_load (fun t => t.memory.u64 tailOffset) quiet₁ rfl (fun _ => rfl)
  intro t₂ moved₂ inv₂ quiet₂
  have path : ConsumerMoves s t₂ := moved₁.trans moved₂
  -- only the producer moves the head, so the value loaded first is the current one
  have head : t₁.memory.u64 headOffset = t₂.memory.u64 headOffset := by
    rw [inv₁.head, inv₂.head, moved₂.committed]
  rw [head]
  apply (producer_reserveWith inv₂ quiet₂).mono
  intro lease t₃ _ reserved
  have refused := reserved.refused
  rw [path.refused] at refused
  refine ⟨reserved.committed.trans path.committed, reserved.quiet,
    reserved.writes.trans path.writes, reserved.faults.trans path.faults, ?_⟩
  cases lease with
  | none =>
      refine ⟨refused, ?_⟩
      have early := path.released
      have full := reserved.full.mp rfl
      rw [path.committed] at full
      omega
  | some lease => exact ⟨refused, reserved.leased lease rfl⟩

/-- `capacity` reads the capacity of the ring. -/
theorem producer_capacity {lease : ProducerLease} (quiet : s.unsignalled = false) :
    (producer g label).Holds (fun n t => n = g.payloadCapacity.toNat ∧ ConsumerMoves s t)
      lease.capacity s := by
  unfold ProducerLease.capacity
  simp only [access, Prog.perform_bind]
  apply producer_load (fun t => t.memory.u32 payloadCapacityOffset) quiet rfl
    (fun _ => rfl)
  intro t₁ moved₁ inv₁ _
  apply Contract.Holds.of_ret
  intro t₂ moved₂ _
  exact ⟨by rw [inv₁.shaped.payloadCapacity], moved₁.trans moved₂⟩

/-- The payload of the leased slot. -/
def Leased.slice (g : Geometry) (s : Shared) : Slice :=
  ⟨g.payloadAt s.committed.length, g.payloadCapacity.toNat⟩

theorem producer_payloadMut {lease : ProducerLease} (leased : Leased g lease s) :
    (producer g label).Holds (fun slice t => slice = Leased.slice g s ∧ ConsumerMoves s t)
      lease.payloadMut s := by
  unfold ProducerLease.payloadMut
  apply (producer_capacity leased.quiet).bind
  rintro n t₁ _ ⟨capacity, moved₁⟩
  apply Contract.Holds.of_ret
  intro t₂ moved₂ _
  refine ⟨?_, moved₁.trans moved₂⟩
  rw [capacity, leased.slot]
  rfl

/-- A write through the slice of `payload_mut`. -/
theorem producer_writePayload {α : Type} {Q : α → Shared → Prop} {k : Unit → Ring α}
    {lease : ProducerLease} (leased : Leased g lease s) {off : Nat} {bytes : List UInt8}
    (lower : g.payloadAt s.committed.length ≤ off)
    (upper : off + bytes.length ≤ g.payloadAt s.committed.length + g.payloadCapacity.toNat)
    (next : ∀ t, Leased g lease t → t.committed = s.committed → t.event.writes = s.event.writes →
      t.event.faults = s.event.faults →
      t.refused = s.refused →
      (∀ o, ringHeaderSize ≤ o → t.memory o = s.memory.write off bytes o) →
      (producer g label).Holds Q (k ()) t) :
    (producer g label).Holds Q (.act (.writePayload off bytes) k) s := by
  apply producer_act (fun _ => ()) (fun t => { t with memory := t.memory.write off bytes })
    (fun _ => rfl)
  intro t moved inv
  have leasedT := leased.moved moved
  have fits := g.slot_fits
  refine ⟨fun loud => absurd loud (by simp [leasedT.quiet]), by rintro _ ⟨⟩, ?_, ?_, ?_⟩
  · rw [← moved.committed] at lower upper
    simp only [Geometry.payloadAt] at lower upper
    exact inv.write_slot leasedT.room (by omega) (by omega)
  · exact .withMemory t _ _
  · refine next _ (leasedT.withMemory _) moved.committed moved.writes moved.faults moved.refused
      fun o high => ?_
    simp only [Memory.write]
    split
    · rfl
    · exact moved.slots high

/-- How the eventfd write of a call that starts in `s` turns out. -/
inductive Signalled (s : Shared) : Except RingError Unit → Prop where
  | ok : (∀ errno, s.event.faults s.event.writes ≠ some (.other errno)) → Signalled s (.ok ())
  | failed {errno : Nat} : s.event.faults s.event.writes = some (.other errno) →
      Signalled s (.error (.io (.other errno)))

theorem Signalled.congr {result : Except RingError Unit} (signalled : Signalled s result)
    (faults : s'.event.faults = s.event.faults) (writes : s'.event.writes = s.event.writes) :
    Signalled s' result := by
  cases signalled with
  | ok sound => exact .ok fun errno => by rw [faults, writes]; exact sound errno
  | failed fault => exact .failed (by rw [faults, writes]; exact fault)

/-- The eventfd write that follows a head store. -/
theorem producer_signalEventfd :
    (producer g label).Holds (fun result t => t.committed = s.committed ∧ t.unsignalled = false ∧
        t.refused = s.refused ∧ t.event.faults = s.event.faults ∧
        t.event.writes = s.event.writes + 1 ∧ s.released ≤ t.released ∧ Signalled s result)
      signalEventfd s := by
  unfold signalEventfd
  simp only [access, Prog.perform_bind]
  apply producer_act (fun t => t.event.write.1)
    (fun t => { t with event := t.event.write.2, unsignalled := false })
    (fun _ => rfl)
  intro t moved inv
  refine ⟨fun _ => rfl, by rintro _ ⟨⟩, inv.congr rfl rfl rfl rfl rfl rfl,
    ⟨List.prefix_rfl, rfl, rfl, rfl, rfl, t.event.write_faults, ?_, ?_⟩, ?_⟩
  · rw [EventFd.write_writes]
    exact Nat.le_succ _
  · intro sound _
    refine .inl (EventFd.write_counter_ne_zero ?_)
    rw [← t.event.write_faults]
    exact sound _ (by rw [EventFd.write_writes]; exact Nat.lt_succ_self _)
  have done (result : Except RingError Unit) (signalled : Signalled t result) :
      (producer g label).Holds (fun result t => t.committed = s.committed ∧
        t.unsignalled = false ∧ t.refused = s.refused ∧ t.event.faults = s.event.faults ∧
        t.event.writes = s.event.writes + 1 ∧ s.released ≤ t.released ∧ Signalled s result)
      (.ret result) { t with event := t.event.write.2, unsignalled := false } := by
    refine .of_ret fun t₁ moved₁ _ => ⟨moved₁.committed.trans moved.committed, moved₁.unsignalled,
      moved₁.refused.trans moved.refused,
      moved₁.faults.trans (t.event.write_faults.trans moved.faults), ?_,
      moved.released.trans moved₁.released, signalled.congr moved.faults.symm moved.writes.symm⟩
    rw [moved₁.writes, ← moved.writes]
    exact t.event.write_writes
  cases outcome : t.event.write.1 with
  | ok u =>
      apply done _ (.ok _)
      intro errno fault
      cases outcome.symm.trans (EventFd.write_other_iff.mpr fault)
  | error kind =>
      cases kind with
      | wouldBlock =>
          apply done _ (.ok _)
          intro errno fault
          cases outcome.symm.trans (EventFd.write_other_iff.mpr fault)
      | other errno => exact done _ (.failed (EventFd.write_other_iff.mp outcome))

/-- The frame `commit` is about to publish is complete in its slot. -/
theorem stored_stamped {descriptor : FrameDescriptor} {payloadBytes k : Nat} {m : Memory}
    (small : payloadBytes < 2 ^ 32)
    (written : m.read (g.slotAt k) FrameDescriptor.sizeOf =
      (ProducerLease.stamped descriptor payloadBytes).encode) :
    Stored g m k ⟨ProducerLease.stamped descriptor payloadBytes,
      m.read (g.payloadAt k) payloadBytes⟩ := by
  refine ⟨by rw [written, FrameDescriptor.decode_encode], ?_⟩
  simp only [ProducerLease.stamped, UInt32.toNat_ofNat', Nat.mod_eq_of_lt small]

theorem wellFormed_stamped {descriptor : FrameDescriptor} {payloadBytes : Nat}
    {payload : List UInt8} (fits : payloadBytes ≤ g.payloadCapacity.toNat)
    (length : payload.length = payloadBytes) :
    Frame.WellFormed g ⟨ProducerLease.stamped descriptor payloadBytes, payload⟩ := by
  have small : payloadBytes < 2 ^ 32 := fits.trans_lt g.payloadCapacity.toNat_lt
  refine ⟨rfl, rfl, ?_, ?_⟩
  · rw [UInt32.le_iff_toNat_le]
    simpa only [ProducerLease.stamped, UInt32.toNat_ofNat', Nat.mod_eq_of_lt small] using fits
  · simpa only [ProducerLease.stamped, UInt32.toNat_ofNat', Nat.mod_eq_of_lt small] using length

/-- What `commit` does: nothing for a payload that does not fit; otherwise it
publishes exactly one frame, and fails only when the eventfd write does. -/
inductive Committed (g : Geometry) (descriptor : FrameDescriptor) (payloadBytes : Nat)
    (s t : Shared) : Except RingError Unit → Prop where
  | rejected : g.payloadCapacity.toNat < payloadBytes → t.committed = s.committed →
      Committed g descriptor payloadBytes s t (.error (.message "payload exceeds ring slot"))
  | published {result} : payloadBytes ≤ g.payloadCapacity.toNat →
      t.committed = s.committed ++ [⟨ProducerLease.stamped descriptor payloadBytes,
        s.memory.read (g.payloadAt s.committed.length) payloadBytes⟩] →
      t.event.writes = s.event.writes + 1 → Signalled s result →
      Committed g descriptor payloadBytes s t result

section Commit

variable {α : Type} {Q : α → Shared → Prop} {k : Unit → Ring α} {lease : ProducerLease}
  {descriptor : FrameDescriptor} {payloadBytes : Nat}

/-- The descriptor goes into the leased slot, before the payload. -/
theorem producer_stamp (leased : Leased g lease s) (descriptor : FrameDescriptor)
    (next : ∀ t, ConsumerMoves s t → Leased g lease t →
      (producer g label).Holds Q (k ()) { t with
        memory := t.memory.write (g.slotAt s.committed.length) descriptor.encode }) :
    (producer g label).Holds Q
      (.act (.writeDescriptor (g.slotAt s.committed.length) descriptor) k) s := by
  apply producer_act (fun _ => ()) (fun t => { t with
      memory := t.memory.write (g.slotAt s.committed.length) descriptor.encode })
    (fun _ => rfl)
  intro t moved inv
  have leasedT := leased.moved moved
  have slotFits := g.slot_fits
  refine ⟨fun loud => absurd loud (by simp [leasedT.quiet]), by rintro _ ⟨⟩, ?_,
    .withMemory t _ _, next t moved leasedT⟩
  rw [← moved.committed]
  exact inv.write_slot leasedT.room le_rfl (by rw [FrameDescriptor.length_encode]; omega)

/-- The head store publishes the frame in the leased slot. -/
theorem producer_publish (leased : Leased g lease s)
    (fits : payloadBytes ≤ g.payloadCapacity.toNat)
    (stamped : s.memory.read (g.slotAt s.committed.length) FrameDescriptor.sizeOf =
      (ProducerLease.stamped descriptor payloadBytes).encode)
    (labelled : ∀ t, ConsumerMoves s t → label t (ProducerLease.stamped descriptor payloadBytes))
    (next : ∀ t t', ConsumerMoves s t → t'.committed =
        s.committed ++ [⟨ProducerLease.stamped descriptor payloadBytes,
          s.memory.read (g.payloadAt s.committed.length) payloadBytes⟩] →
      t'.released = t.released → t'.refused = t.refused → t'.event = t.event →
      (producer g label).Holds Q (k ()) t') :
    (producer g label).Holds Q
      (.act (.storeU64 headOffset (UInt64.ofNat s.committed.length + 1)
        (.publish (ProducerLease.stamped descriptor payloadBytes)
          (g.slotAt s.committed.length + FrameDescriptor.sizeOf) payloadBytes)) k) s := by
  have small : payloadBytes < 2 ^ 32 := fits.trans_lt g.payloadCapacity.toNat_lt
  apply producer_act (fun _ => ()) (fun t => { t with
      committed := t.committed ++ [⟨ProducerLease.stamped descriptor payloadBytes,
        t.memory.read (g.payloadAt s.committed.length) payloadBytes⟩]
      unsignalled := true
      memory := t.memory.setWord 8 headOffset (UInt64.ofNat s.committed.length + 1).toNat })
    (fun _ => rfl)
  intro t moved inv
  have leasedT := leased.moved moved
  refine ⟨fun loud => absurd loud (by simp [leasedT.quiet]), ?_, ?_,
    ⟨List.prefix_append _ _, rfl, rfl, rfl, rfl, rfl, le_rfl, fun _ _ => .inr (.inl rfl)⟩, ?_⟩
  · rintro _ ⟨⟩
    exact labelled t moved
  · refine inv.publish (f := ⟨ProducerLease.stamped descriptor payloadBytes,
      t.memory.read (g.payloadAt s.committed.length) payloadBytes⟩) leasedT.room
      (wellFormed_stamped fits (Memory.length_read _ _ _)) ?_ ?_ rfl rfl rfl rfl rfl
    · rw [moved.committed]
      exact stored_stamped small ((moved.read_slots (g.header_le_slotAt _)).trans stamped)
    · rw [moved.committed, ← ofNat_add_one]
      exact cursorStore _ _ (by decide) (by decide)
  · refine next t _ moved ?_ rfl rfl rfl
    rw [← moved.read_slots (g.header_le_payloadAt _), moved.committed]

theorem producer_commit (leased : Leased g lease s) (descriptor : FrameDescriptor)
    (payloadBytes : Nat)
    (labelled : ∀ t, t.committed = s.committed → t.event.faults = s.event.faults →
      t.event.writes = s.event.writes → label t (ProducerLease.stamped descriptor payloadBytes)) :
    (producer g label).Holds (fun result t => t.unsignalled = false ∧ t.refused = s.refused ∧
        t.event.faults = s.event.faults ∧ s.released ≤ t.released ∧
        Committed g descriptor payloadBytes s t result)
      (lease.commit descriptor payloadBytes) s := by
  obtain ⟨slot, head, done⟩ := lease
  obtain rfl : slot = g.slotAt s.committed.length := leased.slot
  obtain rfl : head = UInt64.ofNat s.committed.length := leased.head
  obtain rfl : done = false := leased.uncommitted
  unfold ProducerLease.commit
  rw [if_neg (by simp)]
  apply (producer_capacity leased.quiet).bind
  intro n t₁ inv₁ outcome
  obtain ⟨rfl, moved₁⟩ := outcome
  by_cases fits : payloadBytes ≤ g.payloadCapacity.toNat
  · have small : payloadBytes < 2 ^ 32 := fits.trans_lt g.payloadCapacity.toNat_lt
    rw [if_neg (not_not.mpr fits), if_neg (by omega), ← moved₁.committed]
    simp only [access, Prog.perform_bind]
    apply producer_stamp (leased.moved moved₁) _
    intro t₂ moved₂ leased₂
    have path₂ : ConsumerMoves s t₂ := moved₁.trans moved₂
    rw [← moved₂.committed]
    obtain ⟨memory, written⟩ : ∃ memory, memory = t₂.memory.write
        (g.slotAt t₂.committed.length) (ProducerLease.stamped descriptor payloadBytes).encode :=
      ⟨_, rfl⟩
    have descriptorOctets : memory.read (g.slotAt t₂.committed.length) FrameDescriptor.sizeOf =
        (ProducerLease.stamped descriptor payloadBytes).encode := by
      rw [written]
      exact Memory.read_write_self (FrameDescriptor.length_encode _)
    -- the descriptor lies before the payload, so the payload is as it was
    have payloadOctets : memory.read (g.payloadAt t₂.committed.length) payloadBytes =
        s.memory.read (g.payloadAt s.committed.length) payloadBytes := by
      rw [written,
        Memory.read_write_of_disjoint (.inr (by rw [FrameDescriptor.length_encode]; rfl)),
        path₂.read_slots (g.header_le_payloadAt _), path₂.committed]
    rw [← written]
    refine producer_publish (leased₂.withMemory memory) fits descriptorOctets (fun t moved => ?_)
      fun t₃ t₄ moved₃ committed₄ released₄ refused₄ event₄ => ?_
    · exact labelled t (moved.committed.trans path₂.committed) (moved.faults.trans path₂.faults)
        (moved.writes.trans path₂.writes)
    have faults₄ : t₄.event.faults = s.event.faults := by
      rw [event₄]
      exact moved₃.faults.trans path₂.faults
    have writes₄ : t₄.event.writes = s.event.writes := by
      rw [event₄]
      exact moved₃.writes.trans path₂.writes
    apply producer_signalEventfd.mono
    intro result t₅ _ done
    obtain ⟨committed, quiet, refused, faults, writes, released, signalled⟩ := done
    refine ⟨quiet, ?_, faults.trans faults₄, ?_, .published fits ?_ ?_ ?_⟩
    · exact refused.trans (refused₄.trans (moved₃.refused.trans path₂.refused))
    · exact path₂.released.trans (moved₃.released.trans (released₄ ▸ released))
    · rw [committed, committed₄, payloadOctets]
      exact congrArg (· ++ _) path₂.committed
    · rw [writes, writes₄]
    · exact signalled.congr faults₄.symm writes₄.symm
  · rw [if_pos fits]
    apply Contract.Holds.of_ret
    intro t₂ moved₂ _
    have toEnd : ConsumerMoves s t₂ := moved₁.trans moved₂
    exact ⟨toEnd.unsignalled.trans leased.quiet, toEnd.refused, toEnd.faults, toEnd.released,
      .rejected (Nat.not_le.mp fits) toEnd.committed⟩

end Commit

/-- A payload was copied into the leased slot and committed. -/
structure Copied (g : Geometry) (descriptor : FrameDescriptor) (payload : List UInt8)
    (s t : Shared) (result : Except RingError Unit) : Prop where
  quiet : t.unsignalled = false
  faults : t.event.faults = s.event.faults
  room : s.committed.length < t.released + g.slotCount.toNat
  committed : t.committed =
    s.committed ++ [⟨ProducerLease.stamped descriptor payload.length, payload⟩]
  refused : t.refused = s.refused
  writes : t.event.writes = s.event.writes + 1
  signalled : Signalled s result

/-- The same, seen from an earlier state. -/
theorem Copied.since {descriptor : FrameDescriptor} {payload : List UInt8} {t u : Shared}
    {result : Except RingError Unit} (copied : Copied g descriptor payload t u result)
    (committed : t.committed = s.committed) (refused : t.refused = s.refused)
    (faults : t.event.faults = s.event.faults) (writes : t.event.writes = s.event.writes) :
    Copied g descriptor payload s u result where
  quiet := copied.quiet
  faults := copied.faults.trans faults
  room := by
    rw [← committed]
    exact copied.room
  committed := by
    rw [← committed]
    exact copied.committed
  refused := copied.refused.trans refused
  writes := by
    rw [← writes]
    exact copied.writes
  signalled := copied.signalled.congr faults.symm writes.symm

/-- Copy a payload that fits into a leased slot and commit it. -/
theorem producer_copy {lease : ProducerLease} (leased : Leased g lease s)
    (descriptor : FrameDescriptor) (payload : List UInt8)
    (fits : payload.length ≤ g.payloadCapacity.toNat)
    (labelled : ∀ t, t.committed = s.committed → t.event.faults = s.event.faults →
      t.event.writes = s.event.writes → label t (ProducerLease.stamped descriptor payload.length)) :
    (producer g label).Holds (fun result t => Copied g descriptor payload s t result)
      (access (.writePayload (g.payloadAt s.committed.length) payload) >>= fun _ =>
        lease.commit descriptor payload.length) s := by
  simp only [access, Prog.perform_bind]
  apply producer_writePayload leased le_rfl (Nat.add_le_add_left fits _)
  intro t₁ leased₁ committed₁ writes₁ faults₁ refused₁ memory₁
  have octets : t₁.memory.read (g.payloadAt t₁.committed.length) payload.length = payload := by
    rw [committed₁]
    refine (Memory.read_congr fun o low _ => memory₁ o ?_).trans (Memory.read_write_self rfl)
    exact (g.header_le_slotAt _).trans ((Nat.le_add_right _ _).trans low)
  apply (producer_commit leased₁ descriptor payload.length fun t same₁ same₂ same₃ =>
    labelled t (same₁.trans committed₁) (same₂.trans faults₁) (same₃.trans writes₁)).mono
  rintro result t₂ _ ⟨quiet, refused, faults, released, outcome⟩
  cases outcome with
  | rejected large _ => exact absurd fits (Nat.not_le.mpr large)
  | published _ committed writes signalled =>
      have room := leased₁.room
      rw [octets] at committed
      have copied : Copied g descriptor payload t₁ t₂ result :=
        ⟨quiet, faults, by omega, committed, refused, writes, signalled⟩
      exact copied.since committed₁ refused₁ faults₁ writes₁

/-- What `try_push_copy` does: it counts a refusal if the ring is full, does
nothing for a payload that does not fit, and otherwise publishes exactly one
frame, failing only when the eventfd write does. -/
inductive PushedCopy (g : Geometry) (descriptor : FrameDescriptor) (payload : List UInt8)
    (s t : Shared) : Except RingError Bool → Prop where
  | refused : s.released + g.slotCount.toNat ≤ s.committed.length → t.committed = s.committed →
      PushedCopy g descriptor payload s t (.ok false)
  | rejected : g.payloadCapacity.toNat < payload.length → t.committed = s.committed →
      t.refused = s.refused →
      PushedCopy g descriptor payload s t (.error (.message "payload exceeds ring slot"))
  | published {result} : payload.length ≤ g.payloadCapacity.toNat →
      s.committed.length < t.released + g.slotCount.toNat →
      t.committed =
        s.committed ++ [⟨ProducerLease.stamped descriptor payload.length, payload⟩] →
      t.refused = s.refused → t.event.writes = s.event.writes + 1 → Signalled s result →
      PushedCopy g descriptor payload s t (result.map fun _ => true)

/-- The consumer's moves do not undo a push. -/
theorem PushedCopy.moved {descriptor : FrameDescriptor} {payload : List UInt8} {t t' : Shared}
    {result : Except RingError Bool} (pushed : PushedCopy g descriptor payload s t result)
    (moves : ConsumerMoves t t') : PushedCopy g descriptor payload s t' result := by
  cases pushed with
  | refused full committed => exact .refused full (moves.committed.trans committed)
  | rejected large committed refused =>
      exact .rejected large (moves.committed.trans committed) (moves.refused.trans refused)
  | published fits room committed refused writes signalled =>
      exact .published fits (room.trans_le (Nat.add_le_add_right moves.released _))
        (moves.committed.trans committed) (moves.refused.trans refused)
        (moves.writes.trans writes) signalled

theorem producer_tryPushCopy (quiet : s.unsignalled = false) (descriptor : FrameDescriptor)
    (payload : List UInt8)
    (labelled : ∀ t, t.committed = s.committed → t.event.faults = s.event.faults →
      t.event.writes = s.event.writes → label t (ProducerLease.stamped descriptor payload.length)) :
    (producer g label).Holds (fun result t => t.unsignalled = false ∧
        PushedCopy g descriptor payload s t result)
      (Producer.tryPushCopy descriptor payload) s := by
  unfold Producer.tryPushCopy
  apply (producer_tryReserve quiet).bind
  intro lease t₁ _ reserved
  obtain ⟨committed₁, quiet₁, writes₁, faults₁, outcome⟩ := reserved
  cases lease with
  | none =>
      apply Contract.Holds.of_ret
      intro t₂ moved₂ _
      exact ⟨moved₂.unsignalled.trans quiet₁,
        .refused outcome.2 (moved₂.committed.trans committed₁)⟩
  | some lease =>
      obtain ⟨refused₁, leased₁⟩ := outcome
      apply (producer_capacity quiet₁).bind
      intro n t₂ _ capacity
      obtain ⟨rfl, moved₂⟩ := capacity
      by_cases fits : payload.length ≤ g.payloadCapacity.toNat
      · rw [if_neg (not_not.mpr fits)]
        have leased₂ := leased₁.moved moved₂
        apply (producer_payloadMut leased₂).bind
        intro slice t₃ _ borrowed
        obtain ⟨rfl, moved₃⟩ := borrowed
        simp only [access, Prog.perform_bind]
        rw [if_neg (not_not.mpr (show payload.length ≤ (Leased.slice g t₂).len from fits))]
        have path₃ : ConsumerMoves t₁ t₃ := moved₂.trans moved₃
        have leased₃ := leased₂.moved moved₃
        have place : (Leased.slice g t₂).offset = g.payloadAt t₃.committed.length := by
          rw [moved₃.committed]
          rfl
        rw [place]
        have early : t₃.committed = s.committed := path₃.committed.trans committed₁
        have faults : t₃.event.faults = s.event.faults := path₃.faults.trans faults₁
        have writes : t₃.event.writes = s.event.writes := path₃.writes.trans writes₁
        apply Contract.Holds.bind (producer_copy leased₃ descriptor payload fits
          fun t same₁ same₂ same₃ =>
            labelled t (same₁.trans early) (same₂.trans faults) (same₃.trans writes))
        intro result t₄ _ copied
        have done := copied.since early (path₃.refused.trans refused₁) faults writes
        have pushed : PushedCopy g descriptor payload s t₄ (result.map fun _ => true) :=
          .published fits done.room done.committed done.refused done.writes done.signalled
        cases result with
        | ok u =>
            apply Contract.Holds.of_ret
            intro t₅ moved₅ _
            exact ⟨moved₅.unsignalled.trans copied.quiet, pushed.moved moved₅⟩
        | error error =>
            apply Contract.Holds.of_ret
            intro t₅ moved₅ _
            exact ⟨moved₅.unsignalled.trans copied.quiet, pushed.moved moved₅⟩
      · rw [if_pos fits]
        apply Contract.Holds.of_ret
        intro t₃ moved₃ _
        have toEnd : ConsumerMoves t₁ t₃ := moved₂.trans moved₃
        exact ⟨toEnd.unsignalled.trans quiet₁, .rejected (Nat.not_le.mp fits)
          (toEnd.committed.trans committed₁) (toEnd.refused.trans refused₁)⟩

end Dorsche.Wireless.DataPlane
