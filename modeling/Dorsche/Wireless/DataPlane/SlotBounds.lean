import Dorsche.Wireless.DataPlane.Endpoint

/-!
What `validate_header` guarantees about the slots of an adopted ring.

`SlotsSound` is what the endpoints rely on: every slot holds its descriptor and
its whole payload inside the mapping and inside one stride, and the payload
slices stay in their slots. `validate_header` never looks at
`payload_capacity`, so an accepted header need not be sound: it is when a
descriptor and a payload fit a stride.

`SlotsDistinct` is the other half: the slot numbers of the occupied window.
Fullness is decided by wrapping 64-bit subtraction, while a slot is the cursor
truncated to `usize` and reduced modulo `slot_count`. The two agree only for some
rings and cursors.
-/

namespace Dorsche.Wireless.DataPlane

open Dorsche.Lib

variable {s t : Shared}

/-! ### Regions -/

/-- Every octet of `inner` belongs to `outer`. -/
def Slice.Inside (inner outer : Slice) : Prop :=
  outer.offset ≤ inner.offset ∧ inner.offset + inner.len ≤ outer.offset + outer.len

/-- No octet belongs to both. -/
def Slice.Apart (a b : Slice) : Prop := a.offset + a.len ≤ b.offset ∨ b.offset + b.len ≤ a.offset

/-! ### The endpoints on their own -/

theorem run_slot {index : UInt64} (nonzero : s.memory.u32 slotCountOffset ≠ 0) :
    (Mapping.slot index).run exec s = some (slotOffset 64 (s.memory.u32 slotCountOffset)
      (s.memory.u32 slotStrideOffset) index, s) := by
  simp only [Mapping.slot, access, Prog.perform_bind, Prog.run, exec, if_neg nonzero, Prog.pure_eq]

/-- A reservation is the slot of the head cursor; making it changes nothing. -/
theorem run_tryReserve {lease : ProducerLease} (nonzero : s.memory.u32 slotCountOffset ≠ 0)
    (ran : Producer.tryReserve.run exec s = some (some lease, t)) :
    t = s ∧ lease.slot = slotOffset 64 (s.memory.u32 slotCountOffset)
      (s.memory.u32 slotStrideOffset) (s.memory.u64 headOffset) := by
  simp only [Producer.tryReserve, access, Prog.perform_bind, Prog.run, exec] at ran
  split at ran
  · simp only [Prog.run, exec, Prog.pure_eq] at ran
    cases ran
  · rw [Prog.run_bind, run_slot nonzero] at ran
    simp only [Option.bind_some, Prog.pure_eq, Prog.run, Option.some.injEq, Prod.mk.injEq] at ran
    obtain ⟨rfl, rfl⟩ := ran
    exact ⟨rfl, rfl⟩

theorem run_payloadMut {lease : ProducerLease} {slice : Slice}
    (ran : lease.payloadMut.run exec s = some (slice, t)) :
    slice = ⟨lease.slot + FrameDescriptor.sizeOf,
      (s.memory.u32 payloadCapacityOffset).toNat⟩ := by
  simp only [ProducerLease.payloadMut, ProducerLease.capacity, access, Prog.perform_bind,
    Prog.act_bind, Prog.pure_eq, Prog.ret_bind, Prog.run, exec, Option.some.injEq,
    Prod.mk.injEq] at ran
  exact ran.1.symm

/-- An acquired frame is in the slot of the tail cursor and declares no more
octets than a slot holds. -/
theorem run_tryAcquire {lease : FrameLease} (nonzero : s.memory.u32 slotCountOffset ≠ 0)
    (ran : Consumer.tryAcquire.run exec s = some (.ok (some lease), t)) :
    lease.payloadOffset = slotOffset 64 (s.memory.u32 slotCountOffset)
        (s.memory.u32 slotStrideOffset) (s.memory.u64 tailOffset) + FrameDescriptor.sizeOf ∧
      lease.descriptor.payloadBytes ≤ s.memory.u32 payloadCapacityOffset := by
  simp only [Consumer.tryAcquire, access, Prog.perform_bind, Prog.run, exec] at ran
  split at ran
  · simp [Prog.run] at ran
  rw [Prog.run_bind, run_slot nonzero] at ran
  simp only [Option.bind_some, Prog.run, exec] at ran
  split at ran
  · simp [Prog.run] at ran
  split at ran
  · simp [Prog.run] at ran
  simp only [Prog.run, exec] at ran
  split at ran
  · simp [Prog.run] at ran
  · rename_i bounded
    simp only [Prog.pure_eq, Prog.run, Option.some.injEq, Prod.mk.injEq, Except.ok.injEq] at ran
    obtain ⟨rfl, -⟩ := ran
    exact ⟨rfl, not_not.mp bounded⟩

/-! ### Soundness of the slots -/

/-- Descriptor and whole payload of the slot at `offset`. -/
def slotRegion (s : Shared) (offset : Nat) : Slice :=
  ⟨offset, FrameDescriptor.sizeOf + (s.memory.u32 payloadCapacityOffset).toNat⟩

/-- The part of the mapping that belongs to slots. -/
def slotArea (mapLen : Nat) : Slice := ⟨ringHeaderSize, mapLen - ringHeaderSize⟩

/-- The stride of one slot number. -/
def strideOf (s : Shared) (number : Nat) : Slice :=
  ⟨ringHeaderSize + number * (s.memory.u32 slotStrideOffset).toNat,
    (s.memory.u32 slotStrideOffset).toNat⟩

/-- What the endpoints rely on, for every cursor value and whatever the slots
hold. -/
structure SlotsSound (s : Shared) (mapLen : Nat) : Prop where
  slot : ∀ index, ∃ offset, (Mapping.slot index).run exec s = some (offset, s) ∧
    (slotRegion s offset).Inside (slotArea mapLen) ∧
    (slotRegion s offset).Inside
      (strideOf s (slotNumber 64 (s.memory.u32 slotCountOffset) index))
  apart : ∀ i j offsetI offsetJ, (Mapping.slot i).run exec s = some (offsetI, s) →
    (Mapping.slot j).run exec s = some (offsetJ, s) →
    slotNumber 64 (s.memory.u32 slotCountOffset) i ≠
      slotNumber 64 (s.memory.u32 slotCountOffset) j →
    (slotRegion s offsetI).Apart (slotRegion s offsetJ)
  payloadMut : ∀ lease slice t t', Producer.tryReserve.run exec s = some (some lease, t) →
    lease.payloadMut.run exec t = some (slice, t') → slice.Inside (slotRegion s lease.slot)
  payload : ∀ lease t, Consumer.tryAcquire.run exec s = some (.ok (some lease), t) →
    ∃ slot, (Mapping.slot (s.memory.u64 tailOffset)).run exec s = some (slot, s) ∧
      lease.payload.Inside (slotRegion s slot)

/-- The geometry of an accepted header whose slots hold their payloads. -/
def Geometry.ofHeader {header : RingHeader} {mapLen : Nat}
    (accepted : validateHeader 64 header mapLen = .ok ())
    (fits : FrameDescriptor.sizeOf + header.payloadCapacity.toNat ≤ header.slotStride.toNat) :
    Geometry where
  slotCount := header.slotCount
  slotStride := header.slotStride
  payloadCapacity := header.payloadCapacity
  two_le_slotCount := (validateHeader_eq_ok_iff.mp accepted).2.2.2.1
  cacheLine_dvd_slotStride := (validateHeader_eq_ok_iff.mp accepted).2.2.2.2.1
  slot_fits := fits

theorem Geometry.mapLen_ofHeader {header : RingHeader} {mapLen : Nat}
    (accepted : validateHeader 64 header mapLen = .ok ())
    (fits : FrameDescriptor.sizeOf + header.payloadCapacity.toNat ≤ header.slotStride.toNat) :
    (Geometry.ofHeader accepted fits).mapLen = mapLen := by
  have total := (validateHeader_eq_ok_iff.mp accepted).2.2.2.2.2
  rw [Nat.mul_comm header.slotStride.toNat] at total
  exact total

theorem slotCount_ne_zero {mapLen : Nat}
    (accepted : validateHeader 64 (RingHeader.load s.memory) mapLen = .ok ()) :
    s.memory.u32 slotCountOffset ≠ 0 := by
  have two : 2 ≤ (s.memory.u32 slotCountOffset).toNat :=
    (validateHeader_eq_ok_iff.mp accepted).2.2.2.1
  intro zero
  rw [zero] at two
  exact absurd two (by decide)

/-- The payload slices are inside their slots for every accepted header: each is
bounded by `payload_capacity`. -/
theorem payload_slices {mapLen : Nat}
    (accepted : validateHeader 64 (RingHeader.load s.memory) mapLen = .ok ()) :
    (∀ lease slice t t', Producer.tryReserve.run exec s = some (some lease, t) →
      lease.payloadMut.run exec t = some (slice, t') → slice.Inside (slotRegion s lease.slot)) ∧
    ∀ lease t, Consumer.tryAcquire.run exec s = some (.ok (some lease), t) →
      ∃ slot, (Mapping.slot (s.memory.u64 tailOffset)).run exec s = some (slot, s) ∧
        lease.payload.Inside (slotRegion s slot) := by
  have nonzero := slotCount_ne_zero accepted
  constructor
  · intro lease slice t t' reserved borrowed
    obtain ⟨rfl, -⟩ := run_tryReserve nonzero reserved
    rw [run_payloadMut borrowed]
    refine ⟨Nat.le_add_right _ _, ?_⟩
    simp only [slotRegion]
    omega
  · intro lease t acquired
    obtain ⟨place, bounded⟩ := run_tryAcquire nonzero acquired
    refine ⟨_, run_slot nonzero, ?_⟩
    rw [UInt32.le_iff_toNat_le] at bounded
    simp only [FrameLease.payload, Slice.Inside, slotRegion, place]
    exact ⟨Nat.le_add_right _ _, by omega⟩

/-- Sound slots hold their payloads: the last one ends where the mapping ends. -/
theorem SlotsSound.fits {mapLen : Nat}
    (accepted : validateHeader 64 (RingHeader.load s.memory) mapLen = .ok ())
    (sound : SlotsSound s mapLen) :
    FrameDescriptor.sizeOf + (RingHeader.load s.memory).payloadCapacity.toNat ≤
      (RingHeader.load s.memory).slotStride.toNat := by
  obtain ⟨-, -, -, two, -, total⟩ := validateHeader_eq_ok_iff.mp accepted
  have nonzero := slotCount_ne_zero accepted
  have pos : 0 < (s.memory.u32 slotCountOffset).toNat := Nat.lt_of_lt_of_le (by decide) two
  have last : slotNumber 64 (s.memory.u32 slotCountOffset)
      (UInt64.ofNat ((s.memory.u32 slotCountOffset).toNat - 1)) =
      (s.memory.u32 slotCountOffset).toNat - 1 := by
    have := (s.memory.u32 slotCountOffset).toNat_lt
    unfold slotNumber
    rw [UInt64.toNat_ofNat', Nat.mod_mod, Nat.mod_eq_of_lt (by omega : _ - 1 < 2 ^ 64),
      Nat.mod_eq_of_lt (by omega)]
  obtain ⟨offset, ran, inside, -⟩ :=
    sound.slot (UInt64.ofNat ((s.memory.u32 slotCountOffset).toNat - 1))
  rw [run_slot nonzero, slotOffset_eq pos, last] at ran
  obtain ⟨rfl, -⟩ := Prod.mk.inj (Option.some.inj ran)
  obtain ⟨n, count⟩ : ∃ n, (s.memory.u32 slotCountOffset).toNat = n + 1 :=
    ⟨_, (Nat.sub_add_cancel pos).symm⟩
  have upper := inside.2
  change ringHeaderSize +
    (s.memory.u32 slotStrideOffset).toNat * (s.memory.u32 slotCountOffset).toNat = mapLen at total
  simp only [slotRegion, slotArea, ← total, count, Nat.add_sub_cancel, Nat.mul_add,
    Nat.mul_one, Nat.mul_comm (s.memory.u32 slotStrideOffset).toNat n] at upper
  change FrameDescriptor.sizeOf + (s.memory.u32 payloadCapacityOffset).toNat ≤
    (s.memory.u32 slotStrideOffset).toNat
  omega

/-- Slots that hold their payloads are sound. -/
theorem slotsSound_of_fits {mapLen : Nat}
    (accepted : validateHeader 64 (RingHeader.load s.memory) mapLen = .ok ())
    (fits : FrameDescriptor.sizeOf + (RingHeader.load s.memory).payloadCapacity.toNat ≤
      (RingHeader.load s.memory).slotStride.toNat) : SlotsSound s mapLen := by
  have nonzero := slotCount_ne_zero accepted
  obtain ⟨borrowed, acquired⟩ := payload_slices accepted
  let g := Geometry.ofHeader accepted fits
  have total : g.mapLen = mapLen := Geometry.mapLen_ofHeader accepted fits
  have place (index : UInt64) : (Mapping.slot index).run exec s =
      some (g.slotAt index.toNat, s) := by
    rw [run_slot nonzero]
    exact congrArg (fun offset => some (offset, s)) (slotOffset_eq g.slotCount_pos _ index)
  refine ⟨fun index => ⟨_, place index, ?_, ?_⟩, ?_, borrowed, acquired⟩
  · have upper := g.slotAt_add_le_mapLen index.toNat
    have lower := g.header_le_slotAt index.toNat
    refine ⟨lower, ?_⟩
    change g.slotAt index.toNat + (FrameDescriptor.sizeOf + g.payloadCapacity.toNat) ≤
      ringHeaderSize + (mapLen - ringHeaderSize)
    omega
  · exact ⟨le_rfl, Nat.add_le_add_left fits _⟩
  · intro i j offsetI offsetJ ranI ranJ ne
    obtain ⟨rfl, -⟩ := Prod.mk.inj (Option.some.inj ((place i).symm.trans ranI))
    obtain ⟨rfl, -⟩ := Prod.mk.inj (Option.some.inj ((place j).symm.trans ranJ))
    have fits : FrameDescriptor.sizeOf + g.payloadCapacity.toNat ≤ g.slotStride.toNat :=
      g.slot_fits
    rcases g.slotAt_disjoint (j := i.toNat) (k := j.toNat) ne with before | after
    · exact .inl ((Nat.add_le_add_left fits _).trans before)
    · exact .inr ((Nat.add_le_add_left fits _).trans after)

/-- A header that `validate_header` accepts has sound slots exactly when a slot's
stride holds the descriptor and the payload capacity, which it does not check. -/
theorem slotsSound_iff {mapLen : Nat}
    (accepted : validateHeader 64 (RingHeader.load s.memory) mapLen = .ok ()) :
    SlotsSound s mapLen ↔
      FrameDescriptor.sizeOf + (RingHeader.load s.memory).payloadCapacity.toNat ≤
        (RingHeader.load s.memory).slotStride.toNat :=
  ⟨SlotsSound.fits accepted, slotsSound_of_fits accepted⟩

/-- Two slots of 128 octets for payloads of 64. -/
def roomyHeader : RingHeader := ⟨ringMagic, 1, 256, 2, 128, 64, 0, 0, 0⟩

theorem slotsSound_roomy :
    SlotsSound (.fresh (roomyHeader.store fun _ => 0) fun _ => none) 512 :=
  (slotsSound_iff (by decide +kernel)).mpr (by decide +kernel)

/-- Two slots of 64 octets for payloads of 4096. -/
def crampedHeader : RingHeader := ⟨ringMagic, 1, 256, 2, 64, 4096, 0, 0, 0⟩

/-- The mapping has 384 octets; the slice of the first reservation ends at 4416. -/
theorem not_slotsSound_cramped :
    validateHeader 64 (RingHeader.load (crampedHeader.store fun _ => 0)) 384 = .ok () ∧
      ¬ SlotsSound (.fresh (crampedHeader.store fun _ => 0) fun _ => none) 384 ∧
      ((do match ← Producer.tryReserve with
            | some lease => lease.payloadMut
            | none => return ⟨0, 0⟩ : Ring Slice).run exec
        (.fresh (crampedHeader.store fun _ => 0) fun _ => none)).map (·.1) = some ⟨320, 4096⟩ := by
  refine ⟨by decide +kernel, fun sound => ?_, by decide +kernel⟩
  exact absurd (SlotsSound.fits (by decide +kernel) sound) (by decide +kernel)

/-! ### Distinct slots in the occupied window -/

/-- The occupied slots are distinct, and while there is room the slot that the
next reservation takes is none of them. -/
def SlotsDistinct (w : Nat) (slotCount : UInt32) (head tail : UInt64) : Prop :=
  (∀ i j, i < j → j < (head - tail).toNat →
    slotNumber w slotCount (tail + UInt64.ofNat i) ≠
      slotNumber w slotCount (tail + UInt64.ofNat j)) ∧
  ((head - tail).toNat < slotCount.toNat → ∀ i < (head - tail).toNat,
    slotNumber w slotCount (tail + UInt64.ofNat i) ≠ slotNumber w slotCount head)

/-- Length of the window: the occupied slots and, while there is room, the next
one. -/
def windowLength (slotCount : UInt32) (head tail : UInt64) : Nat :=
  min ((head - tail).toNat + 1) slotCount.toNat

/-- Truncation to `usize` forgets the 64-bit wrap. -/
theorem slotNumber_add {w : Nat} (narrow : w ≤ 64) (slotCount : UInt32) (tail : UInt64) (i : Nat) :
    slotNumber w slotCount (tail + UInt64.ofNat i) =
      (tail.toNat + i) % 2 ^ w % slotCount.toNat := by
  have dvd : 2 ^ w ∣ 2 ^ 64 := Nat.pow_dvd_pow 2 narrow
  unfold slotNumber
  rw [UInt64.toNat_add, UInt64.toNat_ofNat', Nat.add_mod_mod, Nat.mod_mod_of_dvd _ dvd]

theorem head_eq_tail_add (head tail : UInt64) :
    head = tail + UInt64.ofNat (head - tail).toNat := by
  rw [UInt64.ofNat_toNat, UInt64.add_comm, UInt64.sub_add_cancel]

/-- Distinctness of the window is that of a stretch of consecutive counts. -/
theorem slotsDistinct_iff_spread {w : Nat} (narrow : w ≤ 64) {slotCount : UInt32}
    {head tail : UInt64} (window : (head - tail).toNat ≤ slotCount.toNat) :
    SlotsDistinct w slotCount head tail ↔
      Spread (2 ^ w) slotCount.toNat tail.toNat (windowLength slotCount head tail) := by
  have next : slotNumber w slotCount head =
      (tail.toNat + (head - tail).toNat) % 2 ^ w % slotCount.toNat := by
    conv_lhs => rw [head_eq_tail_add head tail, slotNumber_add narrow]
  simp only [SlotsDistinct, Spread, slotNumber_add narrow, next, windowLength]
  constructor
  · rintro ⟨occupied, free⟩ i j ij inside
    by_cases last : j < (head - tail).toNat
    · exact occupied i j ij last
    · obtain rfl : j = (head - tail).toNat := by omega
      exact free (by omega) i ij
  · intro spread
    exact ⟨fun i j ij inside => spread i j ij (by omega),
      fun room i inside => spread i _ inside (by omega)⟩

/-- On a `usize` of 32 or 64 bits, the window of an accepted slot count is
distinct exactly when `slot_count` divides the range of `usize`, or the
truncated cursor does not wrap inside the window, or the window is no longer
than the remainder of that range. -/
theorem slotsDistinct_iff {w : Nat} (width : w = 32 ∨ w = 64) {slotCount : UInt32}
    (two : 2 ≤ slotCount) {head tail : UInt64} (window : head - tail ≤ slotCount.toUInt64) :
    SlotsDistinct w slotCount head tail ↔
      2 ^ w % slotCount.toNat = 0 ∨
        tail.toNat % 2 ^ w + windowLength slotCount head tail ≤ 2 ^ w ∨
        windowLength slotCount head tail ≤ 2 ^ w % slotCount.toNat := by
  have two : 2 ≤ slotCount.toNat := UInt32.le_iff_toNat_le.mp two
  have count := slotCount.toNat_lt
  rw [UInt64.le_iff_toNat_le, UInt32.toNat_toUInt64] at window
  have wide : slotCount.toNat ≤ 2 ^ w := by
    rcases width with rfl | rfl
    · exact count.le
    · exact count.le.trans (by decide)
  rw [slotsDistinct_iff_spread (by omega) window]
  exact spread_iff (Nat.min_le_right _ _) wide (by omega)

/-- A full ring of four slots across the 64-bit wrap. -/
theorem slotsDistinct_four_slots : SlotsDistinct 64 4 2 (0 - 2) :=
  (slotsDistinct_iff (.inr rfl) (by decide) (by decide)).mpr (.inl (by decide))

/-- Three slots, tail at `2^64 - 1` and head at `0`: the one queued frame is in
slot 0, and the next reservation takes slot 0 as well. A 32-bit `usize` gets there
at `2^32`. -/
theorem not_slotsDistinct_three_slots :
    ((0 : UInt64) - (0 - 1) ≤ (3 : UInt32).toUInt64 ∧ ¬ SlotsDistinct 64 3 0 (0 - 1)) ∧
      ((4294967296 : UInt64) - 4294967295 ≤ (3 : UInt32).toUInt64 ∧
        ¬ SlotsDistinct 32 3 4294967296 4294967295) := by
  refine ⟨⟨by decide, fun distinct => ?_⟩, by decide, fun distinct => ?_⟩
  · exact distinct.2 (by decide) 0 (by decide) (by decide)
  · exact distinct.2 (by decide) 0 (by decide) (by decide)

end Dorsche.Wireless.DataPlane
