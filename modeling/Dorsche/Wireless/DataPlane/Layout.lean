import Dorsche.Lib.Window
import Dorsche.Wireless.Types

/-!
Layout of the shared media ring (`src/wireless/data_plane.rs`).

`RingHeader` is the `repr(C, align(64))` header at offset 0 of the mapping;
`load` and `store` are its octets. The functions that compute with `usize` take
its width `w` in bits and reduce modulo `2 ^ w` wherever the source computes
unchecked. `create` is `RingPair::create` against the outcomes of the system
calls it makes; the memory it returns is the zeroed memfd with the header
written.
-/

namespace Dorsche.Wireless.DataPlane

open Dorsche.Lib

/-! ### The header -/

/-- `RING_MAGIC`: the octets `DRNG`. -/
def ringMagic : UInt32 := 0x474e5244

/-- `CACHE_LINE`. -/
def cacheLine : Nat := 64

/-- `size_of::<RingHeader>()`. -/
def ringHeaderSize : Nat := 256

/-! Field offsets; each cursor starts a cache line. -/

def magicOffset : Nat := 0
def abiVersionOffset : Nat := 4
def headerBytesOffset : Nat := 6
def slotCountOffset : Nat := 8
def slotStrideOffset : Nat := 12
def payloadCapacityOffset : Nat := 16
def headOffset : Nat := 64
def tailOffset : Nat := 128
def droppedOffset : Nat := 192

structure RingHeader where
  magic : UInt32
  abiVersion : UInt16
  headerBytes : UInt16
  slotCount : UInt32
  slotStride : UInt32
  payloadCapacity : UInt32
  head : UInt64
  tail : UInt64
  dropped : UInt64
deriving DecidableEq, Repr

namespace RingHeader

/-- The header as it stands in memory. -/
def load (m : Memory) : RingHeader where
  magic := m.u32 magicOffset
  abiVersion := m.u16 abiVersionOffset
  headerBytes := m.u16 headerBytesOffset
  slotCount := m.u32 slotCountOffset
  slotStride := m.u32 slotStrideOffset
  payloadCapacity := m.u32 payloadCapacityOffset
  head := m.u64 headOffset
  tail := m.u64 tailOffset
  dropped := m.u64 droppedOffset

/-- Write a header; the reserved octets are zero and stay zero. -/
def store (h : RingHeader) (m : Memory) : Memory :=
  ((((((((m.setWord 4 magicOffset h.magic.toNat).setWord 2 abiVersionOffset
    h.abiVersion.toNat).setWord 2 headerBytesOffset h.headerBytes.toNat).setWord 4
    slotCountOffset h.slotCount.toNat).setWord 4 slotStrideOffset h.slotStride.toNat).setWord 4
    payloadCapacityOffset h.payloadCapacity.toNat).setWord 8 headOffset h.head.toNat).setWord 8
    tailOffset h.tail.toNat).setWord 8 droppedOffset h.dropped.toNat

theorem load_store (h : RingHeader) (m : Memory) : load (h.store m) = h := by
  have h16 (v : UInt16) : v.toNat < 256 ^ 2 := v.toNat_lt
  have h32 (v : UInt32) : v.toNat < 256 ^ 4 := v.toNat_lt
  have h64 (v : UInt64) : v.toNat < 256 ^ 8 := v.toNat_lt
  simp only [load, store, Memory.u16, Memory.u32, Memory.u64, magicOffset, abiVersionOffset,
    headerBytesOffset, slotCountOffset, slotStrideOffset, payloadCapacityOffset, headOffset,
    tailOffset, droppedOffset]
  simp (disch := first | decide | exact h16 _ | exact h32 _ | exact h64 _) only
    [Memory.word_setWord_of_disjoint, Memory.word_setWord_self, UInt16.ofNat_toNat,
      UInt32.ofNat_toNat, UInt64.ofNat_toNat]

end RingHeader

/-- `validate_header` on a `w`-bit `usize`. The mapping length is the only thing
it relates the shape to. -/
def validateHeader (w : Nat) (header : RingHeader) (mapLen : Nat) : Result Unit := do
  ensure (header.magic = ringMagic) "invalid media ring magic"
  ensure (header.abiVersion = wirelessAudioAbiVersion) "media ring ABI mismatch"
  ensure (header.headerBytes.toNat = ringHeaderSize) "media ring header size mismatch"
  ensure (2 ≤ header.slotCount) "invalid media ring slot count"
  ensure (header.slotStride.toNat % cacheLine = 0) "invalid media ring alignment"
  let expected :=
    (ringHeaderSize + header.slotStride.toNat * header.slotCount.toNat % 2 ^ w) % 2 ^ w
  ensure (expected = mapLen) "media ring mapping length mismatch"

/-! ### Slots -/

/-- `index as usize % header.slot_count as usize`. -/
def slotNumber (w : Nat) (slotCount : UInt32) (index : UInt64) : Nat :=
  index.toNat % 2 ^ w % slotCount.toNat

/-- The offset `Mapping::slot` computes for a non-zero slot count. -/
def slotOffset (w : Nat) (slotCount slotStride : UInt32) (index : UInt64) : Nat :=
  (ringHeaderSize + slotNumber w slotCount index * slotStride.toNat % 2 ^ w) % 2 ^ w

theorem slotNumber_lt {w : Nat} {slotCount : UInt32} (pos : 0 < slotCount.toNat)
    (index : UInt64) : slotNumber w slotCount index < slotCount.toNat :=
  Nat.mod_lt _ pos

/-- The product of two 32-bit numbers and the header fit a 64-bit `usize`. -/
theorem header_add_mul_lt {a b : Nat} (ha : a < 2 ^ 32) (hb : b < 2 ^ 32) :
    ringHeaderSize + a * b < 2 ^ 64 := by
  have : a * b ≤ (2 ^ 32 - 1) * (2 ^ 32 - 1) := Nat.mul_le_mul (by omega) (by omega)
  simp only [ringHeaderSize]
  omega

/-- What `validate_header` accepts on a 64-bit `usize`, where no step of it
wraps. -/
theorem validateHeader_eq_ok_iff {header : RingHeader} {mapLen : Nat} :
    validateHeader 64 header mapLen = .ok () ↔
      header.magic = ringMagic ∧ header.abiVersion = wirelessAudioAbiVersion ∧
        header.headerBytes.toNat = ringHeaderSize ∧ 2 ≤ header.slotCount.toNat ∧
        cacheLine ∣ header.slotStride.toNat ∧
        ringHeaderSize + header.slotStride.toNat * header.slotCount.toNat = mapLen := by
  have bound := header_add_mul_lt header.slotStride.toNat_lt header.slotCount.toNat_lt
  have expected : (ringHeaderSize + header.slotStride.toNat * header.slotCount.toNat % 2 ^ 64) %
      2 ^ 64 = ringHeaderSize + header.slotStride.toNat * header.slotCount.toNat := by
    rw [Nat.mod_eq_of_lt (by omega : _ * _ < 2 ^ 64), Nat.mod_eq_of_lt bound]
  have two : (2 : UInt32) ≤ header.slotCount ↔ 2 ≤ header.slotCount.toNat :=
    UInt32.le_iff_toNat_le
  simp only [validateHeader, bind_eq_ok, ensure_eq_ok, expected, two, Nat.dvd_iff_mod_eq_zero,
    exists_const]

/-- No step of `Mapping::slot` wraps on a 64-bit `usize`. -/
theorem slotOffset_eq {slotCount : UInt32} (pos : 0 < slotCount.toNat) (slotStride : UInt32)
    (index : UInt64) :
    slotOffset 64 slotCount slotStride index =
      ringHeaderSize + slotNumber 64 slotCount index * slotStride.toNat := by
  have number := (slotNumber_lt (w := 64) pos index).trans slotCount.toNat_lt
  have bound := header_add_mul_lt number slotStride.toNat_lt
  unfold slotOffset
  rw [Nat.mod_eq_of_lt (by omega : _ * _ < 2 ^ 64), Nat.mod_eq_of_lt bound]

/-! ### Geometry

The shape of a ring whose slots hold their payloads. A header that
`validateHeader` accepts need not have one (`payloadCapacity` is not related to
`slotStride` there); `create` always builds one. -/

structure Geometry where
  slotCount : UInt32
  slotStride : UInt32
  payloadCapacity : UInt32
  two_le_slotCount : 2 ≤ slotCount.toNat
  cacheLine_dvd_slotStride : cacheLine ∣ slotStride.toNat
  slot_fits : FrameDescriptor.sizeOf + payloadCapacity.toNat ≤ slotStride.toNat

namespace Geometry

variable (g : Geometry)

/-- Length of the mapping. -/
def mapLen : Nat := ringHeaderSize + g.slotCount.toNat * g.slotStride.toNat

/-- Slot number of the `k`-th frame ever published. -/
def slotOf (k : Nat) : Nat := k % 2 ^ 64 % g.slotCount.toNat

/-- Offset of the slot of the `k`-th frame ever published. -/
def slotAt (k : Nat) : Nat := ringHeaderSize + g.slotOf k * g.slotStride.toNat

/-- Offset of the payload of the `k`-th frame ever published. -/
def payloadAt (k : Nat) : Nat := g.slotAt k + FrameDescriptor.sizeOf

theorem slotCount_pos : 0 < g.slotCount.toNat := by
  have := g.two_le_slotCount
  omega

theorem slotOf_lt (k : Nat) : g.slotOf k < g.slotCount.toNat := Nat.mod_lt _ g.slotCount_pos

theorem slotNumber_ofNat (k : Nat) : slotNumber 64 g.slotCount (UInt64.ofNat k) = g.slotOf k := by
  simp [slotNumber, slotOf]

theorem slotOffset_ofNat (k : Nat) :
    slotOffset 64 g.slotCount g.slotStride (UInt64.ofNat k) = g.slotAt k := by
  rw [slotOffset_eq g.slotCount_pos, slotNumber_ofNat, slotAt]

theorem header_le_slotAt (k : Nat) : ringHeaderSize ≤ g.slotAt k := Nat.le_add_right _ _

theorem header_le_payloadAt (k : Nat) : ringHeaderSize ≤ g.payloadAt k :=
  (g.header_le_slotAt k).trans (Nat.le_add_right _ _)

/-- Descriptor and payload of a slot end inside the mapping. -/
theorem slotAt_add_le_mapLen (k : Nat) :
    g.slotAt k + (FrameDescriptor.sizeOf + g.payloadCapacity.toNat) ≤ g.mapLen := by
  have whole : (g.slotOf k + 1) * g.slotStride.toNat ≤ g.slotCount.toNat * g.slotStride.toNat :=
    Nat.mul_le_mul_right _ (g.slotOf_lt k)
  have fits := g.slot_fits
  rw [Nat.add_mul, Nat.one_mul] at whole
  unfold slotAt mapLen
  omega

/-- Different slots do not overlap. -/
theorem slotAt_disjoint {j k : Nat} (ne : g.slotOf j ≠ g.slotOf k) :
    g.slotAt j + g.slotStride.toNat ≤ g.slotAt k ∨
      g.slotAt k + g.slotStride.toNat ≤ g.slotAt j := by
  unfold slotAt
  rcases Nat.lt_or_gt_of_ne ne with lt | gt
  · left
    have : (g.slotOf j + 1) * g.slotStride.toNat ≤ g.slotOf k * g.slotStride.toNat :=
      Nat.mul_le_mul_right _ lt
    rw [Nat.add_mul, Nat.one_mul] at this
    omega
  · right
    have : (g.slotOf k + 1) * g.slotStride.toNat ≤ g.slotOf j * g.slotStride.toNat :=
      Nat.mul_le_mul_right _ gt
    rw [Nat.add_mul, Nat.one_mul] at this
    omega

/-- The header `create` writes, with given cursors. -/
def header (head tail dropped : UInt64) : RingHeader where
  magic := ringMagic
  abiVersion := wirelessAudioAbiVersion
  headerBytes := UInt16.ofNat ringHeaderSize
  slotCount := g.slotCount
  slotStride := g.slotStride
  payloadCapacity := g.payloadCapacity
  head := head
  tail := tail
  dropped := dropped

/-- Both endpoints of a ring accept its header, whatever the cursors are. -/
theorem validateHeader_header (head tail dropped : UInt64) :
    validateHeader 64 (g.header head tail dropped) g.mapLen = .ok () := by
  refine validateHeader_eq_ok_iff.mpr ⟨rfl, rfl, by simp [header, ringHeaderSize],
    g.two_le_slotCount, g.cacheLine_dvd_slotStride, ?_⟩
  rw [mapLen, Nat.mul_comm g.slotCount.toNat]
  rfl

end Geometry

/-! ### Creation -/

/-- `align_up`, wrapping as unchecked `usize` arithmetic does. -/
def alignUp (w value alignment : Nat) : Nat :=
  (value + alignment - 1) % 2 ^ w &&& (2 ^ w - 1 - (alignment - 1))

/-- Outcomes of the system calls `RingPair::create` makes, in its order: `none`
for success, otherwise the text of the error. -/
structure SystemCalls where
  memfdCreate : Option String
  ftruncate : Nat → Option String
  addSeals : Option String
  duplicateMemory : Option String
  eventfd : Option String
  duplicateEvent : Option String
  mapProducer : Except String Nat
  mapConsumer : Option String
  asyncFd : Option String

def completed : Option String → Result Unit
  | none => .ok ()
  | some e => .error e

/-- What the two endpoints of a new ring share. -/
structure RingPair where
  memory : Memory
  mapLen : Nat

/-- `RingPair::create` on a `w`-bit `usize`. -/
def RingPair.create (w : Nat) (sys : SystemCalls) (slotCount payloadCapacity : UInt32) :
    Result RingPair := do
  ensure (2 ≤ slotCount) "ring requires at least two slots"
  ensure (0 < payloadCapacity) "ring payload capacity must be non-zero"
  let slotSize := FrameDescriptor.sizeOf + payloadCapacity.toNat
  ensure (slotSize < 2 ^ w) "slot size overflow"
  let slotStride := alignUp w slotSize cacheLine
  ensure (slotStride * slotCount.toNat < 2 ^ w) "ring size overflow"
  let mapLen := ringHeaderSize + slotStride * slotCount.toNat
  ensure (mapLen < 2 ^ w) "ring size overflow"
  ensure (slotStride ≤ 2 ^ 32 - 1) "slot stride exceeds ABI"
  completed sys.memfdCreate
  completed (sys.ftruncate mapLen)
  completed sys.addSeals
  completed sys.duplicateMemory
  completed sys.eventfd
  completed sys.duplicateEvent
  let address ← sys.mapProducer
  ensure (address % cacheLine = 0) "mmap did not satisfy atomic alignment"
  let header : RingHeader :=
    { magic := ringMagic
      abiVersion := wirelessAudioAbiVersion
      headerBytes := UInt16.ofNat ringHeaderSize
      slotCount := slotCount
      slotStride := UInt32.ofNat slotStride
      payloadCapacity := payloadCapacity
      head := 0
      tail := 0
      dropped := 0 }
  let memory := header.store fun _ => 0
  completed sys.mapConsumer
  validateHeader w (RingHeader.load memory) mapLen
  completed sys.asyncFd
  return ⟨memory, mapLen⟩

/-- Rounding up to a cache line where the sum does not wrap. -/
theorem alignUp_cacheLine {w value : Nat} (hw : 6 ≤ w) (fits : value + 63 < 2 ^ w) :
    alignUp w value cacheLine = (value + 63) / 64 * 64 := by
  have mask : 2 ^ w - 1 - (cacheLine - 1) = 2 ^ w - 2 ^ 6 := by
    simp only [cacheLine]
    omega
  unfold alignUp
  rw [mask, show value + cacheLine - 1 = value + 63 by simp [cacheLine],
    Nat.mod_eq_of_lt fits]
  exact and_mask_eq hw fits

/-- Where rounding up to a cache line does not wrap, a created ring has a geometry
with the requested slot count and capacity and the least stride, and its memory
holds exactly that geometry's header with all cursors at zero. -/
theorem RingPair.create_laid {w : Nat} {sys : SystemCalls} {slotCount payloadCapacity : UInt32}
    {ring : RingPair} (wide : 6 ≤ w)
    (fits : FrameDescriptor.sizeOf + payloadCapacity.toNat + 63 < 2 ^ w)
    (created : RingPair.create w sys slotCount payloadCapacity = .ok ring) :
    ∃ g : Geometry, g.slotCount = slotCount ∧ g.payloadCapacity = payloadCapacity ∧
      g.slotStride.toNat = (64 + payloadCapacity.toNat + 63) / 64 * 64 ∧ g.mapLen < 2 ^ w ∧
      ring.mapLen = g.mapLen ∧ ring.memory = (g.header 0 0 0).store fun _ => 0 := by
  have stride := alignUp_cacheLine wide fits
  simp only [FrameDescriptor.sizeOf] at stride
  simp only [RingPair.create, bind_eq_ok, ensure_eq_ok, FrameDescriptor.sizeOf, stride,
    Unique.exists_iff] at created
  obtain ⟨two, -, -, -, short, small, -, -, -, -, -, -, -, -, -, -, -, -, built⟩ := created
  have strideNat : (UInt32.ofNat ((64 + payloadCapacity.toNat + 63) / 64 * 64)).toNat =
      (64 + payloadCapacity.toNat + 63) / 64 * 64 := by
    rw [UInt32.toNat_ofNat', Nat.mod_eq_of_lt (by omega)]
  have length : ringHeaderSize + (64 + payloadCapacity.toNat + 63) / 64 * 64 * slotCount.toNat =
      ringHeaderSize + slotCount.toNat *
        (UInt32.ofNat ((64 + payloadCapacity.toNat + 63) / 64 * 64)).toNat := by
    rw [strideNat, Nat.mul_comm slotCount.toNat]
  refine ⟨⟨slotCount, UInt32.ofNat ((64 + payloadCapacity.toNat + 63) / 64 * 64), payloadCapacity,
    UInt32.le_iff_toNat_le.mp two, ?_, ?_⟩, rfl, rfl, strideNat, ?_, ?_⟩
  · rw [strideNat]
    exact Nat.dvd_mul_left _ _
  · rw [strideNat]
    simp only [FrameDescriptor.sizeOf]
    omega
  · exact length.symm.trans_lt short
  · cases built
    exact ⟨length, rfl⟩

/-- Every ring created on a 64-bit `usize` has a geometry. -/
theorem RingPair.create_geometry {sys : SystemCalls} {slotCount payloadCapacity : UInt32}
    {ring : RingPair} (created : RingPair.create 64 sys slotCount payloadCapacity = .ok ring) :
    ∃ g : Geometry, g.slotCount = slotCount ∧ g.payloadCapacity = payloadCapacity ∧
      ring.mapLen = g.mapLen ∧ ring.memory = (g.header 0 0 0).store fun _ => 0 := by
  have capacity := payloadCapacity.toNat_lt
  obtain ⟨g, count, octets, -, -, mapLen, memory⟩ := RingPair.create_laid (by decide)
    (by simp only [FrameDescriptor.sizeOf]; omega) created
  exact ⟨g, count, octets, mapLen, memory⟩

/-- The system calls of `RingPair::create` succeed, and the mapping is aligned as
`mmap` aligns it. -/
structure SystemCalls.Succeed (sys : SystemCalls) : Prop where
  memfdCreate : sys.memfdCreate = none
  ftruncate : ∀ len, sys.ftruncate len = none
  addSeals : sys.addSeals = none
  duplicateMemory : sys.duplicateMemory = none
  eventfd : sys.eventfd = none
  duplicateEvent : sys.duplicateEvent = none
  mapProducer : ∃ address, sys.mapProducer = .ok address ∧ address % cacheLine = 0
  mapConsumer : sys.mapConsumer = none
  asyncFd : sys.asyncFd = none

/-- System calls that succeed. -/
def SystemCalls.calm : SystemCalls :=
  ⟨none, fun _ => none, none, none, none, none, .ok 0, none, none⟩

theorem SystemCalls.calm_succeed : SystemCalls.calm.Succeed :=
  ⟨rfl, fun _ => rfl, rfl, rfl, rfl, rfl, ⟨0, rfl, rfl⟩, rfl, rfl⟩

/-- On a 64-bit `usize`, a ring of legal size is created whenever the system
calls succeed: nothing that `create` checks of its own layout can fail. -/
theorem RingPair.create_succeeds {sys : SystemCalls} {slotCount payloadCapacity : UInt32}
    (works : sys.Succeed) (two : 2 ≤ slotCount) (pos : 0 < payloadCapacity)
    (small : payloadCapacity.toNat < 2 ^ 32 - 127) :
    ∃ ring, RingPair.create 64 sys slotCount payloadCapacity = .ok ring := by
  have stride : alignUp 64 (FrameDescriptor.sizeOf + payloadCapacity.toNat) cacheLine =
      (64 + payloadCapacity.toNat + 63) / 64 * 64 :=
    alignUp_cacheLine (by decide) (by simp only [FrameDescriptor.sizeOf]; omega)
  have fits : (64 + payloadCapacity.toNat + 63) / 64 * 64 < 2 ^ 32 := by omega
  have strideNat : (UInt32.ofNat ((64 + payloadCapacity.toNat + 63) / 64 * 64)).toNat =
      (64 + payloadCapacity.toNat + 63) / 64 * 64 := by
    rw [UInt32.toNat_ofNat', Nat.mod_eq_of_lt fits]
  have bound := header_add_mul_lt fits slotCount.toNat_lt
  obtain ⟨address, mapped, aligned⟩ := works.mapProducer
  simp only [RingPair.create, bind_eq_ok, ensure_eq_ok, stride, RingHeader.load_store,
    works.memfdCreate, works.ftruncate, works.addSeals, works.duplicateMemory, works.eventfd,
    works.duplicateEvent, mapped, works.mapConsumer, works.asyncFd, completed, Unique.exists_iff,
    true_and]
  refine ⟨_, two, pos, ?_, by omega, bound, by omega, address, rfl, aligned, ?_, rfl⟩
  · simp only [FrameDescriptor.sizeOf]
    omega
  · refine validateHeader_eq_ok_iff.mpr ⟨rfl, rfl, by simp [ringHeaderSize],
      UInt32.le_iff_toNat_le.mp two, ?_, ?_⟩
    · rw [strideNat]
      exact Nat.dvd_mul_left _ _
    · rw [strideNat]

end Dorsche.Wireless.DataPlane
