import Dorsche.Wireless.DataPlane.Layout

/-!
The arithmetic of `RingPair::create` in both kinds of build
(`src/wireless/data_plane.rs`).

A build with overflow checks panics where unchecked arithmetic does not fit a
`usize`; a build without them wraps. `createIn` is `create` with every unchecked
step written out, and `none` for a panic. Without the checks it is
`RingPair.create`; with them it returns only if no step overflows. So the two
builds agree exactly where nothing wraps.

The one step that can overflow is the first sum of `align_up`.
-/

namespace Dorsche.Wireless.DataPlane

open Dorsche.Lib

variable {checks : Bool} {w : Nat} {sys : SystemCalls} {slotCount payloadCapacity : UInt32}
variable {ring : RingPair}

/-! ### Builds -/

/-- A computation that may panic. -/
abbrev Build (α : Type) := ExceptT String Option α

/-- An unchecked operation on `w`-bit words with the given exact result;
`checks` are the build's `overflow-checks`. -/
def unchecked (checks : Bool) (w exact : Nat) : Option Nat :=
  if checks ∧ 2 ^ w ≤ exact then none else some (exact % 2 ^ w)

/-- An unchecked difference. -/
def uncheckedSub (checks : Bool) (w a b : Nat) : Option Nat :=
  if checks ∧ a < b then none else some ((a + 2 ^ w - b) % 2 ^ w)

/-- `align_up`. -/
def alignUpIn (checks : Bool) (w value alignment : Nat) : Option Nat := do
  let sum ← unchecked checks w (value + alignment)
  let last ← uncheckedSub checks w sum 1
  let low ← uncheckedSub checks w alignment 1
  return last &&& (2 ^ w - 1 - low)

/-- `validate_header`. -/
def validateHeaderIn (checks : Bool) (w : Nat) (header : RingHeader) (mapLen : Nat) :
    Build Unit := do
  ensure (header.magic = ringMagic) "invalid media ring magic"
  ensure (header.abiVersion = wirelessAudioAbiVersion) "media ring ABI mismatch"
  ensure (header.headerBytes.toNat = ringHeaderSize) "media ring header size mismatch"
  ensure (2 ≤ header.slotCount) "invalid media ring slot count"
  ensure (header.slotStride.toNat % cacheLine = 0) "invalid media ring alignment"
  let slots ← unchecked checks w (header.slotStride.toNat * header.slotCount.toNat)
  let expected ← unchecked checks w (ringHeaderSize + slots)
  ensure (expected = mapLen) "media ring mapping length mismatch"

/-- `RingPair::create`. -/
def RingPair.createIn (checks : Bool) (w : Nat) (sys : SystemCalls)
    (slotCount payloadCapacity : UInt32) : Build RingPair := do
  ensure (2 ≤ slotCount) "ring requires at least two slots"
  ensure (0 < payloadCapacity) "ring payload capacity must be non-zero"
  let slotSize := FrameDescriptor.sizeOf + payloadCapacity.toNat
  ensure (slotSize < 2 ^ w) "slot size overflow"
  let slotStride ← alignUpIn checks w slotSize cacheLine
  ensure (slotStride * slotCount.toNat < 2 ^ w) "ring size overflow"
  let mapLen := ringHeaderSize + slotStride * slotCount.toNat
  ensure (mapLen < 2 ^ w) "ring size overflow"
  ensure (slotStride ≤ 2 ^ 32 - 1) "slot stride exceeds ABI"
  completed sys.memfdCreate
  completed (sys.ftruncate mapLen)
  completed sys.addSeals
  completed sys.duplicateMemory
  completed sys.eventfd
  completed sys.duplicateEvent
  let address ← sys.mapProducer
  ensure (address % cacheLine = 0) "mmap did not satisfy atomic alignment"
  let header : RingHeader :=
    { magic := ringMagic
      abiVersion := wirelessAudioAbiVersion
      headerBytes := UInt16.ofNat ringHeaderSize
      slotCount := slotCount
      slotStride := UInt32.ofNat slotStride
      payloadCapacity := payloadCapacity
      head := 0
      tail := 0
      dropped := 0 }
  let memory := header.store fun _ => 0
  completed sys.mapConsumer
  validateHeaderIn checks w (RingHeader.load memory) mapLen
  completed sys.asyncFd
  return ⟨memory, mapLen⟩

/-! ### The builds agree where nothing overflows -/

/-- A build follows the wrapping computation through a check, if it does so after
the check has succeeded. -/
theorem check_bind {α β : Type} {check : Result α} {rest : α → Result β} {after : α → Build β}
    (agrees : ∀ a, check = .ok a → after a = some (rest a)) :
    ((check : Build α) >>= after : Build β) = some (check >>= rest) := by
  cases check with
  | ok a => exact agrees a rfl
  | error e => rfl

/-- An unchecked step that does not panic. -/
theorem step_bind {β : Type} {step : Option Nat} {n : Nat} {after : Nat → Build β}
    (is : step = some n) : ((step : Build Nat) >>= after : Build β) = after n := by
  rw [is]
  rfl

/-- An unchecked step that panics. -/
theorem panic_bind {β : Type} {step : Option Nat} {after : Nat → Build β} (is : step = none) :
    ((step : Build Nat) >>= after : Build β) = none := by
  rw [is]
  rfl

theorem unchecked_eq {exact : Nat} (calm : checks = false ∨ exact < 2 ^ w) :
    unchecked checks w exact = some (exact % 2 ^ w) := by
  unfold unchecked
  rw [if_neg]
  rintro ⟨on, large⟩
  rcases calm with off | small
  · simp [off] at on
  · omega

theorem uncheckedSub_eq {a b : Nat} (calm : checks = false ∨ b ≤ a) :
    uncheckedSub checks w a b = some ((a + 2 ^ w - b) % 2 ^ w) := by
  unfold uncheckedSub
  rw [if_neg]
  rintro ⟨on, below⟩
  rcases calm with off | small
  · simp [off] at on
  · omega

/-- A sum that wrapped, less one: the difference wraps back where it has to. -/
theorem mod_sub_one {n M : Nat} (pos : 0 < n) (room : 0 < M) :
    (n % M + M - 1) % M = (n - 1) % M := by
  rw [Nat.add_sub_assoc room, Nat.mod_add_mod, show n + (M - 1) = n - 1 + M by omega,
    Nat.add_mod_right]

/-- `align_up` wraps as `alignUp` says where its sum does not panic. -/
theorem alignUpIn_eq {value : Nat} (wide : 7 ≤ w)
    (calm : checks = false ∨ value + cacheLine < 2 ^ w) :
    alignUpIn checks w value cacheLine = some (alignUp w value cacheLine) := by
  have line : 1 ≤ cacheLine := by decide
  have room : cacheLine < 2 ^ w :=
    lt_of_lt_of_le (by decide : cacheLine < 2 ^ 7) (Nat.pow_le_pow_right (by decide) wide)
  have low : (cacheLine + 2 ^ w - 1) % 2 ^ w = cacheLine - 1 := by
    rw [show cacheLine + 2 ^ w - 1 = cacheLine - 1 + 2 ^ w by omega, Nat.add_mod_right,
      Nat.mod_eq_of_lt (by omega)]
  have last : checks = false ∨ 1 ≤ (value + cacheLine) % 2 ^ w :=
    calm.imp_right fun small => by
      rw [Nat.mod_eq_of_lt small]
      omega
  simp only [alignUpIn, unchecked_eq calm, Option.bind_eq_bind, Option.bind_some,
    uncheckedSub_eq last, uncheckedSub_eq (.inr line), low,
    mod_sub_one (by omega : 0 < value + cacheLine) (by omega : 0 < 2 ^ w)]
  rfl

/-- In a build with overflow checks, `align_up` panics on a sum that does not fit. -/
theorem alignUpIn_panics {value : Nat} (large : 2 ^ w ≤ value + cacheLine) :
    alignUpIn true w value cacheLine = none := by
  simp [alignUpIn, unchecked, large]

/-- `validate_header` with a product and a sum that fit. -/
theorem validateHeaderIn_eq {header : RingHeader} {mapLen : Nat}
    (calm : checks = false ∨
      ringHeaderSize + header.slotStride.toNat * header.slotCount.toNat < 2 ^ w) :
    validateHeaderIn checks w header mapLen = some (validateHeader w header mapLen) := by
  have product : checks = false ∨ header.slotStride.toNat * header.slotCount.toNat < 2 ^ w :=
    calm.imp_right (lt_of_le_of_lt (Nat.le_add_left _ _))
  have sum : checks = false ∨ ringHeaderSize +
      header.slotStride.toNat * header.slotCount.toNat % 2 ^ w < 2 ^ w :=
    calm.imp_right (lt_of_le_of_lt (Nat.add_le_add_left (Nat.mod_le _ _) _))
  unfold validateHeaderIn validateHeader
  refine check_bind fun _ _ => check_bind fun _ _ => check_bind fun _ _ => check_bind fun _ _ =>
    check_bind fun _ _ => ?_
  rw [step_bind (unchecked_eq product), step_bind (unchecked_eq sum)]
  rfl

/-- A build whose `align_up` does not overflow creates what the wrapping one
creates: the sizes in the header have been checked before it is validated. -/
theorem RingPair.createIn_eq (wide : 7 ≤ w) (calm : checks = false ∨
      FrameDescriptor.sizeOf + payloadCapacity.toNat + cacheLine < 2 ^ w) :
    RingPair.createIn checks w sys slotCount payloadCapacity =
      some (RingPair.create w sys slotCount payloadCapacity) := by
  unfold RingPair.createIn RingPair.create
  refine check_bind fun _ _ => check_bind fun _ _ => check_bind fun _ _ => ?_
  rw [step_bind (alignUpIn_eq wide calm)]
  refine check_bind fun _ _ => check_bind fun _ short => check_bind fun _ small =>
    check_bind fun _ _ => check_bind fun _ _ => check_bind fun _ _ => check_bind fun _ _ =>
    check_bind fun _ _ => check_bind fun _ _ => check_bind fun _ _ => check_bind fun _ _ =>
    check_bind fun _ _ => ?_
  rw [ensure_eq_ok] at short small
  rw [validateHeaderIn_eq]
  · exact check_bind fun _ _ => check_bind fun _ _ => rfl
  · right
    rw [RingHeader.load_store, UInt32.toNat_ofNat', Nat.mod_eq_of_lt (by omega)]
    exact short

/-! ### Layout -/

/-- The stride in the header of a ring. -/
def RingPair.slotStride (ring : RingPair) : UInt32 := (RingHeader.load ring.memory).slotStride

/-- The layout of a ring as `create` means it. Slots are where `Mapping::slot`
looks for them. -/
structure RingPair.LaidOut (w : Nat) (slotCount payloadCapacity : UInt32) (ring : RingPair) :
    Prop where
  count : (RingHeader.load ring.memory).slotCount = slotCount
  capacity : (RingHeader.load ring.memory).payloadCapacity = payloadCapacity
  stride_dvd : 64 ∣ ring.slotStride.toNat
  stride_large : 64 + payloadCapacity.toNat ≤ ring.slotStride.toNat
  stride_small : ring.slotStride.toNat < 128 + payloadCapacity.toNat
  mapLen : ring.mapLen = ringHeaderSize + slotCount.toNat * ring.slotStride.toNat
  slot_aligned : ∀ index, 64 ∣ slotOffset w slotCount ring.slotStride index
  slot_inside : ∀ index, ringHeaderSize ≤ slotOffset w slotCount ring.slotStride index ∧
    slotOffset w slotCount ring.slotStride index + ring.slotStride.toNat ≤ ring.mapLen
  slot_disjoint : ∀ i j, slotNumber w slotCount i ≠ slotNumber w slotCount j →
    slotOffset w slotCount ring.slotStride i + ring.slotStride.toNat ≤
        slotOffset w slotCount ring.slotStride j ∨
      slotOffset w slotCount ring.slotStride j + ring.slotStride.toNat ≤
        slotOffset w slotCount ring.slotStride i
  accepted : validateHeader w (RingHeader.load ring.memory) ring.mapLen = .ok ()

/-- The slots of a mapping that fits a `usize` are found without wrapping. -/
theorem slotOffset_eq_of_lt {slotStride : UInt32} (pos : 0 < slotCount.toNat)
    (fits : ringHeaderSize + slotCount.toNat * slotStride.toNat < 2 ^ w) (index : UInt64) :
    slotOffset w slotCount slotStride index =
      ringHeaderSize + slotNumber w slotCount index * slotStride.toNat := by
  have below : slotNumber w slotCount index * slotStride.toNat ≤
      slotCount.toNat * slotStride.toNat :=
    Nat.mul_le_mul_right _ (slotNumber_lt pos index).le
  unfold slotOffset
  rw [Nat.mod_eq_of_lt (by omega : _ * _ < 2 ^ w), Nat.mod_eq_of_lt (by omega)]

/-- Slots of different numbers lie apart. -/
theorem mul_stride_apart {i j stride : Nat} (lt : i < j) :
    ringHeaderSize + i * stride + stride ≤ ringHeaderSize + j * stride := by
  have : (i + 1) * stride ≤ j * stride := Nat.mul_le_mul_right _ lt
  rw [Nat.add_mul, Nat.one_mul] at this
  omega

/-- A ring that was created without wrapping is laid out as meant. -/
theorem RingPair.create_laidOut (wide : 7 ≤ w)
    (fits : FrameDescriptor.sizeOf + payloadCapacity.toNat + cacheLine < 2 ^ w)
    (created : RingPair.create w sys slotCount payloadCapacity = .ok ring) :
    ring.LaidOut w slotCount payloadCapacity := by
  obtain ⟨g, rfl, rfl, least, short, mapLen, memory⟩ := RingPair.create_laid (by omega)
    (by simp only [cacheLine] at fits; omega) created
  have loaded : RingHeader.load ring.memory = g.header 0 0 0 := by
    rw [memory, RingHeader.load_store]
  have stride : ring.slotStride = g.slotStride := by
    rw [RingPair.slotStride, loaded]
    rfl
  have offset (index : UInt64) : slotOffset w g.slotCount g.slotStride index =
      ringHeaderSize + slotNumber w g.slotCount index * g.slotStride.toNat :=
    slotOffset_eq_of_lt g.slotCount_pos short index
  constructor
  case count => rw [loaded]; rfl
  case capacity => rw [loaded]; rfl
  case stride_dvd => rw [stride]; exact g.cacheLine_dvd_slotStride
  case stride_large => rw [stride]; exact g.slot_fits
  case stride_small => rw [stride, least]; omega
  case mapLen => rw [stride, mapLen]; rfl
  case slot_aligned =>
    intro index
    rw [stride, offset]
    exact (Nat.dvd_add_iff_right (by decide : 64 ∣ ringHeaderSize)).mp
      (g.cacheLine_dvd_slotStride.mul_left _)
  case slot_inside =>
    intro index
    rw [stride, offset, mapLen]
    exact ⟨Nat.le_add_right _ _, mul_stride_apart (slotNumber_lt g.slotCount_pos index)⟩
  case slot_disjoint =>
    intro i j ne
    rw [stride, offset, offset]
    rcases Nat.lt_or_gt_of_ne ne with lt | gt
    · exact .inl (mul_stride_apart lt)
    · exact .inr (mul_stride_apart gt)
  case accepted =>
    rw [loaded, mapLen]
    have expected : (ringHeaderSize + g.slotStride.toNat * g.slotCount.toNat % 2 ^ w) % 2 ^ w =
        g.mapLen := by
      unfold Geometry.mapLen at short ⊢
      rw [Nat.mul_comm g.slotCount.toNat] at short ⊢
      rw [Nat.mod_eq_of_lt (by omega : _ * _ < 2 ^ w), Nat.mod_eq_of_lt short]
    have two : 2 ≤ g.slotCount := UInt32.le_iff_toNat_le.mpr g.two_le_slotCount
    have aligned := Nat.mod_eq_zero_of_dvd g.cacheLine_dvd_slotStride
    simp only [validateHeader, bind_eq_ok, ensure_eq_ok, exists_const]
    exact ⟨rfl, rfl, by simp [Geometry.header, ringHeaderSize], two, aligned, expected⟩

/-- Whatever the system calls do, `create` returns in both kinds of build, with
the same result, and a ring it returns is laid out as meant. The build with
overflow checks returns only if no step overflows. -/
def RingPair.Sound (w : Nat) (slotCount payloadCapacity : UInt32) : Prop :=
  ∀ sys, ∃ result, RingPair.createIn true w sys slotCount payloadCapacity = some result ∧
    RingPair.createIn false w sys slotCount payloadCapacity = some result ∧
    ∀ ring, result = .ok ring → ring.LaidOut w slotCount payloadCapacity

/-- The sizes whose slot fits a 32-bit `usize` while its rounding up does not. -/
def RoundingOverflows (w : Nat) (slotCount payloadCapacity : UInt32) : Prop :=
  w = 32 ∧ 2 ≤ slotCount ∧ 2 ^ 32 - 128 ≤ payloadCapacity.toNat ∧
    payloadCapacity.toNat < 2 ^ 32 - 64

theorem RingPair.createIn_panics (overflows : RoundingOverflows w slotCount payloadCapacity) :
    RingPair.createIn true w sys slotCount payloadCapacity = none := by
  obtain ⟨rfl, two, low, high⟩ := overflows
  have pos : 0 < payloadCapacity := by
    rw [UInt32.lt_iff_toNat_lt]
    change 0 < payloadCapacity.toNat
    omega
  have fits : FrameDescriptor.sizeOf + payloadCapacity.toNat < 2 ^ 32 := by
    simp only [FrameDescriptor.sizeOf]
    omega
  have panics : alignUpIn true 32 (FrameDescriptor.sizeOf + payloadCapacity.toNat) cacheLine =
      none := alignUpIn_panics (by simp only [FrameDescriptor.sizeOf, cacheLine]; omega)
  simp only [RingPair.createIn, ensure, if_pos two, if_pos pos, if_pos fits]
  exact panic_bind panics

/-- Outside those sizes, a sum that does not fit belongs to a slot count or a slot
size that `create` has rejected before. -/
theorem RingPair.createIn_rejects (sys : SystemCalls) (bits : w = 32 ∨ w = 64)
    (safe : ¬ RoundingOverflows w slotCount payloadCapacity)
    (large : ¬ FrameDescriptor.sizeOf + payloadCapacity.toNat + cacheLine < 2 ^ w) :
    ∃ e, ∀ checks, RingPair.createIn checks w sys slotCount payloadCapacity =
      some (.error e) := by
  have capacity := payloadCapacity.toNat_lt
  simp only [FrameDescriptor.sizeOf, cacheLine] at large
  obtain rfl : w = 32 := by
    rcases bits with rfl | rfl
    · rfl
    · omega
  by_cases two : 2 ≤ slotCount
  · have pos : 0 < payloadCapacity := by
      rw [UInt32.lt_iff_toNat_lt]
      change 0 < payloadCapacity.toNat
      omega
    have rejected : ¬ FrameDescriptor.sizeOf + payloadCapacity.toNat < 2 ^ 32 := by
      intro fits
      simp only [FrameDescriptor.sizeOf] at fits
      exact safe ⟨rfl, two, by omega, by omega⟩
    refine ⟨"slot size overflow", fun checks => ?_⟩
    simp only [RingPair.createIn, ensure, if_pos two, if_pos pos, if_neg rejected]
    rfl
  · refine ⟨"ring requires at least two slots", fun checks => ?_⟩
    simp only [RingPair.createIn, ensure, if_neg two]
    rfl

/-- The size arithmetic of `create` is sound for every slot count and capacity on a
64-bit `usize`, and on a 32-bit one exactly outside the capacities whose slot
fits and whose `align_up` overflows. -/
theorem RingPair.sound_iff (bits : w = 32 ∨ w = 64) :
    RingPair.Sound w slotCount payloadCapacity ↔
      ¬ RoundingOverflows w slotCount payloadCapacity := by
  have wide : 7 ≤ w := by omega
  constructor
  · intro sound overflows
    obtain ⟨result, returns, -⟩ := sound .calm
    rw [RingPair.createIn_panics overflows] at returns
    cases returns
  · intro safe sys
    by_cases calm : FrameDescriptor.sizeOf + payloadCapacity.toNat + cacheLine < 2 ^ w
    · exact ⟨_, RingPair.createIn_eq wide (.inr calm), RingPair.createIn_eq wide (.inr calm),
        fun ring created => RingPair.create_laidOut wide calm created⟩
    · -- The sum of `align_up` does not fit, so an earlier check has failed.
      obtain ⟨e, fails⟩ := RingPair.createIn_rejects sys bits safe calm
      exact ⟨.error e, fails true, fails false, fun ring created => by cases created⟩

theorem RingPair.sound_iff_sixteen_slots : RingPair.Sound 32 16 1920 ∧ RingPair.Sound 64 16 1920 :=
  ⟨(RingPair.sound_iff (.inl rfl)).mpr (by rintro ⟨-, -, low, -⟩; revert low; decide),
    (RingPair.sound_iff (.inr rfl)).mpr (by rintro ⟨bits, -⟩; cases bits)⟩

/-- A capacity of 2³² - 127 octets on a 32-bit `usize`: with overflow checks
`create` panics, and without them it returns two slots of no octets at all. -/
theorem RingPair.not_sound_wrapped_stride :
    RingPair.createIn true 32 .calm 2 4294967169 = none ∧
      (RingPair.createIn false 32 .calm 2 4294967169).run.map
        (·.toOption.map fun ring => (ring.slotStride, ring.mapLen)) = some (some (0, 256)) ∧
      ¬ RingPair.Sound 32 2 4294967169 := by
  have panics : RingPair.createIn true 32 .calm 2 4294967169 = none :=
    RingPair.createIn_panics ⟨rfl, by decide, by decide, by decide⟩
  refine ⟨panics, by decide +kernel, fun sound => ?_⟩
  obtain ⟨result, returns, -⟩ := sound .calm
  rw [panics] at returns
  cases returns

end Dorsche.Wireless.DataPlane
