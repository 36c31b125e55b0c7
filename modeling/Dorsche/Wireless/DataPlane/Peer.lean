import Dorsche.Wireless.DataPlane.SlotBounds

/-!
One endpoint of a media ring against a peer that writes what it likes.

The memfd is sealed against resizing only: the peer can overwrite every octet
of the mapping, the header included, between any two accesses of the endpoint.
The endpoint reads `slot_count`, `slot_stride` and `payload_capacity` anew each
time it needs them, so its accesses stay in the mapping only as long as the
peer keeps these fields within the adopted shape (`Tame`). Cursors,
descriptors and payloads may change freely.
-/

namespace Dorsche.Wireless.DataPlane

open Dorsche.Lib

/-! ### Accesses -/

/-- The octets an access touches. -/
def Access.region : Access → Option Slice
  | .loadU16 off => some ⟨off, 2⟩
  | .loadU32 off => some ⟨off, 4⟩
  | .loadU64 off => some ⟨off, 8⟩
  | .storeU64 off _ _ => some ⟨off, 8⟩
  | .fetchAddU64 off _ _ => some ⟨off, 8⟩
  | .readDescriptor off => some ⟨off, FrameDescriptor.sizeOf⟩
  | .writeDescriptor off _ => some ⟨off, FrameDescriptor.sizeOf⟩
  | .readPayload off n => some ⟨off, n⟩
  | .writePayload off bytes => some ⟨off, bytes.length⟩
  | .writeEvent | .readable | .readEvent | .clearReady | .panic _ | .note _ => none

/-- The alignment an access needs; the mapping itself starts on a page. -/
def Access.alignment : Access → Nat
  | .loadU16 _ => 2
  | .loadU32 _ => 4
  | .loadU64 _ | .storeU64 _ _ _ | .fetchAddU64 _ _ _ => 8
  | .readDescriptor _ | .writeDescriptor _ _ => 8
  | _ => 1

/-- What an access writes to the mapping, and where. -/
def Access.written : Access → Shared → Option (Nat × List UInt8)
  | .storeU64 off value _, _ => some (off, leBytes 8 value.toNat)
  | .fetchAddU64 off delta _, s => some (off, leBytes 8 (s.memory.u64 off + delta).toNat)
  | .writeDescriptor off descriptor, _ => some (off, descriptor.encode)
  | .writePayload off bytes, _ => some (off, bytes)
  | _, _ => none

theorem Shared.record_memory (s : Shared) (ghost : Ghost) : (s.record ghost).memory = s.memory := by
  cases ghost <;> rfl

/-- An access that writes nothing leaves the mapping alone. -/
theorem exec_memory {i : Access} {s s' : Shared} {r : i.Reply} (ran : exec i s = some (r, s')) :
    s'.memory = match i.written s with
      | none => s.memory
      | some (off, bytes) => s.memory.write off bytes := by
  cases i with
  | panic text => cases ran
  | readable =>
      simp only [exec] at ran
      split at ran
      · rw [← (Prod.mk.inj (Option.some.inj ran)).2]
        rfl
      · cases ran
  | note ghost =>
      rw [← (Prod.mk.inj (Option.some.inj ran)).2]
      exact s.record_memory ghost
  | _ =>
      rw [← (Prod.mk.inj (Option.some.inj ran)).2]
      rfl

/-- The access does not panic, is aligned, and stays in a mapping of `mapLen`
octets. -/
def Access.Sound (mapLen : Nat) (i : Access) : Prop :=
  (∀ text, i ≠ .panic text) ∧
    ∀ r, i.region = some r → r.offset + r.len ≤ mapLen ∧ i.alignment ∣ r.offset

/-! ### The endpoint and its peer -/

/-- Where the user of an endpoint is between two calls. -/
inductive EndpointAt where
  | producer
  | leased (lease : ProducerLease) (slice : Option Slice)
  | consumer
  | holding (lease : FrameLease)

namespace EndpointAt

def reserve : Ring EndpointAt := do
  match ← Producer.tryReserve with
  | none => return .producer
  | some lease => return .leased lease none

def borrow (lease : ProducerLease) : Ring EndpointAt := do
  let slice ← lease.payloadMut
  return .leased lease (some slice)

def fill (lease : ProducerLease) (slice : Slice) (start : Nat) (bytes : List UInt8) :
    Ring EndpointAt := do
  access (.writePayload (slice.offset + start) bytes)
  return .leased lease (some slice)

def readBack (lease : ProducerLease) (slice : Slice) (start n : Nat) : Ring EndpointAt := do
  let _ ← access (.readPayload (slice.offset + start) n)
  return .leased lease (some slice)

def commit (lease : ProducerLease) (descriptor : FrameDescriptor) (payloadBytes : Nat) :
    Ring EndpointAt := do
  let _ ← lease.commit descriptor payloadBytes
  return .producer

def countDropped : Ring EndpointAt := do
  let _ ← Producer.droppedFrames
  return .producer

def acquire : Ring EndpointAt := do
  match ← Consumer.tryAcquire with
  | .ok (some lease) => return .holding lease
  | .ok none | .error _ => return .consumer

def look (lease : FrameLease) (start n : Nat) : Ring EndpointAt := do
  let _ ← access (.readPayload (lease.payload.offset + start) n)
  return .holding lease

def drop (lease : FrameLease) : Ring EndpointAt := do
  lease.drop
  return .consumer

def countQueued : Ring EndpointAt := do
  let _ ← Consumer.queuedFrames
  return .consumer

end EndpointAt

/-- The calls the user of an endpoint may make. -/
inductive EndpointMenu : EndpointAt → Ring EndpointAt → Prop where
  | reserve : EndpointMenu .producer EndpointAt.reserve
  | countDropped : EndpointMenu .producer EndpointAt.countDropped
  | borrow {lease slice} : EndpointMenu (.leased lease slice) (EndpointAt.borrow lease)
  | fill {lease slice start} {bytes : List UInt8} : start + bytes.length ≤ slice.len →
      EndpointMenu (.leased lease (some slice)) (EndpointAt.fill lease slice start bytes)
  | readBack {lease slice start n} : start + n ≤ slice.len →
      EndpointMenu (.leased lease (some slice)) (EndpointAt.readBack lease slice start n)
  | dropLease {lease slice} : EndpointMenu (.leased lease slice) (.ret .producer)
  | commit {lease slice} (descriptor payloadBytes) :
      EndpointMenu (.leased lease slice) (EndpointAt.commit lease descriptor payloadBytes)
  | acquire : EndpointMenu .consumer EndpointAt.acquire
  | countQueued : EndpointMenu .consumer EndpointAt.countQueued
  | look {lease : FrameLease} {start n} : start + n ≤ lease.payload.len →
      EndpointMenu (.holding lease) (EndpointAt.look lease start n)
  | drop {lease} : EndpointMenu (.holding lease) (EndpointAt.drop lease)

/-- An endpoint before its first call. -/
def EndpointAt.Fresh : EndpointAt → Prop
  | .producer | .consumer => True
  | .leased _ _ | .holding _ => False

/-- The peer overwrites the mapping; `policy` is what it keeps to. -/
def PeerWrites (policy : Memory → Prop) (s s' : Shared) : Prop :=
  ∃ memory, policy memory ∧ s' = { s with memory := memory }

/-- A state an endpoint can be in against a peer that keeps to `policy`. -/
def EndpointReaches (policy : Memory → Prop) (point : EndpointAt) (s : Shared)
    (c : Solo Access Access.Reply EndpointAt Shared) : Prop :=
  Relation.ReflTransGen (SoloStep exec EndpointMenu (PeerWrites policy)) ⟨.ret point, s⟩ c

/-- The endpoint's next access, if it is in a call, is sound. -/
def NextSound (mapLen : Nat) (c : Solo Access Access.Reply EndpointAt Shared) : Prop :=
  ∀ i k, c.thread = .act i k → i.Sound mapLen

/-! ### A peer that keeps the shape -/

/-- The shape fields stay within the shape of the adopted header: at least one
slot and no more than adopted, no longer stride, and a capacity that fits the
adopted stride. -/
structure Tame (header : RingHeader) (m : Memory) : Prop where
  nonzero : 0 < (m.u32 slotCountOffset).toNat
  slotCount : (m.u32 slotCountOffset).toNat ≤ header.slotCount.toNat
  slotStride : (m.u32 slotStrideOffset).toNat ≤ header.slotStride.toNat
  aligned : 8 ∣ (m.u32 slotStrideOffset).toNat
  payloadCapacity : FrameDescriptor.sizeOf + (m.u32 payloadCapacityOffset).toNat ≤
    header.slotStride.toNat

theorem Tame.write {header : RingHeader} {m : Memory} (tame : Tame header m) {off : Nat}
    (above : headOffset ≤ off) (bytes : List UInt8) : Tame header (m.write off bytes) := by
  have word (o : Nat) (inside : o + 4 ≤ headOffset) : (m.write off bytes).u32 o = m.u32 o := by
    rw [Memory.u32, Memory.word_write_of_disjoint (.inl (by omega)), Memory.u32]
  obtain ⟨nonzero, slotCount, slotStride, aligned, payloadCapacity⟩ := tame
  rw [← word _ (by decide)] at nonzero slotCount slotStride aligned payloadCapacity
  exact ⟨nonzero, slotCount, slotStride, aligned, payloadCapacity⟩

/-- The contract of an endpoint that knows nothing but `Tame` of its peer. -/
def guarded (header : RingHeader) (mapLen : Nat) : Contract Access Access.Reply Shared where
  exec := exec
  inv := fun s => Tame header s.memory
  rely := fun _ _ => True
  guar := fun _ _ => True
  safe := fun i _ => i.Sound mapLen
  rely_refl := fun _ => trivial
  rely_trans := fun _ _ => trivial

section Guarded

variable {header : RingHeader} {mapLen : Nat} {s : Shared} {α : Type} {Q : α → Shared → Prop}

theorem guarded_act {i : Access} {k : i.Reply → Ring α} (sound : i.Sound mapLen)
    (next : ∀ t r t', Tame header t.memory → exec i t = some (r, t') →
      Tame header t'.memory ∧ (guarded header mapLen).Holds Q (k r) t') :
    (guarded header mapLen).Holds Q (.act i k) s := by
  refine .of_act fun t _ inv => ⟨sound, fun r t' ran => ?_⟩
  obtain ⟨inv', rest⟩ := next t r t' inv ran
  exact ⟨inv', trivial, rest⟩

/-- A load finds what a tame peer may have left there. -/
theorem guarded_load {i : Access} {k : i.Reply → Ring α} (value : Shared → i.Reply)
    (sound : i.Sound mapLen) (reads : ∀ t, exec i t = some (value t, t))
    (next : ∀ t, Tame header t.memory → (guarded header mapLen).Holds Q (k (value t)) t) :
    (guarded header mapLen).Holds Q (.act i k) s := by
  apply guarded_act sound
  intro t r t' tame ran
  rw [reads t] at ran
  obtain ⟨rfl, rfl⟩ := Prod.mk.inj (Option.some.inj ran)
  exact ⟨tame, next t tame⟩

/-- A store beyond the shape fields leaves them alone. -/
theorem guarded_store {i : Access} {k : i.Reply → Ring α} (off : Nat) (above : headOffset ≤ off)
    (sound : i.Sound mapLen) (stores : ∀ t, ∃ bytes, i.written t = some (off, bytes))
    (next : ∀ r t, (guarded header mapLen).Holds Q (k r) t) :
    (guarded header mapLen).Holds Q (.act i k) s := by
  refine guarded_act sound fun t r t' tame ran => ⟨?_, next r t'⟩
  obtain ⟨bytes, written⟩ := stores t
  rw [exec_memory ran, written]
  exact tame.write above bytes

/-- An access at a fixed place of the header is sound in every accepted mapping. -/
theorem sound_header {i : Access} {r : Slice} (large : ringHeaderSize ≤ mapLen)
    (region : i.region = some r) (inside : r.offset + r.len ≤ ringHeaderSize)
    (aligned : i.alignment ∣ r.offset) : i.Sound mapLen := by
  constructor
  · rintro text rfl
    cases region
  · intro r' region'
    obtain rfl := Option.some.inj (region.symm.trans region')
    exact ⟨inside.trans large, aligned⟩

/-- A slot that lies in the mapping whatever its peer has made of the shape. -/
structure SlotInside (header : RingHeader) (mapLen slot : Nat) : Prop where
  lower : ringHeaderSize ≤ slot
  upper : slot + header.slotStride.toNat ≤ mapLen
  aligned : 8 ∣ slot

/-- A region of the mapping beyond the header. -/
structure RegionInside (mapLen : Nat) (r : Slice) : Prop where
  lower : ringHeaderSize ≤ r.offset
  upper : r.offset + r.len ≤ mapLen

variable (accepted : validateHeader 64 header mapLen = .ok ())

include accepted

theorem header_le_mapLen : ringHeaderSize ≤ mapLen := by
  rw [← (validateHeader_eq_ok_iff.mp accepted).2.2.2.2.2]
  exact Nat.le_add_right _ _

/-- `slot_count` and `slot_stride` may come from different writes of the peer. -/
theorem slotInside {m m' : Memory} (tame : Tame header m) (tame' : Tame header m')
    (index : UInt64) : SlotInside header mapLen
      (slotOffset 64 (m.u32 slotCountOffset) (m'.u32 slotStrideOffset) index) := by
  have total := (validateHeader_eq_ok_iff.mp accepted).2.2.2.2.2
  have number := slotNumber_lt (w := 64) tame.nonzero index
  rw [slotOffset_eq tame.nonzero]
  generalize slotNumber 64 (m.u32 slotCountOffset) index = k at number
  have upper : k * (m'.u32 slotStrideOffset).toNat + header.slotStride.toNat ≤
      header.slotStride.toNat * header.slotCount.toNat := by
    calc k * (m'.u32 slotStrideOffset).toNat + header.slotStride.toNat
        ≤ k * header.slotStride.toNat + header.slotStride.toNat :=
          Nat.add_le_add_right (Nat.mul_le_mul_left _ tame'.slotStride) _
      _ = (k + 1) * header.slotStride.toNat := by rw [Nat.add_mul, Nat.one_mul]
      _ ≤ header.slotCount.toNat * header.slotStride.toNat :=
          Nat.mul_le_mul_right _ (number.trans_le tame.slotCount)
      _ = header.slotStride.toNat * header.slotCount.toNat := Nat.mul_comm _ _
  refine ⟨Nat.le_add_right _ _, by omega, ?_⟩
  exact Nat.dvd_add (by decide) (tame'.aligned.mul_left k)

theorem guarded_slot (index : UInt64) :
    (guarded header mapLen).Holds (fun slot _ => SlotInside header mapLen slot)
      (Mapping.slot index) s := by
  have large := header_le_mapLen accepted
  unfold Mapping.slot
  simp only [access, Prog.perform_bind]
  apply guarded_load (fun t => t.memory.u32 slotCountOffset)
    (sound_header large rfl (by decide) (by decide)) (fun _ => rfl)
  intro t₁ tame₁
  have nonzero : t₁.memory.u32 slotCountOffset ≠ 0 := by
    intro zero
    have pos := tame₁.nonzero
    rw [zero] at pos
    exact absurd pos (by decide)
  rw [if_neg nonzero]
  apply guarded_load (fun t => t.memory.u32 slotStrideOffset)
    (sound_header large rfl (by decide) (by decide)) (fun _ => rfl)
  intro t₂ tame₂
  exact .of_ret fun _ _ _ => slotInside accepted tame₁ tame₂ index

theorem guarded_tryReserve :
    (guarded header mapLen).Holds
      (fun lease _ => ∀ l, lease = some l → SlotInside header mapLen l.slot)
      Producer.tryReserve s := by
  have large := header_le_mapLen accepted
  unfold Producer.tryReserve
  simp only [access, Prog.perform_bind]
  apply guarded_load (fun t => t.memory.u64 headOffset)
    (sound_header large rfl (by decide) (by decide)) (fun _ => rfl)
  intro t₁ _
  refine guarded_load (fun t => t.memory.u64 tailOffset)
    (sound_header large rfl (by decide) (by decide)) (fun _ => rfl) fun t₂ _ => ?_
  refine guarded_load (fun t => t.memory.u32 slotCountOffset)
    (sound_header large rfl (by decide) (by decide)) (fun _ => rfl) fun t₃ _ => ?_
  by_cases full : (t₃.memory.u32 slotCountOffset).toUInt64 ≤
      t₁.memory.u64 headOffset - t₂.memory.u64 tailOffset
  · rw [if_pos full]
    refine guarded_store droppedOffset (by decide)
      (sound_header large rfl (by decide) (by decide)) (fun _ => ⟨_, rfl⟩)
      fun _ _ => .of_ret fun _ _ _ => ?_
    rintro _ ⟨⟩
  · rw [if_neg full]
    refine (guarded_slot accepted _).bind fun slot t₄ _ inside => .of_ret fun _ _ _ => ?_
    rintro l ⟨⟩
    exact inside

theorem guarded_capacity {lease : ProducerLease} :
    (guarded header mapLen).Holds
      (fun n _ => FrameDescriptor.sizeOf + n ≤ header.slotStride.toNat) lease.capacity s := by
  unfold ProducerLease.capacity
  simp only [access, Prog.perform_bind]
  refine guarded_load (fun t => t.memory.u32 payloadCapacityOffset)
    (sound_header (header_le_mapLen accepted) rfl (by decide) (by decide)) (fun _ => rfl)
    fun t₁ tame₁ => ?_
  exact .of_ret fun _ _ _ => tame₁.payloadCapacity

theorem guarded_payloadMut {lease : ProducerLease} (inside : SlotInside header mapLen lease.slot) :
    (guarded header mapLen).Holds (fun slice _ => RegionInside mapLen slice)
      lease.payloadMut s := by
  unfold ProducerLease.payloadMut
  refine (guarded_capacity accepted).bind fun n t₁ _ fits => .of_ret fun _ _ _ => ?_
  have lower := inside.lower
  have upper := inside.upper
  refine ⟨lower.trans (Nat.le_add_right _ _), ?_⟩
  change lease.slot + FrameDescriptor.sizeOf + n ≤ mapLen
  omega

/-- `commit` writes the descriptor of the leased slot and the head cursor,
whatever capacity it has just read. -/
theorem guarded_commit {lease : ProducerLease} (inside : SlotInside header mapLen lease.slot)
    (fits : FrameDescriptor.sizeOf ≤ header.slotStride.toNat) (descriptor : FrameDescriptor)
    (payloadBytes : Nat) :
    (guarded header mapLen).Holds (fun _ _ => True) (lease.commit descriptor payloadBytes) s := by
  have large := header_le_mapLen accepted
  have lower := inside.lower
  have upper := inside.upper
  unfold ProducerLease.commit
  by_cases done : lease.committed
  · rw [if_pos done]
    exact .of_ret fun _ _ _ => trivial
  rw [if_neg done]
  apply (guarded_capacity accepted).bind
  intro n t₁ _ _
  by_cases small : payloadBytes ≤ n
  · rw [if_neg (not_not.mpr small)]
    by_cases abi : payloadBytes ≤ 2 ^ 32 - 1
    · rw [if_neg (not_not.mpr abi)]
      simp only [access, Prog.perform_bind]
      have sound : (Access.writeDescriptor lease.slot
          (ProducerLease.stamped descriptor payloadBytes)).Sound mapLen := by
        refine ⟨by simp, ?_⟩
        rintro r ⟨⟩
        exact ⟨(Nat.add_le_add_left fits _).trans upper, inside.aligned⟩
      apply guarded_store lease.slot ((by decide : headOffset ≤ ringHeaderSize).trans lower) sound
        (fun _ => ⟨_, rfl⟩)
      intro _ _
      apply guarded_store headOffset le_rfl
        (sound_header large rfl (by decide) (show 8 ∣ headOffset by decide)) (fun _ => ⟨_, rfl⟩)
      intro _ _
      unfold signalEventfd
      simp only [access, Prog.perform_bind]
      apply guarded_act ⟨by simp, by rintro _ ⟨⟩⟩
      intro t r t' tame ran
      obtain ⟨rfl, rfl⟩ := Prod.mk.inj (Option.some.inj ran)
      refine ⟨tame, ?_⟩
      cases t.event.write.1 with
      | ok u => exact .of_ret fun _ _ _ => trivial
      | error kind =>
          cases kind with
          | wouldBlock => exact .of_ret fun _ _ _ => trivial
          | other errno => exact .of_ret fun _ _ _ => trivial
    · rw [if_pos abi]
      exact .of_ret fun _ _ _ => trivial
  · rw [if_pos small]
    exact .of_ret fun _ _ _ => trivial

theorem guarded_tryAcquire (fits : FrameDescriptor.sizeOf ≤ header.slotStride.toNat) :
    (guarded header mapLen).Holds
      (fun result _ => ∀ l, result = .ok (some l) → RegionInside mapLen l.payload)
      Consumer.tryAcquire s := by
  have large := header_le_mapLen accepted
  unfold Consumer.tryAcquire
  simp only [access, Prog.perform_bind]
  apply guarded_load (fun t => t.memory.u64 tailOffset)
    (sound_header large rfl (by decide) (by decide)) (fun _ => rfl)
  intro t₁ _
  apply guarded_load (fun t => t.memory.u64 headOffset)
    (sound_header large rfl (by decide) (by decide)) (fun _ => rfl)
  intro t₂ _
  by_cases empty : t₁.memory.u64 tailOffset = t₂.memory.u64 headOffset
  · rw [if_pos empty]
    apply Contract.Holds.of_ret
    intro _ _ _
    rintro _ ⟨⟩
  rw [if_neg empty]
  apply (guarded_slot accepted _).bind
  intro slot t₃ _ inside
  have sound : (Access.readDescriptor slot).Sound mapLen := by
    refine ⟨by simp, ?_⟩
    rintro r ⟨⟩
    exact ⟨(Nat.add_le_add_left fits _).trans inside.upper, inside.aligned⟩
  apply guarded_load (fun t => FrameDescriptor.decode (t.memory.read slot FrameDescriptor.sizeOf))
    sound (fun _ => rfl)
  intro t₄ _
  generalize FrameDescriptor.decode (t₄.memory.read slot FrameDescriptor.sizeOf) = d
  by_cases abi : d.abiVersion = wirelessAudioAbiVersion
  · rw [if_neg (not_not.mpr abi)]
    by_cases size : d.headerBytes.toNat = FrameDescriptor.sizeOf
    · rw [if_neg (not_not.mpr size)]
      apply guarded_load (fun t => t.memory.u32 payloadCapacityOffset)
        (sound_header large rfl (by decide) (by decide)) (fun _ => rfl)
      intro t₅ tame₅
      by_cases bounded : d.payloadBytes ≤ t₅.memory.u32 payloadCapacityOffset
      · rw [if_neg (not_not.mpr bounded)]
        apply Contract.Holds.of_ret
        intro _ _ _
        rintro l ⟨⟩
        have capacity := tame₅.payloadCapacity
        have lower := inside.lower
        have upper := inside.upper
        rw [UInt32.le_iff_toNat_le] at bounded
        refine ⟨lower.trans (Nat.le_add_right _ _), ?_⟩
        change slot + FrameDescriptor.sizeOf + d.payloadBytes.toNat ≤ mapLen
        omega
      · rw [if_pos bounded]
        apply Contract.Holds.of_ret
        intro _ _ _
        rintro _ ⟨⟩
    · rw [if_pos size]
      apply Contract.Holds.of_ret
      intro _ _ _
      rintro _ ⟨⟩
  · rw [if_pos abi]
    apply Contract.Holds.of_ret
    intro _ _ _
    rintro _ ⟨⟩

end Guarded

/-! ### Every run -/

/-- What the user of an endpoint holds between two calls. -/
def EndpointRests (header : RingHeader) (mapLen : Nat) : EndpointAt → Shared → Prop
  | .producer, _ | .consumer, _ => True
  | .leased lease slice, _ => SlotInside header mapLen lease.slot ∧
      ∀ r, slice = some r → RegionInside mapLen r
  | .holding lease, _ => RegionInside mapLen lease.payload

section Runs

variable {header : RingHeader} {mapLen : Nat} {s : Shared}

theorem guarded_rests {point : EndpointAt} (rests : EndpointRests header mapLen point s) :
    (guarded header mapLen).Holds (EndpointRests header mapLen) (.ret point) s := by
  apply Contract.Holds.of_ret
  intro t _ _
  cases point with
  | producer => trivial
  | leased lease slice => exact rests
  | consumer => trivial
  | holding lease => exact rests

/-- A part of a region in the mapping can be read and written. -/
theorem RegionInside.sound {r part : Slice} (inside : RegionInside mapLen r) {i : Access}
    (region : i.region = some part) (unaligned : i.alignment = 1)
    (within : part.offset + part.len ≤ r.offset + r.len) : i.Sound mapLen := by
  constructor
  · rintro text rfl
    cases region
  · intro r' region'
    obtain rfl := Option.some.inj (region.symm.trans region')
    rw [unaligned]
    exact ⟨within.trans inside.upper, one_dvd _⟩

theorem guarded_offers (accepted : validateHeader 64 header mapLen = .ok ())
    (fits : FrameDescriptor.sizeOf ≤ header.slotStride.toNat) {point : EndpointAt}
    {p : Ring EndpointAt} (rests : EndpointRests header mapLen point s)
    (offered : EndpointMenu point p) :
    (guarded header mapLen).Holds (EndpointRests header mapLen) p s := by
  have large := header_le_mapLen accepted
  cases offered with
  | reserve =>
      unfold EndpointAt.reserve
      apply (guarded_tryReserve accepted).bind
      intro lease t _ inside
      cases lease with
      | none => exact guarded_rests trivial
      | some lease => exact guarded_rests ⟨inside lease rfl, nofun⟩
  | countDropped =>
      exact guarded_load (fun t => t.memory.u64 droppedOffset)
        (sound_header large rfl (by decide) (by decide)) (fun _ => rfl)
        fun t _ => guarded_rests trivial
  | borrow =>
      unfold EndpointAt.borrow
      apply (guarded_payloadMut accepted rests.1).bind
      intro slice t _ inside
      refine guarded_rests ⟨rests.1, ?_⟩
      rintro r ⟨⟩
      exact inside
  | @fill lease slice start bytes within =>
      have inside := rests.2 slice rfl
      refine guarded_store (slice.offset + start) ?_ (inside.sound rfl rfl ?_) (fun _ => ⟨_, rfl⟩)
        fun _ t => guarded_rests rests
      · exact (by decide : headOffset ≤ ringHeaderSize).trans
          (inside.lower.trans (Nat.le_add_right _ _))
      · change slice.offset + start + bytes.length ≤ slice.offset + slice.len
        omega
  | @readBack lease slice start n within =>
      have inside := rests.2 slice rfl
      refine guarded_load (fun t => t.memory.read (slice.offset + start) n)
        (inside.sound rfl rfl ?_) (fun _ => rfl) fun t _ => guarded_rests rests
      change slice.offset + start + n ≤ slice.offset + slice.len
      omega
  | dropLease => exact guarded_rests trivial
  | commit descriptor payloadBytes =>
      unfold EndpointAt.commit
      exact (guarded_commit accepted rests.1 fits descriptor payloadBytes).bind
        fun _ t _ _ => guarded_rests trivial
  | acquire =>
      unfold EndpointAt.acquire
      apply (guarded_tryAcquire accepted fits).bind
      intro result t _ inside
      match result, inside with
      | .ok none, _ => exact guarded_rests trivial
      | .ok (some lease), inside => exact guarded_rests (inside lease rfl)
      | .error e, _ => exact guarded_rests trivial
  | countQueued =>
      apply guarded_load (fun t => t.memory.u64 headOffset)
        (sound_header large rfl (by decide) (by decide)) (fun _ => rfl)
      intro t _
      exact guarded_load (fun t => t.memory.u64 tailOffset)
        (sound_header large rfl (by decide) (by decide)) (fun _ => rfl)
        fun t _ => guarded_rests trivial
  | @look lease start n within =>
      refine guarded_load (fun t => t.memory.read (lease.payload.offset + start) n)
        (RegionInside.sound rests rfl rfl ?_) (fun _ => rfl) fun t _ => guarded_rests rests
      change lease.payload.offset + start + n ≤ lease.payload.offset + lease.payload.len
      omega
  | drop =>
      exact guarded_store tailOffset (by decide)
        (sound_header large rfl (by decide) (show 8 ∣ tailOffset by decide)) (fun _ => ⟨_, rfl⟩)
        fun _ t => guarded_rests trivial

/-- The adopted shape is within itself. -/
theorem tame_load (accepted : validateHeader 64 (RingHeader.load s.memory) mapLen = .ok ())
    (fits : FrameDescriptor.sizeOf + (RingHeader.load s.memory).payloadCapacity.toNat ≤
      (RingHeader.load s.memory).slotStride.toNat) : Tame (RingHeader.load s.memory) s.memory := by
  obtain ⟨-, -, -, two, aligned, -⟩ := validateHeader_eq_ok_iff.mp accepted
  exact ⟨Nat.lt_of_lt_of_le (by decide) two, le_rfl, le_rfl,
    Nat.dvd_trans (by decide) aligned, fits⟩

/-- An endpoint adopted over an accepted header whose slots hold their payloads
stays in the mapping and never panics, in every run in which the peer keeps the
shape fields within the adopted shape and writes anything else. -/
theorem endpoint_in_bounds
    (accepted : validateHeader 64 (RingHeader.load s.memory) mapLen = .ok ())
    (fits : FrameDescriptor.sizeOf + (RingHeader.load s.memory).payloadCapacity.toNat ≤
      (RingHeader.load s.memory).slotStride.toNat)
    {point : EndpointAt} (fresh : point.Fresh) {c : Solo Access Access.Reply EndpointAt Shared}
    (reached : EndpointReaches (Tame (RingHeader.load s.memory)) point s c) :
    NextSound mapLen c := by
  have rests : EndpointRests (RingHeader.load s.memory) mapLen point s := by
    cases point with
    | producer => trivial
    | leased lease slice => exact fresh.elim
    | consumer => trivial
    | holding lease => exact fresh.elim
  obtain ⟨inv, holds⟩ := solo_invariant (guarded (RingHeader.load s.memory) mapLen)
    (fun _ _ _ _ rests offered =>
      guarded_offers accepted (Nat.le_of_add_right_le fits) rests offered)
    (fun _ _ _ writes => by
      obtain ⟨memory, tame, rfl⟩ := writes
      exact ⟨tame, trivial⟩)
    reached (tame_load accepted fits) (guarded_rests rests)
  intro i k next
  rw [next] at holds
  exact (holds.act inv).1

end Runs

/-- A ring of two slots of 128 octets with one frame queued. -/
def queuedHeader : RingHeader := { roomyHeader with head := 2, tail := 1 }

def queuedRing : Shared := .fresh (queuedHeader.store fun _ => 0) fun _ => none

/-- The peer replaces the mapping: a new header, every other octet `filler`. -/
def replaceMapping (header : RingHeader) (filler : UInt8) (s : Shared) : Shared :=
  { s with memory := header.store fun _ => filler }

/-- Cursors, descriptors and payloads overwritten in the middle of a reservation. -/
theorem endpoint_in_bounds_scrambled :
    ∃ c, EndpointReaches (Tame (RingHeader.load queuedRing.memory)) .producer queuedRing c ∧
      c.thread.head?.isSome ∧ NextSound 512 c := by
  let scramble := replaceMapping { queuedHeader with head := 77, tail := 76 } 255
  have script : ((EndpointAt.reserve.against exec [scramble, scramble, scramble] queuedRing).map
      fun out => out.1.head?.isSome) = some true := by decide +kernel
  obtain ⟨⟨p, t⟩, ran, busy⟩ := Option.map_eq_some_iff.mp script
  have tame : Tame (RingHeader.load queuedRing.memory)
      (RingHeader.store { queuedHeader with head := 77, tail := 76 } fun _ => 255) :=
    ⟨by decide +kernel, by decide +kernel, by decide +kernel, by decide +kernel, by decide +kernel⟩
  have allowed : ∀ f ∈ [scramble, scramble, scramble], ∀ s,
      PeerWrites (Tame (RingHeader.load queuedRing.memory)) s (f s) := by
    intro f mem s
    obtain rfl : f = scramble := by simpa using mem
    exact ⟨_, tame, rfl⟩
  have reached : EndpointReaches (Tame (RingHeader.load queuedRing.memory)) .producer queuedRing
      ⟨p, t⟩ := .head (.start .reserve) (solo_against allowed ran)
  exact ⟨_, reached, busy, endpoint_in_bounds (by decide +kernel) (by decide +kernel)
    (show EndpointAt.producer.Fresh from trivial) reached⟩

theorem not_nextSound {mapLen : Nat} {c : Solo Access Access.Reply EndpointAt Shared} {i : Access}
    (next : c.thread.head? = some i) (unsound : ¬ i.Sound mapLen) : ¬ NextSound mapLen c := by
  intro sound
  obtain ⟨k, acts⟩ := Prog.exists_of_head? next
  exact unsound (sound i k acts)

/-- A peer that zeroes `slot_count` between the two reads of it makes a
reservation divide by zero; one that grows `slot_stride` before it is read makes
an acquisition read its descriptor far behind the mapping of 512 octets. -/
theorem endpoint_out_of_bounds :
    validateHeader 64 (RingHeader.load queuedRing.memory) 512 = .ok () ∧
      FrameDescriptor.sizeOf + (RingHeader.load queuedRing.memory).payloadCapacity.toNat ≤
        (RingHeader.load queuedRing.memory).slotStride.toNat ∧
      (∃ c, EndpointReaches (fun _ => True) .producer queuedRing c ∧ ¬ NextSound 512 c ∧
        ∃ text, c.thread.head? = some (.panic text)) ∧
      ∃ c, EndpointReaches (fun _ => True) .consumer queuedRing c ∧ ¬ NextSound 512 c ∧
        c.thread.head? = some (.readDescriptor (256 + 4294967232)) := by
  let zero := replaceMapping { queuedHeader with slotCount := 0 } 0
  let grow := replaceMapping { queuedHeader with slotStride := 4294967232 } 0
  have anything (fs : List (Shared → Shared)) (replaces : ∀ f ∈ fs, f = id ∨ f = zero ∨ f = grow) :
      ∀ f ∈ fs, ∀ s, PeerWrites (fun _ => True) s (f s) := by
    intro f mem s
    rcases replaces f mem with rfl | rfl | rfl
    · exact ⟨s.memory, trivial, rfl⟩
    · exact ⟨_, trivial, rfl⟩
    · exact ⟨_, trivial, rfl⟩
  have reserving : ((EndpointAt.reserve.against exec [id, id, id, zero] queuedRing).map
      fun out => out.1.head?.map fun i => i matches .panic _) = some (some true) := by
    decide +kernel
  have acquiring : ((EndpointAt.acquire.against exec [id, id, id, grow] queuedRing).map
      fun out => out.1.head?.map fun i => i matches .readDescriptor 4294967488) =
      some (some true) := by decide +kernel
  obtain ⟨⟨p, t⟩, ran, panics⟩ := Option.map_eq_some_iff.mp reserving
  obtain ⟨⟨p', t'⟩, ran', beyond⟩ := Option.map_eq_some_iff.mp acquiring
  obtain ⟨text, panics⟩ : ∃ text, p.head? = some (.panic text) := by
    obtain ⟨i, next, is⟩ := Option.map_eq_some_iff.mp panics
    cases i with
    | panic text => exact ⟨text, next⟩
    | _ => cases is
  have beyond : p'.head? = some (.readDescriptor (256 + 4294967232)) := by
    obtain ⟨i, next, is⟩ := Option.map_eq_some_iff.mp beyond
    split at is
    · exact next
    · cases is
  refine ⟨by decide +kernel, by decide +kernel, ⟨⟨p, t⟩, ?_, ?_, text, panics⟩,
    ⟨p', t'⟩, ?_, ?_, beyond⟩
  · exact .head (.start .reserve) (solo_against (anything _ (by simp)) ran)
  · exact not_nextSound panics fun sound => sound.1 text rfl
  · exact .head (.start .acquire) (solo_against (anything _ (by simp)) ran')
  · exact not_nextSound beyond fun sound => absurd (sound.2 _ rfl).1 (by decide)

end Dorsche.Wireless.DataPlane
