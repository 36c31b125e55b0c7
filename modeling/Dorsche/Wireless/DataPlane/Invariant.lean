import Dorsche.Wireless.DataPlane.Endpoint

/-!
The invariant of a media ring.

Counts are unbounded here: `committed.length` frames were published and
`released` slots given back, and the 64-bit cursors are these counts modulo
`2 ^ 64`. The cursors and the occupancy are right for any number of commits.
The contents of the slots between them are right as long as the slot numbers of
a window stay apart (`Coherent`), which holds below `2 ^ 64` commits and, for a
slot count that divides `2 ^ 64`, for ever.
-/

namespace Dorsche.Wireless.DataPlane

open Dorsche.Lib

variable {g : Geometry} {m m' : Memory} {s s' : Shared}

/-- The constant fields of the header of a ring. -/
structure Shaped (g : Geometry) (m : Memory) : Prop where
  magic : m.u32 magicOffset = ringMagic
  abiVersion : m.u16 abiVersionOffset = wirelessAudioAbiVersion
  headerBytes : m.u16 headerBytesOffset = UInt16.ofNat ringHeaderSize
  slotCount : m.u32 slotCountOffset = g.slotCount
  slotStride : m.u32 slotStrideOffset = g.slotStride
  payloadCapacity : m.u32 payloadCapacityOffset = g.payloadCapacity

theorem Shaped.congr (shaped : Shaped g m) (same : ∀ o, o < headOffset → m' o = m o) :
    Shaped g m' := by
  have word (n off : Nat) (inside : off + n ≤ headOffset) : m'.word n off = m.word n off :=
    Memory.word_congr fun o _ upper => same o (by omega)
  refine ⟨?_, ?_, ?_, ?_, ?_, ?_⟩
  · rw [← shaped.magic, Memory.u32, word _ _ (by decide), Memory.u32]
  · rw [← shaped.abiVersion, Memory.u16, word _ _ (by decide), Memory.u16]
  · rw [← shaped.headerBytes, Memory.u16, word _ _ (by decide), Memory.u16]
  · rw [← shaped.slotCount, Memory.u32, word _ _ (by decide), Memory.u32]
  · rw [← shaped.slotStride, Memory.u32, word _ _ (by decide), Memory.u32]
  · rw [← shaped.payloadCapacity, Memory.u32, word _ _ (by decide), Memory.u32]

/-- What `commit` makes of every frame it publishes. -/
structure Frame.WellFormed (g : Geometry) (f : Frame) : Prop where
  abiVersion : f.descriptor.abiVersion = wirelessAudioAbiVersion
  headerBytes : f.descriptor.headerBytes.toNat = FrameDescriptor.sizeOf
  payloadBytes : f.descriptor.payloadBytes ≤ g.payloadCapacity
  length : f.payload.length = f.descriptor.payloadBytes.toNat

/-- Slot `k` holds frame `f`. -/
structure Stored (g : Geometry) (m : Memory) (k : Nat) (f : Frame) : Prop where
  descriptor : FrameDescriptor.decode (m.read (g.slotAt k) FrameDescriptor.sizeOf) = f.descriptor
  payload : m.read (g.payloadAt k) f.descriptor.payloadBytes.toNat = f.payload

/-- A stored frame depends only on the octets of its slot. -/
theorem Stored.congr {k : Nat} {f : Frame} (stored : Stored g m k f) (wf : f.WellFormed g)
    (same : ∀ o, g.slotAt k ≤ o → o < g.slotAt k + g.slotStride.toNat → m' o = m o) :
    Stored g m' k f := by
  have fits := g.slot_fits
  have capacity := UInt32.le_iff_toNat_le.mp wf.payloadBytes
  constructor
  · rw [← stored.descriptor, Memory.read_congr]
    intro o lower upper
    exact same o lower (by omega)
  · rw [← stored.payload, Memory.read_congr]
    intro o lower upper
    simp only [Geometry.payloadAt] at lower upper
    exact same o (by omega) (by omega)

/-- The slots of any window that ends at count `C` or before are distinct. -/
def Coherent (g : Geometry) (C : Nat) : Prop :=
  ∀ i j, i < j → j < i + g.slotCount.toNat → j ≤ C → g.slotOf i ≠ g.slotOf j

theorem Coherent.mono {C C' : Nat} (coherent : Coherent g C') (le : C ≤ C') : Coherent g C :=
  fun i j ij near upper => coherent i j ij near (upper.trans le)

/-- Before the cursors wrap, slots are counted modulo `slotCount` alone. -/
theorem coherent_of_lt {C : Nat} (small : C < 2 ^ 64) : Coherent g C := by
  intro i j ij near upper
  unfold Geometry.slotOf
  rw [Nat.mod_eq_of_lt (by omega : i < 2 ^ 64), Nat.mod_eq_of_lt (by omega : j < 2 ^ 64)]
  exact mod_ne_of_lt ij near

/-- A slot count that divides the range of the cursors never loses count. -/
theorem coherent_of_dvd {C : Nat} (dvd : g.slotCount.toNat ∣ 2 ^ 64) : Coherent g C := by
  intro i j ij near _
  unfold Geometry.slotOf
  rw [Nat.mod_mod_of_dvd _ dvd, Nat.mod_mod_of_dvd _ dvd]
  exact mod_ne_of_lt ij near

/-! ### Cursor stores -/

/-- The effect of storing `v` into the cursor at `off`: nothing else moves. -/
structure CursorStore (m m' : Memory) (off : Nat) (v : UInt64) : Prop where
  shape : ∀ o, o < headOffset → m' o = m o
  slots : ∀ o, ringHeaderSize ≤ o → m' o = m o
  stored : m'.u64 off = v
  others : ∀ other, other + 8 ≤ off ∨ off + 8 ≤ other → m'.u64 other = m.u64 other

theorem cursorStore (m : Memory) {off : Nat} (v : UInt64) (low : headOffset ≤ off)
    (high : off + 8 ≤ ringHeaderSize) : CursorStore m (m.setWord 8 off v.toNat) off v := by
  have outside (o : Nat) (away : o < off ∨ off + 8 ≤ o) :
      m.setWord 8 off v.toNat o = m o :=
    Memory.write_apply_of_outside (by rwa [length_leBytes])
  refine ⟨fun o below => outside o (.inl (by omega)), fun o above => outside o (.inr (by omega)),
    ?_, ?_⟩
  · rw [Memory.u64, Memory.word_setWord_self (UInt64.toNat_lt _), UInt64.ofNat_toNat]
  · intro other away
    rw [Memory.u64, Memory.word_setWord_of_disjoint away, Memory.u64]

/-- A cursor store leaves the frames alone. -/
theorem Stored.cursorStore {off k : Nat} {v : UInt64} {f : Frame} (stored : Stored g m k f)
    (wf : f.WellFormed g) (update : CursorStore m m' off v) : Stored g m' k f :=
  stored.congr wf fun o low _ => update.slots o ((g.header_le_slotAt k).trans low)

/-! ### The invariant -/

structure RingInv (g : Geometry) (s : Shared) : Prop where
  shaped : Shaped g s.memory
  head : s.memory.u64 headOffset = UInt64.ofNat s.committed.length
  tail : s.memory.u64 tailOffset = UInt64.ofNat s.released
  dropped : s.memory.u64 droppedOffset = UInt64.ofNat s.refused
  released_le : s.released ≤ s.committed.length
  length_le : s.committed.length ≤ s.released + g.slotCount.toNat
  wellFormed : ∀ f ∈ s.committed, f.WellFormed g
  contents : Coherent g s.committed.length → ∀ k f, s.released ≤ k → s.committed[k]? = some f →
    Stored g s.memory k f
  acquired : Coherent g s.committed.length → s.acquired <+: s.committed
  failures : Coherent g s.committed.length → s.failures = []

namespace RingInv

theorem occupancy_lt (inv : RingInv g s) : s.committed.length - s.released < 2 ^ 32 := by
  have := inv.length_le
  have := g.slotCount.toNat_lt
  omega

/-- The distance of the cursors is the number of visible frames. -/
theorem distance (inv : RingInv g s) :
    (s.memory.u64 headOffset - s.memory.u64 tailOffset).toNat =
      s.committed.length - s.released := by
  have := inv.occupancy_lt
  rw [inv.head, inv.tail]
  exact toNat_ofNat_sub_ofNat inv.released_le (by omega)

theorem full (inv : RingInv g s) : g.slotCount.toNat ≤
      (s.memory.u64 headOffset - s.memory.u64 tailOffset).toNat ↔
    s.released + g.slotCount.toNat ≤ s.committed.length := by
  have := inv.released_le
  have := g.slotCount_pos
  rw [inv.distance]
  omega

/-- The invariant looks at the memory and at the history of the cursors only. -/
theorem congr (inv : RingInv g s) (memory : s'.memory = s.memory)
    (committed : s'.committed = s.committed) (released : s'.released = s.released)
    (refused : s'.refused = s.refused) (acquired : s'.acquired = s.acquired)
    (failures : s'.failures = s.failures) : RingInv g s' := by
  obtain ⟨shaped, head, tail, dropped, released_le, length_le, wellFormed, contents, got, failed⟩ :=
    inv
  rw [← committed] at head released_le length_le wellFormed contents got failed
  rw [← released] at tail released_le length_le contents
  rw [← refused] at dropped
  rw [← acquired] at got
  rw [← failures] at failed
  rw [← memory] at shaped head tail dropped contents
  exact ⟨shaped, head, tail, dropped, released_le, length_le, wellFormed, contents, got, failed⟩

/-- The empty test of `try_acquire` is exact. -/
theorem tail_eq_head_iff (inv : RingInv g s) :
    s.memory.u64 tailOffset = s.memory.u64 headOffset ↔ s.released = s.committed.length := by
  have := inv.occupancy_lt
  rw [inv.tail, inv.head]
  exact ofNat_inj_of_near inv.released_le (by omega)

/-- A write above the header leaves every field of the header alone. -/
theorem header_of_same (inv : RingInv g s)
    (same : ∀ o, o < ringHeaderSize → m o = s.memory o) :
    Shaped g m ∧ m.u64 headOffset = UInt64.ofNat s.committed.length ∧
      m.u64 tailOffset = UInt64.ofNat s.released ∧
      m.u64 droppedOffset = UInt64.ofNat s.refused := by
  have word (off : Nat) (inside : off + 8 ≤ ringHeaderSize) : m.u64 off = s.memory.u64 off := by
    unfold Memory.u64
    rw [Memory.word_congr fun o _ upper => same o (by omega)]
  refine ⟨inv.shaped.congr fun o upper => same o ?_, ?_, ?_, ?_⟩
  · simp only [headOffset, ringHeaderSize] at upper ⊢
    omega
  · rw [word _ (by decide), inv.head]
  · rw [word _ (by decide), inv.tail]
  · rw [word _ (by decide), inv.dropped]

/-- The slot after the last published one is not among the visible ones. -/
theorem free_slot (coherent : Coherent g s.committed.length)
    (room : s.committed.length < s.released + g.slotCount.toNat) {k : Nat}
    (lower : s.released ≤ k) (upper : k < s.committed.length) :
    g.slotOf k ≠ g.slotOf s.committed.length :=
  coherent k _ upper (by omega) le_rfl

/-- Frame condition of a reserved slot: the producer may write anything into the
slot after the last published one. -/
theorem write_slot (inv : RingInv g s) (room : s.committed.length < s.released + g.slotCount.toNat)
    {off : Nat} {bytes : List UInt8} (lower : g.slotAt s.committed.length ≤ off)
    (upper : off + bytes.length ≤ g.slotAt s.committed.length + g.slotStride.toNat) :
    RingInv g { s with memory := s.memory.write off bytes } := by
  have header := g.header_le_slotAt s.committed.length
  obtain ⟨shaped, head, tail, dropped⟩ := inv.header_of_same (m := s.memory.write off bytes)
    fun o below => Memory.write_apply_of_outside (by omega)
  refine ⟨shaped, head, tail, dropped, inv.released_le, inv.length_le, inv.wellFormed, ?_,
    inv.acquired, inv.failures⟩
  intro coherent k f visible is
  have below : k < s.committed.length := (List.getElem?_eq_some_iff.mp is).1
  have wellFormed := inv.wellFormed f (List.mem_of_getElem? is)
  apply (inv.contents coherent k f visible is).congr wellFormed
  intro o low high
  have apart := g.slotAt_disjoint (free_slot (s := s) coherent room visible below)
  exact Memory.write_apply_of_outside (by omega)

/-- Publication: the head store makes the reserved slot the last visible one. -/
theorem publish (inv : RingInv g s) (room : s.committed.length < s.released + g.slotCount.toNat)
    {f : Frame} (wf : f.WellFormed g) (stored : Stored g s.memory s.committed.length f)
    (update : CursorStore s.memory s'.memory headOffset (UInt64.ofNat (s.committed.length + 1)))
    (committed : s'.committed = s.committed ++ [f]) (released : s'.released = s.released)
    (refused : s'.refused = s.refused) (acquired : s'.acquired = s.acquired)
    (failures : s'.failures = s.failures) : RingInv g s' := by
  have length : s'.committed.length = s.committed.length + 1 := by simp [committed]
  refine ⟨inv.shaped.congr update.shape, ?_, ?_, ?_, ?_, ?_, ?_, ?_, ?_, ?_⟩
  · rw [update.stored, length]
  · rw [update.others _ (by decide), inv.tail, released]
  · rw [update.others _ (by decide), inv.dropped, refused]
  · rw [released, length]
    exact inv.released_le.trans (Nat.le_succ _)
  · rw [released, length]
    exact room
  · intro f' mem
    rw [committed] at mem
    rcases List.mem_append.mp mem with old | new
    · exact inv.wellFormed f' old
    · rwa [List.mem_singleton.mp new]
  · intro coherent k f' visible is
    rw [released] at visible
    rw [committed] at is
    rcases Nat.lt_or_ge k s.committed.length with old | new
    · rw [List.getElem?_append_left old] at is
      exact (inv.contents (coherent.mono (by omega)) k f' visible is).cursorStore
        (inv.wellFormed f' (List.mem_of_getElem? is)) update
    · have last : k = s.committed.length := by
        have := (List.getElem?_eq_some_iff.mp is).1
        simp only [List.length_append, List.length_singleton] at this
        omega
      subst last
      simp only [List.getElem?_concat_length, Option.some.injEq] at is
      subst is
      exact stored.cursorStore wf update
  · intro coherent
    rw [acquired, committed]
    exact (inv.acquired (coherent.mono (by omega))).trans (List.prefix_append _ _)
  · intro coherent
    rw [failures]
    exact inv.failures (coherent.mono (by omega))

/-- Release: the tail store takes the first visible slot out. -/
theorem release (inv : RingInv g s) (nonempty : s.released < s.committed.length)
    (update : CursorStore s.memory s'.memory tailOffset (UInt64.ofNat (s.released + 1)))
    (committed : s'.committed = s.committed) (released : s'.released = s.released + 1)
    (refused : s'.refused = s.refused) (acquired : s'.acquired = s.acquired)
    (failures : s'.failures = s.failures) : RingInv g s' := by
  refine ⟨inv.shaped.congr update.shape, ?_, ?_, ?_, ?_, ?_, ?_, ?_, ?_, ?_⟩
  · rw [update.others _ (by decide), inv.head, committed]
  · rw [update.stored, released]
  · rw [update.others _ (by decide), inv.dropped, refused]
  · rw [committed, released]
    exact nonempty
  · have := inv.length_le
    rw [committed, released]
    omega
  · rw [committed]
    exact inv.wellFormed
  · intro coherent k f visible is
    rw [committed] at coherent is
    exact (inv.contents coherent k f (by omega) is).cursorStore
      (inv.wellFormed f (List.mem_of_getElem? is)) update
  · rw [committed, acquired]
    exact inv.acquired
  · rw [committed, failures]
    exact inv.failures

/-- Refusal: only the drop counter moves. -/
theorem refuse (inv : RingInv g s)
    (update : CursorStore s.memory s'.memory droppedOffset (UInt64.ofNat (s.refused + 1)))
    (committed : s'.committed = s.committed) (released : s'.released = s.released)
    (refused : s'.refused = s.refused + 1) (acquired : s'.acquired = s.acquired)
    (failures : s'.failures = s.failures) : RingInv g s' := by
  refine ⟨inv.shaped.congr update.shape, ?_, ?_, ?_, ?_, ?_, ?_, ?_, ?_, ?_⟩
  · rw [update.others _ (by decide), inv.head, committed]
  · rw [update.others _ (by decide), inv.tail, released]
  · rw [update.stored, refused]
  · rw [committed, released]
    exact inv.released_le
  · rw [committed, released]
    exact inv.length_le
  · rw [committed]
    exact inv.wellFormed
  · intro coherent k f visible is
    rw [committed] at coherent is
    rw [released] at visible
    exact (inv.contents coherent k f visible is).cursorStore
      (inv.wellFormed f (List.mem_of_getElem? is)) update
  · rw [committed, acquired]
    exact inv.acquired
  · rw [committed, failures]
    exact inv.failures

end RingInv

end Dorsche.Wireless.DataPlane
