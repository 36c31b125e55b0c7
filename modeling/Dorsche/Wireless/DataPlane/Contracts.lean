import Dorsche.Wireless.DataPlane.Invariant

/-!
What each endpoint of a media ring may assume of the other.

`producer g` and `consumer g` are the two rely-guarantee contracts. The rules
for one access come first; each operation of the source then has one lemma under
its contract, and every later result about runs uses these lemmas and not the
programs.
-/

namespace Dorsche.Wireless.DataPlane

open Dorsche.Lib

variable {g : Geometry} {label : Shared → FrameDescriptor → Prop} {park : Shared → Prop}
variable {s s' : Shared}

/-! ### The two contracts -/

/-- A pending or coming wakeup, or nothing to wake up for. -/
def Awake (s : Shared) : Prop :=
  s.event.counter ≠ 0 ∨ s.unsignalled = true ∨ s.committed.length = s.released

/-- The eventfd has rejected no write so far. -/
def NoFaults (s : Shared) : Prop := ∀ i < s.event.writes, s.event.faults i = none

/-- No wakeup is lost as long as no write is rejected. -/
def Wakeful (s : Shared) : Prop := NoFaults s → Awake s

/-- What the consumer does: it moves the tail cursor forward and reads the
eventfd. -/
structure ConsumerMoves (s s' : Shared) : Prop where
  committed : s'.committed = s.committed
  released : s.released ≤ s'.released
  refused : s'.refused = s.refused
  unsignalled : s'.unsignalled = s.unsignalled
  faults : s'.event.faults = s.event.faults
  writes : s'.event.writes = s.event.writes
  memory : ∀ o, o < tailOffset ∨ tailOffset + 8 ≤ o → s'.memory o = s.memory o

/-- What the producer does: it publishes further frames and signals them. -/
structure ProducerMoves (s s' : Shared) : Prop where
  committed : s.committed <+: s'.committed
  released : s'.released = s.released
  acquired : s'.acquired = s.acquired
  failures : s'.failures = s.failures
  ready : s'.ready = s.ready
  faults : s'.event.faults = s.event.faults
  writes : s.event.writes ≤ s'.event.writes
  awake : NoFaults s' → Awake s → Awake s'

theorem ConsumerMoves.refl (s : Shared) : ConsumerMoves s s :=
  ⟨rfl, le_rfl, rfl, rfl, rfl, rfl, fun _ _ => rfl⟩

theorem ConsumerMoves.trans {a b c : Shared} (ab : ConsumerMoves a b) (bc : ConsumerMoves b c) :
    ConsumerMoves a c where
  committed := bc.committed.trans ab.committed
  released := ab.released.trans bc.released
  refused := bc.refused.trans ab.refused
  unsignalled := bc.unsignalled.trans ab.unsignalled
  faults := bc.faults.trans ab.faults
  writes := bc.writes.trans ab.writes
  memory := fun o away => (bc.memory o away).trans (ab.memory o away)

/-- The consumer writes no slot. -/
theorem ConsumerMoves.slots (moves : ConsumerMoves s s') {o : Nat} (high : ringHeaderSize ≤ o) :
    s'.memory o = s.memory o := by
  apply moves.memory
  simp only [tailOffset, ringHeaderSize] at *
  omega

theorem ConsumerMoves.read_slots (moves : ConsumerMoves s s') {off n : Nat}
    (high : ringHeaderSize ≤ off) : s'.memory.read off n = s.memory.read off n :=
  Memory.read_congr fun _ low _ => moves.slots (high.trans low)

/-- A write of the producer that publishes nothing. -/
theorem ProducerMoves.withMemory (s : Shared) (memory : Memory) (refused : Nat) :
    ProducerMoves s { s with memory, refused } :=
  ⟨List.prefix_rfl, rfl, rfl, rfl, rfl, rfl, le_rfl, fun _ awake => awake⟩

theorem ProducerMoves.refl (s : Shared) : ProducerMoves s s := .withMemory s s.memory s.refused

theorem ProducerMoves.noFaults (moves : ProducerMoves s s') (sound : NoFaults s') : NoFaults s :=
  fun i early => (congrFun moves.faults i).symm.trans (sound i (early.trans_le moves.writes))

theorem ProducerMoves.trans {a b c : Shared} (ab : ProducerMoves a b) (bc : ProducerMoves b c) :
    ProducerMoves a c where
  committed := ab.committed.trans bc.committed
  released := bc.released.trans ab.released
  acquired := bc.acquired.trans ab.acquired
  failures := bc.failures.trans ab.failures
  ready := bc.ready.trans ab.ready
  faults := bc.faults.trans ab.faults
  writes := ab.writes.trans bc.writes
  awake := fun sound awake => bc.awake sound (ab.awake (bc.noFaults sound) awake)

theorem Wakeful.moved (wakeful : Wakeful s) (moves : ProducerMoves s s') : Wakeful s' :=
  fun sound => moves.awake sound (wakeful (moves.noFaults sound))

/-- The producer never blocks and never panics; between a head store and its
eventfd write it does nothing else; and it publishes only descriptors that
`label` allows. -/
structure ProducerSafe (label : Shared → FrameDescriptor → Prop) (i : Access) (s : Shared) :
    Prop where
  runs : (exec i s).isSome
  signals : s.unsignalled = true → i = .writeEvent
  labelled : ∀ descriptor, i.publishes = some descriptor → label s descriptor

/-- A client that publishes what it likes. -/
def anyLabel (_ : Shared) (_ : FrameDescriptor) : Prop := True

/-- The consumer never panics, and waits for the eventfd only where `park`
allows it. -/
def ConsumerSafe (park : Shared → Prop) (i : Access) (s : Shared) : Prop :=
  (∀ text, i ≠ .panic text) ∧ (i = .readable → park s)

def producer (g : Geometry) (label : Shared → FrameDescriptor → Prop) :
    Contract Access Access.Reply Shared where
  exec := exec
  inv := RingInv g
  rely := ConsumerMoves
  guar := ProducerMoves
  safe := ProducerSafe label
  rely_refl := ConsumerMoves.refl
  rely_trans := ConsumerMoves.trans

def consumer (g : Geometry) (park : Shared → Prop) : Contract Access Access.Reply Shared where
  exec := exec
  inv := RingInv g
  rely := ProducerMoves
  guar := ConsumerMoves
  safe := ConsumerSafe park
  rely_refl := ProducerMoves.refl
  rely_trans := ProducerMoves.trans

/-! ### Rules for one access -/

section Rules

variable {α : Type} {Q : α → Shared → Prop}

/-- An access that never blocks, in the producer. -/
theorem producer_act {i : Access} {k : i.Reply → Ring α} (value : Shared → i.Reply)
    (update : Shared → Shared) (runs : ∀ t, exec i t = some (value t, update t))
    (next : ∀ t, ConsumerMoves s t → RingInv g t → (t.unsignalled = true → i = .writeEvent) ∧
      (∀ descriptor, i.publishes = some descriptor → label t descriptor) ∧
      RingInv g (update t) ∧ ProducerMoves t (update t) ∧
      (producer g label).Holds Q (k (value t)) (update t)) :
    (producer g label).Holds Q (.act i k) s := by
  refine .of_act fun t moved inv => ?_
  obtain ⟨signals, labelled, inv', moves, rest⟩ := next t moved inv
  refine ⟨⟨by rw [runs t]; rfl, signals, labelled⟩, fun r t' ran => ?_⟩
  rw [show (producer g label).exec i t = _ from runs t] at ran
  obtain ⟨rfl, rfl⟩ := Prod.mk.inj (Option.some.inj ran)
  exact ⟨inv', moves, rest⟩

/-- An access that never blocks, in the consumer. -/
theorem consumer_act {i : Access} {k : i.Reply → Ring α} (value : Shared → i.Reply)
    (update : Shared → Shared) (runs : ∀ t, exec i t = some (value t, update t))
    (safe : (∀ text, i ≠ .panic text) ∧ i ≠ .readable)
    (next : ∀ t, ProducerMoves s t → RingInv g t → RingInv g (update t) ∧
      ConsumerMoves t (update t) ∧ (consumer g park).Holds Q (k (value t)) (update t)) :
    (consumer g park).Holds Q (.act i k) s := by
  refine .of_act fun t moved inv => ?_
  obtain ⟨inv', moves, rest⟩ := next t moved inv
  refine ⟨⟨safe.1, fun waits => absurd waits safe.2⟩, fun r t' ran => ?_⟩
  rw [show (consumer g park).exec i t = _ from runs t] at ran
  obtain ⟨rfl, rfl⟩ := Prod.mk.inj (Option.some.inj ran)
  exact ⟨inv', moves, rest⟩

/-- The accesses that change nothing. -/
def Access.isLoad : Access → Bool
  | .loadU16 _ | .loadU32 _ | .loadU64 _ | .readDescriptor _ | .readPayload _ _ => true
  | _ => false

/-- What the two contracts have in common: under `P`, which the other side
keeps, an endpoint may read, and finds the shape of the ring. -/
structure Reads (C : Contract Access Access.Reply Shared) (g : Geometry) (P : Shared → Prop) :
    Prop where
  exec_eq : C.exec = exec
  shaped : ∀ t, C.inv t → Shaped g t.memory
  guar_refl : ∀ t, C.guar t t
  stable : ∀ t t', P t → C.rely t t' → P t'
  safe : ∀ i t, P t → i.isLoad = true → C.safe i t

theorem Access.isLoad_runs {i : Access} (load : i.isLoad = true) (t : Shared) :
    (exec i t).isSome ∧ i.publishes = none := by
  cases i with
  | loadU16 off => exact ⟨rfl, rfl⟩
  | loadU32 off => exact ⟨rfl, rfl⟩
  | loadU64 off => exact ⟨rfl, rfl⟩
  | readDescriptor off => exact ⟨rfl, rfl⟩
  | readPayload off n => exact ⟨rfl, rfl⟩
  | _ => cases load

theorem producer_reads : Reads (producer g label) g (·.unsignalled = false) where
  exec_eq := rfl
  shaped := fun _ inv => inv.shaped
  guar_refl := ProducerMoves.refl
  stable := fun _ _ quiet moved => moved.unsignalled.trans quiet
  safe := by
    intro i t quiet load
    obtain ⟨runs, silent⟩ := Access.isLoad_runs load t
    exact ⟨runs, fun loud => absurd loud (by simp [quiet]),
      fun descriptor published => by simp [silent] at published⟩

theorem consumer_reads : Reads (consumer g park) g fun _ => True where
  exec_eq := rfl
  shaped := fun _ inv => inv.shaped
  guar_refl := ConsumerMoves.refl
  stable := fun _ _ _ _ => trivial
  safe := by
    intro i t _ load
    constructor
    · rintro text rfl
      simp [Access.isLoad] at load
    · rintro rfl
      simp [Access.isLoad] at load

section Reads

variable {C : Contract Access Access.Reply Shared} {P : Shared → Prop}

theorem Reads.load (reader : Reads C g P) {i : Access} {k : i.Reply → Ring α}
    (value : Shared → i.Reply) (start : P s) (load : i.isLoad = true)
    (reads : ∀ t, exec i t = some (value t, t))
    (next : ∀ t, C.rely s t → C.inv t → P t → C.Holds Q (k (value t)) t) :
    C.Holds Q (.act i k) s := by
  refine .of_act fun t moved inv => ?_
  have still := reader.stable s t start moved
  refine ⟨reader.safe i t still load, fun r t' ran => ?_⟩
  rw [show C.exec i t = _ from reader.exec_eq ▸ reads t] at ran
  obtain ⟨rfl, rfl⟩ := Prod.mk.inj (Option.some.inj ran)
  exact ⟨inv, reader.guar_refl t, next t moved inv still⟩

/-- `Mapping::slot` reads the shape of the ring and finds the slot of a count. -/
theorem Reads.slot (reader : Reads C g P) (start : P s) (k : Nat) :
    C.Holds (fun slot t => slot = g.slotAt k ∧ C.rely s t) (Mapping.slot (UInt64.ofNat k)) s := by
  unfold Mapping.slot
  simp only [access, Prog.perform_bind]
  apply reader.load (fun t => t.memory.u32 slotCountOffset) start rfl (fun _ => rfl)
  intro t₁ moved₁ inv₁ start₁
  have shaped₁ := reader.shaped t₁ inv₁
  have nonzero : t₁.memory.u32 slotCountOffset ≠ 0 := by
    rw [shaped₁.slotCount]
    intro zero
    have := g.slotCount_pos
    simp [zero] at this
  rw [if_neg nonzero]
  apply reader.load (fun t => t.memory.u32 slotStrideOffset) start₁ rfl (fun _ => rfl)
  intro t₂ moved₂ inv₂ _
  apply Contract.Holds.of_ret
  intro t₃ moved₃ _
  refine ⟨?_, C.rely_trans (C.rely_trans moved₁ moved₂) moved₃⟩
  rw [shaped₁.slotCount, (reader.shaped t₂ inv₂).slotStride, g.slotOffset_ofNat]

/-- Moving an endpoint between processes keeps it: its header validates. -/
theorem Reads.fromDescriptor (reader : Reads C g P) (start : P s) :
    C.Holds (fun result t => result = .ok () ∧ C.rely s t) (fromDescriptor g.mapLen) s := by
  unfold DataPlane.fromDescriptor
  simp only [access, Prog.perform_bind]
  apply reader.load (fun t => t.memory.u32 magicOffset) start rfl (fun _ => rfl)
  intro t₁ moved₁ inv₁ start₁
  apply reader.load (fun t => t.memory.u16 abiVersionOffset) start₁ rfl (fun _ => rfl)
  intro t₂ moved₂ inv₂ start₂
  apply reader.load (fun t => t.memory.u16 headerBytesOffset) start₂ rfl (fun _ => rfl)
  intro t₃ moved₃ inv₃ start₃
  apply reader.load (fun t => t.memory.u32 slotCountOffset) start₃ rfl (fun _ => rfl)
  intro t₄ moved₄ inv₄ start₄
  apply reader.load (fun t => t.memory.u32 slotStrideOffset) start₄ rfl (fun _ => rfl)
  intro t₅ moved₅ inv₅ _
  have valid : validateHeader 64
      { magic := t₁.memory.u32 magicOffset, abiVersion := t₂.memory.u16 abiVersionOffset
        headerBytes := t₃.memory.u16 headerBytesOffset, slotCount := t₄.memory.u32 slotCountOffset
        slotStride := t₅.memory.u32 slotStrideOffset, payloadCapacity := 0, head := 0, tail := 0
        dropped := 0 } g.mapLen = .ok () := by
    rw [(reader.shaped t₁ inv₁).magic, (reader.shaped t₂ inv₂).abiVersion,
      (reader.shaped t₃ inv₃).headerBytes, (reader.shaped t₄ inv₄).slotCount,
      (reader.shaped t₅ inv₅).slotStride]
    exact validateHeader_eq_ok_iff.mpr (validateHeader_eq_ok_iff.mp (g.validateHeader_header 0 0 0))
  rw [valid]
  apply Contract.Holds.of_ret
  intro t₆ moved₆ _
  exact ⟨rfl, C.rely_trans (C.rely_trans (C.rely_trans (C.rely_trans (C.rely_trans moved₁ moved₂)
    moved₃) moved₄) moved₅) moved₆⟩

end Reads

/-- An access that changes nothing, in the producer. -/
theorem producer_load {i : Access} {k : i.Reply → Ring α} (value : Shared → i.Reply)
    (quiet : s.unsignalled = false) (load : i.isLoad = true)
    (reads : ∀ t, exec i t = some (value t, t))
    (next : ∀ t, ConsumerMoves s t → RingInv g t → t.unsignalled = false →
      (producer g label).Holds Q (k (value t)) t) :
    (producer g label).Holds Q (.act i k) s :=
  producer_reads.load value quiet load reads next

/-- An access that changes nothing, in the consumer. -/
theorem consumer_load {i : Access} {k : i.Reply → Ring α} (value : Shared → i.Reply)
    (load : i.isLoad = true) (reads : ∀ t, exec i t = some (value t, t))
    (next : ∀ t, ProducerMoves s t → RingInv g t → (consumer g park).Holds Q (k (value t)) t) :
    (consumer g park).Holds Q (.act i k) s :=
  consumer_reads.load value trivial load reads fun t moved inv _ => next t moved inv

end Rules

end Dorsche.Wireless.DataPlane
