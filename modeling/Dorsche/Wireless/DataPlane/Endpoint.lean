import Dorsche.Lib.Interleave
import Dorsche.Wireless.DataPlane.Layout

/-!
The two endpoints of a media ring (`src/wireless/data_plane.rs`).

Every operation is a program of atomic accesses to the shared mapping and to
the eventfd, in the order of the source, so that the other process can act
between any two of them. Fields of the header are read where the source reads
them: `slot_count` twice in `try_reserve`, once more for every slot.

`Shared` also carries ghost history that no program reads: the frames whose
head store has happened, the frames acquired, the slots released, the
reservations refused. A ghost update rides on the access that causes it.
-/

namespace Dorsche.Wireless.DataPlane

open Dorsche.Lib

/-- `io::ErrorKind` as far as the source tells kinds apart. -/
inductive ErrorKind where
  | wouldBlock
  | other (errno : Nat)
deriving DecidableEq, Repr

/-- An `anyhow` error: a message, or a passed-on I/O error. -/
inductive RingError where
  | message (text : String)
  | io (kind : ErrorKind)
deriving DecidableEq, Repr

/-- A frame as the two ends exchange it. -/
structure Frame where
  descriptor : FrameDescriptor
  payload : List UInt8
deriving DecidableEq, Repr

/-! ### The eventfd -/

/-- Largest counter an eventfd holds. -/
def eventfdMax : Nat := 2 ^ 64 - 2

/-- An eventfd counter. `faults i` is the error the `i`-th write runs into, for a
descriptor that was adopted and can reject writes. -/
structure EventFd where
  counter : Nat
  writes : Nat
  faults : Nat → Option ErrorKind

namespace EventFd

/-- `write(2)` of the value 1. -/
def write (e : EventFd) : Except ErrorKind Unit × EventFd :=
  match e.faults e.writes with
  | some kind => (.error kind, { e with writes := e.writes + 1 })
  | none =>
      if e.counter + 1 ≤ eventfdMax then
        (.ok (), { e with counter := e.counter + 1, writes := e.writes + 1 })
      else (.error .wouldBlock, { e with writes := e.writes + 1 })

/-- `read(2)`: a non-zero counter is returned and cleared. -/
def read (e : EventFd) : Except ErrorKind UInt64 × EventFd :=
  if e.counter = 0 then (.error .wouldBlock, e)
  else (.ok (UInt64.ofNat e.counter), { e with counter := 0 })

@[simp] theorem write_faults (e : EventFd) : e.write.2.faults = e.faults := by
  unfold write
  split
  · rfl
  · split <;> rfl

@[simp] theorem write_writes (e : EventFd) : e.write.2.writes = e.writes + 1 := by
  unfold write
  split
  · rfl
  · split <;> rfl

@[simp] theorem read_faults (e : EventFd) : e.read.2.faults = e.faults := by
  unfold read
  split <;> rfl

@[simp] theorem read_writes (e : EventFd) : e.read.2.writes = e.writes := by
  unfold read
  split <;> rfl

/-- A failed read changes nothing. -/
theorem read_of_error {e : EventFd} {kind : ErrorKind} (failed : e.read.1 = .error kind) :
    e.read.2 = e := by
  unfold read at failed ⊢
  split at failed
  · rename_i zero
    rw [if_pos zero]
  · cases failed

/-- A write that is not rejected leaves the eventfd readable, even if it is
saturated. -/
theorem write_counter_ne_zero {e : EventFd} (sound : e.faults e.writes = none) :
    e.write.2.counter ≠ 0 := by
  unfold write
  rw [sound]
  by_cases fits : e.counter + 1 ≤ eventfdMax
  · simp [fits]
  · simp only [eventfdMax] at fits ⊢
    simp only [fits, if_false]
    omega

/-- Only a fault makes a write fail with anything but `WouldBlock`. -/
theorem write_other_iff {e : EventFd} {errno : Nat} :
    e.write.1 = .error (.other errno) ↔ e.faults e.writes = some (.other errno) := by
  unfold write
  cases e.faults e.writes with
  | some kind => simp
  | none =>
      by_cases fits : e.counter + 1 ≤ eventfdMax
      · simp [fits]
      · simp [fits]

end EventFd

/-! ### Shared state and accesses -/

structure Shared where
  memory : Memory
  event : EventFd
  /-- The readiness `AsyncFd` has cached for the consumer. -/
  ready : Bool
  /-- Ghost: frames published so far, in the order of their head stores. -/
  committed : List Frame
  /-- Ghost: slots given back so far. -/
  released : Nat
  /-- Ghost: reservations refused so far. -/
  refused : Nat
  /-- Ghost: frames acquired so far. -/
  acquired : List Frame
  /-- Ghost: errors `try_acquire` has returned so far. -/
  failures : List RingError
  /-- Ghost: a head store whose eventfd write is still to come. -/
  unsignalled : Bool

/-- A mapping before its first access, with an eventfd at zero. -/
def Shared.fresh (memory : Memory) (faults : Nat → Option ErrorKind) : Shared where
  memory := memory
  event := ⟨0, 0, faults⟩
  ready := false
  committed := []
  released := 0
  refused := 0
  acquired := []
  failures := []
  unsignalled := false

/-- Ghost updates. -/
inductive Ghost where
  | none
  | publish (descriptor : FrameDescriptor) (payload payloadBytes : Nat)
  | release
  | refuse
  | acquire (descriptor : FrameDescriptor) (payload payloadBytes : Nat)
  | fail (error : RingError)

def Shared.record (s : Shared) : Ghost → Shared
  | .none => s
  | .publish descriptor payload n =>
      { s with committed := s.committed ++ [⟨descriptor, s.memory.read payload n⟩]
               unsignalled := true }
  | .release => { s with released := s.released + 1 }
  | .refuse => { s with refused := s.refused + 1 }
  | .acquire descriptor payload n =>
      { s with acquired := s.acquired ++ [⟨descriptor, s.memory.read payload n⟩] }
  | .fail error => { s with failures := s.failures ++ [error] }

/-- One atomic step of an endpoint. -/
inductive Access where
  | loadU16 (off : Nat)
  | loadU32 (off : Nat)
  | loadU64 (off : Nat)
  | storeU64 (off : Nat) (value : UInt64) (ghost : Ghost)
  | fetchAddU64 (off : Nat) (delta : UInt64) (ghost : Ghost)
  | readDescriptor (off : Nat)
  | writeDescriptor (off : Nat) (descriptor : FrameDescriptor)
  | readPayload (off n : Nat)
  | writePayload (off : Nat) (bytes : List UInt8)
  | writeEvent
  | readable
  | readEvent
  | clearReady
  | panic (message : String)
  | note (ghost : Ghost)

abbrev Access.Reply : Access → Type
  | .loadU16 _ => UInt16
  | .loadU32 _ => UInt32
  | .loadU64 _ => UInt64
  | .storeU64 _ _ _ => Unit
  | .fetchAddU64 _ _ _ => UInt64
  | .readDescriptor _ => FrameDescriptor
  | .writeDescriptor _ _ => Unit
  | .readPayload _ _ => List UInt8
  | .writePayload _ _ => Unit
  | .writeEvent => Except ErrorKind Unit
  | .readable => Unit
  | .readEvent => Except ErrorKind UInt64
  | .clearReady => Unit
  | .panic _ => Empty
  | .note _ => Unit

/-- The effect of an access. `readable` blocks until the eventfd is readable;
a panic never continues. -/
def exec : (i : Access) → Shared → Option (i.Reply × Shared)
  | .loadU16 off, s => some (s.memory.u16 off, s)
  | .loadU32 off, s => some (s.memory.u32 off, s)
  | .loadU64 off, s => some (s.memory.u64 off, s)
  | .storeU64 off value ghost, s =>
      some ((), { s.record ghost with memory := s.memory.setWord 8 off value.toNat })
  | .fetchAddU64 off delta ghost, s =>
      some (s.memory.u64 off,
        { s.record ghost with
          memory := s.memory.setWord 8 off (s.memory.u64 off + delta).toNat })
  | .readDescriptor off, s =>
      some (FrameDescriptor.decode (s.memory.read off FrameDescriptor.sizeOf), s)
  | .writeDescriptor off descriptor, s =>
      some ((), { s with memory := s.memory.write off descriptor.encode })
  | .readPayload off n, s => some (s.memory.read off n, s)
  | .writePayload off bytes, s => some ((), { s with memory := s.memory.write off bytes })
  | .writeEvent, s =>
      some (s.event.write.1, { s with event := s.event.write.2, unsignalled := false })
  | .readable, s =>
      if s.ready = true ∨ s.event.counter ≠ 0 then some ((), { s with ready := true }) else none
  | .readEvent, s => some (s.event.read.1, { s with event := s.event.read.2 })
  | .clearReady, s => some ((), { s with ready := false })
  | .panic _, _ => none
  | .note ghost, s => some ((), s.record ghost)

/-- The descriptor an access publishes, if it is a head store. -/
def Access.publishes : Access → Option FrameDescriptor
  | .storeU64 _ _ (.publish descriptor _ _)
  | .fetchAddU64 _ _ (.publish descriptor _ _)
  | .note (.publish descriptor _ _) => some descriptor
  | _ => none

/-- A program of ring accesses. -/
abbrev Ring (α : Type) := Prog Access Access.Reply α

def access (i : Access) : Ring i.Reply := Prog.perform i

/-- A Rust panic. -/
def panicWith (message : String) : Ring Unit := .act (.panic message) fun e => e.elim

/-- A region of the mapping, such as a Rust slice points to. -/
structure Slice where
  offset : Nat
  len : Nat
deriving DecidableEq, Repr

/-- `Mapping::slot`. -/
def Mapping.slot (index : UInt64) : Ring Nat := do
  let slotCount ← access (.loadU32 slotCountOffset)
  if slotCount = 0 then
    panicWith "attempt to calculate the remainder with a divisor of zero"
  let slotStride ← access (.loadU32 slotStrideOffset)
  return slotOffset 64 slotCount slotStride index

/-- The adoption of a mapping of `mapLen` octets, as `Producer::from_descriptor`
and `Consumer::from_descriptor` do it once the mapping exists. -/
def fromDescriptor (mapLen : Nat) : Ring (Except RingError Unit) := do
  let magic ← access (.loadU32 magicOffset)
  let abiVersion ← access (.loadU16 abiVersionOffset)
  let headerBytes ← access (.loadU16 headerBytesOffset)
  let slotCount ← access (.loadU32 slotCountOffset)
  let slotStride ← access (.loadU32 slotStrideOffset)
  let header : RingHeader :=
    { magic, abiVersion, headerBytes, slotCount, slotStride
      payloadCapacity := 0, head := 0, tail := 0, dropped := 0 }
  match validateHeader 64 header mapLen with
  | .error text => return .error (.message text)
  | .ok () => return .ok ()

/-- `signal_eventfd`: a saturated counter is a wakeup that is already pending. -/
def signalEventfd : Ring (Except RingError Unit) := do
  match ← access .writeEvent with
  | .ok () => return .ok ()
  | .error .wouldBlock => return .ok ()
  | .error (.other errno) => return .error (.io (.other errno))

/-! ### The producer -/

structure ProducerLease where
  slot : Nat
  head : UInt64
  committed : Bool
deriving DecidableEq, Repr

namespace ProducerLease

def capacity (_ : ProducerLease) : Ring Nat := do
  let payloadCapacity ← access (.loadU32 payloadCapacityOffset)
  return payloadCapacity.toNat

/-- `payload_mut`: the slice is fixed by the capacity at the time of the call. -/
def payloadMut (self : ProducerLease) : Ring Slice := do
  let capacity ← self.capacity
  return ⟨self.slot + FrameDescriptor.sizeOf, capacity⟩

/-- The descriptor `commit` writes. -/
def stamped (descriptor : FrameDescriptor) (payloadBytes : Nat) : FrameDescriptor :=
  { descriptor with
    abiVersion := wirelessAudioAbiVersion
    headerBytes := UInt16.ofNat FrameDescriptor.sizeOf
    payloadBytes := UInt32.ofNat payloadBytes }

def commit (self : ProducerLease) (descriptor : FrameDescriptor) (payloadBytes : Nat) :
    Ring (Except RingError Unit) := do
  if self.committed then
    return .error (.message "ring reservation already committed")
  let capacity ← self.capacity
  if ¬ payloadBytes ≤ capacity then
    return .error (.message "payload exceeds ring slot")
  if ¬ payloadBytes ≤ 2 ^ 32 - 1 then
    return .error (.message "payload length exceeds ABI")
  let descriptor := stamped descriptor payloadBytes
  access (.writeDescriptor self.slot descriptor)
  access (.storeU64 headOffset (self.head + 1)
    (.publish descriptor (self.slot + FrameDescriptor.sizeOf) payloadBytes))
  signalEventfd

end ProducerLease

namespace Producer

def tryReserve : Ring (Option ProducerLease) := do
  let head ← access (.loadU64 headOffset)
  let tail ← access (.loadU64 tailOffset)
  let slotCount ← access (.loadU32 slotCountOffset)
  if slotCount.toUInt64 ≤ head - tail then
    let _ ← access (.fetchAddU64 droppedOffset 1 .refuse)
    return none
  let slot ← Mapping.slot head
  return some ⟨slot, head, false⟩

def tryPushCopy (descriptor : FrameDescriptor) (payload : List UInt8) :
    Ring (Except RingError Bool) := do
  match ← tryReserve with
  | none => return .ok false
  | some lease =>
      let capacity ← lease.capacity
      if ¬ payload.length ≤ capacity then
        return .error (.message "payload exceeds ring slot")
      let slice ← lease.payloadMut
      if ¬ payload.length ≤ slice.len then
        panicWith "range end index out of range for slice"
      access (.writePayload slice.offset payload)
      match ← lease.commit descriptor payload.length with
      | .error e => return .error e
      | .ok () => return .ok true

def droppedFrames : Ring UInt64 := access (.loadU64 droppedOffset)

end Producer

/-! ### The consumer -/

structure FrameLease where
  descriptor : FrameDescriptor
  payloadOffset : Nat
  tail : UInt64
deriving DecidableEq, Repr

namespace FrameLease

/-- `FrameLease::payload`. -/
def payload (self : FrameLease) : Slice := ⟨self.payloadOffset, self.descriptor.payloadBytes.toNat⟩

/-- `Drop for FrameLease`. -/
def drop (self : FrameLease) : Ring Unit :=
  access (.storeU64 tailOffset (self.tail + 1) .release)

end FrameLease

namespace Consumer

def tryAcquire : Ring (Except RingError (Option FrameLease)) := do
  let tail ← access (.loadU64 tailOffset)
  let head ← access (.loadU64 headOffset)
  if tail = head then
    return .ok none
  let slot ← Mapping.slot tail
  let descriptor ← access (.readDescriptor slot)
  if ¬ descriptor.abiVersion = wirelessAudioAbiVersion then
    return .error (.message "frame ABI mismatch")
  if ¬ descriptor.headerBytes.toNat = FrameDescriptor.sizeOf then
    return .error (.message "frame descriptor size mismatch")
  let payloadCapacity ← access (.loadU32 payloadCapacityOffset)
  if ¬ descriptor.payloadBytes ≤ payloadCapacity then
    return .error (.message "corrupt frame payload length")
  return .ok (some ⟨descriptor, slot + FrameDescriptor.sizeOf, tail⟩)

/-- One turn of the loop of `wait_readable`: `none` to go round again. -/
def waitReadableTurn : Ring (Option (Except RingError Unit)) := do
  access .readable
  match ← access .readEvent with
  | .ok _ => return some (.ok ())
  | .error .wouldBlock =>
      access .clearReady
      return none
  | .error (.other errno) => return some (.error (.io (.other errno)))

def queuedFrames : Ring UInt64 := do
  let head ← access (.loadU64 headOffset)
  let tail ← access (.loadU64 tailOffset)
  return head - tail

end Consumer

end Dorsche.Wireless.DataPlane
