import Dorsche.Wireless.DataPlane.Consumer
import Dorsche.Wireless.DataPlane.Producer

/-!
Exactly-once, in-order delivery over a media ring.

A client of an endpoint may call any of its operations in any order the borrow
rules of the source allow: with no lease it reserves, pushes, or moves the
endpoint to another process; with a lease it reads or writes the slot, drops
it or commits it. The control points below carry the client's own account: the
frames it has published, the octets it has left in the leased slot, the octets
it has read from a held frame. The two accounts agree in every interleaving.
-/

namespace Dorsche.Wireless.DataPlane

open Dorsche.Lib

variable {g : Geometry} {park : Shared → Prop} {s s' : Shared}

/-! ### A new ring -/

/-- What the two endpoints of a new ring share. -/
def RingPair.shared (ring : RingPair) (faults : Nat → Option ErrorKind) : Shared :=
  .fresh ring.memory faults

/-- A new ring satisfies the invariant of its geometry. -/
theorem RingPair.ringInv {ring : RingPair} (faults : Nat → Option ErrorKind)
    (memory : ring.memory = (g.header 0 0 0).store fun _ => 0) :
    RingInv g (ring.shared faults) := by
  have loaded := RingHeader.load_store (g.header 0 0 0) fun _ => 0
  rw [← memory] at loaded
  unfold RingHeader.load Geometry.header at loaded
  obtain ⟨magic, abiVersion, headerBytes, slotCount, slotStride, payloadCapacity, head, tail,
    dropped⟩ := RingHeader.mk.inj loaded
  exact
    { shaped := ⟨magic, abiVersion, headerBytes, slotCount, slotStride, payloadCapacity⟩
      head, tail, dropped
      released_le := le_rfl
      length_le := Nat.zero_le _
      wellFormed := fun f mem => absurd mem List.not_mem_nil
      contents := fun _ k f _ is => absurd is (by simp [RingPair.shared, Shared.fresh])
      acquired := fun _ => List.prefix_rfl
      failures := fun _ => rfl }

/-! ### The producer's client -/

/-- Where a producer's client is between two calls. `given` are the frames it has
published; `image` are the payload octets of the leased slot as it knows them. -/
inductive ProducerAt where
  | idle (given : List Frame)
  | leased (given : List Frame) (lease : ProducerLease) (slice : Option Slice)
      (image : List UInt8)
  /-- The endpoint did not survive a move. -/
  | lost

/-- The client's account of what it has published. -/
def ProducerAt.given : ProducerAt → List Frame
  | .idle given => given
  | .leased given _ _ _ => given
  | .lost => []

namespace ProducerAt

/-- Reserve a slot; its octets are what the client starts from. -/
def reserve (capacity : Nat) (given : List Frame) : Ring ProducerAt := do
  match ← Producer.tryReserve with
  | none => return .idle given
  | some lease =>
      let image ← access (.readPayload (lease.slot + FrameDescriptor.sizeOf) capacity)
      return .leased given lease none image

def pushCopy (given : List Frame) (descriptor : FrameDescriptor) (payload : List UInt8) :
    Ring ProducerAt := do
  match ← Producer.tryPushCopy descriptor payload with
  | .ok true | .error (.io _) =>
      return .idle (given ++ [⟨ProducerLease.stamped descriptor payload.length, payload⟩])
  | .ok false | .error (.message _) => return .idle given

/-- Move the endpoint through its descriptor. -/
def move (mapLen : Nat) (given : List Frame) : Ring ProducerAt := do
  match ← fromDescriptor mapLen with
  | .ok () => return .idle given
  | .error _ => return .lost

def countDropped (given : List Frame) : Ring ProducerAt := do
  let _ ← Producer.droppedFrames
  return .idle given

def borrow (given : List Frame) (lease : ProducerLease) (image : List UInt8) : Ring ProducerAt := do
  let slice ← lease.payloadMut
  return .leased given lease (some slice) image

/-- Write through a slice of `payload_mut`. -/
def fill (given : List Frame) (lease : ProducerLease) (slice : Slice) (image : List UInt8)
    (start : Nat) (bytes : List UInt8) : Ring ProducerAt := do
  access (.writePayload (slice.offset + start) bytes)
  return .leased given lease (some slice) (Memory.overlay image start bytes)

def commit (given : List Frame) (lease : ProducerLease) (image : List UInt8)
    (descriptor : FrameDescriptor) (payloadBytes : Nat) : Ring ProducerAt := do
  match ← lease.commit descriptor payloadBytes with
  | .ok () | .error (.io _) =>
      return .idle
        (given ++ [⟨ProducerLease.stamped descriptor payloadBytes, image.take payloadBytes⟩])
  | .error (.message _) => return .idle given

end ProducerAt

/-- The calls a producer's client may make. -/
inductive ProducerMenu (mapLen capacity : Nat) : ProducerAt → Ring ProducerAt → Prop where
  | reserve {given} : ProducerMenu mapLen capacity (.idle given) (ProducerAt.reserve capacity given)
  | pushCopy {given} (descriptor payload) :
      ProducerMenu mapLen capacity (.idle given) (ProducerAt.pushCopy given descriptor payload)
  | move {given} : ProducerMenu mapLen capacity (.idle given) (ProducerAt.move mapLen given)
  | countDropped {given} :
      ProducerMenu mapLen capacity (.idle given) (ProducerAt.countDropped given)
  | borrow {given lease slice image} :
      ProducerMenu mapLen capacity (.leased given lease slice image)
        (ProducerAt.borrow given lease image)
  | fill {given lease slice image start} {bytes : List UInt8} :
      start + bytes.length ≤ slice.len →
      ProducerMenu mapLen capacity (.leased given lease (some slice) image)
        (ProducerAt.fill given lease slice image start bytes)
  | drop {given lease slice image} :
      ProducerMenu mapLen capacity (.leased given lease slice image) (.ret (.idle given))
  | commit {given lease slice image} (descriptor payloadBytes) :
      ProducerMenu mapLen capacity (.leased given lease slice image)
        (ProducerAt.commit given lease image descriptor payloadBytes)

/-- The leased slot holds the octets the client knows of. -/
def Filled (g : Geometry) (s : Shared) (image : List UInt8) : Prop :=
  s.memory.read (g.payloadAt s.committed.length) g.payloadCapacity.toNat = image

theorem Filled.moved {image : List UInt8} (filled : Filled g s image) (moves : ConsumerMoves s s') :
    Filled g s' image := by
  unfold Filled at filled ⊢
  rw [moves.committed, ← filled]
  exact moves.read_slots (g.header_le_payloadAt _)

/-- What holds of a producer's client between two calls. -/
def ProducerRests (g : Geometry) : ProducerAt → Shared → Prop
  | .idle given, s => s.unsignalled = false ∧ s.committed = given
  | .leased given lease slice image, s =>
      Leased g lease s ∧ s.committed = given ∧
        (∀ region, slice = some region → region = Leased.slice g s) ∧ Filled g s image
  | .lost, _ => False

theorem producerRests_given {point : ProducerAt} (rests : ProducerRests g point s) :
    point.given = s.committed := by
  cases point with
  | idle given => exact rests.2.symm
  | leased given lease slice image => exact rests.2.1.symm
  | lost => exact rests.elim

theorem ProducerRests.moved {point : ProducerAt} (rests : ProducerRests g point s)
    (moves : ConsumerMoves s s') : ProducerRests g point s' := by
  cases point with
  | idle given =>
      exact ⟨moves.unsignalled.trans rests.1, moves.committed.trans rests.2⟩
  | leased given lease slice image =>
      obtain ⟨leased, account, borrowed, filled⟩ := rests
      refine ⟨leased.moved moves, moves.committed.trans account, fun region is => ?_,
        filled.moved moves⟩
      rw [borrowed region is]
      unfold Leased.slice
      rw [moves.committed]
  | lost => exact rests.elim

/-- A client that rests after its call. -/
theorem producer_rests {point : ProducerAt} (rests : ProducerRests g point s) :
    (producer g anyLabel).Holds (ProducerRests g) (.ret point) s :=
  .of_ret fun _ moves _ => rests.moved moves

theorem producer_reserve {given : List Frame} (quiet : s.unsignalled = false)
    (account : s.committed = given) :
    (producer g anyLabel).Holds (ProducerRests g)
      (ProducerAt.reserve g.payloadCapacity.toNat given) s := by
  unfold ProducerAt.reserve
  apply (producer_tryReserve quiet).bind
  intro lease t₁ _ reserved
  obtain ⟨committed, quiet₁, -, -, outcome⟩ := reserved
  cases lease with
  | none => exact producer_rests ⟨quiet₁, committed.trans account⟩
  | some lease =>
      obtain ⟨-, leased₁⟩ := outcome
      simp only [access, Prog.perform_bind]
      apply producer_load (fun t => t.memory.read (lease.slot + FrameDescriptor.sizeOf)
          g.payloadCapacity.toNat) quiet₁ rfl (fun _ => rfl)
      intro t₂ moved₂ _ _
      have leased₂ := leased₁.moved moved₂
      refine producer_rests ⟨leased₂, moved₂.committed.trans (committed.trans account), ?_, ?_⟩
      · rintro _ ⟨⟩
      · rw [leased₂.slot]
        rfl

theorem producer_pushCopy {given : List Frame} (quiet : s.unsignalled = false)
    (account : s.committed = given) (descriptor : FrameDescriptor) (payload : List UInt8) :
    (producer g anyLabel).Holds (ProducerRests g)
      (ProducerAt.pushCopy given descriptor payload) s := by
  unfold ProducerAt.pushCopy
  apply (producer_tryPushCopy quiet descriptor payload fun _ _ _ _ => trivial).bind
  rintro result t₁ _ ⟨quiet₁, pushed⟩
  cases pushed with
  | refused _ committed => exact producer_rests ⟨quiet₁, committed.trans account⟩
  | rejected _ committed _ => exact producer_rests ⟨quiet₁, committed.trans account⟩
  | published _ _ committed _ _ signalled =>
      rw [account] at committed
      cases signalled with
      | ok _ => exact producer_rests ⟨quiet₁, committed⟩
      | failed _ => exact producer_rests ⟨quiet₁, committed⟩

theorem producer_fill {given : List Frame} {lease : ProducerLease} {slice : Slice}
    {image bytes : List UInt8} {start : Nat}
    (rests : ProducerRests g (.leased given lease (some slice) image) s)
    (inside : start + bytes.length ≤ slice.len) :
    (producer g anyLabel).Holds (ProducerRests g)
      (ProducerAt.fill given lease slice image start bytes) s := by
  obtain ⟨leased, account, borrowed, filled⟩ := rests
  obtain rfl := borrowed slice rfl
  change start + bytes.length ≤ g.payloadCapacity.toNat at inside
  unfold ProducerAt.fill
  simp only [access, Prog.perform_bind]
  refine producer_writePayload leased (Nat.le_add_right _ _) ?_
    fun t₁ leased₁ committed₁ _ _ _ memory₁ => ?_
  · change g.payloadAt s.committed.length + start + bytes.length ≤ _
    omega
  refine producer_rests ⟨leased₁, committed₁.trans account, ?_, ?_⟩
  · rintro region ⟨⟩
    unfold Leased.slice
    rw [committed₁]
  · unfold Filled at filled ⊢
    rw [committed₁, ← filled, ← Memory.read_write_inside inside]
    refine Memory.read_congr fun o low _ => memory₁ o ?_
    exact (g.header_le_slotAt _).trans ((Nat.le_add_right _ _).trans low)

theorem producer_commitLease {given : List Frame} {lease : ProducerLease} {slice : Option Slice}
    {image : List UInt8} (rests : ProducerRests g (.leased given lease slice image) s)
    (descriptor : FrameDescriptor) (payloadBytes : Nat) :
    (producer g anyLabel).Holds (ProducerRests g)
      (ProducerAt.commit given lease image descriptor payloadBytes) s := by
  obtain ⟨leased, account, -, filled⟩ := rests
  unfold ProducerAt.commit
  apply (producer_commit leased descriptor payloadBytes fun _ _ _ _ => trivial).bind
  rintro result t₁ _ ⟨quiet₁, _, _, _, outcome⟩
  cases outcome with
  | rejected _ committed => exact producer_rests ⟨quiet₁, committed.trans account⟩
  | published fits committed _ signalled =>
      have octets : s.memory.read (g.payloadAt s.committed.length) payloadBytes =
          image.take payloadBytes := by
        rw [← filled, Memory.take_read fits]
      rw [octets, account] at committed
      cases signalled with
      | ok _ => exact producer_rests ⟨quiet₁, committed⟩
      | failed _ => exact producer_rests ⟨quiet₁, committed⟩

/-- Every call of a producer's client keeps the producer's contract. -/
theorem producer_offers {point : ProducerAt} {p : Ring ProducerAt}
    (rests : ProducerRests g point s)
    (offered : ProducerMenu g.mapLen g.payloadCapacity.toNat point p) :
    (producer g anyLabel).Holds (ProducerRests g) p s := by
  cases offered with
  | reserve => exact producer_reserve rests.1 rests.2
  | pushCopy descriptor payload => exact producer_pushCopy rests.1 rests.2 descriptor payload
  | move =>
      unfold ProducerAt.move
      apply (producer_reads.fromDescriptor rests.1).bind
      intro result t₁ _ outcome
      obtain ⟨rfl, moved⟩ := outcome
      exact producer_rests (ProducerRests.moved rests moved)
  | countDropped =>
      unfold ProducerAt.countDropped Producer.droppedFrames
      simp only [access, Prog.perform_bind]
      exact producer_load (fun t => t.memory.u64 droppedOffset) rests.1 rfl (fun _ => rfl)
        fun t₁ moved _ _ => producer_rests (ProducerRests.moved rests moved)
  | borrow =>
      unfold ProducerAt.borrow
      apply (producer_payloadMut rests.1).bind
      intro region t₁ _ outcome
      obtain ⟨is, moved⟩ := outcome
      obtain ⟨leased, account, -, filled⟩ := ProducerRests.moved rests moved
      refine producer_rests ⟨leased, account, ?_, filled⟩
      rintro _ ⟨⟩
      rw [is]
      unfold Leased.slice
      rw [moved.committed]
  | fill inside => exact producer_fill rests inside
  | drop => exact producer_rests ⟨rests.1.quiet, rests.2.1⟩
  | commit descriptor payloadBytes => exact producer_commitLease rests descriptor payloadBytes

/-! ### The consumer's client -/

/-- Where a consumer's client is between two calls. `seen` are the reads it has
made of the held frame: where each started and what it returned. -/
inductive ConsumerAt where
  | idle
  | holding (lease : FrameLease) (seen : List (Nat × List UInt8))
  /-- The endpoint did not survive a move. -/
  | lost

namespace ConsumerAt

/-- Acquire a frame and note it, or note the failure. -/
def acquire : Ring ConsumerAt := do
  match ← Consumer.tryAcquire with
  | .ok none => return .idle
  | .ok (some lease) =>
      access (.note (.acquire lease.descriptor lease.payload.offset lease.payload.len))
      return .holding lease []
  | .error e =>
      access (.note (.fail e))
      return .idle

def move (mapLen : Nat) : Ring ConsumerAt := do
  match ← fromDescriptor mapLen with
  | .ok () => return .idle
  | .error _ => return .lost

def countQueued : Ring ConsumerAt := do
  let _ ← Consumer.queuedFrames
  return .idle

/-- One turn of `wait_readable`; the client is free to take another. -/
def wait : Ring ConsumerAt := do
  let _ ← Consumer.waitReadableTurn
  return .idle

/-- Read octets of the held frame. -/
def look (lease : FrameLease) (seen : List (Nat × List UInt8)) (start n : Nat) :
    Ring ConsumerAt := do
  let bytes ← access (.readPayload (lease.payload.offset + start) n)
  return .holding lease (seen ++ [(start, bytes)])

def drop (lease : FrameLease) : Ring ConsumerAt := do
  lease.drop
  return .idle

end ConsumerAt

/-- The calls a consumer's client may make. -/
inductive ConsumerMenu (mapLen : Nat) : ConsumerAt → Ring ConsumerAt → Prop where
  | acquire : ConsumerMenu mapLen .idle ConsumerAt.acquire
  | move : ConsumerMenu mapLen .idle (ConsumerAt.move mapLen)
  | countQueued : ConsumerMenu mapLen .idle ConsumerAt.countQueued
  | wait : ConsumerMenu mapLen .idle ConsumerAt.wait
  | look {lease seen start n} : start + n ≤ lease.payload.len →
      ConsumerMenu mapLen (.holding lease seen) (ConsumerAt.look lease seen start n)
  | drop {lease seen} : ConsumerMenu mapLen (.holding lease seen) (ConsumerAt.drop lease)

/-- The reads of a frame returned parts of its payload. -/
def Agree (payload : List UInt8) (seen : List (Nat × List UInt8)) : Prop :=
  ∀ r ∈ seen, r.2 = (payload.drop r.1).take r.2.length

/-- What holds of a consumer's client between two calls. -/
def ConsumerRests (g : Geometry) : ConsumerAt → Shared → Prop
  | .idle, s => Coherent g s.committed.length → s.acquired = s.committed.take s.released
  | .holding lease seen, s => Held g lease s ∧ (Coherent g s.committed.length →
      s.acquired = s.committed.take (s.released + 1) ∧
        Agree (s.memory.read lease.payload.offset lease.payload.len) seen)
  | .lost, _ => False

theorem take_of_prefix {α : Type} {l l' : List α} {n : Nat} (pre : l <+: l') (le : n ≤ l.length) :
    l'.take n = l.take n := by
  obtain ⟨rest, rfl⟩ := pre
  exact List.take_append_of_le_length le

theorem consumerRests_idle (rests : ConsumerRests g .idle s) (inv : RingInv g s)
    (idles : Idles s s') : ConsumerRests g .idle s' := by
  intro coherent
  rw [idles.acquired, idles.released, take_of_prefix idles.committed inv.released_le]
  exact rests (coherent.mono idles.committed.length_le)

theorem ConsumerRests.moved {point : ConsumerAt} (rests : ConsumerRests g point s)
    (moves : ProducerMoves s s') (inv : RingInv g s) (inv' : RingInv g s') :
    ConsumerRests g point s' := by
  have longer := moves.committed.length_le
  cases point with
  | idle => exact consumerRests_idle rests inv moves.idles
  | holding lease seen =>
      obtain ⟨held, account⟩ := rests
      refine ⟨held.moved moves, fun coherent => ?_⟩
      obtain ⟨acquired, agree⟩ := account (coherent.mono longer)
      constructor
      · rw [moves.acquired, moves.released, take_of_prefix moves.committed held.nonempty]
        exact acquired
      · -- The frame in the held slot is the same in both states, so its octets are.
        have before := held.payload_eq inv (coherent.mono longer)
        have after := (held.moved moves).payload_eq inv' coherent
        obtain ⟨rest, longerBy⟩ := moves.committed
        rw [moves.released, ← longerBy, List.getElem?_append_left held.nonempty, before] at after
        rw [← (Frame.mk.inj (Option.some.inj after)).2]
        exact agree
  | lost => exact rests.elim

theorem consumer_rests {point : ConsumerAt} (inv : RingInv g s) (rests : ConsumerRests g point s) :
    (consumer g park).Holds (ConsumerRests g) (.ret point) s :=
  .of_ret fun _ moves inv' => rests.moved moves inv inv'

/-- With a lease of the next frame, the acquired frames and that one are the
next longer part of the committed ones. -/
theorem acquired_append {lease : FrameLease} (held : Held g lease s) (inv : RingInv g s)
    (coherent : Coherent g s.committed.length)
    (account : s.acquired = s.committed.take s.released) :
    s.acquired ++ [⟨lease.descriptor, s.memory.read lease.payload.offset lease.payload.len⟩] =
      s.committed.take (s.released + 1) := by
  rw [account, List.take_add_one, held.payload_eq inv coherent]
  rfl

theorem consumer_acquire (inv : RingInv g s) (rests : ConsumerRests g .idle s) :
    (consumer g park).Holds (ConsumerRests g) ConsumerAt.acquire s := by
  unfold ConsumerAt.acquire
  apply consumer_tryAcquire.bind
  rintro result t₁ inv₁ ⟨moved₁, found⟩
  have rests₁ : ConsumerRests g .idle t₁ := ConsumerRests.moved rests moved₁ inv inv₁
  match result, found with
  | .ok none, _ => exact consumer_rests inv₁ rests₁
  | .ok (some lease), held₁ =>
      apply consumer_act (fun _ => ()) (fun t => { t with
          acquired := t.acquired ++ [⟨lease.descriptor,
            t.memory.read lease.payload.offset lease.payload.len⟩] })
        (fun _ => rfl) (by simp)
      intro t₂ moved₂ inv₂
      have held₂ : Held g lease t₂ := Held.moved held₁ moved₂
      have rests₂ : ConsumerRests g .idle t₂ := ConsumerRests.moved rests₁ moved₂ inv₁ inv₂
      have next (coherent : Coherent g t₂.committed.length) :=
        acquired_append held₂ inv₂ coherent (rests₂ coherent)
      have inv₂' : RingInv g { t₂ with acquired := t₂.acquired ++ [⟨lease.descriptor,
          t₂.memory.read lease.payload.offset lease.payload.len⟩] } :=
        { inv₂ with
          acquired := fun coherent => by
            rw [next coherent]
            exact List.take_prefix _ _ }
      refine ⟨inv₂', ⟨rfl, le_rfl, rfl, rfl, rfl, rfl, fun _ _ => rfl⟩, ?_⟩
      refine consumer_rests inv₂' ⟨⟨held₂.tail, held₂.payloadOffset, held₂.nonempty, held₂.frame⟩,
        fun coherent => ⟨next coherent, ?_⟩⟩
      exact fun r mem => absurd mem List.not_mem_nil
  | .error e, lost =>
      apply consumer_act (fun _ => ()) (fun t => { t with failures := t.failures ++ [e] })
        (fun _ => rfl) (by simp)
      intro t₂ moved₂ inv₂
      have incoherent : ¬ Coherent g t₂.committed.length :=
        fun coherent => lost (coherent.mono moved₂.committed.length_le)
      have inv₂' : RingInv g { t₂ with failures := t₂.failures ++ [e] } :=
        { inv₂ with failures := fun coherent => absurd coherent incoherent }
      refine ⟨inv₂', ⟨rfl, le_rfl, rfl, rfl, rfl, rfl, fun _ _ => rfl⟩, ?_⟩
      exact consumer_rests inv₂' fun coherent => absurd coherent incoherent

theorem consumer_look {lease : FrameLease} {seen : List (Nat × List UInt8)} {start n : Nat}
    (inv : RingInv g s) (rests : ConsumerRests g (.holding lease seen) s)
    (inside : start + n ≤ lease.payload.len) :
    (consumer g park).Holds (ConsumerRests g) (ConsumerAt.look lease seen start n) s := by
  unfold ConsumerAt.look
  simp only [access, Prog.perform_bind]
  apply consumer_load (fun t => t.memory.read (lease.payload.offset + start) n) rfl (fun _ => rfl)
  intro t₁ moved₁ inv₁
  obtain ⟨held₁, account⟩ := ConsumerRests.moved rests moved₁ inv inv₁
  refine consumer_rests inv₁ ⟨held₁, fun coherent => ?_⟩
  obtain ⟨acquired, agree⟩ := account coherent
  refine ⟨acquired, fun r mem => ?_⟩
  rcases List.mem_append.mp mem with old | new
  · exact agree r old
  · rw [List.mem_singleton.mp new, Memory.length_read, Memory.read_part inside]

theorem consumer_dropLease {lease : FrameLease} {seen : List (Nat × List UInt8)}
    (rests : ConsumerRests g (.holding lease seen) s) :
    (consumer g park).Holds (ConsumerRests g) (ConsumerAt.drop lease) s := by
  obtain ⟨held, account⟩ := rests
  unfold ConsumerAt.drop
  apply (consumer_drop held).bind
  rintro _ t₁ inv₁ ⟨committed, released, acquired⟩
  apply consumer_rests inv₁
  intro coherent
  rw [acquired, released, take_of_prefix committed held.nonempty]
  exact (account (coherent.mono committed.length_le)).1

/-- Every call of a consumer's client keeps the consumer's contract. -/
theorem consumer_offers {point : ConsumerAt} {p : Ring ConsumerAt} (inv : RingInv g s)
    (rests : ConsumerRests g point s) (offered : ConsumerMenu g.mapLen point p) :
    (consumer g fun _ => True).Holds (ConsumerRests g) p s := by
  cases offered with
  | acquire => exact consumer_acquire inv rests
  | move =>
      unfold ConsumerAt.move
      apply (consumer_reads.fromDescriptor trivial).bind
      rintro result t₁ inv₁ ⟨kept, moved⟩
      subst kept
      exact consumer_rests inv₁ (ConsumerRests.moved rests moved inv inv₁)
  | countQueued =>
      unfold ConsumerAt.countQueued Consumer.queuedFrames
      apply consumer_load (fun t => t.memory.u64 headOffset) rfl (fun _ => rfl)
      intro t₁ moved₁ _
      apply consumer_load (fun t => t.memory.u64 tailOffset) rfl (fun _ => rfl)
      intro t₂ moved₂ inv₂
      exact consumer_rests inv₂ (ConsumerRests.moved rests (moved₁.trans moved₂) inv inv₂)
  | wait =>
      unfold ConsumerAt.wait
      apply (consumer_waitReadableTurn trivial (fun _ _ _ _ => trivial)
        fun _ _ _ => trivial).bind
      rintro _ t₁ inv₁ ⟨idles, _⟩
      exact consumer_rests inv₁ (consumerRests_idle rests inv idles)
  | look inside => exact consumer_look inv rests inside
  | drop => exact consumer_dropLease rests

/-! ### Delivery -/

/-- The two clients over a new ring. -/
def RingPair.start (ring : RingPair) (faults : Nat → Option ErrorKind) :
    Pair Access Access.Reply ProducerAt ConsumerAt Shared :=
  ⟨.ret (.idle []), .ret .idle, ring.shared faults⟩

/-- A state the two clients can reach. -/
def RingPair.Reaches (ring : RingPair) (payloadCapacity : UInt32)
    (faults : Nat → Option ErrorKind) (c : Pair Access Access.Reply ProducerAt ConsumerAt Shared) :
    Prop :=
  Relation.ReflTransGen (PairStep exec (ProducerMenu ring.mapLen payloadCapacity.toNat)
    (ConsumerMenu ring.mapLen)) (ring.start faults) c

/-- A producer and a consumer keep their contracts, if what each may start does. -/
theorem ring_contracts {τ₁ τ₂ : Type} {label : Shared → FrameDescriptor → Prop}
    {menu₁ : τ₁ → DataPlane.Ring τ₁ → Prop} {menu₂ : τ₂ → DataPlane.Ring τ₂ → Prop}
    {Q₁ : τ₁ → Shared → Prop} {Q₂ : τ₂ → Shared → Prop}
    {c₀ c : Pair Access Access.Reply τ₁ τ₂ Shared}
    (offers₁ : ∀ t p s, RingInv g s → Q₁ t s → menu₁ t p → (producer g label).Holds Q₁ p s)
    (offers₂ : ∀ t p s, RingInv g s → Q₂ t s → menu₂ t p →
      (consumer g fun _ => True).Holds Q₂ p s)
    (reached : Relation.ReflTransGen (PairStep exec menu₁ menu₂) c₀ c)
    (inv₀ : RingInv g c₀.shared) (left₀ : (producer g label).Holds Q₁ c₀.left c₀.shared)
    (right₀ : (consumer g fun _ => True).Holds Q₂ c₀.right c₀.shared) :
    RingInv g c.shared ∧ (producer g label).Holds Q₁ c.left c.shared ∧
      (consumer g fun _ => True).Holds Q₂ c.right c.shared :=
  pair_invariant (producer g label) (consumer g fun _ => True) rfl rfl
    (fun _ _ moves => moves) (fun _ _ moves => moves) offers₁ offers₂ reached inv₀ left₀ right₀

/-- The same over a new ring, with a consumer's client on the other side. -/
theorem RingPair.client_contracts {τ : Type} {label : Shared → FrameDescriptor → Prop}
    {menu : τ → DataPlane.Ring τ → Prop} {Q : τ → Shared → Prop} {t : τ} {ring : RingPair}
    (memory : ring.memory = (g.header 0 0 0).store fun _ => 0) {faults : Nat → Option ErrorKind}
    (offers : ∀ t p s, RingInv g s → Q t s → menu t p → (producer g label).Holds Q p s)
    (left₀ : (producer g label).Holds Q (.ret t) (ring.shared faults))
    {c : Pair Access Access.Reply τ ConsumerAt Shared}
    (reached : Relation.ReflTransGen (PairStep exec menu (ConsumerMenu g.mapLen))
      ⟨.ret t, .ret .idle, ring.shared faults⟩ c) :
    RingInv g c.shared ∧ (producer g label).Holds Q c.left c.shared ∧
      (consumer g fun _ => True).Holds (ConsumerRests g) c.right c.shared := by
  have inv₀ := RingPair.ringInv faults memory
  have right₀ : (consumer g fun _ => True).Holds (ConsumerRests g) (.ret .idle)
      (ring.shared faults) := consumer_rests inv₀ fun _ => rfl
  exact ring_contracts offers (fun _ _ _ inv rests offered => consumer_offers inv rests offered)
    reached inv₀ left₀ right₀

/-- In every interleaving both clients keep their contracts. -/
theorem RingPair.reaches_geometry {ring : RingPair}
    (memory : ring.memory = (g.header 0 0 0).store fun _ => 0) (mapLen : ring.mapLen = g.mapLen)
    {faults : Nat → Option ErrorKind} {c : Pair Access Access.Reply ProducerAt ConsumerAt Shared}
    (reached : ring.Reaches g.payloadCapacity faults c) :
    RingInv g c.shared ∧ (producer g anyLabel).Holds (ProducerRests g) c.left c.shared ∧
      (consumer g fun _ => True).Holds (ConsumerRests g) c.right c.shared := by
  have left₀ : (producer g anyLabel).Holds (ProducerRests g) (.ret (.idle []))
      (ring.shared faults) := producer_rests ⟨rfl, rfl⟩
  unfold RingPair.Reaches at reached
  rw [mapLen] at reached
  exact RingPair.client_contracts memory
    (fun _ _ _ _ rests offered => producer_offers rests offered) left₀ reached

theorem RingPair.reaches_contracts {sys : SystemCalls} {slotCount payloadCapacity : UInt32}
    {ring : RingPair} (created : RingPair.create 64 sys slotCount payloadCapacity = .ok ring)
    {faults : Nat → Option ErrorKind} {c : Pair Access Access.Reply ProducerAt ConsumerAt Shared}
    (reached : ring.Reaches payloadCapacity faults c) :
    ∃ g : Geometry, g.slotCount = slotCount ∧ g.payloadCapacity = payloadCapacity ∧
      RingInv g c.shared ∧
      (producer g anyLabel).Holds (ProducerRests g) c.left c.shared ∧
      (consumer g fun _ => True).Holds (ConsumerRests g) c.right c.shared := by
  obtain ⟨g, count, rfl, mapLen, memory⟩ := RingPair.create_geometry created
  exact ⟨g, count, rfl, RingPair.reaches_geometry memory mapLen reached⟩

/-- Exactly-once delivery: `try_acquire` never fails, the acquired frames are a
prefix of the published ones, which are those the producer's client knows to
have published, and a held frame keeps its octets. Neither endpoint is lost
when it moves. -/
theorem exactly_once {sys : SystemCalls} {slotCount payloadCapacity : UInt32} {ring : RingPair}
    (created : RingPair.create 64 sys slotCount payloadCapacity = .ok ring)
    {faults : Nat → Option ErrorKind} {c : Pair Access Access.Reply ProducerAt ConsumerAt Shared}
    (reached : ring.Reaches payloadCapacity faults c)
    (few : c.shared.committed.length < 2 ^ 64) :
    c.shared.failures = [] ∧ c.shared.acquired <+: c.shared.committed ∧
      (∀ point, c.left = .ret point → point ≠ .lost ∧ point.given = c.shared.committed) ∧
      (∀ point, c.right = .ret point → point ≠ .lost) ∧
      ∀ lease seen, c.right = .ret (.holding lease seen) →
        ∃ f, c.shared.acquired.getLast? = some f ∧ lease.descriptor = f.descriptor ∧
          c.shared.memory.read lease.payload.offset lease.payload.len = f.payload ∧
          ∀ r ∈ seen, r.2 = (f.payload.drop r.1).take r.2.length := by
  obtain ⟨g, -, -, inv, left, right⟩ := RingPair.reaches_contracts created reached
  have coherent : Coherent g c.shared.committed.length := coherent_of_lt few
  refine ⟨inv.failures coherent, inv.acquired coherent, ?_, ?_, ?_⟩
  · intro point rests
    rw [rests] at left
    have known := left.ret inv
    refine ⟨?_, producerRests_given known⟩
    rintro rfl
    exact known
  · rintro point rests rfl
    rw [rests] at right
    exact right.ret inv
  · intro lease seen rests
    rw [rests] at right
    obtain ⟨held, account⟩ := right.ret inv
    obtain ⟨acquired, agree⟩ := account coherent
    refine ⟨⟨lease.descriptor, c.shared.memory.read lease.payload.offset lease.payload.len⟩, ?_,
      rfl, rfl, agree⟩
    rw [acquired, List.take_add_one, held.payload_eq inv coherent, Option.toList_some,
      List.getLast?_concat]

/-- The ring of two slots of two octets. -/
def sampleRing : RingPair := (RingPair.create 64 .calm 2 2).toOption.getD ⟨fun _ => 0, 0⟩

theorem sampleRing_created : RingPair.create 64 .calm 2 2 = .ok sampleRing := by
  obtain ⟨ring, created⟩ : ∃ ring, RingPair.create 64 .calm 2 2 = .ok ring :=
    RingPair.create_succeeds SystemCalls.calm_succeed (by decide) (by decide) (by decide)
  rw [sampleRing, created]
  rfl

/-- One frame pushed over the sample ring. -/
def samplePush : Option (ProducerAt × Shared) :=
  (ProducerAt.pushCopy [] (FrameDescriptor.new .pcm 7) [1, 2]).run exec
    (sampleRing.shared fun _ => none)

/-- The same frame acquired and still held. -/
def sampleHold : Option (ConsumerAt × Shared) :=
  samplePush.bind fun pushed => ConsumerAt.acquire.run exec pushed.2

theorem exactly_once_held_frame :
    ∃ c, sampleRing.Reaches 2 (fun _ => none) c ∧
      c.shared.acquired.map (·.payload) = [[1, 2]] ∧
      c.shared.failures = [] ∧ c.shared.acquired <+: c.shared.committed := by
  obtain ⟨⟨point, t⟩, pushed⟩ : ∃ out, samplePush = some out :=
    Option.isSome_iff_exists.mp (by decide +kernel)
  have held : sampleHold.map (·.2.acquired.map (·.payload)) = some [[1, 2]] ∧
      sampleHold.map (·.2.committed.length) = some 1 := by decide +kernel
  simp only [sampleHold, pushed, Option.bind_some, Option.map_eq_some_iff] at held
  obtain ⟨⟨⟨point', t'⟩, ran, payloads⟩, ⟨_, ran', one⟩⟩ := held
  obtain rfl := Option.some.inj (ran.symm.trans ran')
  have reached : sampleRing.Reaches 2 (fun _ => none) ⟨.ret point, .ret point', t'⟩ :=
    .head (.leftStart (.pushCopy _ _))
      ((left_run pushed).trans (.head (.rightStart .acquire) (right_run ran)))
  obtain ⟨clean, delivered, -⟩ := exactly_once sampleRing_created reached (by rw [one]; decide)
  exact ⟨_, reached, payloads, clean, delivered⟩

end Dorsche.Wireless.DataPlane
