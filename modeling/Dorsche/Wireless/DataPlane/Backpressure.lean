import Dorsche.Wireless.DataPlane.Delivery

/-!
Backpressure is exact.

The producer loads its own cursor and then the consumer's, and the consumer
moves its cursor at any time. The decision of `try_reserve` is right at one
instant, that of its tail load, and so is the count of `queued_frames` at its head
load: a call is cut there, and `Leads` is a call under way. A client that counts
refusals (`CountedAt`) gets its count from `dropped_frames`.
-/

namespace Dorsche.Wireless.DataPlane

open Dorsche.Lib

variable {g : Geometry} {s s' : Shared}

/-! ### Calls cut at a load -/

/-- The consumer's client runs while the producer stands still. -/
def ConsumerRuns (mapLen : Nat) (right : Ring ConsumerAt) (s : Shared) (right' : Ring ConsumerAt)
    (s' : Shared) : Prop :=
  Relation.ReflTransGen (PairStep exec (fun (_ : Unit) _ => False) (ConsumerMenu mapLen))
    ⟨.ret (), right, s⟩ ⟨.ret (), right', s'⟩

/-- A call of the producer goes on between steps of the consumer's client. -/
def Leads {α : Type} (mapLen : Nat) (call : Ring α) (right : Ring ConsumerAt) (s : Shared)
    (call' : Ring α) (right' : Ring ConsumerAt) (s' : Shared) : Prop :=
  Relation.ReflTransGen (PairStep exec (fun (_ : α) _ => False) (ConsumerMenu mapLen))
    ⟨call, right, s⟩ ⟨call', right', s'⟩

/-- It runs to its end. -/
abbrev Returns {α : Type} (mapLen : Nat) (call : Ring α) (right : Ring ConsumerAt) (s : Shared)
    (result : α) (right' : Ring ConsumerAt) (s' : Shared) : Prop :=
  Leads mapLen call right s (.ret result) right' s'

/-- `queued_frames` after it has loaded the head. -/
def Consumer.queuedWith (head : UInt64) : Ring UInt64 := do
  let tail ← access (.loadU64 tailOffset)
  return head - tail

theorem Consumer.queuedFrames_eq : Consumer.queuedFrames = (do
    let head ← access (.loadU64 headOffset)
    Consumer.queuedWith head) := rfl

/-- A call of the consumer goes on between steps of the producer's client. -/
def ConsumerLeads {α : Type} (mapLen capacity : Nat) (left : Ring ProducerAt) (call : Ring α)
    (s : Shared) (left' : Ring ProducerAt) (call' : Ring α) (s' : Shared) : Prop :=
  Relation.ReflTransGen (PairStep exec (ProducerMenu mapLen capacity) fun (_ : α) _ => False)
    ⟨left, call, s⟩ ⟨left', call', s'⟩

/-- It runs to its end. -/
abbrev ConsumerReturns {α : Type} (mapLen capacity : Nat) (left : Ring ProducerAt) (call : Ring α)
    (s : Shared) (left' : Ring ProducerAt) (result : α) (s' : Shared) : Prop :=
  ConsumerLeads mapLen capacity left call s left' (.ret result) s'

section Cut

variable {right right' : Ring ConsumerAt} {left left' : Ring ProducerAt}

theorem consumerRuns_moves (runs : ConsumerRuns g.mapLen right s right' s') (inv : RingInv g s)
    (holds : (consumer g fun _ => True).Holds (ConsumerRests g) right s) :
    RingInv g s' ∧ ConsumerMoves s s' ∧
      (consumer g fun _ => True).Holds (ConsumerRests g) right' s' := by
  have idle : (producer g anyLabel).Holds (fun (_ : Unit) t => ConsumerMoves s t) (.ret ()) s :=
    .of_ret fun _ moves _ => moves
  obtain ⟨inv', left, right⟩ := ring_contracts (fun _ _ _ _ _ offered => offered.elim)
    (fun _ _ _ inv rests offered => consumer_offers inv rests offered) runs inv idle holds
  exact ⟨inv', left.ret inv', right⟩

/-- A call of the producer keeps its contract among the consumer's steps. -/
theorem leads_holds {α : Type} {Q : α → Shared → Prop} {call call' : Ring α}
    (leads : Leads g.mapLen call right s call' right' s') (inv : RingInv g s)
    (ensures : (producer g anyLabel).Holds Q call s)
    (holds : (consumer g fun _ => True).Holds (ConsumerRests g) right s) :
    RingInv g s' ∧ (producer g anyLabel).Holds Q call' s' := by
  obtain ⟨inv', left, -⟩ := ring_contracts (fun _ _ _ _ _ offered => offered.elim)
    (fun _ _ _ inv rests offered => consumer_offers inv rests offered) leads inv ensures holds
  exact ⟨inv', left⟩

theorem consumerLeads_holds {α : Type} {Q : α → Shared → Prop} {call call' : Ring α}
    (leads : ConsumerLeads g.mapLen g.payloadCapacity.toNat left call s left' call' s')
    (inv : RingInv g s) (holds : (producer g anyLabel).Holds (ProducerRests g) left s)
    (ensures : (consumer g fun _ => True).Holds Q call s) :
    RingInv g s' ∧ (consumer g fun _ => True).Holds Q call' s' := by
  obtain ⟨inv', -, right⟩ := ring_contracts
    (fun _ _ _ _ rests offered => producer_offers rests offered)
    (fun _ _ _ _ _ offered => offered.elim) leads inv holds ensures
  exact ⟨inv', right⟩

/-- From the head load on, `queued_frames` returns the number of frames that were
visible at that instant. -/
theorem consumer_queuedWith (inv : RingInv g s) :
    (consumer g fun _ => True).Holds
      (fun count _ => count.toNat = s.committed.length - s.released)
      (Consumer.queuedWith (s.memory.u64 headOffset)) s := by
  unfold Consumer.queuedWith
  simp only [access, Prog.perform_bind]
  apply consumer_load (fun t => t.memory.u64 tailOffset) rfl (fun _ => rfl)
  intro t moved inv'
  -- only the consumer moves the tail
  have tail : t.memory.u64 tailOffset = s.memory.u64 tailOffset := by
    rw [inv'.tail, inv.tail, moved.released]
  rw [tail]
  apply Contract.Holds.of_ret
  intro _ _ _
  exact inv.distance

end Cut

/-! ### Leased and visible slots -/

/-- Slots are given back and never taken back. -/
theorem reaches_released {ring : RingPair}
    (memory : ring.memory = (g.header 0 0 0).store fun _ => 0) (mapLen : ring.mapLen = g.mapLen)
    {faults : Nat → Option ErrorKind}
    {c c' : Pair Access Access.Reply ProducerAt ConsumerAt Shared}
    (reached : ring.Reaches g.payloadCapacity faults c)
    (later : Relation.ReflTransGen (PairStep exec
      (ProducerMenu ring.mapLen g.payloadCapacity.toNat) (ConsumerMenu ring.mapLen)) c c') :
    c.shared.released ≤ c'.shared.released := by
  induction later with
  | refl => exact le_rfl
  | tail before step ih =>
      have now : ring.Reaches g.payloadCapacity faults _ := reached.trans before
      obtain ⟨inv, left, right⟩ := RingPair.reaches_geometry memory mapLen now
      cases step with
      | leftAct ran => exact ih.trans ((left.act inv).2 _ _ ran).2.1.released.ge
      | leftStart _ => exact ih
      | rightAct ran => exact ih.trans ((right.act inv).2 _ _ ran).2.1.released
      | rightStart _ => exact ih

/-- The slot of a cursor value. -/
def Shared.slot (s : Shared) (index : UInt64) : Nat :=
  slotOffset 64 (s.memory.u32 slotCountOffset) (s.memory.u32 slotStrideOffset) index

theorem RingInv.slot_eq (inv : RingInv g s) (k : Nat) : s.slot (UInt64.ofNat k) = g.slotAt k := by
  unfold Shared.slot
  rw [inv.shaped.slotCount, inv.shaped.slotStride, g.slotOffset_ofNat]

/-- A slot leased when `n` frames were published is none of the visible ones, until
the next frame is published. -/
theorem leased_ne_visible {n k : Nat} (inv : RingInv g s) (coherent : Coherent g n)
    (room : n < s.released + g.slotCount.toNat) (published : s.committed.length = n)
    (lower : s.released ≤ k) (upper : k < n) : s.slot (UInt64.ofNat k) ≠ g.slotAt n := by
  have differ : g.slotOf k ≠ g.slotOf n := coherent k n upper (by omega) le_rfl
  have fits := g.slot_fits
  have positive : 0 < FrameDescriptor.sizeOf := by decide
  rw [inv.slot_eq]
  rcases g.slotAt_disjoint differ with before | after <;> omega

/-! ### A client that counts refusals -/

/-- A producer's client with the number of its reservations that were refused. -/
structure CountedAt where
  point : ProducerAt
  refusals : Nat

namespace CountedAt

def reserve (capacity : Nat) (given : List Frame) (n : Nat) : Ring CountedAt := do
  match ← Producer.tryReserve with
  | none => return ⟨.idle given, n + 1⟩
  | some lease =>
      let image ← access (.readPayload (lease.slot + FrameDescriptor.sizeOf) capacity)
      return ⟨.leased given lease none image, n⟩

def pushCopy (given : List Frame) (n : Nat) (descriptor : FrameDescriptor) (payload : List UInt8) :
    Ring CountedAt := do
  match ← Producer.tryPushCopy descriptor payload with
  | .ok false => return ⟨.idle given, n + 1⟩
  | .ok true | .error (.io _) =>
      return ⟨.idle (given ++ [⟨ProducerLease.stamped descriptor payload.length, payload⟩]), n⟩
  | .error (.message _) => return ⟨.idle given, n⟩

/-- A call that reserves nothing. -/
def plain (n : Nat) (p : Ring ProducerAt) : Ring CountedAt := do
  let point ← p
  return ⟨point, n⟩

end CountedAt

/-- The calls of `ProducerMenu`, counted. -/
inductive CountedMenu (mapLen capacity : Nat) : CountedAt → Ring CountedAt → Prop where
  | reserve {given n} : CountedMenu mapLen capacity ⟨.idle given, n⟩
      (CountedAt.reserve capacity given n)
  | pushCopy {given n} (descriptor payload) : CountedMenu mapLen capacity ⟨.idle given, n⟩
      (CountedAt.pushCopy given n descriptor payload)
  | move {given n} : CountedMenu mapLen capacity ⟨.idle given, n⟩
      (CountedAt.plain n (ProducerAt.move mapLen given))
  | countDropped {given n} : CountedMenu mapLen capacity ⟨.idle given, n⟩
      (CountedAt.plain n (ProducerAt.countDropped given))
  | borrow {given lease slice image n} :
      CountedMenu mapLen capacity ⟨.leased given lease slice image, n⟩
        (CountedAt.plain n (ProducerAt.borrow given lease image))
  | fill {given lease slice image start n} {bytes : List UInt8} :
      start + bytes.length ≤ slice.len →
      CountedMenu mapLen capacity ⟨.leased given lease (some slice) image, n⟩
        (CountedAt.plain n (ProducerAt.fill given lease slice image start bytes))
  | drop {given lease slice image n} :
      CountedMenu mapLen capacity ⟨.leased given lease slice image, n⟩
        (CountedAt.plain n (.ret (.idle given)))
  | commit {given lease slice image n} (descriptor payloadBytes) :
      CountedMenu mapLen capacity ⟨.leased given lease slice image, n⟩
        (CountedAt.plain n (ProducerAt.commit given lease image descriptor payloadBytes))

/-- A state that a counting producer's client and a consumer's client can reach. -/
def RingPair.CountedReaches (ring : RingPair) (payloadCapacity : UInt32)
    (faults : Nat → Option ErrorKind)
    (c : Pair Access Access.Reply CountedAt ConsumerAt Shared) : Prop :=
  Relation.ReflTransGen (PairStep exec (CountedMenu ring.mapLen payloadCapacity.toNat)
    (ConsumerMenu ring.mapLen)) ⟨.ret ⟨.idle [], 0⟩, .ret .idle, ring.shared faults⟩ c

theorem map_plain (n : Nat) (p : Ring ProducerAt) : (CountedAt.plain n p).map (·.point) = p := by
  unfold CountedAt.plain
  rw [Prog.map_bind]
  induction p with
  | ret point => rfl
  | act i k ih =>
      rw [Prog.act_bind]
      congr 1
      funext r
      exact ih r

/-- A counting client is a producer's client. -/
theorem countedMenu_map {mapLen capacity : Nat} {at_ : CountedAt} {p : Ring CountedAt}
    (offered : CountedMenu mapLen capacity at_ p) :
    ProducerMenu mapLen capacity at_.point (p.map (·.point)) := by
  cases offered with
  | @reserve given n =>
      have same : (CountedAt.reserve capacity given n).map (·.point) =
          ProducerAt.reserve capacity given := by
        unfold CountedAt.reserve ProducerAt.reserve
        rw [Prog.map_bind]
        congr 1
        funext lease
        cases lease <;> rfl
      rw [same]
      exact .reserve
  | @pushCopy given n descriptor payload =>
      have same : (CountedAt.pushCopy given n descriptor payload).map (·.point) =
          ProducerAt.pushCopy given descriptor payload := by
        unfold CountedAt.pushCopy ProducerAt.pushCopy
        rw [Prog.map_bind]
        congr 1
        funext result
        rcases result with (text | kind) | (_ | _) <;> rfl
      rw [same]
      exact .pushCopy descriptor payload
  | move => rw [map_plain]; exact .move
  | countDropped => rw [map_plain]; exact .countDropped
  | borrow => rw [map_plain]; exact .borrow
  | fill inside => rw [map_plain]; exact .fill inside
  | drop => rw [map_plain]; exact .drop
  | commit descriptor payloadBytes => rw [map_plain]; exact .commit descriptor payloadBytes

theorem RingPair.CountedReaches.reaches {ring : RingPair} {payloadCapacity : UInt32}
    {faults : Nat → Option ErrorKind} {c : Pair Access Access.Reply CountedAt ConsumerAt Shared}
    (reached : ring.CountedReaches payloadCapacity faults c) :
    ring.Reaches payloadCapacity faults ⟨c.left.map (·.point), c.right, c.shared⟩ :=
  pair_map CountedAt.point (fun _ _ offered => countedMenu_map offered) reached

def Ghost.refuses : Ghost → Nat
  | .refuse => 1
  | _ => 0

/-- How much an access adds to the refusals. -/
def Access.refuses : Access → Nat
  | .storeU64 _ _ ghost | .fetchAddU64 _ _ ghost | .note ghost => ghost.refuses
  | _ => 0

theorem record_refused (s : Shared) (ghost : Ghost) :
    (s.record ghost).refused = s.refused + ghost.refuses := by
  cases ghost <;> rfl

theorem exec_refused (i : Access) (s : Shared) (r : i.Reply) (s' : Shared)
    (ran : exec i s = some (r, s')) : s'.refused = s.refused + i.refuses := by
  cases i with
  | panic text => cases ran
  | readable =>
      simp only [exec] at ran
      split at ran
      · rw [← (Prod.mk.inj (Option.some.inj ran)).2]
        rfl
      · cases ran
  | storeU64 off value ghost =>
      rw [← (Prod.mk.inj (Option.some.inj ran)).2]
      exact record_refused s ghost
  | fetchAddU64 off delta ghost =>
      rw [← (Prod.mk.inj (Option.some.inj ran)).2]
      exact record_refused s ghost
  | note ghost =>
      rw [← (Prod.mk.inj (Option.some.inj ran)).2]
      exact record_refused s ghost
  | _ =>
      rw [← (Prod.mk.inj (Option.some.inj ran)).2]
      rfl

/-- A program that refuses no reservation. -/
abbrev Refuseless {α : Type} (p : Ring α) : Prop := p.Every (Access.refuses · = 0)

theorem refuseless_slot (index : UInt64) : Refuseless (Mapping.slot index) := by
  unfold Mapping.slot
  refine ⟨rfl, fun slotCount => ?_⟩
  by_cases zero : slotCount = 0
  · simp only [Prog.bind, zero, if_true]
    exact ⟨rfl, fun never => never.elim⟩
  · simp only [Prog.bind, zero, if_false]
    exact ⟨rfl, fun _ => trivial⟩

theorem refuseless_capacity (lease : ProducerLease) : Refuseless lease.capacity :=
  ⟨rfl, fun _ => trivial⟩

theorem refuseless_payloadMut (lease : ProducerLease) : Refuseless lease.payloadMut :=
  ⟨rfl, fun _ => trivial⟩

theorem refuseless_signalEventfd : Refuseless signalEventfd := by
  refine ⟨rfl, fun written => ?_⟩
  rcases written with (_ | _) | _ <;> exact trivial

theorem refuseless_commit (lease : ProducerLease) (descriptor : FrameDescriptor)
    (payloadBytes : Nat) : Refuseless (lease.commit descriptor payloadBytes) := by
  unfold ProducerLease.commit
  split
  · exact trivial
  · apply (refuseless_capacity lease).bind
    intro capacity
    split
    · exact trivial
    · split
      · exact trivial
      · exact ⟨rfl, fun _ => ⟨rfl, fun _ => refuseless_signalEventfd⟩⟩

theorem refuseless_fromDescriptor (mapLen : Nat) : Refuseless (fromDescriptor mapLen) := by
  refine ⟨rfl, fun magic => ⟨rfl, fun abi => ⟨rfl, fun header => ⟨rfl, fun count => ⟨rfl,
    fun stride => ?_⟩⟩⟩⟩⟩
  simp only [Prog.bind]
  split <;> exact trivial

/-- `try_reserve` counts a refusal exactly when it returns `None`. -/
theorem tallies_tryReserve (n : Nat) : Producer.tryReserve.Tallies Access.refuses
    (fun lease m => m = n + if lease = none then 1 else 0) n := by
  intro head tail slotCount
  simp only [Prog.bind]
  split
  · exact fun _ => rfl
  · apply ((refuseless_slot head).tallies _).bind
    rintro slot m rfl
    rfl

theorem tallies_tryPushCopy (descriptor : FrameDescriptor) (payload : List UInt8) (n : Nat) :
    (Producer.tryPushCopy descriptor payload).Tallies Access.refuses
      (fun result m => m = n + if result = .ok false then 1 else 0) n := by
  apply (tallies_tryReserve n).bind
  rintro lease m rfl
  cases lease with
  | none => rfl
  | some lease =>
      apply ((refuseless_capacity lease).tallies _).bind
      rintro capacity m rfl
      split
      · rfl
      · apply ((refuseless_payloadMut lease).tallies _).bind
        rintro slice m rfl
        dsimp only
        split
        · exact fun never => never.elim
        · intro _
          apply ((refuseless_commit lease descriptor payload.length).tallies _).bind
          rintro result m rfl
          rcases result with error | _ <;> rfl

/-- A client's count after a call. -/
theorem tallies_plain {p : Ring ProducerAt} (free : Refuseless p) (n : Nat) :
    (CountedAt.plain n p).Tallies Access.refuses (fun at_ m => at_.refusals = m) n := by
  apply (free.tallies n).bind
  rintro point m rfl
  rfl

theorem tallies_offers {mapLen capacity : Nat} {at_ : CountedAt} {p : Ring CountedAt}
    (offered : CountedMenu mapLen capacity at_ p) :
    p.Tallies Access.refuses (fun after m => after.refusals = m) at_.refusals := by
  cases offered with
  | reserve =>
      apply (tallies_tryReserve _).bind
      rintro lease m rfl
      cases lease with
      | none => rfl
      | some lease => exact fun _ => rfl
  | pushCopy descriptor payload =>
      apply (tallies_tryPushCopy descriptor payload _).bind
      rintro result m rfl
      rcases result with (_ | _) | (_ | _) <;> rfl
  | move =>
      apply tallies_plain
      apply (refuseless_fromDescriptor mapLen).bind
      rintro (_ | _) <;> exact trivial
  | countDropped =>
      apply tallies_plain
      exact ⟨rfl, fun _ => trivial⟩
  | borrow =>
      apply tallies_plain
      apply (refuseless_payloadMut _).bind
      exact fun _ => trivial
  | fill _ =>
      apply tallies_plain
      exact ⟨rfl, fun _ => trivial⟩
  | drop =>
      apply tallies_plain
      exact trivial
  | commit descriptor payloadBytes =>
      apply tallies_plain
      apply (refuseless_commit _ descriptor payloadBytes).bind
      rintro ((_ | _) | _) <;> exact trivial

theorem refuseless_tryAcquire : Refuseless Consumer.tryAcquire := by
  refine ⟨rfl, fun tail => ⟨rfl, fun head => ?_⟩⟩
  simp only [Prog.bind]
  split
  · exact trivial
  · apply (refuseless_slot tail).bind
    intro slot
    refine ⟨rfl, fun descriptor => ?_⟩
    simp only [Prog.bind]
    split
    · exact trivial
    · split
      · exact trivial
      · refine ⟨rfl, fun capacity => ?_⟩
        simp only [Prog.bind]
        split <;> exact trivial

/-- The consumer refuses nothing. -/
theorem refuseless_offers {mapLen : Nat} {point : ConsumerAt} {p : Ring ConsumerAt}
    (offered : ConsumerMenu mapLen point p) : Refuseless p := by
  cases offered with
  | acquire =>
      apply refuseless_tryAcquire.bind
      rintro (_ | (_ | _))
      · exact ⟨rfl, fun _ => trivial⟩
      · exact trivial
      · exact ⟨rfl, fun _ => trivial⟩
  | move =>
      apply (refuseless_fromDescriptor mapLen).bind
      rintro (_ | _) <;> exact trivial
  | countQueued => exact ⟨rfl, fun _ => ⟨rfl, fun _ => trivial⟩⟩
  | wait =>
      refine ⟨rfl, fun _ => ⟨rfl, fun value => ?_⟩⟩
      rcases value with (_ | _) | _
      · exact ⟨rfl, fun _ => trivial⟩
      · exact trivial
      · exact trivial
  | look _ => exact ⟨rfl, fun _ => trivial⟩
  | drop => exact ⟨rfl, fun _ => trivial⟩

/-! ### Exact backpressure -/

/-- The number of slots between the cursors. -/
def Shared.occupied (s : Shared) : Nat :=
  (s.memory.u64 headOffset - s.memory.u64 tailOffset).toNat

/-- Until the next frame is published, the slot of an open lease is none of those
between the cursors, and not the one of a held frame. -/
def LeaseApart (mapLen capacity : Nat)
    (c : Pair Access Access.Reply ProducerAt ConsumerAt Shared) : Prop :=
  ∀ given lease slice image, c.left = .ret (.leased given lease slice image) →
    ∀ c', Relation.ReflTransGen
        (PairStep exec (ProducerMenu mapLen capacity) (ConsumerMenu mapLen)) c c' →
      c'.shared.committed.length = c.shared.committed.length →
      (∀ i < c'.shared.occupied,
        c'.shared.slot (c'.shared.memory.u64 tailOffset + UInt64.ofNat i) ≠ lease.slot) ∧
      ∀ frame seen, c'.right = .ret (.holding frame seen) →
        frame.payloadOffset ≠ lease.slot + FrameDescriptor.sizeOf

/-- Every call of `try_reserve` from `c` on, with steps of the consumer anywhere in it,
can always run to its end, has loaded the tail when it returns, in a state `s`, and
returns `None` exactly if all slots were occupied in `s`. -/
def ReservesExactly (mapLen slotCount : Nat)
    (c : Pair Access Access.Reply ProducerAt ConsumerAt Shared) : Prop :=
  ∀ given, c.left = .ret (.idle given) →
    (∀ call right s, Leads mapLen Producer.tryReserve c.right c.shared call right s →
      ∃ result t, call.run exec s = some (result, t)) ∧
    ∀ result right' t, Returns mapLen Producer.tryReserve c.right c.shared result right' t →
      ∃ k right s, Leads mapLen Producer.tryReserve c.right c.shared
          (.act (.loadU64 tailOffset) k) right s ∧
        Returns mapLen (k (s.memory.u64 tailOffset)) right s result right' t ∧
        (result = none ↔ s.occupied = slotCount)

/-- Every call of `queued_frames` from `c` on can run to its end, has loaded the head when
it returns, in a state `s`, and returns the number of frames published and not released
in `s`. -/
def QueuedExactly (mapLen capacity : Nat)
    (c : Pair Access Access.Reply ProducerAt ConsumerAt Shared) : Prop :=
  c.right = .ret .idle →
    (∃ count t, Consumer.queuedFrames.run exec c.shared = some (count, t)) ∧
    ∀ left' count t,
      ConsumerReturns mapLen capacity c.left Consumer.queuedFrames c.shared left' count t →
      ∃ k left s, ConsumerLeads mapLen capacity c.left Consumer.queuedFrames c.shared left
          (.act (.loadU64 headOffset) k) s ∧
        ConsumerReturns mapLen capacity left (k (s.memory.u64 headOffset)) s left' count t ∧
        count.toNat = s.committed.length - s.released

/-- Every call of `dropped_frames` from `c` on can run to its end, and returns the number
of refusals its client has had. -/
def DroppedExactly (mapLen : Nat)
    (c : Pair Access Access.Reply CountedAt ConsumerAt Shared) : Prop :=
  ∀ at_, c.left = .ret at_ →
    (∃ count t, Producer.droppedFrames.run exec c.shared = some (count, t)) ∧
    ∀ count right' t, Returns mapLen Producer.droppedFrames c.right c.shared count right' t →
      count = UInt64.ofNat at_.refusals

section Exact

variable {ring : RingPair} {faults : Nat → Option ErrorKind}
variable {c : Pair Access Access.Reply ProducerAt ConsumerAt Shared}

theorem occupied_le (inv : RingInv g s) : s.occupied ≤ g.slotCount.toNat := by
  have := inv.length_le
  unfold Shared.occupied
  rw [inv.distance]
  omega

theorem full_iff_occupied (inv : RingInv g s) :
    s.released + g.slotCount.toNat ≤ s.committed.length ↔ s.occupied = g.slotCount.toNat := by
  have most := occupied_le inv
  rw [← inv.full]
  unfold Shared.occupied at most ⊢
  omega

theorem leaseApart (memory : ring.memory = (g.header 0 0 0).store fun _ => 0)
    (mapLen : ring.mapLen = g.mapLen) (reached : ring.Reaches g.payloadCapacity faults c)
    (few : c.shared.committed.length < 2 ^ 64) :
    LeaseApart ring.mapLen g.payloadCapacity.toNat c := by
  intro given lease slice image leasing c' later published
  obtain ⟨inv, left, -⟩ := RingPair.reaches_geometry memory mapLen reached
  obtain ⟨inv', -, right'⟩ := RingPair.reaches_geometry memory mapLen (reached.trans later)
  rw [leasing] at left
  have leased : Leased g lease c.shared := (left.ret inv).1
  have released := reaches_released memory mapLen reached later
  have room : c.shared.committed.length < c'.shared.released + g.slotCount.toNat :=
    leased.room.trans_le (Nat.add_le_add_right released _)
  have apart {k : Nat} (lower : c'.shared.released ≤ k) (upper : k < c.shared.committed.length) :=
    leased_ne_visible inv' (coherent_of_lt few) room published lower upper
  rw [leased.slot]
  constructor
  · intro i inside
    unfold Shared.occupied at inside
    rw [inv'.distance] at inside
    rw [inv'.tail, ← UInt64.ofNat_add]
    exact apart (Nat.le_add_right _ _) (by omega)
  · intro frame seen holding
    rw [holding] at right'
    have held : Held g frame c'.shared := (right'.ret inv').1
    have nonempty := held.nonempty
    have differ := apart le_rfl (by omega)
    rw [inv'.slot_eq] at differ
    rw [held.payloadOffset]
    unfold Geometry.payloadAt
    omega

theorem reservesExactly (memory : ring.memory = (g.header 0 0 0).store fun _ => 0)
    (mapLen : ring.mapLen = g.mapLen) (reached : ring.Reaches g.payloadCapacity faults c) :
    ReservesExactly ring.mapLen g.slotCount.toNat c := by
  intro given idle
  obtain ⟨inv, left, holds⟩ := RingPair.reaches_geometry memory mapLen reached
  rw [idle] at left
  have quiet : c.shared.unsignalled = false := (left.ret inv).1
  rw [mapLen]
  constructor
  · intro call right s leads
    obtain ⟨inv', going⟩ := leads_holds leads inv (producer_tryReserve quiet) holds
    obtain ⟨result, t, ran, -⟩ := going.run inv' fun _ _ safe => safe.runs
    exact ⟨result, t, ran⟩
  · intro result right' t returns
    rw [Producer.tryReserve_eq] at returns ⊢
    -- steps of the consumer, the head load, and again
    obtain ⟨right₀, s₀, head, _, runs₀, loads, rest⟩ := left_first returns
    obtain ⟨rfl, rfl⟩ := Prod.mk.inj (Option.some.inj loads)
    obtain ⟨right₁, s₁, tail, _, runs₁, loads, rest⟩ := left_first rest
    obtain ⟨rfl, rfl⟩ := Prod.mk.inj (Option.some.inj loads)
    obtain ⟨inv₀, moves₀, holds₀⟩ := consumerRuns_moves runs₀ inv holds
    obtain ⟨inv₁, moves₁, holds₁⟩ := consumerRuns_moves runs₁ inv₀ holds₀
    refine ⟨_, right₁, s₁, ?_, rest, ?_⟩
    · exact (beside_left runs₀ _).trans (.head (.leftAct rfl) (beside_left runs₁ _))
    · have quiet₁ : s₁.unsignalled = false :=
        (moves₁.unsignalled.trans moves₀.unsignalled).trans quiet
      -- only the producer moves the head
      have same : s₀.memory.u64 headOffset = s₁.memory.u64 headOffset := by
        rw [inv₀.head, inv₁.head, moves₁.committed]
      rw [same] at rest
      obtain ⟨inv', reserved⟩ := leads_holds rest inv₁ (producer_reserveWith inv₁ quiet₁) holds₁
      rw [(reserved.ret inv').full]
      exact full_iff_occupied inv₁

theorem queuedExactly (memory : ring.memory = (g.header 0 0 0).store fun _ => 0)
    (mapLen : ring.mapLen = g.mapLen) (reached : ring.Reaches g.payloadCapacity faults c) :
    QueuedExactly ring.mapLen g.payloadCapacity.toNat c := by
  intro idle
  obtain ⟨inv, holds, -⟩ := RingPair.reaches_geometry memory mapLen reached
  constructor
  · exact ⟨_, _, rfl⟩
  · intro left' count t returns
    rw [Consumer.queuedFrames_eq] at returns ⊢
    obtain ⟨left₁, s₁, head, _, runs, loads, rest⟩ := right_first returns
    obtain ⟨rfl, rfl⟩ := Prod.mk.inj (Option.some.inj loads)
    -- the producer's steps up to the load, beside a consumer that rests
    have reached₁ : ring.Reaches g.payloadCapacity faults ⟨left₁, c.right, s₁⟩ :=
      reached.trans (beside_right runs c.right)
    obtain ⟨inv₁, holds₁, -⟩ := RingPair.reaches_geometry memory mapLen reached₁
    refine ⟨_, left₁, s₁, beside_right runs _, rest, ?_⟩
    rw [mapLen] at rest
    obtain ⟨inv', counted⟩ := consumerLeads_holds rest inv₁ holds₁ (consumer_queuedWith inv₁)
    exact counted.ret inv'

/-- The count of a counting client between two calls. -/
theorem counted_refusals {c : Pair Access Access.Reply CountedAt ConsumerAt Shared}
    {payloadCapacity : UInt32} (reached : ring.CountedReaches payloadCapacity faults c)
    {at_ : CountedAt} (between : c.left = .ret at_) : at_.refusals = c.shared.refused := by
  have left₀ : (Prog.ret ⟨.idle [], 0⟩ : Ring CountedAt).Tallies Access.refuses
      (fun at_ n => at_.refusals = n) (ring.shared faults).refused := rfl
  have offers (at_ : CountedAt) (p : Ring CountedAt) (n : Nat) (same : at_.refusals = n)
      (offered : CountedMenu ring.mapLen payloadCapacity.toNat at_ p) :
      p.Tallies Access.refuses (fun at_ n => at_.refusals = n) n := by
    rw [← same]
    exact tallies_offers offered
  have tallied := (pair_tally exec_refused offers (fun _ _ offered => refuseless_offers offered)
    reached left₀ trivial).1
  rw [between] at tallied
  exact tallied

theorem droppedExactly {c : Pair Access Access.Reply CountedAt ConsumerAt Shared}
    (memory : ring.memory = (g.header 0 0 0).store fun _ => 0) (mapLen : ring.mapLen = g.mapLen)
    (reached : ring.CountedReaches g.payloadCapacity faults c) :
    DroppedExactly ring.mapLen c := by
  intro at_ between
  refine ⟨⟨_, _, rfl⟩, fun count right' t returns => ?_⟩
  obtain ⟨inv, -, holds⟩ := RingPair.reaches_geometry memory mapLen reached.reaches
  obtain ⟨right₁, s₁, dropped, _, runs, loads, rest⟩ := left_first returns
  obtain ⟨rfl, rfl⟩ := Prod.mk.inj (Option.some.inj loads)
  rw [mapLen] at runs
  obtain ⟨inv₁, moves, -⟩ := consumerRuns_moves runs inv holds
  have same : count = s₁.memory.u64 droppedOffset :=
    left_ends (Q := (· = s₁.memory.u64 droppedOffset)) (fun _ _ _ offered => offered.elim) rest rfl
  rw [same, inv₁.dropped, moves.refused, counted_refusals reached between]

end Exact

/-- Backpressure is exact in every interleaving: between the cursors there are never
more frames than slots, an open lease is apart from them, `try_reserve` refuses exactly
when no slot is free at its tail load, `queued_frames` returns the number of frames
published and not released, and `dropped_frames` the number of refusals. -/
theorem backpressure_exact {sys : SystemCalls} {slotCount payloadCapacity : UInt32}
    {ring : RingPair} (created : RingPair.create 64 sys slotCount payloadCapacity = .ok ring)
    (faults : Nat → Option ErrorKind) :
    (∀ c, ring.Reaches payloadCapacity faults c → c.shared.committed.length < 2 ^ 64 →
      c.shared.occupied ≤ slotCount.toNat ∧
      LeaseApart ring.mapLen payloadCapacity.toNat c ∧
      ReservesExactly ring.mapLen slotCount.toNat c ∧
      QueuedExactly ring.mapLen payloadCapacity.toNat c) ∧
    ∀ c, ring.CountedReaches payloadCapacity faults c → DroppedExactly ring.mapLen c := by
  obtain ⟨g, rfl, rfl, mapLen, memory⟩ := RingPair.create_geometry created
  constructor
  · intro c reached few
    obtain ⟨inv, -, -⟩ := RingPair.reaches_geometry memory mapLen reached
    exact ⟨occupied_le inv, leaseApart memory mapLen reached few,
      reservesExactly memory mapLen reached, queuedExactly memory mapLen reached⟩
  · intro c reached
    exact droppedExactly memory mapLen reached

/-- Push a copy from a counting client without a lease. -/
def CountedAt.push (payload : List UInt8) : CountedAt × Shared → Option (CountedAt × Shared)
  | (⟨.idle given, n⟩, s) =>
      (CountedAt.pushCopy given n (FrameDescriptor.new .pcm 0) payload).run exec s
  | _ => none

theorem CountedAt.push_reaches {ring : RingPair} {payloadCapacity : UInt32}
    {faults : Nat → Option ErrorKind} {at_ at' : CountedAt} {right : Ring ConsumerAt}
    {payload : List UInt8}
    (reached : ring.CountedReaches payloadCapacity faults ⟨.ret at_, right, s⟩)
    (pushed : CountedAt.push payload (at_, s) = some (at', s')) :
    ring.CountedReaches payloadCapacity faults ⟨.ret at', right, s'⟩ := by
  obtain ⟨point, n⟩ := at_
  cases point with
  | idle given =>
      have ran : (CountedAt.pushCopy given n (FrameDescriptor.new .pcm 0) payload).run exec s =
          some (at', s') := pushed
      have start : PairStep exec (CountedMenu ring.mapLen payloadCapacity.toNat)
          (ConsumerMenu ring.mapLen) ⟨.ret ⟨.idle given, n⟩, right, s⟩
          ⟨CountedAt.pushCopy given n (FrameDescriptor.new .pcm 0) payload, right, s⟩ :=
        .leftStart (.pushCopy _ _)
      exact reached.trans (.head start (left_run ran))
  | leased given lease slice image => cases pushed
  | lost => cases pushed

/-- Three pushes into the sample ring. -/
def threePushes : Option (CountedAt × Shared) :=
  (CountedAt.push [1, 2] (⟨.idle [], 0⟩, sampleRing.shared fun _ => none)).bind fun first =>
    (CountedAt.push [3, 4] first).bind (CountedAt.push [5, 6])

/-- Two frames fill the two slots; the third push is refused and counted. In that state
another reservation is refused, two frames are queued, and one was dropped. -/
theorem backpressure_exact_full_ring :
    ∃ (c : Pair Access Access.Reply CountedAt ConsumerAt Shared) (at_ : CountedAt),
      sampleRing.CountedReaches 2 (fun _ => none) c ∧ c.left = .ret at_ ∧ at_.refusals = 1 ∧
      c.shared.occupied = 2 ∧
      (Producer.tryReserve.run exec c.shared).map Prod.fst = some none ∧
      (Consumer.queuedFrames.run exec c.shared).map Prod.fst = some 2 ∧
      (Producer.droppedFrames.run exec c.shared).map Prod.fst = some 1 ∧
      DroppedExactly sampleRing.mapLen c ∧
      ReservesExactly sampleRing.mapLen 2 ⟨c.left.map (·.point), c.right, c.shared⟩ ∧
      QueuedExactly sampleRing.mapLen 2 ⟨c.left.map (·.point), c.right, c.shared⟩ := by
  have counts : threePushes.map
      (fun out => (out.1.refusals, out.2.occupied, out.2.committed.length)) = some (1, 2, 2) := by
    decide +kernel
  have calls : threePushes.map (fun out => ((Producer.tryReserve.run exec out.2).map Prod.fst,
      (Consumer.queuedFrames.run exec out.2).map Prod.fst,
      (Producer.droppedFrames.run exec out.2).map Prod.fst)) =
      some (some none, some 2, some 1) := by
    decide +kernel
  obtain ⟨⟨at_, t⟩, ran, counts⟩ := Option.map_eq_some_iff.mp counts
  rw [ran] at calls
  simp only [Prod.mk.injEq] at counts
  simp only [Option.map_some, Option.some.injEq, Prod.mk.injEq] at calls
  obtain ⟨one, full, two⟩ := counts
  obtain ⟨refused, queued, dropped⟩ := calls
  obtain ⟨⟨at₁, s₁⟩, first, ran⟩ := Option.bind_eq_some_iff.mp ran
  obtain ⟨⟨at₂, s₂⟩, second, third⟩ := Option.bind_eq_some_iff.mp ran
  have reached : sampleRing.CountedReaches 2 (fun _ => none) ⟨.ret at_, .ret .idle, t⟩ :=
    CountedAt.push_reaches
      (CountedAt.push_reaches (CountedAt.push_reaches .refl first) second) third
  have exact_ := backpressure_exact sampleRing_created fun _ => none
  have few : t.committed.length < 2 ^ 64 := by
    rw [two]
    decide
  obtain ⟨-, -, reserves, queues⟩ := exact_.1 _ reached.reaches few
  exact ⟨_, at_, reached, rfl, one, full, refused, queued, dropped, exact_.2 _ reached, reserves,
    queues⟩

end Dorsche.Wireless.DataPlane
