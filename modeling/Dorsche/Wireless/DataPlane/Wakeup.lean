import Dorsche.Wireless.DataPlane.Delivery

/-!
No lost wakeup.

The consumer is the loop of `pump_ring_to_host` in
`src/bin/dorsche_pipewire.rs`: it acquires frames while there are any and waits
for the eventfd otherwise, without reading the eventfd for the frames it finds.
The producer is any client. The invariant that carries the proof is `Wakeful`:
whenever the consumer decides to wait, a wakeup is pending or about to be
written, or the ring is empty; every step of the producer keeps that.
-/

namespace Dorsche.Wireless.DataPlane

open Dorsche.Lib

variable {g : Geometry} {s : Shared}

/-! ### The pump -/

/-- Where the loop of `pump_ring_to_host` is. -/
inductive PumpAt where
  | top
  | waiting
  /-- The pump has returned an error. -/
  | ended

namespace PumpAt

/-- One turn of the loop; `written` is whether the socket takes the frame. The
lease is dropped on every way out. -/
def turn (written : Bool) : Ring PumpAt := do
  match ← Consumer.tryAcquire with
  | .error _ => return .ended
  | .ok none => return .waiting
  | .ok (some frame) =>
      if ¬ frame.descriptor.payloadKind = PayloadKind.pcm.toUInt8 then
        frame.drop
        return .ended
      let _ ← access (.readPayload frame.payload.offset frame.payload.len)
      frame.drop
      if written then return .top else return .ended

/-- `wait_readable`, one turn of its own loop at a time. -/
def wait : Ring PumpAt := do
  match ← Consumer.waitReadableTurn with
  | none => return .waiting
  | some (.ok ()) => return .top
  | some (.error _) => return .ended

end PumpAt

inductive PumpMenu : PumpAt → Ring PumpAt → Prop where
  | turn (written : Bool) : PumpMenu .top (PumpAt.turn written)
  | wait : PumpMenu .waiting PumpAt.wait

/-- The pump waits only where no wakeup is lost. -/
def PumpRests : PumpAt → Shared → Prop
  | .waiting, s => Wakeful s
  | .top, _ | .ended, _ => True

theorem Wakeful.unready (wakeful : Wakeful s) (ready : Bool) :
    Wakeful { s with ready := ready } := wakeful

theorem pump_rests {point : PumpAt} (rests : PumpRests point s) :
    (consumer g Wakeful).Holds PumpRests (.ret point) s := by
  apply Contract.Holds.of_ret
  intro t moves _
  cases point with
  | top => trivial
  | waiting => exact Wakeful.moved rests moves
  | ended => trivial

/-- The rest of a turn once the frame is done with. -/
theorem pump_drop {lease : FrameLease} (held : Held g lease s) {k : Unit → Ring PumpAt}
    (next : ∀ t, (consumer g Wakeful).Holds PumpRests (k ()) t) :
    (consumer g Wakeful).Holds PumpRests (lease.drop >>= k) s :=
  (consumer_drop held).bind fun _ t _ _ => next t

theorem pump_turn (written : Bool) :
    (consumer g Wakeful).Holds PumpRests (PumpAt.turn written) s := by
  unfold PumpAt.turn
  apply consumer_tryAcquire.bind
  rintro result t₁ _ ⟨_, found⟩
  match result, found with
  | .error e, _ => exact pump_rests trivial
  | .ok none, wakeful => exact pump_rests wakeful
  | .ok (some frame), held =>
      by_cases pcm : frame.descriptor.payloadKind = PayloadKind.pcm.toUInt8
      · simp only [pcm, not_true_eq_false, if_false]
        apply consumer_load (fun t => t.memory.read frame.payload.offset frame.payload.len) rfl
          (fun _ => rfl)
        intro t₂ moved₂ _
        apply pump_drop (Held.moved held moved₂)
        intro t₃
        cases written with
        | true => exact pump_rests trivial
        | false => exact pump_rests trivial
      · simp only [pcm, not_false_eq_true, if_true]
        exact pump_drop held fun t => pump_rests trivial

theorem pump_wait (wakeful : Wakeful s) :
    (consumer g Wakeful).Holds PumpRests PumpAt.wait s := by
  unfold PumpAt.wait
  apply (consumer_waitReadableTurn wakeful (fun _ _ moves wakeful => wakeful.moved moves)
    fun _ ready wakeful => wakeful.unready ready).bind
  rintro result t _ ⟨_, again⟩
  match result, again with
  | none, again => exact pump_rests (again rfl)
  | some (.ok ()), _ => exact pump_rests trivial
  | some (.error e), _ => exact pump_rests trivial

theorem pump_offers {point : PumpAt} {p : Ring PumpAt} (rests : PumpRests point s)
    (offered : PumpMenu point p) : (consumer g Wakeful).Holds PumpRests p s := by
  cases offered with
  | turn written => exact pump_turn written
  | wait => exact pump_wait rests

/-! ### Every interleaving -/

/-- The consumer is in `wait_readable`, about to wait for the eventfd. -/
def Parked (p : Ring PumpAt) : Prop := p = .ret .waiting ∨ p.head? = some .readable

/-- The consumer waits, nothing will wake it, and there are frames to read. -/
def Stalled (c : Pair Access Access.Reply ProducerAt PumpAt Shared) : Prop :=
  Parked c.right ∧ c.shared.event.counter = 0 ∧
    c.shared.memory.u64 headOffset ≠ c.shared.memory.u64 tailOffset ∧
    c.left.head? ≠ some .writeEvent

/-- A state that a producer's client and the pump can reach over a new ring. -/
def RingPair.Pumps (ring : RingPair) (payloadCapacity : UInt32)
    (faults : Nat → Option ErrorKind) (c : Pair Access Access.Reply ProducerAt PumpAt Shared) :
    Prop :=
  Relation.ReflTransGen (PairStep exec (ProducerMenu ring.mapLen payloadCapacity.toNat) PumpMenu)
    ⟨.ret (.idle []), .ret .top, ring.shared faults⟩ c

/-- Between a head store and its eventfd write the producer is at that write. -/
theorem writeEvent_of_unsignalled {p : Ring ProducerAt}
    (holds : (producer g anyLabel).Holds (ProducerRests g) p s) (inv : RingInv g s)
    (unsignalled : s.unsignalled = true) : p.head? = some .writeEvent := by
  cases p with
  | ret point =>
      have rests := holds.ret inv
      cases point with
      | idle given => exact absurd unsignalled (by simp [rests.1])
      | leased given lease slice image => exact absurd unsignalled (by simp [rests.1.quiet])
      | lost => exact rests.elim
  | act i k => exact congrArg some ((holds.act inv).1.signals unsignalled)

/-- As long as the eventfd rejects no write, no reachable state is stalled. -/
theorem no_lost_wakeup {sys : SystemCalls} {slotCount payloadCapacity : UInt32} {ring : RingPair}
    (created : RingPair.create 64 sys slotCount payloadCapacity = .ok ring)
    {faults : Nat → Option ErrorKind} {c : Pair Access Access.Reply ProducerAt PumpAt Shared}
    (reached : ring.Pumps payloadCapacity faults c) (sound : NoFaults c.shared) :
    ¬ Stalled c := by
  obtain ⟨g, -, rfl, mapLen, memory⟩ := RingPair.create_geometry created
  have left₀ : (producer g anyLabel).Holds (ProducerRests g) (.ret (.idle []))
      (ring.shared faults) := producer_rests ⟨rfl, rfl⟩
  have right₀ : (consumer g Wakeful).Holds PumpRests (.ret .top) (ring.shared faults) :=
    pump_rests trivial
  unfold RingPair.Pumps at reached
  rw [mapLen] at reached
  obtain ⟨inv, left, right⟩ := pair_invariant (producer g anyLabel) (consumer g Wakeful) rfl rfl
    (fun _ _ moves => moves) (fun _ _ moves => moves)
    (fun _ _ _ _ rests offered => producer_offers rests offered)
    (fun _ _ _ _ rests offered => pump_offers rests offered)
    reached (RingPair.ringInv faults memory) left₀ right₀
  rintro ⟨parked, silent, nonempty, unwritten⟩
  have wakeful : Wakeful c.shared := by
    rcases parked with rests | waits
    · rw [rests] at right
      exact right.ret inv
    · obtain ⟨k, acts⟩ := Prog.exists_of_head? waits
      rw [acts] at right
      exact (right.act inv).1.2 rfl
  rcases wakeful sound with pending | coming | empty
  · exact pending silent
  · exact unwritten (writeEvent_of_unsignalled left inv coming)
  · exact nonempty (inv.tail_eq_head_iff.mpr empty.symm).symm

/-- The pump finds the ring empty and goes to wait; then a frame is pushed. -/
def sampleWait : Option (PumpAt × Shared) :=
  (PumpAt.turn true).run exec (sampleRing.shared fun _ => none)

def samplePushToParked : Option (ProducerAt × Shared) :=
  sampleWait.bind fun waiting =>
    (ProducerAt.pushCopy [] (FrameDescriptor.new .pcm 7) [1, 2]).run exec waiting.2

theorem no_lost_wakeup_parked :
    ∃ c, sampleRing.Pumps 2 (fun _ => none) c ∧ Parked c.right ∧
      c.shared.memory.u64 headOffset ≠ c.shared.memory.u64 tailOffset ∧ ¬ Stalled c := by
  have waits : sampleWait.map (·.1 matches .waiting) = some true := by decide +kernel
  have pushes : samplePushToParked.map (fun out =>
      decide ((∀ i < out.2.event.writes, out.2.event.faults i = none) ∧
        out.2.memory.u64 headOffset ≠ out.2.memory.u64 tailOffset)) = some true := by decide +kernel
  obtain ⟨⟨point, t⟩, waited, isWaiting⟩ := Option.map_eq_some_iff.mp waits
  simp only [samplePushToParked, waited, Option.bind_some] at pushes
  obtain ⟨⟨point', t'⟩, pushed, outcome⟩ := Option.map_eq_some_iff.mp pushes
  obtain ⟨sound, nonempty⟩ := of_decide_eq_true outcome
  have atWait : point = .waiting := by
    cases point with
    | waiting => rfl
    | _ => cases isWaiting
  subst atWait
  have reached : sampleRing.Pumps 2 (fun _ => none) ⟨.ret point', .ret .waiting, t'⟩ :=
    .head (.rightStart (.turn true)) ((right_run waited).trans
      (.head (.leftStart (.pushCopy _ _)) (left_run pushed)))
  exact ⟨_, reached, .inl rfl, nonempty, no_lost_wakeup sampleRing_created reached sound⟩

end Dorsche.Wireless.DataPlane
