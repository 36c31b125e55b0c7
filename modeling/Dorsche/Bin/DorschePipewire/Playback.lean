import Dorsche.Wireless.DataPlane.Wakeup
import Dorsche.Wireless.PipeWire.Balance

/-!
Playback end to end: from the quanta PipeWire hands to `run_sink`, through the
ring, to the octets `pump_ring_to_host` writes to the socket of Floss.

The two ends run in two threads. The callback side keeps the ledger of
`Wireless.PipeWire.Balance`, here without its assumptions: a quantum may be larger
than a slot, and an eventfd write may fail. The pump writes a payload in pieces of
any size; a write may fail at any piece, and the `select!` with Ctrl-C may drop the
future at any `await`. A control point of the pump carries every octet that the
socket has taken.
-/

namespace Dorsche.Bin.DorschePipewire

open Dorsche.Lib Dorsche.Wireless Dorsche.Wireless.DataPlane
open Dorsche.Wireless.PipeWire (Quantum SinkAt LedgerMenu Processed quantaOf quantum sinkFrame
  producer_process)

variable {g : Geometry} {s s' : Shared} {pcm : PcmConfiguration} {capacity : Nat}

/-! ### The pump -/

/-- Why `pump_ring_to_host` is over. -/
inductive HostEnd where
  | acquire (error : RingError)
  | notPcm
  | write
  | wait (error : RingError)
  /-- The `select!` has dropped the future. -/
  | dropped

/-- Where `pump_ring_to_host` is: at the top of its loop, in `wait_readable`, in
`write_all` with `sent` octets of the frame taken by the socket, or at its end. -/
inductive HostAt where
  | top (written : List UInt8)
  | waiting (written : List UInt8)
  | writing (frame : FrameLease) (sent : Nat) (written : List UInt8)
  | ended (reason : HostEnd) (written : List UInt8)

namespace HostAt

/-- Everything the socket has taken. -/
def written : HostAt → List UInt8
  | .top written | .waiting written | .writing _ _ written | .ended _ written => written

/-- `try_acquire` and the check of the kind. -/
def take (written : List UInt8) : DataPlane.Ring HostAt := do
  match ← Consumer.tryAcquire with
  | .error error => return .ended (.acquire error) written
  | .ok none => return .waiting written
  | .ok (some frame) =>
      if ¬ frame.descriptor.payloadKind = PayloadKind.pcm.toUInt8 then
        frame.drop
        return .ended .notPcm written
      return .writing frame 0 written

/-- One `write` of `write_all`, of which the socket takes `count` octets. -/
def write (frame : FrameLease) (sent count : Nat) (written : List UInt8) :
    DataPlane.Ring HostAt := do
  let octets ← access (.readPayload (frame.payload.offset + sent) count)
  return .writing frame (sent + count) (written ++ octets)

/-- The end of a turn drops the lease. -/
def finish (frame : FrameLease) (written : List UInt8) : DataPlane.Ring HostAt := do
  frame.drop
  return .top written

/-- An end inside `write_all` drops it as well. -/
def abandon (frame : FrameLease) (reason : HostEnd) (written : List UInt8) :
    DataPlane.Ring HostAt := do
  frame.drop
  return .ended reason written

/-- One turn of `wait_readable`. -/
def wait (written : List UInt8) : DataPlane.Ring HostAt := do
  match ← Consumer.waitReadableTurn with
  | none => return .waiting written
  | some (.ok ()) => return .top written
  | some (.error error) => return .ended (.wait error) written

end HostAt

/-- What can happen next. -/
inductive HostMenu : HostAt → DataPlane.Ring HostAt → Prop where
  | take {written} : HostMenu (.top written) (HostAt.take written)
  | write {frame sent written} (count) : 0 < count → sent + count ≤ frame.payload.len →
      HostMenu (.writing frame sent written) (HostAt.write frame sent count written)
  | finish {frame sent written} : sent = frame.payload.len →
      HostMenu (.writing frame sent written) (HostAt.finish frame written)
  | fail {frame sent written} : sent < frame.payload.len →
      HostMenu (.writing frame sent written) (HostAt.abandon frame .write written)
  | drop {frame sent written} : sent < frame.payload.len →
      HostMenu (.writing frame sent written) (HostAt.abandon frame .dropped written)
  | wait {written} : HostMenu (.waiting written) (HostAt.wait written)
  | cancel {written} : HostMenu (.waiting written) (.ret (.ended .dropped written))

/-! ### The pump between two steps -/

/-- The octets of some frames in a row. -/
def octetsOf (frames : List Frame) : List UInt8 := frames.flatMap (·.payload)

theorem octetsOf_mono {frames more : List Frame} (pre : frames <+: more) :
    octetsOf frames <+: octetsOf more := by
  obtain ⟨rest, rfl⟩ := pre
  exact ⟨octetsOf rest, List.flatMap_append.symm⟩

/-- The octets of the frames given back. -/
def givenBack (s : Shared) : List UInt8 := octetsOf (s.committed.take s.released)

theorem givenBack_initial (s : Shared) : givenBack s <+: octetsOf s.committed :=
  octetsOf_mono (List.take_prefix _ _)

/-- The frame at the tail has been written up to `sent`. -/
def Partly (written : List UInt8) (len sent : Nat) (s : Shared) : Prop :=
  ∃ f, s.committed[s.released]? = some f ∧ f.payload.length = len ∧
    written = givenBack s ++ f.payload.take sent

/-- How the pump came to its end. -/
def HostEnd.Explained (reason : HostEnd) (s : Shared) : Prop :=
  match reason with
  | .acquire _ => False
  | .notPcm => ∃ f ∈ s.committed, f.descriptor.payloadKind ≠ PayloadKind.pcm.toUInt8
  | .write | .wait _ | .dropped => True

/-- What holds of the pump between two steps. -/
def HostRests (g : Geometry) : HostAt → Shared → Prop
  | .top written, s => Coherent g s.committed.length → written = givenBack s
  | .waiting written, s => Wakeful s ∧ (Coherent g s.committed.length → written = givenBack s)
  | .writing frame sent written, s => Held g frame s ∧ sent ≤ frame.payload.len ∧
      (Coherent g s.committed.length → Partly written frame.payload.len sent s)
  | .ended reason written, s => Coherent g s.committed.length →
      written <+: octetsOf s.committed ∧ reason.Explained s

theorem givenBack_moved (inv : RingInv g s) (moves : ProducerMoves s s') :
    givenBack s' = givenBack s := by
  unfold givenBack
  rw [moves.released, take_of_prefix moves.committed inv.released_le]

theorem Partly.moved {written : List UInt8} {len sent : Nat} (partly : Partly written len sent s)
    (inv : RingInv g s) (moves : ProducerMoves s s') : Partly written len sent s' := by
  obtain ⟨f, is, size, octets⟩ := partly
  obtain ⟨inside, rfl⟩ := List.getElem?_eq_some_iff.mp is
  refine ⟨_, ?_, size, ?_⟩
  · rw [moves.released]
    exact List.prefix_iff_getElem?.mp moves.committed _ inside
  · rw [givenBack_moved inv moves, octets]

theorem Partly.initial {written : List UInt8} {len sent : Nat}
    (partly : Partly written len sent s) :
    written <+: octetsOf s.committed := by
  obtain ⟨f, is, -, rfl⟩ := partly
  obtain ⟨inside, rfl⟩ := List.getElem?_eq_some_iff.mp is
  have next : s.committed.take (s.released + 1) =
      s.committed.take s.released ++ [s.committed[s.released]] :=
    List.take_succ_eq_append_getElem inside
  refine List.IsPrefix.trans ?_ (octetsOf_mono (List.take_prefix (s.released + 1) s.committed))
  rw [next]
  simp only [octetsOf, givenBack, List.flatMap_append, List.flatMap_singleton]
  exact (List.prefix_append_right_inj _).mpr (List.take_prefix _ _)

theorem HostEnd.Explained.mono {reason : HostEnd} (explained : reason.Explained s)
    (longer : s.committed <+: s'.committed) : reason.Explained s' := by
  cases reason with
  | acquire error => exact explained
  | notPcm =>
      obtain ⟨f, mem, other⟩ := explained
      exact ⟨f, longer.subset mem, other⟩
  | write | wait error | dropped => trivial

theorem HostRests.moved {point : HostAt} (rests : HostRests g point s) (inv : RingInv g s)
    (moves : ProducerMoves s s') : HostRests g point s' := by
  have earlier (coherent : Coherent g s'.committed.length) : Coherent g s.committed.length :=
    coherent.mono moves.committed.length_le
  cases point with
  | top written =>
      intro coherent
      rw [givenBack_moved inv moves]
      exact rests (earlier coherent)
  | waiting written =>
      refine ⟨rests.1.moved moves, fun coherent => ?_⟩
      rw [givenBack_moved inv moves]
      exact rests.2 (earlier coherent)
  | writing frame sent written =>
      exact ⟨rests.1.moved moves, rests.2.1, fun coherent =>
        (rests.2.2 (earlier coherent)).moved inv moves⟩
  | ended reason written =>
      intro coherent
      obtain ⟨pre, explained⟩ := rests (earlier coherent)
      exact ⟨pre.trans (octetsOf_mono moves.committed), explained.mono moves.committed⟩

theorem host_rests {point : HostAt} (inv : RingInv g s) (rests : HostRests g point s) :
    (consumer g Wakeful).Holds (HostRests g) (.ret point) s :=
  .of_ret fun _ moves _ => rests.moved inv moves

/-- A frame that is given up was written in part. -/
theorem host_abandon {frame : FrameLease} {written : List UInt8} {reason : HostEnd}
    (held : Held g frame s)
    (known : Coherent g s.committed.length →
      written <+: octetsOf s.committed ∧ reason.Explained s) :
    (consumer g Wakeful).Holds (HostRests g) (HostAt.abandon frame reason written) s := by
  unfold HostAt.abandon
  apply (consumer_drop held).bind
  rintro _ t inv ⟨longer, -, -⟩
  apply host_rests inv
  intro coherent
  obtain ⟨pre, explained⟩ := known (coherent.mono longer.length_le)
  exact ⟨pre.trans (octetsOf_mono longer), explained.mono longer⟩

theorem host_take {written : List UInt8} (inv : RingInv g s)
    (rests : HostRests g (.top written) s) :
    (consumer g Wakeful).Holds (HostRests g) (HostAt.take written) s := by
  unfold HostAt.take
  apply consumer_tryAcquire.bind
  rintro result t₁ inv₁ ⟨moved₁, found⟩
  have rests₁ : HostRests g (.top written) t₁ := rests.moved inv moved₁
  match result, found with
  | .error error, incoherent =>
      apply host_rests inv₁
      exact fun coherent => absurd coherent incoherent
  | .ok none, wakeful => exact host_rests inv₁ ⟨wakeful, rests₁⟩
  | .ok (some frame), held =>
      have front (coherent : Coherent g t₁.committed.length) :=
        Held.payload_eq held inv₁ coherent
      by_cases kind : frame.descriptor.payloadKind = PayloadKind.pcm.toUInt8
      · simp only [kind, not_true_eq_false, if_false]
        apply host_rests inv₁
        refine ⟨held, Nat.zero_le _, fun coherent => ⟨_, front coherent, by simp, ?_⟩⟩
        rw [rests₁ coherent, List.take_zero, List.append_nil]
      · simp only [kind, not_false_eq_true, if_true]
        apply host_abandon held
        intro coherent
        refine ⟨?_, _, List.mem_of_getElem? (front coherent), kind⟩
        rw [rests₁ coherent]
        exact givenBack_initial t₁

theorem host_write {frame : FrameLease} {sent count : Nat} {written : List UInt8}
    (inv : RingInv g s) (rests : HostRests g (.writing frame sent written) s)
    (inside : sent + count ≤ frame.payload.len) :
    (consumer g Wakeful).Holds (HostRests g) (HostAt.write frame sent count written) s := by
  unfold HostAt.write
  simp only [access, Prog.perform_bind]
  apply consumer_load (fun t => t.memory.read (frame.payload.offset + sent) count) rfl
    (fun _ => rfl)
  intro t moved invT
  obtain ⟨held, -, partly⟩ : HostRests g (.writing frame sent written) t := rests.moved inv moved
  apply host_rests invT
  refine ⟨held, inside, fun coherent => ?_⟩
  obtain ⟨f, is, size, octets⟩ := partly coherent
  have front := held.payload_eq invT coherent
  obtain rfl := Option.some.inj (is.symm.trans front)
  refine ⟨_, is, size, ?_⟩
  -- the next `count` octets of the payload come after the `sent` ones
  rw [octets, List.append_assoc, List.take_add, Memory.read_part inside]

theorem host_finish {frame : FrameLease} {written : List UInt8}
    (rests : HostRests g (.writing frame frame.payload.len written) s) :
    (consumer g Wakeful).Holds (HostRests g) (HostAt.finish frame written) s := by
  obtain ⟨held, -, partly⟩ := rests
  unfold HostAt.finish
  apply (consumer_drop held).bind
  rintro _ t inv ⟨longer, released, -⟩
  apply host_rests inv
  intro coherent
  obtain ⟨f, is, size, octets⟩ := partly (coherent.mono longer.length_le)
  obtain ⟨bound, rfl⟩ := List.getElem?_eq_some_iff.mp is
  unfold givenBack at octets ⊢
  rw [octets, released, take_of_prefix longer bound, List.take_succ_eq_append_getElem bound,
    ← size, List.take_length]
  simp only [octetsOf, List.flatMap_append, List.flatMap_singleton]

theorem host_wait {written : List UInt8} (inv : RingInv g s)
    (rests : HostRests g (.waiting written) s) :
    (consumer g Wakeful).Holds (HostRests g) (HostAt.wait written) s := by
  obtain ⟨wakeful, all⟩ := rests
  unfold HostAt.wait
  apply (consumer_waitReadableTurn wakeful (fun _ _ moves wakeful => wakeful.moved moves)
    fun _ ready wakeful => wakeful.unready ready).bind
  rintro result t invT ⟨idles, again⟩
  have same (coherent : Coherent g t.committed.length) : written = givenBack t := by
    unfold givenBack
    rw [idles.released, take_of_prefix idles.committed inv.released_le]
    exact all (coherent.mono idles.committed.length_le)
  match result, again with
  | none, again => exact host_rests invT ⟨again rfl, same⟩
  | some (.ok ()), _ => exact host_rests invT same
  | some (.error error), _ =>
      apply host_rests invT
      intro coherent
      rw [same coherent]
      exact ⟨givenBack_initial t, trivial⟩

theorem host_offers {point : HostAt} {p : DataPlane.Ring HostAt} (inv : RingInv g s)
    (rests : HostRests g point s) (offered : HostMenu point p) :
    (consumer g Wakeful).Holds (HostRests g) p s := by
  cases offered with
  | take => exact host_take inv rests
  | write count _ inside => exact host_write inv rests inside
  | finish whole =>
      subst whole
      exact host_finish rests
  | fail short | drop short =>
      exact host_abandon rests.1 fun coherent => ⟨(rests.2.2 coherent).initial, trivial⟩
  | wait => exact host_wait inv rests
  | cancel =>
      apply host_rests inv
      intro coherent
      rw [rests.2 coherent]
      exact ⟨givenBack_initial s, trivial⟩

/-! ### The callbacks -/

/-- What became of the quanta, in the order of the calls: the next frame, an increment
of the drop counter, or, for one that is larger than a slot, nothing. -/
inductive Settles (pcm : PcmConfiguration) (capacity : Nat) :
    List Quantum → List Frame → Nat → Prop where
  | nothing : Settles pcm capacity [] [] 0
  | published {quanta frames dropped} (quantum : Quantum) (sequence : UInt64) :
      Settles pcm capacity quanta frames dropped →
      Settles pcm capacity (quanta ++ [quantum])
        (frames ++ [sinkFrame pcm sequence quantum.captureTimeNs quantum.octets]) dropped
  | dropped {quanta frames dropped} (quantum : Quantum) :
      Settles pcm capacity quanta frames dropped →
      Settles pcm capacity (quanta ++ [quantum]) frames (dropped + 1)
  | givenUp {quanta frames dropped} (quantum : Quantum) : capacity < quantum.octets.length →
      Settles pcm capacity quanta frames dropped →
      Settles pcm capacity (quanta ++ [quantum]) frames dropped

namespace Settles

variable {quanta : List Quantum} {frames : List Frame} {dropped : Nat}

theorem isPcm (settles : Settles pcm capacity quanta frames dropped) (f : Frame)
    (mem : f ∈ frames) : f.descriptor.payloadKind = PayloadKind.pcm.toUInt8 := by
  induction settles with
  | nothing => cases mem
  | published quantum sequence _ ih =>
      rcases List.mem_append.mp mem with earlier | last
      · exact ih earlier
      · rw [List.mem_singleton.mp last]
        rfl
  | dropped quantum _ ih => exact ih mem
  | givenUp quantum _ _ ih => exact ih mem

/-- What is in the ring comes from PipeWire, in order and at most once. -/
theorem sublist (settles : Settles pcm capacity quanta frames dropped) :
    (frames.map (·.payload)).Sublist (quanta.map (·.octets)) := by
  induction settles with
  | nothing => exact .slnil
  | published quantum sequence _ ih =>
      rw [List.map_append, List.map_append]
      exact ih.append (List.Sublist.refl _)
  | dropped quantum _ ih | givenUp quantum _ _ ih =>
      rw [List.map_append]
      exact ih.trans (List.sublist_append_left _ _)

/-- With no quantum larger than a slot and none counted, nothing is lost. -/
theorem whole (settles : Settles pcm capacity quanta frames dropped) (none : dropped = 0)
    (fits : ∀ quantum ∈ quanta, quantum.octets.length ≤ capacity) :
    frames.map (·.payload) = quanta.map (·.octets) := by
  induction settles with
  | nothing => rfl
  | published quantum sequence _ ih =>
      obtain ⟨earlier, -⟩ := List.forall_mem_append.mp fits
      rw [List.map_append, List.map_append, ih none earlier]
      rfl
  | dropped quantum _ _ => cases none
  | givenUp quantum large _ _ =>
      have small := (List.forall_mem_append.mp fits).2 quantum (List.mem_singleton_self _)
      omega

end Settles

/-- What holds of the sink between two calls. -/
structure SettleRests (g : Geometry) (pcm : PcmConfiguration) (point : SinkAt) (s : Shared) :
    Prop where
  quiet : s.unsignalled = false
  settles : Settles pcm g.payloadCapacity.toNat point.quanta s.committed s.refused

theorem settle_rests {point : SinkAt} (rests : SettleRests g pcm point s) :
    (producer g anyLabel).Holds (SettleRests g pcm) (.ret point) s := by
  refine .of_ret fun t moves _ => ⟨moves.unsignalled.trans rests.quiet, ?_⟩
  rw [moves.committed, moves.refused]
  exact rests.settles

theorem settle_process {point : SinkAt} (rests : SettleRests g pcm point s)
    (buffer : Option (List PipeWire.SpaData)) (captureTimeNs : UInt64) :
    (producer g anyLabel).Holds (SettleRests g pcm)
      (point.process pcm buffer captureTimeNs) s := by
  unfold SinkAt.process
  apply (producer_process rests.quiet buffer fun _ _ _ _ _ => trivial).bind
  rintro next t _ ⟨quiet, -, processed⟩
  apply settle_rests
  refine ⟨quiet, ?_⟩
  unfold quantaOf
  cases found : quantum buffer with
  | none =>
      rw [found] at processed
      cases processed with
      | skipped committed refused _ =>
          rw [committed, refused]
          simpa using rests.settles
  | some octets =>
      rw [found] at processed
      cases processed with
      | refused _ committed refused _ =>
          rw [committed, refused]
          exact rests.settles.dropped ⟨octets, captureTimeNs⟩
      | oversized large _ committed refused _ =>
          rw [committed, refused]
          exact rests.settles.givenUp ⟨octets, captureTimeNs⟩ large
      | published _ _ committed refused _ _ =>
          rw [committed, refused]
          exact rests.settles.published ⟨octets, captureTimeNs⟩ point.sequence

/-! ### Every interleaving -/

/-- A state that the sink and the pump can reach over a new ring. -/
def PlaysBack (ring : RingPair) (pcm : PcmConfiguration) (faults : Nat → Option ErrorKind)
    (c : Pair Access Access.Reply SinkAt HostAt Shared) : Prop :=
  Relation.ReflTransGen (PairStep exec (LedgerMenu pcm fun _ => True) HostMenu)
    ⟨.ret ⟨0, []⟩, .ret (.top []), ring.shared faults⟩ c

section PlaysBack

variable {sys : SystemCalls} {slotCount payloadCapacity : UInt32} {ring : RingPair}
variable {faults : Nat → Option ErrorKind} {c : Pair Access Access.Reply SinkAt HostAt Shared}

theorem playback_contracts (created : RingPair.create 64 sys slotCount payloadCapacity = .ok ring)
    (reached : PlaysBack ring pcm faults c) :
    ∃ g : Geometry, g.slotCount = slotCount ∧ g.payloadCapacity = payloadCapacity ∧
      RingInv g c.shared ∧ (producer g anyLabel).Holds (SettleRests g pcm) c.left c.shared ∧
      (consumer g Wakeful).Holds (HostRests g) c.right c.shared := by
  obtain ⟨g, count, size, -, memory⟩ := RingPair.create_geometry created
  have inv₀ : RingInv g (ring.shared faults) := RingPair.ringInv faults memory
  have left₀ : (producer g anyLabel).Holds (SettleRests g pcm) (.ret ⟨0, []⟩)
      (ring.shared faults) := settle_rests ⟨rfl, .nothing⟩
  have right₀ : (consumer g Wakeful).Holds (HostRests g) (.ret (.top [])) (ring.shared faults) :=
    host_rests inv₀ fun _ => rfl
  refine ⟨g, count, size, pair_invariant (producer g anyLabel) (consumer g Wakeful) rfl rfl
    (fun _ _ moves => moves) (fun _ _ moves => moves) ?_
    (fun _ _ _ inv rests offered => host_offers inv rests offered) reached inv₀ left₀ right₀⟩
  rintro _ _ _ _ rests ⟨buffer, captureTimeNs, _⟩
  exact settle_process rests buffer captureTimeNs

/-- Every frame in the ring is PCM, also while a call is under way: a call that is left
alone comes to its end, and what is in the ring before is still there then. -/
theorem isPcm_of_settling {p : DataPlane.Ring SinkAt} (inv : RingInv g s)
    (left : (producer g anyLabel).Holds (SettleRests g pcm) p s) (f : Frame)
    (mem : f ∈ s.committed) : f.descriptor.payloadKind = PayloadKind.pcm.toUInt8 := by
  obtain ⟨point, t, -, -, rests, moves⟩ := left.run inv fun _ _ safe => safe.runs
  exact rests.settles.isPcm f ((ProducerMoves.of_reflTransGen moves).committed.subset mem)

theorem HostRests.initial {host : HostAt} (rests : HostRests g host s)
    (coherent : Coherent g s.committed.length) : host.written <+: octetsOf s.committed := by
  cases host with
  | top written =>
      have all : written = givenBack s := rests coherent
      exact all ▸ givenBack_initial s
  | waiting written =>
      have all : written = givenBack s := rests.2 coherent
      exact all ▸ givenBack_initial s
  | writing frame sent written => exact (rests.2.2 coherent).initial
  | ended reason written => exact (rests coherent).1

/-- Playback end to end. In every interleaving of PipeWire's callbacks and the pump,
with any socket, any eventfd faults and the future dropped at any `await`:
each quantum is a frame of the ring, counted as dropped or larger than a slot; what
the socket has taken is an initial part of the frames' octets in order; the pump
comes to its end only through the socket, the eventfd or Ctrl-C, never over a frame;
and where it waits with no wakeup pending, no call under way and no eventfd write
rejected so far, it has written everything in the ring, which is everything PipeWire
handed over if nothing was counted and every quantum fitted a slot. -/
theorem playback_end_to_end
    (created : RingPair.create 64 sys slotCount payloadCapacity = .ok ring)
    (reached : PlaysBack ring pcm faults c)
    (counted : c.shared.committed.length < 2 ^ 64 ∨ slotCount.toNat ∣ 2 ^ 64) :
    (∀ sink, c.left = .ret sink → Settles pcm payloadCapacity.toNat sink.quanta
      c.shared.committed c.shared.refused) ∧
    (∀ host, c.right = .ret host → host.written <+: octetsOf c.shared.committed) ∧
    (∀ reason written, c.right = .ret (.ended reason written) →
      (∀ error, reason ≠ .acquire error) ∧ reason ≠ .notPcm) ∧
    ∀ sink written, c.left = .ret sink → c.right = .ret (.waiting written) →
      c.shared.event.counter = 0 → NoFaults c.shared →
      written = octetsOf c.shared.committed ∧
      (c.shared.refused = 0 →
        (∀ quantum ∈ sink.quanta, quantum.octets.length ≤ payloadCapacity.toNat) →
        written = sink.quanta.flatMap (·.octets)) := by
  obtain ⟨g, rfl, rfl, inv, left, right⟩ := playback_contracts created reached
  have coherent : Coherent g c.shared.committed.length := by
    rcases counted with few | dvd
    · exact coherent_of_lt few
    · exact coherent_of_dvd dvd
  refine ⟨?_, ?_, ?_, ?_⟩
  · intro sink rests
    rw [rests] at left
    exact (left.ret inv).settles
  · intro host rests
    rw [rests] at right
    exact (right.ret inv).initial coherent
  · intro reason written rests
    rw [rests] at right
    have explained : reason.Explained c.shared := (right.ret inv coherent).2
    constructor
    · rintro error rfl
      exact explained
    · rintro rfl
      obtain ⟨f, mem, other⟩ := explained
      exact other (isPcm_of_settling inv left f mem)
  · intro sink written atRest waits silent sound
    rw [atRest] at left
    rw [waits] at right
    obtain ⟨quiet, settles⟩ := left.ret inv
    obtain ⟨wakeful, all⟩ : HostRests g (.waiting written) c.shared := right.ret inv
    have drained : written = octetsOf c.shared.committed := by
      rcases wakeful sound with pending | coming | empty
      · exact absurd silent pending
      · exact absurd coming (by simp [quiet])
      · rw [all coherent, givenBack, ← empty, List.take_length]
    refine ⟨drained, fun none fits => ?_⟩
    rw [drained, octetsOf, List.flatMap_def, settles.whole none fits, ← List.flatMap_def]

end PlaysBack

/-- The pump with a socket that takes one octet at a time. -/
def HostAt.next : HostAt → Option (DataPlane.Ring HostAt)
  | .top written => some (HostAt.take written)
  | .waiting written => some (HostAt.wait written)
  | .writing frame sent written =>
      if sent < frame.payload.len then some (HostAt.write frame sent 1 written)
      else if sent = frame.payload.len then some (HostAt.finish frame written)
      else none
  | .ended _ _ => none

theorem HostAt.offered_of_next {host : HostAt} {p : DataPlane.Ring HostAt}
    (next : host.next = some p) : HostMenu host p := by
  unfold HostAt.next at next
  split at next
  · exact Option.some.inj next ▸ .take
  · exact Option.some.inj next ▸ .wait
  · split at next
    · rename_i short
      exact Option.some.inj next ▸ .write 1 Nat.one_pos short
    · split at next
      · rename_i whole
        exact Option.some.inj next ▸ .finish whole
      · cases next
  · cases next

def pumpOn : Nat → HostAt × Shared → Option (HostAt × Shared)
  | 0, out => some out
  | n + 1, (host, s) => host.next.bind fun p => (p.run exec s).bind (pumpOn n)

theorem pumpOn_reaches {ring : RingPair} {faults : Nat → Option ErrorKind} {n : Nat}
    {left : DataPlane.Ring SinkAt} {host host' : HostAt} {t : Shared}
    (reached : PlaysBack ring pcm faults ⟨left, .ret host, s⟩)
    (ran : pumpOn n (host, s) = some (host', t)) :
    PlaysBack ring pcm faults ⟨left, .ret host', t⟩ := by
  induction n generalizing host s with
  | zero =>
      obtain ⟨rfl, rfl⟩ := Prod.mk.inj (Option.some.inj ran)
      exact reached
  | succ n ih =>
      obtain ⟨p, next, ran⟩ := Option.bind_eq_some_iff.mp ran
      obtain ⟨⟨point, u⟩, once, ran⟩ := Option.bind_eq_some_iff.mp ran
      exact ih (reached.trans (.head (.rightStart (HostAt.offered_of_next next))
        (right_run once))) ran

/-- One quantum is played, and the pump works until it waits. -/
def samplePlayback : Option (SinkAt × HostAt × Shared) :=
  (((⟨0, []⟩ : SinkAt).process PipeWire.samplePcm (some [⟨1, 2, some [0, 1, 2]⟩]) 0).run exec
    (sampleRing.shared fun _ => none)).bind fun called =>
  (pumpOn 7 (.top [], called.2)).map fun pumped => (called.1, pumped)

theorem playback_end_to_end_one_quantum :
    ∃ c sink written, PlaysBack sampleRing PipeWire.samplePcm (fun _ => none) c ∧
      c.left = .ret sink ∧ c.right = .ret (.waiting written) ∧
      sink.quanta.length = 1 ∧ written = [1, 2] ∧ written = octetsOf c.shared.committed := by
  have outcome : samplePlayback.map (fun out => (out.2.1 matches .waiting _, decide
      (out.1.quanta.length = 1 ∧ out.2.1.written = [1, 2] ∧ out.2.2.event.counter = 0 ∧
        out.2.2.committed.length < 2 ^ 64 ∧
        ∀ i < out.2.2.event.writes, out.2.2.event.faults i = none))) = some (true, true) := by
    decide +kernel
  obtain ⟨⟨sink, host, t⟩, ran, checked⟩ := Option.map_eq_some_iff.mp outcome
  obtain ⟨isWaiting, checked⟩ := Prod.mk.inj checked
  obtain ⟨one, octets, silent, few, sound⟩ := of_decide_eq_true checked
  obtain ⟨⟨sink', u⟩, called, ran⟩ := Option.bind_eq_some_iff.mp ran
  obtain ⟨⟨host', t'⟩, pumped, same⟩ := Option.map_eq_some_iff.mp ran
  obtain ⟨rfl, rfl, rfl⟩ : sink' = sink ∧ host' = host ∧ t' = t := by simpa using same
  have reached : PlaysBack sampleRing PipeWire.samplePcm (fun _ => none)
      ⟨.ret sink', .ret host', t'⟩ :=
    pumpOn_reaches (.head (.leftStart (.process _ _ fun _ _ => trivial)) (left_run called)) pumped
  cases host' with
  | waiting written =>
      have drained :=
        (playback_end_to_end sampleRing_created reached (.inl few)).2.2.2 sink' written
        rfl rfl silent sound
      exact ⟨_, sink', written, reached, rfl, rfl, one, octets, drained.1⟩
  | top written | writing frame sent written | ended reason written => cases isWaiting

end Dorsche.Bin.DorschePipewire
