import Dorsche.Wireless.PipeWire

/-!
The balance of the sink: what comes in from PipeWire and what goes into the ring.

Between two calls of `process`, every quantum that lay inside its buffer is a
published frame or an increment of the drop counter (`Balances`), as long as no
quantum is larger than a slot. A larger one that is granted a slot is given up
after the reservation, and nothing counts it.
-/

namespace Dorsche.Wireless.PipeWire

open Dorsche.Lib Dorsche.Wireless.DataPlane

variable {g : Geometry} {s s' : Shared} {pcm : PcmConfiguration}

/-- A dequeued quantum inside its buffer, with the time of its call. -/
structure Quantum where
  octets : List UInt8
  captureTimeNs : UInt64
deriving DecidableEq, Repr

/-- The ledger: each quantum, in the order of the calls, is published whole as the
next frame under the next number, or counted as dropped. -/
inductive Balances (pcm : PcmConfiguration) : List Quantum → List Frame → Nat → Prop where
  | nothing : Balances pcm [] [] 0
  | published {quanta : List Quantum} {frames : List Frame} {dropped : Nat} (quantum : Quantum) :
      Balances pcm quanta frames dropped →
      Balances pcm (quanta ++ [quantum])
        (frames ++ [sinkFrame pcm (UInt64.ofNat frames.length) quantum.captureTimeNs
          quantum.octets]) dropped
  | dropped {quanta : List Quantum} {frames : List Frame} {dropped : Nat} (quantum : Quantum) :
      Balances pcm quanta frames dropped → Balances pcm (quanta ++ [quantum]) frames (dropped + 1)

theorem Balances.count {quanta : List Quantum} {frames : List Frame} {dropped : Nat}
    (balances : Balances pcm quanta frames dropped) :
    quanta.length = frames.length + dropped := by
  induction balances with
  | nothing => rfl
  | published quantum _ ih =>
      rw [List.length_append, List.length_append, List.length_singleton, List.length_singleton, ih]
      omega
  | dropped quantum _ ih =>
      rw [List.length_append, List.length_singleton, ih]
      omega

/-! ### A sink that keeps the ledger -/

/-- Where the sink is between two calls: its number, and the quanta so far. -/
structure SinkAt where
  sequence : UInt64
  quanta : List Quantum

/-- The quanta of one call. -/
def quantaOf (buffer : Option (List SpaData)) (captureTimeNs : UInt64) : List Quantum :=
  (quantum buffer).toList.map (⟨·, captureTimeNs⟩)

def SinkAt.process (pcm : PcmConfiguration) (point : SinkAt) (buffer : Option (List SpaData))
    (captureTimeNs : UInt64) : DataPlane.Ring SinkAt := do
  let sequence ← PipeWire.process pcm point.sequence buffer captureTimeNs
  return ⟨sequence, point.quanta ++ quantaOf buffer captureTimeNs⟩

/-- Calls whose quantum meets a condition. -/
inductive LedgerMenu (pcm : PcmConfiguration) (meets : List UInt8 → Prop) :
    SinkAt → DataPlane.Ring SinkAt → Prop where
  | process {point} (buffer captureTimeNs) :
      (∀ octets, quantum buffer = some octets → meets octets) →
      LedgerMenu pcm meets point (point.process pcm buffer captureTimeNs)

/-- A state that such a sink and a consumer's client can reach over a new ring. -/
def LedgerReaches (ring : RingPair) (pcm : PcmConfiguration) (meets : List UInt8 → Prop)
    (faults : Nat → Option ErrorKind) (c : Pair Access Access.Reply SinkAt ConsumerAt Shared) :
    Prop :=
  Relation.ReflTransGen (PairStep exec (LedgerMenu pcm meets) (ConsumerMenu ring.mapLen))
    ⟨.ret ⟨0, []⟩, .ret .idle, ring.shared faults⟩ c

/-- No eventfd write fails with an error other than `WouldBlock`. -/
def Signals (faults : Nat → Option ErrorKind) : Prop := ∀ i errno, faults i ≠ some (.other errno)

/-- What holds of the sink between two calls. -/
structure LedgerRests (pcm : PcmConfiguration) (faults : Nat → Option ErrorKind) (point : SinkAt)
    (s : Shared) : Prop where
  quiet : s.unsignalled = false
  faults_eq : s.event.faults = faults
  sequence : point.sequence = UInt64.ofNat s.committed.length
  balances : Balances pcm point.quanta s.committed s.refused

theorem LedgerRests.moved {faults : Nat → Option ErrorKind} {point : SinkAt}
    (rests : LedgerRests pcm faults point s) (moves : ConsumerMoves s s') :
    LedgerRests pcm faults point s' where
  quiet := moves.unsignalled.trans rests.quiet
  faults_eq := moves.faults.trans rests.faults_eq
  sequence := by
    rw [moves.committed]
    exact rests.sequence
  balances := by
    rw [moves.committed, moves.refused]
    exact rests.balances

/-- One call on the ledger: it balances again unless the quantum was granted a slot
it does not fit. -/
theorem LedgerRests.processed {faults : Nat → Option ErrorKind} {point : SinkAt}
    {captureTimeNs next : UInt64} {buffer : Option (List SpaData)} (signals : Signals faults)
    (rests : LedgerRests pcm faults point s) (quiet : s'.unsignalled = false)
    (faults_eq : s'.event.faults = s.event.faults)
    (processed : Processed g pcm point.sequence captureTimeNs s s' (quantum buffer) next)
    (fits : ∀ octets, quantum buffer = some octets →
      octets.length ≤ g.payloadCapacity.toNat ∨
        s'.released + g.slotCount.toNat ≤ s.committed.length) :
    LedgerRests pcm faults ⟨next, point.quanta ++ quantaOf buffer captureTimeNs⟩ s' := by
  have same := faults_eq.trans rests.faults_eq
  unfold quantaOf
  generalize quantum buffer = found at processed fits
  cases processed with
  | skipped committed refused _ =>
      refine ⟨quiet, same, ?_, ?_⟩
      · rw [committed]
        exact rests.sequence
      · rw [committed, refused]
        simpa using rests.balances
  | refused _ committed refused _ =>
      refine ⟨quiet, same, ?_, ?_⟩
      · rw [committed]
        exact rests.sequence
      · rw [committed, refused]
        exact rests.balances.dropped _
  | oversized large room _ _ _ => rcases fits _ rfl with small | full <;> omega
  | published _ _ committed refused _ signalled =>
      cases signalled with
      | failed fault =>
          rw [rests.faults_eq] at fault
          exact absurd fault (signals _ _)
      | ok _ =>
          refine ⟨quiet, same, ?_, ?_⟩
          · rw [committed, List.length_append, List.length_singleton, ← ofNat_add_one,
              ← rests.sequence]
            rfl
          · rw [committed, refused, rests.sequence]
            exact rests.balances.published ⟨_, captureTimeNs⟩

theorem ledger_process {faults : Nat → Option ErrorKind} {point : SinkAt}
    (signals : Signals faults) (rests : LedgerRests pcm faults point s)
    (buffer : Option (List SpaData)) (captureTimeNs : UInt64)
    (fits : ∀ octets, quantum buffer = some octets → octets.length ≤ g.payloadCapacity.toNat) :
    (producer g anyLabel).Holds (LedgerRests pcm faults)
      (point.process pcm buffer captureTimeNs) s := by
  unfold SinkAt.process
  apply (producer_process rests.quiet buffer fun _ _ _ _ _ => trivial).bind
  rintro next t _ ⟨quiet, faults_eq, processed⟩
  have after := rests.processed signals quiet faults_eq processed fun octets is =>
    .inl (fits octets is)
  exact .of_ret fun _ moves _ => after.moved moves

section Reaches

variable {sys : SystemCalls} {slotCount payloadCapacity : UInt32} {ring : RingPair}
variable {faults : Nat → Option ErrorKind}
variable {c : Pair Access Access.Reply SinkAt ConsumerAt Shared}

theorem ledger_contracts (created : RingPair.create 64 sys slotCount payloadCapacity = .ok ring)
    (signals : Signals faults)
    (reached : LedgerReaches ring pcm (·.length ≤ payloadCapacity.toNat) faults c) :
    ∃ g : Geometry, g.slotCount = slotCount ∧ g.payloadCapacity = payloadCapacity ∧
      RingInv g c.shared ∧
      (producer g anyLabel).Holds (LedgerRests pcm faults) c.left c.shared := by
  obtain ⟨g, count, rfl, mapLen, memory⟩ := RingPair.create_geometry created
  have rests₀ : LedgerRests pcm faults ⟨0, []⟩ (ring.shared faults) := ⟨rfl, rfl, rfl, .nothing⟩
  have left₀ : (producer g anyLabel).Holds (LedgerRests pcm faults) (.ret ⟨0, []⟩)
      (ring.shared faults) := .of_ret fun _ moves _ => rests₀.moved moves
  unfold LedgerReaches at reached
  rw [mapLen] at reached
  have kept := RingPair.client_contracts memory
    (by
      rintro _ _ _ _ rests ⟨buffer, captureTimeNs, fits⟩
      exact ledger_process signals rests buffer captureTimeNs fits) left₀ reached
  exact ⟨g, count, rfl, kept.1, kept.2.1⟩

end Reaches

/-- An uninterrupted call returns, and the ledger balances after it exactly when the
quantum fits a slot or the ring is full. -/
theorem ledger_balances_iff {faults : Nat → Option ErrorKind} {point : SinkAt}
    (inv : RingInv g s) (signals : Signals faults) (rests : LedgerRests pcm faults point s)
    (buffer : Option (List SpaData)) (captureTimeNs : UInt64) :
    ∃ point' t, (point.process pcm buffer captureTimeNs).run exec s = some (point', t) ∧
      (Balances pcm point'.quanta t.committed t.refused ↔
        ∀ octets, quantum buffer = some octets → octets.length ≤ g.payloadCapacity.toNat ∨
          s.released + g.slotCount.toNat ≤ s.committed.length) := by
  have holds : (producer g anyLabel).Holds _ (process pcm point.sequence buffer captureTimeNs) s :=
    producer_process rests.quiet buffer fun _ _ _ _ _ => trivial
  obtain ⟨next, t, ran, inv', ⟨quiet, faults_eq, processed⟩, moves⟩ :=
    holds.run inv fun _ _ safe => safe.runs
  have released := (ProducerMoves.of_reflTransGen moves).released
  refine ⟨⟨next, point.quanta ++ quantaOf buffer captureTimeNs⟩, t, ?_, ?_⟩
  · unfold SinkAt.process
    rw [Prog.run_bind, show (process pcm point.sequence buffer captureTimeNs).run exec s =
      some (next, t) from ran]
    rfl
  · constructor
    · intro balances octets is
      -- a quantum that is given up changes neither count
      by_contra lost
      obtain ⟨large, room⟩ := not_or.mp lost
      have before := rests.balances.count
      have after := balances.count
      simp only [quantaOf, is] at after processed
      cases processed with
      | refused full _ _ _ => exact room full
      | oversized _ _ committed refused _ =>
          rw [committed, refused, List.length_append] at after
          simp only [Option.toList_some, List.map_cons, List.map_nil,
            List.length_singleton] at after
          omega
      | published fits _ _ _ _ _ => exact large fits
    · intro fits
      exact (rests.processed signals quiet faults_eq processed fun octets is => by
        rw [released]
        exact fits octets is).balances

/-- No PCM vanishes uncounted as long as every quantum inside its buffer fits a slot:
in every interleaving with a consumer, between two calls, each such quantum is a
published frame or counted as dropped. A single call keeps the balance exactly
when its quantum fits or the ring is full. -/
theorem sink_balances {sys : SystemCalls} {slotCount payloadCapacity : UInt32} {ring : RingPair}
    {faults : Nat → Option ErrorKind}
    (created : RingPair.create 64 sys slotCount payloadCapacity = .ok ring)
    (signals : Signals faults) (c : Pair Access Access.Reply SinkAt ConsumerAt Shared)
    (reached : LedgerReaches ring pcm (·.length ≤ payloadCapacity.toNat) faults c)
    (point : SinkAt) (between : c.left = .ret point) :
    (Balances pcm point.quanta c.shared.committed c.shared.refused ∧
      point.quanta.length = c.shared.committed.length + c.shared.refused ∧
      c.shared.memory.u64 headOffset = UInt64.ofNat c.shared.committed.length ∧
      c.shared.memory.u64 droppedOffset = UInt64.ofNat c.shared.refused) ∧
    ∀ buffer captureTimeNs, ∃ point' t,
      (point.process pcm buffer captureTimeNs).run exec c.shared = some (point', t) ∧
      (Balances pcm point'.quanta t.committed t.refused ↔
        ∀ octets, quantum buffer = some octets → octets.length ≤ payloadCapacity.toNat ∨
          slotCount.toNat ≤
            (c.shared.memory.u64 headOffset - c.shared.memory.u64 tailOffset).toNat) := by
  obtain ⟨g, rfl, rfl, inv, left⟩ := ledger_contracts created signals reached
  rw [between] at left
  have rests := left.ret inv
  refine ⟨⟨rests.balances, rests.balances.count, inv.head, inv.dropped⟩, ?_⟩
  intro buffer captureTimeNs
  rw [inv.full]
  exact ledger_balances_iff inv signals rests buffer captureTimeNs

/-- Calls of the sink one after the other, with nobody else there. -/
def callAll (pcm : PcmConfiguration) : List (List SpaData) → SinkAt × Shared →
    Option (SinkAt × Shared)
  | [], out => some out
  | buffer :: rest, (point, s) =>
      ((point.process pcm (some buffer) 0).run exec s).bind (callAll pcm rest)

theorem callAll_reaches {ring : RingPair} {meets : List UInt8 → Prop}
    {faults : Nat → Option ErrorKind} {buffers : List (List SpaData)} {point point' : SinkAt}
    {right : DataPlane.Ring ConsumerAt} {t : Shared}
    (reached : LedgerReaches ring pcm meets faults ⟨.ret point, right, s⟩)
    (met : ∀ buffer ∈ buffers, ∀ octets, quantum (some buffer) = some octets → meets octets)
    (ran : callAll pcm buffers (point, s) = some (point', t)) :
    LedgerReaches ring pcm meets faults ⟨.ret point', right, t⟩ := by
  induction buffers generalizing point s with
  | nil =>
      obtain ⟨rfl, rfl⟩ := Prod.mk.inj (Option.some.inj ran)
      exact reached
  | cons buffer rest ih =>
      obtain ⟨⟨next, u⟩, called, ran⟩ := Option.bind_eq_some_iff.mp ran
      have start : PairStep exec (LedgerMenu pcm meets) (ConsumerMenu ring.mapLen)
          ⟨.ret point, right, s⟩ ⟨point.process pcm (some buffer) 0, right, s⟩ :=
        .leftStart (.process _ _ (met buffer List.mem_cons_self))
      exact ih (reached.trans (.head start (left_run called)))
        (fun later mem => met later (List.mem_cons_of_mem _ mem)) ran

/-- Three quanta for two slots: two frames and one dropped. -/
theorem sink_balances_three_quanta :
    ∃ (c : Pair Access Access.Reply SinkAt ConsumerAt Shared) (point : SinkAt),
      LedgerReaches sampleRing samplePcm (·.length ≤ 2) (fun _ => none) c ∧
      c.left = .ret point ∧ point.quanta.length = 3 ∧ c.shared.refused = 1 ∧
      Balances samplePcm point.quanta c.shared.committed c.shared.refused := by
  have outcome : (callAll samplePcm [[⟨0, 2, some [1, 2]⟩], [⟨1, 2, some [0, 3, 4]⟩],
      [⟨0, 1, some [5]⟩]] (⟨0, []⟩, sampleRing.shared fun _ => none)).map
      (fun out => (out.1.quanta.length, out.2.refused)) = some (3, 1) := by
    decide +kernel
  obtain ⟨⟨point, t⟩, ran, counts⟩ := Option.map_eq_some_iff.mp outcome
  obtain ⟨three, one⟩ := Prod.mk.inj counts
  have reached : LedgerReaches sampleRing samplePcm (·.length ≤ 2) (fun _ => none)
      ⟨.ret point, .ret .idle, t⟩ := by
    refine callAll_reaches .refl ?_ ran
    decide
  have signals : Signals fun _ => none := by
    rintro _ _ ⟨⟩
  exact ⟨_, point, reached, rfl, three, one,
    (sink_balances sampleRing_created signals _ reached point rfl).1.1⟩

/-- A quantum of three octets for slots of two, in an empty ring: it is neither
published nor counted. -/
theorem sink_not_balances :
    ∃ (c : Pair Access Access.Reply SinkAt ConsumerAt Shared) (point : SinkAt),
      LedgerReaches sampleRing samplePcm (fun _ => True) (fun _ => none) c ∧
      c.left = .ret point ∧ point.quanta.length = 1 ∧ c.shared.committed = [] ∧
      c.shared.memory.u64 droppedOffset = 0 ∧
      ¬ Balances samplePcm point.quanta c.shared.committed c.shared.refused := by
  have outcome : (callAll samplePcm [[⟨0, 3, some [1, 2, 3]⟩]]
      (⟨0, []⟩, sampleRing.shared fun _ => none)).map
      (fun out => (out.1.quanta.length, out.2.committed, out.2.refused,
        out.2.memory.u64 droppedOffset)) = some (1, [], 0, 0) := by
    decide +kernel
  obtain ⟨⟨point, t⟩, ran, counts⟩ := Option.map_eq_some_iff.mp outcome
  simp only [Prod.mk.injEq] at counts
  obtain ⟨one, nothing, none, zero⟩ := counts
  refine ⟨_, point, callAll_reaches .refl (fun _ _ _ _ => trivial) ran, rfl, one, nothing, zero, ?_⟩
  intro balances
  have count := balances.count
  simp only [one, nothing, none] at count
  cases count

end Dorsche.Wireless.PipeWire
