import Dorsche.Wireless.DataPlane.Publication

/-!
The `process` callback of `PipeWireAdapter::run_sink` (`src/wireless/pipewire.rs`).

The callback numbers the frames it commits and advances its number only when
`commit` returns `Ok`. What PipeWire hands to a call (the dequeued buffer, the
clock) is an argument of it. As long as no eventfd write fails, the frames a
consumer acquires are numbered consecutively; after a failed one a number is
used twice.
-/

namespace Dorsche.Wireless.PipeWire

open Dorsche.Lib Dorsche.Wireless.DataPlane

variable {g : Geometry} {s s' : Shared}

/-! ### The callback -/

/-- One data plane of a dequeued SPA buffer. -/
structure SpaData where
  chunkOffset : UInt32
  chunkSize : UInt32
  data : Option (List UInt8)

/-- The descriptor of the next frame. -/
def sinkDescriptor (pcm : PcmConfiguration) (sequence captureTimeNs : UInt64) : FrameDescriptor :=
  { FrameDescriptor.new .pcm sequence with
    sampleRateHz := pcm.sampleRateHz
    channels := pcm.channels.toUInt16
    bitsPerSample := pcm.bitsPerSample.toUInt16
    captureTimeNs := captureTimeNs }

/-- One call of the `process` callback, from one sequence number to the next.
`none` is a failed `dequeue_buffer`. -/
def process (pcm : PcmConfiguration) (sequence : UInt64) (buffer : Option (List SpaData))
    (captureTimeNs : UInt64) : DataPlane.Ring UInt64 := do
  match buffer with
  | none | some [] => return sequence
  | some (data :: _) =>
      let offset := data.chunkOffset.toNat
      let size := data.chunkSize.toNat
      match data.data with
      | none => return sequence
      | some source =>
          -- Two 32-bit numbers: `checked_add` on `usize` always succeeds.
          if ¬ offset + size ≤ source.length then
            return sequence
          match ← Producer.tryReserve with
          | none => return sequence
          | some reservation =>
              let capacity ← reservation.capacity
              if capacity < size then
                return sequence
              let slice ← reservation.payloadMut
              if slice.len < size then
                panicWith "range end index out of range for slice"
              access (.writePayload slice.offset ((source.drop offset).take size))
              match ← reservation.commit (sinkDescriptor pcm sequence captureTimeNs) size with
              | .ok () => return sequence + 1
              | .error _ => return sequence

/-- PipeWire calls `process` again and again. -/
inductive SinkMenu (pcm : PcmConfiguration) : UInt64 → DataPlane.Ring UInt64 → Prop where
  | process {sequence} (buffer captureTimeNs) :
      SinkMenu pcm sequence (process pcm sequence buffer captureTimeNs)

/-! ### What a call does -/

/-- The octets of a dequeued quantum, where they lie inside its buffer. -/
def quantum : Option (List SpaData) → Option (List UInt8)
  | some (⟨chunkOffset, chunkSize, some source⟩ :: _) =>
      if chunkOffset.toNat + chunkSize.toNat ≤ source.length then
        some ((source.drop chunkOffset.toNat).take chunkSize.toNat)
      else none
  | _ => none

/-- The frame a call makes of a quantum. -/
def sinkFrame (pcm : PcmConfiguration) (sequence captureTimeNs : UInt64) (octets : List UInt8) :
    Frame :=
  ⟨ProducerLease.stamped (sinkDescriptor pcm sequence captureTimeNs) octets.length, octets⟩

/-- The number after a commit. -/
def advance (sequence : UInt64) : Except RingError Unit → UInt64
  | .ok () => sequence + 1
  | .error _ => sequence

/-- What a call does with a quantum: nothing without one; refused, when the ring is
full; given up after the reservation, when it is larger than a slot; or published. -/
inductive Processed (g : Geometry) (pcm : PcmConfiguration) (sequence captureTimeNs : UInt64)
    (s t : Shared) : Option (List UInt8) → UInt64 → Prop where
  | skipped : t.committed = s.committed → t.refused = s.refused →
      t.event.writes = s.event.writes → Processed g pcm sequence captureTimeNs s t none sequence
  | refused {octets : List UInt8} : s.released + g.slotCount.toNat ≤ s.committed.length →
      t.committed = s.committed → t.refused = s.refused + 1 → t.event.writes = s.event.writes →
      Processed g pcm sequence captureTimeNs s t (some octets) sequence
  | oversized {octets : List UInt8} : g.payloadCapacity.toNat < octets.length →
      s.committed.length < t.released + g.slotCount.toNat →
      t.committed = s.committed → t.refused = s.refused → t.event.writes = s.event.writes →
      Processed g pcm sequence captureTimeNs s t (some octets) sequence
  | published {octets : List UInt8} {result : Except RingError Unit} :
      octets.length ≤ g.payloadCapacity.toNat →
      s.committed.length < t.released + g.slotCount.toNat →
      t.committed = s.committed ++ [sinkFrame pcm sequence captureTimeNs octets] →
      t.refused = s.refused → t.event.writes = s.event.writes + 1 → Signalled s result →
      Processed g pcm sequence captureTimeNs s t (some octets) (advance sequence result)

theorem Processed.moved {pcm : PcmConfiguration} {sequence captureTimeNs next : UInt64}
    {octets : Option (List UInt8)} {t t' : Shared}
    (processed : Processed g pcm sequence captureTimeNs s t octets next)
    (moves : ConsumerMoves t t') : Processed g pcm sequence captureTimeNs s t' octets next := by
  have later := moves.released
  cases processed with
  | skipped committed refused writes =>
      exact .skipped (moves.committed.trans committed) (moves.refused.trans refused)
        (moves.writes.trans writes)
  | refused full committed refused writes =>
      exact .refused full (moves.committed.trans committed) (moves.refused.trans refused)
        (moves.writes.trans writes)
  | oversized large room committed refused writes =>
      exact .oversized large (by omega) (moves.committed.trans committed)
        (moves.refused.trans refused) (moves.writes.trans writes)
  | published fits room committed refused writes signalled =>
      exact .published fits (by omega) (moves.committed.trans committed)
        (moves.refused.trans refused) (moves.writes.trans writes) signalled

section Process

variable {label : Shared → FrameDescriptor → Prop} {pcm : PcmConfiguration}
variable {sequence captureTimeNs : UInt64}

theorem producer_processed {t : Shared} {octets : Option (List UInt8)} {next : UInt64}
    (quiet : t.unsignalled = false) (faults : t.event.faults = s.event.faults)
    (processed : Processed g pcm sequence captureTimeNs s t octets next) :
    (producer g label).Holds (fun next t => t.unsignalled = false ∧
        t.event.faults = s.event.faults ∧
        Processed g pcm sequence captureTimeNs s t octets next) (.ret next) t :=
  .of_ret fun _ moves _ =>
    ⟨moves.unsignalled.trans quiet, moves.faults.trans faults, processed.moved moves⟩

theorem producer_process (quiet : s.unsignalled = false) (buffer : Option (List SpaData))
    (labelled : ∀ t octets, t.committed = s.committed → t.event.faults = s.event.faults →
      t.event.writes = s.event.writes →
      label t (sinkFrame pcm sequence captureTimeNs octets).descriptor) :
    (producer g label).Holds (fun next t => t.unsignalled = false ∧
        t.event.faults = s.event.faults ∧
        Processed g pcm sequence captureTimeNs s t (quantum buffer) next)
      (process pcm sequence buffer captureTimeNs) s := by
  unfold process
  match buffer with
  | none => exact producer_processed quiet rfl (.skipped rfl rfl rfl)
  | some [] => exact producer_processed quiet rfl (.skipped rfl rfl rfl)
  | some (⟨chunkOffset, chunkSize, none⟩ :: _) =>
      exact producer_processed quiet rfl (.skipped rfl rfl rfl)
  | some (⟨chunkOffset, chunkSize, some source⟩ :: _) =>
      unfold quantum
      by_cases inside : chunkOffset.toNat + chunkSize.toNat ≤ source.length
      · have size : ((source.drop chunkOffset.toNat).take chunkSize.toNat).length =
            chunkSize.toNat := by
          rw [List.length_take, List.length_drop]
          omega
        simp only [inside, not_true_eq_false, if_false, if_true]
        generalize (source.drop chunkOffset.toNat).take chunkSize.toNat = octets at size ⊢
        rw [← size]
        apply (producer_tryReserve quiet).bind
        intro lease t₁ _ reserved
        obtain ⟨committed₁, quiet₁, writes₁, faults₁, outcome⟩ := reserved
        cases lease with
        | none =>
            exact producer_processed quiet₁ faults₁
              (.refused outcome.2 committed₁ outcome.1 writes₁)
        | some lease =>
            obtain ⟨refused₁, leased₁⟩ := outcome
            apply (producer_capacity quiet₁).bind
            rintro n t₂ _ ⟨capacity, moved₂⟩
            subst capacity
            have leased₂ := leased₁.moved moved₂
            have committed₂ := moved₂.committed.trans committed₁
            have room₂ := leased₂.room
            by_cases large : g.payloadCapacity.toNat < octets.length
            · simp only [large, if_true]
              exact producer_processed leased₂.quiet (moved₂.faults.trans faults₁)
                (.oversized large (by rwa [committed₂] at room₂) committed₂
                  (moved₂.refused.trans refused₁) (moved₂.writes.trans writes₁))
            · simp only [large, if_false]
              apply (producer_payloadMut leased₂).bind
              rintro slice t₃ _ ⟨isSlice, moved₃⟩
              subst isSlice
              have leased₃ := leased₂.moved moved₃
              have path := moved₂.trans moved₃
              have place : (Leased.slice g t₂).offset = g.payloadAt t₃.committed.length := by
                rw [moved₃.committed]
                rfl
              have room : ¬ (Leased.slice g t₂).len < octets.length := large
              simp only [room, if_false]
              rw [place]
              have committed₃ := path.committed.trans committed₁
              have faults₃ := path.faults.trans faults₁
              have writes₃ := path.writes.trans writes₁
              apply Contract.Holds.bind (producer_copy leased₃
                (sinkDescriptor pcm sequence captureTimeNs) octets (Nat.not_lt.mp large)
                fun t same₁ same₂ same₃ => labelled t octets (same₁.trans committed₃)
                  (same₂.trans faults₃) (same₃.trans writes₃))
              intro result t₄ _ copied
              have done := copied.since committed₃ (path.refused.trans refused₁) faults₃ writes₃
              have processed : Processed g pcm sequence captureTimeNs s t₄ (some octets)
                  (advance sequence result) :=
                .published (Nat.not_lt.mp large) done.room done.committed done.refused done.writes
                  done.signalled
              cases result with
              | ok _ => exact producer_processed done.quiet done.faults processed
              | error _ => exact producer_processed done.quiet done.faults processed
      · simp only [inside, not_false_eq_true, if_true, if_false]
        exact producer_processed quiet rfl (.skipped rfl rfl rfl)

end Process

/-! ### Numbering -/

/-- No eventfd write so far has failed with an error other than `WouldBlock`. -/
def Undisturbed (s : Shared) : Prop :=
  ∀ i < s.event.writes, ∀ errno, s.event.faults i ≠ some (.other errno)

/-- The sink publishes a frame under the number of frames before it. -/
def numbered (s : Shared) (descriptor : FrameDescriptor) : Prop :=
  Undisturbed s → descriptor.sequence = UInt64.ofNat s.committed.length

/-- What holds of the sink between two calls. -/
def SinkRests (sequence : UInt64) (s : Shared) : Prop :=
  s.unsignalled = false ∧ (Undisturbed s → sequence = UInt64.ofNat s.committed.length)

theorem undisturbed_of_le {s s' : Shared} (undisturbed : Undisturbed s')
    (faults : s'.event.faults = s.event.faults) (writes : s.event.writes ≤ s'.event.writes) :
    Undisturbed s := fun i early errno => by
  rw [← faults]
  exact undisturbed i (early.trans_le writes) errno

theorem SinkRests.moved {sequence : UInt64} (rests : SinkRests sequence s)
    (moves : ConsumerMoves s s') : SinkRests sequence s' := by
  refine ⟨moves.unsignalled.trans rests.1, fun undisturbed => ?_⟩
  rw [moves.committed]
  exact rests.2 (undisturbed_of_le undisturbed moves.faults moves.writes.ge)

theorem sink_rests {sequence : UInt64} (rests : SinkRests sequence s) :
    (producer g numbered).Holds SinkRests (.ret sequence) s :=
  .of_ret fun _ moves _ => rests.moved moves

/-- The number advances exactly with a frame whose eventfd write did not fail. -/
theorem SinkRests.processed {pcm : PcmConfiguration} {sequence captureTimeNs next : UInt64}
    {octets : Option (List UInt8)} (rests : SinkRests sequence s) (quiet : s'.unsignalled = false)
    (faults : s'.event.faults = s.event.faults)
    (processed : Processed g pcm sequence captureTimeNs s s' octets next) :
    SinkRests next s' := by
  refine ⟨quiet, fun undisturbed => ?_⟩
  cases processed with
  | skipped committed _ writes | refused _ committed _ writes
  | oversized _ _ committed _ writes =>
      rw [committed]
      exact rests.2 (undisturbed_of_le undisturbed faults writes.ge)
  | published _ _ committed _ writes signalled =>
      cases signalled with
      | ok _ =>
          have number := rests.2 (undisturbed_of_le undisturbed faults (by omega))
          rw [committed, List.length_append, List.length_singleton, ← ofNat_add_one, ← number]
          rfl
      | failed fault =>
          refine absurd fault ?_
          rw [← faults]
          exact undisturbed _ (by omega) _

theorem sink_process {pcm : PcmConfiguration} {sequence : UInt64} (rests : SinkRests sequence s)
    (buffer : Option (List SpaData)) (captureTimeNs : UInt64) :
    (producer g numbered).Holds SinkRests (process pcm sequence buffer captureTimeNs) s := by
  refine (producer_process rests.1 buffer ?_).mono ?_
  · intro t octets committed faults writes undisturbed
    rw [committed]
    exact rests.2 (undisturbed_of_le undisturbed faults writes.ge)
  · rintro next t _ ⟨quiet, faults, processed⟩
    exact rests.processed quiet faults processed

/-! ### Every interleaving -/

/-- What one access adds to the published frames. -/
theorem exec_committed {i : Access} {r : i.Reply} (ran : exec i s = some (r, s')) :
    match i.publishes with
    | none => s'.committed = s.committed
    | some descriptor => ∃ payload, s'.committed = s.committed ++ [⟨descriptor, payload⟩] := by
  cases i with
  | panic text => cases ran
  | readable =>
      simp only [exec] at ran
      split at ran
      · rw [← (Prod.mk.inj (Option.some.inj ran)).2]
        rfl
      · cases ran
  | storeU64 off value ghost =>
      rw [← (Prod.mk.inj (Option.some.inj ran)).2]
      cases ghost with
      | publish descriptor payload n => exact ⟨_, rfl⟩
      | _ => rfl
  | fetchAddU64 off delta ghost =>
      rw [← (Prod.mk.inj (Option.some.inj ran)).2]
      cases ghost with
      | publish descriptor payload n => exact ⟨_, rfl⟩
      | _ => rfl
  | note ghost =>
      rw [← (Prod.mk.inj (Option.some.inj ran)).2]
      cases ghost with
      | publish descriptor payload n => exact ⟨_, rfl⟩
      | _ => rfl
  | _ =>
      rw [← (Prod.mk.inj (Option.some.inj ran)).2]
      rfl

/-- The published frames are numbered from zero. -/
def Numbered (s : Shared) : Prop :=
  Undisturbed s →
    s.committed.map (·.descriptor.sequence) = (List.range s.committed.length).map UInt64.ofNat

/-- A state that the sink and a consumer's client can reach over a new ring. -/
def Sinks (ring : RingPair) (pcm : PcmConfiguration) (faults : Nat → Option ErrorKind)
    (c : Pair Access Access.Reply UInt64 ConsumerAt Shared) : Prop :=
  Relation.ReflTransGen (PairStep exec (SinkMenu pcm) (ConsumerMenu ring.mapLen))
    ⟨.ret 0, .ret .idle, ring.shared faults⟩ c

section Sinks

variable {sys : SystemCalls} {slotCount payloadCapacity : UInt32} {ring : RingPair}
variable {pcm : PcmConfiguration} {faults : Nat → Option ErrorKind}
variable {c : Pair Access Access.Reply UInt64 ConsumerAt Shared}

theorem sinks_contracts (memory : ring.memory = (g.header 0 0 0).store fun _ => 0)
    (mapLen : ring.mapLen = g.mapLen) (reached : Sinks ring pcm faults c) :
    RingInv g c.shared ∧ (producer g numbered).Holds SinkRests c.left c.shared ∧
      (consumer g fun _ => True).Holds (ConsumerRests g) c.right c.shared := by
  have left₀ : (producer g numbered).Holds SinkRests (.ret 0) (ring.shared faults) :=
    sink_rests ⟨rfl, fun _ => rfl⟩
  unfold Sinks at reached
  rw [mapLen] at reached
  refine RingPair.client_contracts memory ?_ left₀ reached
  rintro _ _ _ _ rests ⟨buffer, captureTimeNs⟩
  exact sink_process rests buffer captureTimeNs

/-- Step lemma: the head store of the sink publishes the next number, and nothing
else publishes. -/
theorem Numbered.append {descriptor : FrameDescriptor} {payload : List UInt8}
    (ih : Numbered s) (label : numbered s descriptor) (earlier : Undisturbed s' → Undisturbed s)
    (committed : s'.committed = s.committed ++ [⟨descriptor, payload⟩]) : Numbered s' := by
  intro undisturbed
  have before := earlier undisturbed
  rw [committed, List.map_append, List.length_append, List.length_singleton, List.range_succ,
    List.map_append, ih before]
  simp [label before]

theorem Numbered.same (ih : Numbered s) (earlier : Undisturbed s' → Undisturbed s)
    (committed : s'.committed = s.committed) : Numbered s' := by
  intro undisturbed
  rw [committed]
  exact ih (earlier undisturbed)

theorem sinks_numbered (memory : ring.memory = (g.header 0 0 0).store fun _ => 0)
    (mapLen : ring.mapLen = g.mapLen) (reached : Sinks ring pcm faults c) :
    Numbered c.shared := by
  induction reached with
  | refl => exact fun _ => rfl
  | tail before step ih =>
      obtain ⟨inv, left, right⟩ := sinks_contracts memory mapLen before
      cases step with
      | leftAct ran =>
          obtain ⟨safe, next⟩ := left.act inv
          have moves := (next _ _ ran).2.1
          have earlier := fun undisturbed =>
            undisturbed_of_le undisturbed moves.faults moves.writes
          have published := exec_committed ran
          split at published
          · exact ih.same earlier published
          · rename_i descriptor publishes
            obtain ⟨payload, committed⟩ := published
            exact ih.append (safe.labelled descriptor publishes) earlier committed
      | leftStart _ => exact ih
      | rightAct ran =>
          have moves := ((right.act inv).2 _ _ ran).2.1
          exact ih.same (fun undisturbed => undisturbed_of_le undisturbed moves.faults
            moves.writes.ge) moves.committed
      | rightStart _ => exact ih

/-- The acquired frames are numbered from zero, as long as no eventfd write fails
and the slots keep count. -/
theorem sinks_acquired (created : RingPair.create 64 sys slotCount payloadCapacity = .ok ring)
    (reached : Sinks ring pcm faults c)
    (counted : c.shared.committed.length < 2 ^ 64 ∨ slotCount.toNat ∣ 2 ^ 64)
    (undisturbed : Undisturbed c.shared) :
    c.shared.acquired.map (·.descriptor.sequence) =
      (List.range c.shared.acquired.length).map UInt64.ofNat := by
  obtain ⟨g, rfl, -, mapLen, memory⟩ := RingPair.create_geometry created
  obtain ⟨inv, -, -⟩ := sinks_contracts memory mapLen reached
  have coherent : Coherent g c.shared.committed.length := by
    rcases counted with few | dvd
    · exact coherent_of_lt few
    · exact coherent_of_dvd dvd
  have delivered := inv.acquired coherent
  have all := sinks_numbered memory mapLen reached undisturbed
  rw [List.prefix_iff_eq_take] at delivered
  have shorter : c.shared.acquired.length ≤ c.shared.committed.length := by
    rw [delivered, List.length_take]
    exact Nat.min_le_right _ _
  calc c.shared.acquired.map (·.descriptor.sequence)
      = (c.shared.committed.map (·.descriptor.sequence)).take c.shared.acquired.length := by
        rw [← List.map_take, ← delivered]
    _ = (List.range c.shared.acquired.length).map UInt64.ofNat := by
        rw [all, ← List.map_take, List.take_range, Nat.min_eq_left shorter]

end Sinks

/-- Publication and result agree. In every state that clients of a new ring reach,
an uninterrupted `commit` or `try_push_copy` returns, and its result agrees with
its effect exactly when the ring is full, the payload does not fit or the
eventfd write does not fail. And as long as no eventfd write fails, a consumer
of the sink acquires frames numbered 0, 1, 2 and so on. -/
theorem publication_atomic {sys : SystemCalls} {slotCount payloadCapacity : UInt32}
    {ring : RingPair} (created : RingPair.create 64 sys slotCount payloadCapacity = .ok ring)
    (faults : Nat → Option ErrorKind) :
    (∀ c, ring.Reaches payloadCapacity faults c → c.shared.committed.length + 1 < 2 ^ 64 →
      ∀ given lease slice image, c.left = .ret (.leased given lease slice image) →
      ∀ descriptor payloadBytes, ∃ result t,
        (lease.commit descriptor payloadBytes).run exec c.shared = some (result, t) ∧
        (CommitAtomic c.shared t result ↔
          payloadCapacity.toNat < payloadBytes ∨ ¬ SignalFails c.shared)) ∧
    (∀ c, ring.Reaches payloadCapacity faults c → c.shared.committed.length + 1 < 2 ^ 64 →
      ∀ given, c.left = .ret (.idle given) → ∀ descriptor payload, ∃ result t,
        (Producer.tryPushCopy descriptor payload).run exec c.shared = some (result, t) ∧
        (PushAtomic c.shared t result ↔
          slotCount.toNat ≤
              (c.shared.memory.u64 headOffset - c.shared.memory.u64 tailOffset).toNat ∨
            payloadCapacity.toNat < payload.length ∨ ¬ SignalFails c.shared)) ∧
    ∀ pcm c, Sinks ring pcm faults c →
      (c.shared.committed.length < 2 ^ 64 ∨ slotCount.toNat ∣ 2 ^ 64) → Undisturbed c.shared →
      c.shared.acquired.map (·.descriptor.sequence) =
        (List.range c.shared.acquired.length).map UInt64.ofNat := by
  refine ⟨?_, ?_, fun _ _ reached counted undisturbed =>
    sinks_acquired created reached counted undisturbed⟩
  · intro c reached few given lease slice image rests descriptor payloadBytes
    obtain ⟨g, rfl, rfl, inv, left, -⟩ := RingPair.reaches_contracts created reached
    rw [rests] at left
    exact commitAtomic_iff inv (left.ret inv).1 few descriptor payloadBytes
  · intro c reached few given rests descriptor payload
    obtain ⟨g, rfl, rfl, inv, left, -⟩ := RingPair.reaches_contracts created reached
    rw [rests] at left
    rw [inv.full]
    exact pushAtomic_iff inv (left.ret inv).1 few descriptor payload

def samplePcm : PcmConfiguration := ⟨48000, 16, 1, 10000⟩

/-- Two quanta through the sink; a consumer acquires both. -/
def twoFrames (faults : Nat → Option ErrorKind) : Option (UInt64 × ConsumerAt × Shared) :=
  ((process samplePcm 0 (some [⟨0, 2, some [1, 2]⟩]) 0).run exec
    (sampleRing.shared faults)).bind fun (q₁, s₁) =>
  ((process samplePcm q₁ (some [⟨0, 2, some [3, 4]⟩]) 1).run exec s₁).bind fun (q₂, s₂) =>
  (ConsumerAt.acquire.run exec s₂).bind fun (p₁, s₃) =>
  match p₁ with
  | .holding lease _ =>
      ((ConsumerAt.drop lease).run exec s₃).bind fun (p₂, s₄) =>
      match p₂ with
      | .idle => (ConsumerAt.acquire.run exec s₄).bind fun (p₃, s₅) => some (q₂, p₃, s₅)
      | _ => none
  | _ => none

theorem twoFrames_sinks {faults : Nat → Option ErrorKind} {q : UInt64} {p : ConsumerAt}
    {t : Shared} (ran : twoFrames faults = some (q, p, t)) :
    Sinks sampleRing samplePcm faults ⟨.ret q, .ret p, t⟩ := by
  simp only [twoFrames, Option.bind_eq_some_iff, Prod.exists] at ran
  obtain ⟨q₁, s₁, first, q₂, s₂, second, p₁, s₃, acquired, ran⟩ := ran
  cases p₁ with
  | idle => cases ran
  | lost => cases ran
  | holding lease seen =>
      obtain ⟨⟨p₂, s₄⟩, dropped, ran⟩ := Option.bind_eq_some_iff.mp ran
      cases p₂ with
      | lost => cases ran
      | holding lease' seen' => cases ran
      | idle =>
          obtain ⟨⟨p₃, s₅⟩, again, ran⟩ := Option.bind_eq_some_iff.mp ran
          obtain ⟨rfl, rfl, rfl⟩ : q₂ = q ∧ p₃ = p ∧ s₅ = t := by simpa using ran
          refine .head (.leftStart (.process _ _)) ((left_run first).trans ?_)
          refine .head (.leftStart (.process _ _)) ((left_run second).trans ?_)
          refine .head (.rightStart .acquire) ((right_run acquired).trans ?_)
          refine .head (.rightStart .drop) ((right_run dropped).trans ?_)
          exact .head (.rightStart .acquire) (right_run again)

theorem publication_atomic_two_frames :
    ∃ c, Sinks sampleRing samplePcm (fun _ => none) c ∧ c.shared.acquired.length = 2 ∧
      c.shared.acquired.map (·.descriptor.sequence) =
        (List.range c.shared.acquired.length).map UInt64.ofNat := by
  have outcome : (twoFrames fun _ => none).map (fun out => decide
      (out.2.2.acquired.length = 2 ∧ out.2.2.committed.length < 2 ^ 64 ∧
        ∀ i < out.2.2.event.writes, out.2.2.event.faults i = none)) = some true := by
    decide +kernel
  obtain ⟨⟨q, p, t⟩, ran, checked⟩ := Option.map_eq_some_iff.mp outcome
  obtain ⟨two, few, sound⟩ := of_decide_eq_true checked
  have undisturbed : Undisturbed t := by
    intro i early errno
    rw [sound i early]
    exact nofun
  exact ⟨_, twoFrames_sinks ran, two, (publication_atomic sampleRing_created fun _ => none).2.2 _ _
    (twoFrames_sinks ran) (.inl few) undisturbed⟩

/-- The first eventfd write fails with `EBADF`. The push that runs into it returns
an error and has moved the head; the sink uses number 0 twice. -/
theorem publication_not_atomic :
    ((Producer.tryPushCopy (FrameDescriptor.new .pcm 0) [1, 2]).run exec
        (sampleRing.shared fun i => if i = 0 then some (.other 9) else none)).map
      (fun out => (out.1 matches .error _, out.2.memory.u64 headOffset)) = some (true, 1) ∧
    (sampleRing.shared fun i => if i = 0 then some (.other 9) else none).memory.u64 headOffset = 0 ∧
    ∃ c, Sinks sampleRing samplePcm (fun i => if i = 0 then some (.other 9) else none) c ∧
      c.shared.acquired.map (·.descriptor.sequence) = [0, 0] := by
  refine ⟨by decide +kernel, by decide +kernel, ?_⟩
  have outcome : (twoFrames fun i => if i = 0 then some (.other 9) else none).map
      (·.2.2.acquired.map (·.descriptor.sequence)) = some [0, 0] := by decide +kernel
  obtain ⟨⟨q, p, t⟩, ran, repeated⟩ := Option.map_eq_some_iff.mp outcome
  exact ⟨_, twoFrames_sinks ran, repeated⟩

end Dorsche.Wireless.PipeWire
