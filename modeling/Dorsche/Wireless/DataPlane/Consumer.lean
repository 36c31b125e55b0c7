import Dorsche.Wireless.DataPlane.Contracts

/-!
The consumer's operations under its contract.

One specification for each operation of `Consumer` and `FrameLease`, and for
one turn of `wait_readable`.
-/

namespace Dorsche.Wireless.DataPlane

open Dorsche.Lib

variable {g : Geometry} {park : Shared → Prop}
variable {s s' : Shared}

/-- A lease of the first visible slot. -/
structure Held (g : Geometry) (lease : FrameLease) (s : Shared) : Prop where
  tail : lease.tail = UInt64.ofNat s.released
  payloadOffset : lease.payloadOffset = g.payloadAt s.released
  nonempty : s.released < s.committed.length
  frame : Coherent g s.committed.length →
    ∃ f, s.committed[s.released]? = some f ∧ lease.descriptor = f.descriptor

theorem Held.moved {lease : FrameLease} (held : Held g lease s) (moves : ProducerMoves s s') :
    Held g lease s' := by
  have longer := moves.committed.length_le
  refine ⟨?_, ?_, ?_, ?_⟩
  · rw [moves.released, held.tail]
  · rw [moves.released, held.payloadOffset]
  · rw [moves.released]
    exact held.nonempty.trans_le longer
  · intro coherent
    obtain ⟨f, is, descriptor⟩ := held.frame (coherent.mono longer)
    refine ⟨f, ?_, descriptor⟩
    obtain ⟨rest, longerBy⟩ := moves.committed
    rw [moves.released, ← longerBy, List.getElem?_append_left held.nonempty, is]

/-- While a lease is held, its payload is that of the frame it was taken for. -/
theorem Held.payload_eq {lease : FrameLease} (held : Held g lease s) (inv : RingInv g s)
    (coherent : Coherent g s.committed.length) :
    s.committed[s.released]? = some ⟨lease.descriptor,
      s.memory.read lease.payload.offset lease.payload.len⟩ := by
  obtain ⟨f, is, descriptor⟩ := held.frame coherent
  have stored := inv.contents coherent _ f le_rfl is
  rw [is]
  simp only [FrameLease.payload, held.payloadOffset, descriptor, stored.payload]

/-- What `try_acquire` finds: nothing, and then a wakeup will come for the next
frame; a lease of the first visible slot; or an error, which takes slots that
have lost count. -/
def Acquired (g : Geometry) (s : Shared) (result : Except RingError (Option FrameLease))
    (t : Shared) : Prop :=
  ProducerMoves s t ∧
    match result with
    | .ok none => Wakeful t
    | .ok (some lease) => Held g lease t
    | .error _ => ¬ Coherent g t.committed.length

/-- The descriptor read from the first visible slot is that of a frame. -/
theorem descriptor_of_visible {k : Nat} (inv : RingInv g s) (visible : s.released ≤ k)
    (nonempty : k < s.committed.length) (coherent : Coherent g s.committed.length) :
    ∃ f, s.committed[k]? = some f ∧ f.WellFormed g ∧
      FrameDescriptor.decode (s.memory.read (g.slotAt k) FrameDescriptor.sizeOf) =
        f.descriptor := by
  have is : s.committed[k]? = some s.committed[k] := List.getElem?_eq_getElem nonempty
  exact ⟨_, is, inv.wellFormed _ (List.getElem_mem nonempty),
    (inv.contents coherent k _ visible is).descriptor⟩

/-- An error is returned, which takes slots that have lost count. -/
theorem consumer_rejects {t : Shared} {error : RingError} (path : ProducerMoves s t)
    (incoherent : ¬ Coherent g t.committed.length) :
    (consumer g park).Holds (Acquired g s) (.ret (.error error)) t := by
  refine .of_ret fun t' moved _ => ⟨path.trans moved, ?_⟩
  intro coherent
  exact incoherent (coherent.mono moved.committed.length_le)

theorem consumer_tryAcquire :
    (consumer g park).Holds (Acquired g s) Consumer.tryAcquire s := by
  unfold Consumer.tryAcquire
  simp only [access, Prog.perform_bind]
  apply consumer_load (fun t => t.memory.u64 tailOffset) rfl (fun _ => rfl)
  intro t₁ moved₁ inv₁
  apply consumer_load (fun t => t.memory.u64 headOffset) rfl (fun _ => rfl)
  intro t₂ moved₂ inv₂
  have path₂ : ProducerMoves s t₂ := moved₁.trans moved₂
  have empty : t₁.memory.u64 tailOffset = t₂.memory.u64 headOffset ↔
      t₂.released = t₂.committed.length := by
    rw [← inv₂.tail_eq_head_iff, inv₁.tail, inv₂.tail, moved₂.released]
  by_cases nothing : t₂.released = t₂.committed.length
  · rw [if_pos (empty.mpr nothing)]
    apply Contract.Holds.of_ret
    intro t₃ moved₃ _
    exact ⟨path₂.trans moved₃, fun sound => moved₃.awake sound (.inr (.inr nothing.symm))⟩
  · rw [if_neg (mt empty.mp nothing), inv₁.tail]
    have nonempty : t₂.released < t₂.committed.length := lt_of_le_of_ne inv₂.released_le nothing
    apply (consumer_reads.slot trivial t₁.released).bind
    intro slot t₃ _ located
    obtain ⟨rfl, moved₃⟩ := located
    apply consumer_load (fun t => FrameDescriptor.decode
        (t.memory.read (g.slotAt t₁.released) FrameDescriptor.sizeOf)) rfl (fun _ => rfl)
    intro t₄ moved₄ inv₄
    have late : ProducerMoves t₂ t₄ := moved₃.trans moved₄
    have path₄ : ProducerMoves s t₄ := path₂.trans late
    have here : t₄.released = t₁.released := late.released.trans moved₂.released
    have visible : t₁.released < t₄.committed.length := by
      rw [← moved₂.released]
      exact nonempty.trans_le late.committed.length_le
    have found (coherent : Coherent g t₄.committed.length) :=
      descriptor_of_visible inv₄ here.le visible coherent
    generalize FrameDescriptor.decode
      (t₄.memory.read (g.slotAt t₁.released) FrameDescriptor.sizeOf) = d at found ⊢
    by_cases abi : d.abiVersion = wirelessAudioAbiVersion
    · rw [if_neg (not_not.mpr abi)]
      by_cases size : d.headerBytes.toNat = FrameDescriptor.sizeOf
      · rw [if_neg (not_not.mpr size)]
        apply consumer_load (fun t => t.memory.u32 payloadCapacityOffset) rfl
          (fun _ => rfl)
        intro t₅ moved₅ inv₅
        rw [inv₅.shaped.payloadCapacity]
        by_cases bounded : d.payloadBytes ≤ g.payloadCapacity
        · rw [if_neg (not_not.mpr bounded)]
          apply Contract.Holds.of_ret
          intro t₆ moved₆ _
          have held₄ : Held g ⟨d, g.slotAt t₁.released + FrameDescriptor.sizeOf,
              UInt64.ofNat t₁.released⟩ t₄ := by
            refine ⟨by rw [here], by rw [here]; rfl, by rw [here]; exact visible, ?_⟩
            intro coherent
            obtain ⟨f, is, -, same⟩ := found coherent
            exact ⟨f, by rw [here]; exact is, same⟩
          exact ⟨(path₄.trans moved₅).trans moved₆, (held₄.moved moved₅).moved moved₆⟩
        · rw [if_pos bounded]
          apply consumer_rejects (path₄.trans moved₅)
          intro coherent
          obtain ⟨f, -, wf, rfl⟩ := found (coherent.mono moved₅.committed.length_le)
          exact bounded wf.payloadBytes
      · rw [if_pos size]
        apply consumer_rejects path₄
        intro coherent
        obtain ⟨f, -, wf, rfl⟩ := found coherent
        exact size (by rw [wf.headerBytes])
    · rw [if_pos abi]
      apply consumer_rejects path₄
      intro coherent
      obtain ⟨f, -, wf, rfl⟩ := found coherent
      exact abi wf.abiVersion

/-- Dropping a lease gives its slot back and touches nothing else. -/
theorem consumer_drop {lease : FrameLease} (held : Held g lease s) :
    (consumer g park).Holds (fun _ t => s.committed <+: t.committed ∧
        t.released = s.released + 1 ∧ t.acquired = s.acquired)
      lease.drop s := by
  obtain ⟨descriptor, payloadOffset, tail⟩ := lease
  obtain rfl : tail = UInt64.ofNat s.released := held.tail
  unfold FrameLease.drop
  refine consumer_act (fun _ => ()) (fun t => { t with
      released := t.released + 1
      memory := t.memory.setWord 8 tailOffset (UInt64.ofNat s.released + 1).toNat })
    (fun _ => rfl) (by simp) fun t moved inv => ?_
  have heldT := held.moved moved
  refine ⟨?_, ?_, ?_⟩
  · refine inv.release heldT.nonempty ?_ rfl rfl rfl rfl rfl
    rw [moved.released, ← ofNat_add_one]
    exact cursorStore _ _ (by decide) (by decide)
  · refine ⟨rfl, Nat.le_succ _, rfl, rfl, rfl, rfl, fun o away => ?_⟩
    exact Memory.write_apply_of_outside (by rwa [length_leBytes])
  · apply Contract.Holds.of_ret
    intro t₁ moved₁ _
    exact ⟨moved.committed.trans moved₁.committed,
      moved₁.released.trans (congrArg (· + 1) moved.released),
      moved₁.acquired.trans moved.acquired⟩

/-- The consumer has neither acquired nor given back anything. -/
structure Idles (s t : Shared) : Prop where
  committed : s.committed <+: t.committed
  released : t.released = s.released
  acquired : t.acquired = s.acquired

theorem ProducerMoves.idles (moves : ProducerMoves s s') : Idles s s' :=
  ⟨moves.committed, moves.released, moves.acquired⟩

theorem Idles.moved {t t' : Shared} (idles : Idles s t) {b : Bool} {e : EventFd}
    (moves : ProducerMoves { t with ready := b, event := e } t') : Idles s t' :=
  ⟨idles.committed.trans moves.committed, moves.released.trans idles.released,
    moves.acquired.trans idles.acquired⟩

/-- One turn of `wait_readable`. `park` is what the consumer knows when it goes
to wait; a turn that finds no wakeup leaves it true. -/
theorem consumer_waitReadableTurn (start : park s)
    (stable : ∀ t t', ProducerMoves t t' → park t → park t')
    (unready : ∀ t ready, park t → park { t with ready := ready }) :
    (consumer g park).Holds (fun result t => Idles s t ∧ (result = none → park t))
      Consumer.waitReadableTurn s := by
  unfold Consumer.waitReadableTurn
  simp only [access, Prog.perform_bind]
  refine .of_act fun t₁ moved₁ inv₁ => ?_
  have park₁ : park t₁ := stable s t₁ moved₁ start
  refine ⟨⟨by simp, fun _ => park₁⟩, fun r t₁' ran => ?_⟩
  obtain rfl : { t₁ with ready := true } = t₁' := by
    change (if _ then some ((), { t₁ with ready := true }) else none) = some (r, t₁') at ran
    split at ran
    · exact (Prod.mk.inj (Option.some.inj ran)).2
    · cases ran
  refine ⟨inv₁.congr rfl rfl rfl rfl rfl rfl, ⟨rfl, le_rfl, rfl, rfl, rfl, rfl, fun _ _ => rfl⟩, ?_⟩
  apply consumer_act (fun t => t.event.read.1) (fun t => { t with event := t.event.read.2 })
    (fun _ => rfl) (by simp)
  intro t₂ moved₂ inv₂
  have idles₂ : Idles s t₂ := moved₁.idles.moved moved₂
  have park₂ : park t₂ := stable _ t₂ moved₂ (unready t₁ true park₁)
  refine ⟨inv₂.congr rfl rfl rfl rfl rfl rfl, ⟨rfl, le_rfl, rfl, rfl, t₂.event.read_faults,
    t₂.event.read_writes, fun _ _ => rfl⟩, ?_⟩
  cases outcome : t₂.event.read.1 with
  | ok value =>
      exact .of_ret fun t₃ moved₃ _ => ⟨idles₂.moved moved₃, by rintro ⟨⟩⟩
  | error kind =>
      cases kind with
      | other errno =>
          exact .of_ret fun t₃ moved₃ _ => ⟨idles₂.moved moved₃, by rintro ⟨⟩⟩
      | wouldBlock =>
          rw [EventFd.read_of_error outcome]
          apply consumer_act (fun _ => ()) (fun t => { t with ready := false })
            (fun _ => rfl) (by simp)
          intro t₃ moved₃ inv₃
          refine ⟨inv₃.congr rfl rfl rfl rfl rfl rfl,
            ⟨rfl, le_rfl, rfl, rfl, rfl, rfl, fun _ _ => rfl⟩, ?_⟩
          refine .of_ret fun t₄ moved₄ _ => ⟨(idles₂.moved moved₃).moved moved₄, fun _ => ?_⟩
          exact stable _ t₄ moved₄ (unready t₃ false (stable t₂ t₃ moved₃ park₂))

end Dorsche.Wireless.DataPlane
