import Dorsche.Wireless.Floss.Parts
import Mathlib.Algebra.BigOperators.Group.List.Basic

/-!
The waiting loops come to an end.

Each turn of `wait_started` and `connect_with_deadline` that goes on sleeps, so
the loop budget is not spent as long as the clock advances by what is slept.
-/

namespace Dorsche.Wireless.Floss

open Dorsche.Lib BluetoothMedia

variable {V : Type}

section Waiting

open Attempt

variable {turns : Nat} {directions : FlossLeDirections} {t u : Trace V} {deadline timeout : Nat}

def Call.slept : Call → Nat
  | .sleep ns => ns
  | _ => 0

/-- The time a run spends asleep. -/
def slept (t : Trace V) : Nat := (t.map fun e => e.1.slept).sum

/-- Between two readings the clock advances by at least the time asleep. -/
def ClockAdvances (t : Trace V) : Prop :=
  ∀ (before between after : Trace V) (first second : Nat),
    t = before ++ ⟨.now, first⟩ :: between ++ ⟨.now, second⟩ :: after →
    first + slept between ≤ second

theorem ClockAdvances.suffix (advances : ClockAdvances (t ++ u)) : ClockAdvances u := by
  rintro before between after first second rfl
  exact advances (t ++ before) between after first second (by simp)

theorem slept_append : slept (t ++ u) = slept t + slept u := by
  simp [slept]

/-- A turn that goes on: it polls, reads the clock before the deadline, and pauses. -/
def GoesOn (deadline : Nat) (u : Trace V) : Prop :=
  ∃ polls reading, u = polls ++ [⟨.now, reading⟩, ⟨.sleep pause, ()⟩] ∧
    reading < deadline ∧ slept polls = 0

/-- A loop of such turns ends before its budget when the budget covers the timeout. -/
theorem loop_ends {α : Type} {turn : Control V (Option α)} {start budget : Nat}
    (goesOn : ∀ u, Attempt.Traces turn u (some (.ok none)) → GoesOn (start + timeout) u)
    (ends : Ends turn) (enough : timeout + pause ≤ budget * pause)
    (advances : ClockAdvances (⟨.now, start⟩ :: t)) :
    ¬ Attempt.Traces (loop turn budget) t none := by
  intro traces
  have spends : slept t = budget * pause ∧
      (ClockAdvances (⟨.now, start⟩ :: t) → budget * pause < timeout + pause) := by
    refine loop_spends (P := fun n t => slept t = n * pause ∧
      (ClockAdvances (⟨.now, start⟩ :: t) → n * pause < timeout + pause)) ?_ ?_ ends traces
    · exact ⟨by simp [slept], fun _ => by simp [pause]⟩
    · rintro n t _ ⟨asleep, -⟩ turned
      obtain ⟨polls, reading, rfl, early, awake⟩ := goesOn _ turned
      refine ⟨?_, fun advances => ?_⟩
      · rw [slept_append, slept_append, asleep, awake]
        simp [slept, Call.slept, Nat.add_mul]
      · have apart := advances [] (t ++ polls) [⟨.sleep pause, ()⟩] start reading (by simp)
        rw [slept_append, asleep, awake] at apart
        rw [Nat.add_mul]
        omega
  have := spends.2 advances
  omega

theorem slept_eq_zero (awake : ∀ e ∈ t, e.1.slept = 0) : slept t = 0 := by
  apply List.sum_eq_zero
  intro time mem
  obtain ⟨e, asked, rfl⟩ := List.mem_map.mp mem
  exact awake e asked

theorem streamStarted_awake {direction : Direction} :
    Only (R := Call.Reply V) (fun call => call.slept = 0) (streamStarted directions direction) := by
  unfold streamStarted
  split
  · exact (only_call (only_ask (S := fun call => call.slept = 0) (.getStreamStarted direction)
      rfl)).bind fun _ => only_pure
  · exact only_pure

theorem streamStarted_ends {direction : Direction} :
    Ends (streamStarted directions direction : Control V Bool) := by
  unfold streamStarted
  split
  · exact ends_call.bind fun _ => ends_pure
  · exact ends_pure

theorem waitStartedTurn_goesOn
    (traces : Attempt.Traces (waitStartedTurn directions deadline) u (some (.ok none))) :
    GoesOn deadline u := by
  obtain ⟨host, u₁, v, rfl, first, rest⟩ := traces_bind_ok.mp traces
  obtain ⟨peer, u₂, w, rfl, second, rest⟩ := traces_bind_ok.mp rest
  split at rest
  · cases (traces_pure.mp rest).2
  · obtain ⟨reading, w, rfl, read⟩ := (traces_ask_bind .now).mp rest
    split at read
    · cases (traces_throw.mp read).2
    · rename_i early
      obtain ⟨_, x, rfl, paused⟩ := (traces_ask_bind (.sleep pause)).mp read
      obtain ⟨rfl, -⟩ := traces_pure.mp paused
      refine ⟨u₁ ++ u₂, reading, by simp, Nat.lt_of_not_le early, slept_eq_zero ?_⟩
      exact List.forall_mem_append.mpr
        ⟨streamStarted_awake _ _ first, streamStarted_awake _ _ second⟩

theorem waitStarted_ends (enough : timeout + pause ≤ turns * pause) (advances : ClockAdvances t) :
    ¬ Attempt.Traces (waitStarted turns directions timeout) t none := by
  intro traces
  obtain ⟨start, t, rfl, looped⟩ := (traces_ask_bind .now).mp traces
  refine loop_ends (fun u turned => waitStartedTurn_goesOn turned) ?_ enough advances looped
  refine streamStarted_ends.bind fun _ => streamStarted_ends.bind fun _ => ?_
  split
  · exact ends_pure
  · apply ends_always.bind
    intro _
    split
    · exact ends_throw
    · exact ends_always.bind fun _ => ends_pure

theorem connectTurn_goesOn {path : String}
    (traces : Attempt.Traces (connectTurn path deadline) u (some (.ok none))) :
    GoesOn deadline u := by
  obtain ⟨reply, v, rfl, rest⟩ := (traces_ask_bind (.connect path)).mp traces
  cases reply with
  | ok stream => cases (traces_pure.mp rest).2
  | error error =>
      obtain ⟨reading, w, rfl, read⟩ := (traces_ask_bind .now).mp rest
      split at read
      · rename_i early
        obtain ⟨_, x, rfl, paused⟩ := (traces_ask_bind (.sleep pause)).mp read
        obtain ⟨rfl, -⟩ := traces_pure.mp paused
        exact ⟨[⟨.connect path, .error error⟩], reading, by simp, early, rfl⟩
      · cases (traces_throw.mp read).2

theorem connectWithDeadline_ends {path : String} (enough : timeout + pause ≤ turns * pause)
    (advances : ClockAdvances t) :
    ¬ Attempt.Traces (connectWithDeadline turns path timeout) t none := by
  intro traces
  obtain ⟨start, t, rfl, looped⟩ := (traces_ask_bind .now).mp traces
  refine loop_ends (fun u turned => connectTurn_goesOn turned) ?_ enough advances looped
  apply ends_always.bind
  intro reply
  cases reply with
  | ok stream => exact ends_pure
  | error error =>
      apply ends_always.bind
      intro _
      split
      · exact ends_always.bind fun _ => ends_pure
      · exact ends_throw

theorem activate_ends {self : FlossLeAudio} {groupId : Int32} :
    Ends (self.activate groupId directions : Control V Unit) := by
  refine ends_lift.bind fun _ => ends_lift.bind fun _ => Ends.bind ?proxy fun _ =>
    ends_call.bind fun _ => Ends.bind ?source fun _ => ?sink
  case proxy =>
    exact ends_call.bind fun _ => ends_call.bind fun _ => ends_always.bind fun _ => ends_lift
  case source =>
    unfold FlossLeAudio.announceSource
    split
    · exact ends_call.bind fun _ => ends_lift
    · exact ends_pure
  case sink =>
    unfold FlossLeAudio.announceSink
    split
    · exact ends_call.bind fun _ => ends_lift
    · exact ends_pure

theorem abandon_ends {host peer : Bool} {error : String} :
    Ends (do stopDirections host peer; throw error : Control V FlossLeDataPath) := by
  refine Ends.bind (fun t traces => ?_) fun _ => ends_throw
  cases (stopDirections_spec ⟨host, peer⟩ traces).1

theorem startDirections_ends (enough : 8000000000 + pause ≤ turns * pause)
    (advances : ClockAdvances t) :
    ¬ Attempt.Traces (FlossLeAudio.startDirections turns directions) t none := by
  intro traces
  obtain ⟨host, first, t₁, t₂, rfl, -, rest⟩ := requestStart_bind traces
  cases first with
  | error error => cases (traces_pure.mp rest).2
  | ok done =>
      obtain ⟨peer, second, u₁, u₂, rfl, -, rest⟩ := requestStart_bind rest
      cases second with
      | error error => cases (traces_pure.mp rest).2
      | ok done =>
          rcases traces_outcome_bind.mp rest with ⟨waited, w₁, w₂, rfl, -, rest⟩ | ⟨waiting, -⟩
          · cases (traces_pure.mp rest).2
          · exact waitStarted_ends enough advances.suffix.suffix waiting

theorem openDataPath_ends [OwnedValue V] {self : FlossLeAudio} {host peer : Bool}
    (enough : 5000000000 + pause ≤ turns * pause) (advances : ClockAdvances t) :
    ¬ Attempt.Traces (self.openDataPath turns directions host peer) t none := by
  have read (d : Direction) : Ends (FlossLeAudio.pcmConfig directions d : Control V _) := by
    intro t traces
    obtain ⟨_, same, -⟩ := pcmConfig_spec traces
    cases same
  intro traces
  rcases traces_bind_none.mp traces with ⟨hostPcm, u₁, v, rfl, -, rest⟩ | asked
  · rcases traces_bind_none.mp rest with ⟨peerPcm, u₂, w, rfl, -, rest⟩ | asked
    · rcases traces_outcome_bind.mp rest with ⟨connected, x, y, rfl, -, rest⟩ | ⟨connecting, -⟩
      · cases connected with
        | error error => exact abandon_ends _ rest
        | ok stream => exact ends_pure _ rest
      · exact connectWithDeadline_ends enough advances.suffix.suffix connecting
    · exact read _ _ asked
  · exact read _ _ asked

/-- 401 turns are enough when the clock advances while the process sleeps. -/
theorem startSoftwareUnicast_ends [OwnedValue V] {self : FlossLeAudio} {groupId : Int32}
    (enough : 401 ≤ turns) (advances : ClockAdvances t) :
    ¬ Attempt.Traces (self.startSoftwareUnicast turns groupId directions) t none := by
  have eight : 8000000000 + pause ≤ turns * pause := by
    unfold pause
    omega
  have five : 5000000000 + pause ≤ turns * pause := by omega
  intro traces
  rcases traces_bind_none.mp traces with ⟨_, pre, t', rfl, -, rest⟩ | activated
  · rcases traces_bind_none.mp rest with ⟨⟨host, peer, waited⟩, s, t'', rfl, -, rest⟩ | starting
    · cases waited with
      | error error => exact abandon_ends _ rest
      | ok done => exact openDataPath_ends five advances.suffix.suffix rest
    · exact startDirections_ends eight advances.suffix starting
  · exact activate_ends _ activated

end Waiting

end Dorsche.Wireless.Floss
