import Dorsche.Bin.FlossHfpSmoke.Loopback

/-!
The capture half of `exercise_loopback` (`src/bin/floss_hfp_smoke.rs`) on its own,
with time passing between any two of its statements.

`Capture.step` takes a read, the reading of the clock behind it and the `expect` in
one step. Here each of them is a step, so a read may be returned before the capture
deadline and judged after it. The rest of the program is reduced to what the half can
see of it: the channel takes a frame or not. `refines` leads back to `Capture.step`.
-/

namespace Dorsche.Bin.FlossHfpSmoke

open Dorsche.Lib

/-- Where the capture half is. -/
inductive Stage where
  /-- At `select!` between the deadline and the socket. -/
  | selecting
  /-- The read has returned some octets; `Instant::now()` is next. -/
  | judging (octets : List UInt8)
  /-- Counted and recorded; `expect("sender exists before capture deadline")` is next. -/
  | expecting (octets : List UInt8)
  /-- At `select!` between the deadline and the channel. -/
  | sending (frame : List UInt8)
  | returned
  | failed (text : String)
  | panicked
deriving DecidableEq, Repr

/-- No octets are held. -/
def Stage.Resting : Stage → Prop
  | .selecting | .returned | .failed _ => True
  | _ => False

/-- The capture half, and the clock. -/
structure Uplink where
  now : Nat
  stage : Stage
  /-- `tx.is_some()`. -/
  tx : Bool
  stats : CaptureStats
  capturedPcm : List UInt8
deriving DecidableEq, Repr

inductive Occurrence where
  /-- The clock never runs backwards. -/
  | elapse (time : Nat)
  /-- A `sleep_until` completes. -/
  | timer
  /-- The octets of a `read`; none of them at the end of the stream. -/
  | read (octets : List UInt8)
  | readError
  /-- `Instant::now()`. -/
  | clock
  | expect
  | send
  | sendError
deriving DecidableEq, Repr

namespace Uplink

def start (setup : Setup) : Uplink := ⟨setup.started, .selecting, true, .initial, []⟩

def phaseDeadline (setup : Setup) (self : Uplink) : Nat :=
  if self.tx then setup.captureDeadline else setup.drainDeadline

/-- `stats.account` and `extend_from_slice`. -/
def record (self : Uplink) (octets : List UInt8) : Uplink :=
  { self with
    stats := self.stats.account octets
    capturedPcm := self.capturedPcm ++ octets }

def step (setup : Setup) (self : Uplink) : Occurrence → Option (Act × Uplink)
  | .elapse time => some (.silent, { self with now := self.now + time })
  | .timer =>
      match self.stage with
      | .selecting =>
          if self.phaseDeadline setup ≤ self.now then
            if self.tx ∧ self.phaseDeadline setup < setup.drainDeadline then
              some (.silent, { self with tx := false })
            else some (.silent, { self with tx := false, stage := .returned })
          else none
      | .sending frame =>
          if setup.captureDeadline ≤ self.now then
            some (.abandoned frame, { self with tx := false, stage := .selecting })
          else none
      | _ => none
  | .read octets =>
      match self.stage with
      | .selecting =>
          if 640 < octets.length then none
          else if octets = [] then some (.silent, { self with stage := .returned })
          else some (.silent, { self with stage := .judging octets })
      | _ => none
  | .readError =>
      match self.stage with
      | .selecting => some (.silent, { self with stage := .failed "read SCO microphone PCM" })
      | _ => none
  | .clock =>
      match self.stage with
      | .judging octets =>
          if setup.captureDeadline ≤ self.now then
            some (.silent, { self with tx := false, stage := .selecting })
          else some (.captured octets, { self.record octets with stage := .expecting octets })
      | _ => none
  | .expect =>
      match self.stage with
      | .expecting octets =>
          if self.tx then some (.silent, { self with stage := .sending octets })
          else some (.silent, { self with stage := .panicked })
      | _ => none
  | .send =>
      match self.stage with
      | .sending frame => some (.sent frame, { self with stage := .selecting })
      | _ => none
  | .sendError =>
      match self.stage with
      | .sending _ => some (.silent, { self with stage := .returned })
      | _ => none

def Step (setup : Setup) (s : Uplink) (act : Act) (s' : Uplink) : Prop :=
  ∃ occurrence, s.step setup occurrence = some (act, s')

/-! ### What a step does -/

/-- The moves of the capture half. A sender is taken only after the capture deadline, and
octets are recorded only before it. -/
inductive Moves (setup : Setup) : Uplink → Act → Uplink → Prop where
  | elapses {s : Uplink} {time : Nat} :
      Moves setup s .silent { s with now := s.now + time }
  | closes {s : Uplink} : s.stage = .selecting → s.tx = true → setup.captureDeadline ≤ s.now →
      setup.captureDeadline < setup.drainDeadline → Moves setup s .silent { s with tx := false }
  | drained {s : Uplink} : s.stage = .selecting → s.phaseDeadline setup ≤ s.now →
      ¬ (s.tx ∧ s.phaseDeadline setup < setup.drainDeadline) →
      Moves setup s .silent { s with tx := false, stage := .returned }
  | ends {s : Uplink} : s.stage = .selecting → Moves setup s .silent { s with stage := .returned }
  | fails {s : Uplink} : s.stage = .selecting →
      Moves setup s .silent { s with stage := .failed "read SCO microphone PCM" }
  | reads {s : Uplink} {octets : List UInt8} : s.stage = .selecting → octets ≠ [] →
      octets.length ≤ 640 → Moves setup s .silent { s with stage := .judging octets }
  | late {s : Uplink} {octets : List UInt8} : s.stage = .judging octets →
      setup.captureDeadline ≤ s.now →
      Moves setup s .silent { s with tx := false, stage := .selecting }
  | records {s : Uplink} {octets : List UInt8} : s.stage = .judging octets →
      s.now < setup.captureDeadline →
      Moves setup s (.captured octets) { s.record octets with stage := .expecting octets }
  | borrows {s : Uplink} {octets : List UInt8} : s.stage = .expecting octets → s.tx = true →
      Moves setup s .silent { s with stage := .sending octets }
  | panics {s : Uplink} {octets : List UInt8} : s.stage = .expecting octets → s.tx = false →
      Moves setup s .silent { s with stage := .panicked }
  | abandons {s : Uplink} {frame : List UInt8} : s.stage = .sending frame →
      setup.captureDeadline ≤ s.now →
      Moves setup s (.abandoned frame) { s with tx := false, stage := .selecting }
  | sends {s : Uplink} {frame : List UInt8} : s.stage = .sending frame →
      Moves setup s (.sent frame) { s with stage := .selecting }
  | refused {s : Uplink} {frame : List UInt8} : s.stage = .sending frame →
      Moves setup s .silent { s with stage := .returned }

variable {setup : Setup} {s s' : Uplink} {act : Act} {log : List Act}

theorem moves (taken : Step setup s act s') : Moves setup s act s' := by
  obtain ⟨occurrence, ran⟩ := taken
  obtain ⟨now, stage, tx, stats, pcm⟩ := s
  cases occurrence with
  | elapse time =>
      cases ran
      exact .elapses
  | timer =>
      cases stage with
      | selecting =>
          simp only [step] at ran
          split at ran
          · rename_i due
            split at ran
            · rename_i more
              cases ran
              have on : tx = true := more.1
              simp only [phaseDeadline, on, if_true] at due more
              exact .closes rfl on due more.2
            · rename_i last
              cases ran
              exact .drained rfl due last
          · cases ran
      | sending frame =>
          simp only [step] at ran
          split at ran
          · rename_i due
            cases ran
            exact .abandons rfl due
          · cases ran
      | _ => cases ran
  | read octets =>
      cases stage with
      | selecting =>
          simp only [step] at ran
          split at ran
          · cases ran
          rename_i fits
          split at ran
          · cases ran
            exact .ends rfl
          · rename_i some_
            cases ran
            exact .reads rfl some_ (Nat.le_of_not_lt fits)
      | _ => cases ran
  | readError =>
      cases stage with
      | selecting =>
          cases ran
          exact .fails rfl
      | _ => cases ran
  | clock =>
      cases stage with
      | judging octets =>
          simp only [step] at ran
          split at ran
          · rename_i due
            cases ran
            exact .late rfl due
          · rename_i early
            cases ran
            exact .records rfl (Nat.lt_of_not_le early)
      | _ => cases ran
  | expect =>
      cases stage with
      | expecting octets =>
          cases tx with
          | true =>
              cases ran
              exact .borrows rfl rfl
          | false =>
              cases ran
              exact .panics rfl rfl
      | _ => cases ran
  | send =>
      cases stage with
      | sending frame =>
          cases ran
          exact .sends rfl
      | _ => cases ran
  | sendError =>
      cases stage with
      | sending frame =>
          cases ran
          exact .refused rfl
      | _ => cases ran

/-! ### The sender -/

/-- What the capture half keeps. The clock carries it: once the sender is gone, every
later reading is past the capture deadline. -/
structure Inv (setup : Setup) (s : Uplink) : Prop where
  timed : s.tx = false → setup.captureDeadline ≤ s.now
  expecting : ∀ octets, s.stage = .expecting octets → s.tx = true
  sending : ∀ frame, s.stage = .sending frame → s.tx = true
  judging : ∀ octets, s.stage = .judging octets → octets ≠ [] ∧ octets.length ≤ 640
  intact : s.stage ≠ .panicked

theorem Inv.of_resting (timed : s.tx = false → setup.captureDeadline ≤ s.now)
    (resting : s.stage.Resting) : Inv setup s := by
  have resting {stage : Stage} (at_ : s.stage = stage) : stage.Resting := at_ ▸ resting
  exact ⟨timed, fun _ at_ => False.elim (resting at_), fun _ at_ => False.elim (resting at_),
    fun _ at_ => False.elim (resting at_), resting⟩

theorem Inv.start : Inv setup (start setup) := .of_resting (by simp [Uplink.start]) trivial

theorem Inv.moves (inv : Inv setup s) (moves : Moves setup s act s') : Inv setup s' := by
  have timed := inv.timed
  cases moves with
  | elapses =>
      exact ⟨fun off => Nat.le_add_right_of_le (timed off), inv.expecting, inv.sending, inv.judging,
        inv.intact⟩
  | closes at_ on due more =>
      have resting : s.stage.Resting := by
        rw [at_]
        trivial
      exact .of_resting (fun _ => due) resting
  | drained at_ due last =>
      have late : setup.captureDeadline ≤ s.now := by
        refine Nat.le_trans ?_ due
        unfold phaseDeadline
        split
        · exact Nat.le_refl _
        · exact Nat.le_add_right _ _
      exact .of_resting (fun _ => late) trivial
  | ends at_ => exact .of_resting timed trivial
  | fails at_ => exact .of_resting timed trivial
  | reads at_ some_ fits => exact ⟨timed, by simp, by simp, by simp [some_, fits], by simp⟩
  | late at_ due => exact .of_resting (fun _ => due) trivial
  | records at_ early =>
      have on : s.tx = true := by
        by_contra off
        have due := timed (Bool.eq_false_iff.mpr off)
        exact absurd early (Nat.not_lt_of_le due)
      exact ⟨timed, fun _ _ => on, by simp, by simp, by simp⟩
  | borrows at_ on => exact ⟨timed, by simp, fun _ _ => on, by simp, by simp⟩
  | panics at_ off =>
      have on := inv.expecting _ at_
      rw [off] at on
      cases on
  | abandons at_ due => exact .of_resting (fun _ => due) trivial
  | sends at_ => exact .of_resting timed trivial
  | refused at_ => exact .of_resting timed trivial

theorem Inv.of_runs (inv : Inv setup s) (run : Runs (Step setup) s log s') : Inv setup s' := by
  induction run with
  | nil => exact inv
  | cons taken _ ih => exact ih (inv.moves (Uplink.moves taken))

/-- What is the same after some steps without a sender: the counters and the recording,
and nothing was on its way to the channel. -/
structure Quiet (s : Uplink) (log : List Act) (s' : Uplink) : Prop where
  tx : s'.tx = false
  stats : s'.stats = s.stats
  capturedPcm : s'.capturedPcm = s.capturedPcm
  acts : ∀ act ∈ log, act.Quiet

theorem Inv.quiet_moves (inv : Inv setup s) (off : s.tx = false) (moves : Moves setup s act s') :
    Quiet s [act] s' := by
  have silent : ∀ act ∈ [Act.silent], act.Quiet := by simp [Act.quiet_silent]
  cases moves with
  | elapses => exact ⟨off, rfl, rfl, silent⟩
  | closes at_ on due more => exact ⟨rfl, rfl, rfl, silent⟩
  | drained at_ due last => exact ⟨rfl, rfl, rfl, silent⟩
  | ends at_ => exact ⟨off, rfl, rfl, silent⟩
  | fails at_ => exact ⟨off, rfl, rfl, silent⟩
  | reads at_ some_ fits => exact ⟨off, rfl, rfl, silent⟩
  | late at_ due => exact ⟨rfl, rfl, rfl, silent⟩
  | records at_ early => exact absurd early (Nat.not_lt_of_le (inv.timed off))
  | borrows at_ on => exact ⟨off, rfl, rfl, silent⟩
  | panics at_ _ => exact ⟨off, rfl, rfl, silent⟩
  -- Without a sender no frame is at the channel.
  | abandons at_ due => cases off.symm.trans (inv.sending _ at_)
  | sends at_ => cases off.symm.trans (inv.sending _ at_)
  | refused at_ => cases off.symm.trans (inv.sending _ at_)

theorem Inv.quiet_runs (inv : Inv setup s) (off : s.tx = false)
    (run : Runs (Step setup) s log s') : Quiet s log s' := by
  induction run with
  | nil => exact ⟨off, rfl, rfl, by simp⟩
  | cons taken _ ih =>
      have moves := Uplink.moves taken
      obtain ⟨off', stats, pcm, first⟩ := inv.quiet_moves off moves
      obtain ⟨end_, stats', pcm', rest⟩ := ih (inv.moves moves) off'
      refine ⟨end_, stats'.trans stats, pcm'.trans pcm, ?_⟩
      exact List.forall_mem_cons.mpr ⟨first _ (List.mem_singleton_self _), rest⟩

/-- The `expect` on the sender holds, and without a sender nothing is counted, recorded
or forwarded any more. -/
structure SenderLives (setup : Setup) : Prop where
  expects : ∀ log s octets, Runs (Step setup) (start setup) log s →
    s.stage = .expecting octets → s.tx = true
  intact : ∀ log s, Runs (Step setup) (start setup) log s → s.stage ≠ .panicked
  quiet : ∀ log s log' s', Runs (Step setup) (start setup) log s → s.tx = false →
    Runs (Step setup) s log' s' → Quiet s log' s'

theorem senderLives (setup : Setup) : SenderLives setup where
  expects _ _ octets run at_ := (Inv.start.of_runs run).expecting octets at_
  intact _ _ run := (Inv.start.of_runs run).intact
  quiet _ _ _ _ run off rest := (Inv.start.of_runs run).quiet_runs off rest

/-- One second of an mSBC headset without a delay. -/
def oneSecond : Setup := ⟨.msbc, 1, 0, id, 0⟩

-- The `expect` is reached; a read that is judged late takes the sender instead.
example :
    let judging : Uplink := { start oneSecond with stage := .judging [1, 2] }
    (start oneSecond).step oneSecond (.read [1, 2]) = some (.silent, judging) ∧
      (judging.step oneSecond .clock).map (·.2.stage) = some (.expecting [1, 2]) ∧
      (step oneSecond { judging with now := 1000000000 } .clock).map (·.2.tx) = some false := by
  decide

/-! ### Back to the steps of the loopback -/

end Uplink

/-- The point at which the loopback has a stage. -/
def Stage.point : Stage → CapturePoint
  | .selecting | .judging _ => .selecting
  | .expecting frame | .sending frame => .sending frame
  | .returned => .returned
  | .failed text => .failed text
  | .panicked => .panicked

/-- A step of the capture half of the loopback, whatever the channel is like, or of the
clock. -/
def Capture.Free (setup : Setup) (before : Nat × Capture) (act : Act) (after : Nat × Capture) :
    Prop :=
  (act = .silent ∧ before.1 ≤ after.1 ∧ after.2 = before.2) ∨
    after.1 = before.1 ∧ ∃ room closed choice,
      before.2.step setup before.1 room closed choice = some (act, after.2)

namespace Uplink

variable {setup : Setup} {s s' : Uplink} {act : Act} {log : List Act}

def capture (self : Uplink) : Capture := ⟨self.stage.point, self.tx, self.stats, self.capturedPcm⟩

theorem Inv.free (inv : Inv setup s) (moves : Moves setup s act s') :
    Capture.Free setup (s.now, s.capture) act (s'.now, s'.capture) := by
  obtain ⟨now, stage, tx, stats, pcm⟩ := s
  cases moves with
  | elapses => exact .inl ⟨rfl, Nat.le_add_right _ _, rfl⟩
  | closes at_ on due more =>
      cases at_
      cases on
      refine .inr ⟨rfl, true, true, .deadline, ?_⟩
      simp [Capture.step, capture, Stage.point, Capture.phaseDeadline, due, more]
  | drained at_ due last =>
      cases at_
      exact .inr ⟨rfl, true, true, .deadline, (if_pos due).trans (if_neg last)⟩
  | ends at_ =>
      cases at_
      exact .inr ⟨rfl, true, true, .read [], rfl⟩
  | fails at_ =>
      cases at_
      exact .inr ⟨rfl, true, true, .readError, rfl⟩
  | reads at_ some_ fits =>
      cases at_
      exact .inl ⟨rfl, Nat.le_refl _, rfl⟩
  | @late octets at_ due =>
      cases at_
      obtain ⟨some_, fits⟩ := inv.judging octets rfl
      refine .inr ⟨rfl, true, true, .read octets, ?_⟩
      simp [Capture.step, capture, Stage.point, some_, Nat.not_lt_of_le fits, due]
  | @records octets at_ early =>
      cases at_
      obtain ⟨some_, fits⟩ := inv.judging octets rfl
      have on : tx = true := (inv.moves (.records rfl early)).expecting octets rfl
      refine .inr ⟨rfl, true, true, .read octets, ?_⟩
      simp [Capture.step, capture, Stage.point, some_, Nat.not_lt_of_le fits,
        Nat.not_le_of_lt early, on, record, Capture.record]
  | borrows at_ on =>
      cases at_
      exact .inl ⟨rfl, Nat.le_refl _, rfl⟩
  | panics at_ off => cases off.symm.trans (inv.expecting _ at_)
  | abandons at_ due =>
      cases at_
      refine .inr ⟨rfl, true, true, .deadline, ?_⟩
      simp [Capture.step, capture, Stage.point, due]
  | sends at_ =>
      cases at_
      exact .inr ⟨rfl, true, false, .send, rfl⟩
  | refused at_ =>
      cases at_
      exact .inr ⟨rfl, true, true, .sendError, rfl⟩

/-- A run with time between all statements is a run in the steps of the loopback. -/
theorem refines (run : Runs (Step setup) (start setup) log s) :
    Runs (Capture.Free setup) (setup.started, .start) log (s.now, s.capture) := by
  have both : Inv setup s ∧ Runs (Capture.Free setup) (setup.started, .start) log
      (s.now, s.capture) := by
    refine run.logged (P := fun log s => Inv setup s ∧
      Runs (Capture.Free setup) (setup.started, .start) log (s.now, s.capture)) ?_ ⟨.start, .nil⟩
    rintro log s act s' ⟨inv, coarse⟩ taken
    have moves := Uplink.moves taken
    exact ⟨inv.moves moves, coarse.snoc (inv.free moves)⟩
  exact both.2

end Uplink

end Dorsche.Bin.FlossHfpSmoke
