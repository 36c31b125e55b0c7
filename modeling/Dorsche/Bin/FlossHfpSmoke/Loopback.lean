import Dorsche.Bin.FlossHfpSmoke.Pcm
import Dorsche.Lib.Runs

/-!
`exercise_loopback` (`src/bin/floss_hfp_smoke.rs`): its two halves, the channel of
eight frames between them, the clock and the socket.

A half is at an `.await`, and a choice says how that is answered. `select!` may take
any branch that is ready, so each is a choice of its own. The capture half counts and
records a frame before it sends it; if the capture deadline comes while the channel is
full, the frame is given up. What is sent is played: `Played` relates the octets that
were written to the delay line and to the frames that were received.
-/

namespace Dorsche.Bin.FlossHfpSmoke

open Dorsche.Lib

/-- What `exercise_loopback` is called with, and the instant, in nanoseconds. -/
structure Setup where
  codec : Codec
  seconds : Nat
  delaySeconds : Nat
  gain : Int16 → Int16
  started : Nat

namespace Setup

def captureDeadline (self : Setup) : Nat := self.started + self.seconds * 1000000000

def drainDeadline (self : Setup) : Nat := self.captureDeadline + self.delaySeconds * 1000000000

def delayBytes (self : Setup) : Nat := self.codec.sampleRate * 2 * self.delaySeconds

def frameBytes (self : Setup) : Nat := self.codec.sampleRate / 100 * 2

end Setup

/-- What can be seen of a step. -/
inductive Act where
  /-- Counted and recorded. -/
  | captured (frame : List UInt8)
  | sent (frame : List UInt8)
  /-- Counted and recorded, but not sent. -/
  | abandoned (frame : List UInt8)
  | received (frame : List UInt8)
  | wrote (octets : List UInt8)
  | silent
deriving DecidableEq, Repr

/-! ### The capture half -/

inductive CapturePoint where
  /-- At `select!` between the deadline and the socket. -/
  | selecting
  /-- At `select!` between the deadline and the channel. -/
  | sending (frame : List UInt8)
  | returned
  | failed (text : String)
  | panicked
deriving DecidableEq, Repr

structure Capture where
  point : CapturePoint
  /-- `tx.is_some()`. -/
  tx : Bool
  stats : CaptureStats
  capturedPcm : List UInt8
deriving DecidableEq, Repr

inductive CaptureChoice where
  | deadline
  /-- The octets of a `read`; none of them at the end of the stream. -/
  | read (octets : List UInt8)
  | readError
  | send
  | sendError
deriving DecidableEq, Repr

namespace Capture

def start : Capture := ⟨.selecting, true, .initial, []⟩

def phaseDeadline (setup : Setup) (self : Capture) : Nat :=
  if self.tx then setup.captureDeadline else setup.drainDeadline

/-- Some sender of the channel exists. -/
def sends (self : Capture) : Bool :=
  match self.point with
  | .selecting => self.tx
  | .sending _ => true
  | .returned | .failed _ | .panicked => false

/-- Ended, but not by a return. -/
def broken (self : Capture) : Bool :=
  match self.point with
  | .failed _ | .panicked => true
  | .selecting | .sending _ | .returned => false

/-- `stats.account` and `extend_from_slice`. -/
def record (self : Capture) (octets : List UInt8) : Capture :=
  { self with
    stats := self.stats.account octets
    capturedPcm := self.capturedPcm ++ octets }

/-- A step at `now`. The instant of a read and the one it is compared with are the same,
since a branch that is ready remains so. -/
def step (setup : Setup) (now : Nat) (room closed : Bool) (self : Capture) :
    CaptureChoice → Option (Act × Capture)
  | .deadline =>
      match self.point with
      | .selecting =>
          if self.phaseDeadline setup ≤ now then
            if self.tx ∧ self.phaseDeadline setup < setup.drainDeadline then
              some (.silent, { self with tx := false })
            else some (.silent, { self with tx := false, point := .returned })
          else none
      | .sending frame =>
          if setup.captureDeadline ≤ now then
            some (.abandoned frame, { self with tx := false, point := .selecting })
          else none
      | .returned | .failed _ | .panicked => none
  | .read octets =>
      match self.point with
      | .selecting =>
          if 640 < octets.length then none
          else if octets = [] then some (.silent, { self with point := .returned })
          else if setup.captureDeadline ≤ now then some (.silent, { self with tx := false })
          else if self.tx then
            some (.captured octets, { self.record octets with point := .sending octets })
          else some (.captured octets, { self.record octets with point := .panicked })
      | .sending _ | .returned | .failed _ | .panicked => none
  | .readError =>
      match self.point with
      | .selecting => some (.silent, { self with point := .failed "read SCO microphone PCM" })
      | .sending _ | .returned | .failed _ | .panicked => none
  | .send =>
      match self.point with
      | .sending frame =>
          if room ∧ ¬ closed then some (.sent frame, { self with point := .selecting }) else none
      | .selecting | .returned | .failed _ | .panicked => none
  | .sendError =>
      match self.point with
      | .sending _ => if closed then some (.silent, { self with point := .returned }) else none
      | .selecting | .returned | .failed _ | .panicked => none

end Capture

/-! ### The playback half -/

inductive PlaybackPoint where
  | receiving
  /-- Writing a frame of the given length, of which some octets are left. -/
  | echoing (left : List UInt8) (length : Nat)
  | ticking (remaining : Nat)
  | draining (left : List UInt8) (length remaining : Nat)
  | closing
  | returned
  | failed (text : String)
  | panicked
deriving DecidableEq, Repr

structure Playing where
  point : PlaybackPoint
  player : Player
deriving DecidableEq, Repr

inductive PlaybackChoice where
  | receive
  | receiveEnd
  /-- The socket takes some octets. -/
  | write (octets : Nat)
  | writeError
  /-- `write_all` returns. -/
  | written
  | tick
  | shutdown
  | shutdownError
deriving DecidableEq, Repr

namespace Playing

def start (setup : Setup) : Playing := ⟨.receiving, .start setup.delayBytes⟩

/-- The receiver is gone. -/
def closed (self : Playing) : Bool :=
  match self.point with
  | .returned | .failed _ | .panicked => true
  | .receiving | .echoing .. | .ticking _ | .draining .. | .closing => false

/-- Ended, but not by a return. -/
def broken (self : Playing) : Bool :=
  match self.point with
  | .failed _ | .panicked => true
  | .receiving | .echoing .. | .ticking _ | .draining .. | .closing | .returned => false

/-- The head of `while remaining != 0`. -/
def drainFrom (remaining : Nat) : PlaybackPoint :=
  if remaining = 0 then .closing else .ticking remaining

def step (setup : Setup) (queue : List (List UInt8)) (senders : Bool) (self : Playing) :
    PlaybackChoice → Option (Act × Playing)
  | .receive =>
      match self.point, queue with
      | .receiving, frame :: _ =>
          match self.player.echo setup.gain frame with
          | some (out, player) => some (.received frame, ⟨.echoing out out.length, player⟩)
          | none => some (.received frame, { self with point := .panicked })
      | _, _ => none
  | .receiveEnd =>
      match self.point, queue with
      | .receiving, [] =>
          if senders then none
          else if self.player.delayLine.isEmpty then some (.silent, { self with point := .closing })
          else some (.silent, { self with point := drainFrom self.player.delayLine.length })
      | _, _ => none
  | .write octets =>
      match self.point with
      | .echoing left length =>
          if 0 < octets ∧ octets ≤ left.length then
            some (.wrote (left.take octets),
              { self with point := .echoing (left.drop octets) length })
          else none
      | .draining left length remaining =>
          if 0 < octets ∧ octets ≤ left.length then
            some (.wrote (left.take octets),
              { self with point := .draining (left.drop octets) length remaining })
          else none
      | _ => none
  | .writeError =>
      match self.point with
      | .echoing .. =>
          some (.silent, { self with point := .failed "echo SCO microphone PCM to headset" })
      | .draining .. =>
          some (.silent, { self with point := .failed "drain delayed SCO microphone PCM" })
      | _ => none
  | .written =>
      match self.point with
      | .echoing [] length => some (.silent, ⟨.receiving, self.player.wrote length⟩)
      | .draining [] length remaining =>
          some (.silent, ⟨drainFrom (remaining - length), self.player.wrote length⟩)
      | _ => none
  | .tick =>
      match self.point with
      | .ticking remaining =>
          let length := min remaining setup.frameBytes
          match self.player.reads length with
          | some (piece, player) => some (.silent, ⟨.draining piece length remaining, player⟩)
          | none => some (.silent, { self with point := .panicked })
      | _ => none
  | .shutdown =>
      match self.point with
      | .closing => some (.silent, { self with point := .returned })
      | _ => none
  | .shutdownError =>
      match self.point with
      | .closing => some (.silent, { self with point := .failed "close SCO loopback half" })
      | _ => none

end Playing

/-! ### The two together -/

structure World where
  now : Nat
  capture : Capture
  queue : List (List UInt8)
  playing : Playing
deriving DecidableEq, Repr

inductive Choice where
  | elapse (time : Nat)
  | capture (choice : CaptureChoice)
  | playback (choice : PlaybackChoice)
deriving DecidableEq, Repr

/-- What a step does to the channel. -/
def Act.queue (queue : List (List UInt8)) : Act → List (List UInt8)
  | .sent frame => queue ++ [frame]
  | .received _ => queue.tail
  | .captured _ | .abandoned _ | .wrote _ | .silent => queue

namespace World

def start (setup : Setup) : World := ⟨setup.started, .start, [], .start setup⟩

/-- `try_join!` returns as soon as a half has failed, and drops the other. -/
def broken (self : World) : Bool := self.capture.broken || self.playing.broken

def step (setup : Setup) (self : World) : Choice → Option (Act × World)
  | .elapse time => some (.silent, { self with now := self.now + time })
  | .capture choice => do
      let (act, capture) ← self.capture.step setup self.now (decide (self.queue.length < 8))
        self.playing.closed choice
      return (act, { self with capture, queue := act.queue self.queue })
  | .playback choice => do
      let (act, playing) ← self.playing.step setup self.queue self.capture.sends choice
      return (act, { self with playing, queue := act.queue self.queue })

/-- What `exercise_loopback` returns, if it returns `Ok`. -/
def result (self : World) : Option (Nat × CaptureStats × List UInt8) :=
  if self.capture.point = .returned ∧ self.playing.point = .returned then
    some (self.playing.player.bytes, self.capture.stats, self.capture.capturedPcm)
  else none

/-- A step before `try_join!` has returned. -/
def Step (setup : Setup) (w : World) (act : Act) (w' : World) : Prop :=
  w.broken = false ∧ ∃ choice, w.step setup choice = some (act, w')

/-- Take the given choices one after the other. -/
def replay (setup : Setup) (self : World) : List Choice → Option (List Act × World)
  | [] => some ([], self)
  | choice :: rest =>
      if self.broken then none
      else do
        let (act, self) ← self.step setup choice
        let (log, self) ← self.replay setup rest
        return (act :: log, self)

theorem runs_of_replay {setup : Setup} {choices : List Choice} {log : List Act} {w w' : World}
    (replayed : w.replay setup choices = some (log, w')) : Runs (Step setup) w log w' := by
  induction choices generalizing w log with
  | nil =>
      cases replayed
      exact .nil
  | cons choice rest ih =>
      simp only [replay] at replayed
      split at replayed
      · cases replayed
      rename_i going
      obtain ⟨⟨act, w₁⟩, step, replayed⟩ := Option.bind_eq_some_iff.mp replayed
      obtain ⟨⟨log, w₂⟩, later, same⟩ := Option.bind_eq_some_iff.mp replayed
      cases same
      exact .cons ⟨Bool.not_eq_true _ ▸ going, choice, step⟩ (ih later)

end World

/-! ### Logs -/

namespace Act

def capturedFrames : Act → List (List UInt8)
  | .captured frame => [frame]
  | _ => []

def sentFrames : Act → List (List UInt8)
  | .sent frame => [frame]
  | _ => []

def abandonedFrames : Act → List (List UInt8)
  | .abandoned frame => [frame]
  | _ => []

def receivedFrames : Act → List (List UInt8)
  | .received frame => [frame]
  | _ => []

def octets : Act → List UInt8
  | .wrote octets => octets
  | _ => []

end Act

def capturedOf (log : List Act) : List (List UInt8) := log.flatMap Act.capturedFrames

def sentOf (log : List Act) : List (List UInt8) := log.flatMap Act.sentFrames

def abandonedOf (log : List Act) : List (List UInt8) := log.flatMap Act.abandonedFrames

def receivedOf (log : List Act) : List (List UInt8) := log.flatMap Act.receivedFrames

/-- The octets on the socket. -/
def wroteOf (log : List Act) : List UInt8 := log.flatMap Act.octets

section Snoc

variable (log : List Act) (act : Act)

theorem flatMap_snoc {β : Type} (part : Act → List β) :
    (log ++ [act]).flatMap part = log.flatMap part ++ part act := by
  rw [List.flatMap_append, List.flatMap_singleton]

@[simp] theorem capturedOf_snoc :
    capturedOf (log ++ [act]) = capturedOf log ++ act.capturedFrames := flatMap_snoc log act _

@[simp] theorem sentOf_snoc : sentOf (log ++ [act]) = sentOf log ++ act.sentFrames :=
  flatMap_snoc log act _

@[simp] theorem abandonedOf_snoc :
    abandonedOf (log ++ [act]) = abandonedOf log ++ act.abandonedFrames := flatMap_snoc log act _

@[simp] theorem receivedOf_snoc :
    receivedOf (log ++ [act]) = receivedOf log ++ act.receivedFrames := flatMap_snoc log act _

@[simp] theorem wroteOf_snoc : wroteOf (log ++ [act]) = wroteOf log ++ act.octets :=
  flatMap_snoc log act _

end Snoc

/-- The channel holds what was sent and not received yet. -/
theorem channel_snoc {log : List Act} {queue : List (List UInt8)} {act : Act}
    (channel : sentOf log = receivedOf log ++ queue)
    (first : ∀ frame, act = .received frame → queue.head? = some frame) :
    sentOf (log ++ [act]) = receivedOf (log ++ [act]) ++ act.queue queue := by
  rw [sentOf_snoc, receivedOf_snoc, channel, List.append_assoc, List.append_assoc]
  congr 1
  cases act with
  | received frame =>
      obtain ⟨rest, rfl⟩ := List.head?_eq_some_iff.mp (first frame rfl)
      exact List.append_nil _
  | sent frame => rfl
  | captured frame => exact List.append_nil queue
  | abandoned frame => exact List.append_nil queue
  | wrote octets => exact List.append_nil queue
  | silent => exact List.append_nil queue

/-! ### The capture half, step by step -/

/-- What a step of the capture half does. -/
inductive Captures (setup : Setup) (now : Nat) (closed : Bool) :
    Capture → Act → Capture → Prop where
  | closes {c : Capture} : c.point = .selecting → setup.captureDeadline ≤ now →
      Captures setup now closed c .silent { c with tx := false }
  | returns {c : Capture} {tx : Bool} : c.point = .selecting →
      (tx = c.tx ∨ tx = false ∧ setup.captureDeadline ≤ now) →
      Captures setup now closed c .silent { c with tx, point := .returned }
  | captures {c : Capture} {frame : List UInt8} : c.point = .selecting → c.tx = true →
      frame ≠ [] → Captures setup now closed c (.captured frame)
        { c.record frame with point := .sending frame }
  | panics {c : Capture} {frame : List UInt8} : c.point = .selecting → c.tx = false →
      now < setup.captureDeadline → Captures setup now closed c (.captured frame)
        { c.record frame with point := .panicked }
  | fails {c : Capture} {text : String} : c.point = .selecting →
      Captures setup now closed c .silent { c with point := .failed text }
  | sends {c : Capture} {frame : List UInt8} : c.point = .sending frame →
      Captures setup now closed c (.sent frame) { c with point := .selecting }
  | abandons {c : Capture} {frame : List UInt8} : c.point = .sending frame →
      setup.captureDeadline ≤ now → Captures setup now closed c (.abandoned frame)
        { c with tx := false, point := .selecting }
  | refused {c : Capture} {frame : List UInt8} : c.point = .sending frame → closed = true →
      Captures setup now closed c .silent { c with point := .returned }

section Capturing

variable {setup : Setup} {now : Nat} {room closed : Bool} {c c' : Capture} {act : Act}
  {log : List Act}

theorem Capture.captureDeadline_le (self : Capture) :
    setup.captureDeadline ≤ self.phaseDeadline setup := by
  unfold phaseDeadline
  split
  · exact Nat.le_refl _
  · exact Nat.le_add_right _ _

theorem Capture.captures {choice : CaptureChoice}
    (ran : c.step setup now room closed choice = some (act, c')) :
    Captures setup now closed c act c' := by
  obtain ⟨point, tx, stats, pcm⟩ := c
  cases choice with
  | deadline =>
      cases point with
      | selecting =>
          simp only [step] at ran
          split at ran
          · rename_i due
            have late := Nat.le_trans (captureDeadline_le _) due
            split at ran
            · cases ran
              exact .closes rfl late
            · cases ran
              exact .returns rfl (.inr ⟨rfl, late⟩)
          · cases ran
      | sending frame =>
          simp only [step] at ran
          split at ran
          · rename_i late
            cases ran
            exact .abandons rfl late
          · cases ran
      | _ => cases ran
  | read octets =>
      cases point with
      | selecting =>
          simp only [step] at ran
          split at ran
          · cases ran
          split at ran
          · cases ran
            exact .returns rfl (.inl rfl)
          split at ran
          · rename_i late
            cases ran
            exact .closes rfl late
          split at ran
          · rename_i some_ _ on
            cases ran
            exact .captures rfl on some_
          · rename_i early off
            cases ran
            exact .panics rfl (Bool.eq_false_iff.mpr off) (Nat.lt_of_not_le early)
      | _ => cases ran
  | readError =>
      cases point with
      | selecting =>
          cases ran
          exact .fails rfl
      | _ => cases ran
  | send =>
      cases point with
      | sending frame =>
          simp only [step] at ran
          split at ran
          · cases ran
            exact .sends rfl
          · cases ran
      | _ => cases ran
  | sendError =>
      cases point with
      | sending frame =>
          simp only [step] at ran
          split at ran
          · rename_i gone
            cases ran
            exact .refused rfl gone
          · cases ran
      | _ => cases ran

/-- The frame that is counted, but neither sent nor given up yet. -/
def Capture.pending (self : Capture) : List (List UInt8) :=
  match self.point with
  | .sending frame => [frame]
  | .selecting | .returned | .failed _ | .panicked => []

/-- The counters and the recording are those of the captured frames. -/
structure Counted (log : List Act) (c : Capture) : Prop where
  stats : c.stats = (capturedOf log).foldl CaptureStats.account .initial
  pcm : c.capturedPcm = (capturedOf log).flatten
  nonempty : ∀ frame ∈ capturedOf log, frame ≠ []

theorem Counted.snoc (counted : Counted log c) (none : act.capturedFrames = [])
    (stats : c'.stats = c.stats) (pcm : c'.capturedPcm = c.capturedPcm) :
    Counted (log ++ [act]) c' := by
  have same : capturedOf (log ++ [act]) = capturedOf log := by
    rw [capturedOf_snoc, none, List.append_nil]
  exact ⟨by rw [same, stats, counted.stats], by rw [same, pcm, counted.pcm],
    same ▸ counted.nonempty⟩

theorem Counted.record {frame : List UInt8} (counted : Counted log c) (some_ : frame ≠ []) :
    Counted (log ++ [.captured frame]) (c.record frame) := by
  refine ⟨?_, ?_, ?_⟩
  · rw [capturedOf_snoc, Act.capturedFrames, List.foldl_append, ← counted.stats]
    rfl
  · rw [capturedOf_snoc, Act.capturedFrames, List.flatten_append, ← counted.pcm,
      List.flatten_singleton]
    rfl
  · rw [capturedOf_snoc]
    exact List.forall_mem_append.mpr ⟨counted.nonempty, List.forall_mem_singleton.mpr some_⟩

/-- What the capture half keeps, whatever happens. -/
structure CaptureInv (setup : Setup) (now : Nat) (log : List Act) (c : Capture) : Prop where
  counted : Counted log c
  timed : c.tx = false → setup.captureDeadline ≤ now
  sender : c.pending ≠ [] → c.tx = true
  intact : c.point ≠ .panicked
  forwarded : capturedOf log = sentOf log ++ abandonedOf log ++ c.pending
  last : abandonedOf log ≠ [] → c.tx = false

theorem CaptureInv.start (setup : Setup) (now : Nat) : CaptureInv setup now [] .start :=
  ⟨⟨rfl, rfl, List.forall_mem_nil _⟩, by rintro ⟨⟩, fun _ => rfl, by rintro ⟨⟩, rfl,
    fun some_ => absurd rfl some_⟩

/-- While there is a sender nothing was given up. -/
theorem CaptureInv.none_abandoned (inv : CaptureInv setup now log c) (on : c.tx = true) :
    abandonedOf log = [] := by
  by_contra given
  rw [inv.last given] at on
  cases on

/-- The step is none of a frame on its way to the channel. -/
structure Act.Quiet (act : Act) : Prop where
  captured : act.capturedFrames = []
  sent : act.sentFrames = []
  abandoned : act.abandonedFrames = []

theorem Act.quiet_silent : Act.silent.Quiet := ⟨rfl, rfl, rfl⟩

/-- Such a step keeps the invariant, if it takes the sender only after the deadline. -/
theorem CaptureInv.quiet {later : Nat} (inv : CaptureInv setup now log c) (quiet : act.Quiet)
    (stats : c'.stats = c.stats) (pcm : c'.capturedPcm = c.capturedPcm)
    (pending : c'.pending = c.pending) (intact : c'.point ≠ .panicked)
    (timed : c'.tx = false → setup.captureDeadline ≤ later)
    (sender : c'.pending ≠ [] → c'.tx = true) (taken : c.tx = false → c'.tx = false) :
    CaptureInv setup later (log ++ [act]) c' := by
  refine ⟨inv.counted.snoc quiet.captured stats pcm, timed, sender, intact, ?_, ?_⟩
  · rw [capturedOf_snoc, sentOf_snoc, abandonedOf_snoc, quiet.captured, quiet.sent, quiet.abandoned,
      List.append_nil, List.append_nil, List.append_nil, pending, inv.forwarded]
  · rw [abandonedOf_snoc, quiet.abandoned, List.append_nil]
    exact fun given => taken (inv.last given)

/-- A step of the playback half, or of the clock. -/
theorem CaptureInv.other (inv : CaptureInv setup now log c) (quiet : act.Quiet) (time : Nat) :
    CaptureInv setup (now + time) (log ++ [act]) c :=
  inv.quiet quiet rfl rfl rfl inv.intact (fun off => Nat.le_add_right_of_le (inv.timed off))
    inv.sender id

theorem Capture.pending_of_selecting (at_ : c.point = .selecting) : c.pending = [] := by
  simp only [pending, at_]

theorem Capture.pending_of_sending {frame : List UInt8} (at_ : c.point = .sending frame) :
    c.pending = [frame] := by
  simp only [pending, at_]

theorem CaptureInv.step (inv : CaptureInv setup now log c) (open_ : closed = true → c.sends = false)
    (moves : Captures setup now closed c act c') : CaptureInv setup now (log ++ [act]) c' := by
  have forwarded := inv.forwarded
  cases moves with
  | closes at_ late =>
      have none : { c with tx := false }.pending = [] := Capture.pending_of_selecting at_
      exact inv.quiet Act.quiet_silent rfl rfl rfl inv.intact (fun _ => late)
        (fun some_ => absurd none some_) fun _ => rfl
  | returns at_ tx =>
      refine inv.quiet Act.quiet_silent rfl rfl (Capture.pending_of_selecting at_).symm
        (by rintro ⟨⟩) ?_ (fun some_ => absurd rfl some_) ?_
      · rcases tx with rfl | ⟨rfl, late⟩
        · exact inv.timed
        · exact fun _ => late
      · rcases tx with rfl | ⟨rfl, late⟩
        · exact id
        · exact fun _ => rfl
  | fails at_ =>
      exact inv.quiet Act.quiet_silent rfl rfl (Capture.pending_of_selecting at_).symm
        (by rintro ⟨⟩) inv.timed (fun some_ => absurd rfl some_) id
  | captures at_ on some_ =>
      rw [Capture.pending_of_selecting at_, List.append_nil] at forwarded
      have counted := inv.counted.record some_
      refine ⟨⟨counted.stats, counted.pcm, counted.nonempty⟩, inv.timed, fun _ => on,
        by rintro ⟨⟩, ?_, ?_⟩
      · rw [capturedOf_snoc, sentOf_snoc, abandonedOf_snoc, forwarded]
        simp only [Act.capturedFrames, Act.sentFrames, Act.abandonedFrames, List.append_nil]
        rfl
      · rw [abandonedOf_snoc, inv.none_abandoned on]
        exact fun given => absurd rfl given
  | panics at_ off early => exact absurd (inv.timed off) (Nat.not_le_of_lt early)
  | sends at_ =>
      rw [Capture.pending_of_sending at_] at forwarded
      have on : c.tx = true := inv.sender (by rw [Capture.pending_of_sending at_]; simp)
      have none := inv.none_abandoned on
      refine ⟨inv.counted.snoc rfl rfl rfl, inv.timed, fun some_ => absurd rfl some_,
        by rintro ⟨⟩, ?_, ?_⟩
      · rw [capturedOf_snoc, sentOf_snoc, abandonedOf_snoc, forwarded, none]
        simp only [Act.capturedFrames, Act.sentFrames, Act.abandonedFrames, List.append_nil]
        exact (List.append_nil _).symm
      · rw [abandonedOf_snoc, none]
        exact fun given => absurd rfl given
  | abandons at_ late =>
      rw [Capture.pending_of_sending at_] at forwarded
      refine ⟨inv.counted.snoc rfl rfl rfl, fun _ => late, fun some_ => absurd rfl some_,
        by rintro ⟨⟩, ?_, fun _ => rfl⟩
      rw [capturedOf_snoc, sentOf_snoc, abandonedOf_snoc, forwarded]
      simp only [Act.capturedFrames, Act.sentFrames, Act.abandonedFrames, List.append_nil,
        List.append_assoc]
      rfl
  | refused at_ gone =>
      have alive : c.sends = true := by simp only [Capture.sends, at_]
      rw [open_ gone] at alive
      cases alive

/-- Without a sender, the capture half only leaves. -/
theorem CaptureInv.stays (inv : CaptureInv setup now log c)
    (moves : Captures setup now closed c act c') (gone : c.sends = false) :
    c'.sends = false ∧ act = .silent := by
  cases moves with
  | closes at_ late =>
      refine ⟨?_, rfl⟩
      simp only [Capture.sends, at_]
  | returns at_ tx => exact ⟨rfl, rfl⟩
  | fails at_ => exact ⟨rfl, rfl⟩
  | captures at_ on some_ =>
      simp only [Capture.sends, at_, on] at gone
      cases gone
  | panics at_ off early => exact absurd (inv.timed off) (Nat.not_le_of_lt early)
  | sends at_ =>
      simp only [Capture.sends, at_] at gone
      cases gone
  | abandons at_ late =>
      simp only [Capture.sends, at_] at gone
      cases gone
  | refused at_ => exact ⟨rfl, rfl⟩

theorem Captures.octets (moves : Captures setup now closed c act c') :
    act.receivedFrames = [] ∧ act.octets = [] := by
  cases moves <;> exact ⟨rfl, rfl⟩

end Capturing

/-! ### The playback half, step by step -/

/-- What went through the delay line, and the line after it. -/
def Setup.through (setup : Setup) (frames : List (List UInt8)) : List UInt8 × DelayLine UInt8 :=
  (DelayLine.blank setup.delayBytes 0).exchanges (input setup.gain frames)

/-- The delayed stream of the frames. -/
def Setup.stream (setup : Setup) (frames : List (List UInt8)) : List UInt8 :=
  delayed setup.gain setup.delayBytes frames

theorem Setup.stream_eq (setup : Setup) (frames : List (List UInt8)) :
    setup.stream frames = (setup.through frames).1 ++ (setup.through frames).2.contents := by
  have law := DelayLine.exchanges_law (.blank setup.delayBytes 0) (input setup.gain frames)
  rw [DelayLine.contents_blank] at law
  exact law.symm

theorem Setup.length_stream (setup : Setup) (frames : List (List UInt8)) :
    (setup.stream frames).length = (input setup.gain frames).length + setup.delayBytes := by
  rw [stream, delayed, List.length_append, List.length_replicate, Nat.add_comm]

theorem Setup.through_snoc (setup : Setup) (frames : List (List UInt8)) (frame : List UInt8) :
    setup.through (frames ++ [frame]) =
      ((setup.through frames).1 ++
          ((setup.through frames).2.exchanges (attenuate setup.gain frame)).1,
        ((setup.through frames).2.exchanges (attenuate setup.gain frame)).2) := by
  rw [through, input, List.flatMap_append, List.flatMap_singleton, DelayLine.exchanges_append]
  rfl

/-- The octets written so far, and those still to come, are the delayed stream of the
received frames. -/
def Played (setup : Setup) (received : List (List UInt8)) (written : List UInt8)
    (p : Playing) : Prop :=
  match p.point with
  | .receiving => written = (setup.through received).1 ∧
      p.player = .of (setup.through received).2 written.length
  | .echoing left length => written ++ left = (setup.through received).1 ∧
      ∃ n, n + length = (written ++ left).length ∧ p.player = .of (setup.through received).2 n
  | .ticking remaining => ∃ line n, line.cells ≠ [] ∧ p.player = .of line n ∧
      n + remaining = (setup.stream received).length ∧
      written ++ (line.reads remaining).1 = setup.stream received
  | .draining left length remaining => ∃ line n, line.cells ≠ [] ∧ p.player = .of line n ∧
      length ≤ remaining ∧ n + remaining = (setup.stream received).length ∧
      written ++ left ++ (line.reads (remaining - length)).1 = setup.stream received
  | .closing | .returned => written = setup.stream received ∧ p.player.bytes = written.length
  | .failed _ => True
  | .panicked => False

/-- No more is received. -/
def Playing.Drained (self : Playing) : Prop :=
  match self.point with
  | .ticking _ | .draining .. | .closing | .returned => True
  | .receiving | .echoing .. | .failed _ | .panicked => False

/-- What a step of the playback half does. -/
structure Plays (setup : Setup) (queue : List (List UInt8)) (senders : Bool)
    (received : List (List UInt8)) (written : List UInt8) (p : Playing) (act : Act)
    (p' : Playing) : Prop where
  played : Played setup (received ++ act.receivedFrames) (written ++ act.octets) p'
  quiet : act.Quiet
  first : ∀ frame, act = .received frame → queue.head? = some frame
  drained : p'.Drained → p.Drained ∨ queue = [] ∧ senders = false

section Playback

variable {setup : Setup} {queue received : List (List UInt8)} {senders : Bool}
  {written : List UInt8} {p p' : Playing} {act : Act} {player : Player}

/-- A silent step. -/
theorem Plays.of_silent (played : Played setup received written p')
    (drained : p'.Drained → p.Drained ∨ queue = [] ∧ senders = false) :
    Plays setup queue senders received written p .silent p' where
  played := by
    rw [Act.receivedFrames, Act.octets, List.append_nil, List.append_nil]
    · exact played
    · rintro _ ⟨⟩
    · rintro _ ⟨⟩
  quiet := Act.quiet_silent
  first := by rintro frame ⟨⟩
  drained := drained

theorem plays_receive (frame : List UInt8) (rest : List (List UInt8))
    (played : Played setup received written ⟨.receiving, player⟩) :
    ∃ out player', player.echo setup.gain frame = some (out, player') ∧
      Plays setup (frame :: rest) senders received written ⟨.receiving, player⟩ (.received frame)
        ⟨.echoing out out.length, player'⟩ := by
  obtain ⟨rfl, at_⟩ := played
  obtain rfl : player = _ := at_
  refine ⟨_, _, Player.echo_of frame, ?_, ⟨rfl, rfl, rfl⟩, ?_, by rintro ⟨⟩⟩
  · have through := setup.through_snoc received frame
    refine ⟨?_, (setup.through received).1.length, ?_, ?_⟩
    · rw [Act.receivedFrames, through]
      simp [Act.octets]
    · simp [Act.octets]
    · rw [Act.receivedFrames, through]
  · rintro _ ⟨⟩
    rfl

theorem plays_receiveEnd (played : Played setup received written ⟨.receiving, player⟩) :
    Plays setup [] false received written ⟨.receiving, player⟩ .silent
      ⟨if player.delayLine.isEmpty then .closing else Playing.drainFrom player.delayLine.length,
        player⟩ := by
  refine .of_silent ?_ fun _ => .inr ⟨rfl, rfl⟩
  obtain ⟨rfl, at_⟩ := played
  obtain rfl : player = _ := at_
  have stream := setup.stream_eq received
  generalize setup.through received = through at stream ⊢
  rw [Player.delayLine_of]
  by_cases empty : through.2.cells = []
  · have nothing : through.2.contents = [] := by simp [DelayLine.contents, empty]
    rw [if_pos (List.isEmpty_iff.mpr empty)]
    rw [nothing, List.append_nil] at stream
    exact ⟨stream.symm, rfl⟩
  · have whole := (DelayLine.reads_eq_take empty (Nat.le_refl _)).1
    rw [← DelayLine.length_contents, List.take_length, DelayLine.length_contents] at whole
    rw [if_neg (List.isEmpty_iff.not.mpr empty), Playing.drainFrom,
      if_neg (Nat.ne_of_gt (List.length_pos_iff.mpr empty))]
    refine ⟨through.2, through.1.length, empty, rfl, ?_, ?_⟩
    · rw [stream, List.length_append, DelayLine.length_contents]
    · rw [whole, stream]

/-- A part of what was left is written. -/
theorem Plays.of_wrote {octets : List UInt8} (played : Played setup received (written ++ octets) p')
    (drained : p'.Drained → p.Drained) :
    Plays setup queue senders received written p (.wrote octets) p' where
  played := by
    rw [Act.receivedFrames, Act.octets, List.append_nil]
    · exact played
    · rintro _ ⟨⟩
  quiet := ⟨rfl, rfl, rfl⟩
  first := by rintro frame ⟨⟩
  drained := fun now => .inl (drained now)

theorem append_take_append_drop (written left : List UInt8) (octets : Nat) :
    written ++ left.take octets ++ left.drop octets = written ++ left := by
  rw [List.append_assoc, List.take_append_drop]

theorem plays_write_echo {left : List UInt8} {length octets : Nat}
    (played : Played setup received written ⟨.echoing left length, player⟩) :
    Plays setup queue senders received written ⟨.echoing left length, player⟩
      (.wrote (left.take octets)) ⟨.echoing (left.drop octets) length, player⟩ := by
  refine .of_wrote ?_ (by rintro ⟨⟩)
  show (_ ++ _ ++ _ = _) ∧ _
  rw [append_take_append_drop]
  exact played

theorem plays_write_drain {left : List UInt8} {length remaining octets : Nat}
    (played : Played setup received written ⟨.draining left length remaining, player⟩) :
    Plays setup queue senders received written ⟨.draining left length remaining, player⟩
      (.wrote (left.take octets)) ⟨.draining (left.drop octets) length remaining, player⟩ := by
  refine .of_wrote ?_ fun _ => trivial
  obtain ⟨line, n, nonempty, at_, within, total, stream⟩ := played
  refine ⟨line, n, nonempty, at_, within, total, ?_⟩
  rw [append_take_append_drop, stream]

theorem plays_echoed {length : Nat}
    (played : Played setup received written ⟨.echoing [] length, player⟩) :
    Plays setup queue senders received written ⟨.echoing [] length, player⟩ .silent
      ⟨.receiving, player.wrote length⟩ := by
  refine .of_silent ?_ (by rintro ⟨⟩)
  obtain ⟨through, n, total, at_⟩ := played
  obtain rfl : player = _ := at_
  rw [List.append_nil] at through total
  refine ⟨through, ?_⟩
  rw [← total]
  rfl

theorem plays_drained {length remaining : Nat}
    (played : Played setup received written ⟨.draining [] length remaining, player⟩) :
    Plays setup queue senders received written ⟨.draining [] length remaining, player⟩ .silent
      ⟨Playing.drainFrom (remaining - length), player.wrote length⟩ := by
  refine .of_silent ?_ fun _ => .inl trivial
  obtain ⟨line, n, nonempty, at_, within, total, stream⟩ := played
  obtain rfl : player = _ := at_
  rw [List.append_nil] at stream
  unfold Playing.drainFrom
  by_cases last : remaining - length = 0
  · rw [last] at stream
    rw [if_pos last]
    have written : written = setup.stream received := (List.append_nil _).symm.trans stream
    refine ⟨written, ?_⟩
    show n + length = _
    rw [written]
    omega
  · rw [if_neg last]
    exact ⟨line, n + length, nonempty, rfl, by omega, stream⟩

theorem plays_tick {remaining : Nat}
    (played : Played setup received written ⟨.ticking remaining, player⟩) :
    ∃ piece player', player.reads (min remaining setup.frameBytes) = some (piece, player') ∧
      Plays setup queue senders received written ⟨.ticking remaining, player⟩ .silent
        ⟨.draining piece (min remaining setup.frameBytes) remaining, player'⟩ := by
  obtain ⟨line, n, nonempty, at_, total, stream⟩ := played
  obtain rfl : player = _ := at_
  have within : min remaining setup.frameBytes ≤ remaining := Nat.min_le_left _ _
  generalize min remaining setup.frameBytes = length at within
  have split := DelayLine.reads_add nonempty length (remaining - length)
  rw [Nat.add_sub_cancel' within] at split
  refine ⟨_, _, Player.reads_of nonempty length, .of_silent ?_ fun _ => .inl trivial⟩
  refine ⟨(line.reads length).2, n, ?_, rfl, within, total, ?_⟩
  · rw [(DelayLine.length_reads nonempty length).2]
    exact nonempty
  · rw [List.append_assoc, ← stream, split]

/-- Every step of the playback half keeps to it, and none panics. -/
theorem Played.plays {choice : PlaybackChoice} (played : Played setup received written p)
    (ran : p.step setup queue senders choice = some (act, p')) :
    Plays setup queue senders received written p act p' := by
  obtain ⟨point, player⟩ := p
  cases choice with
  | receive =>
      cases point with
      | receiving =>
          cases queue with
          | nil => cases ran
          | cons frame rest =>
              obtain ⟨out, player', echoed, plays⟩ := plays_receive frame rest played
              simp only [Playing.step, echoed] at ran
              cases ran
              exact plays
      | _ => cases ran
  | receiveEnd =>
      cases point with
      | receiving =>
          cases queue with
          | cons frame rest => cases ran
          | nil =>
              have plays := plays_receiveEnd played
              simp only [Playing.step] at ran
              split at ran
              · cases ran
              rename_i gone
              rw [Bool.not_eq_true] at gone
              subst gone
              split at ran
              · rename_i empty
                cases ran
                rwa [if_pos empty] at plays
              · rename_i some_
                cases ran
                rwa [if_neg some_] at plays
      | _ => cases ran
  | write octets =>
      cases point with
      | echoing left length =>
          simp only [Playing.step] at ran
          split at ran
          · cases ran
            exact plays_write_echo played
          · cases ran
      | draining left length remaining =>
          simp only [Playing.step] at ran
          split at ran
          · cases ran
            exact plays_write_drain played
          · cases ran
      | _ => cases ran
  | writeError =>
      cases point with
      | echoing left length =>
          cases ran
          exact .of_silent trivial (by rintro ⟨⟩)
      | draining left length remaining =>
          cases ran
          exact .of_silent trivial (by rintro ⟨⟩)
      | _ => cases ran
  | written =>
      cases point with
      | echoing left length =>
          cases left with
          | nil =>
              cases ran
              exact plays_echoed played
          | cons => cases ran
      | draining left length remaining =>
          cases left with
          | nil =>
              cases ran
              exact plays_drained played
          | cons => cases ran
      | _ => cases ran
  | tick =>
      cases point with
      | ticking remaining =>
          obtain ⟨piece, player', read, plays⟩ := plays_tick played
          simp only [Playing.step, read] at ran
          cases ran
          exact plays
      | _ => cases ran
  | shutdown =>
      cases point with
      | closing =>
          cases ran
          exact .of_silent played fun _ => .inl trivial
      | _ => cases ran
  | shutdownError =>
      cases point with
      | closing =>
          cases ran
          exact .of_silent trivial (by rintro ⟨⟩)
      | _ => cases ran

end Playback

/-! ### Whole runs -/

/-- What holds along every run of the two halves. -/
structure Balanced (setup : Setup) (log : List Act) (w : World) : Prop where
  capture : CaptureInv setup w.now log w.capture
  channel : sentOf log = receivedOf log ++ w.queue
  played : Played setup (receivedOf log) (wroteOf log) w.playing
  ended : w.playing.Drained → w.queue = [] ∧ w.capture.sends = false

section Runs

variable {setup : Setup} {log : List Act} {w w' : World} {act : Act}

theorem Balanced.start (setup : Setup) : Balanced setup [] (.start setup) where
  capture := .start setup _
  channel := rfl
  played := ⟨rfl, rfl⟩
  ended := by rintro ⟨⟩

/-- The receiver lives as long as there are senders, unless playback has failed. -/
theorem Balanced.sends_of_closed (balanced : Balanced setup log w) (going : w.broken = false)
    (closed : w.playing.closed = true) : w.capture.sends = false := by
  refine (balanced.ended ?_).2
  have going := (Bool.or_eq_false_iff.mp going).2
  unfold Playing.Drained
  unfold Playing.closed at closed
  cases at_ : w.playing.point with
  | returned => trivial
  | failed text => simp [Playing.broken, at_] at going
  | panicked => simp [Playing.broken, at_] at going
  | _ =>
      rw [at_] at closed
      cases closed

theorem Act.Quiet.queue_nil (quiet : act.Quiet) : act.queue [] = [] := by
  cases act with
  | sent frame => cases quiet.sent
  | _ => rfl

theorem Balanced.capture_step {choice : CaptureChoice} {room : Bool} {c : Capture}
    (balanced : Balanced setup log w) (going : w.broken = false)
    (ran : w.capture.step setup w.now room w.playing.closed choice = some (act, c)) :
    Balanced setup (log ++ [act]) { w with capture := c, queue := act.queue w.queue } := by
  have moves := Capture.captures ran
  obtain ⟨received, octets⟩ := moves.octets
  refine ⟨balanced.capture.step (balanced.sends_of_closed going) moves, ?_, ?_, fun drained => ?_⟩
  · refine channel_snoc balanced.channel ?_
    rintro frame rfl
    cases received
  · rw [receivedOf_snoc, wroteOf_snoc, received, octets, List.append_nil, List.append_nil]
    exact balanced.played
  · obtain ⟨empty, gone⟩ := balanced.ended drained
    obtain ⟨still, rfl⟩ := balanced.capture.stays moves gone
    exact ⟨empty, still⟩

theorem Balanced.playback_step {choice : PlaybackChoice} {p : Playing}
    (balanced : Balanced setup log w)
    (ran : w.playing.step setup w.queue w.capture.sends choice = some (act, p)) :
    Balanced setup (log ++ [act]) { w with playing := p, queue := act.queue w.queue } := by
  have plays := balanced.played.plays ran
  refine ⟨balanced.capture.other plays.quiet 0, channel_snoc balanced.channel plays.first, ?_,
    fun drained => ?_⟩
  · rw [receivedOf_snoc, wroteOf_snoc]
    exact plays.played
  · have ended : w.queue = [] ∧ w.capture.sends = false := by
      rcases plays.drained drained with before | now
      · exact balanced.ended before
      · exact now
    refine ⟨?_, ended.2⟩
    show act.queue w.queue = []
    rw [ended.1, plays.quiet.queue_nil]

theorem Balanced.step (balanced : Balanced setup log w) (step : World.Step setup w act w') :
    Balanced setup (log ++ [act]) w' := by
  obtain ⟨going, choice, ran⟩ := step
  cases choice with
  | elapse time =>
      cases ran
      refine ⟨balanced.capture.other Act.quiet_silent time,
        channel_snoc balanced.channel (by rintro frame ⟨⟩), ?_, balanced.ended⟩
      rw [receivedOf_snoc, wroteOf_snoc, Act.receivedFrames, Act.octets, List.append_nil,
        List.append_nil]
      exacts [balanced.played, by rintro octets ⟨⟩, by rintro frame ⟨⟩]
  | capture choice =>
      obtain ⟨⟨act, c⟩, moved, same⟩ := Option.bind_eq_some_iff.mp ran
      cases same
      exact balanced.capture_step going moved
  | playback choice =>
      obtain ⟨⟨act, p⟩, moved, same⟩ := Option.bind_eq_some_iff.mp ran
      cases same
      exact balanced.playback_step moved

theorem balanced_of_run (run : Runs (World.Step setup) (.start setup) log w) :
    Balanced setup log w :=
  run.logged (fun _ _ _ _ balanced step => balanced.step step) (.start setup)

/-- No octet is lost: what is counted is recorded, and what is recorded is played after
the delay. -/
structure ConservesAudio (setup : Setup) (log : List Act) (played : Nat) (stats : CaptureStats)
    (pcm : List UInt8) : Prop where
  recorded : pcm = (capturedOf log).flatten
  bytes : stats.bytes = pcm.length
  played : played = pcm.length + setup.delayBytes
  written : wroteOf log = setup.stream (capturedOf log)

theorem length_input (gain : Int16 → Int16) (frames : List (List UInt8)) :
    (input gain frames).length = frames.flatten.length := by
  induction frames with
  | nil => rfl
  | cons frame rest ih =>
      rw [input] at ih ⊢
      rw [List.flatMap_cons, List.flatten_cons, List.length_append, List.length_append, ih,
        length_attenuate]

/-- At the end all that was sent is on the socket, and what was not sent was given up. -/
theorem Balanced.finished (balanced : Balanced setup log w)
    (captured : w.capture.point = .returned) (played : w.playing.point = .returned) :
    capturedOf log = sentOf log ++ abandonedOf log ∧ wroteOf log = setup.stream (sentOf log) ∧
      w.playing.player.bytes = (wroteOf log).length := by
  have drained : w.playing.Drained := by simp only [Playing.Drained, played]
  have forwarded := balanced.capture.forwarded
  have channel := balanced.channel
  have written := balanced.played
  rw [(balanced.ended drained).1, List.append_nil] at channel
  simp only [Capture.pending, captured, List.append_nil] at forwarded
  simp only [Played, played] at written
  exact ⟨forwarded, channel ▸ written.1, written.2⟩

/-- However the two halves, the clock and the socket take turns: if `exercise_loopback`
returns `Ok`, then audio is conserved exactly when no frame was given up at the capture
deadline. -/
theorem loopback_conserves_iff {played : Nat} {stats : CaptureStats} {pcm : List UInt8}
    (run : Runs (World.Step setup) (.start setup) log w)
    (ok : w.result = some (played, stats, pcm)) :
    ConservesAudio setup log played stats pcm ↔ abandonedOf log = [] := by
  have balanced := balanced_of_run run
  unfold World.result at ok
  split at ok
  case isFalse => cases ok
  rename_i returned
  cases ok
  obtain ⟨forwarded, written, bytes⟩ := balanced.finished returned.1 returned.2
  have total : (setup.stream (sentOf log)).length =
      (sentOf log).flatten.length + setup.delayBytes := by
    rw [setup.length_stream, length_input]
  constructor
  · intro conserves
    -- The recording is longer than what was sent by the octets given up.
    have length := conserves.played
    rw [bytes, written, total, balanced.capture.counted.pcm, forwarded, List.flatten_append,
      List.length_append] at length
    have empty : (abandonedOf log).flatten = [] := List.eq_nil_of_length_eq_zero (by omega)
    cases given : abandonedOf log with
    | nil => rfl
    | cons frame rest =>
        have member : frame ∈ capturedOf log := by
          rw [forwarded, given]
          exact List.mem_append_right _ List.mem_cons_self
        rw [given] at empty
        exact absurd (List.append_eq_nil_iff.mp empty).1
          (balanced.capture.counted.nonempty frame member)
  · intro none
    rw [none, List.append_nil] at forwarded
    refine ⟨balanced.capture.counted.pcm, ?_, ?_, forwarded ▸ written⟩
    · rw [balanced.capture.counted.stats, CaptureStats.foldl_account,
        CaptureStats.foldl_accountSample_bytes, balanced.capture.counted.pcm]
      exact Nat.zero_add _
    · rw [bytes, written, total, balanced.capture.counted.pcm, forwarded]

/-- One second of CVSD without delay. -/
def oneSecond : Setup := ⟨.cvsd, 1, 0, id, 0⟩

/-- Read a frame and send it. -/
def forward (frame : List UInt8) : List Choice := [.capture (.read frame), .capture .send]

/-- Receive a frame of two octets and write it. -/
def echoPair : List Choice :=
  [.playback .receive, .playback (.write 2), .playback .written]

/-- The senders are gone, and the socket is shut down. -/
def hangUp : List Choice := [.playback .receiveEnd, .playback .shutdown]

theorem loopback_conserves_two_frames : ∃ log w,
    Runs (World.Step oneSecond) (.start oneSecond) log w ∧
      w.result = some (4, ⟨4, 2, 9⟩, [7, 0, 9, 0]) ∧
      ConservesAudio oneSecond log 4 ⟨4, 2, 9⟩ [7, 0, 9, 0] := by
  have replayed : (World.start oneSecond).replay oneSecond (forward [7, 0] ++ forward [9, 0] ++
      echoPair ++ [.elapse 1000000000, .capture .deadline] ++ echoPair ++ hangUp) =
    some ([.captured [7, 0], .sent [7, 0], .captured [9, 0], .sent [9, 0], .received [7, 0],
      .wrote [7, 0], .silent, .silent, .silent, .received [9, 0], .wrote [9, 0], .silent, .silent,
      .silent], ⟨1000000000, ⟨.returned, false, ⟨4, 2, 9⟩, [7, 0, 9, 0]⟩, [],
        ⟨.returned, ⟨4, [], 0⟩⟩⟩) := by decide
  have run := World.runs_of_replay replayed
  exact ⟨_, _, run, rfl, (loopback_conserves_iff run rfl).mpr rfl⟩

/-- The headset stops taking octets: one frame is being written and eight are in the
channel when the deadline comes, so the tenth is given up. -/
def stalled : List Choice :=
  forward [7, 0] ++ [.playback .receive] ++ (List.replicate 8 (forward [7, 0])).flatten ++
    [.capture (.read [7, 0]), .elapse 1000000000, .capture .deadline, .capture .deadline,
      .playback (.write 2), .playback .written] ++ (List.replicate 8 echoPair).flatten ++ hangUp

/-- Ten frames are counted and recorded, nine are played. -/
theorem loopback_loses_frame : ∃ log w stats pcm,
    Runs (World.Step oneSecond) (.start oneSecond) log w ∧ w.result = some (18, stats, pcm) ∧
      stats.bytes = 20 ∧ pcm.length = 20 ∧ (wroteOf log).length = 18 ∧
      abandonedOf log = [[7, 0]] ∧ ¬ ConservesAudio oneSecond log 18 stats pcm := by
  have replayed : ((World.start oneSecond).replay oneSecond stalled).map
      (fun out => (out.2.result, (wroteOf out.1).length, abandonedOf out.1)) =
    some (some (18, ⟨20, 10, 7⟩, (List.replicate 10 [7, 0]).flatten), 18, [[7, 0]]) := by
    decide +kernel
  obtain ⟨⟨log, w⟩, replayed, same⟩ := Option.map_eq_some_iff.mp replayed
  obtain ⟨result, written, abandoned⟩ := by simpa only [Prod.mk.injEq] using same
  refine ⟨log, w, _, _, World.runs_of_replay replayed, result, rfl, by decide, written, abandoned,
    fun conserves => ?_⟩
  exact absurd conserves.played (by decide)

end Runs

end Dorsche.Bin.FlossHfpSmoke
