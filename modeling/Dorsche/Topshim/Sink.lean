import Dorsche.Lib.Runs
import Dorsche.Topshim.Actors
import Mathlib.Algebra.Group.Nat.Defs
import Mathlib.Data.List.Forall2
import Mathlib.Data.List.Infix
import Mathlib.Logic.Relation

/-!
The playback sink on its own (`run_playback_sink` in `src/topshim/actors.rs`).

The rest of the graph is its environment: commands and interrupts arrive at any
time and in any number, the proxy and the echo edge block for as long as they like,
and either may be gone. The steps are those of the task in the graph, labelled with
what the task takes in and gives out, and `Step.sink` says that the graph takes no
others. The log of a run then tells what was spoken, numbered, mirrored and
interrupted.
-/

namespace Dorsche.Topshim.Actors

open Dorsche.Lib

variable {Pcm Samples : Type}

/-- The sink with its inboxes and the shutdown flag. -/
structure Sink (Pcm : Type) where
  shutdown : Bool
  barges : List BargeIn
  commands : List (PlaybackCommand Pcm)
  playback : Playback Pcm
deriving DecidableEq, Repr

namespace Sink

def initial : Sink Pcm := ⟨false, [], [], .atShutdown ⟨none, 0⟩⟩

/-- One step of the sink or of its environment. -/
inductive Step : Sink Pcm → Act Pcm → Sink Pcm → Prop where
  | shutdownRequested {s : Sink Pcm} : Step s .other { s with shutdown := true }
  | bargeArrives {s : Sink Pcm} (interrupt : BargeIn) : s.playback.result = none →
      Step s (.arrived interrupt) { s with barges := s.barges ++ [interrupt] }
  | commandArrives {s : Sink Pcm} (command : PlaybackCommand Pcm) : s.playback.result = none →
      Step s .other { s with commands := s.commands ++ [command] }
  | leave {s : Sink Pcm} {speech : Speech Pcm} : s.playback = .atShutdown speech →
      s.shutdown = true →
      Step s .other { s with playback := .ended (.ok ()), commands := [], barges := [] }
  | goOn {s : Sink Pcm} {speech : Speech Pcm} : s.playback = .atShutdown speech →
      s.shutdown = false → Step s .other { s with playback := .atBarge speech }
  | barge {s : Sink Pcm} {speech : Speech Pcm} {interrupt : BargeIn} {rest : List BargeIn} :
      s.playback = .atBarge speech → s.barges = interrupt :: rest →
      Step s (.interrupted interrupt)
        { s with playback := .atShutdown { speech with current := none }, barges := rest }
  /-- The line about an interrupt is not taken. -/
  | bargePanics {s : Sink Pcm} {speech : Speech Pcm} (message : String) :
      s.playback = .atBarge speech →
      Step s .other { s with playback := .ended (.error message), commands := [], barges := [] }
  | noBarge {s : Sink Pcm} {speech : Speech Pcm} : s.playback = .atBarge speech →
      s.barges = [] → Step s .other { s with playback := .atCommand speech }
  | command {s : Sink Pcm} {speech : Speech Pcm} {command : PlaybackCommand Pcm}
      {rest : List (PlaybackCommand Pcm)} : s.playback = .atCommand speech →
      s.commands = command :: rest →
      Step s (.started command)
        { s with
          playback :=
            .atShutdown { speech with current := some (command.utteranceId, command.frames) }
          commands := rest }
  | noCommand {s : Sink Pcm} {speech : Speech Pcm} : s.playback = .atCommand speech →
      s.commands = [] → Step s .other { s with playback := .atTick speech }
  | tick {s : Sink Pcm} {speech : Speech Pcm} {utteranceId : UInt64} {pcm : Pcm}
      {rest : List Pcm} : s.playback = .atTick speech →
      speech.current = some (utteranceId, pcm :: rest) →
      Step s (.submitted ⟨pcm, speech.sequence⟩)
        { s with
          playback := .calling { speech with current := some (utteranceId, rest) } pcm
            (.sending ⟨pcm, speech.sequence⟩) }
  | finish {s : Sink Pcm} {speech : Speech Pcm} {utteranceId : UInt64} :
      s.playback = .atTick speech → speech.current = some (utteranceId, []) →
      Step s .other { s with playback := .atShutdown { speech with current := none } }
  | noTick {s : Sink Pcm} {speech : Speech Pcm} : s.playback = .atTick speech →
      Step s .other { s with playback := .atShutdown speech }
  | send {s : Sink Pcm} {speech : Speech Pcm} {pcm : Pcm}
      {request : HardwarePlaybackRequest Pcm} (i : Nat) :
      s.playback = .calling speech pcm (.sending request) →
      Step s .other { s with playback := .calling speech pcm (.awaiting i) }
  /-- The proxy has gone, before the request or before its reply. -/
  | callFails {s : Sink Pcm} {speech : Speech Pcm} {pcm : Pcm}
      {call : Exchange.Call (HardwarePlaybackRequest Pcm)} (message : String) :
      s.playback = .calling speech pcm call →
      Step s .other { s with playback := .ended (.error message), commands := [], barges := [] }
  | receive {s : Sink Pcm} {speech : Speech Pcm} {pcm : Pcm} {i : Nat}
      (receipt : PlaybackReceipt) : s.playback = .calling speech pcm (.awaiting i) →
      Step s (.confirmed receipt)
        { s with
          playback := .mirroring speech ⟨pcm, receipt.sequence, receipt.presentationTimeNs⟩ }
  | mirror {s : Sink Pcm} {speech : Speech Pcm} {echo : EchoReference Pcm} :
      s.playback = .mirroring speech echo →
      Step s (.mirrored echo)
        { s with playback := .atShutdown { speech with sequence := speech.sequence + 1 } }
  | mirrorFails {s : Sink Pcm} {speech : Speech Pcm} {echo : EchoReference Pcm} :
      s.playback = .mirroring speech echo →
      Step s .other { s with playback := .ended (.ok ()), commands := [], barges := [] }

end Sink

/-! ### The sink in the graph -/

/-- The sink as a part of the graph. -/
def World.sink (w : World Pcm Samples) : Sink Pcm := ⟨w.shutdown, w.barges, w.commands, w.playback⟩

/-- A step of the graph leaves the sink alone or is one of its steps. -/
theorem Step.sink {speaking : AudioFrame Samples → Option (EchoReference Pcm) → Bool}
    {w w' : World Pcm Samples} {event : Event Pcm Samples} (step : Step speaking w event w') :
    w'.sink = w.sink ∨ ∃ act, Sink.Step w.sink act w'.sink := by
  cases step with
  | vadFrame at_ next =>
      unfold World.sink World.bargeIn
      split
      · rename_i sends
        exact .inr ⟨_, .bargeArrives _ sends.2.1⟩
      · exact .inl rfl
  | playbackLeave at_ shutdown => exact .inr ⟨_, .leave at_ shutdown⟩
  | playbackGoOn at_ shutdown => exact .inr ⟨_, .goOn at_ shutdown⟩
  | playbackBarge at_ next => exact .inr ⟨_, .barge at_ next⟩
  | playbackPanics at_ _ _ => exact .inr ⟨_, .bargePanics _ at_⟩
  | playbackNoBarge at_ empty => exact .inr ⟨_, .noBarge at_ empty⟩
  | playbackCommand at_ next => exact .inr ⟨_, .command at_ next⟩
  | playbackNoCommand at_ empty => exact .inr ⟨_, .noCommand at_ empty⟩
  | playbackTick at_ current => exact .inr ⟨_, .tick at_ current⟩
  | playbackFinish at_ current => exact .inr ⟨_, .finish at_ current⟩
  | playbackNoTick at_ => exact .inr ⟨_, .noTick at_⟩
  | playbackSend at_ there room => exact .inr ⟨_, .send _ at_⟩
  | playbackSendFails at_ gone => exact .inr ⟨_, .callFails _ at_⟩
  | playbackReceive at_ sent => exact .inr ⟨_, .receive _ at_⟩
  | playbackReceiveFails at_ dropped => exact .inr ⟨_, .callFails _ at_⟩
  | playbackMirror at_ there room => exact .inr ⟨_, .mirror at_⟩
  | playbackMirrorFails at_ gone => exact .inr ⟨_, .mirrorFails at_⟩
  | mainStart command at_ there room => exact .inr ⟨_, .commandArrives command there⟩
  | mainShutdown at_ | mainQuit _ at_ => exact .inr ⟨_, .shutdownRequested⟩
  | _ => exact .inl rfl

/-- In every run of the graph the sink makes a run of its own. -/
theorem World.sink_runs {speaking : AudioFrame Samples → Option (EchoReference Pcm) → Bool}
    {w : World Pcm Samples}
    (reached : Relation.ReflTransGen (fun w w' => ∃ event, Step speaking w event w') .initial w) :
    ∃ log, Runs Sink.Step .initial log w.sink := by
  induction reached with
  | refl => exact ⟨[], .nil⟩
  | tail _ step ih =>
      obtain ⟨log, run⟩ := ih
      obtain ⟨event, step⟩ := step
      rcases step.sink with same | ⟨act, step⟩
      · exact ⟨log, same ▸ run⟩
      · exact ⟨log ++ [act], run.snoc step⟩

/-! ### What a log tells -/

section Log

variable (log : List (Act Pcm))

def arrivals : List BargeIn := log.filterMap fun
  | .arrived interrupt => some interrupt
  | _ => none

def interrupts : List BargeIn := log.filterMap fun
  | .interrupted interrupt => some interrupt
  | _ => none

def starts : List (PlaybackCommand Pcm) := log.filterMap fun
  | .started command => some command
  | _ => none

def submissions : List (HardwarePlaybackRequest Pcm) := log.filterMap fun
  | .submitted request => some request
  | _ => none

def receipts : List PlaybackReceipt := log.filterMap fun
  | .confirmed receipt => some receipt
  | _ => none

def mirrors : List (EchoReference Pcm) := log.filterMap fun
  | .mirrored echo => some echo
  | _ => none

end Log

/-- The echo reference of a frame, from the receipt of its call. -/
def echoOf (pcm : Pcm) (receipt : PlaybackReceipt) : EchoReference Pcm :=
  ⟨pcm, receipt.sequence, receipt.presentationTimeNs⟩

/-- `HardwareController::play_pcm` at a given time. -/
def playPcm (request : HardwarePlaybackRequest Pcm) (monotonicTimeNs : UInt64) : PlaybackReceipt :=
  ⟨request.sequence, monotonicTimeNs⟩

/-- The submitted frames are a part of `rest` from its start, followed by one such
part of every utterance, in the order of the `Start` commands. -/
def Spoken (rest : List Pcm) (log : List (Act Pcm)) : Prop :=
  ∃ first parts, first <+: rest ∧
    List.Forall₂ (· <+: ·) parts ((starts log).map (·.frames)) ∧
    (submissions log).map (·.pcm) = first ++ parts.flatten

/-! ### What is being said -/

/-- Where the last submitted frame is. -/
inductive Flight (Pcm : Type) where
  | idle
  | calling (pcm : Pcm)
  | holding (echo : EchoReference Pcm)
  | ended

/-- What the sink does, without its polls and inboxes: the frames left of the current
utterance, the number of the next frame, and the frame that is under way. -/
structure Speaker (Pcm : Type) where
  rest : List Pcm
  next : UInt64
  flight : Flight Pcm

inductive Speaker.Step : Speaker Pcm → Act Pcm → Speaker Pcm → Prop where
  | wait {s : Speaker Pcm} : Step s .other s
  | arrive {s : Speaker Pcm} {interrupt : BargeIn} : Step s (.arrived interrupt) s
  | finish {rest : List Pcm} {next : UInt64} :
      Step ⟨rest, next, .idle⟩ .other ⟨[], next, .idle⟩
  | interrupt {rest : List Pcm} {next : UInt64} {interrupt : BargeIn} :
      Step ⟨rest, next, .idle⟩ (.interrupted interrupt) ⟨[], next, .idle⟩
  | start {rest : List Pcm} {next : UInt64} {command : PlaybackCommand Pcm} :
      Step ⟨rest, next, .idle⟩ (.started command) ⟨command.frames, next, .idle⟩
  | submit {pcm : Pcm} {rest : List Pcm} {next : UInt64} :
      Step ⟨pcm :: rest, next, .idle⟩ (.submitted ⟨pcm, next⟩) ⟨rest, next + 1, .calling pcm⟩
  | confirm {pcm : Pcm} {rest : List Pcm} {next : UInt64} {receipt : PlaybackReceipt} :
      Step ⟨rest, next, .calling pcm⟩ (.confirmed receipt)
        ⟨rest, next, .holding (echoOf pcm receipt)⟩
  | mirror {echo : EchoReference Pcm} {rest : List Pcm} {next : UInt64} :
      Step ⟨rest, next, .holding echo⟩ (.mirrored echo) ⟨rest, next, .idle⟩
  | stop {s : Speaker Pcm} : Step s .other ⟨[], 0, .ended⟩

def Speech.rest (speech : Speech Pcm) : List Pcm := (speech.current.map Prod.snd).getD []

def Playback.speaker : Playback Pcm → Speaker Pcm
  | .atShutdown speech | .atBarge speech | .atCommand speech | .atTick speech =>
      ⟨speech.rest, speech.sequence, .idle⟩
  | .calling speech pcm _ => ⟨speech.rest, speech.sequence + 1, .calling pcm⟩
  | .mirroring speech echo => ⟨speech.rest, speech.sequence + 1, .holding echo⟩
  | .ended _ => ⟨[], 0, .ended⟩

/-- Every step of the sink is one of the speaker. -/
theorem Sink.Step.speaker {s s' : Sink Pcm} {act : Act Pcm} (step : Sink.Step s act s') :
    Speaker.Step s.playback.speaker act s'.playback.speaker := by
  cases step with
  | shutdownRequested => exact .wait
  | bargeArrives interrupt => exact .arrive
  | commandArrives => exact .wait
  | leave | bargePanics => exact .stop
  | goOn at_ => rw [at_]; exact .wait
  | barge at_ => rw [at_]; exact .interrupt
  | noBarge at_ => rw [at_]; exact .wait
  | command at_ => rw [at_]; exact .start
  | noCommand at_ => rw [at_]; exact .wait
  | @tick speech utteranceId pcm rest at_ current =>
      have left : speech.rest = pcm :: rest := by rw [Speech.rest, current]; rfl
      rw [at_, Playback.speaker, left]
      exact .submit
  | finish at_ => rw [at_]; exact .finish
  | noTick at_ => rw [at_]; exact .wait
  | send i at_ => rw [at_]; exact .wait
  | callFails => exact .stop
  | receive receipt at_ => rw [at_]; exact .confirm
  | mirror at_ => rw [at_]; exact .mirror
  | mirrorFails => exact .stop

namespace Speaker

variable {s s' : Speaker Pcm} {log : List (Act Pcm)}

/-- The frames of a run come from the utterance under way and from those that are
started in the run. -/
theorem spoken (run : Runs Step s log s') : Spoken s.rest log := by
  induction run with
  | nil => exact ⟨[], [], List.nil_prefix, .nil, rfl⟩
  | @cons s s' s'' act log step _ ih =>
      obtain ⟨first, parts, begins, each, all⟩ := ih
      cases step with
      | wait => exact ⟨first, parts, begins, each, all⟩
      | arrive => exact ⟨first, parts, begins, each, all⟩
      | finish => exact ⟨first, parts, begins.trans List.nil_prefix, each, all⟩
      | interrupt => exact ⟨first, parts, begins.trans List.nil_prefix, each, all⟩
      | start => exact ⟨[], first :: parts, List.nil_prefix, .cons begins each, all⟩
      | @submit pcm rest next =>
          exact ⟨pcm :: first, parts, List.cons_prefix_cons.mpr ⟨rfl, begins⟩, each,
            congrArg (pcm :: ·) all⟩
      | confirm => exact ⟨first, parts, begins, each, all⟩
      | mirror => exact ⟨first, parts, begins, each, all⟩
      | stop => exact ⟨first, parts, begins.trans List.nil_prefix, each, all⟩

/-- Nothing is said when the sink has ended. -/
theorem silent (run : Runs Step s log s') (ended : s.flight = .ended) :
    submissions log = [] ∧ mirrors log = [] ∧ s'.flight = .ended := by
  induction run with
  | nil => exact ⟨rfl, rfl, ended⟩
  | cons step _ ih =>
      cases step with
      | wait => exact ih ended
      | arrive => exact ih ended
      | stop => exact ih rfl
      | _ => cases ended

/-- The frames of a run are numbered from the next number on. -/
theorem numbered (run : Runs Step s log s') :
    (submissions log).map (·.sequence) =
      (List.range (submissions log).length).map fun i => s.next + UInt64.ofNat i := by
  induction run with
  | nil => rfl
  | @cons s s' s'' act log step run ih =>
      cases step with
      | @submit pcm rest next =>
          have all : submissions (.submitted ⟨pcm, next⟩ :: log) = ⟨pcm, next⟩ :: submissions log :=
            rfl
          rw [all, List.map_cons, ih, List.length_cons, List.range_succ_eq_map, List.map_cons,
            List.map_map]
          refine congrArg₂ _ (UInt64.add_zero _).symm (List.map_congr_left fun i _ => ?_)
          change next + 1 + UInt64.ofNat i = next + UInt64.ofNat (i + 1)
          rw [UInt64.ofNat_add, UInt64.add_assoc, UInt64.add_comm 1]
          rfl
      | stop =>
          have none : submissions (.other :: log) = [] := (silent run rfl).1
          rw [none]
          rfl
      | _ => exact ih

/-- The frame whose call has not returned. -/
def called (s : Speaker Pcm) : List Pcm :=
  match s.flight with
  | .calling pcm => [pcm]
  | _ => []

/-- The echo reference that has not been sent. -/
def held (s : Speaker Pcm) : List (EchoReference Pcm) :=
  match s.flight with
  | .holding echo => [echo]
  | _ => []

theorem underWay_le (s : Speaker Pcm) : s.held.length + s.called.length ≤ 1 := by
  unfold held called
  cases s.flight <;> simp

/-- The echo references of a run are those of the frames under way and of the
submitted frames, each with its receipt, but for at most one at the end. -/
theorem mirrored (run : Runs Step s log s') :
    mirrors log <+: s.held ++
        List.zipWith echoOf (s.called ++ (submissions log).map (·.pcm)) (receipts log) ∧
      s.held.length + s.called.length + (submissions log).length ≤ (mirrors log).length + 1 := by
  induction run with
  | nil => exact ⟨List.nil_prefix, underWay_le _⟩
  | @cons s s' s'' act log step run ih =>
      cases step with
      | submit =>
          refine ⟨ih.1, ?_⟩
          have count : 0 + 1 + (submissions log).length ≤ (mirrors log).length + 1 := ih.2
          change 0 + 0 + ((submissions log).length + 1) ≤ (mirrors log).length + 1
          omega
      | confirm => exact ⟨ih.1, ih.2⟩
      | mirror =>
          refine ⟨List.cons_prefix_cons.mpr ⟨rfl, ih.1⟩, ?_⟩
          have count : 0 + 0 + (submissions log).length ≤ (mirrors log).length + 1 := ih.2
          change 1 + 0 + (submissions log).length ≤ (mirrors log).length + 1 + 1
          omega
      | stop =>
          obtain ⟨submitted, sent, -⟩ := silent run rfl
          have none : mirrors (.other :: log) = [] := sent
          have quiet : submissions (.other :: log) = [] := submitted
          rw [none, quiet]
          exact ⟨List.nil_prefix, underWay_le s⟩
      | _ => exact ih

end Speaker

/-! ### Interrupts -/

/-- How many frames can be submitted before the interrupts are polled again. -/
def Playback.ahead : Playback Pcm → Nat
  | .atCommand _ | .atTick _ => 1
  | _ => 0

theorem Playback.ahead_le (playback : Playback Pcm) : playback.ahead ≤ 1 := by
  cases playback <;> simp [ahead]

theorem Playback.flight_ne_ended {playback : Playback Pcm} (there : playback.result = none) :
    playback.speaker.flight ≠ .ended := by
  cases playback with
  | ended result => cases there
  | _ => rintro ⟨⟩

namespace Sink

variable {s s' : Sink Pcm} {log : List (Act Pcm)}

/-- The run of the speaker in a run of the sink. -/
theorem speaker (run : Runs Sink.Step s log s') :
    Runs Speaker.Step s.playback.speaker log s'.playback.speaker :=
  run.map (fun s => s.playback.speaker) fun _ _ _ step => step.speaker

/-- While an interrupt waits in its inbox, the sink gets past the poll of the
interrupts only where it was past it already. -/
theorem prompt (run : Runs Sink.Step s log s')
    (waits : (interrupts log).length < s.barges.length) :
    (submissions log).length ≤ s.playback.ahead := by
  induction run with
  | nil => exact Nat.zero_le _
  | @cons s s' s'' act log step run ih =>
      cases step with
      | shutdownRequested => exact ih waits
      | bargeArrives => exact ih (waits.trans_le (by simp))
      | commandArrives => exact ih waits
      | goOn at_ => rw [at_]; exact ih waits
      | @barge speech interrupt rest at_ next =>
          rw [next] at waits
          exact (ih (Nat.lt_of_succ_lt_succ waits)).trans (Nat.zero_le _)
      | noBarge at_ empty =>
          rw [empty] at waits
          cases waits
      | command at_ => exact (ih waits).trans (Nat.zero_le _)
      | noCommand at_ => rw [at_]; exact ih waits
      | tick at_ =>
          rw [at_]
          exact Nat.succ_le_succ (ih waits)
      | finish at_ => exact (ih waits).trans (Nat.zero_le _)
      | noTick at_ => exact (ih waits).trans (Nat.zero_le _)
      | send i at_ => rw [at_]; exact ih waits
      | receive receipt at_ => rw [at_]; exact ih waits
      | mirror at_ => rw [at_]; exact ih waits
      | leave | bargePanics message | callFails message | mirrorFails =>
          have none := (Speaker.silent (speaker run) rfl).1
          exact (congrArg List.length none).le.trans (Nat.zero_le _)

/-- As long as the sink has not ended, its inbox holds the interrupts that have
arrived and were not received. -/
theorem waiting (run : Runs Sink.Step s log s') (there : s'.playback.result = none) :
    s'.barges.length + (interrupts log).length = s.barges.length + (arrivals log).length := by
  induction run with
  | nil => rfl
  | @cons s s' s'' act log step run ih =>
      have count := ih there
      have alive := Playback.flight_ne_ended there
      cases step with
      | bargeArrives interrupt =>
          rw [List.length_append, List.length_singleton] at count
          change _ = s.barges.length + ((arrivals log).length + 1)
          rw [← Nat.add_right_comm] at count
          exact count
      | @barge speech interrupt rest at_ next =>
          change _ + ((interrupts log).length + 1) = _
          rw [next, List.length_cons, ← Nat.add_assoc, count, Nat.add_right_comm]
          rfl
      | leave | bargePanics message | callFails message | mirrorFails =>
          exact absurd (Speaker.silent (speaker run) rfl).2.2 alive
      | _ => exact count

end Sink

/-! ### The law of the sink -/

/-- What the log of a run of the sink obeys. -/
structure PlaybackLaw (log : List (Act Pcm)) : Prop where
  /-- Frames are numbered without gap or repeat. -/
  numbered : (submissions log).length < 2 ^ 64 →
    (submissions log).map (·.sequence.toNat) = List.range (submissions log).length
  /-- The frames are those of the utterances, each up to some point. -/
  spoken : Spoken [] log
  /-- The echo references are the frames with their receipts, but for the last one. -/
  mirrored : mirrors log <+: List.zipWith echoOf ((submissions log).map (·.pcm)) (receipts log)
  complete : (submissions log).length ≤ (mirrors log).length + 1
  /-- The receipts of `play_pcm` carry the numbers of the frames. -/
  ownNumber : ∀ times, receipts log = List.zipWith playPcm (submissions log) times →
    (mirrors log).map (·.playbackSequence) <+: (submissions log).map (·.sequence)
  /-- After an interrupt only later utterances are spoken. -/
  interrupted : ∀ before interrupt after, log = before ++ .interrupted interrupt :: after →
    Spoken [] before ∧ Spoken [] after
  /-- While an interrupt is in the inbox, at most one frame is submitted. -/
  prompt : ∀ before interrupt between after,
    log = before ++ .arrived interrupt :: (between ++ after) →
    (interrupts (before ++ between)).length ≤ (arrivals before).length →
    (submissions between).length ≤ 1

/-- The numbers of the frames, by way of their receipts. -/
theorem playbackSequences_within (requests : List (HardwarePlaybackRequest Pcm))
    (times : List UInt64) :
    (List.zipWith echoOf (requests.map (·.pcm)) (List.zipWith playPcm requests times)).map
      (·.playbackSequence) <+: requests.map (·.sequence) := by
  induction requests generalizing times with
  | nil => exact List.nil_prefix
  | cons request rest ih =>
      cases times with
      | nil => exact List.nil_prefix
      | cons time times => exact List.cons_prefix_cons.mpr ⟨rfl, ih times⟩

/-- Every run of the sink, whatever arrives and however long the proxy and the echo
edge block. -/
theorem playback_law {s : Sink Pcm} {log : List (Act Pcm)}
    (run : Runs Sink.Step .initial log s) : PlaybackLaw log where
  numbered few := by
    have numbers := congrArg (List.map UInt64.toNat) (Speaker.numbered (Sink.speaker run))
    rw [List.map_map, List.map_map] at numbers
    refine numbers.trans ((List.map_congr_left fun i inside => ?_).trans (List.map_id _))
    change ((0 : UInt64) + UInt64.ofNat i).toNat = i
    rw [UInt64.zero_add]
    exact UInt64.toNat_ofNat_of_lt' ((List.mem_range.mp inside).trans few)
  spoken := Speaker.spoken (Sink.speaker run)
  mirrored := (Speaker.mirrored (Sink.speaker run)).1
  complete := by
    have count := (Speaker.mirrored (Sink.speaker run)).2
    change 0 + _ ≤ _ at count
    rwa [Nat.zero_add] at count
  ownNumber times played := by
    have all := (Speaker.mirrored (Sink.speaker run)).1
    rw [played] at all
    exact (all.map _).trans (playbackSequences_within _ times)
  interrupted before interrupt after cut := by
    subst cut
    obtain ⟨s₁, first, second⟩ := run.split
    cases second with
    | cons step rest =>
        cases step with
        | barge at_ next =>
            exact ⟨Speaker.spoken (Sink.speaker first), Speaker.spoken (Sink.speaker rest)⟩
  prompt before interrupt between after cut unreceived := by
    subst cut
    obtain ⟨s₁, first, second⟩ := run.split
    cases second with
    | cons step rest =>
        cases step with
        | bargeArrives interrupt there =>
            obtain ⟨s₂, rest, -⟩ := rest.split
            have count := Sink.waiting first there
            have later : interrupts (before ++ between) = interrupts before ++ interrupts between :=
              List.filterMap_append
            rw [later, List.length_append] at unreceived
            change _ = 0 + _ at count
            refine (Sink.prompt rest ?_).trans (Playback.ahead_le _)
            rw [List.length_append, List.length_singleton]
            omega

/-- An utterance of two frames is interrupted while its first frame is at the proxy. -/
theorem playback_law_interrupted : ∃ (log : List (Act Nat)) (s : Sink Nat),
    Runs Sink.Step .initial log s ∧ (submissions log).map (·.pcm) = [7] ∧
      interrupts log = [⟨3⟩] ∧ PlaybackLaw log := by
  have run := (Runs.nil : Runs Sink.Step (.initial : Sink Nat) [] _)
    |>.snoc (.commandArrives ⟨1, [7, 8]⟩ rfl)
    |>.snoc (.goOn rfl rfl) |>.snoc (.noBarge rfl rfl) |>.snoc (.command rfl rfl)
    |>.snoc (.goOn rfl rfl) |>.snoc (.noBarge rfl rfl) |>.snoc (.noCommand rfl rfl)
    |>.snoc (.tick rfl rfl) |>.snoc (.send 0 rfl) |>.snoc (.bargeArrives ⟨3⟩ rfl)
    |>.snoc (.receive (playPcm ⟨7, 0⟩ 50) rfl) |>.snoc (.mirror rfl)
    |>.snoc (.goOn rfl rfl) |>.snoc (.barge rfl rfl)
    |>.snoc (.goOn rfl rfl) |>.snoc (.noBarge rfl rfl) |>.snoc (.noCommand rfl rfl)
    |>.snoc (.noTick rfl)
  exact ⟨_, _, run, rfl, rfl, playback_law run⟩

end Dorsche.Topshim.Actors
