import Dorsche.Lib.Exchange

/-!
The actor graph (`src/topshim/actors.rs`, `src/main.rs`).

Four tasks and `main` communicate through bounded channels, two request and reply
exchanges with the controller proxy, and a shutdown flag. `Step` interleaves them.
A biased `select!` polls its branches in order, and other tasks run between two
polls, so the position of the poll is part of a task's state. A branch whose
receiver has lost its senders is passed by like one that is not ready; the
`else` branches are never taken, since the shutdown branch is never disabled.

An `eprintln!` whose line is not taken is a panic, and the error of the task for whoever
joins it. `main` can end before the shutdown (`Early`); then the sender of the shutdown
flag is gone, and the tasks leave as for the flag itself. They run on until the runtime
drops them.

The samples, the hardware's answers and the energy test of the voice detector are
parameters.
-/

namespace Dorsche.Topshim.Actors

open Dorsche.Lib

/-- A capture with what the actors read of it. -/
structure AudioFrame (Samples : Type) where
  sequence : UInt64
  captureTimeNs : UInt64
  samples : Samples
deriving DecidableEq, Repr

structure PlaybackReceipt where
  sequence : UInt64
  presentationTimeNs : UInt64
deriving DecidableEq, Repr

/-- `HardwarePlaybackRequest` without its reply channel. -/
structure HardwarePlaybackRequest (Pcm : Type) where
  pcm : Pcm
  sequence : UInt64
deriving DecidableEq, Repr

/-- `PlaybackCommand::Start`. -/
structure PlaybackCommand (Pcm : Type) where
  utteranceId : UInt64
  frames : List Pcm
deriving DecidableEq, Repr

structure EchoReference (Pcm : Type) where
  pcm : Pcm
  playbackSequence : UInt64
  presentationTimeNs : UInt64
deriving DecidableEq, Repr

structure BargeIn where
  microphoneSequence : UInt64
deriving DecidableEq, Repr

/-- What the detector receives. -/
inductive Heard (Pcm Samples : Type) where
  | echo (echo : EchoReference Pcm)
  | frame (frame : AudioFrame Samples)
deriving DecidableEq, Repr

/-- What happens at the sink. -/
inductive Act (Pcm : Type) where
  /-- An interrupt enters its inbox. -/
  | arrived (interrupt : BargeIn)
  /-- The sink receives an interrupt. -/
  | interrupted (interrupt : BargeIn)
  /-- The sink receives a `Start`. -/
  | started (command : PlaybackCommand Pcm)
  /-- The sink calls `ProxyHandle::play`. -/
  | submitted (request : HardwarePlaybackRequest Pcm)
  /-- The call returns. -/
  | confirmed (receipt : PlaybackReceipt)
  /-- The sink sends an echo reference. -/
  | mirrored (echo : EchoReference Pcm)
  | other
deriving DecidableEq, Repr

/-! ### Tasks -/

/-- `run_controller_proxy`: the branch it polls next. -/
inductive Proxy where
  | atShutdown
  | atPlayback
  | atCapture
  | ended (result : Result Unit)
deriving DecidableEq, Repr

/-- `run_microphone_capture`. Its `select!` is not biased. -/
inductive Microphone (Samples : Type) where
  | selecting
  | calling (call : Exchange.Call Unit)
  | adopting (raw : AudioFrame Samples)
  | forwarding (frame : AudioFrame Samples)
  | ended (result : Result Unit)
deriving DecidableEq, Repr

/-- `run_vad_ai`: the branch it polls next, with its variables. -/
inductive Vad (Pcm : Type) where
  | atShutdown (latestEcho : Option (EchoReference Pcm)) (speechActive : Bool)
  | atEcho (latestEcho : Option (EchoReference Pcm)) (speechActive : Bool)
  | atMicrophone (latestEcho : Option (EchoReference Pcm)) (speechActive : Bool)
  | ended (result : Result Unit)
deriving DecidableEq, Repr

/-- The variables of `run_playback_sink`. -/
structure Speech (Pcm : Type) where
  current : Option (UInt64 × List Pcm)
  sequence : UInt64
deriving DecidableEq, Repr

/-- `run_playback_sink`. -/
inductive Playback (Pcm : Type) where
  | atShutdown (speech : Speech Pcm)
  | atBarge (speech : Speech Pcm)
  | atCommand (speech : Speech Pcm)
  | atTick (speech : Speech Pcm)
  | calling (speech : Speech Pcm) (pcm : Pcm)
      (call : Exchange.Call (HardwarePlaybackRequest Pcm))
  | mirroring (speech : Speech Pcm) (echo : EchoReference Pcm)
  | ended (result : Result Unit)
deriving DecidableEq, Repr

/-- How `main` can end before the shutdown. -/
inductive Early where
  /-- Its line is not taken. -/
  | panicked
  /-- `DORSCHE_DEMO_MS` is not a number. -/
  | demo
  /-- The Ctrl-C handler cannot be installed. -/
  | handler
deriving DecidableEq, Repr

/-- `main` from the point where the tasks are spawned. `joining` counts the tasks
it has joined. -/
inductive Main where
  | starting
  | running
  | joining (joined : Nat)
  | returned (result : Result Unit)
  | quit (reason : Early)
deriving DecidableEq, Repr

structure World (Pcm Samples : Type) where
  /-- The flag is set, or its sender is gone. -/
  shutdown : Bool
  captures : Exchange Unit (Result (AudioFrame Samples))
  playbacks : Exchange (HardwarePlaybackRequest Pcm) PlaybackReceipt
  frames : List (AudioFrame Samples)
  echoes : List (EchoReference Pcm)
  barges : List BargeIn
  commands : List (PlaybackCommand Pcm)
  proxy : Proxy
  microphone : Microphone Samples
  vad : Vad Pcm
  playback : Playback Pcm
  main : Main
deriving DecidableEq, Repr

variable {Pcm Samples : Type}

def World.initial : World Pcm Samples where
  shutdown := false
  captures := .empty
  playbacks := .empty
  frames := []
  echoes := []
  barges := []
  commands := []
  proxy := .atShutdown
  microphone := .selecting
  vad := .atShutdown none false
  playback := .atShutdown ⟨none, 0⟩
  main := .starting

/-! ### How they ended -/

/-- The tasks, in the order `main` joins them. -/
inductive Actor where
  | proxy
  | microphone
  | vad
  | playback
deriving DecidableEq, Repr

def Actor.all : List Actor := [.proxy, .microphone, .vad, .playback]

def Proxy.result : Proxy → Option (Result Unit)
  | .ended result => some result
  | _ => none

def Microphone.result : Microphone Samples → Option (Result Unit)
  | .ended result => some result
  | _ => none

def Vad.result : Vad Pcm → Option (Result Unit)
  | .ended result => some result
  | _ => none

def Playback.result : Playback Pcm → Option (Result Unit)
  | .ended result => some result
  | _ => none

/-- What a task returned, if it has. -/
def World.result (w : World Pcm Samples) : Actor → Option (Result Unit)
  | .proxy => w.proxy.result
  | .microphone => w.microphone.result
  | .vad => w.vad.result
  | .playback => w.playback.result

/-! ### Steps -/

/-- The echo a frame is compared with: played within 50 ms of it. -/
def alignedEcho (latestEcho : Option (EchoReference Pcm)) (frame : AudioFrame Samples) :
    Option (EchoReference Pcm) :=
  latestEcho.filter fun echo =>
    (frame.captureTimeNs.toNat - echo.presentationTimeNs.toNat) +
      (echo.presentationTimeNs.toNat - frame.captureTimeNs.toNat) ≤ 50000000

/-- The interrupts after a frame: `try_send` into a channel of one place. -/
def World.bargeIn (w : World Pcm Samples) (frame : AudioFrame Samples) (interrupts : Bool) :
    List BargeIn :=
  if interrupts ∧ w.playback.result = none ∧ w.barges.length < 1 then
    w.barges ++ [⟨frame.sequence⟩]
  else w.barges

/-- The interrupt that a frame puts there. -/
def World.sent (w : World Pcm Samples) (frame : AudioFrame Samples) (interrupts : Bool) :
    List BargeIn :=
  if interrupts ∧ w.playback.result = none ∧ w.barges.length < 1 then [⟨frame.sequence⟩] else []

/-- Whether a frame interrupts the playback, by the variables of the detector. -/
def breaksIn (speaking : AudioFrame Samples → Option (EchoReference Pcm) → Bool)
    (latestEcho : Option (EchoReference Pcm)) (speechActive : Bool) (frame : AudioFrame Samples) :
    Bool :=
  speaking frame (alignedEcho latestEcho frame) && !speechActive &&
    (alignedEcho latestEcho frame).isSome

/-- A call returns the reply of the proxy, or the error of a hardware frame. -/
def Microphone.received : Result (AudioFrame Samples) → Microphone Samples
  | .ok raw => .adopting raw
  | .error message => .ended (.error message)

/-- `SharedPcmFrame::from_cpp` returns. -/
def Microphone.adopted (raw : AudioFrame Samples) : Result Unit → Microphone Samples
  | .ok () => .forwarding raw
  | .error message => .ended (.error message)

/-- What is told of a step: the outcomes that come from the hardware, the moments at which
an exchange with the proxy begins and the proxy goes, what the detector hears with the
interrupt it sends, what the sink does, and the panics. -/
inductive Event (Pcm Samples : Type) where
  /-- With the frame, if it is one to play. -/
  | begin (request : Option (HardwarePlaybackRequest Pcm))
  | leave
  | captured (result : Result (AudioFrame Samples))
  | adopted (result : Result Unit)
  | heard (item : Heard Pcm Samples) (sent : List BargeIn)
  | acted (act : Act Pcm)
  | panicked
  | other
deriving DecidableEq, Repr

/-- One poll of a branch, or one channel operation, of one task. -/
inductive Step (speaking : AudioFrame Samples → Option (EchoReference Pcm) → Bool) :
    World Pcm Samples → Event Pcm Samples → World Pcm Samples → Prop where
  /-- The proxy breaks; its receivers are dropped with its future. -/
  | proxyLeave {w : World Pcm Samples} : w.proxy = .atShutdown → w.shutdown = true →
      Step speaking w .leave
        { w with
          proxy := .ended (.ok ())
          captures := w.captures.close
          playbacks := w.playbacks.close }
  | proxyGoOn {w : World Pcm Samples} : w.proxy = .atShutdown → w.shutdown = false →
      Step speaking w .other { w with proxy := .atPlayback }
  | proxyPlay {w : World Pcm Samples} (receipt : PlaybackReceipt) : w.proxy = .atPlayback →
      w.playbacks.inbox ≠ [] →
      Step speaking w .other
        { w with proxy := .atShutdown, playbacks := w.playbacks.answer receipt }
  | proxyNoPlay {w : World Pcm Samples} : w.proxy = .atPlayback → w.playbacks.inbox = [] →
      Step speaking w .other { w with proxy := .atCapture }
  | proxyCapture {w : World Pcm Samples} (result : Result (AudioFrame Samples)) :
      w.proxy = .atCapture → w.captures.inbox ≠ [] →
      Step speaking w (.captured result)
        { w with proxy := .atShutdown, captures := w.captures.answer result }
  | proxyNoCapture {w : World Pcm Samples} : w.proxy = .atCapture → w.captures.inbox = [] →
      Step speaking w .other { w with proxy := .atShutdown }
  | microphoneLeave {w : World Pcm Samples} : w.microphone = .selecting → w.shutdown = true →
      Step speaking w .other { w with microphone := .ended (.ok ()) }
  | microphoneTick {w : World Pcm Samples} : w.microphone = .selecting →
      Step speaking w (.begin none) { w with microphone := .calling (.sending ()) }
  | microphoneSend {w : World Pcm Samples} : w.microphone = .calling (.sending ()) →
      w.proxy.result = none → w.captures.inbox.length < 2 →
      Step speaking w .other
        { w with
          microphone := .calling (.awaiting w.captures.replies.length)
          captures := w.captures.send () }
  | microphoneSendFails {w : World Pcm Samples} : w.microphone = .calling (.sending ()) →
      w.proxy.result ≠ none →
      Step speaking w .other { w with microphone := .ended (.error "controller proxy stopped") }
  | microphoneReceive {w : World Pcm Samples} {i : Nat} {result : Result (AudioFrame Samples)} :
      w.microphone = .calling (.awaiting i) → w.captures.replies[i]? = some (.sent result) →
      Step speaking w .other { w with microphone := .received result }
  | microphoneReceiveFails {w : World Pcm Samples} {i : Nat} :
      w.microphone = .calling (.awaiting i) → w.captures.replies[i]? = some .dropped →
      Step speaking w .other
        { w with microphone := .ended (.error "controller dropped capture reply") }
  | microphoneAdopt {w : World Pcm Samples} {raw : AudioFrame Samples} (result : Result Unit) :
      w.microphone = .adopting raw →
      Step speaking w (.adopted result) { w with microphone := .adopted raw result }
  | microphoneForward {w : World Pcm Samples} {frame : AudioFrame Samples} :
      w.microphone = .forwarding frame → w.vad.result = none → w.frames.length < 8 →
      Step speaking w .other
        { w with microphone := .selecting, frames := w.frames ++ [frame] }
  | microphoneForwardFails {w : World Pcm Samples} {frame : AudioFrame Samples} :
      w.microphone = .forwarding frame → w.vad.result ≠ none →
      Step speaking w .other { w with microphone := .ended (.ok ()) }
  | vadLeave {w : World Pcm Samples} {latestEcho : Option (EchoReference Pcm)}
      {speechActive : Bool} : w.vad = .atShutdown latestEcho speechActive → w.shutdown = true →
      Step speaking w .other { w with vad := .ended (.ok ()), frames := [], echoes := [] }
  | vadGoOn {w : World Pcm Samples} {latestEcho : Option (EchoReference Pcm)}
      {speechActive : Bool} : w.vad = .atShutdown latestEcho speechActive → w.shutdown = false →
      Step speaking w .other { w with vad := .atEcho latestEcho speechActive }
  | vadEcho {w : World Pcm Samples} {latestEcho : Option (EchoReference Pcm)}
      {speechActive : Bool} {echo : EchoReference Pcm} {rest : List (EchoReference Pcm)} :
      w.vad = .atEcho latestEcho speechActive → w.echoes = echo :: rest →
      Step speaking w (.heard (.echo echo) [])
        { w with vad := .atShutdown (some echo) speechActive, echoes := rest }
  | vadNoEcho {w : World Pcm Samples} {latestEcho : Option (EchoReference Pcm)}
      {speechActive : Bool} : w.vad = .atEcho latestEcho speechActive → w.echoes = [] →
      Step speaking w .other { w with vad := .atMicrophone latestEcho speechActive }
  | vadFrame {w : World Pcm Samples} {latestEcho : Option (EchoReference Pcm)}
      {speechActive : Bool} {frame : AudioFrame Samples} {rest : List (AudioFrame Samples)} :
      w.vad = .atMicrophone latestEcho speechActive → w.frames = frame :: rest →
      Step speaking w
        (.heard (.frame frame) (w.sent frame (breaksIn speaking latestEcho speechActive frame)))
        { w with
          vad := .atShutdown latestEcho (speaking frame (alignedEcho latestEcho frame))
          frames := rest
          barges := w.bargeIn frame (breaksIn speaking latestEcho speechActive frame) }
  /-- The line about an interrupt is not taken. -/
  | vadPanics {w : World Pcm Samples} {latestEcho : Option (EchoReference Pcm)}
      {speechActive : Bool} {frame : AudioFrame Samples} {rest : List (AudioFrame Samples)} :
      w.vad = .atMicrophone latestEcho speechActive → w.frames = frame :: rest →
      breaksIn speaking latestEcho speechActive frame = true →
      Step speaking w .panicked
        { w with vad := .ended (.error "actor panicked"), frames := [], echoes := [] }
  | vadNoFrame {w : World Pcm Samples} {latestEcho : Option (EchoReference Pcm)}
      {speechActive : Bool} : w.vad = .atMicrophone latestEcho speechActive → w.frames = [] →
      Step speaking w .other { w with vad := .atShutdown latestEcho speechActive }
  | playbackLeave {w : World Pcm Samples} {speech : Speech Pcm} :
      w.playback = .atShutdown speech → w.shutdown = true →
      Step speaking w .other { w with playback := .ended (.ok ()), commands := [], barges := [] }
  | playbackGoOn {w : World Pcm Samples} {speech : Speech Pcm} :
      w.playback = .atShutdown speech → w.shutdown = false →
      Step speaking w .other { w with playback := .atBarge speech }
  | playbackBarge {w : World Pcm Samples} {speech : Speech Pcm} {interrupt : BargeIn}
      {rest : List BargeIn} : w.playback = .atBarge speech → w.barges = interrupt :: rest →
      Step speaking w (.acted (.interrupted interrupt))
        { w with playback := .atShutdown { speech with current := none }, barges := rest }
  /-- The line about the utterance it stops is not taken. -/
  | playbackPanics {w : World Pcm Samples} {speech : Speech Pcm} {utterance : UInt64 × List Pcm}
      {interrupt : BargeIn} {rest : List BargeIn} : w.playback = .atBarge speech →
      w.barges = interrupt :: rest → speech.current = some utterance →
      Step speaking w .panicked
        { w with playback := .ended (.error "actor panicked"), commands := [], barges := [] }
  | playbackNoBarge {w : World Pcm Samples} {speech : Speech Pcm} :
      w.playback = .atBarge speech → w.barges = [] →
      Step speaking w .other { w with playback := .atCommand speech }
  | playbackCommand {w : World Pcm Samples} {speech : Speech Pcm}
      {command : PlaybackCommand Pcm} {rest : List (PlaybackCommand Pcm)} :
      w.playback = .atCommand speech → w.commands = command :: rest →
      Step speaking w (.acted (.started command))
        { w with
          playback :=
            .atShutdown { speech with current := some (command.utteranceId, command.frames) }
          commands := rest }
  | playbackNoCommand {w : World Pcm Samples} {speech : Speech Pcm} :
      w.playback = .atCommand speech → w.commands = [] →
      Step speaking w .other { w with playback := .atTick speech }
  /-- The clock ticks and a frame of the utterance is left. -/
  | playbackTick {w : World Pcm Samples} {speech : Speech Pcm} {utteranceId : UInt64} {pcm : Pcm}
      {rest : List Pcm} : w.playback = .atTick speech →
      speech.current = some (utteranceId, pcm :: rest) →
      Step speaking w (.begin (some ⟨pcm, speech.sequence⟩))
        { w with
          playback := .calling { speech with current := some (utteranceId, rest) } pcm
            (.sending ⟨pcm, speech.sequence⟩) }
  | playbackFinish {w : World Pcm Samples} {speech : Speech Pcm} {utteranceId : UInt64} :
      w.playback = .atTick speech → speech.current = some (utteranceId, []) →
      Step speaking w .other { w with playback := .atShutdown { speech with current := none } }
  /-- The clock has not ticked, or there is no utterance. -/
  | playbackNoTick {w : World Pcm Samples} {speech : Speech Pcm} : w.playback = .atTick speech →
      Step speaking w .other { w with playback := .atShutdown speech }
  | playbackSend {w : World Pcm Samples} {speech : Speech Pcm} {pcm : Pcm}
      {request : HardwarePlaybackRequest Pcm} :
      w.playback = .calling speech pcm (.sending request) → w.proxy.result = none →
      w.playbacks.inbox.length < 8 →
      Step speaking w .other
        { w with
          playback := .calling speech pcm (.awaiting w.playbacks.replies.length)
          playbacks := w.playbacks.send request }
  | playbackSendFails {w : World Pcm Samples} {speech : Speech Pcm} {pcm : Pcm}
      {request : HardwarePlaybackRequest Pcm} :
      w.playback = .calling speech pcm (.sending request) → w.proxy.result ≠ none →
      Step speaking w .other
        { w with
          playback := .ended (.error "controller proxy stopped")
          commands := []
          barges := [] }
  | playbackReceive {w : World Pcm Samples} {speech : Speech Pcm} {pcm : Pcm} {i : Nat}
      {receipt : PlaybackReceipt} : w.playback = .calling speech pcm (.awaiting i) →
      w.playbacks.replies[i]? = some (.sent receipt) →
      Step speaking w (.acted (.confirmed receipt))
        { w with
          playback := .mirroring speech ⟨pcm, receipt.sequence, receipt.presentationTimeNs⟩ }
  | playbackReceiveFails {w : World Pcm Samples} {speech : Speech Pcm} {pcm : Pcm} {i : Nat} :
      w.playback = .calling speech pcm (.awaiting i) → w.playbacks.replies[i]? = some .dropped →
      Step speaking w .other
        { w with
          playback := .ended (.error "controller dropped playback reply")
          commands := []
          barges := [] }
  | playbackMirror {w : World Pcm Samples} {speech : Speech Pcm} {echo : EchoReference Pcm} :
      w.playback = .mirroring speech echo → w.vad.result = none → w.echoes.length < 8 →
      Step speaking w (.acted (.mirrored echo))
        { w with
          playback := .atShutdown { speech with sequence := speech.sequence + 1 }
          echoes := w.echoes ++ [echo] }
  | playbackMirrorFails {w : World Pcm Samples} {speech : Speech Pcm} {echo : EchoReference Pcm} :
      w.playback = .mirroring speech echo → w.vad.result ≠ none →
      Step speaking w .other { w with playback := .ended (.ok ()), commands := [], barges := [] }
  | mainStart {w : World Pcm Samples} (command : PlaybackCommand Pcm) : w.main = .starting →
      w.playback.result = none → w.commands.length < 2 →
      Step speaking w .other { w with main := .running, commands := w.commands ++ [command] }
  | mainStartFails {w : World Pcm Samples} : w.main = .starting → w.playback.result ≠ none →
      Step speaking w .other { w with main := .returned (.error "start demo utterance") }
  /-- `main` ends before it requests the shutdown, and its sender goes with it. -/
  | mainQuit {w : World Pcm Samples} (reason : Early) : w.main = .running →
      Step speaking w .other { w with main := .quit reason, shutdown := true }
  /-- The time is over, or Ctrl-C was pressed. -/
  | mainShutdown {w : World Pcm Samples} : w.main = .running →
      Step speaking w .other { w with main := .joining 0, shutdown := true }
  | mainJoin {w : World Pcm Samples} {joined : Nat} {actor : Actor} : w.main = .joining joined →
      Actor.all[joined]? = some actor → w.result actor = some (.ok ()) →
      Step speaking w .other { w with main := .joining (joined + 1) }
  | mainJoinFails {w : World Pcm Samples} {joined : Nat} {actor : Actor} {message : String} :
      w.main = .joining joined → Actor.all[joined]? = some actor →
      w.result actor = some (.error message) →
      Step speaking w .other { w with main := .returned (.error message) }
  | mainReturn {w : World Pcm Samples} {joined : Nat} : w.main = .joining joined →
      Actor.all[joined]? = none → Step speaking w .other { w with main := .returned (.ok ()) }

end Dorsche.Topshim.Actors
