import Dorsche.Lib.Runs
import Dorsche.Topshim.Shutdown

/-!
The shutdown of the actor graph comes to an end.

Once the shutdown flag is set, a task that polls it leaves, so each task has a bounded
number of polls and channel operations left (`World.left`), whatever the hardware
answers and however the tasks are interleaved. Until `main` has returned, one of them
can go on: a call is answered or dropped (`Attending`), and nothing that takes from a
channel waits for anything.
-/

namespace Dorsche.Topshim.Actors

open Dorsche.Lib

variable {Pcm Samples : Type} {w w' : World Pcm Samples} {event : Event Pcm Samples}
  {speaking : AudioFrame Samples → Option (EchoReference Pcm) → Bool}
  {log : List (Event Pcm Samples)}

/-! ### Steps after the shutdown -/

def Proxy.left : Proxy → Nat
  | .atPlayback => 3
  | .atCapture => 2
  | .atShutdown => 1
  | .ended _ => 0

/-- A reply that is there lets the microphone go on with its frame and around its loop
once more. -/
def Microphone.left (captures : Exchange Unit (Result (AudioFrame Samples))) :
    Microphone Samples → Nat
  | .calling (.awaiting i) => if captures.replied i then 6 else 1
  | .adopting _ => 5
  | .forwarding _ => 4
  | .selecting => 3
  | .calling (.sending _) => 2
  | .ended _ => 0

def Vad.left : Vad Pcm → Nat
  | .atEcho _ _ => 3
  | .atMicrophone _ _ => 2
  | .atShutdown _ _ => 1
  | .ended _ => 0

def Playback.left (playbacks : Exchange (HardwarePlaybackRequest Pcm) PlaybackReceipt) :
    Playback Pcm → Nat
  | .atBarge _ => 5
  | .atCommand _ => 4
  | .atTick _ => 3
  | .calling _ _ (.sending _) => 2
  | .calling _ _ (.awaiting i) => if playbacks.replied i then 3 else 1
  | .mirroring _ _ => 2
  | .atShutdown _ => 1
  | .ended _ => 0

def Main.left : Main → Nat
  | .starting => 7
  | .running => 6
  | .joining joined => 4 - joined + 1
  | .returned _ | .quit _ => 0

/-- A bound on the steps left once the flag is set. A step of the proxy pays for the
answer it gives. -/
def World.left (w : World Pcm Samples) : Nat :=
  6 * w.proxy.left + w.microphone.left w.captures + w.vad.left + w.playback.left w.playbacks +
    w.main.left

theorem Microphone.left_le (microphone : Microphone Samples)
    (captures captures' : Exchange Unit (Result (AudioFrame Samples))) :
    microphone.left captures ≤ microphone.left captures' + 5 := by
  cases microphone with
  | calling call =>
      cases call with
      | sending q => exact Nat.le_add_right _ _
      | awaiting i =>
          simp only [Microphone.left]
          split <;> split <;> decide
  | _ => exact Nat.le_add_right _ _

theorem Playback.left_le (playback : Playback Pcm)
    (playbacks playbacks' : Exchange (HardwarePlaybackRequest Pcm) PlaybackReceipt) :
    playback.left playbacks ≤ playback.left playbacks' + 2 := by
  cases playback with
  | calling speech pcm call =>
      cases call with
      | sending q => exact Nat.le_add_right _ _
      | awaiting i =>
          simp only [Playback.left]
          split <;> split <;> decide
  | _ => exact Nat.le_add_right _ _

theorem Microphone.left_close (microphone : Microphone Samples)
    (captures : Exchange Unit (Result (AudioFrame Samples))) :
    microphone.left captures.close ≤ microphone.left captures := by
  cases microphone with
  | calling call =>
      cases call with
      | sending q => exact Nat.le_refl _
      | awaiting i =>
          simp only [Microphone.left]
          split
          · rename_i there
            exact Nat.le_of_eq (if_pos (Exchange.replied_of_close there)).symm
          · split <;> decide
  | _ => exact Nat.le_refl _

theorem Playback.left_close (playback : Playback Pcm)
    (playbacks : Exchange (HardwarePlaybackRequest Pcm) PlaybackReceipt) :
    playback.left playbacks.close ≤ playback.left playbacks := by
  cases playback with
  | calling speech pcm call =>
      cases call with
      | sending q => exact Nat.le_refl _
      | awaiting i =>
          simp only [Playback.left]
          split
          · rename_i there
            exact Nat.le_of_eq (if_pos (Exchange.replied_of_close there)).symm
          · split <;> decide
  | _ => exact Nat.le_refl _

theorem Microphone.left_received (result : Result (AudioFrame Samples))
    (captures : Exchange Unit (Result (AudioFrame Samples))) :
    (Microphone.received result).left captures ≤ 5 := by
  cases result with
  | error message => exact Nat.zero_le _
  | ok raw => exact Nat.le_refl _

theorem Microphone.left_adopted (raw : AudioFrame Samples) (result : Result Unit)
    (captures : Exchange Unit (Result (AudioFrame Samples))) :
    (Microphone.adopted raw result).left captures ≤ 4 := by
  cases result with
  | error message => exact Nat.zero_le _
  | ok done => exact Nat.le_refl _

/-- With the flag set, every step uses something up. -/
theorem Step.left (step : Step speaking w event w') (shutdown : w.shutdown = true) :
    w'.left < w.left := by
  cases step with
  | proxyLeave at_ _ =>
      have captures := w.microphone.left_close w.captures
      have playbacks := w.playback.left_close w.playbacks
      simp only [World.left, at_, Proxy.left]
      omega
  | proxyPlay receipt at_ _ =>
      have more := w.playback.left_le (w.playbacks.answer receipt) w.playbacks
      simp only [World.left, at_, Proxy.left]
      omega
  | proxyCapture result at_ _ =>
      have more := w.microphone.left_le (w.captures.answer result) w.captures
      simp only [World.left, at_, Proxy.left]
      omega
  | proxyGoOn _ running | vadGoOn _ running | playbackGoOn _ running =>
      cases running.symm.trans shutdown
  | proxyNoPlay at_ _ | proxyNoCapture at_ _ =>
      simp only [World.left, at_, Proxy.left]
      omega
  | microphoneSend at_ _ _ =>
      simp only [World.left, at_, Microphone.left, Exchange.replied_send, if_neg Bool.false_ne_true]
      omega
  | @microphoneReceive i result at_ sent =>
      have here : w.microphone.left w.captures = 6 := by
        rw [at_, Microphone.left, if_pos (Exchange.replied_of_sent sent)]
      have less := Microphone.left_received result w.captures
      simp only [World.left]
      omega
  | @microphoneAdopt raw result at_ =>
      have here : w.microphone.left w.captures = 5 := by
        rw [at_, Microphone.left]
      have less := Microphone.left_adopted raw result w.captures
      simp only [World.left]
      omega
  | microphoneReceiveFails at_ dropped =>
      simp only [World.left, at_, Microphone.left, Exchange.replied_of_dropped dropped,
        if_neg Bool.false_ne_true]
      omega
  | microphoneLeave at_ _ | microphoneTick at_ | microphoneSendFails at_ _
  | microphoneForward at_ _ _ | microphoneForwardFails at_ _ =>
      simp only [World.left, at_, Microphone.left]
      omega
  | vadLeave at_ _ | vadEcho at_ _ | vadNoEcho at_ _ | vadFrame at_ _ | vadPanics at_ _ _
  | vadNoFrame at_ _ =>
      simp only [World.left, at_, Vad.left]
      omega
  | playbackSend at_ _ _ =>
      simp only [World.left, at_, Playback.left, Exchange.replied_send, if_neg Bool.false_ne_true]
      omega
  | playbackReceive at_ sent =>
      simp only [World.left, at_, Playback.left, Exchange.replied_of_sent sent, if_true]
      omega
  | playbackReceiveFails at_ dropped =>
      simp only [World.left, at_, Playback.left, Exchange.replied_of_dropped dropped,
        if_neg Bool.false_ne_true]
      omega
  | playbackLeave at_ _ | playbackBarge at_ _ | playbackPanics at_ _ _ | playbackNoBarge at_ _
  | playbackCommand at_ _ | playbackNoCommand at_ _ | playbackTick at_ _ | playbackFinish at_ _
  | playbackNoTick at_ | playbackSendFails at_ _ | playbackMirror at_ _ _
  | playbackMirrorFails at_ _ =>
      simp only [World.left, at_, Playback.left]
      omega
  | mainJoin at_ next _ =>
      have few := (List.getElem?_eq_some_iff.mp next).1
      simp only [World.left, at_, Main.left, Actor.all, List.length_cons, List.length_nil] at few ⊢
      omega
  | mainStart _ at_ _ _ | mainStartFails at_ _ | mainQuit _ at_ | mainShutdown at_
  | mainJoinFails at_ _ _ | mainReturn at_ _ =>
      simp only [World.left, at_, Main.left]
      omega

theorem Step.shutdown (step : Step speaking w event w') (shutdown : w.shutdown = true) :
    w'.shutdown = true := by
  cases step with
  | mainShutdown _ | mainQuit _ _ => rfl
  | _ => exact shutdown

theorem shutdown_of_runs (run : Runs (Step speaking) w log w') (shutdown : w.shutdown = true) :
    w'.shutdown = true := by
  induction run with
  | nil => exact shutdown
  | cons step _ ih => exact ih (step.shutdown shutdown)

theorem left_of_runs (run : Runs (Step speaking) w log w') (shutdown : w.shutdown = true) :
    w'.left + log.length ≤ w.left := by
  induction run with
  | nil => exact Nat.le_refl _
  | cons step _ ih =>
      have less := step.left shutdown
      have rest := ih (step.shutdown shutdown)
      rw [List.length_cons]
      omega

/-! ### Nothing waits for ever -/

/-- Every call under way will be answered or is lost. -/
structure Attending (w : World Pcm Samples) : Prop where
  capturing : ∀ call, w.microphone = .calling call →
    w.captures.Attended (w.proxy.result = none) call
  playing : ∀ speech pcm call, w.playback = .calling speech pcm call →
    w.playbacks.Attended (w.proxy.result = none) call

theorem attending_initial : Attending (World.initial : World Pcm Samples) :=
  ⟨by rintro _ ⟨⟩, by rintro _ _ _ ⟨⟩⟩

theorem Attending.step (attending : Attending w) (step : Step speaking w event w') :
    Attending w' := by
  obtain ⟨capturing, playing⟩ := attending
  cases step with
  | proxyLeave at_ _ =>
      exact ⟨fun call calling => (capturing call calling).close,
        fun speech pcm call calling => (playing speech pcm call calling).close⟩
  | proxyGoOn at_ _ | proxyNoPlay at_ _ | proxyNoCapture at_ _ =>
      rw [at_] at capturing playing
      exact ⟨capturing, playing⟩
  | proxyPlay receipt at_ _ =>
      rw [at_] at capturing playing
      exact ⟨capturing, fun speech pcm call calling => (playing speech pcm call calling).answer⟩
  | proxyCapture result at_ _ =>
      rw [at_] at capturing playing
      exact ⟨fun call calling => (capturing call calling).answer, playing⟩
  | microphoneTick at_ =>
      refine ⟨?_, playing⟩
      rintro _ ⟨⟩
      trivial
  | microphoneSend at_ there _ =>
      refine ⟨?_, playing⟩
      rintro _ ⟨⟩
      exact (Exchange.served_send _ there).attended
  | @microphoneReceive i result at_ sent =>
      refine ⟨fun call calling => ?_, playing⟩
      cases result with
      | ok raw => cases calling
      | error message => cases calling
  | microphoneAdopt result at_ =>
      refine ⟨fun call calling => ?_, playing⟩
      cases result with
      | ok done => cases calling
      | error message => cases calling
  | microphoneLeave | microphoneSendFails | microphoneReceiveFails | microphoneForward
  | microphoneForwardFails => exact ⟨by rintro _ ⟨⟩, playing⟩
  | playbackTick at_ _ =>
      refine ⟨capturing, ?_⟩
      rintro _ _ _ ⟨⟩
      trivial
  | playbackSend at_ there _ =>
      refine ⟨capturing, ?_⟩
      rintro _ _ _ ⟨⟩
      exact (Exchange.served_send _ there).attended
  | playbackLeave | playbackGoOn | playbackBarge | playbackPanics | playbackNoBarge
  | playbackCommand | playbackNoCommand | playbackFinish | playbackNoTick | playbackSendFails
  | playbackReceive | playbackReceiveFails | playbackMirror | playbackMirrorFails =>
      exact ⟨capturing, by rintro _ _ _ ⟨⟩⟩
  | _ => exact ⟨capturing, playing⟩

/-- A proxy that is there has a step once the flag is set. -/
theorem proxy_enabled (speaking : AudioFrame Samples → Option (EchoReference Pcm) → Bool)
    (shutdown : w.shutdown = true) (there : w.proxy.result = none) :
    ∃ event w', Step speaking w event w' := by
  cases at_ : w.proxy with
  | atShutdown => exact ⟨_, _, .proxyLeave at_ shutdown⟩
  | atPlayback =>
      by_cases empty : w.playbacks.inbox = []
      · exact ⟨_, _, .proxyNoPlay at_ empty⟩
      · exact ⟨_, _, .proxyPlay ⟨0, 0⟩ at_ empty⟩
  | atCapture =>
      by_cases empty : w.captures.inbox = []
      · exact ⟨_, _, .proxyNoCapture at_ empty⟩
      · exact ⟨_, _, .proxyCapture (.error "") at_ empty⟩
  | ended result =>
      rw [at_] at there
      cases there

theorem vad_enabled (speaking : AudioFrame Samples → Option (EchoReference Pcm) → Bool)
    (shutdown : w.shutdown = true) (there : w.vad.result = none) :
    ∃ event w', Step speaking w event w' := by
  cases at_ : w.vad with
  | atShutdown latestEcho speechActive => exact ⟨_, _, .vadLeave at_ shutdown⟩
  | atEcho latestEcho speechActive =>
      cases echoes : w.echoes with
      | nil => exact ⟨_, _, .vadNoEcho at_ echoes⟩
      | cons echo rest => exact ⟨_, _, .vadEcho at_ echoes⟩
  | atMicrophone latestEcho speechActive =>
      cases frames : w.frames with
      | nil => exact ⟨_, _, .vadNoFrame at_ frames⟩
      | cons frame rest => exact ⟨_, _, .vadFrame at_ frames⟩
  | ended result =>
      rw [at_] at there
      cases there

/-- With the proxy and the detector gone, nothing holds up the microphone. -/
theorem microphone_enabled (speaking : AudioFrame Samples → Option (EchoReference Pcm) → Bool)
    (attending : Attending w) (shutdown : w.shutdown = true) (proxy : w.proxy.result ≠ none)
    (vad : w.vad.result ≠ none) (there : w.microphone.result = none) :
    ∃ event w', Step speaking w event w' := by
  cases at_ : w.microphone with
  | selecting => exact ⟨_, _, .microphoneLeave at_ shutdown⟩
  | calling call =>
      cases call with
      | sending request => exact ⟨_, _, .microphoneSendFails at_ proxy⟩
      | awaiting i =>
          rcases attending.capturing _ at_ with ⟨result, sent⟩ | dropped | ⟨-, waits⟩
          · exact ⟨_, _, .microphoneReceive at_ sent⟩
          · exact ⟨_, _, .microphoneReceiveFails at_ dropped⟩
          · exact absurd waits proxy
  | adopting raw => exact ⟨_, _, .microphoneAdopt (.ok ()) at_⟩
  | forwarding frame => exact ⟨_, _, .microphoneForwardFails at_ vad⟩
  | ended result =>
      rw [at_] at there
      cases there

theorem playback_enabled (speaking : AudioFrame Samples → Option (EchoReference Pcm) → Bool)
    (attending : Attending w) (shutdown : w.shutdown = true) (proxy : w.proxy.result ≠ none)
    (vad : w.vad.result ≠ none) (there : w.playback.result = none) :
    ∃ event w', Step speaking w event w' := by
  cases at_ : w.playback with
  | atShutdown speech => exact ⟨_, _, .playbackLeave at_ shutdown⟩
  | atBarge speech =>
      cases barges : w.barges with
      | nil => exact ⟨_, _, .playbackNoBarge at_ barges⟩
      | cons interrupt rest => exact ⟨_, _, .playbackBarge at_ barges⟩
  | atCommand speech =>
      cases commands : w.commands with
      | nil => exact ⟨_, _, .playbackNoCommand at_ commands⟩
      | cons command rest => exact ⟨_, _, .playbackCommand at_ commands⟩
  | atTick speech => exact ⟨_, _, .playbackNoTick at_⟩
  | calling speech pcm call =>
      cases call with
      | sending request => exact ⟨_, _, .playbackSendFails at_ proxy⟩
      | awaiting i =>
          rcases attending.playing _ _ _ at_ with ⟨receipt, sent⟩ | dropped | ⟨-, waits⟩
          · exact ⟨_, _, .playbackReceive at_ sent⟩
          · exact ⟨_, _, .playbackReceiveFails at_ dropped⟩
          · exact absurd waits proxy
  | mirroring speech echo => exact ⟨_, _, .playbackMirrorFails at_ vad⟩
  | ended result =>
      rw [at_] at there
      cases there

/-- As long as a task is there, something can be done. -/
theorem Attending.enabled (speaking : AudioFrame Samples → Option (EchoReference Pcm) → Bool)
    (attending : Attending w) (shutdown : w.shutdown = true) (actor : Actor)
    (there : w.result actor = none) : ∃ event w', Step speaking w event w' := by
  by_cases proxy : w.proxy.result = none
  · exact proxy_enabled speaking shutdown proxy
  by_cases vad : w.vad.result = none
  · exact vad_enabled speaking shutdown vad
  cases actor with
  | proxy => exact absurd there proxy
  | vad => exact absurd there vad
  | microphone => exact microphone_enabled speaking attending shutdown proxy vad there
  | playback => exact playback_enabled speaking attending shutdown proxy vad there

/-! ### What `main` returns -/

/-- A task that has ended stays as it is. -/
theorem Step.result (step : Step speaking w event w') {actor : Actor} {result : Result Unit}
    (ended : w.result actor = some result) : w'.result actor = some result := by
  cases step with
  | proxyLeave at_ _ | proxyGoOn at_ _ | proxyPlay _ at_ _ | proxyNoPlay at_ _
  | proxyCapture _ at_ _ | proxyNoCapture at_ _ =>
      cases actor with
      | proxy =>
          rw [World.result, at_] at ended
          cases ended
      | _ => exact ended
  | microphoneLeave at_ _ | microphoneTick at_ | microphoneSend at_ _ _
  | microphoneSendFails at_ _ | microphoneReceive at_ _ | microphoneReceiveFails at_ _
  | microphoneAdopt _ at_ | microphoneForward at_ _ _ | microphoneForwardFails at_ _ =>
      cases actor with
      | microphone =>
          rw [World.result, at_] at ended
          cases ended
      | _ => exact ended
  | vadLeave at_ _ | vadGoOn at_ _ | vadEcho at_ _ | vadNoEcho at_ _ | vadFrame at_ _
  | vadPanics at_ _ _ | vadNoFrame at_ _ =>
      cases actor with
      | vad =>
          rw [World.result, at_] at ended
          cases ended
      | _ => exact ended
  | playbackLeave at_ _ | playbackGoOn at_ _ | playbackBarge at_ _ | playbackPanics at_ _ _
  | playbackNoBarge at_ _ | playbackCommand at_ _ | playbackNoCommand at_ _ | playbackTick at_ _
  | playbackFinish at_ _ | playbackNoTick at_ | playbackSend at_ _ _ | playbackSendFails at_ _
  | playbackReceive at_ _ | playbackReceiveFails at_ _ | playbackMirror at_ _ _
  | playbackMirrorFails at_ _ =>
      cases actor with
      | playback =>
          rw [World.result, at_] at ended
          cases ended
      | _ => exact ended
  | _ =>
      cases actor with
      | _ => exact ended

/-- The playback polls and has nothing to play. -/
def Playback.Idle : Playback Pcm → Prop
  | .atShutdown speech | .atBarge speech | .atCommand speech | .atTick speech =>
      speech.current = none
  | _ => False

/-- What `main` makes of the tasks: the first error in the order in which it joins
them, if there is one. -/
def World.Verdict (w : World Pcm Samples) : Result Unit → Prop
  | .ok () => ∀ actor, w.result actor = some (.ok ())
  | .error message => ∃ before actor after, Actor.all = before ++ actor :: after ∧
      w.result actor = some (.error message) ∧
      ∀ earlier ∈ before, w.result earlier = some (.ok ())

/-- `main` has ended. -/
def Main.Over : Main → Prop
  | .returned _ | .quit _ => True
  | .starting | .running | .joining _ => False

/-- `main` against the tasks. -/
structure Joining (w : World Pcm Samples) : Prop where
  starting : w.main = .starting → w.shutdown = false ∧ w.commands = [] ∧ w.playback.Idle
  running : w.main = .running → w.shutdown = false
  joining : ∀ joined, w.main = .joining joined → w.shutdown = true ∧
    ∀ actor ∈ Actor.all.take joined, w.result actor = some (.ok ())
  returned : ∀ result, w.main = .returned result → w.shutdown = true ∧ w.Verdict result

theorem joining_quit {reason : Early} (quit : w.main = .quit reason) : Joining w := by
  constructor
  · intro at_
    cases quit.symm.trans at_
  · intro at_
    cases quit.symm.trans at_
  · intro joined at_
    cases quit.symm.trans at_
  · intro result at_
    cases quit.symm.trans at_

theorem joining_initial : Joining (World.initial : World Pcm Samples) :=
  ⟨fun _ => ⟨rfl, rfl, rfl⟩, by rintro ⟨⟩, by rintro _ ⟨⟩, by rintro _ ⟨⟩⟩

theorem World.Verdict.mono {result : Result Unit} (verdict : w.Verdict result)
    (keeps : ∀ actor result, w.result actor = some result → w'.result actor = some result) :
    w'.Verdict result := by
  cases result with
  | ok done => exact fun actor => keeps _ _ (verdict actor)
  | error message =>
      obtain ⟨before, actor, after, order, failed, earlier⟩ := verdict
      exact ⟨before, actor, after, order, keeps _ _ failed,
        fun actor mem => keeps _ _ (earlier actor mem)⟩

/-- A step of a task, as far as `main` is concerned. -/
theorem Joining.of_keeps (joining : Joining w) (main : w'.main = w.main)
    (shutdown : w'.shutdown = w.shutdown)
    (keeps : ∀ actor result, w.result actor = some result → w'.result actor = some result)
    (idle : w.shutdown = false → w.commands = [] → w.playback.Idle →
      w'.commands = [] ∧ w'.playback.Idle) : Joining w' := by
  constructor
  · intro starting
    obtain ⟨running, commands, playback⟩ := joining.starting (main ▸ starting)
    exact ⟨shutdown.trans running, idle running commands playback⟩
  · intro running
    exact shutdown.trans (joining.running (main ▸ running))
  · intro joined at_
    obtain ⟨closing, earlier⟩ := joining.joining joined (main ▸ at_)
    exact ⟨shutdown.trans closing, fun actor mem => keeps _ _ (earlier actor mem)⟩
  · intro result at_
    obtain ⟨closing, verdict⟩ := joining.returned result (main ▸ at_)
    exact ⟨shutdown.trans closing, verdict.mono keeps⟩

theorem Playback.Idle.there {playback : Playback Pcm} (idle : playback.Idle) :
    playback.result = none := by
  cases playback with
  | calling => cases idle
  | mirroring => cases idle
  | ended => cases idle
  | _ => rfl

theorem Joining.step (joining : Joining w) (step : Step speaking w event w') : Joining w' := by
  have keeps : ∀ actor result, w.result actor = some result → w'.result actor = some result :=
    fun actor result => step.result
  cases step with
  | playbackLeave at_ closing =>
      refine joining.of_keeps rfl rfl keeps fun running => ?_
      cases running.symm.trans closing
  | playbackCommand at_ next =>
      refine joining.of_keeps rfl rfl keeps fun _ empty => ?_
      cases empty.symm.trans next
  | playbackPanics at_ _ left | playbackTick at_ left =>
      refine joining.of_keeps rfl rfl keeps fun _ _ idle => ?_
      rw [at_] at idle
      cases idle.symm.trans left
  | playbackSend at_ _ _ | playbackSendFails at_ _ | playbackReceive at_ _
  | playbackReceiveFails at_ _ | playbackMirror at_ _ _ | playbackMirrorFails at_ _ =>
      refine joining.of_keeps rfl rfl keeps fun _ _ idle => ?_
      rw [at_] at idle
      cases idle
  | playbackBarge at_ _ | playbackFinish at_ _ =>
      exact joining.of_keeps rfl rfl keeps fun _ empty _ => ⟨empty, rfl⟩
  | playbackGoOn at_ _ | playbackNoBarge at_ _ | playbackNoCommand at_ _ | playbackNoTick at_ =>
      refine joining.of_keeps rfl rfl keeps fun _ empty idle => ⟨empty, ?_⟩
      rw [at_] at idle
      exact idle
  | mainStart command at_ _ _ =>
      exact ⟨by rintro ⟨⟩, fun _ => (joining.starting at_).1, by rintro _ ⟨⟩, by rintro _ ⟨⟩⟩
  | mainStartFails at_ ended => exact absurd (joining.starting at_).2.2.there ended
  | mainQuit reason at_ => exact joining_quit rfl
  | mainShutdown at_ =>
      refine ⟨by rintro ⟨⟩, by rintro ⟨⟩, ?_, by rintro _ ⟨⟩⟩
      rintro _ ⟨⟩
      exact ⟨rfl, by rintro _ ⟨⟩⟩
  | @mainJoin joined actor at_ next ended =>
      refine ⟨by rintro ⟨⟩, by rintro ⟨⟩, ?_, by rintro _ ⟨⟩⟩
      rintro _ ⟨⟩
      obtain ⟨closing, earlier⟩ := joining.joining joined at_
      refine ⟨closing, fun other mem => ?_⟩
      rw [List.take_add_one, next] at mem
      rcases List.mem_append.mp mem with before | last
      · exact earlier other before
      · exact (List.mem_singleton.mp last) ▸ ended
  | @mainJoinFails joined actor message at_ next failed =>
      refine ⟨by rintro ⟨⟩, by rintro ⟨⟩, by rintro _ ⟨⟩, ?_⟩
      rintro _ ⟨⟩
      obtain ⟨closing, earlier⟩ := joining.joining joined at_
      refine ⟨closing, Actor.all.take joined, actor, Actor.all.drop (joined + 1), ?_, failed,
        earlier⟩
      obtain ⟨inside, same⟩ := List.getElem?_eq_some_iff.mp next
      rw [← same, List.getElem_cons_drop, List.take_append_drop]
  | @mainReturn joined at_ past =>
      refine ⟨by rintro ⟨⟩, by rintro ⟨⟩, by rintro _ ⟨⟩, ?_⟩
      rintro _ ⟨⟩
      obtain ⟨closing, earlier⟩ := joining.joining joined at_
      refine ⟨closing, fun actor => earlier actor ?_⟩
      rw [List.take_of_length_le (List.getElem?_eq_none_iff.mp past)]
      cases actor with
      | _ => decide
  | _ => exact joining.of_keeps rfl rfl keeps fun _ empty idle => ⟨empty, idle⟩

/-- `main` can go on once the task it waits for has ended. -/
theorem Joining.enabled (speaking : AudioFrame Samples → Option (EchoReference Pcm) → Bool)
    (joining : Joining w) (attending : Attending w) (shutdown : w.shutdown = true)
    (there : ¬ w.main.Over) : ∃ event w', Step speaking w event w' := by
  cases at_ : w.main with
  | starting => cases (joining.starting at_).1.symm.trans shutdown
  | running => cases (joining.running at_).symm.trans shutdown
  | joining joined =>
      cases next : Actor.all[joined]? with
      | none => exact ⟨_, _, .mainReturn at_ next⟩
      | some actor =>
          cases ended : w.result actor with
          | none => exact attending.enabled speaking shutdown actor ended
          | some result =>
              cases result with
              | ok done => exact ⟨_, _, .mainJoin at_ next ended⟩
              | error message => exact ⟨_, _, .mainJoinFails at_ next ended⟩
  | returned result | quit reason =>
      rw [at_] at there
      exact absurd trivial there

theorem runs_keep (run : Runs (Step speaking) w log w') (attending : Attending w)
    (joining : Joining w) : Attending w' ∧ Joining w' := by
  induction run with
  | nil => exact ⟨attending, joining⟩
  | cons step _ ih => exact ih (attending.step step) (joining.step step)

theorem Microphone.left_max (microphone : Microphone Samples)
    (captures : Exchange Unit (Result (AudioFrame Samples))) : microphone.left captures ≤ 6 := by
  unfold Microphone.left
  split
  · split <;> decide
  all_goals decide

theorem Playback.left_max (playback : Playback Pcm)
    (playbacks : Exchange (HardwarePlaybackRequest Pcm) PlaybackReceipt) :
    playback.left playbacks ≤ 5 := by
  unfold Playback.left
  split
  case h_5 => split <;> decide
  all_goals decide

theorem Joining.left_le (joining : Joining w) (shutdown : w.shutdown = true) : w.left ≤ 37 := by
  have proxy : w.proxy.left ≤ 3 := by
    cases w.proxy with
    | _ => simp only [Proxy.left, Nat.reduceLeDiff, Nat.le_refl, Nat.zero_le]
  have vad : w.vad.left ≤ 3 := by
    cases w.vad with
    | _ => simp only [Vad.left, Nat.reduceLeDiff, Nat.le_refl, Nat.zero_le]
  have main : w.main.left ≤ 5 := by
    cases at_ : w.main with
    | starting => cases (joining.starting at_).1.symm.trans shutdown
    | running => cases (joining.running at_).symm.trans shutdown
    | joining joined => exact Nat.succ_le_succ (Nat.sub_le _ _)
    | returned result => exact Nat.zero_le _
    | quit reason => exact Nat.zero_le _
  have microphone := w.microphone.left_max w.captures
  have playback := w.playback.left_max w.playbacks
  simp only [World.left]
  omega

/-- The shutdown comes to an end in every interleaving and with every answer of the
hardware: within 37 polls and channel operations, at each of which another one can be
done until `main` has ended. A `main` that does not end before it requests the shutdown
(`Early`) returns after it, `Ok` if every task did, or the first error in the order of
the joins. -/
theorem shutdown_ends (run : Runs (Step speaking) .initial log w) :
    (w.shutdown = true → ∀ more w', Runs (Step speaking) w more w' → more.length ≤ 37 ∧
      (w'.main.Over ∨ ∃ event w'', Step speaking w' event w'')) ∧
    ∀ result, w.main = .returned result → w.shutdown = true ∧ w.Verdict result := by
  obtain ⟨attending, joining⟩ := runs_keep run attending_initial joining_initial
  refine ⟨fun shutdown more w' after => ⟨?_, ?_⟩, joining.returned⟩
  · have spent := left_of_runs after shutdown
    have few := joining.left_le shutdown
    omega
  · obtain ⟨attending', joining'⟩ := runs_keep after attending joining
    have shutdown' := shutdown_of_runs after shutdown
    by_cases ended : w'.main.Over
    · exact .inl ended
    · exact .inr (joining'.enabled speaking attending' shutdown' ended)

/-- The shutdown is requested while a capture is under way, which then fails in the
hardware. -/
theorem shutdown_ends_failed_capture :
    ∃ (w : World Unit Unit) (log : List (Event Unit Unit)),
      Runs (Step fun _ _ => false) .initial log w ∧ w.shutdown = true ∧
      w.main = .returned (.error "capture failed") ∧ w.Verdict (.error "capture failed") := by
  have asked : Runs (Step fun _ _ => false) (.initial : World Unit Unit) _ _ :=
    .cons (.mainStart ⟨1, []⟩ rfl rfl (by decide)) <| .cons (.microphoneTick rfl) <|
    .cons (.microphoneSend rfl rfl (by decide)) <| .cons (.proxyGoOn rfl rfl) <|
    .cons (.proxyNoPlay rfl rfl) <| .cons (.mainShutdown rfl) .nil
  have ended := asked
    |>.snoc (.proxyCapture (.error "capture failed") rfl (by decide))
    |>.snoc (.microphoneReceive rfl rfl) |>.snoc (.proxyLeave rfl rfl)
    |>.snoc (.mainJoin rfl rfl rfl) |>.snoc (.mainJoinFails rfl rfl rfl)
  exact ⟨_, _, ended, rfl, rfl, ((shutdown_ends ended).2 _ rfl).2⟩

end Dorsche.Topshim.Actors
