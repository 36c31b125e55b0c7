import Dorsche.Topshim.Actors

/-!
The shutdown of the actor graph.

A task ends with an error exactly when the proxy goes while its call is open, or
when it begins a call after the proxy has gone. In every run without such a step
each task that ends, ends well (`Intact`), and so does `main`; a run with one
can be continued until the task returns its error.
-/

namespace Dorsche.Topshim.Actors

open Dorsche.Lib

variable {Pcm Samples : Type} {w w' : World Pcm Samples} {event : Event Pcm Samples}
  {speaking : AudioFrame Samples → Option (EchoReference Pcm) → Bool}

/-- Every task that has ended returned `Ok`, and so did `main` if it came to join them. -/
def World.Clean (w : World Pcm Samples) : Prop :=
  (∀ actor result, w.result actor = some result → result = .ok ()) ∧
    ∀ result, w.main = .returned result → result = .ok ()

/-- Captures and fence waits do not fail, and the lines are taken. -/
def Event.Works : Event Pcm Samples → Prop
  | .captured result => ∃ frame, result = .ok frame
  | .adopted result => result = .ok ()
  | .panicked => False
  | _ => True

/-- The microphone waits for a reply that the proxy has not sent. -/
def World.Capturing (w : World Pcm Samples) : Prop :=
  ∃ call, w.microphone = .calling call ∧ w.captures.Open call

/-- So does the playback. -/
def World.Playing (w : World Pcm Samples) : Prop :=
  ∃ speech pcm call, w.playback = .calling speech pcm call ∧ w.playbacks.Open call

/-- The proxy goes only while no call is open, and no call begins after that. -/
def World.Orderly (w : World Pcm Samples) : Event Pcm Samples → Prop
  | .leave => ¬ w.Capturing ∧ ¬ w.Playing
  | .begin _ => w.proxy.result = none
  | _ => True

/-- Runs whose steps all meet a condition on the state before them. -/
inductive Reaches (speaking : AudioFrame Samples → Option (EchoReference Pcm) → Bool)
    (meets : World Pcm Samples → Event Pcm Samples → Prop) :
    World Pcm Samples → World Pcm Samples → Prop where
  | refl {w : World Pcm Samples} : Reaches speaking meets w w
  | step {w w' w'' : World Pcm Samples} {event : Event Pcm Samples} :
      Reaches speaking meets w w' → Step speaking w' event w'' → event.Works → meets w' event →
      Reaches speaking meets w w''

/-! ### The invariant -/

structure Intact (w : World Pcm Samples) : Prop where
  ended : ∀ actor result, w.result actor = some result → result = .ok () ∧ w.shutdown = true
  starting : w.main = .starting → w.shutdown = false
  returned : ∀ result, w.main = .returned result → result = .ok ()
  capturing : ∀ call, w.microphone = .calling call →
    w.captures.Served (w.proxy.result = none) call
  playing : ∀ speech pcm call, w.playback = .calling speech pcm call →
    w.playbacks.Served (w.proxy.result = none) call
  captured : ∀ (i : Nat) result, w.captures.replies[i]? = some (.sent result) →
    ∃ frame, result = .ok frame

theorem Intact.clean (intact : Intact w) : w.Clean :=
  ⟨fun actor result at_ => (intact.ended actor result at_).1, intact.returned⟩

theorem intact_initial : Intact (World.initial : World Pcm Samples) where
  ended actor result at_ := by cases actor <;> cases at_
  starting _ := rfl
  returned result at_ := by cases at_
  capturing call at_ := by cases at_
  playing speech pcm call at_ := by cases at_
  captured i result at_ := by cases at_

/-- A task that has ended says that shutdown was requested. -/
theorem Intact.shutdown_of_ended (intact : Intact w) (actor : Actor)
    (ended : w.result actor ≠ none) : w.shutdown = true := by
  obtain ⟨result, at_⟩ := Option.ne_none_iff_exists'.1 ended
  exact (intact.ended actor result at_).2

/-- The microphone moves. -/
theorem Intact.microphone (intact : Intact w) (microphone : Microphone Samples)
    (frames : List (AudioFrame Samples))
    (ended : ∀ result, microphone.result = some result → result = .ok () ∧ w.shutdown = true)
    (calling : ∀ call, microphone = .calling call →
      w.captures.Served (w.proxy.result = none) call) :
    Intact { w with microphone, frames } where
  ended actor result at_ := by
    cases actor with
    | microphone => exact ended result at_
    | proxy => exact intact.ended .proxy result at_
    | vad => exact intact.ended .vad result at_
    | playback => exact intact.ended .playback result at_
  starting := intact.starting
  returned := intact.returned
  capturing := calling
  playing := intact.playing
  captured := intact.captured

theorem Intact.vad (intact : Intact w) (vad : Vad Pcm) (frames : List (AudioFrame Samples))
    (echoes : List (EchoReference Pcm)) (barges : List BargeIn)
    (ended : ∀ result, vad.result = some result → result = .ok () ∧ w.shutdown = true) :
    Intact { w with vad, frames, echoes, barges } where
  ended actor result at_ := by
    cases actor with
    | vad => exact ended result at_
    | proxy => exact intact.ended .proxy result at_
    | microphone => exact intact.ended .microphone result at_
    | playback => exact intact.ended .playback result at_
  starting := intact.starting
  returned := intact.returned
  capturing := intact.capturing
  playing := intact.playing
  captured := intact.captured

theorem Intact.playback (intact : Intact w) (playback : Playback Pcm)
    (echoes : List (EchoReference Pcm)) (barges : List BargeIn)
    (commands : List (PlaybackCommand Pcm))
    (ended : ∀ result, playback.result = some result → result = .ok () ∧ w.shutdown = true)
    (calling : ∀ speech pcm call, playback = .calling speech pcm call →
      w.playbacks.Served (w.proxy.result = none) call) :
    Intact { w with playback, echoes, barges, commands } where
  ended actor result at_ := by
    cases actor with
    | playback => exact ended result at_
    | proxy => exact intact.ended .proxy result at_
    | microphone => exact intact.ended .microphone result at_
    | vad => exact intact.ended .vad result at_
  starting := intact.starting
  returned := intact.returned
  capturing := intact.capturing
  playing := calling
  captured := intact.captured

/-- The proxy polls a branch. -/
theorem Intact.proxy (intact : Intact w) (proxy : Proxy) (there : w.proxy.result = none)
    (stays : proxy.result = none) : Intact { w with proxy } where
  ended actor result at_ := by
    cases actor with
    | proxy => exact absurd (stays.symm.trans at_) (by simp)
    | microphone => exact intact.ended .microphone result at_
    | vad => exact intact.ended .vad result at_
    | playback => exact intact.ended .playback result at_
  starting := intact.starting
  returned := intact.returned
  capturing call at_ := by
    rw [show (proxy.result = none) = (w.proxy.result = none) by rw [stays, there]]
    exact intact.capturing call at_
  playing speech pcm call at_ := by
    rw [show (proxy.result = none) = (w.proxy.result = none) by rw [stays, there]]
    exact intact.playing speech pcm call at_
  captured := intact.captured

theorem Intact.answerCapture (intact : Intact w) (frame : AudioFrame Samples) :
    Intact { w with captures := w.captures.answer (.ok frame) } where
  ended actor result at_ := intact.ended actor result (by cases actor <;> exact at_)
  starting := intact.starting
  returned := intact.returned
  capturing call at_ := (intact.capturing call at_).answer
  playing := intact.playing
  captured i result at_ := (Exchange.sent_of_answer at_).elim (intact.captured i result)
    fun answered => ⟨frame, answered⟩

theorem Intact.answerPlayback (intact : Intact w) (receipt : PlaybackReceipt) :
    Intact { w with playbacks := w.playbacks.answer receipt } where
  ended actor result at_ := intact.ended actor result (by cases actor <;> exact at_)
  starting := intact.starting
  returned := intact.returned
  capturing := intact.capturing
  playing speech pcm call at_ := (intact.playing speech pcm call at_).answer
  captured := intact.captured

/-- The proxy goes while no call is open. -/
theorem Intact.leave (intact : Intact w) (shutdown : w.shutdown = true)
    (idle : ¬ w.Capturing) (silent : ¬ w.Playing) :
    Intact
      { w with
        proxy := .ended (.ok ())
        captures := w.captures.close
        playbacks := w.playbacks.close } where
  ended actor result at_ := by
    cases actor with
    | proxy =>
      cases at_
      exact ⟨rfl, shutdown⟩
    | microphone => exact intact.ended .microphone result at_
    | vad => exact intact.ended .vad result at_
    | playback => exact intact.ended .playback result at_
  starting := intact.starting
  returned := intact.returned
  capturing call at_ :=
    (intact.capturing call at_).close fun unanswered => idle ⟨call, at_, unanswered⟩
  playing speech pcm call at_ :=
    (intact.playing speech pcm call at_).close fun unanswered =>
      silent ⟨speech, pcm, call, at_, unanswered⟩
  captured i result at_ := intact.captured i result (Exchange.sent_of_close at_)

/-- The request of the microphone enters the inbox. -/
theorem Intact.sendCapture (intact : Intact w) (there : w.proxy.result = none) :
    Intact
      { w with
        microphone := .calling (.awaiting w.captures.replies.length)
        captures := w.captures.send () } where
  ended actor result at_ := by
    cases actor with
    | microphone => cases at_
    | proxy => exact intact.ended .proxy result at_
    | vad => exact intact.ended .vad result at_
    | playback => exact intact.ended .playback result at_
  starting := intact.starting
  returned := intact.returned
  capturing call at_ := by
    cases at_
    exact Exchange.served_send _ there
  playing := intact.playing
  captured i result at_ := intact.captured i result (Exchange.sent_of_send at_)

theorem Intact.sendPlayback (intact : Intact w) (there : w.proxy.result = none)
    (speech : Speech Pcm) (pcm : Pcm) (request : HardwarePlaybackRequest Pcm) :
    Intact
      { w with
        playback := .calling speech pcm (.awaiting w.playbacks.replies.length)
        playbacks := w.playbacks.send request } where
  ended actor result at_ := by
    cases actor with
    | playback => cases at_
    | proxy => exact intact.ended .proxy result at_
    | microphone => exact intact.ended .microphone result at_
    | vad => exact intact.ended .vad result at_
  starting := intact.starting
  returned := intact.returned
  capturing := intact.capturing
  playing speech pcm call at_ := by
    cases at_
    exact Exchange.served_send _ there
  captured := intact.captured

theorem Intact.main (intact : Intact w) (main : Main) (commands : List (PlaybackCommand Pcm))
    (starting : main ≠ .starting)
    (returned : ∀ result, main = .returned result → result = .ok ()) :
    Intact { w with main, commands } where
  ended actor result at_ := intact.ended actor result (by cases actor <;> exact at_)
  starting at_ := absurd at_ starting
  returned := returned
  capturing := intact.capturing
  playing := intact.playing
  captured := intact.captured

/-- `main` requests the shutdown, or is gone. -/
theorem Intact.shutdown (intact : Intact w) (main : Main) (starting : main ≠ .starting)
    (returned : ∀ result, main ≠ .returned result) :
    Intact { w with main, shutdown := true } where
  ended actor result at_ :=
    ⟨(intact.ended actor result (by cases actor <;> exact at_)).1, rfl⟩
  starting at_ := absurd at_ starting
  returned result at_ := absurd at_ (returned result)
  capturing := intact.capturing
  playing := intact.playing
  captured := intact.captured

theorem Intact.step (intact : Intact w) (step : Step speaking w event w') (works : event.Works)
    (orderly : w.Orderly event) : Intact w' := by
  cases step with
  | proxyLeave at_ shutdown => exact intact.leave shutdown orderly.1 orderly.2
  | proxyGoOn at_ => exact intact.proxy _ (by rw [at_]; rfl) rfl
  | proxyPlay receipt at_ =>
    exact (intact.answerPlayback receipt).proxy _ (by rw [at_]; rfl) rfl
  | proxyNoPlay at_ => exact intact.proxy _ (by rw [at_]; rfl) rfl
  | proxyCapture result at_ =>
    obtain ⟨frame, rfl⟩ := works
    exact (intact.answerCapture frame).proxy _ (by rw [at_]; rfl) rfl
  | proxyNoCapture at_ => exact intact.proxy _ (by rw [at_]; rfl) rfl
  | microphoneLeave at_ shutdown =>
    exact intact.microphone _ _ (by rintro _ ⟨⟩; exact ⟨rfl, shutdown⟩) (by rintro _ ⟨⟩)
  | microphoneTick at_ =>
    exact intact.microphone _ _ (by rintro _ ⟨⟩) (by rintro _ ⟨⟩; exact orderly)
  | microphoneSend at_ there => exact intact.sendCapture there
  | microphoneSendFails at_ gone =>
    -- the call is open, so the proxy is there
    exact absurd (intact.capturing _ at_) gone
  | @microphoneReceive i result at_ sent =>
    obtain ⟨frame, rfl⟩ := intact.captured i result sent
    exact intact.microphone _ _ (by rintro _ ⟨⟩) (by rintro _ ⟨⟩)
  | microphoneReceiveFails at_ dropped =>
    exact absurd dropped (intact.capturing _ at_).not_dropped
  | microphoneAdopt result at_ =>
    cases works
    exact intact.microphone _ _ (by rintro _ ⟨⟩) (by rintro _ ⟨⟩)
  | microphoneForward at_ =>
    exact intact.microphone _ _ (by rintro _ ⟨⟩) (by rintro _ ⟨⟩)
  | microphoneForwardFails at_ gone =>
    have shutdown := intact.shutdown_of_ended .vad gone
    exact intact.microphone _ _ (by rintro _ ⟨⟩; exact ⟨rfl, shutdown⟩) (by rintro _ ⟨⟩)
  | vadLeave at_ shutdown =>
    exact intact.vad _ _ _ _ (by rintro _ ⟨⟩; exact ⟨rfl, shutdown⟩)
  | vadGoOn | vadEcho | vadNoEcho | vadFrame | vadNoFrame =>
    exact intact.vad _ _ _ _ (by rintro _ ⟨⟩)
  | vadPanics | playbackPanics => cases works
  | playbackLeave at_ shutdown =>
    exact intact.playback _ _ _ _ (by rintro _ ⟨⟩; exact ⟨rfl, shutdown⟩) (by rintro _ _ _ ⟨⟩)
  | playbackTick at_ =>
    exact intact.playback _ _ _ _ (by rintro _ ⟨⟩) (by rintro _ _ _ ⟨⟩; exact orderly)
  | playbackSend at_ there => exact intact.sendPlayback there _ _ _
  | playbackSendFails at_ gone => exact absurd (intact.playing _ _ _ at_) gone
  | playbackReceiveFails at_ dropped =>
    exact absurd dropped (intact.playing _ _ _ at_).not_dropped
  | playbackMirrorFails at_ gone =>
    have shutdown := intact.shutdown_of_ended .vad gone
    exact intact.playback _ _ _ _ (by rintro _ ⟨⟩; exact ⟨rfl, shutdown⟩) (by rintro _ _ _ ⟨⟩)
  | playbackGoOn | playbackBarge | playbackNoBarge | playbackCommand | playbackNoCommand
  | playbackFinish | playbackNoTick | playbackReceive | playbackMirror =>
    exact intact.playback _ _ _ _ (by rintro _ ⟨⟩) (by rintro _ _ _ ⟨⟩)
  | mainStartFails at_ gone =>
    -- nobody has ended before `main` requests the shutdown
    have shutdown := intact.shutdown_of_ended .playback gone
    exact absurd (shutdown.symm.trans (intact.starting at_)) (by decide)
  | mainStart | mainJoin => exact intact.main _ _ (by rintro ⟨⟩) (by rintro _ ⟨⟩)
  | mainShutdown | mainQuit => exact intact.shutdown _ (by rintro ⟨⟩) (by rintro _ ⟨⟩)
  | @mainJoinFails _ actor message _ _ failed =>
    exact absurd (intact.ended actor _ failed).1 (by rintro ⟨⟩)
  | mainReturn => exact intact.main _ _ (by rintro ⟨⟩) (by rintro _ ⟨⟩; rfl)

theorem Reaches.intact (reached : Reaches speaking World.Orderly w w') (intact : Intact w) :
    Intact w' := by
  induction reached with
  | refl => exact intact
  | step _ step works orderly ih => exact ih.step step works orderly

/-! ### Open calls without a proxy -/

theorem not_clean_of_error (actor : Actor) {message : String}
    (failed : w.result actor = some (.error message)) : ¬ w.Clean := by
  rintro ⟨ended, -⟩
  cases ended actor _ failed

/-- The microphone returns an error once its call cannot be answered. -/
theorem microphone_fails {call : Exchange.Call Unit} (at_ : w.microphone = .calling call)
    (lost : (∃ request, call = .sending request) ∧ w.proxy.result ≠ none ∨
      ∃ i, call = .awaiting i ∧ w.captures.replies[i]? = some .dropped) :
    ∃ w', Step speaking w .other w' ∧ ¬ w'.Clean := by
  obtain ⟨⟨request, rfl⟩, gone⟩ | ⟨i, rfl, dropped⟩ := lost
  · exact ⟨_, .microphoneSendFails at_ gone, not_clean_of_error .microphone rfl⟩
  · exact ⟨_, .microphoneReceiveFails at_ dropped,
      not_clean_of_error .microphone rfl⟩

theorem playback_fails {speech : Speech Pcm} {pcm : Pcm}
    {call : Exchange.Call (HardwarePlaybackRequest Pcm)}
    (at_ : w.playback = .calling speech pcm call)
    (lost : (∃ request, call = .sending request) ∧ w.proxy.result ≠ none ∨
      ∃ i, call = .awaiting i ∧ w.playbacks.replies[i]? = some .dropped) :
    ∃ w', Step speaking w .other w' ∧ ¬ w'.Clean := by
  obtain ⟨⟨request, rfl⟩, gone⟩ | ⟨i, rfl, dropped⟩ := lost
  · exact ⟨_, .playbackSendFails at_ gone, not_clean_of_error .playback rfl⟩
  · exact ⟨_, .playbackReceiveFails at_ dropped, not_clean_of_error .playback rfl⟩

/-- An open call is lost when the server closes. -/
theorem lost_of_close {Q A : Type} {x : Exchange Q A} {server gone : Prop}
    {call : Exchange.Call Q} (served : x.Served server call) (unanswered : x.Open call)
    (left : gone) :
    (∃ request, call = .sending request) ∧ gone ∨
      ∃ i, call = .awaiting i ∧ x.close.replies[i]? = some .dropped := by
  cases call with
  | sending request => exact .inl ⟨⟨request, rfl⟩, left⟩
  | awaiting i => exact .inr ⟨i, rfl, served.dropped unanswered⟩

theorem Intact.disturbed (intact : Intact w) (step : Step speaking w event w')
    (disturbs : ¬ w.Orderly event) : ∃ w'', Step speaking w' .other w'' ∧ ¬ w''.Clean := by
  cases step with
  | proxyLeave at_ shutdown =>
    have gone : (Proxy.ended (.ok ())).result ≠ none := by rintro ⟨⟩
    rcases not_and_or.1 disturbs with capturing | playing
    · obtain ⟨call, calling, unanswered⟩ := not_not.1 capturing
      exact microphone_fails calling
        (lost_of_close (intact.capturing call calling) unanswered gone)
    · obtain ⟨speech, pcm, call, calling, unanswered⟩ := not_not.1 playing
      exact playback_fails calling
        (lost_of_close (intact.playing speech pcm call calling) unanswered gone)
  | microphoneTick at_ => exact microphone_fails rfl (.inl ⟨⟨_, rfl⟩, disturbs⟩)
  | playbackTick at_ => exact playback_fails rfl (.inl ⟨⟨_, rfl⟩, disturbs⟩)
  | _ => exact absurd trivial disturbs

/-- Shutdown is clean in every run in which the proxy goes only while no call is open
and no call begins afterwards, whenever the shutdown is requested. A step that
breaks this lets a task end with an error. -/
theorem shutdown_clean :
    (∀ w : World Pcm Samples, Reaches speaking World.Orderly .initial w → w.Clean) ∧
      ∀ (w w' : World Pcm Samples) (event : Event Pcm Samples),
        Reaches speaking World.Orderly .initial w → Step speaking w event w' →
        ¬ w.Orderly event → ∃ w'', Step speaking w' .other w'' ∧ ¬ w''.Clean := by
  constructor
  · intro w reached
    exact (reached.intact intact_initial).clean
  · intro w w' event reached step disturbs
    exact (reached.intact intact_initial).disturbed step disturbs

/-- A capture is delivered, then the shutdown is requested and every task ends. Had the
proxy left with the request in its inbox, the microphone could have ended with an
error. -/
theorem shutdown_clean_after_capture :
    (∃ w : World Unit Unit, w.main = .returned (.ok ()) ∧ w.Clean) ∧
      ∃ w : World Unit Unit, w.proxy = .ended (.ok ()) ∧
        ∃ w', Step (fun _ _ => false) w .other w' ∧ ¬ w'.Clean := by
  have asked := (Reaches.refl :
      Reaches (fun _ _ => false) World.Orderly (.initial : World Unit Unit) .initial)
    |>.step (.microphoneTick rfl) trivial rfl
    |>.step (.microphoneSend rfl rfl (by decide)) trivial trivial
    |>.step (.mainStart ⟨1, []⟩ rfl rfl (by decide)) trivial trivial
  constructor
  · have run := asked
      |>.step (.proxyGoOn rfl rfl) trivial trivial
      |>.step (.proxyNoPlay rfl rfl) trivial trivial
      |>.step (.proxyCapture (.ok ⟨0, 0, ()⟩) rfl (by decide)) ⟨_, rfl⟩ trivial
      |>.step (.microphoneReceive rfl rfl) trivial trivial
      |>.step (.microphoneAdopt (.ok ()) rfl) rfl trivial
      |>.step (.microphoneForward rfl rfl (by decide)) trivial trivial
      |>.step (.mainShutdown rfl) trivial trivial
      |>.step (.proxyLeave rfl rfl) trivial ⟨by rintro ⟨_, ⟨⟩, _⟩, by rintro ⟨_, _, _, ⟨⟩, _⟩⟩
      |>.step (.microphoneLeave rfl rfl) trivial trivial
      |>.step (.vadLeave rfl rfl) trivial trivial
      |>.step (.playbackLeave rfl rfl) trivial trivial
      |>.step (.mainJoin rfl rfl rfl) trivial trivial
      |>.step (.mainJoin rfl rfl rfl) trivial trivial
      |>.step (.mainJoin rfl rfl rfl) trivial trivial
      |>.step (.mainJoin rfl rfl rfl) trivial trivial
      |>.step (.mainReturn rfl rfl) trivial trivial
    exact ⟨_, rfl, shutdown_clean.1 _ run⟩
  · have requested := asked.step (.mainShutdown rfl) trivial trivial
    exact ⟨_, rfl, shutdown_clean.2 _ _ _ requested (.proxyLeave rfl rfl) fun orderly =>
      orderly.1 ⟨.awaiting 0, rfl, by rintro ⟨_, ⟨⟩⟩⟩⟩

/-- The microphone has asked for a capture when the shutdown is requested. The proxy
leaves before it answers, and `main` returns the microphone's error. -/
theorem shutdown_not_clean :
    ∃ w : World Unit Unit, Reaches (fun _ _ => false) (fun _ _ => True) .initial w ∧
      w.main = .returned (.error "controller dropped capture reply") := by
  have run := (Reaches.refl :
      Reaches (fun _ _ => false) (fun _ _ => True) (.initial : World Unit Unit) .initial)
    |>.step (.microphoneTick rfl) trivial trivial
    |>.step (.microphoneSend rfl rfl (by decide)) trivial trivial
    |>.step (.mainStart ⟨1, []⟩ rfl rfl (by decide)) trivial trivial
    |>.step (.mainShutdown rfl) trivial trivial
    |>.step (.proxyLeave rfl rfl) trivial trivial
    |>.step (.microphoneReceiveFails rfl rfl) trivial trivial
    |>.step (.mainJoin rfl rfl rfl) trivial trivial
    |>.step (.mainJoinFails rfl rfl rfl) trivial trivial
  exact ⟨_, run, rfl⟩

end Dorsche.Topshim.Actors
