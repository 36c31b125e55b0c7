import Dorsche.Wireless.Types

/-!
The session actor (`src/wireless/session.rs`).

`process` is one turn of the actor's loop: what a command does to the actor's
three variables, the events it emits and its reply. Every handler checks before
it changes anything, and `handles` says once what a turn can do; the results
about whole command sequences are inductions over it. `serve` is the loop, which
ends with `Close`. A command carries its reply sender, here of any type.

`Invariant` ties the three variables together, and `replay` rebuilds them from
the events alone.
-/

namespace Dorsche.Wireless.Session

open Dorsche.Lib

inductive SessionState where
  | idle
  | configured
  | streaming
  | suspended
  | closed
deriving DecidableEq, Repr

/-- The `Debug` text of a state. -/
def SessionState.debug : SessionState → String
  | .idle => "Idle"
  | .configured => "Configured"
  | .streaming => "Streaming"
  | .suspended => "Suspended"
  | .closed => "Closed"

inductive SessionEvent where
  | stateChanged (state : SessionState)
  | configurationChanged (configuration : AudioConfiguration)
  | positionChanged (position : PresentationPosition)
deriving DecidableEq, Repr

/-- A command, without its reply sender. -/
inductive Command where
  | configure (configuration : AudioConfiguration)
  | start
  | suspend
  | stop
  | updatePosition (position : PresentationPosition)
  | getPosition
  | close
deriving DecidableEq, Repr

/-- What goes into a reply sender: `Result<()>`, a position, or `()` for `Close`. -/
inductive Reply where
  | done (result : Result Unit)
  | position (position : PresentationPosition)
  | closed

/-- The variables of the actor. -/
structure Actor where
  state : SessionState
  configuration : Option AudioConfiguration
  position : PresentationPosition
deriving DecidableEq, Repr

def Actor.initial : Actor := ⟨.idle, none, default⟩

/-- What one command does. -/
structure Handled where
  actor : Actor
  events : List SessionEvent
  reply : Reply

namespace Actor

/-- A handler whose checks come first: it changes the actor and emits events, or
does neither and replies with the error. -/
def attempt (self : Actor) (change : Result (Actor × List SessionEvent)) : Handled :=
  match change with
  | .ok (next, events) => ⟨next, events, .done (.ok ())⟩
  | .error error => ⟨self, [], .done (.error error)⟩

def configure (sessionType : SessionType) (self : Actor) (next : AudioConfiguration) : Handled :=
  self.attempt do
    ensure (self.state ∈ [.idle, .configured, .suspended])
      s!"cannot configure session in {self.state.debug}"
    next.validateFor sessionType
    return ({ self with configuration := some next, state := .configured },
      [.configurationChanged next, .stateChanged .configured])

def start (self : Actor) : Handled :=
  self.attempt do
    ensure (self.configuration.isSome) "session has no audio configuration"
    ensure (self.state ∈ [.configured, .suspended]) s!"cannot start session in {self.state.debug}"
    return ({ self with state := .streaming }, [.stateChanged .streaming])

def suspend (self : Actor) : Handled :=
  self.attempt do
    ensure (self.state = .streaming) s!"cannot suspend session in {self.state.debug}"
    return ({ self with state := .suspended }, [.stateChanged .suspended])

def stop (self : Actor) : Handled :=
  self.attempt do
    ensure (self.state ∉ [.idle, .closed]) s!"cannot stop session in {self.state.debug}"
    return (⟨.idle, none, default⟩, [.stateChanged .idle])

/-- The octet counter of an update: monotone if the host carries the payload, zero
otherwise. -/
def checkOctets (sessionType : SessionType) (self : Actor) (next : PresentationPosition) :
    Result Unit :=
  if sessionType.carriesHostPayload then
    ensure (self.position.transmittedOctets ≤ next.transmittedOctets)
      "transmitted octet counter moved backwards"
  else
    ensure (next.transmittedOctets = 0) "offload sessions must not report host transmitted octets"

def updatePosition (sessionType : SessionType) (self : Actor) (next : PresentationPosition) :
    Handled :=
  self.attempt do
    ensure (self.state = .streaming) "position update outside streaming state"
    ensure (self.position.monotonicTimeNs ≤ next.monotonicTimeNs)
      "presentation clock moved backwards"
    checkOctets sessionType self next
    return ({ self with position := next }, [.positionChanged next])

def close (self : Actor) : Handled :=
  ⟨{ self with state := .closed }, [.stateChanged .closed], .closed⟩

/-- One turn of the loop. -/
def process (sessionType : SessionType) (self : Actor) : Command → Handled
  | .configure configuration => self.configure sessionType configuration
  | .start => self.start
  | .suspend => self.suspend
  | .stop => self.stop
  | .updatePosition position => self.updatePosition sessionType position
  | .getPosition => ⟨self, [], .position self.position⟩
  | .close => self.close

end Actor

/-- What leaves the actor: events, and replies into their senders. -/
inductive Output (α : Type) where
  | event (event : SessionEvent)
  | reply (sender : α) (reply : Reply)

/-- The events among some outputs. -/
def eventsOf {α : Type} (outputs : List (Output α)) : List SessionEvent :=
  outputs.filterMap fun
    | .event event => some event
    | .reply _ _ => none

/-- The outputs of one turn: its events, then its reply. -/
def Handled.outputs {α : Type} (self : Handled) (sender : α) : List (Output α) :=
  self.events.map .event ++ [.reply sender self.reply]

/-- The actor's loop over the commands it receives, each with its reply sender. -/
def serve {α : Type} (sessionType : SessionType) :
    Actor → List (α × Command) → Actor × List (Output α)
  | actor, [] => (actor, [])
  | actor, (sender, command) :: rest =>
      let handled := actor.process sessionType command
      match command with
      | .close => (handled.actor, handled.outputs sender)
      | _ =>
          let (last, outputs) := serve sessionType handled.actor rest
          (last, handled.outputs sender ++ outputs)

/-! ### What a turn can do -/

/-- The effects of a command: refused without effect, or accepted under the
checks of its handler. -/
inductive Handles (sessionType : SessionType) (actor : Actor) : Command → Handled → Prop where
  | refused {command : Command} {error : String} :
      Handles sessionType actor command ⟨actor, [], .done (.error error)⟩
  | configure {next : AudioConfiguration} :
      actor.state ∈ [.idle, .configured, .suspended] → next.validateFor sessionType = .ok () →
      Handles sessionType actor (.configure next)
        ⟨{ actor with configuration := some next, state := .configured },
          [.configurationChanged next, .stateChanged .configured], .done (.ok ())⟩
  | start : actor.configuration.isSome → actor.state ∈ [.configured, .suspended] →
      Handles sessionType actor .start
        ⟨{ actor with state := .streaming }, [.stateChanged .streaming], .done (.ok ())⟩
  | suspend : actor.state = .streaming →
      Handles sessionType actor .suspend
        ⟨{ actor with state := .suspended }, [.stateChanged .suspended], .done (.ok ())⟩
  | stop : actor.state ∉ [.idle, .closed] →
      Handles sessionType actor .stop
        ⟨⟨.idle, none, default⟩, [.stateChanged .idle], .done (.ok ())⟩
  | updatePosition {next : PresentationPosition} : actor.state = .streaming →
      actor.position.monotonicTimeNs ≤ next.monotonicTimeNs →
      actor.checkOctets sessionType next = .ok () →
      Handles sessionType actor (.updatePosition next)
        ⟨{ actor with position := next }, [.positionChanged next], .done (.ok ())⟩
  | getPosition : Handles sessionType actor .getPosition ⟨actor, [], .position actor.position⟩
  | close : Handles sessionType actor .close
      ⟨{ actor with state := .closed }, [.stateChanged .closed], .closed⟩

section Turns

variable {sessionType : SessionType} {actor : Actor} {command : Command}

theorem handles_attempt {change : Result (Actor × List SessionEvent)}
    (accepted : ∀ next events, change = .ok (next, events) →
      Handles sessionType actor command ⟨next, events, .done (.ok ())⟩) :
    Handles sessionType actor command (actor.attempt change) := by
  cases change with
  | error error => exact .refused
  | ok out => exact accepted out.1 out.2 rfl

theorem handles (sessionType : SessionType) (actor : Actor) (command : Command) :
    Handles sessionType actor command (actor.process sessionType command) := by
  cases command with
  | configure configuration =>
      apply handles_attempt
      intro next events accepted
      simp only [bind_eq_ok, ensure_eq_ok] at accepted
      obtain ⟨_, ready, _, valid, same⟩ := accepted
      cases same
      exact .configure ready valid
  | start =>
      apply handles_attempt
      intro next events accepted
      simp only [bind_eq_ok, ensure_eq_ok] at accepted
      obtain ⟨_, configured, _, ready, same⟩ := accepted
      cases same
      exact .start configured ready
  | suspend =>
      apply handles_attempt
      intro next events accepted
      simp only [bind_eq_ok, ensure_eq_ok] at accepted
      obtain ⟨_, streaming, same⟩ := accepted
      cases same
      exact .suspend streaming
  | stop =>
      apply handles_attempt
      intro next events accepted
      simp only [bind_eq_ok, ensure_eq_ok] at accepted
      obtain ⟨_, running, same⟩ := accepted
      cases same
      exact .stop running
  | updatePosition position =>
      apply handles_attempt
      intro next events accepted
      simp only [bind_eq_ok, ensure_eq_ok] at accepted
      obtain ⟨_, streaming, _, clock, _, octets, same⟩ := accepted
      cases same
      exact .updatePosition streaming clock octets
  | getPosition => exact .getPosition
  | close => exact .close

end Turns

/-! ### The loop -/

section Loop

variable {α : Type} {sessionType : SessionType} {actor : Actor} {sender : α} {command : Command}
  {rest : List (α × Command)}

theorem serve_close :
    serve sessionType actor ((sender, .close) :: rest) =
      (actor.close.actor, actor.close.outputs sender) := rfl

theorem serve_cons (goesOn : command ≠ .close) :
    serve sessionType actor ((sender, command) :: rest) =
      ((serve sessionType (actor.process sessionType command).actor rest).1,
        (actor.process sessionType command).outputs sender ++
          (serve sessionType (actor.process sessionType command).actor rest).2) := by
  cases command with
  | close => exact absurd rfl goesOn
  | _ => rfl

@[simp] theorem eventsOf_append (outputs outputs' : List (Output α)) :
    eventsOf (outputs ++ outputs') = eventsOf outputs ++ eventsOf outputs' :=
  List.filterMap_append

@[simp] theorem eventsOf_outputs (handled : Handled) :
    eventsOf (handled.outputs sender) = handled.events := by
  simp [eventsOf, Handled.outputs, List.filterMap_map]

/-- More commands after some that do not close the session. -/
theorem serve_append {commands : List (α × Command)} (more : List (α × Command))
    (beforeClose : ∀ request ∈ commands, request.2 ≠ .close) :
    serve sessionType actor (commands ++ more) =
      ((serve sessionType (serve sessionType actor commands).1 more).1,
        (serve sessionType actor commands).2 ++
          (serve sessionType (serve sessionType actor commands).1 more).2) := by
  induction commands generalizing actor with
  | nil => rfl
  | cons head commands ih =>
      obtain ⟨goesOn, beforeClose⟩ := List.forall_mem_cons.mp beforeClose
      rw [List.cons_append, serve_cons goesOn, serve_cons goesOn, ih beforeClose,
        List.append_assoc]

/-- One more command after some that do not close the session. -/
theorem serve_snoc {commands : List (α × Command)}
    (beforeClose : ∀ request ∈ commands, request.2 ≠ .close) :
    serve sessionType actor (commands ++ [(sender, command)]) =
      (((serve sessionType actor commands).1.process sessionType command).actor,
        (serve sessionType actor commands).2 ++
          ((serve sessionType actor commands).1.process sessionType command).outputs sender) := by
  rw [serve_append _ beforeClose]
  by_cases closes : command = .close
  · subst closes
    rfl
  · rw [serve_cons closes]
    exact Prod.ext rfl (congrArg (_ ++ ·) (List.append_nil _))

/-- A property that every turn keeps holds when the loop stops. -/
theorem serve_induction {P : Actor → Prop} {commands : List (α × Command)}
    (step : ∀ actor command, (∃ sender, (sender, command) ∈ commands) → P actor →
      P (actor.process sessionType command).actor) (first : P actor) :
    P (serve sessionType actor commands).1 := by
  induction commands generalizing actor with
  | nil => exact first
  | cons head rest ih =>
      obtain ⟨sender, command⟩ := head
      have next := step actor command ⟨sender, List.mem_cons_self⟩ first
      by_cases closes : command = .close
      · subst closes
        exact next
      · rw [serve_cons closes]
        exact ih (fun actor command mem => step actor command
          (mem.imp fun _ => List.mem_cons_of_mem _)) next

end Loop

/-! ### The state invariant -/

section Invariant

variable {α : Type} {sessionType : SessionType} {actor : Actor} {command : Command}

/-- How the three variables belong together before `Close`. -/
structure Invariant (sessionType : SessionType) (actor : Actor) : Prop where
  configured : actor.configuration.isSome ↔ actor.state ∈ [.configured, .streaming, .suspended]
  valid : ∀ configuration, actor.configuration = some configuration →
    configuration.validateFor sessionType = .ok ()
  idle : actor.state = .idle → actor.position = default
  offloaded : sessionType.isOffloaded = true → actor.position.transmittedOctets = 0

theorem invariant_initial : Invariant sessionType .initial :=
  ⟨by decide, nofun, fun _ => rfl, fun _ => rfl⟩

/-- One turn keeps the invariant, except for `Close`. -/
theorem Invariant.process (inv : Invariant sessionType actor) (goesOn : command ≠ .close) :
    Invariant sessionType (actor.process sessionType command).actor := by
  have turn := handles sessionType actor command
  generalize actor.process sessionType command = handled at turn
  cases turn with
  | refused => exact inv
  | getPosition => exact inv
  | close => exact absurd rfl goesOn
  | configure ready valid =>
      refine ⟨by simp, ?_, nofun, inv.offloaded⟩
      rintro _ ⟨⟩
      exact valid
  | start configured ready =>
      exact ⟨by simp [configured], inv.valid, nofun, inv.offloaded⟩
  | suspend streaming =>
      have configured : actor.configuration.isSome := inv.configured.mpr (by simp [streaming])
      exact ⟨by simp [configured], inv.valid, nofun, inv.offloaded⟩
  | stop running => exact ⟨by simp, nofun, fun _ => rfl, fun _ => rfl⟩
  | updatePosition streaming clock octets =>
      refine ⟨inv.configured, inv.valid, fun idle => ?_, fun offloaded => ?_⟩
      · cases streaming.symm.trans idle
      · simpa [Actor.checkOctets, SessionType.carriesHostPayload, offloaded] using octets

/-- In every session and after every sequence of commands before `Close`: there is
a configuration exactly in the states that have one, it is valid for the
session, so an offloaded session holds no bare PCM configuration and a unicast
session no broadcast, an idle session is at the default position, and an
offloaded session has transmitted no octets. -/
theorem session_invariant (sessionType : SessionType) (commands : List (α × Command))
    (beforeClose : ∀ request ∈ commands, request.2 ≠ .close) :
    Invariant sessionType (serve sessionType .initial commands).1 ∧
      (sessionType.isOffloaded = true → ∀ pcm,
        (serve sessionType .initial commands).1.configuration ≠ some (.pcm pcm)) ∧
      (sessionType.isBroadcast = false → ∀ broadcast,
        (serve sessionType .initial commands).1.configuration ≠ some (.leBroadcast broadcast)) := by
  have inv : Invariant sessionType (serve sessionType .initial commands).1 := by
    apply serve_induction _ invariant_initial
    rintro actor command ⟨sender, mem⟩ inv
    exact inv.process (beforeClose _ mem)
  refine ⟨inv, fun offloaded pcm held => ?_, fun unicast broadcast held => ?_⟩
  · exact AudioConfiguration.not_pcm_of_offloaded offloaded (inv.valid _ held) pcm rfl
  · exact AudioConfiguration.not_leBroadcast_of_unicast unicast (inv.valid _ held) broadcast rfl

/-- 10 ms of 16-bit stereo at 48 kHz. -/
def stereo : AudioConfiguration := .pcm ⟨48000, 16, 2, 10000⟩

/-- A session that streams, suspends and is configured again while it holds a
position. -/
def reconfiguring : List (Nat × Command) :=
  [(0, .configure stereo), (1, .start), (2, .updatePosition ⟨20000000, 100, 10⟩),
    (3, .suspend), (4, .configure stereo)]

theorem session_invariant_reconfiguring :
    (serve .leUnicastSoftwareEncoding .initial reconfiguring).1.state = .configured ∧
      Invariant .leUnicastSoftwareEncoding
        (serve .leUnicastSoftwareEncoding .initial reconfiguring).1 :=
  ⟨by decide +kernel, (session_invariant _ reconfiguring (by decide)).1⟩

end Invariant

/-! ### Replay -/

section Replay

variable {α : Type} {sessionType : SessionType} {actor : Actor} {command : Command}

/-- What an observer of the events concludes from one of them. -/
def replayEvent (actor : Actor) : SessionEvent → Actor
  | .configurationChanged configuration => { actor with configuration := some configuration }
  | .positionChanged position => { actor with position }
  | .stateChanged .idle => ⟨.idle, none, default⟩
  | .stateChanged state => { actor with state }

/-- The actor's variables as an observer of the events knows them. -/
def replay (events : List SessionEvent) : Actor := events.foldl replayEvent .initial

/-- The events of one turn tell what it did. -/
theorem replay_process :
    (actor.process sessionType command).events.foldl replayEvent actor =
      (actor.process sessionType command).actor := by
  have turn := handles sessionType actor command
  generalize actor.process sessionType command = handled at turn
  cases turn with
  | refused => rfl
  | configure ready valid => rfl
  | start configured ready => rfl
  | suspend streaming => rfl
  | stop running => rfl
  | updatePosition streaming clock octets => rfl
  | getPosition => rfl
  | close => rfl

theorem replay_serve {commands : List (α × Command)} :
    (eventsOf (serve sessionType actor commands).2).foldl replayEvent actor =
      (serve sessionType actor commands).1 := by
  induction commands generalizing actor with
  | nil => rfl
  | cons head rest ih =>
      obtain ⟨sender, command⟩ := head
      by_cases closes : command = .close
      · subst closes
        rw [serve_close, eventsOf_outputs]
        rfl
      · rw [serve_cons closes, eventsOf_append, eventsOf_outputs, List.foldl_append,
          replay_process, ih]

/-- A refused command has no effect. -/
theorem process_refused {error : String}
    (refused : (actor.process sessionType command).reply = .done (.error error)) :
    (actor.process sessionType command).events = [] ∧
      (actor.process sessionType command).actor = actor := by
  have turn := handles sessionType actor command
  generalize actor.process sessionType command = handled at turn refused
  cases turn with
  | refused => exact ⟨rfl, rfl⟩
  | getPosition => exact ⟨rfl, rfl⟩
  | _ => cases refused

/-- After every sequence of commands the events emitted so far determine the
actor's variables. The next command, if the session is not closed, appends its
events and its reply; an error reply comes with no event and no change, and the
reply to `GetPosition` is the replayed position. -/
theorem events_determine_state (sessionType : SessionType) (commands : List (α × Command)) :
    replay (eventsOf (serve sessionType .initial commands).2) =
        (serve sessionType .initial commands).1 ∧
      ∀ sender command, (∀ request ∈ commands, request.2 ≠ .close) →
        ∃ handled : Handled,
          serve sessionType .initial (commands ++ [(sender, command)]) =
            (handled.actor,
              (serve sessionType .initial commands).2 ++ handled.outputs sender) ∧
          (∀ error, handled.reply = .done (.error error) →
            handled.events = [] ∧ handled.actor = (serve sessionType .initial commands).1) ∧
          (command = .getPosition → handled.reply =
            .position (replay (eventsOf (serve sessionType .initial commands).2)).position) := by
  refine ⟨replay_serve, fun sender command beforeClose => ?_⟩
  refine ⟨(serve sessionType .initial commands).1.process sessionType command, ?_, ?_, ?_⟩
  · exact serve_snoc beforeClose
  · intro error refused
    exact process_refused refused
  · rintro rfl
    rw [replay, replay_serve]
    rfl

theorem events_determine_state_reconfiguring :
    ∃ handled : Handled,
      serve .leUnicastSoftwareEncoding .initial (reconfiguring ++ [(5, .getPosition)]) =
        (handled.actor, (serve .leUnicastSoftwareEncoding .initial reconfiguring).2 ++
          handled.outputs 5) ∧
      handled.reply = .position ⟨20000000, 100, 10⟩ := by
  obtain ⟨handled, appended, -, position⟩ :=
    (events_determine_state .leUnicastSoftwareEncoding reconfiguring).2 5 .getPosition (by decide)
  refine ⟨handled, appended, (position rfl).trans (congrArg _ ?_)⟩
  decide +kernel

end Replay

end Dorsche.Wireless.Session
