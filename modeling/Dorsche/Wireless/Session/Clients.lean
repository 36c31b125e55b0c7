import Dorsche.Wireless.Session.Actor

/-!
Many clients of one session (`src/wireless/session.rs`).

A request goes through the command channel to the actor's task and comes back
through a oneshot channel; the task emits its events into a bounded channel of
its own. `Step` interleaves the clients, the task and the reader of the events
one channel operation at a time. So a request around `Close` can be unsent,
blocked on a full queue, queued, or in the hands of a task that is itself
blocked on a full event channel.

`accepted`, `taken` and `output` record what entered the command queue, what the
task took from it, and what left the task.
-/

namespace Dorsche.Wireless.Session

open Dorsche.Lib

/-- The bound of both channels. -/
def capacity : Nat := 16

/-- What a method of `SessionHandle` returns when it returns `Ok`. -/
inductive Value where
  | unit
  | position (position : PresentationPosition)
deriving DecidableEq, Repr

/-- The result of a method from the reply in its oneshot channel. -/
def Reply.value : Reply → Result Value
  | .done (.ok ()) => .ok .unit
  | .done (.error error) => .error error
  | .position current => .ok (.position current)
  | .closed => .ok .unit

/-- The error of a method whose reply sender was dropped. -/
def Command.dropped : Command → String
  | .configure _ => "session dropped configure response"
  | .start | .suspend | .stop => "session dropped command response"
  | .updatePosition _ | .getPosition => "session dropped position response"
  | .close => "session dropped close response"

/-- The reply channel of a request. -/
inductive Oneshot where
  | empty
  | sent (reply : Reply)
  | dropped

/-- How far a call of a handle method has come. -/
inductive Phase where
  | sending
  | awaiting
  | returned (result : Result Value)
  | cancelled

structure Request where
  command : Command
  phase : Phase
  oneshot : Oneshot

/-- The spawned task: receiving with the actor's variables; emitting the rest of
the events of a request before it replies; out of its loop; or finished, with
the command receiver dropped. -/
inductive Task where
  | receiving (actor : Actor)
  | emitting (actor : Actor) (request : Nat) (events : List SessionEvent) (reply : Reply)
      (closing : Bool)
  | leaving
  | finished

/-- A session with its clients. Requests are named by their position. -/
structure World where
  requests : List Request
  handles : Bool
  queue : List (Nat × Command)
  task : Task
  channel : List SessionEvent
  listening : Bool
  delivered : List SessionEvent
  accepted : List (Nat × Command)
  taken : List (Nat × Command)
  output : List (Output Nat)

/-- `spawn_session`. -/
def World.initial : World where
  requests := []
  handles := true
  queue := []
  task := .receiving .initial
  channel := []
  listening := true
  delivered := []
  accepted := []
  taken := []
  output := []

/-- Move a request to another phase. -/
def World.move (w : World) (i : Nat) (phase : Phase) : World :=
  { w with requests := w.requests.modify i fun request => { request with phase } }

/-- Put a reply into its oneshot channel, or drop the sender. -/
def World.resolve (w : World) (i : Nat) (oneshot : Oneshot) : World :=
  { w with requests := w.requests.modify i fun request => { request with oneshot } }

/-- Dropping the command receiver drops the queued commands with their senders. -/
def World.dropQueue (w : World) : World :=
  { w with
    queue := []
    requests := w.requests.mapIdx fun i request =>
      if i ∈ w.queue.map Prod.fst then { request with oneshot := .dropped } else request }

inductive Agent where
  | client
  | actor
  | reader
deriving DecidableEq, Repr

/-- One channel operation of one agent. -/
inductive Step (sessionType : SessionType) : World → Agent → World → Prop where
  /-- A handle method is called. -/
  | call {w : World} (command : Command) : w.handles = true →
      Step sessionType w .client { w with requests := w.requests ++ [⟨command, .sending, .empty⟩] }
  /-- The command channel has room. -/
  | send {w : World} {i : Nat} {request : Request} : w.requests[i]? = some request →
      request.phase = .sending → w.task ≠ .finished → w.queue.length < capacity →
      Step sessionType w .client
        { w.move i .awaiting with
          queue := w.queue ++ [(i, request.command)]
          accepted := w.accepted ++ [(i, request.command)] }
  /-- The command receiver is gone. -/
  | sendFails {w : World} {i : Nat} {request : Request} : w.requests[i]? = some request →
      request.phase = .sending → w.task = .finished →
      Step sessionType w .client
        (w.move i (.returned (.error "wireless audio session stopped")))
  | receive {w : World} {i : Nat} {request : Request} {reply : Reply} :
      w.requests[i]? = some request → request.phase = .awaiting → request.oneshot = .sent reply →
      Step sessionType w .client (w.move i (.returned reply.value))
  | receiveFails {w : World} {i : Nat} {request : Request} :
      w.requests[i]? = some request → request.phase = .awaiting → request.oneshot = .dropped →
      Step sessionType w .client (w.move i (.returned (.error request.command.dropped)))
  /-- The future of a method is dropped before it returns. -/
  | cancel {w : World} {i : Nat} {request : Request} : w.requests[i]? = some request →
      request.phase = .sending ∨ request.phase = .awaiting →
      Step sessionType w .client (w.move i .cancelled)
  /-- The last handle is dropped; a method under way borrows one. -/
  | dropHandles {w : World} :
      (∀ request ∈ w.requests, request.phase ≠ .sending ∧ request.phase ≠ .awaiting) →
      Step sessionType w .client { w with handles := false }
  | take {w : World} {actor : Actor} {i : Nat} {command : Command} {rest : List (Nat × Command)} :
      w.task = .receiving actor → w.queue = (i, command) :: rest →
      Step sessionType w .actor
        { w with
          task := .emitting (actor.process sessionType command).actor i
            (actor.process sessionType command).events
            (actor.process sessionType command).reply (command == .close)
          queue := rest
          taken := w.taken ++ [(i, command)] }
  /-- `recv` returns `None`. -/
  | hangUp {w : World} {actor : Actor} : w.task = .receiving actor → w.queue = [] →
      w.handles = false → Step sessionType w .actor { w with task := .leaving }
  | emit {w : World} {actor : Actor} {i : Nat} {event : SessionEvent}
      {events : List SessionEvent} {reply : Reply} {closing : Bool} :
      w.task = .emitting actor i (event :: events) reply closing → w.listening = true →
      w.channel.length < capacity →
      Step sessionType w .actor
        { w with
          task := .emitting actor i events reply closing
          channel := w.channel ++ [event]
          output := w.output ++ [.event event] }
  /-- The event receiver is gone: the task ends with an error and drops the reply
  sender. -/
  | emitFails {w : World} {actor : Actor} {i : Nat} {event : SessionEvent}
      {events : List SessionEvent} {reply : Reply} {closing : Bool} :
      w.task = .emitting actor i (event :: events) reply closing → w.listening = false →
      Step sessionType w .actor { w.resolve i .dropped with task := .leaving }
  | answer {w : World} {actor : Actor} {i : Nat} {reply : Reply} {closing : Bool} :
      w.task = .emitting actor i [] reply closing →
      Step sessionType w .actor
        { w.resolve i (.sent reply) with
          task := if closing then .leaving else .receiving actor
          output := w.output ++ [.reply i reply] }
  | leave {w : World} : w.task = .leaving →
      Step sessionType w .actor { w.dropQueue with task := .finished }
  | read {w : World} {event : SessionEvent} {rest : List SessionEvent} :
      w.listening = true → w.channel = event :: rest →
      Step sessionType w .reader
        { w with channel := rest, delivered := w.delivered ++ [event] }
  /-- The event receiver is dropped with what it has not read. -/
  | deafen {w : World} : Step sessionType w .reader { w with listening := false, channel := [] }

/-- A run, with the agents of its steps. -/
inductive Run (sessionType : SessionType) : World → List Agent → World → Prop where
  | nil {w : World} : Run sessionType w [] w
  | snoc {w w' w'' : World} {agents : List Agent} {agent : Agent} :
      Run sessionType w agents w' → Step sessionType w' agent w'' →
      Run sessionType w (agents ++ [agent]) w''

/-- The worlds a new session gets into. -/
def Reaches (sessionType : SessionType) (w : World) : Prop :=
  ∃ agents, Run sessionType .initial agents w

end Dorsche.Wireless.Session
