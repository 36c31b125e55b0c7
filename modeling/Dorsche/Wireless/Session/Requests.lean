import Dorsche.Wireless.Session.Clients
import Mathlib.Data.List.Infix

/-!
Invariants of a session with many clients.

`Bookkeeping` relates the channels to the sequential loop `serve`: the task's
output, with what it still owes, is the output of `serve` on the commands taken.
What is said about `Close` follows from that equation, because `serve` ends
there. `Correspondence` relates each request to its oneshot channel, and
`Answered` the replies in those channels to the output.
-/

namespace Dorsche.Wireless.Session

open Dorsche.Lib

/-! ### The sequential loop up to `Close` -/

section Serve

variable {α : Type} {sessionType : SessionType} {actor : Actor} {commands more : List (α × Command)}

/-- The commands up to and including the first `Close`. -/
def uptoClose : List (α × Command) → List (α × Command)
  | [] => []
  | (sender, command) :: rest =>
      (sender, command) :: if command = .close then [] else uptoClose rest

theorem uptoClose_cons {sender : α} {command : Command} (goesOn : command ≠ .close) :
    uptoClose ((sender, command) :: commands) = (sender, command) :: uptoClose commands := by
  rw [uptoClose, if_neg goesOn]

theorem uptoClose_le : uptoClose commands <+: commands := by
  induction commands with
  | nil => exact List.prefix_rfl
  | cons head commands ih =>
      rw [uptoClose, List.prefix_cons_inj]
      split
      · exact List.nil_prefix
      · exact ih

theorem uptoClose_mono (sub : commands <+: more) : uptoClose commands <+: uptoClose more := by
  obtain ⟨rest, rfl⟩ := sub
  induction commands with
  | nil => exact List.nil_prefix
  | cons head commands ih =>
      rw [List.cons_append, uptoClose, uptoClose, List.prefix_cons_inj]
      split
      · exact List.prefix_rfl
      · exact ih

/-- Commands behind the first `Close` do not count. -/
theorem uptoClose_append {sender : α} (mem : (sender, .close) ∈ commands) :
    uptoClose (commands ++ more) = uptoClose commands := by
  induction commands with
  | nil => cases mem
  | cons head commands ih =>
      rw [List.cons_append, uptoClose, uptoClose]
      split
      · rfl
      · rename_i goesOn
        rcases List.mem_cons.mp mem with same | mem
        · exact absurd (congrArg Prod.snd same).symm goesOn
        · rw [ih mem]

/-- There is one `Close` up to the first one. -/
theorem close_unique {sender sender' : α} (mem : (sender, .close) ∈ uptoClose commands)
    (mem' : (sender', .close) ∈ uptoClose commands) : sender = sender' := by
  induction commands with
  | nil => cases mem
  | cons head commands ih =>
      obtain ⟨first, command⟩ := head
      by_cases closes : command = .close
      · subst closes
        rw [uptoClose, if_pos rfl, List.mem_singleton] at mem mem'
        exact congrArg Prod.fst (mem.trans mem'.symm)
      · have later {other : α} (mem : (other, .close) ∈ uptoClose ((first, command) :: commands)) :
            (other, .close) ∈ uptoClose commands := by
          rw [uptoClose_cons closes, List.mem_cons] at mem
          exact mem.resolve_left fun same => closes (congrArg Prod.snd same).symm
        exact ih (later mem) (later mem')

theorem serve_uptoClose : serve sessionType actor (uptoClose commands) =
    serve sessionType actor commands := by
  induction commands generalizing actor with
  | nil => rfl
  | cons head commands ih =>
      obtain ⟨sender, command⟩ := head
      by_cases closes : command = .close
      · subst closes
        rfl
      · rw [uptoClose_cons closes, serve_cons closes, serve_cons closes, ih]

/-- More commands append to the output. -/
theorem serve_outputs_mono (sub : commands <+: more) :
    (serve sessionType actor commands).2 <+: (serve sessionType actor more).2 := by
  obtain ⟨rest, rfl⟩ := sub
  induction commands generalizing actor with
  | nil => exact List.nil_prefix
  | cons head commands ih =>
      obtain ⟨sender, command⟩ := head
      by_cases closes : command = .close
      · subst closes
        exact List.prefix_rfl
      · rw [List.cons_append, serve_cons closes, serve_cons closes]
        exact (List.prefix_append_right_inj _).mpr ih

/-- A reply is the one to some command up to the first `Close`, in the state that
the commands before it leave. -/
theorem mem_of_reply {sender : α} {reply : Reply}
    (mem : .reply sender reply ∈ (serve sessionType actor commands).2) :
    ∃ before command, before ++ [(sender, command)] <+: uptoClose commands ∧
      reply = ((serve sessionType actor before).1.process sessionType command).reply := by
  induction commands generalizing actor with
  | nil => cases mem
  | cons head commands ih =>
      obtain ⟨sender', command⟩ := head
      have own (mem : .reply sender reply ∈ (actor.process sessionType command).outputs sender') :
          sender = sender' ∧ reply = (actor.process sessionType command).reply := by
        simp only [Handled.outputs, List.mem_append, List.mem_map, List.mem_singleton] at mem
        rcases mem with ⟨_, -, same⟩ | same
        · cases same
        · exact Output.reply.inj same
      have here (mem : .reply sender reply ∈ (actor.process sessionType command).outputs sender') :
          ∃ before other,
            before ++ [(sender, other)] <+: uptoClose ((sender', command) :: commands) ∧
            reply = ((serve sessionType actor before).1.process sessionType other).reply := by
        obtain ⟨rfl, same⟩ := own mem
        exact ⟨[], command, (List.prefix_cons_inj _).mpr List.nil_prefix, same⟩
      by_cases closes : command = .close
      · subst closes
        exact here mem
      · rw [serve_cons closes] at mem
        rcases List.mem_append.mp mem with mem | mem
        · exact here mem
        · obtain ⟨before, other, sub, same⟩ := ih mem
          refine ⟨(sender', command) :: before, other, ?_, ?_⟩
          · rw [uptoClose_cons closes]
            exact (List.prefix_cons_inj _).mpr sub
          · rwa [serve_cons closes]

theorem eventsOf_mono {output output' : List (Output α)} (sub : output <+: output') :
    eventsOf output <+: eventsOf output' := by
  obtain ⟨rest, rfl⟩ := sub
  rw [eventsOf_append]
  exact List.prefix_append _ _

/-- Only `Close` emits `StateChanged(Closed)`. -/
theorem closed_notMem {command : Command} (goesOn : command ≠ .close) :
    .stateChanged .closed ∉ (actor.process sessionType command).events := by
  have turn := handles sessionType actor command
  generalize actor.process sessionType command = handled at turn
  cases turn with
  | close => exact absurd rfl goesOn
  | _ => simp

/-- `StateChanged(Closed)` is the last event of the loop. -/
theorem closed_last {pre post : List SessionEvent}
    (occurs : eventsOf (serve sessionType actor commands).2 =
      pre ++ .stateChanged .closed :: post) : post = [] := by
  induction commands generalizing actor pre with
  | nil => simp [serve, eventsOf] at occurs
  | cons head commands ih =>
      obtain ⟨sender, command⟩ := head
      by_cases closes : command = .close
      · subst closes
        rw [serve_close, eventsOf_outputs] at occurs
        have short := congrArg List.length occurs
        simp only [Actor.close, List.length_append, List.length_cons, List.length_nil] at short
        exact List.eq_nil_of_length_eq_zero (by omega)
      · rw [serve_cons closes, eventsOf_append, eventsOf_outputs,
          List.append_eq_append_iff] at occurs
        rcases occurs with ⟨as, -, later⟩ | ⟨bs, here, later⟩
        · exact ih later
        · cases bs with
          | nil => exact ih (show _ = [] ++ _ from later.symm)
          | cons event bs =>
              cases later
              have mem := here ▸ List.mem_append_right pre List.mem_cons_self
              exact absurd mem (closed_notMem closes)

end Serve

/-! ### What the task owes -/

namespace Task

/-- The outputs of the current request that have not left the task. -/
def pending : Task → List (Output Nat)
  | .emitting _ i events reply _ => events.map .event ++ [.reply i reply]
  | _ => []

def actor? : Task → Option Actor
  | .receiving actor => some actor
  | .emitting actor _ _ _ _ => some actor
  | _ => none

/-- The request in the task's hands. -/
def serving : Task → Option Nat
  | .emitting _ i _ _ _ => some i
  | _ => none

/-- The loop has another turn. -/
def goesOn : Task → Bool
  | .receiving _ => true
  | .emitting _ _ _ _ closing => !closing
  | _ => false

end Task

/-- The channels and the task's variables against the sequential loop. -/
structure Bookkeeping (sessionType : SessionType) (w : World) : Prop where
  queued : w.taken ++ w.queue <+: w.accepted
  opened : w.task ≠ .finished → w.accepted = w.taken ++ w.queue
  drained : w.task = .finished → w.queue = []
  owed : w.output ++ w.task.pending = (serve sessionType .initial w.taken).2
  current : ∀ actor, w.task.actor? = some actor →
    actor = (serve sessionType .initial w.taken).1
  goesOn : w.task.goesOn = true → ∀ request ∈ w.taken, request.2 ≠ .close
  emitted : w.delivered ++ w.channel = eventsOf w.output

section Bookkeeping

variable {sessionType : SessionType} {w w' : World} {agent : Agent}

theorem bookkeeping_initial : Bookkeeping sessionType .initial :=
  ⟨List.prefix_rfl, fun _ => rfl, fun _ => rfl, rfl, fun _ same => (Option.some.inj same).symm,
    fun _ => List.forall_mem_nil _, rfl⟩

theorem Step.listening (step : Step sessionType w agent w') (listening : w'.listening = true) :
    w.listening = true := by
  cases step with
  | deafen => cases listening
  | _ => exact listening

/-- The books of a task that is out of its loop. -/
theorem Bookkeeping.of_left (gone : w.task.actor? = none) (left : w.task.goesOn = false)
    (queued : w.taken ++ w.queue <+: w.accepted)
    (opened : w.task ≠ .finished → w.accepted = w.taken ++ w.queue)
    (drained : w.task = .finished → w.queue = [])
    (owed : w.output ++ w.task.pending = (serve sessionType .initial w.taken).2)
    (emitted : w.delivered ++ w.channel = eventsOf w.output) : Bookkeeping sessionType w where
  queued := queued
  opened := opened
  drained := drained
  owed := owed
  current actor here := by
    rw [gone] at here
    cases here
  goesOn goes := by
    rw [left] at goes
    cases goes
  emitted := emitted

theorem Bookkeeping.step (books : Bookkeeping sessionType w)
    (step : Step sessionType w agent w') (listening : w'.listening = true) :
    Bookkeeping sessionType w' := by
  obtain ⟨queued, opened, drained, owed, current, goesOn, emitted⟩ := books
  cases step with
  | call command handles => exact ⟨queued, opened, drained, owed, current, goesOn, emitted⟩
  | sendFails at_ sending finished =>
      exact ⟨queued, opened, drained, owed, current, goesOn, emitted⟩
  | receive at_ awaiting sent =>
      exact ⟨queued, opened, drained, owed, current, goesOn, emitted⟩
  | receiveFails at_ awaiting dropped =>
      exact ⟨queued, opened, drained, owed, current, goesOn, emitted⟩
  | cancel at_ underWay => exact ⟨queued, opened, drained, owed, current, goesOn, emitted⟩
  | dropHandles idle => exact ⟨queued, opened, drained, owed, current, goesOn, emitted⟩
  | @send i request at_ sending running room =>
      have all : w.accepted ++ [(i, request.command)] =
          w.taken ++ (w.queue ++ [(i, request.command)]) := by
        rw [opened running, List.append_assoc]
      exact ⟨all ▸ List.prefix_rfl, fun _ => all, fun finished => absurd finished running, owed,
        current, goesOn, emitted⟩
  | @take actor i command rest receiving next =>
      rw [receiving] at owed current goesOn
      rw [next] at queued opened
      obtain rfl := current actor rfl
      have beforeClose := goesOn rfl
      refine ⟨?_, fun _ => ?_, by rintro ⟨⟩, ?_, ?_, ?_, emitted⟩
      · simpa using queued
      · simpa using opened (by simp [receiving])
      · rw [serve_snoc beforeClose, ← owed]
        simp [Task.pending, Handled.outputs]
      · rintro _ ⟨⟩
        rw [serve_snoc beforeClose]
      · intro closing
        have goesOn : command ≠ .close := by simpa [Task.goesOn] using closing
        exact List.forall_mem_append.mpr ⟨beforeClose, List.forall_mem_singleton.mpr goesOn⟩
  | hangUp receiving empty gone =>
      rw [receiving] at owed opened
      exact .of_left rfl rfl queued (fun _ => opened (by simp)) (by rintro ⟨⟩) owed emitted
  | emit emitting listening room =>
      rw [emitting] at owed current goesOn opened
      refine ⟨queued, fun _ => opened (by simp), by rintro ⟨⟩, ?_, current, goesOn, ?_⟩
      · simpa [Task.pending] using owed
      · rw [← List.append_assoc, emitted, eventsOf_append]
        rfl
  | emitFails emitting deaf => cases deaf.symm.trans listening
  | @answer actor i reply closing emitting =>
      rw [emitting] at owed current goesOn opened
      have owed : w.output ++ [.reply i reply] = (serve sessionType .initial w.taken).2 := owed
      have emitted : w.delivered ++ w.channel = eventsOf (w.output ++ [.reply i reply]) := by
        rw [emitted, eventsOf_append]
        exact (List.append_nil _).symm
      cases closing with
      | true =>
          exact .of_left rfl rfl queued (fun _ => opened (by simp)) (by rintro ⟨⟩)
            ((List.append_nil _).trans owed) emitted
      | false =>
          exact ⟨queued, fun _ => opened (by simp), by rintro ⟨⟩, (List.append_nil _).trans owed,
            current, goesOn, emitted⟩
  | leave leaving =>
      rw [leaving] at owed
      have kept : w.taken ++ [] <+: w.accepted := by
        rw [List.append_nil]
        exact (List.prefix_append _ _).trans queued
      exact .of_left rfl rfl kept (fun running => absurd rfl running) (fun _ => rfl) owed emitted
  | read listening next =>
      refine ⟨queued, opened, drained, owed, current, goesOn, ?_⟩
      rw [← emitted, next, List.append_assoc]
      rfl
  | deafen => cases listening

end Bookkeeping

/-! ### Requests and their oneshot channels -/

/-- The reply sender of a request is in the command queue or in the task's hands. -/
def World.Holds (w : World) (i : Nat) : Prop :=
  i ∈ w.queue.map Prod.fst ∨ w.task.serving = some i

/-- The phase of a request and its oneshot channel belong together. -/
structure Consistent (w : World) (i : Nat) (request : Request) : Prop where
  sending : request.phase = .sending → request.oneshot = .empty
  awaiting : request.phase = .awaiting → (i, request.command) ∈ w.accepted
  held : w.Holds i → request.oneshot = .empty
  waiting : (i, request.command) ∈ w.accepted → request.oneshot = .empty → w.Holds i
  returned : ∀ value, request.phase = .returned (.ok value) →
    ∃ reply, request.oneshot = .sent reply ∧ reply.value = .ok value

/-- The accepted commands are those of distinct requests. -/
structure Correspondence (w : World) : Prop where
  known : ∀ i command, (i, command) ∈ w.accepted →
    ∃ request, w.requests[i]? = some request ∧ request.command = command ∧
      request.phase ≠ .sending
  distinct : (w.accepted.map Prod.fst).Nodup
  serving : ∀ i, w.task.serving = some i → ∃ command, (i, command) ∈ w.taken
  each : ∀ i request, w.requests[i]? = some request → Consistent w i request

section Correspondence

variable {sessionType : SessionType} {w w' : World} {agent : Agent} {i j : Nat}
  {request : Request}

theorem correspondence_initial : Correspondence .initial := by
  refine ⟨fun i command mem => ?_, List.nodup_nil, fun i serving => ?_, fun i request at_ => ?_⟩
  · simp [World.initial] at mem
  · simp [World.initial, Task.serving] at serving
  · simp [World.initial] at at_

theorem get_modify {requests : List Request} {f : Request → Request}
    (at_ : (requests.modify i f)[j]? = some request) :
    ∃ before, requests[j]? = some before ∧ request = if i = j then f before else before := by
  rw [List.getElem?_modify] at at_
  obtain ⟨before, at_, same⟩ := Option.map_eq_some_iff.mp at_
  exact ⟨before, at_, same.symm⟩

theorem modify_get {requests : List Request} {f : Request → Request}
    (at_ : requests[i]? = some request) : (requests.modify i f)[i]? = some (f request) := by
  rw [List.getElem?_modify, at_, Option.map_eq_map, Option.map_some, if_pos rfl]

/-- A change of one request that keeps commands, and does not take them back. -/
theorem known_modify {requests : List Request} {f : Request → Request} {command : Command}
    (keeps : ∀ request, (f request).command = request.command)
    (sent : ∀ request, request.phase ≠ .sending → (f request).phase ≠ .sending)
    (known : ∃ request, requests[j]? = some request ∧ request.command = command ∧
      request.phase ≠ .sending) :
    ∃ request, (requests.modify i f)[j]? = some request ∧ request.command = command ∧
      request.phase ≠ .sending := by
  obtain ⟨before, was, same, moved⟩ := known
  by_cases here : i = j
  · subst here
    exact ⟨f before, modify_get was, (keeps before).trans same, sent before moved⟩
  · refine ⟨before, ?_, same, moved⟩
    rw [List.getElem?_modify_ne _ _ here, was]

/-- A world with the same requests and queue, whose task serves the same. -/
theorem Correspondence.congr (corr : Correspondence w) (requests : w'.requests = w.requests)
    (queue : w'.queue = w.queue) (serving : w'.task.serving = w.task.serving)
    (accepted : w'.accepted = w.accepted) (taken : w'.taken = w.taken) : Correspondence w' := by
  have holds (i : Nat) : w'.Holds i ↔ w.Holds i := by
    rw [World.Holds, queue, serving]
    rfl
  obtain ⟨known, distinct, serves, each⟩ := corr
  refine ⟨?_, ?_, ?_, ?_⟩
  · rwa [accepted, requests]
  · rwa [accepted]
  · rwa [serving, taken]
  · intro i request at_
    rw [requests] at at_
    obtain ⟨sending, awaiting, held, waiting, returned⟩ := each i request at_
    refine ⟨sending, ?_, ?_, ?_, returned⟩
    · rwa [accepted]
    · rwa [holds]
    · rwa [accepted, holds]

/-- A request leaves its method: not to wait again, and with `Ok` only for a reply. -/
theorem Correspondence.move (corr : Correspondence w) {phase : Phase}
    (at_ : w.requests[i]? = some request) (unsent : phase ≠ .sending)
    (settled : phase ≠ .awaiting)
    (returned : ∀ value, phase = .returned (.ok value) →
      ∃ reply, request.oneshot = .sent reply ∧ reply.value = .ok value) :
    Correspondence (w.move i phase) := by
  refine ⟨?_, corr.distinct, corr.serving, ?_⟩
  · intro j command mem
    exact known_modify (fun _ => rfl) (fun _ _ => unsent) (corr.known j command mem)
  · intro j after at'
    obtain ⟨before, was, rfl⟩ := get_modify at'
    obtain ⟨sending, awaiting, held, waiting, returnedBefore⟩ := corr.each j before was
    split
    · subst j
      cases at_.symm.trans was
      exact ⟨fun same => absurd same unsent, fun same => absurd same settled, held, waiting,
        returned⟩
    · exact ⟨sending, awaiting, held, waiting, returnedBefore⟩

theorem Correspondence.call (corr : Correspondence w) (command : Command) :
    Correspondence { w with requests := w.requests ++ [⟨command, .sending, .empty⟩] } := by
  refine ⟨?_, corr.distinct, corr.serving, ?_⟩
  · intro j command mem
    obtain ⟨request, was, same, moved⟩ := corr.known j command mem
    have inside := (List.getElem?_eq_some_iff.mp was).1
    exact ⟨request, (List.getElem?_append_left inside).trans was, same, moved⟩
  · intro j request at_
    rw [List.getElem?_append] at at_
    split at at_
    · obtain ⟨sending, awaiting, held, waiting, returned⟩ := corr.each j request at_
      exact ⟨sending, awaiting, held, waiting, returned⟩
    · rename_i beyond
      rw [List.getElem?_singleton] at at_
      split at at_
      · cases at_
        refine ⟨fun _ => rfl, nofun, fun _ => rfl, fun mem _ => ?_, nofun⟩
        obtain ⟨_, was, -⟩ := corr.known j _ mem
        exact absurd (List.getElem?_eq_some_iff.mp was).1 beyond
      · cases at_

/-- A command enters the queue. -/
theorem Correspondence.send (corr : Correspondence w) (at_ : w.requests[i]? = some request)
    (sending : request.phase = .sending) :
    Correspondence { w.move i .awaiting with
      queue := w.queue ++ [(i, request.command)]
      accepted := w.accepted ++ [(i, request.command)] } := by
  have fresh : i ∉ w.accepted.map Prod.fst := by
    intro mem
    obtain ⟨⟨_, command⟩, mem', rfl⟩ := List.mem_map.mp mem
    obtain ⟨other, was, -, moved⟩ := corr.known _ command mem'
    cases at_.symm.trans was
    exact moved sending
  refine ⟨?_, ?_, corr.serving, ?_⟩
  · intro j command mem
    rcases List.mem_append.mp mem with mem | mem
    · exact known_modify (fun _ => rfl) (fun _ _ => nofun) (corr.known j command mem)
    · cases List.mem_singleton.mp mem
      exact ⟨_, modify_get at_, rfl, nofun⟩
  · simpa [List.nodup_append] using ⟨corr.distinct, fun j _ mem same => fresh
      (same ▸ List.mem_map.mpr ⟨_, mem, rfl⟩)⟩
  · intro j after at'
    obtain ⟨before, was, rfl⟩ := get_modify at'
    obtain ⟨unsent, awaiting, held, waiting, returned⟩ := corr.each j before was
    split
    · subst j
      cases at_.symm.trans was
      refine ⟨nofun, fun _ => ?_, fun _ => unsent sending, fun _ _ => .inl ?_, nofun⟩
      · exact List.mem_append_right _ List.mem_cons_self
      · simp
    · rename_i ne
      have holds : World.Holds { w.move i .awaiting with
          queue := w.queue ++ [(i, request.command)]
          accepted := w.accepted ++ [(i, request.command)] } j ↔ w.Holds j := by
        simp [World.Holds, World.move, Ne.symm ne]
      refine ⟨unsent, fun same => List.mem_append_left _ (awaiting same), ?_, ?_, returned⟩
      · rwa [holds]
      · intro mem empty
        rw [holds]
        refine waiting ((List.mem_append.mp mem).resolve_right fun mem => ?_) empty
        exact ne (congrArg Prod.fst (List.mem_singleton.mp mem)).symm

/-- The task takes the first command. -/
theorem Correspondence.take (corr : Correspondence w) {actor actor' : Actor} {command : Command}
    {rest : List (Nat × Command)} {events : List SessionEvent} {reply : Reply} {closing : Bool}
    (receiving : w.task = .receiving actor) (next : w.queue = (i, command) :: rest) :
    Correspondence { w with
      task := .emitting actor' i events reply closing
      queue := rest
      taken := w.taken ++ [(i, command)] } := by
  have holds (j : Nat) : World.Holds { w with
      task := .emitting actor' i events reply closing
      queue := rest
      taken := w.taken ++ [(i, command)] } j ↔ w.Holds j := by
    simp only [World.Holds, next, receiving, Task.serving, List.map_cons, List.mem_cons,
      Option.some.injEq]
    tauto
  refine ⟨corr.known, corr.distinct, ?_, ?_⟩
  · rintro j ⟨⟩
    exact ⟨command, List.mem_append_right _ List.mem_cons_self⟩
  · intro j request at_
    obtain ⟨sending, awaiting, held, waiting, returned⟩ := corr.each j request at_
    refine ⟨sending, awaiting, ?_, ?_, returned⟩
    · rwa [holds]
    · rwa [holds]

/-- The task replies to the request in its hands. -/
theorem Correspondence.answer (corr : Correspondence w) {actor : Actor} {reply : Reply}
    {closing : Bool} {task : Task} {output : List (Output Nat)}
    (emitting : w.task = .emitting actor i [] reply closing) (idle : task.serving = none)
    (queued : w.taken ++ w.queue <+: w.accepted) :
    Correspondence { w.resolve i (.sent reply) with task, output } := by
  have serves : w.task.serving = some i := by rw [emitting]; rfl
  obtain ⟨command, taken⟩ := corr.serving i serves
  have unqueued : i ∉ w.queue.map Prod.fst := by
    have distinct := (queued.sublist.map Prod.fst).nodup corr.distinct
    rw [List.map_append, List.nodup_append] at distinct
    exact fun mem => distinct.2.2 i (List.mem_map.mpr ⟨_, taken, rfl⟩) i mem rfl
  refine ⟨?_, corr.distinct, fun j serving => ?_, ?_⟩
  · intro j command mem
    exact known_modify (fun _ => rfl) (fun _ moved => moved) (corr.known j command mem)
  · cases idle.symm.trans serving
  · intro j after at'
    obtain ⟨before, was, rfl⟩ := get_modify at'
    obtain ⟨sending, awaiting, held, waiting, returned⟩ := corr.each j before was
    split
    · subst j
      have empty := held (.inr serves)
      refine ⟨fun unsent => ?_, awaiting, fun holds => ?_, nofun, fun value same => ?_⟩
      · obtain ⟨_, at_, -, moved⟩ := corr.known i command
          (queued.subset (List.mem_append_left _ taken))
        cases was.symm.trans at_
        exact absurd unsent moved
      · rcases holds with mem | serving
        · exact absurd mem unqueued
        · cases idle.symm.trans serving
      · obtain ⟨_, sent, -⟩ := returned value same
        cases empty.symm.trans sent
    · rename_i ne
      refine ⟨sending, awaiting, fun holds => held ?_, fun mem empty => ?_, returned⟩
      · rcases holds with mem | serving
        · exact .inl mem
        · cases idle.symm.trans serving
      · rcases waiting mem empty with mem | serving
        · exact .inl mem
        · exact absurd (Option.some.inj (serves.symm.trans serving)) ne

/-- The task drops the command receiver. -/
theorem Correspondence.leave (corr : Correspondence w) (leaving : w.task = .leaving)
    (queued : w.taken ++ w.queue <+: w.accepted) :
    Correspondence { w.dropQueue with task := .finished } := by
  have idle : w.task.serving = none := by rw [leaving]; rfl
  have get (j : Nat) : (w.dropQueue.requests)[j]? = (w.requests[j]?).map fun request =>
      if j ∈ w.queue.map Prod.fst then { request with oneshot := .dropped } else request :=
    List.getElem?_mapIdx
  refine ⟨?_, corr.distinct, fun j serving => ?_, ?_⟩
  · intro j command mem
    obtain ⟨before, was, same, moved⟩ := corr.known j command mem
    refine ⟨if j ∈ w.queue.map Prod.fst then { before with oneshot := .dropped } else before,
      ?_, ?_, ?_⟩
    · exact (get j).trans (by rw [was]; rfl)
    · split <;> exact same
    · split <;> exact moved
  · cases serving
  · intro j after at'
    obtain ⟨before, was, rfl⟩ := Option.map_eq_some_iff.mp ((get j).symm.trans at')
    obtain ⟨sending, awaiting, held, waiting, returned⟩ := corr.each j before was
    have released : ¬ World.Holds { w.dropQueue with task := .finished } j := by
      rintro (mem | serving)
      · cases mem
      · cases serving
    split
    · rename_i mem
      have empty := held (.inl mem)
      refine ⟨fun unsent => ?_, awaiting, fun holds => absurd holds released, nofun,
        fun value same => ?_⟩
      · obtain ⟨⟨_, command⟩, queuedOne, rfl⟩ := List.mem_map.mp mem
        obtain ⟨_, at_, -, moved⟩ := corr.known _ command
          (queued.subset (List.mem_append_right _ queuedOne))
        cases was.symm.trans at_
        exact absurd unsent moved
      · obtain ⟨_, sent, -⟩ := returned value same
        cases empty.symm.trans sent
    · rename_i unqueued
      refine ⟨sending, awaiting, fun holds => absurd holds released, fun mem empty => ?_, returned⟩
      rcases waiting mem empty with mem | serving
      · exact absurd mem unqueued
      · cases idle.symm.trans serving

theorem Correspondence.step (corr : Correspondence w) (books : Bookkeeping sessionType w)
    (step : Step sessionType w agent w') (listening : w'.listening = true) :
    Correspondence w' := by
  cases step with
  | call command handles => exact corr.call command
  | send at_ sending running room => exact corr.send at_ sending
  | sendFails at_ sending finished => exact corr.move at_ nofun nofun nofun
  | receive at_ awaiting sent =>
      refine corr.move at_ nofun nofun fun value same => ?_
      exact ⟨_, sent, Phase.returned.inj same⟩
  | receiveFails at_ awaiting dropped => exact corr.move at_ nofun nofun nofun
  | cancel at_ underWay => exact corr.move at_ nofun nofun nofun
  | dropHandles idle => exact corr.congr rfl rfl rfl rfl rfl
  | take receiving next => exact corr.take receiving next
  | hangUp receiving empty gone => exact corr.congr rfl rfl (by rw [receiving]; rfl) rfl rfl
  | emit emitting listening room => exact corr.congr rfl rfl (by rw [emitting]; rfl) rfl rfl
  | emitFails emitting deaf => cases deaf.symm.trans listening
  | @answer actor i reply closing emitting =>
      refine corr.answer emitting ?_ books.queued
      split <;> rfl
  | leave leaving => exact corr.leave leaving books.queued
  | read listening next => exact corr.congr rfl rfl rfl rfl rfl
  | deafen => cases listening

end Correspondence

/-! ### Replies given -/

/-- A reply in a oneshot channel is one that the sequential loop gives to commands
whose output has left the task completely. -/
def Answered (sessionType : SessionType) (w : World) : Prop :=
  ∃ answered, answered <+: w.taken ∧ (serve sessionType .initial answered).2 <+: w.output ∧
    ∀ i request reply, w.requests[i]? = some request → request.oneshot = .sent reply →
      .reply i reply ∈ (serve sessionType .initial answered).2

section Answered

variable {sessionType : SessionType} {w w' : World} {agent : Agent}

theorem answered_initial : Answered sessionType .initial := by
  refine ⟨[], List.prefix_rfl, List.prefix_rfl, fun i request reply at_ => ?_⟩
  simp [World.initial] at at_

theorem Answered.mono (answered : Answered sessionType w) (taken : w.taken <+: w'.taken)
    (output : w.output <+: w'.output)
    (sent : ∀ (i : Nat) (request : Request) (reply : Reply), w'.requests[i]? = some request →
      request.oneshot = .sent reply →
      ∃ before : Request, w.requests[i]? = some before ∧ before.oneshot = .sent reply) :
    Answered sessionType w' := by
  obtain ⟨answered, sub, complete, given⟩ := answered
  refine ⟨answered, sub.trans taken, complete.trans output, ?_⟩
  intro i request reply at_ same
  obtain ⟨before, was, same⟩ := sent i request reply at_ same
  exact given i before reply was same

theorem sent_of_move {i : Nat} {phase : Phase} (j : Nat) (request : Request) (reply : Reply)
    (at_ : (w.move i phase).requests[j]? = some request) (sent : request.oneshot = .sent reply) :
    ∃ before, w.requests[j]? = some before ∧ before.oneshot = .sent reply := by
  obtain ⟨before, was, rfl⟩ := get_modify at_
  refine ⟨before, was, ?_⟩
  split at sent <;> exact sent

theorem Answered.step (answered : Answered sessionType w) (books : Bookkeeping sessionType w)
    (step : Step sessionType w agent w') (listening : w'.listening = true) :
    Answered sessionType w' := by
  cases step with
  | call command handles =>
      refine answered.mono List.prefix_rfl List.prefix_rfl fun j request reply at_ sent => ?_
      rw [List.getElem?_append] at at_
      split at at_
      · exact ⟨request, at_, sent⟩
      · rw [List.getElem?_singleton] at at_
        split at at_
        · cases at_
          cases sent
        · cases at_
  | send at_ sending running room =>
      exact answered.mono List.prefix_rfl List.prefix_rfl sent_of_move
  | sendFails at_ sending finished =>
      exact answered.mono List.prefix_rfl List.prefix_rfl sent_of_move
  | receive at_ awaiting sent =>
      exact answered.mono List.prefix_rfl List.prefix_rfl sent_of_move
  | receiveFails at_ awaiting dropped =>
      exact answered.mono List.prefix_rfl List.prefix_rfl sent_of_move
  | cancel at_ underWay =>
      exact answered.mono List.prefix_rfl List.prefix_rfl sent_of_move
  | dropHandles idle => exact answered
  | take receiving next =>
      exact answered.mono (List.prefix_append _ _) List.prefix_rfl
        fun _ request _ at_ sent => ⟨request, at_, sent⟩
  | hangUp receiving empty gone => exact answered
  | emit emitting listening room =>
      exact answered.mono List.prefix_rfl (List.prefix_append _ _)
        fun _ request _ at_ sent => ⟨request, at_, sent⟩
  | emitFails emitting deaf => cases deaf.symm.trans listening
  | @answer actor i reply closing emitting =>
      -- nothing is owed after the reply
      have owed : w.output ++ [.reply i reply] = (serve sessionType .initial w.taken).2 := by
        rw [← books.owed, emitting]
        rfl
      obtain ⟨answered, sub, -, given⟩ := answered
      refine ⟨w.taken, List.prefix_rfl, owed ▸ List.prefix_rfl, ?_⟩
      intro j request reply' at_ sent
      obtain ⟨before, was, rfl⟩ := get_modify at_
      split at sent
      · subst j
        cases sent
        rw [← owed]
        exact List.mem_append_right _ List.mem_cons_self
      · exact (serve_outputs_mono sub).subset (given j before reply' was sent)
  | leave leaving =>
      refine answered.mono List.prefix_rfl List.prefix_rfl fun j request reply at_ sent => ?_
      rw [show (w.dropQueue.requests)[j]? = _ from List.getElem?_mapIdx] at at_
      obtain ⟨before, was, rfl⟩ := Option.map_eq_some_iff.mp at_
      split at sent
      · cases sent
      · exact ⟨before, was, sent⟩
  | read listening next => exact answered
  | deafen => cases listening

end Answered

/-! ### Whole runs -/

section Runs

variable {sessionType : SessionType} {w w' : World} {agents : List Agent}

/-- The invariants hold along every run, as long as the event receiver lives. -/
theorem Run.invariants (run : Run sessionType w agents w') (listening : w'.listening = true)
    (books : Bookkeeping sessionType w) (corr : Correspondence w)
    (answered : Answered sessionType w) :
    Bookkeeping sessionType w' ∧ Correspondence w' ∧ Answered sessionType w' := by
  induction run with
  | nil => exact ⟨books, corr, answered⟩
  | snoc _ step ih =>
      obtain ⟨books, corr, answered⟩ := ih (step.listening listening)
      exact ⟨books.step step listening, corr.step books step listening,
        answered.step books step listening⟩

theorem Reaches.invariants (reached : Reaches sessionType w) (listening : w.listening = true) :
    Bookkeeping sessionType w ∧ Correspondence w ∧ Answered sessionType w := by
  obtain ⟨agents, run⟩ := reached
  exact run.invariants listening bookkeeping_initial correspondence_initial answered_initial

end Runs

end Dorsche.Wireless.Session
