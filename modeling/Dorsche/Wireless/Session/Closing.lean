import Dorsche.Wireless.Session.Requests

/-!
Requests around `Close`.

Once a `Close` is in the command queue, the commands that count are settled, and
the task and the reader of the events have a bounded number of operations left:
`World.work` is used up by each of them and not restored by any client. So every
request gets an answer. `Orderly` puts this together with the invariants.
-/

namespace Dorsche.Wireless.Session

open Dorsche.Lib

/-! ### The task comes to an end after `Close` -/

/-- A bound on the operations left to a task that has a `Close` ahead; no command
emits more than two events. -/
def Task.work (queue : List (Nat × Command)) : Task → Nat
  | .receiving _ => 4 * (uptoClose queue).length + 1
  | .emitting _ _ events _ closing =>
      events.length + 1 + if closing then 1 else 4 * (uptoClose queue).length + 1
  | .leaving => 1
  | .finished => 0

/-- A bound on the operations left to the task and the reader together. -/
def World.work (w : World) : Nat := 2 * w.task.work w.queue + w.channel.length

/-- A `Close` has entered the command queue. -/
def World.Closing (w : World) : Prop := ∃ j, (j, .close) ∈ w.accepted

section Progress

variable {sessionType : SessionType} {w w' : World} {agent : Agent} {agents : List Agent}

theorem events_length (sessionType : SessionType) (actor : Actor) (command : Command) :
    (actor.process sessionType command).events.length ≤ 2 := by
  have turn := handles sessionType actor command
  generalize actor.process sessionType command = handled at turn
  cases turn with
  | _ => simp

/-- A task with another turn has the `Close` still in its queue. -/
theorem Bookkeeping.close_queued (books : Bookkeeping sessionType w) (closing : w.Closing)
    (goesOn : w.task.goesOn = true) : ∃ j, (j, .close) ∈ w.queue := by
  obtain ⟨j, mem⟩ := closing
  have running : w.task ≠ .finished := by
    rintro finished
    rw [finished] at goesOn
    cases goesOn
  rw [books.opened running] at mem
  refine ⟨j, (List.mem_append.mp mem).resolve_left fun taken => ?_⟩
  exact books.goesOn goesOn _ taken rfl

/-- Room in the queue behind the `Close` makes no work. -/
theorem Bookkeeping.work_append (books : Bookkeeping sessionType w) (closing : w.Closing)
    (more : List (Nat × Command)) : w.task.work (w.queue ++ more) = w.task.work w.queue := by
  have queued := books.close_queued closing
  cases task : w.task with
  | receiving actor =>
      obtain ⟨j, mem⟩ := queued (by rw [task]; rfl)
      rw [Task.work, Task.work, uptoClose_append mem]
  | emitting actor i events reply closes =>
      cases closes with
      | true => rfl
      | false =>
          obtain ⟨j, mem⟩ := queued (by rw [task]; rfl)
          rw [Task.work, Task.work, uptoClose_append mem]
  | leaving => rfl
  | finished => rfl

/-- Every operation of the task and of the reader uses up work, and no client adds
any. -/
theorem Step.work (step : Step sessionType w agent w') (books : Bookkeeping sessionType w)
    (listening : w'.listening = true) (closing : w.Closing) :
    w'.work + (if agent = .client then 0 else 1) ≤ w.work := by
  cases step with
  | call command handles => exact le_rfl
  | sendFails at_ sending finished => exact le_rfl
  | receive at_ awaiting sent => exact le_rfl
  | receiveFails at_ awaiting dropped => exact le_rfl
  | cancel at_ underWay => exact le_rfl
  | dropHandles idle => exact le_rfl
  | @send i request at_ sending running room =>
      have same := books.work_append closing [(i, request.command)]
      simp only [World.work, World.move, same]
      exact le_rfl
  | @take actor i command rest receiving next =>
      have short := events_length sessionType actor command
      rw [if_neg (by decide)]
      by_cases closes : command = .close
      · subst closes
        simp only [World.work, receiving, next, Task.work, uptoClose, beq_self_eq_true, if_true,
          List.length_cons, List.length_nil]
        omega
      · simp only [World.work, receiving, next, Task.work, uptoClose_cons closes,
          beq_eq_false_iff_ne.mpr closes, if_neg Bool.false_ne_true, List.length_cons]
        omega
  | hangUp receiving empty gone =>
      obtain ⟨j, mem⟩ := books.close_queued closing (by rw [receiving]; rfl)
      rw [empty] at mem
      cases mem
  | emit emitting listening room =>
      rw [if_neg (by decide)]
      simp only [World.work, emitting, Task.work, List.length_cons, List.length_append,
        List.length_nil]
      omega
  | emitFails emitting deaf => cases deaf.symm.trans listening
  | @answer actor i reply closes emitting =>
      cases closes with
      | true =>
          simp only [World.work, World.resolve, emitting, Task.work, if_true, List.length_nil]
          rw [if_neg (by decide)]
          omega
      | false =>
          simp only [World.work, World.resolve, emitting, Task.work, if_neg Bool.false_ne_true,
            List.length_nil]
          rw [if_neg (by decide)]
          omega
  | leave leaving =>
      rw [if_neg (by decide)]
      simp only [World.work, World.dropQueue, leaving, Task.work]
      omega
  | read listening next =>
      rw [if_neg (by decide)]
      simp only [World.work, next, List.length_cons]
      omega
  | deafen => cases listening

theorem Step.accepted (step : Step sessionType w agent w') : w.accepted <+: w'.accepted := by
  cases step with
  | send at_ sending running room => exact List.prefix_append _ _
  | _ => exact List.prefix_rfl

theorem Run.accepted (run : Run sessionType w agents w') : w.accepted <+: w'.accepted := by
  induction run with
  | nil => exact List.prefix_rfl
  | snoc _ step ih => exact ih.trans step.accepted

theorem Run.closing (run : Run sessionType w agents w') (closing : w.Closing) : w'.Closing := by
  obtain ⟨j, mem⟩ := closing
  exact ⟨j, run.accepted.subset mem⟩

/-- Nothing joins the commands up to `Close` once it is accepted. -/
theorem Run.uptoClose_accepted (run : Run sessionType w agents w') (closing : w.Closing) :
    uptoClose w'.accepted = uptoClose w.accepted := by
  obtain ⟨j, mem⟩ := closing
  obtain ⟨more, same⟩ := run.accepted
  rw [← same, uptoClose_append mem]

/-- With a `Close` accepted, the task and the reader take a bounded number of steps,
however the clients are interleaved with them. -/
theorem Run.work (run : Run sessionType w agents w') (books : Bookkeeping sessionType w)
    (corr : Correspondence w) (answered : Answered sessionType w)
    (listening : w'.listening = true) (closing : w.Closing) :
    w'.work + agents.countP (· ≠ .client) ≤ w.work := by
  induction run with
  | nil => exact le_rfl
  | @snoc _ _ agents agent run step ih =>
      have was := step.listening listening
      have books := (run.invariants was books corr answered).1
      have spent := step.work books listening (run.closing closing)
      have spentBefore := ih was
      rw [List.countP_append, List.countP_singleton]
      by_cases client : agent = .client
      · rw [if_pos client] at spent
        rw [if_neg (by simp [client])]
        omega
      · rw [if_neg client] at spent
        rw [if_pos (by simp [client])]
        omega

/-- Nothing blocks a task that has a `Close` ahead, except a full event channel,
and that has something to read. Nobody has to drop the event receiver for it. -/
theorem Bookkeeping.enabled (books : Bookkeeping sessionType w) (listening : w.listening = true)
    (closing : w.Closing) (running : w.task ≠ .finished) :
    ∃ agent w', agent ≠ .client ∧ Step sessionType w agent w' ∧ w'.listening = true := by
  cases task : w.task with
  | receiving actor =>
      obtain ⟨j, mem⟩ := books.close_queued closing (by rw [task]; rfl)
      cases next : w.queue with
      | nil =>
          rw [next] at mem
          cases mem
      | cons head rest => exact ⟨.actor, _, nofun, .take task next, listening⟩
  | emitting actor i events reply closes =>
      cases events with
      | nil => exact ⟨.actor, _, nofun, .answer task, listening⟩
      | cons event events =>
          by_cases room : w.channel.length < capacity
          · exact ⟨.actor, _, nofun, .emit task listening room, listening⟩
          · cases unread : w.channel with
            | nil =>
                rw [unread] at room
                exact absurd (Nat.zero_lt_succ _) room
            | cons event rest => exact ⟨.reader, _, nofun, .read listening unread, listening⟩
  | leaving => exact ⟨.actor, _, nofun, .leave task, listening⟩
  | finished => exact absurd task running

/-- Once the task has finished, every method under way can return. -/
theorem Correspondence.answerable (corr : Correspondence w) (books : Bookkeeping sessionType w)
    (finished : w.task = .finished) {i : Nat} {request : Request}
    (at_ : w.requests[i]? = some request)
    (underWay : request.phase = .sending ∨ request.phase = .awaiting) :
    ∃ result, Step sessionType w .client (w.move i (.returned result)) := by
  rcases underWay with sending | awaiting
  · exact ⟨_, .sendFails at_ sending finished⟩
  · cases oneshot : request.oneshot with
    | empty =>
        have each := corr.each i request at_
        rcases each.waiting (each.awaiting awaiting) oneshot with queued | serving
        · rw [books.drained finished] at queued
          cases queued
        · rw [finished] at serving
          cases serving
    | sent reply => exact ⟨_, .receive at_ awaiting oneshot⟩
    | dropped => exact ⟨_, .receiveFails at_ awaiting oneshot⟩

end Progress

/-! ### Sessions with many clients -/

/-- What holds of a session in `w`. The commands that count are those that entered
the queue up to the first `Close`, in queue order. -/
structure Orderly (sessionType : SessionType) (w : World) : Prop where
  /-- Events and replies are a prefix of those of the commands one after the other. -/
  ordered : w.output <+: (serve sessionType .initial (uptoClose w.accepted)).2
  emitted : w.delivered ++ w.channel = eventsOf w.output
  replied : ∀ i request reply, w.requests[i]? = some request → request.oneshot = .sent reply →
    .reply i reply ∈ w.output
  state : ∀ actor, w.task.actor? = some actor →
    ∃ executed, executed <+: uptoClose w.accepted ∧
      actor = (serve sessionType .initial executed).1
  /-- A client with an `Ok` has a command that counts, the answer that the commands
  before it determine, and all its events in the event channel. -/
  observed : ∀ i request value, w.requests[i]? = some request →
    request.phase = .returned (.ok value) →
    ∃ before, before ++ [(i, request.command)] <+: uptoClose w.accepted ∧
      ((serve sessionType .initial before).1.process sessionType request.command).reply.value =
        .ok value ∧
      eventsOf (serve sessionType .initial (before ++ [(i, request.command)])).2 <+:
        w.delivered ++ w.channel
  closesOnce : ∀ (i j : Nat) (first second : Request) (value value' : Value),
    w.requests[i]? = some first → w.requests[j]? = some second →
    first.command = .close → second.command = .close →
    first.phase = .returned (.ok value) → second.phase = .returned (.ok value') → i = j
  late : ∀ i request value, w.requests[i]? = some request →
    (i, request.command) ∉ uptoClose w.accepted → request.phase ≠ .returned (.ok value)
  /-- A request that does not count when `Close` is accepted never will. -/
  sealed : w.Closing → ∀ agents w', Run sessionType w agents w' →
    uptoClose w'.accepted = uptoClose w.accepted
  closedLast : ∀ before after,
    w.delivered ++ w.channel = before ++ .stateChanged .closed :: after → after = []
  /-- After `Close` the task and the reader have a step until the task is at its end, one
  that keeps the event receiver, and only a bounded number of them. -/
  enabled : w.Closing → w.task ≠ .finished →
    ∃ agent w', agent ≠ .client ∧ Step sessionType w agent w' ∧ w'.listening = true
  bounded : w.Closing → ∃ bound, ∀ agents w', Run sessionType w agents w' →
    w'.listening = true → agents.countP (· ≠ .client) ≤ bound
  /-- At its end every method under way returns, with an error if it came late. -/
  answered : w.task = .finished → ∀ i request, w.requests[i]? = some request →
    request.phase = .sending ∨ request.phase = .awaiting →
    ∃ result, Step sessionType w .client (w.move i (.returned result)) ∧
      ((i, request.command) ∉ uptoClose w.accepted → ∃ error, result = .error error)

section Orderly

variable {sessionType : SessionType} {w : World}

theorem Bookkeeping.taken_le (books : Bookkeeping sessionType w) : w.taken <+: w.accepted :=
  (List.prefix_append _ _).trans books.queued

theorem Bookkeeping.ordered (books : Bookkeeping sessionType w) :
    w.output <+: (serve sessionType .initial (uptoClose w.accepted)).2 := by
  have owed : w.output <+: (serve sessionType .initial w.taken).2 := ⟨_, books.owed⟩
  rw [serve_uptoClose]
  exact owed.trans (serve_outputs_mono books.taken_le)

/-- A reply in a oneshot channel, against the sequential loop. -/
theorem Answered.reply (answered : Answered sessionType w) (books : Bookkeeping sessionType w)
    (corr : Correspondence w) {i : Nat} {request : Request} {reply : Reply}
    (at_ : w.requests[i]? = some request) (sent : request.oneshot = .sent reply) :
    ∃ before, before ++ [(i, request.command)] <+: uptoClose w.accepted ∧
      reply =
        ((serve sessionType .initial before).1.process sessionType request.command).reply ∧
      (serve sessionType .initial (before ++ [(i, request.command)])).2 <+: w.output := by
  obtain ⟨commands, sub, complete, given⟩ := answered
  obtain ⟨before, command, counts, same⟩ := mem_of_reply (given i request reply at_ sent)
  have accepted := counts.trans (uptoClose_mono (sub.trans books.taken_le))
  -- the command in the queue is the request's own
  have mem : (i, command) ∈ w.accepted :=
    uptoClose_le.subset (accepted.subset (List.mem_append_right _ List.mem_cons_self))
  obtain ⟨other, at', rfl, -⟩ := corr.known i command mem
  cases at_.symm.trans at'
  refine ⟨before, accepted, same, ?_⟩
  have output : (serve sessionType .initial (before ++ [(i, request.command)])).2 <+:
      (serve sessionType .initial (uptoClose commands)).2 := serve_outputs_mono counts
  rw [serve_uptoClose] at output
  exact output.trans complete

theorem Answered.observed (answered : Answered sessionType w) (books : Bookkeeping sessionType w)
    (corr : Correspondence w) {i : Nat} {request : Request} {value : Value}
    (at_ : w.requests[i]? = some request) (ok : request.phase = .returned (.ok value)) :
    ∃ before, before ++ [(i, request.command)] <+: uptoClose w.accepted ∧
      ((serve sessionType .initial before).1.process sessionType request.command).reply.value =
        .ok value ∧
      eventsOf (serve sessionType .initial (before ++ [(i, request.command)])).2 <+:
        w.delivered ++ w.channel := by
  obtain ⟨reply, sent, same⟩ := (corr.each i request at_).returned value ok
  obtain ⟨before, counts, rfl, output⟩ := answered.reply books corr at_ sent
  refine ⟨before, counts, same, ?_⟩
  rw [books.emitted]
  exact eventsOf_mono output

/-- Only a command that counts is answered with `Ok`. -/
theorem Answered.counts (answered : Answered sessionType w) (books : Bookkeeping sessionType w)
    (corr : Correspondence w) {i : Nat} {request : Request} {value : Value}
    (at_ : w.requests[i]? = some request) (ok : request.phase = .returned (.ok value)) :
    (i, request.command) ∈ uptoClose w.accepted := by
  obtain ⟨before, counts, -⟩ := answered.observed books corr at_ ok
  exact counts.subset (List.mem_append_right _ List.mem_cons_self)

theorem Bookkeeping.closedLast (books : Bookkeeping sessionType w)
    {before after : List SessionEvent}
    (occurs : w.delivered ++ w.channel = before ++ .stateChanged .closed :: after) :
    after = [] := by
  obtain ⟨rest, all⟩ := eventsOf_mono books.ordered
  rw [← books.emitted, occurs, List.append_assoc, List.cons_append] at all
  exact (List.append_eq_nil_iff.mp (closed_last all.symm)).1

/-- Any number of clients, any interleaving: the session is orderly at every point
while its event receiver lives. -/
theorem clients_orderly (reached : Reaches sessionType w) (listening : w.listening = true) :
    Orderly sessionType w := by
  obtain ⟨books, corr, answered⟩ := reached.invariants listening
  constructor
  case ordered => exact books.ordered
  case emitted => exact books.emitted
  case replied =>
    intro i request reply at_ sent
    obtain ⟨commands, -, complete, given⟩ := answered
    exact complete.subset (given i request reply at_ sent)
  case state =>
    intro actor current
    refine ⟨uptoClose w.taken, uptoClose_mono books.taken_le, ?_⟩
    rw [serve_uptoClose]
    exact books.current actor current
  case observed => exact fun i request value => answered.observed books corr
  case closesOnce =>
    intro i j first second value value' at_ at' closes closes' ok ok'
    have mem := answered.counts books corr at_ ok
    have mem' := answered.counts books corr at' ok'
    rw [closes] at mem
    rw [closes'] at mem'
    exact close_unique mem mem'
  case late =>
    intro i request value at_ late ok
    exact late (answered.counts books corr at_ ok)
  case sealed => exact fun closing agents w' run => run.uptoClose_accepted closing
  case closedLast => exact fun before after => books.closedLast
  case enabled => exact books.enabled listening
  case bounded =>
    intro closing
    refine ⟨w.work, fun agents w' run listening' => ?_⟩
    exact (Nat.le_add_left _ _).trans (run.work books corr answered listening' closing)
  case answered =>
    intro finished i request at_ underWay
    obtain ⟨result, step⟩ := corr.answerable books finished at_ underWay
    refine ⟨result, step, fun late => ?_⟩
    cases result with
    | error error => exact ⟨error, rfl⟩
    | ok value =>
        have next : (w.move i (.returned (.ok value))).requests[i]? =
            some { request with phase := .returned (.ok value) } := modify_get at_
        exact absurd ((answered.step books step listening).counts
          (books.step step listening) (corr.step books step listening) next rfl) late

/-- `close` and a `start` that is queued behind it. -/
theorem clients_orderly_start_behind_close :
    ∃ w, Reaches .leUnicastSoftwareEncoding w ∧ w.listening = true ∧
      w.requests.map Request.phase =
        [.returned (.ok .unit), .returned (.error "session dropped command response")] ∧
      Orderly .leUnicastSoftwareEncoding w := by
  have spawned : Run .leUnicastSoftwareEncoding .initial [] .initial := .nil
  have called := spawned |>.snoc (.call .close rfl) |>.snoc (.call .start rfl)
  have queued := called |>.snoc (.send (i := 0) rfl rfl nofun (by decide))
    |>.snoc (.send (i := 1) rfl rfl nofun (by decide))
  have closed := queued |>.snoc (.take rfl rfl) |>.snoc (.emit rfl rfl (by decide))
    |>.snoc (.answer rfl) |>.snoc (.leave rfl)
  have returned := closed |>.snoc (.receive (i := 0) rfl rfl rfl)
    |>.snoc (.receiveFails (i := 1) rfl rfl rfl)
  exact ⟨_, ⟨_, returned⟩, rfl, rfl, clients_orderly ⟨_, returned⟩ rfl⟩

end Orderly

end Dorsche.Wireless.Session
