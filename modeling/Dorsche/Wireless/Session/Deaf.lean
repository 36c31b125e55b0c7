import Dorsche.Wireless.Session.Closing

/-!
A session whose event receiver is dropped.

`spawn_session` returns the receiver of the events to its caller, who may drop it
at any time. The task finds out at its next event: `emit` fails, the task returns
the error, and the reply it owes and the commands in its queue are dropped.

Every such session is shadowed by one whose receiver lives and only stops to read
(`Shadows`): it has the same commands, the same outputs and the same replies, and
where the two differ, a method has returned an error in the first and still waits
in the second. So what is known of sessions with a reader carries over.
-/

namespace Dorsche.Wireless.Session

open Dorsche.Lib

/-! ### Shadows -/

/-- A request against its counterpart: it may have come to an error where the other
still waits. -/
structure Trails (before request : Request) : Prop where
  command : request.command = before.command
  oneshot : request.oneshot = before.oneshot ∨
    request.oneshot = .dropped ∧ before.oneshot = .empty
  phase : request.phase = before.phase ∨
    (before.phase = .sending ∨ before.phase = .awaiting) ∧
      ∃ error, request.phase = .returned (.error error)

theorem Trails.refl (request : Request) : Trails request request := ⟨rfl, .inl rfl, .inl rfl⟩

/-- The task has failed to emit an event that its counterpart still has to emit. -/
structure Stranded (other w : World) : Prop where
  stuck : ∃ actor i event events reply closing,
    other.task = .emitting actor i (event :: events) reply closing
  task : w.task = .leaving ∧ w.queue = other.queue ∨ w.task = .finished
  deaf : w.listening = false
  handles : w.handles = true → other.handles = true
  accepted : w.accepted = other.accepted
  output : w.output = other.output
  delivered : w.delivered = other.delivered
  length : w.requests.length = other.requests.length
  trails : ∀ (i : Nat) (request before : Request), w.requests[i]? = some request →
    other.requests[i]? = some before → Trails before request
  dropped : ∀ (i : Nat) (request : Request), w.requests[i]? = some request →
    other.task.serving = some i ∨ w.task = .finished ∧ i ∈ other.queue.map Prod.fst →
    request.oneshot = .dropped

/-- `w` behaves like `other`, whose receiver lives: the receiver may be gone, and the
task may have failed. -/
inductive Shadows (other : World) : World → Prop where
  | muted {listening channel} : (listening = true → channel = other.channel) →
      Shadows other { other with listening, channel }
  | stranded {w} : Stranded other w → Shadows other w

section Stranded

variable {sessionType : SessionType} {other w : World} {i : Nat} {request : Request}

theorem Stranded.counterpart (stranded : Stranded other w) (at_ : w.requests[i]? = some request) :
    ∃ before, other.requests[i]? = some before ∧ Trails before request := by
  have inside := (List.getElem?_eq_some_iff.mp at_).1
  rw [stranded.length] at inside
  have there := List.getElem?_eq_getElem inside
  exact ⟨_, there, stranded.trails i request _ at_ there⟩

/-- A method that has not returned is where its counterpart is. -/
theorem Stranded.phase_eq (stranded : Stranded other w) (at_ : w.requests[i]? = some request)
    (underWay : request.phase = .sending ∨ request.phase = .awaiting) :
    ∃ before, other.requests[i]? = some before ∧ Trails before request ∧
      before.phase = request.phase := by
  obtain ⟨before, there, trails⟩ := stranded.counterpart at_
  refine ⟨before, there, trails, ?_⟩
  rcases trails.phase with same | ⟨-, error, returned⟩
  · exact same.symm
  · rw [returned] at underWay
    rcases underWay with sending | awaiting
    · cases sending
    · cases awaiting

/-- Both methods go on to the same phase. -/
theorem Stranded.move (stranded : Stranded other w) (i : Nat) (phase : Phase) :
    Stranded (other.move i phase) (w.move i phase) := by
  refine { stranded with length := ?_, trails := ?_, dropped := ?_ }
  · simpa [World.move] using stranded.length
  · intro j after after' at_ there
    obtain ⟨request, was, rfl⟩ := get_modify at_
    obtain ⟨before, had, rfl⟩ := get_modify there
    have trails := stranded.trails j request before was had
    split
    · exact ⟨trails.command, trails.oneshot, .inl rfl⟩
    · exact trails
  · intro j after at_ lost
    obtain ⟨request, was, rfl⟩ := get_modify at_
    have gone := stranded.dropped j request was lost
    split
    · exact gone
    · exact gone

/-- A method returns an error where its counterpart still waits. -/
theorem Stranded.fail (stranded : Stranded other w) {error : String}
    (at_ : w.requests[i]? = some request)
    (underWay : request.phase = .sending ∨ request.phase = .awaiting) :
    Stranded other (w.move i (.returned (.error error))) := by
  refine { stranded with length := ?_, trails := ?_, dropped := ?_ }
  · simpa [World.move] using stranded.length
  · intro j after before at' had
    obtain ⟨same, was, rfl⟩ := get_modify at'
    have trails := stranded.trails j same before was had
    split
    · subst j
      cases at_.symm.trans was
      obtain ⟨before', had', -, phase⟩ := stranded.phase_eq at_ underWay
      cases had.symm.trans had'
      exact ⟨trails.command, trails.oneshot, .inr ⟨phase ▸ underWay, error, rfl⟩⟩
    · exact trails
  · intro j after at' lost
    obtain ⟨same, was, rfl⟩ := get_modify at'
    have gone := stranded.dropped j same was lost
    split
    · exact gone
    · exact gone

theorem Stranded.call (stranded : Stranded other w) (command : Command)
    (fresh : ∀ j, other.task.serving = some j ∨ j ∈ other.queue.map Prod.fst →
      j < other.requests.length) :
    Stranded { other with requests := other.requests ++ [⟨command, .sending, .empty⟩] }
      { w with requests := w.requests ++ [⟨command, .sending, .empty⟩] } := by
  refine { stranded with length := ?_, trails := ?_, dropped := ?_ }
  · simpa using stranded.length
  · intro j request before at_ there
    have length := stranded.length
    rw [List.getElem?_append] at at_ there
    by_cases old : j < w.requests.length
    · rw [if_pos old] at at_
      rw [if_pos (by omega)] at there
      exact stranded.trails j request before at_ there
    · rw [if_neg old] at at_
      rw [if_neg (by omega), ← length] at there
      cases at_.symm.trans there
      exact .refl request
  · intro j request at_ lost
    have old : j < w.requests.length := by
      rw [stranded.length]
      rcases lost with serving | ⟨-, queued⟩
      · exact fresh j (.inl serving)
      · exact fresh j (.inr queued)
    rw [List.getElem?_append_left old] at at_
    exact stranded.dropped j request at_ lost

/-- While the task is on its way out, commands still enter its queue. -/
theorem Stranded.send (stranded : Stranded other w) (running : w.task ≠ .finished) (i : Nat)
    (command : Command) :
    Stranded
      { other.move i .awaiting with
        queue := other.queue ++ [(i, command)]
        accepted := other.accepted ++ [(i, command)] }
      { w.move i .awaiting with
        queue := w.queue ++ [(i, command)]
        accepted := w.accepted ++ [(i, command)] } := by
  have moved := stranded.move i .awaiting
  refine { moved with task := ?_, accepted := ?_, dropped := ?_ }
  · rcases stranded.task with ⟨leaving, queue⟩ | finished
    · exact .inl ⟨leaving, by rw [queue]⟩
    · exact absurd finished running
  · rw [stranded.accepted]
  · intro j request at_ lost
    rcases lost with serving | ⟨finished, -⟩
    · exact moved.dropped j request at_ (.inl serving)
    · exact absurd finished running

/-- The task drops the queue with the reply senders in it. -/
theorem Stranded.leave (stranded : Stranded other w) (leaving : w.task = .leaving)
    (corr : Correspondence other) : Stranded other { w.dropQueue with task := .finished } := by
  have queue : w.queue = other.queue := by
    rcases stranded.task with ⟨-, queue⟩ | finished
    · exact queue
    · cases leaving.symm.trans finished
  have get (j : Nat) : (w.dropQueue.requests)[j]? = (w.requests[j]?).map fun request =>
      if j ∈ w.queue.map Prod.fst then { request with oneshot := .dropped } else request :=
    List.getElem?_mapIdx
  refine { stranded with task := .inr rfl, length := ?_, trails := ?_, dropped := ?_ }
  · simpa [World.dropQueue] using stranded.length
  · intro j after before at_ had
    obtain ⟨request, was, rfl⟩ := Option.map_eq_some_iff.mp ((get j).symm.trans at_)
    have trails := stranded.trails j request before was had
    split
    · rename_i queued
      rw [queue] at queued
      exact ⟨trails.command, .inr ⟨rfl, (corr.each j before had).held (.inl queued)⟩,
        trails.phase⟩
    · exact trails
  · intro j after at_ lost
    obtain ⟨request, was, rfl⟩ := Option.map_eq_some_iff.mp ((get j).symm.trans at_)
    split
    · rfl
    · rename_i unqueued
      rw [queue] at unqueued
      rcases lost with serving | ⟨-, queued⟩
      · exact stranded.dropped j request was (.inl serving)
      · exact absurd queued unqueued

/-- The task fails to emit an event and drops the reply it owes. -/
theorem stranded_of_emit {actor : Actor} {event : SessionEvent} {events : List SessionEvent}
    {reply : Reply} {closing : Bool} {channel : List SessionEvent}
    (emitting : other.task = .emitting actor i (event :: events) reply closing)
    (corr : Correspondence other) :
    Stranded other
      { World.resolve { other with listening := false, channel } i .dropped with
        task := .leaving } := by
  have serves : other.task.serving = some i := by rw [emitting]; rfl
  refine
    { stuck := ⟨actor, i, event, events, reply, closing, emitting⟩
      task := .inl ⟨rfl, rfl⟩
      deaf := rfl
      handles := id
      accepted := rfl
      output := rfl
      delivered := rfl
      length := by simp [World.resolve]
      trails := ?_
      dropped := ?_ }
  · intro j after before at_ had
    obtain ⟨request, was, rfl⟩ := get_modify at_
    cases had.symm.trans was
    split
    · subst j
      exact ⟨rfl, .inr ⟨rfl, (corr.each i before had).held (.inr serves)⟩, .inl rfl⟩
    · exact .refl before
  · intro j after at_ lost
    obtain ⟨request, was, rfl⟩ := get_modify at_
    rcases lost with serving | ⟨⟨⟩, -⟩
    rw [if_pos (Option.some.inj (serves.symm.trans serving))]

/-- What a task holds belongs to a request. -/
theorem lt_of_holds (corr : Correspondence w) (queued : w.taken ++ w.queue <+: w.accepted)
    {j : Nat} (holds : w.task.serving = some j ∨ j ∈ w.queue.map Prod.fst) :
    j < w.requests.length := by
  have known : ∃ command, (j, command) ∈ w.accepted := by
    rcases holds with serving | mem
    · obtain ⟨command, taken⟩ := corr.serving j serving
      exact ⟨command, queued.subset (List.mem_append_left _ taken)⟩
    · obtain ⟨⟨_, command⟩, waits, rfl⟩ := List.mem_map.mp mem
      exact ⟨command, queued.subset (List.mem_append_right _ waits)⟩
  obtain ⟨command, mem⟩ := known
  obtain ⟨request, at_, -⟩ := corr.known j command mem
  exact (List.getElem?_eq_some_iff.mp at_).1

end Stranded

/-! ### Every step has a shadow -/

section Shadows

variable {sessionType : SessionType} {other w w' : World} {agent : Agent}

/-- A session with a living receiver that shadows `w`. -/
def Shadowed (sessionType : SessionType) (w : World) : Prop :=
  ∃ other, Reaches sessionType other ∧ other.listening = true ∧ Shadows other w

theorem Reaches.snoc (reached : Reaches sessionType w) (step : Step sessionType w agent w') :
    Reaches sessionType w' := by
  obtain ⟨agents, run⟩ := reached
  exact ⟨_, run.snoc step⟩

/-- As long as the task goes on, the shadow takes the same step. -/
theorem shadowed_of_muted {listening : Bool} {channel : List SessionEvent}
    (reached : Reaches sessionType other) (listens : other.listening = true)
    (heard : listening = true → channel = other.channel)
    (step : Step sessionType { other with listening, channel } agent w') :
    Shadowed sessionType w' := by
  cases step with
  | call command handles => exact ⟨_, reached.snoc (.call command handles), listens, .muted heard⟩
  | send at_ sending running room =>
      exact ⟨_, reached.snoc (.send at_ sending running room), listens, .muted heard⟩
  | sendFails at_ sending finished =>
      exact ⟨_, reached.snoc (.sendFails at_ sending finished), listens, .muted heard⟩
  | receive at_ awaiting sent =>
      exact ⟨_, reached.snoc (.receive at_ awaiting sent), listens, .muted heard⟩
  | receiveFails at_ awaiting dropped =>
      exact ⟨_, reached.snoc (.receiveFails at_ awaiting dropped), listens, .muted heard⟩
  | cancel at_ underWay =>
      exact ⟨_, reached.snoc (.cancel at_ underWay), listens, .muted heard⟩
  | dropHandles idle => exact ⟨_, reached.snoc (.dropHandles idle), listens, .muted heard⟩
  | take receiving next =>
      exact ⟨_, reached.snoc (.take receiving next), listens, .muted heard⟩
  | hangUp receiving empty gone =>
      exact ⟨_, reached.snoc (.hangUp receiving empty gone), listens, .muted heard⟩
  | emit emitting hears room =>
      obtain rfl : listening = true := hears
      obtain rfl : channel = other.channel := heard rfl
      exact ⟨_, reached.snoc (.emit emitting listens room), listens, .muted fun _ => rfl⟩
  | emitFails emitting deaf =>
      obtain rfl : listening = false := deaf
      exact ⟨other, reached, listens,
        .stranded (stranded_of_emit emitting (reached.invariants listens).2.1)⟩
  | answer emitting => exact ⟨_, reached.snoc (.answer emitting), listens, .muted heard⟩
  | leave leaving => exact ⟨_, reached.snoc (.leave leaving), listens, .muted heard⟩
  | read hears next =>
      obtain rfl : listening = true := hears
      obtain rfl : channel = other.channel := heard rfl
      exact ⟨_, reached.snoc (.read listens next), listens, .muted fun _ => rfl⟩
  | deafen => exact ⟨other, reached, listens, .muted (by rintro ⟨⟩)⟩

/-- Once the task has failed, the shadow stays with the event it has to emit. -/
theorem shadowed_of_stranded (reached : Reaches sessionType other)
    (listens : other.listening = true) (stranded : Stranded other w)
    (step : Step sessionType w agent w') : Shadowed sessionType w' := by
  obtain ⟨books, corr, -⟩ := reached.invariants listens
  have out : w.task = .leaving ∨ w.task = .finished := stranded.task.imp_left And.left
  have running : other.task ≠ .finished := by
    obtain ⟨_, _, _, _, _, _, stuck⟩ := stranded.stuck
    rw [stuck]
    rintro ⟨⟩
  cases step with
  | call command handles =>
      exact ⟨_, reached.snoc (.call command (stranded.handles handles)), listens,
        .stranded (stranded.call command fun j => lt_of_holds corr books.queued)⟩
  | @send i request at_ sending runs room =>
      obtain ⟨before, had, trails, phase⟩ := stranded.phase_eq at_ (.inl sending)
      have queue : w.queue = other.queue := by
        rcases stranded.task with ⟨-, queue⟩ | finished
        · exact queue
        · exact absurd finished runs
      have step : Step sessionType other .client _ :=
        .send had (phase.trans sending) running (queue ▸ room)
      rw [← trails.command] at step
      exact ⟨_, reached.snoc step, listens, .stranded (stranded.send runs i request.command)⟩
  | sendFails at_ sending finished =>
      exact ⟨other, reached, listens, .stranded (stranded.fail at_ (.inl sending))⟩
  | @receive i request reply at_ awaiting sent =>
      obtain ⟨before, had, trails, phase⟩ := stranded.phase_eq at_ (.inr awaiting)
      have replied : before.oneshot = .sent reply := by
        rcases trails.oneshot with same | ⟨gone, -⟩
        · exact same.symm.trans sent
        · cases gone.symm.trans sent
      exact ⟨_, reached.snoc (.receive had (phase.trans awaiting) replied), listens,
        .stranded (stranded.move i _)⟩
  | receiveFails at_ awaiting dropped =>
      exact ⟨other, reached, listens, .stranded (stranded.fail at_ (.inr awaiting))⟩
  | @cancel i request at_ underWay =>
      obtain ⟨before, had, -, phase⟩ := stranded.phase_eq at_ underWay
      exact ⟨_, reached.snoc (.cancel had (phase ▸ underWay)), listens,
        .stranded (stranded.move i _)⟩
  | dropHandles idle =>
      exact ⟨other, reached, listens, .stranded { stranded with handles := by rintro ⟨⟩ }⟩
  | leave leaving =>
      exact ⟨other, reached, listens, .stranded (stranded.leave leaving corr)⟩
  | deafen => exact ⟨other, reached, listens, .stranded { stranded with deaf := rfl }⟩
  | read hears next => cases hears.symm.trans stranded.deaf
  | take task _ | hangUp task _ _ | emit task _ _ | emitFails task _ | answer task =>
      rw [task] at out
      rcases out with out | out
      · cases out
      · cases out

/-- Every session is shadowed by one whose receiver lives. -/
theorem Reaches.shadowed (reached : Reaches sessionType w) : Shadowed sessionType w := by
  obtain ⟨agents, run⟩ := reached
  generalize start : World.initial = first at run
  induction run with
  | nil =>
      subst start
      exact ⟨.initial, ⟨[], .nil⟩, rfl, .muted fun _ => rfl⟩
  | snoc run step ih =>
      obtain ⟨other, reached, listens, shadows⟩ := ih
      cases shadows with
      | muted heard => exact shadowed_of_muted reached listens heard step
      | stranded stranded => exact shadowed_of_stranded reached listens stranded step

/-! ### What a shadow tells -/

variable {i : Nat} {request : Request}

theorem Shadows.accepted (shadows : Shadows other w) : w.accepted = other.accepted := by
  cases shadows with
  | muted heard => rfl
  | stranded stranded => exact stranded.accepted

theorem Shadows.output (shadows : Shadows other w) : w.output = other.output := by
  cases shadows with
  | muted heard => rfl
  | stranded stranded => exact stranded.output

theorem Shadows.delivered (shadows : Shadows other w) : w.delivered = other.delivered := by
  cases shadows with
  | muted heard => rfl
  | stranded stranded => exact stranded.delivered

/-- An `Ok` has come back in the shadow too. -/
theorem Shadows.ok (shadows : Shadows other w) {value : Value}
    (at_ : w.requests[i]? = some request) (ok : request.phase = .returned (.ok value)) :
    ∃ before, other.requests[i]? = some before ∧ request.command = before.command ∧
      before.phase = .returned (.ok value) := by
  cases shadows with
  | muted heard => exact ⟨request, at_, rfl, ok⟩
  | stranded stranded =>
      obtain ⟨before, there, trails⟩ := stranded.counterpart at_
      refine ⟨before, there, trails.command, ?_⟩
      rcases trails.phase with same | ⟨-, error, failed⟩
      · exact same.symm.trans ok
      · cases failed.symm.trans ok

/-- A finished task leaves no reply channel open. -/
theorem Shadows.settled (shadows : Shadows other w) (books : Bookkeeping sessionType other)
    (corr : Correspondence other) (finished : w.task = .finished)
    (at_ : w.requests[i]? = some request) (awaiting : request.phase = .awaiting) :
    request.oneshot ≠ .empty := by
  intro empty
  cases shadows with
  | muted heard =>
      have each := corr.each i request at_
      rcases each.waiting (each.awaiting awaiting) empty with queued | serving
      · rw [books.drained finished] at queued
        cases queued
      · rw [show other.task = .finished from finished] at serving
        cases serving
  | stranded stranded =>
      obtain ⟨before, there, trails, phase⟩ := stranded.phase_eq at_ (.inr awaiting)
      have open_ : before.oneshot = .empty := by
        rcases trails.oneshot with same | ⟨-, open_⟩
        · exact same.symm.trans empty
        · exact open_
      have each := corr.each i before there
      have dropped : request.oneshot = .dropped := by
        rcases each.waiting (each.awaiting (phase.trans awaiting)) open_ with queued | serving
        · exact stranded.dropped i request at_ (.inr ⟨finished, queued⟩)
        · exact stranded.dropped i request at_ (.inl serving)
      cases empty.symm.trans dropped

end Shadows

/-! ### Sessions without a reader -/

section Deaf

variable {sessionType : SessionType} {w w' : World} {agent : Agent} {agents : List Agent}

theorem Step.silent (step : Step sessionType w agent w') (deaf : w.listening = false) :
    w'.listening = false ∧ eventsOf w'.output = eventsOf w.output ∧
      w'.delivered = w.delivered := by
  cases step with
  | emit _ listening _ => cases listening.symm.trans deaf
  | read listening _ => cases listening.symm.trans deaf
  | answer emitting =>
      refine ⟨deaf, ?_, rfl⟩
      simp [eventsOf]
  | deafen => exact ⟨rfl, rfl, rfl⟩
  | _ => exact ⟨deaf, rfl, rfl⟩

theorem Run.silent (run : Run sessionType w agents w') (deaf : w.listening = false) :
    w'.listening = false ∧ eventsOf w'.output = eventsOf w.output ∧
      w'.delivered = w.delivered := by
  induction run with
  | nil => exact ⟨deaf, rfl, rfl⟩
  | snoc run step ih =>
      obtain ⟨deaf', events, delivered⟩ := ih
      obtain ⟨deaf'', events', delivered'⟩ := step.silent deaf'
      exact ⟨deaf'', events'.trans events, delivered'.trans delivered⟩

/-- Without a reader no event channel can block the task. -/
theorem unblocked_of_deaf (sessionType : SessionType) (deaf : w.listening = false)
    (running : w.task ≠ .finished) :
    (∃ w', Step sessionType w .actor w') ∨
      ∃ actor, w.task = .receiving actor ∧ w.queue = [] ∧ w.handles = true := by
  cases task : w.task with
  | receiving actor =>
      cases next : w.queue with
      | cons head rest => exact .inl ⟨_, .take task next⟩
      | nil =>
          cases held : w.handles with
          | true => exact .inr ⟨actor, rfl, rfl, rfl⟩
          | false => exact .inl ⟨_, .hangUp task next held⟩
  | emitting actor i events reply closing =>
      cases events with
      | nil => exact .inl ⟨_, .answer task⟩
      | cons event events => exact .inl ⟨_, .emitFails task deaf⟩
  | leaving => exact .inl ⟨_, .leave task⟩
  | finished => exact absurd task running

/-- What holds of a session whether or not its event receiver lives. -/
structure Robust (sessionType : SessionType) (w : World) : Prop where
  ordered : w.output <+: (serve sessionType .initial (uptoClose w.accepted)).2
  delivered : w.delivered <+: eventsOf w.output
  /-- An `Ok` is for a command that counts, with the answer that the commands before it
  determine, and after all that these emit. -/
  observed : ∀ i request value, w.requests[i]? = some request →
    request.phase = .returned (.ok value) →
    ∃ before, before ++ [(i, request.command)] <+: uptoClose w.accepted ∧
      ((serve sessionType .initial before).1.process sessionType request.command).reply.value =
        .ok value ∧
      (serve sessionType .initial (before ++ [(i, request.command)])).2 <+: w.output
  silent : w.listening = false → ∀ agents w', Run sessionType w agents w' →
    eventsOf w'.output = eventsOf w.output ∧ w'.delivered = w.delivered
  /-- Without a reader the task waits for nothing but a command. -/
  unblocked : w.listening = false → w.task ≠ .finished →
    (∃ w', Step sessionType w .actor w') ∨
      ∃ actor, w.task = .receiving actor ∧ w.queue = [] ∧ w.handles = true
  /-- A task that is gone keeps no client waiting. -/
  answered : w.task = .finished → ∀ i request, w.requests[i]? = some request →
    request.phase = .sending ∨ request.phase = .awaiting →
    ∃ result, Step sessionType w .client (w.move i (.returned result))

/-- The receiver of the events may be dropped at any point of any interleaving. -/
theorem sessions_robust (reached : Reaches sessionType w) : Robust sessionType w := by
  obtain ⟨other, lives, listens, shadows⟩ := reached.shadowed
  obtain ⟨books, corr, answered⟩ := lives.invariants listens
  constructor
  case ordered =>
    rw [shadows.output, shadows.accepted]
    exact books.ordered
  case delivered =>
    rw [shadows.delivered, shadows.output, ← books.emitted]
    exact List.prefix_append _ _
  case observed =>
    intro i request value at_ ok
    obtain ⟨before, there, same, ok⟩ := shadows.ok at_ ok
    obtain ⟨reply, sent, value⟩ := (corr.each i before there).returned value ok
    obtain ⟨earlier, counts, rfl, output⟩ := answered.reply books corr there sent
    rw [same, shadows.accepted, shadows.output]
    exact ⟨earlier, counts, value, output⟩
  case silent => exact fun deaf agents w' run => (run.silent deaf).2
  case unblocked => exact unblocked_of_deaf sessionType
  case answered =>
    intro finished i request at_ underWay
    rcases underWay with sending | awaiting
    · exact ⟨_, .sendFails at_ sending finished⟩
    · have settled := shadows.settled books corr finished at_ awaiting
      cases oneshot : request.oneshot with
      | empty => exact absurd oneshot settled
      | sent reply => exact ⟨_, .receive at_ awaiting oneshot⟩
      | dropped => exact ⟨_, .receiveFails at_ awaiting oneshot⟩

/-- A position is answered without a reader; `close` has an event to emit, fails, and
takes the `start` behind it along. -/
theorem sessions_robust_close_unheard :
    ∃ w, Reaches .leUnicastSoftwareEncoding w ∧ w.listening = false ∧ w.output.length = 1 ∧
      w.requests.map Request.phase =
        [.returned (.ok (.position default)), .returned (.error "session dropped close response"),
          .returned (.error "session dropped command response")] ∧
      Robust .leUnicastSoftwareEncoding w := by
  have spawned : Run .leUnicastSoftwareEncoding .initial [] .initial := .nil
  have called := spawned |>.snoc (.call .getPosition rfl) |>.snoc (.call .close rfl)
    |>.snoc (.call .start rfl) |>.snoc .deafen
  have queued := called |>.snoc (.send (i := 0) rfl rfl (by rintro ⟨⟩) (by decide))
    |>.snoc (.send (i := 1) rfl rfl (by rintro ⟨⟩) (by decide))
    |>.snoc (.send (i := 2) rfl rfl (by rintro ⟨⟩) (by decide))
  have served := queued |>.snoc (.take rfl rfl) |>.snoc (.answer rfl) |>.snoc (.take rfl rfl)
    |>.snoc (.emitFails rfl rfl) |>.snoc (.leave rfl)
  have returned := served |>.snoc (.receive (i := 0) rfl rfl rfl)
    |>.snoc (.receiveFails (i := 1) rfl rfl rfl) |>.snoc (.receiveFails (i := 2) rfl rfl rfl)
  exact ⟨_, ⟨_, returned⟩, rfl, rfl, rfl, sessions_robust ⟨_, returned⟩⟩

end Deaf

end Dorsche.Wireless.Session
