import Dorsche.Lib.Ensure

/-!
Request and reply between tasks: an inbox of requests in order, and for each
request a channel for its one reply. A request is named by the position of its
reply channel. A server takes requests from the front of the inbox and answers
them; when it goes, it drops its inbox with the reply senders that are still in it.

A call of a client is `Served` while nothing stands between it and its reply.
-/

namespace Dorsche.Lib

/-- The channel for one reply. -/
inductive Exchange.Oneshot (A : Type) where
  | empty
  | sent (answer : A)
  | dropped
deriving DecidableEq, Repr

structure Exchange (Q A : Type) where
  inbox : List (Nat × Q)
  replies : List (Exchange.Oneshot A)
deriving DecidableEq, Repr

/-- How far a call has come: its request waits for room in the inbox, or is in. -/
inductive Exchange.Call (Q : Type) where
  | sending (request : Q)
  | awaiting (i : Nat)
deriving DecidableEq, Repr

namespace Exchange

variable {Q A : Type} {x : Exchange Q A} {i : Nat} {q : Q} {a : A} {call : Call Q}

def empty : Exchange Q A := ⟨[], []⟩

def send (x : Exchange Q A) (q : Q) : Exchange Q A :=
  ⟨x.inbox ++ [(x.replies.length, q)], x.replies ++ [.empty]⟩

/-- The server answers the request at the front. -/
def answer (x : Exchange Q A) (a : A) : Exchange Q A :=
  match x.inbox with
  | [] => x
  | (i, _) :: rest => ⟨rest, x.replies.set i (.sent a)⟩

/-- Dropping the sender of a reply that was sent changes nothing. -/
def Oneshot.drop : Oneshot A → Oneshot A
  | .empty => .dropped
  | reply => reply

/-- The server goes. -/
def close (x : Exchange Q A) : Exchange Q A :=
  ⟨[], x.replies.mapIdx fun i reply => if i ∈ x.inbox.map Prod.fst then reply.drop else reply⟩

/-- The request is in the inbox and has no reply. -/
def Pending (x : Exchange Q A) (i : Nat) : Prop :=
  i ∈ x.inbox.map Prod.fst ∧ x.replies[i]? = some .empty

def Answered (x : Exchange Q A) (i : Nat) : Prop :=
  ∃ a, x.replies[i]? = some (.sent a)

/-- The call has no reply yet. -/
def Open (x : Exchange Q A) : Call Q → Prop
  | .sending _ => True
  | .awaiting i => ¬ x.Answered i

/-- The call gets its reply from a server that is there, if it is open at all. -/
def Served (x : Exchange Q A) (server : Prop) : Call Q → Prop
  | .sending _ => server
  | .awaiting i => x.Answered i ∨ x.Pending i ∧ server

theorem served_send (server : Prop) (there : server) :
    (x.send q).Served server (.awaiting x.replies.length) := by
  right
  constructor
  · constructor <;> simp [send]
  · exact there

theorem Served.answer {server : Prop} (served : x.Served server call) :
    (x.answer a).Served server call := by
  cases call with
  | sending q => exact served
  | awaiting i =>
    unfold Exchange.answer
    cases inbox : x.inbox with
    | nil => exact served
    | cons front rest =>
      obtain ⟨j, q⟩ := front
      rcases served with ⟨a', sent⟩ | ⟨⟨queued, unsent⟩, there⟩
      · -- a reply that was sent is sent still, whoever is answered
        left
        by_cases same : j = i
        · exact ⟨a, by simp [same, (List.getElem?_eq_some_iff.1 sent).1]⟩
        · exact ⟨a', by simp [List.getElem?_set_ne same, sent]⟩
      · by_cases same : j = i
        · left
          exact ⟨a, by simp [same, (List.getElem?_eq_some_iff.1 unsent).1]⟩
        · right
          rw [inbox] at queued
          simp only [List.map_cons, List.mem_cons] at queued
          have later : i ∈ rest.map Prod.fst := queued.resolve_left (Ne.symm same)
          exact ⟨⟨later, by simp [List.getElem?_set_ne same, unsent]⟩, there⟩

theorem sent_of_send {a' : A} (sent : (x.send q).replies[i]? = some (.sent a')) :
    x.replies[i]? = some (.sent a') := by
  simp only [send, List.getElem?_append] at sent
  split at sent
  · exact sent
  · simp [List.getElem?_singleton] at sent

theorem sent_of_answer {a' : A} (sent : (x.answer a).replies[i]? = some (.sent a')) :
    x.replies[i]? = some (.sent a') ∨ a' = a := by
  unfold answer at sent
  cases inbox : x.inbox with
  | nil =>
    left
    simpa [inbox] using sent
  | cons front rest =>
    simp only [inbox, List.getElem?_set] at sent
    split at sent
    · right
      split at sent
      · cases sent
        rfl
      · cases sent
    · exact .inl sent

theorem sent_of_close {a' : A} (sent : x.close.replies[i]? = some (.sent a')) :
    x.replies[i]? = some (.sent a') := by
  simp only [close, List.getElem?_mapIdx, Option.map_eq_some_iff] at sent
  obtain ⟨reply, at_, kept⟩ := sent
  rw [at_]
  split at kept
  · cases reply with
    | empty => cases kept
    | sent a' => exact congrArg some kept
    | dropped => cases kept
  · exact congrArg some kept

/-- The reply is there to be received. -/
def replied (x : Exchange Q A) (i : Nat) : Bool :=
  match x.replies[i]? with
  | some (.sent _) => true
  | _ => false

theorem replied_of_sent (sent : x.replies[i]? = some (.sent a)) : x.replied i = true := by
  simp only [replied, sent]

theorem replied_of_dropped (dropped : x.replies[i]? = some .dropped) : x.replied i = false := by
  simp only [replied, dropped]

theorem replied_send : (x.send q).replied x.replies.length = false := by
  simp [replied, send]

theorem replied_of_close (there : x.close.replied i = true) : x.replied i = true := by
  unfold replied at there
  split at there
  · rename_i sent
    exact replied_of_sent (sent_of_close sent)
  · cases there

/-- A call with its reply does not mind that the server goes. -/
theorem Served.close {server server' : Prop} (served : x.Served server call)
    (done : ¬ x.Open call) : x.close.Served server' call := by
  cases call with
  | sending q => exact absurd trivial done
  | awaiting i =>
    obtain ⟨a, sent⟩ := not_not.1 done
    left
    refine ⟨a, ?_⟩
    simp only [Exchange.close, List.getElem?_mapIdx, sent, Option.map_some, Option.some.injEq]
    split <;> rfl

theorem Served.not_dropped {server : Prop} (served : x.Served server (.awaiting i)) :
    x.replies[i]? ≠ some .dropped := by
  rcases served with ⟨a, sent⟩ | ⟨⟨_, unsent⟩, _⟩
  · rw [sent]
    rintro ⟨⟩
  · rw [unsent]
    rintro ⟨⟩

/-- The call will not wait for ever: it has its reply, has lost it, or is with a server
that is there. -/
def Attended (x : Exchange Q A) (server : Prop) : Call Q → Prop
  | .sending _ => True
  | .awaiting i => x.Answered i ∨ x.replies[i]? = some .dropped ∨ x.Pending i ∧ server

theorem Served.attended {server : Prop} (served : x.Served server call) :
    x.Attended server call := by
  cases call with
  | sending q => trivial
  | awaiting i => exact served.imp_right .inr

theorem Attended.answer {server : Prop} (attended : x.Attended server call) :
    (x.answer a).Attended server call := by
  cases call with
  | sending q => trivial
  | awaiting i =>
    rcases attended with sent | dropped | pending
    · have served : x.Served server (.awaiting i) := .inl sent
      exact served.answer.attended
    · unfold Exchange.answer
      cases inbox : x.inbox with
      | nil => exact .inr (.inl dropped)
      | cons front rest =>
        by_cases same : front.1 = i
        · left
          exact ⟨a, by simp [same, (List.getElem?_eq_some_iff.1 dropped).1]⟩
        · right
          left
          simp [List.getElem?_set_ne same, dropped]
    · have served : x.Served server (.awaiting i) := .inr pending
      exact served.answer.attended

/-- A call that was open when the server went never gets a reply. -/
theorem Served.dropped {server : Prop} (served : x.Served server (.awaiting i))
    (unanswered : x.Open (.awaiting i)) : x.close.replies[i]? = some .dropped := by
  obtain ⟨queued, unsent⟩ := (served.resolve_left unanswered).1
  simp only [Exchange.close, List.getElem?_mapIdx, unsent, Option.map_some, Option.some.injEq]
  rw [if_pos queued]
  rfl

theorem Attended.close {server server' : Prop} (attended : x.Attended server call) :
    x.close.Attended server' call := by
  cases call with
  | sending q => trivial
  | awaiting i =>
    rcases attended with sent | dropped | pending
    · have served : x.Served server (.awaiting i) := .inl sent
      exact (served.close (not_not.2 sent)).attended
    · right
      left
      simp only [Exchange.close, List.getElem?_mapIdx, dropped, Option.map_some,
        Option.some.injEq]
      split <;> rfl
    · right
      left
      refine Served.dropped (.inr pending) ?_
      rintro ⟨a, sent⟩
      cases sent.symm.trans pending.1.2

end Exchange

end Dorsche.Lib
