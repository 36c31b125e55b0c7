import Dorsche.Wireless.Session.Actor
import Mathlib.Data.List.Infix

/-!
Presentation positions of one streaming epoch.

The actor keeps one position, across `Suspend`, `Start` and `Configure`, and
forgets it with `Stop`. An epoch is a stretch of the events without a return to
`Idle`: `Reported` are the positions of the epoch that is under way, and the stored
position is the greatest of them. So what the actor compares an update with is
what an observer of the events would compare it with.
-/

namespace Dorsche.Wireless.Session

open Dorsche.Lib

variable {α : Type} {sessionType : SessionType} {actor : Actor} {events : List SessionEvent}

/-! ### Epochs -/

/-- The positions among some events. -/
def positionsOf (events : List SessionEvent) : List PresentationPosition :=
  events.filterMap fun
    | .positionChanged position => some position
    | _ => none

/-- Neither the clock nor the octet counter goes back. -/
def Precedes (earlier later : PresentationPosition) : Prop :=
  earlier.monotonicTimeNs ≤ later.monotonicTimeNs ∧
    earlier.transmittedOctets ≤ later.transmittedOctets

/-- The positions of an epoch are in order, and an offloaded session has
transmitted no octets. -/
structure Ordered (sessionType : SessionType) (epoch : List SessionEvent) : Prop where
  monotone : (positionsOf epoch).Pairwise Precedes
  offloaded : sessionType.isOffloaded = true →
    ∀ position ∈ positionsOf epoch, position.transmittedOctets = 0

/-- A position of the epoch that is under way after some events. -/
def Reported (events : List SessionEvent) (position : PresentationPosition) : Prop :=
  ∃ epoch, epoch <:+ events ∧ .stateChanged .idle ∉ epoch ∧ position ∈ positionsOf epoch

/-- An update that keeps the order of the epoch. -/
structure Respects (sessionType : SessionType) (events : List SessionEvent)
    (next : PresentationPosition) : Prop where
  follows : ∀ position, Reported events position → Precedes position next
  offloaded : sessionType.isOffloaded = true → next.transmittedOctets = 0

theorem Precedes.trans {a b c : PresentationPosition} (ab : Precedes a b) (bc : Precedes b c) :
    Precedes a c :=
  ⟨UInt64.le_trans ab.1 bc.1, UInt64.le_trans ab.2 bc.2⟩

theorem precedes_refl (position : PresentationPosition) : Precedes position position :=
  ⟨UInt64.le_refl _, UInt64.le_refl _⟩

theorem default_precedes (position : PresentationPosition) : Precedes default position :=
  ⟨UInt64.zero_le, UInt64.zero_le⟩

/-! ### One more event -/

/-- The events so far are ordered epoch by epoch, and `top` is the greatest position
of the one under way. -/
structure Tracks (sessionType : SessionType) (events : List SessionEvent)
    (top : PresentationPosition) : Prop where
  ordered : ∀ epoch, epoch <:+: events → .stateChanged .idle ∉ epoch → Ordered sessionType epoch
  bounds : ∀ position, Reported events position → Precedes position top
  attained : top = default ∨ Reported events top

theorem ordered_nil : Ordered sessionType [] := ⟨.nil, fun _ _ mem => by cases mem⟩

theorem not_reported_nil {position : PresentationPosition} : ¬ Reported [] position := by
  rintro ⟨epoch, suffix, -, mem⟩
  rw [List.suffix_nil.mp suffix] at mem
  cases mem

theorem tracks_nil : Tracks sessionType [] default where
  ordered _ infix_ _ := List.infix_nil.mp infix_ ▸ ordered_nil
  bounds _ reported := absurd reported not_reported_nil
  attained := .inl rfl

theorem positionsOf_snoc (epoch : List SessionEvent) (event : SessionEvent) :
    positionsOf (epoch ++ [event]) = positionsOf epoch ++ positionsOf [event] :=
  List.filterMap_append

theorem mem_positionsOf_singleton {event : SessionEvent} {position : PresentationPosition} :
    position ∈ positionsOf [event] ↔ event = .positionChanged position := by
  cases event <;> simp [positionsOf, eq_comm]

/-- A position is reported in the epoch of an event if the event reports it or, unless
the event ends the epoch, it was reported before. -/
theorem reported_snoc {event : SessionEvent} {position : PresentationPosition} :
    Reported (events ++ [event]) position ↔ event ≠ .stateChanged .idle ∧
      (event = .positionChanged position ∨ Reported events position) := by
  constructor
  · rintro ⟨epoch, suffix, inside, mem⟩
    obtain rfl | ⟨earlier, rfl, ends⟩ := List.suffix_concat_iff.mp suffix
    · cases mem
    · rw [positionsOf_snoc, List.mem_append, mem_positionsOf_singleton] at mem
      rw [List.mem_append, List.mem_singleton, not_or] at inside
      exact ⟨Ne.symm inside.2, mem.symm.imp_right fun mem => ⟨earlier, ends, inside.1, mem⟩⟩
  · rintro ⟨inside, rfl | ⟨epoch, suffix, insides, mem⟩⟩
    · exact ⟨[.positionChanged position], List.suffix_append _ _, by simp, by simp [positionsOf]⟩
    · refine ⟨epoch ++ [event], ?_, ?_, ?_⟩
      · obtain ⟨earlier, rfl⟩ := suffix
        exact ⟨earlier, (List.append_assoc _ _ _).symm⟩
      · rw [List.mem_append, List.mem_singleton, not_or]
        exact ⟨insides, inside.symm⟩
      · rw [positionsOf_snoc]
        exact List.mem_append_left _ mem

/-- The epochs after one more event are the old ones, and the one under way with
the event. -/
theorem Tracks.ordered_snoc {top : PresentationPosition} {event : SessionEvent}
    (tracks : Tracks sessionType events top)
    (last : ∀ epoch, epoch <:+ events → .stateChanged .idle ∉ epoch →
      event ≠ .stateChanged .idle → Ordered sessionType (epoch ++ [event])) :
    ∀ epoch, epoch <:+: events ++ [event] → .stateChanged .idle ∉ epoch →
      Ordered sessionType epoch := by
  intro epoch inside idle
  obtain suffix | old := List.infix_concat_iff.mp inside
  · obtain rfl | ⟨earlier, rfl, ends⟩ := List.suffix_concat_iff.mp suffix
    · exact ordered_nil
    · rw [List.mem_append, List.mem_singleton, not_or] at idle
      exact last earlier ends idle.1 (Ne.symm idle.2)
  · exact tracks.ordered epoch old idle

/-- An event that says nothing about the position. -/
theorem Tracks.quiet {top : PresentationPosition} {event : SessionEvent}
    (tracks : Tracks sessionType events top) (inside : event ≠ .stateChanged .idle)
    (silent : positionsOf [event] = []) : Tracks sessionType (events ++ [event]) top := by
  have same {position : PresentationPosition} :
      Reported (events ++ [event]) position ↔ Reported events position := by
    rw [reported_snoc, ← mem_positionsOf_singleton, silent]
    simp [inside]
  refine ⟨tracks.ordered_snoc fun epoch suffix idle _ => ?_, fun position reported => ?_, ?_⟩
  · obtain ⟨monotone, offloaded⟩ := tracks.ordered epoch suffix.isInfix idle
    have none : positionsOf (epoch ++ [event]) = positionsOf epoch := by
      rw [positionsOf_snoc, silent, List.append_nil]
    exact ⟨none ▸ monotone, none ▸ offloaded⟩
  · exact tracks.bounds position (same.mp reported)
  · exact tracks.attained.imp_right same.mpr

/-- The end of an epoch. -/
theorem Tracks.idle {top : PresentationPosition} (tracks : Tracks sessionType events top) :
    Tracks sessionType (events ++ [.stateChanged .idle]) default where
  ordered := tracks.ordered_snoc fun _ _ _ ends => absurd rfl ends
  bounds _ reported := absurd rfl (reported_snoc.mp reported).1
  attained := .inl rfl

/-- A position that follows the greatest one. -/
theorem Tracks.position {top next : PresentationPosition}
    (tracks : Tracks sessionType events top) (follows : Precedes top next)
    (offloaded : sessionType.isOffloaded = true → next.transmittedOctets = 0) :
    Tracks sessionType (events ++ [.positionChanged next]) next where
  ordered := by
    refine tracks.ordered_snoc fun epoch suffix idle _ => ?_
    obtain ⟨monotone, zero⟩ := tracks.ordered epoch suffix.isInfix idle
    have grows : positionsOf (epoch ++ [.positionChanged next]) = positionsOf epoch ++ [next] :=
      positionsOf_snoc _ _
    refine ⟨grows ▸ List.pairwise_append.mpr ⟨monotone, List.pairwise_singleton _ _, ?_⟩, ?_⟩
    · intro position mem later last
      rw [List.mem_singleton.mp last]
      exact (tracks.bounds position ⟨epoch, suffix, idle, mem⟩).trans follows
    · intro offload position mem
      rw [grows, List.mem_append, List.mem_singleton] at mem
      rcases mem with mem | rfl
      · exact zero offload position mem
      · exact offloaded offload
  bounds := by
    intro position reported
    rcases (reported_snoc.mp reported).2 with same | reported
    · cases same
      exact precedes_refl next
    · exact (tracks.bounds position reported).trans follows
  attained := .inr (reported_snoc.mpr ⟨by simp, .inl rfl⟩)

/-! ### Turns and runs -/

/-- What `checkOctets` asks, next to the check of the clock. -/
theorem checkOctets_eq_ok {next : PresentationPosition} :
    actor.checkOctets sessionType next = .ok () ↔
      (sessionType.isOffloaded = false →
        actor.position.transmittedOctets ≤ next.transmittedOctets) ∧
      (sessionType.isOffloaded = true → next.transmittedOctets = 0) := by
  cases offloaded : sessionType.isOffloaded <;>
    simp [Actor.checkOctets, SessionType.carriesHostPayload, offloaded]

theorem Tracks.offloaded {top : PresentationPosition} (tracks : Tracks sessionType events top)
    (offloaded : sessionType.isOffloaded = true) : top.transmittedOctets = 0 := by
  rcases tracks.attained with rfl | ⟨epoch, suffix, idle, mem⟩
  · rfl
  · exact (tracks.ordered epoch suffix.isInfix idle).offloaded offloaded top mem

/-- The checks of an update keep the order. -/
theorem Tracks.precedes {next : PresentationPosition}
    (tracks : Tracks sessionType events actor.position)
    (clock : actor.position.monotonicTimeNs ≤ next.monotonicTimeNs)
    (octets : actor.checkOctets sessionType next = .ok ()) : Precedes actor.position next := by
  refine ⟨clock, ?_⟩
  cases offload : sessionType.isOffloaded with
  | false => exact (checkOctets_eq_ok.mp octets).1 offload
  | true =>
      rw [tracks.offloaded offload]
      exact UInt64.zero_le

/-- One turn of the actor. -/
theorem Tracks.process (tracks : Tracks sessionType events actor.position) (command : Command) :
    Tracks sessionType (events ++ (actor.process sessionType command).events)
      (actor.process sessionType command).actor.position := by
  have turn := handles sessionType actor command
  generalize actor.process sessionType command = handled at turn
  cases turn with
  | refused => rwa [List.append_nil]
  | getPosition => rwa [List.append_nil]
  | configure ready valid =>
      change Tracks sessionType (events ++ [_, _]) actor.position
      rw [List.append_cons]
      exact (tracks.quiet (by simp) rfl).quiet (by simp) rfl
  | start configured ready => exact tracks.quiet (by simp) rfl
  | suspend streaming => exact tracks.quiet (by simp) rfl
  | stop running => exact tracks.idle
  | close => exact tracks.quiet (by simp) rfl
  | updatePosition streaming clock octets =>
      exact tracks.position (tracks.precedes clock octets) (checkOctets_eq_ok.mp octets).2

/-- A whole run of the actor, by induction on the commands. -/
theorem Tracks.serve (tracks : Tracks sessionType events actor.position)
    (commands : List (α × Command)) :
    Tracks sessionType (events ++ eventsOf (serve sessionType actor commands).2)
      (serve sessionType actor commands).1.position := by
  induction commands generalizing actor events with
  | nil =>
      change Tracks sessionType (events ++ []) actor.position
      rwa [List.append_nil]
  | cons head rest ih =>
      obtain ⟨sender, command⟩ := head
      have next := tracks.process command
      by_cases closes : command = .close
      · subst closes
        rw [serve_close, eventsOf_outputs]
        exact next
      · rw [serve_cons closes, eventsOf_append, eventsOf_outputs, ← List.append_assoc]
        exact ih next

theorem tracks_serve (sessionType : SessionType) (commands : List (α × Command)) :
    Tracks sessionType (eventsOf (serve sessionType .initial commands).2)
      (serve sessionType .initial commands).1.position := by
  have first : Tracks sessionType [] Actor.initial.position := tracks_nil
  have run := first.serve commands
  rwa [List.nil_append] at run

/-! ### Updates -/

/-- The actor compares an update with its stored position, and an observer with all
positions of the epoch: both find the same. -/
theorem Tracks.respects_iff {next : PresentationPosition}
    (tracks : Tracks sessionType events actor.position) :
    Respects sessionType events next ↔
      actor.position.monotonicTimeNs ≤ next.monotonicTimeNs ∧
        actor.checkOctets sessionType next = .ok () := by
  constructor
  · rintro ⟨follows, offloaded⟩
    have above : Precedes actor.position next := by
      rcases tracks.attained with initial | reported
      · rw [initial]
        exact default_precedes next
      · exact follows _ reported
    exact ⟨above.1, checkOctets_eq_ok.mpr ⟨fun _ => above.2, offloaded⟩⟩
  · rintro ⟨clock, octets⟩
    refine ⟨fun position reported => ?_, (checkOctets_eq_ok.mp octets).2⟩
    exact (tracks.bounds position reported).trans (tracks.precedes clock octets)

/-- An update is accepted in a streaming session if it keeps the order, and refused
without effect otherwise. -/
theorem Tracks.updatePosition {next : PresentationPosition}
    (tracks : Tracks sessionType events actor.position) :
    (actor.state = .streaming ∧ Respects sessionType events next →
      actor.updatePosition sessionType next =
        ⟨{ actor with position := next }, [.positionChanged next], .done (.ok ())⟩) ∧
    (¬ (actor.state = .streaming ∧ Respects sessionType events next) →
      ∃ error, actor.updatePosition sessionType next = ⟨actor, [], .done (.error error)⟩) := by
  rw [tracks.respects_iff]
  constructor
  · rintro ⟨streaming, clock, octets⟩
    rw [Actor.updatePosition, ensure, if_pos streaming, ensure, if_pos clock, octets]
    rfl
  · intro violates
    have turn := handles sessionType actor (.updatePosition next)
    generalize same : actor.process sessionType (.updatePosition next) = handled at turn
    cases turn with
    | refused => exact ⟨_, same⟩
    | updatePosition streaming clock octets => exact absurd ⟨streaming, clock, octets⟩ violates

/-- The positions of a session are in order as far as it goes without a return to
`Idle`. An update is accepted exactly when the session is streaming and the update
keeps the order; another one gets an error and leaves everything that follows as it
would have been. -/
structure PositionLaw (sessionType : SessionType) (commands : List (α × Command)) : Prop where
  ordered : ∀ before epoch after,
    eventsOf (serve sessionType .initial commands).2 = before ++ epoch ++ after →
    .stateChanged .idle ∉ epoch → Ordered sessionType epoch
  accepted : (∀ request ∈ commands, request.2 ≠ .close) → ∀ sender next,
    (serve sessionType .initial commands).1.state = .streaming →
    Respects sessionType (eventsOf (serve sessionType .initial commands).2) next →
    (serve sessionType .initial (commands ++ [(sender, .updatePosition next)])).2 =
      (serve sessionType .initial commands).2 ++
        [.event (.positionChanged next), .reply sender (.done (.ok ()))]
  refused : (∀ request ∈ commands, request.2 ≠ .close) → ∀ sender next,
    ¬ ((serve sessionType .initial commands).1.state = .streaming ∧
      Respects sessionType (eventsOf (serve sessionType .initial commands).2) next) →
    ∃ error, ∀ later, ∃ outputs,
      (serve sessionType .initial (commands ++ later)).2 =
        (serve sessionType .initial commands).2 ++ outputs ∧
      serve sessionType .initial (commands ++ (sender, .updatePosition next) :: later) =
        ((serve sessionType .initial (commands ++ later)).1,
          (serve sessionType .initial commands).2 ++
            .reply sender (.done (.error error)) :: outputs)

/-- In every session and for every sequence of commands. -/
theorem position_monotone (sessionType : SessionType) (commands : List (α × Command)) :
    PositionLaw sessionType commands where
  ordered before epoch after split idle :=
    (tracks_serve sessionType commands).ordered epoch ⟨before, after, split.symm⟩ idle
  accepted beforeClose sender next streaming respects := by
    have update := (tracks_serve sessionType commands).updatePosition.1 ⟨streaming, respects⟩
    rw [serve_snoc beforeClose]
    exact congrArg (_ ++ Handled.outputs · sender) update
  refused beforeClose sender next violates := by
    obtain ⟨error, update⟩ := (tracks_serve sessionType commands).updatePosition.2 violates
    refine ⟨error, fun later => ?_⟩
    generalize known : serve sessionType .initial commands = run at update ⊢
    refine ⟨(serve sessionType run.1 later).2, ?_, ?_⟩
    · rw [serve_append _ beforeClose, known]
    · have turn : run.1.process sessionType (.updatePosition next) =
          ⟨run.1, [], .done (.error error)⟩ := update
      rw [serve_append _ beforeClose, serve_append _ beforeClose, known,
        serve_cons (by simp), turn]
      rfl

/-- A position, a suspension, another configuration and a later position. -/
theorem position_monotone_reconfiguring :
    let resumed := reconfiguring ++ [(5, .start), (6, .updatePosition ⟨0, 100, 11⟩)]
    (positionsOf (eventsOf (serve .leUnicastSoftwareEncoding .initial resumed).2)) =
        [⟨20000000, 100, 10⟩, ⟨0, 100, 11⟩] ∧
      Ordered .leUnicastSoftwareEncoding
        (eventsOf (serve .leUnicastSoftwareEncoding .initial resumed).2) := by
  refine ⟨by decide +kernel, ?_⟩
  exact (position_monotone .leUnicastSoftwareEncoding _).ordered [] _ []
    (List.append_nil _).symm (by decide +kernel)

end Dorsche.Wireless.Session
