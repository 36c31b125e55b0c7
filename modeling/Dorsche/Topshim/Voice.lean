import Dorsche.Topshim.Actors
import Mathlib.Data.List.Infix
import Mathlib.Logic.Relation

/-!
The voice detector (`run_vad_ai` in `src/topshim/actors.rs`).

What the detector does depends on the echo references and frames in the order in
which it receives them. `judge` is what it makes of a frame. A `BargeIn` is attempted
only at the first frame of a stretch of speech, so an echo that is aligned only with
a later frame of the stretch does not count.
-/

namespace Dorsche.Topshim.Actors

open Dorsche.Lib

variable {Pcm Samples : Type}

/-- The variables of `run_vad_ai`. -/
structure Listener (Pcm : Type) where
  latestEcho : Option (EchoReference Pcm)
  speechActive : Bool
deriving DecidableEq, Repr

/-- A frame as the detector judged it: with an aligned echo, as speech, and as a
reason for a `BargeIn`. -/
structure Judgement where
  aligned : Bool
  speaking : Bool
  bargesIn : Bool
deriving DecidableEq, Repr

namespace Listener

def initial : Listener Pcm := ⟨none, false⟩

section

variable (speaking : AudioFrame Samples → Option (EchoReference Pcm) → Bool)

def judge (self : Listener Pcm) (frame : AudioFrame Samples) : Judgement :=
  let echo := alignedEcho self.latestEcho frame
  let speaks := speaking frame echo
  ⟨echo.isSome, speaks, speaks && !self.speechActive && echo.isSome⟩

def receive (self : Listener Pcm) : Heard Pcm Samples → Listener Pcm
  | .echo echo => { self with latestEcho := some echo }
  | .frame frame => { self with speechActive := (self.judge speaking frame).speaking }

/-- The judgements of the frames among what is received. -/
def judgements (self : Listener Pcm) : List (Heard Pcm Samples) → List Judgement
  | [] => []
  | .echo echo :: rest => judgements (self.receive speaking (.echo echo)) rest
  | .frame frame :: rest =>
      self.judge speaking frame :: judgements (self.receive speaking (.frame frame)) rest

end

end Listener

/-! ### The detector in the graph -/

def Vad.listener : Vad Pcm → Option (Listener Pcm)
  | .atShutdown latestEcho speechActive | .atEcho latestEcho speechActive
  | .atMicrophone latestEcho speechActive => some ⟨latestEcho, speechActive⟩
  | .ended _ => none

/-- The interrupts after the detector has received something. -/
def World.heard (w : World Pcm Samples)
    (speaking : AudioFrame Samples → Option (EchoReference Pcm) → Bool) (listener : Listener Pcm) :
    Heard Pcm Samples → List BargeIn
  | .echo _ => w.barges
  | .frame frame => w.bargeIn frame (listener.judge speaking frame).bargesIn

variable {speaking : AudioFrame Samples → Option (EchoReference Pcm) → Bool}
  {w w' : World Pcm Samples} {event : Event Pcm Samples}

/-- A step of the graph in which the detector receives nothing leaves its variables,
or ends it, and adds no interrupt; in any other it receives an echo or a frame. -/
theorem Step.listener (step : Step speaking w event w') :
    (w'.vad.listener = w.vad.listener ∨ w'.vad.listener = none) ∧ w'.barges <:+ w.barges ∨
      ∃ listener heard, w.vad.listener = some listener ∧
        w'.vad.listener = some (listener.receive speaking heard) ∧
        w'.barges = w.heard speaking listener heard := by
  cases step with
  | @vadEcho latestEcho speechActive echo rest at_ next =>
      refine .inr ⟨⟨latestEcho, speechActive⟩, .echo echo, ?_, rfl, rfl⟩
      rw [at_]
      rfl
  | @vadFrame latestEcho speechActive frame rest at_ next =>
      refine .inr ⟨⟨latestEcho, speechActive⟩, .frame frame, ?_, rfl, rfl⟩
      rw [at_]
      rfl
  | vadLeave | vadPanics => exact .inl ⟨.inr rfl, List.suffix_rfl⟩
  | vadGoOn at_ =>
      rw [at_]
      exact .inl ⟨.inl rfl, List.suffix_rfl⟩
  | vadNoEcho at_ =>
      rw [at_]
      exact .inl ⟨.inl rfl, List.suffix_rfl⟩
  | vadNoFrame at_ =>
      rw [at_]
      exact .inl ⟨.inl rfl, List.suffix_rfl⟩
  | playbackBarge at_ next =>
      rw [next]
      exact .inl ⟨.inl rfl, List.suffix_cons _ _⟩
  | playbackLeave | playbackPanics => exact .inl ⟨.inl rfl, List.nil_suffix⟩
  | playbackSendFails => exact .inl ⟨.inl rfl, List.nil_suffix⟩
  | playbackReceiveFails => exact .inl ⟨.inl rfl, List.nil_suffix⟩
  | playbackMirrorFails => exact .inl ⟨.inl rfl, List.nil_suffix⟩
  | _ => exact .inl ⟨.inl rfl, List.suffix_rfl⟩

/-- In every run of the graph the detector is where some received echoes and frames
have brought it. -/
theorem World.vad_listens
    (reached : Relation.ReflTransGen (fun w w' => ∃ event, Step speaking w event w') .initial w) :
    ∃ heard : List (Heard Pcm Samples), w.vad.listener =
      some (heard.foldl (Listener.receive speaking) .initial) ∨ w.vad.listener = none := by
  induction reached with
  | refl => exact ⟨[], .inl rfl⟩
  | tail _ step ih =>
      obtain ⟨heard, known⟩ := ih
      obtain ⟨event, step⟩ := step
      rcases step.listener with ⟨same | gone, -⟩ | ⟨listener, next, before, after, -⟩
      · exact ⟨heard, same ▸ known⟩
      · exact ⟨heard, .inr gone⟩
      · rw [before] at known
        rcases known with known | known
        · refine ⟨heard ++ [next], .inl ?_⟩
          rw [after, List.foldl_append, Option.some.inj known]
          rfl
        · cases known

/-! ### Stretches of speech -/

/-- A longest stretch of frames that are judged as speech. -/
structure Stretch (before run after : List Judgement) : Prop where
  nonempty : run ≠ []
  speaking : ∀ j ∈ run, j.speaking = true
  starts : ∀ j, before.getLast? = some j → j.speaking = false
  ends : ∀ j, after.head? = some j → j.speaking = false

/-- One attempt in a stretch in which some frame has an aligned echo, none in any
other stretch and none outside. -/
structure BargeInLaw (judged : List Judgement) : Prop where
  once : ∀ before run after, judged = before ++ run ++ after → Stretch before run after →
    (∃ j ∈ run, j.aligned = true) → (run.filter (·.bargesIn)).length = 1
  never : ∀ before run after, judged = before ++ run ++ after → Stretch before run after →
    (∀ j ∈ run, j.aligned = false) → run.filter (·.bargesIn) = []
  quiet : ∀ j ∈ judged, j.speaking = false → j.bargesIn = false

/-- A stretch with an aligned echo has one at its first frame. -/
def EchoesFirst (judged : List Judgement) : Prop :=
  ∀ before run after, judged = before ++ run ++ after → Stretch before run after →
    (∃ j ∈ run, j.aligned = true) → ∃ j, run.head? = some j ∧ j.aligned = true

/-- Each judgement depends on whether the frame before it was speech. -/
def Chained : Bool → List Judgement → Prop
  | _, [] => True
  | active, j :: rest => j.bargesIn = (j.speaking && !active && j.aligned) ∧ Chained j.speaking rest

theorem chained_judgements (listener : Listener Pcm) (heard : List (Heard Pcm Samples)) :
    Chained listener.speechActive (listener.judgements speaking heard) := by
  induction heard generalizing listener with
  | nil => trivial
  | cons next rest ih =>
      cases next with
      | echo echo => exact ih (listener.receive speaking (.echo echo))
      | frame frame => exact ⟨rfl, ih (listener.receive speaking (.frame frame))⟩

theorem Chained.append {active : Bool} {judged rest : List Judgement}
    (chained : Chained active (judged ++ rest)) :
    Chained ((judged.getLast?.map (·.speaking)).getD active) rest := by
  induction judged generalizing active with
  | nil => exact chained
  | cons j judged ih =>
      have later := ih chained.2
      cases judged with
      | nil => exact later
      | cons j' judged =>
          rw [List.getLast?_cons_cons]
          rw [List.getLast?_eq_some_getLast (List.cons_ne_nil j' judged)] at later ⊢
          exact later

theorem Chained.quiet {active : Bool} {judged : List Judgement} {j : Judgement}
    (chained : Chained active judged) (mem : j ∈ judged) (silent : j.speaking = false) :
    j.bargesIn = false := by
  induction judged generalizing active with
  | nil => cases mem
  | cons first rest ih =>
      rcases List.mem_cons.mp mem with rfl | later
      · rw [chained.1, silent]
        rfl
      · exact ih chained.2 later

/-- No attempt in the course of a stretch. -/
theorem Chained.filter_nil {run rest : List Judgement} (chained : Chained true (run ++ rest))
    (speaking : ∀ j ∈ run, j.speaking = true) : run.filter (·.bargesIn) = [] := by
  induction run with
  | nil => rfl
  | cons j run ih =>
      obtain ⟨speaks, speaking⟩ := List.forall_mem_cons.mp speaking
      have none : j.bargesIn = false := by rw [chained.1]; simp
      rw [List.filter_cons_of_neg (by simp [none])]
      exact ih (speaks ▸ chained.2) speaking

/-- The attempts of a stretch are decided by its first frame. -/
theorem Chained.filter_stretch {before after : List Judgement} {j : Judgement}
    {run : List Judgement} (chained : Chained false (before ++ (j :: run) ++ after))
    (stretch : Stretch before (j :: run) after) :
    (j :: run).filter (·.bargesIn) = if j.aligned then [j] else [] := by
  obtain ⟨speaks, speaking⟩ := List.forall_mem_cons.mp stretch.speaking
  rw [List.append_assoc] at chained
  have inactive : (before.getLast?.map (·.speaking)).getD false = false := by
    cases last : before.getLast? with
    | none => rfl
    | some j' => exact stretch.starts j' last
  have here := chained.append
  rw [inactive] at here
  have first : j.bargesIn = j.aligned := by rw [here.1, speaks]; simp
  have rest : run.filter (·.bargesIn) = [] := (speaks ▸ here.2 : Chained true _).filter_nil speaking
  rw [List.filter_cons, rest, first]

/-- Whatever echoes and frames the detector receives, and however it tells speech: it
attempts one `BargeIn` for each stretch of speech with an aligned echo, and no other,
exactly when such a stretch has the aligned echo at its first frame. -/
theorem barge_in_law_iff (heard : List (Heard Pcm Samples)) :
    BargeInLaw (Listener.initial.judgements speaking heard) ↔
      EchoesFirst (Listener.initial.judgements speaking heard) := by
  have chained : Chained false (Listener.initial.judgements speaking heard) :=
    chained_judgements .initial heard
  generalize Listener.initial.judgements speaking heard = judged at chained
  constructor
  · rintro law before run after rfl stretch aligned
    have one := law.once before run after rfl stretch aligned
    cases run with
    | nil => exact absurd rfl stretch.nonempty
    | cons j run =>
        rw [chained.filter_stretch stretch] at one
        cases first : j.aligned with
        | true => exact ⟨j, rfl, first⟩
        | false =>
            rw [first] at one
            cases one
  · intro echoes
    refine ⟨?_, ?_, ?_⟩
    · rintro before run after rfl stretch aligned
      obtain ⟨j, first, echo⟩ := echoes before run after rfl stretch aligned
      obtain ⟨run, rfl⟩ := List.head?_eq_some_iff.mp first
      rw [chained.filter_stretch stretch, echo]
      rfl
    · rintro before run after rfl stretch unaligned
      cases run with
      | nil => rfl
      | cons j run =>
          rw [chained.filter_stretch stretch, unaligned j List.mem_cons_self]
          rfl
    · intro j mem silent
      exact chained.quiet mem silent

/-- A frame of speech at a given time, and the echo of a frame played at that time. -/
def voiceAt (time : UInt64) : Heard Unit Unit := .frame ⟨0, time, ()⟩

def echoAt (time : UInt64) : Heard Unit Unit := .echo ⟨(), 0, time⟩

/-- Playback comes before speech: one attempt, at the first frame. -/
theorem barge_in_law_during_playback :
    Listener.initial.judgements (fun _ _ => true) [echoAt 0, voiceAt 10, voiceAt 20] =
        [⟨true, true, true⟩, ⟨true, true, false⟩] ∧
      BargeInLaw
        (Listener.initial.judgements (fun _ _ => true) [echoAt 0, voiceAt 10, voiceAt 20]) := by
  refine ⟨by decide, (barge_in_law_iff _).mpr ?_⟩
  rintro before run after all stretch -
  cases run with
  | nil => exact absurd rfl stretch.nonempty
  | cons j run =>
      refine ⟨j, rfl, ?_⟩
      have aligned : ∀ j ∈ Listener.initial.judgements (fun _ _ => true)
        [echoAt 0, voiceAt 10, voiceAt 20], j.aligned = true := by decide
      exact aligned j (all ▸ List.mem_append_left _ (List.mem_append_right _ List.mem_cons_self))

/-- Speech comes before playback: both frames are one stretch of speech, the second one
has an aligned echo, and there is no attempt. -/
theorem not_barge_in_law :
    Listener.initial.judgements (fun _ _ => true) [voiceAt 0, echoAt 10, voiceAt 20] =
        [⟨false, true, false⟩, ⟨true, true, false⟩] ∧
      ¬ BargeInLaw
        (Listener.initial.judgements (fun _ _ => true) [voiceAt 0, echoAt 10, voiceAt 20]) := by
  refine ⟨by decide, fun law => ?_⟩
  have stretch : Stretch [] [⟨false, true, false⟩, ⟨true, true, false⟩] [] :=
    ⟨by decide, by decide, by rintro j ⟨⟩, by rintro j ⟨⟩⟩
  have one := law.once [] [⟨false, true, false⟩, ⟨true, true, false⟩] [] (by decide) stretch
    ⟨_, List.mem_cons_of_mem _ List.mem_cons_self, rfl⟩
  cases one

end Dorsche.Topshim.Actors
