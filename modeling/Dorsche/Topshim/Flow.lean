import Dorsche.Topshim.Sink
import Dorsche.Topshim.Voice

/-!
What flows through the actor graph.

Captures go from the proxy by way of the microphone and a channel to the detector,
echo references from the sink through another channel to the detector, and
interrupts from the detector to the sink. Each edge hands on what enters it, in
order and once. The log of a run tells what the hardware captured, what the detector
heard and what the sink did, and `Flow` accounts for all three in every interleaving.
-/

namespace Dorsche.Topshim.Actors

open Dorsche.Lib

variable {Pcm Samples : Type}

/-! ### What was heard -/

section Heard

variable (speaking : AudioFrame Samples → Option (EchoReference Pcm) → Bool)
  (heard : List (Heard Pcm Samples))

def framesOf : List (AudioFrame Samples) := heard.filterMap fun
  | .frame frame => some frame
  | .echo _ => none

def echoesOf : List (EchoReference Pcm) := heard.filterMap fun
  | .echo echo => some echo
  | .frame _ => none

/-- The interrupt that a frame gives rise to. -/
def Listener.attempt (self : Listener Pcm) : Heard Pcm Samples → List BargeIn
  | .frame frame => if (self.judge speaking frame).bargesIn then [⟨frame.sequence⟩] else []
  | .echo _ => []

/-- The interrupts that the detector tries to send. -/
def Listener.attempts (self : Listener Pcm) : List (Heard Pcm Samples) → List BargeIn
  | [] => []
  | next :: rest => self.attempt speaking next ++ attempts (self.receive speaking next) rest

theorem Listener.attempts_append (self : Listener Pcm) (more : List (Heard Pcm Samples)) :
    self.attempts speaking (heard ++ more) = self.attempts speaking heard ++
      (heard.foldl (receive speaking) self).attempts speaking more := by
  induction heard generalizing self with
  | nil => rfl
  | cons next rest ih =>
      rw [List.cons_append, attempts, attempts, ih, List.append_assoc]
      rfl

end Heard

/-! ### What a log tells -/

namespace Event

/-- The captures that succeed. -/
def captures : Event Pcm Samples → List (AudioFrame Samples)
  | .captured (.ok frame) => [frame]
  | _ => []

def hears : Event Pcm Samples → List (Heard Pcm Samples)
  | .heard item _ => [item]
  | _ => []

/-- What the sink does, and the interrupts that enter its inbox. -/
def acts : Event Pcm Samples → List (Act Pcm)
  | .begin (some request) => [.submitted request]
  | .heard _ sent => sent.map .arrived
  | .acted act => [act]
  | _ => []

end Event

section Log

variable (log : List (Event Pcm Samples))

def capturesOf : List (AudioFrame Samples) := log.flatMap Event.captures

def heardOf : List (Heard Pcm Samples) := log.flatMap Event.hears

def actsOf : List (Act Pcm) := log.flatMap Event.acts

end Log

/-- Polls and the like are not told. -/
def Act.told : Act Pcm → Bool
  | .other => false
  | _ => true

theorem filterMap_told {β : Type} {f : Act Pcm → Option β} (silent : f .other = none)
    (all : List (Act Pcm)) : (all.filter Act.told).filterMap f = all.filterMap f := by
  rw [List.filterMap_filter]
  refine List.filterMap_congr fun act _ => ?_
  cases act with
  | other => exact silent.symm
  | _ => rfl

theorem filter_told {act : Act Pcm} (all : List (Act Pcm)) (told : act.told = true) :
    all.filter Act.told ++ [act] = (all ++ [act]).filter Act.told := by
  rw [List.filter_append, List.filter_cons_of_pos told, List.filter_nil]

/-! ### Frames on their way -/

/-- The frame that the microphone has or is about to receive. -/
def Microphone.hand (captures : Exchange Unit (Result (AudioFrame Samples))) :
    Microphone Samples → List (AudioFrame Samples)
  | .calling (.awaiting i) =>
      match captures.replies[i]? with
      | some (.sent (.ok raw)) => [raw]
      | _ => []
  | .adopting raw => [raw]
  | .forwarding frame => [frame]
  | _ => []

def World.hand (w : World Pcm Samples) : List (AudioFrame Samples) :=
  w.microphone.hand w.captures

/-- How many frames the microphone has, or has lost when it ended. -/
def World.inHand (w : World Pcm Samples) : Nat :=
  if w.microphone.result = none then w.hand.length else 1

/-- The captures that the detector has not heard. -/
structure Missing (w : World Pcm Samples) (missing : List (AudioFrame Samples)) : Prop where
  few : missing.length ≤ 8 + w.inHand
  alive : w.vad.result = none → w.frames.length ≤ 8 ∧ ∃ last, missing = w.frames ++ last ∧
    last.length ≤ 1 ∧ (w.microphone.result = none → last = w.hand)

section Missing

variable {w w' : World Pcm Samples} {missing : List (AudioFrame Samples)}

theorem Microphone.hand_length (microphone : Microphone Samples)
    (captures : Exchange Unit (Result (AudioFrame Samples))) :
    (microphone.hand captures).length ≤ 1 := by
  unfold Microphone.hand
  split
  · split
    · exact Nat.le_refl _
    · exact Nat.zero_le _
  · exact Nat.le_refl _
  · exact Nat.le_refl _
  · exact Nat.zero_le _

theorem World.inHand_le (w : World Pcm Samples) : w.inHand ≤ 1 := by
  unfold World.inHand
  split
  · exact w.microphone.hand_length w.captures
  · exact Nat.le_refl _

/-- A step that leaves the channel and the detector, and takes no frame from the
microphone unless it ends it. -/
theorem Missing.keep (kept : Missing w missing) (frames : w'.frames = w.frames)
    (vad : w'.vad.result = w.vad.result)
    (microphone : w'.microphone.result ≠ none ∨
      w.microphone.result = none ∧ w'.microphone.result = none ∧ w'.hand = w.hand) :
    Missing w' missing := by
  have bound : w.inHand ≤ w'.inHand := by
    rcases microphone with ended | ⟨was, there, same⟩
    · rw [show w'.inHand = 1 from if_neg ended]
      exact w.inHand_le
    · rw [World.inHand, World.inHand, if_pos was, if_pos there, same]
  refine ⟨kept.few.trans (Nat.add_le_add_left bound 8), fun there => ?_⟩
  obtain ⟨short, last, all, one, hand⟩ := kept.alive (vad ▸ there)
  rw [frames]
  refine ⟨short, last, all, one, fun alive => ?_⟩
  rcases microphone with ended | ⟨was, -, same⟩
  · exact absurd alive ended
  · exact (hand was).trans same.symm

theorem Missing.same (kept : Missing w missing) (frames : w'.frames = w.frames)
    (vad : w'.vad.result = w.vad.result) (microphone : w'.microphone = w.microphone)
    (captures : w'.captures = w.captures) : Missing w' missing := by
  refine kept.keep frames vad ?_
  rw [World.hand, World.hand, microphone, captures]
  by_cases there : w.microphone.result = none
  · exact .inr ⟨there, there, rfl⟩
  · exact .inl there

/-- The proxy answers the microphone. -/
theorem Missing.captured (kept : Missing w missing) {frame : AudioFrame Samples}
    (frames : w'.frames = w.frames) (vad : w'.vad.result = w.vad.result)
    (was : w.microphone.result = none) (there : w'.microphone.result = none)
    (before : w.hand = []) (after : w'.hand = [frame]) :
    Missing w' (missing ++ [frame]) := by
  obtain ⟨few, alive⟩ := kept
  rw [World.inHand, if_pos was, before] at few
  refine ⟨?_, fun heard => ?_⟩
  · rw [World.inHand, if_pos there, after, List.length_append]
    exact Nat.add_le_add_right few 1
  · obtain ⟨short, last, rfl, -, hand⟩ := alive (vad ▸ heard)
    rw [frames, hand was, before, List.append_nil]
    exact ⟨short, [frame], rfl, Nat.le_refl _, fun _ => after.symm⟩

/-- The microphone's frame enters the channel. -/
theorem Missing.forwarded (kept : Missing w missing) {frame : AudioFrame Samples}
    (vad : w.vad.result = none) (was : w.microphone.result = none) (hand : w.hand = [frame])
    (room : w.frames.length < 8) (frames : w'.frames = w.frames ++ [frame])
    (after : w'.hand = []) : Missing w' missing := by
  obtain ⟨-, last, rfl, -, same⟩ := kept.alive vad
  obtain rfl : last = [frame] := (same was).trans hand
  have short : (w.frames ++ [frame]).length ≤ 8 := by
    rw [List.length_append]
    exact room
  refine ⟨short.trans (Nat.le_add_right _ _), fun _ => ?_⟩
  rw [frames]
  exact ⟨short, [], (List.append_nil _).symm, Nat.zero_le _, fun _ => after.symm⟩

/-- The detector hears the first frame of the channel. -/
theorem Missing.heard (kept : Missing w missing) {frame : AudioFrame Samples}
    {rest : List (AudioFrame Samples)} (vad : w.vad.result = none)
    (frames : w.frames = frame :: rest) (frames' : w'.frames = rest)
    (microphone : w'.microphone = w.microphone) (captures : w'.captures = w.captures) :
    ∃ fewer, missing = frame :: fewer ∧ Missing w' fewer := by
  have hand : w'.hand = w.hand := by rw [World.hand, World.hand, microphone, captures]
  have inHand : w'.inHand = w.inHand := by rw [World.inHand, World.inHand, microphone, hand]
  obtain ⟨few, alive⟩ := kept
  obtain ⟨short, last, rfl, one, same⟩ := alive vad
  rw [frames] at few short ⊢
  refine ⟨rest ++ last, rfl, ?_, fun _ => ?_⟩
  · rw [inHand]
    exact (Nat.le_succ _).trans few
  · rw [frames', microphone, hand]
    exact ⟨(Nat.le_succ _).trans short, last, rfl, one, same⟩

/-- The detector leaves. -/
theorem Missing.left (kept : Missing w missing) (ended : w'.vad.result ≠ none)
    (microphone : w'.microphone = w.microphone) (captures : w'.captures = w.captures) :
    Missing w' missing := by
  have hand : w'.hand = w.hand := by rw [World.hand, World.hand, microphone, captures]
  refine ⟨?_, fun there => absurd there ended⟩
  rw [World.inHand, microphone, hand]
  exact kept.few

end Missing

/-! ### The account -/

/-- At most one capture is asked for, by the microphone, and it has no reply. -/
def World.Asks (w : World Pcm Samples) : Prop :=
  w.captures.inbox = [] ∨ ∃ i, w.captures.inbox = [(i, ())] ∧
    w.microphone = .calling (.awaiting i) ∧ w.captures.replies[i]? = some .empty

/-- The account of a run: the captures of the hardware, what the detector has heard, and
what is told of the sink. -/
structure Flow (speaking : AudioFrame Samples → Option (EchoReference Pcm) → Bool)
    (captured : List (AudioFrame Samples)) (heard : List (Heard Pcm Samples))
    (acts : List (Act Pcm)) (w : World Pcm Samples) : Prop where
  listener : ∀ listener, w.vad.listener = some listener →
    listener = heard.foldl (Listener.receive speaking) .initial
  sink : ∃ all, acts = all.filter Act.told ∧ Runs Sink.Step .initial all w.sink
  interrupts : (arrivals acts).Sublist (Listener.initial.attempts speaking heard)
  echoes : ∃ missing, mirrors acts = echoesOf heard ++ missing ∧ missing.length ≤ 8 ∧
    (w.vad.result = none → missing = w.echoes)
  frames : ∃ missing, captured = framesOf heard ++ missing ∧ Missing w missing
  asks : w.Asks

section Flow

variable {speaking : AudioFrame Samples → Option (EchoReference Pcm) → Bool}
  {captured : List (AudioFrame Samples)} {heard : List (Heard Pcm Samples)}
  {acts : List (Act Pcm)} {w w' : World Pcm Samples} {event : Event Pcm Samples}

theorem flow_initial : Flow speaking [] [] [] (World.initial : World Pcm Samples) where
  listener := by
    rintro _ ⟨⟩
    rfl
  sink := ⟨[], rfl, .nil⟩
  interrupts := .slnil
  echoes := ⟨[], rfl, Nat.zero_le _, fun _ => rfl⟩
  frames := ⟨[], rfl, Nat.zero_le _, fun _ =>
    ⟨Nat.zero_le _, [], rfl, Nat.zero_le _, fun _ => rfl⟩⟩
  asks := .inl rfl

/-- A step at the microphone, its channel or the proxy. -/
theorem Flow.capture (flow : Flow speaking captured heard acts w)
    {captured' : List (AudioFrame Samples)} (listener : w'.vad.listener = w.vad.listener)
    (vad : w'.vad.result = w.vad.result) (sink : w'.sink = w.sink)
    (echoes : w'.echoes = w.echoes)
    (frames : ∃ missing, captured' = framesOf heard ++ missing ∧ Missing w' missing)
    (asks : w'.Asks) : Flow speaking captured' heard acts w' where
  listener := by
    rw [listener]
    exact flow.listener
  sink := by
    rw [sink]
    exact flow.sink
  interrupts := flow.interrupts
  echoes := by
    rw [vad, echoes]
    exact flow.echoes
  frames := frames
  asks := asks

/-- A step that none of the edges sees. -/
theorem Flow.still (flow : Flow speaking captured heard acts w) (vad : w'.vad = w.vad)
    (sink : w'.sink = w.sink) (echoes : w'.echoes = w.echoes) (frames : w'.frames = w.frames)
    (microphone : w'.microphone = w.microphone) (captures : w'.captures = w.captures) :
    Flow speaking captured heard acts w' := by
  obtain ⟨missing, all, kept⟩ := flow.frames
  have vad' := congrArg Vad.result vad
  refine flow.capture (congrArg Vad.listener vad) vad' sink echoes
    ⟨missing, all, kept.same frames vad' microphone captures⟩ ?_
  rw [World.Asks, microphone, captures]
  exact flow.asks

theorem arrivals_append (more : List (Act Pcm)) :
    arrivals (acts ++ more) = arrivals acts ++ arrivals more :=
  List.filterMap_append

theorem mirrors_append (more : List (Act Pcm)) :
    mirrors (acts ++ more) = mirrors acts ++ mirrors more :=
  List.filterMap_append

/-- A step of which nothing is told. -/
theorem Flow.quiet (flow : Flow speaking captured heard acts w')
    (silent : event.captures = [] ∧ event.hears = [] ∧ event.acts = []) :
    Flow speaking (captured ++ event.captures) (heard ++ event.hears) (acts ++ event.acts) w' := by
  rw [silent.1, silent.2.1, silent.2.2, List.append_nil, List.append_nil, List.append_nil]
  exact flow

/-- The sink acts, without an interrupt or an echo. -/
theorem Flow.act (flow : Flow speaking captured heard acts w) {act : Act Pcm}
    (step : Sink.Step w.sink act w'.sink) (still : arrivals [act] = [] ∧ mirrors [act] = [])
    (told : event.captures = [] ∧ event.hears = [] ∧ event.acts = [act].filter Act.told)
    (vad : w'.vad = w.vad) (echoes : w'.echoes = w.echoes) (frames : w'.frames = w.frames)
    (microphone : w'.microphone = w.microphone) (captures : w'.captures = w.captures) :
    Flow speaking (captured ++ event.captures) (heard ++ event.hears) (acts ++ event.acts) w' := by
  rw [told.1, told.2.1, told.2.2, List.append_nil, List.append_nil]
  constructor
  case listener =>
    rw [vad]
    exact flow.listener
  case sink =>
    obtain ⟨all, rfl, run⟩ := flow.sink
    exact ⟨all ++ [act], (List.filter_append _ _).symm, run.snoc step⟩
  case interrupts =>
    have none : arrivals ([act].filter Act.told) = [] := (filterMap_told rfl [act]).trans still.1
    rw [arrivals_append, none, List.append_nil]
    exact flow.interrupts
  case echoes =>
    have none : mirrors ([act].filter Act.told) = [] := (filterMap_told rfl [act]).trans still.2
    rw [vad, echoes, mirrors_append, none, List.append_nil]
    exact flow.echoes
  case frames =>
    obtain ⟨missing, all, kept⟩ := flow.frames
    exact ⟨missing, all, kept.same frames (congrArg Vad.result vad) microphone captures⟩
  case asks =>
    rw [World.Asks, microphone, captures]
    exact flow.asks

/-! ### Captures -/

/-- A microphone without an open call has asked for nothing. -/
theorem World.Asks.empty (asks : w.Asks) (settled : ∀ i,
    w.microphone = .calling (.awaiting i) → w.captures.replies[i]? ≠ some .empty) :
    w.captures.inbox = [] := by
  rcases asks with empty | ⟨i, -, calling, waits⟩
  · exact empty
  · exact absurd waits (settled i calling)

/-- The microphone moves on, with the frame it had or to its end. -/
theorem Flow.moved (flow : Flow speaking captured heard acts w) {microphone : Microphone Samples}
    (settled : ∀ i, w.microphone = .calling (.awaiting i) →
      w.captures.replies[i]? ≠ some .empty)
    (hand : microphone.result ≠ none ∨ w.microphone.result = none ∧ microphone.result = none ∧
      microphone.hand w.captures = w.hand) :
    Flow speaking captured heard acts { w with microphone } := by
  obtain ⟨missing, all, kept⟩ := flow.frames
  exact flow.capture rfl rfl rfl rfl ⟨missing, all, kept.keep rfl rfl hand⟩
    (.inl (flow.asks.empty settled))

/-- A microphone that is not awaiting a reply moves on. -/
theorem settled_of_ne (away : ∀ i, w.microphone ≠ .calling (.awaiting i)) (i : Nat)
    (calling : w.microphone = .calling (.awaiting i)) : w.captures.replies[i]? ≠ some .empty :=
  absurd calling (away i)

theorem Flow.sent (flow : Flow speaking captured heard acts w)
    (at_ : w.microphone = .calling (.sending ())) :
    Flow speaking captured heard acts
      { w with
        microphone := .calling (.awaiting w.captures.replies.length)
        captures := w.captures.send () } := by
  obtain ⟨missing, all, kept⟩ := flow.frames
  have empty := flow.asks.empty (settled_of_ne (by rw [at_]; rintro i ⟨⟩))
  have unanswered : (w.captures.send ()).replies[w.captures.replies.length]? = some .empty := by
    simp [Exchange.send]
  refine flow.capture rfl rfl rfl rfl ⟨missing, all, kept.keep rfl rfl (.inr ⟨?_, rfl, ?_⟩)⟩
    (.inr ⟨_, ?_, rfl, unanswered⟩)
  · rw [at_]
    rfl
  · simp only [World.hand, Microphone.hand, unanswered, at_]
  · simp only [Exchange.send, empty, List.nil_append]

theorem Flow.answered (flow : Flow speaking captured heard acts w)
    (asked : w.captures.inbox ≠ []) (result : Result (AudioFrame Samples)) :
    Flow speaking (captured ++ (Event.captured result : Event Pcm Samples).captures) heard acts
      { w with proxy := .atShutdown, captures := w.captures.answer result } := by
  obtain ⟨missing, all, kept⟩ := flow.frames
  obtain ⟨i, inbox, calling, waits⟩ := flow.asks.resolve_left asked
  have answered : w.captures.answer result = ⟨[], w.captures.replies.set i (.sent result)⟩ := by
    rw [Exchange.answer, inbox]
  have inside := (List.getElem?_eq_some_iff.mp waits).1
  have there : w.microphone.result = none := by
    rw [calling]
    rfl
  have before : w.hand = [] := by
    simp only [World.hand, Microphone.hand, calling, waits]
  refine flow.capture rfl rfl rfl rfl ?_ (.inl (by rw [answered]))
  cases result with
  | ok raw =>
      refine ⟨missing ++ [raw], by rw [all, List.append_assoc]; rfl,
        kept.captured rfl rfl there there before ?_⟩
      simp only [World.hand, Microphone.hand, calling, answered, List.getElem?_set_self inside]
  | error message =>
      refine ⟨missing, by rw [all]; exact List.append_nil _,
        kept.keep rfl rfl (.inr ⟨there, there, ?_⟩)⟩
      rw [before]
      simp only [World.hand, Microphone.hand, calling, answered, List.getElem?_set_self inside]

theorem Microphone.hand_close (microphone : Microphone Samples)
    (captures : Exchange Unit (Result (AudioFrame Samples))) :
    microphone.hand captures.close = microphone.hand captures := by
  unfold Microphone.hand
  split
  · rename_i i
    have same : captures.close.replies[i]? = captures.replies[i]?.map fun reply =>
        if i ∈ captures.inbox.map Prod.fst then reply.drop else reply := by
      rw [Exchange.close, List.getElem?_mapIdx]
    rw [same]
    cases captures.replies[i]? with
    | none => rfl
    | some reply =>
        by_cases queued : i ∈ captures.inbox.map Prod.fst
        · rw [Option.map_some, if_pos queued]
          cases reply with
          | _ => rfl
        · rw [Option.map_some, if_neg queued]
  all_goals rfl

theorem Flow.closed (flow : Flow speaking captured heard acts w) :
    Flow speaking captured heard acts
      { w with
        proxy := .ended (.ok ())
        captures := w.captures.close
        playbacks := w.playbacks.close } := by
  obtain ⟨missing, all, kept⟩ := flow.frames
  refine flow.capture rfl rfl rfl rfl ⟨missing, all, kept.keep rfl rfl ?_⟩ (.inl rfl)
  by_cases there : w.microphone.result = none
  · exact .inr ⟨there, there, w.microphone.hand_close w.captures⟩
  · exact .inl there

theorem Flow.forwarded (flow : Flow speaking captured heard acts w) {frame : AudioFrame Samples}
    (at_ : w.microphone = .forwarding frame) (vad : w.vad.result = none)
    (room : w.frames.length < 8) :
    Flow speaking captured heard acts
      { w with microphone := .selecting, frames := w.frames ++ [frame] } := by
  obtain ⟨missing, all, kept⟩ := flow.frames
  refine flow.capture rfl rfl rfl rfl ⟨missing, all, kept.forwarded vad ?_ ?_ room rfl rfl⟩
    (.inl (flow.asks.empty (settled_of_ne (by rw [at_]; rintro i ⟨⟩))))
  · rw [at_]
    rfl
  · rw [World.hand, at_]
    rfl

/-! ### The detector -/

/-- The detector polls the next branch. -/
theorem Flow.polls (flow : Flow speaking captured heard acts w) {vad : Vad Pcm}
    (listener : vad.listener = w.vad.listener) (result : vad.result = w.vad.result) :
    Flow speaking captured heard acts { w with vad } := by
  obtain ⟨missing, all, kept⟩ := flow.frames
  exact flow.capture listener result rfl rfl
    ⟨missing, all, kept.same rfl result rfl rfl⟩ flow.asks

theorem Flow.leaves (flow : Flow speaking captured heard acts w) (result : Result Unit) :
    Flow speaking captured heard acts
      { w with vad := .ended result, frames := [], echoes := [] } := by
  obtain ⟨missing, all, kept⟩ := flow.frames
  obtain ⟨echoes, mirrored, few, -⟩ := flow.echoes
  exact {
    listener := by rintro _ ⟨⟩
    sink := flow.sink
    interrupts := flow.interrupts
    echoes := ⟨echoes, mirrored, few, by rintro ⟨⟩⟩
    frames := ⟨missing, all, kept.left (by rintro ⟨⟩) rfl rfl⟩
    asks := flow.asks }

@[simp]
theorem framesOf_frame (frame : AudioFrame Samples) :
    framesOf (heard ++ [.frame frame]) = framesOf heard ++ [frame] := by
  simp [framesOf]

@[simp]
theorem framesOf_echo (echo : EchoReference Pcm) :
    framesOf (heard ++ [.echo echo]) = framesOf heard := by
  simp [framesOf]

@[simp]
theorem echoesOf_frame (frame : AudioFrame Samples) :
    echoesOf (heard ++ [.frame frame]) = echoesOf heard := by
  simp [echoesOf]

@[simp]
theorem echoesOf_echo (echo : EchoReference Pcm) :
    echoesOf (heard ++ [.echo echo]) = echoesOf heard ++ [echo] := by
  simp [echoesOf]

theorem attempts_snoc (next : Heard Pcm Samples) :
    Listener.initial.attempts speaking (heard ++ [next]) =
      Listener.initial.attempts speaking heard ++
        (heard.foldl (Listener.receive speaking) .initial).attempt speaking next := by
  rw [Listener.attempts_append, Listener.attempts, Listener.attempts, List.append_nil]

theorem Flow.hearsEcho (flow : Flow speaking captured heard acts w)
    {latestEcho : Option (EchoReference Pcm)} {speechActive : Bool} {echo : EchoReference Pcm}
    {rest : List (EchoReference Pcm)} (at_ : w.vad = .atEcho latestEcho speechActive)
    (next : w.echoes = echo :: rest) :
    Flow speaking captured (heard ++ [.echo echo]) acts
      { w with vad := .atShutdown (some echo) speechActive, echoes := rest } := by
  have there : w.vad.result = none := by
    rw [at_]
    rfl
  have current : ⟨latestEcho, speechActive⟩ =
      heard.foldl (Listener.receive speaking) .initial :=
    flow.listener _ (by rw [at_]; rfl)
  obtain ⟨missing, mirrored, few, same⟩ := flow.echoes
  obtain rfl : missing = echo :: rest := (same there).trans next
  obtain ⟨frames, all, kept⟩ := flow.frames
  exact {
    listener := by
      rintro _ ⟨⟩
      rw [List.foldl_append, ← current]
      rfl
    sink := flow.sink
    interrupts := by
      rw [attempts_snoc, Listener.attempt, List.append_nil]
      exact flow.interrupts
    echoes := ⟨rest, by simp [mirrored], (Nat.le_succ _).trans few, fun _ => rfl⟩
    frames := ⟨frames, by simp [all], kept.same rfl there.symm rfl rfl⟩
    asks := flow.asks }

/-- The interrupt that is sent is the one that the frame gives rise to. -/
theorem sent_cases (w : World Pcm Samples) (frame : AudioFrame Samples) (breaks : Bool) :
    w.sent frame breaks = [] ∧ w.bargeIn frame breaks = w.barges ∨
      breaks = true ∧ w.playback.result = none ∧ w.sent frame breaks = [⟨frame.sequence⟩] ∧
        w.bargeIn frame breaks = w.barges ++ [⟨frame.sequence⟩] := by
  unfold World.sent World.bargeIn
  split
  · rename_i sends
    exact .inr ⟨sends.1, sends.2.1, rfl, rfl⟩
  · exact .inl ⟨rfl, rfl⟩

theorem Flow.hearsFrame (flow : Flow speaking captured heard acts w)
    {latestEcho : Option (EchoReference Pcm)} {speechActive : Bool} {frame : AudioFrame Samples}
    {rest : List (AudioFrame Samples)} (at_ : w.vad = .atMicrophone latestEcho speechActive)
    (next : w.frames = frame :: rest)
    (vad : w'.vad = .atShutdown latestEcho (speaking frame (alignedEcho latestEcho frame)))
    (frames : w'.frames = rest) (echoes : w'.echoes = w.echoes)
    (microphone : w'.microphone = w.microphone) (captures : w'.captures = w.captures)
    (sink : w'.sink = { w.sink with
      barges := w.bargeIn frame (breaksIn speaking latestEcho speechActive frame) }) :
    Flow speaking captured (heard ++ [.frame frame]) (acts ++
      (w.sent frame (breaksIn speaking latestEcho speechActive frame)).map .arrived) w' := by
  have there : w.vad.result = none := by
    rw [at_]
    rfl
  have current : ⟨latestEcho, speechActive⟩ =
      heard.foldl (Listener.receive speaking) .initial :=
    flow.listener _ (by rw [at_]; rfl)
  obtain ⟨missing, all, kept⟩ := flow.frames
  obtain ⟨fewer, rfl, kept'⟩ := kept.heard there next frames microphone captures
  obtain ⟨unheard, mirrored, few, same⟩ := flow.echoes
  obtain ⟨told, rfl, run⟩ := flow.sink
  -- the sink may get an interrupt; the rest does not depend on it
  have rest' (acts' : List (Act Pcm))
      (sunk : ∃ all, acts' = all.filter Act.told ∧ Runs Sink.Step .initial all w'.sink)
      (within : (arrivals acts').Sublist
        (Listener.initial.attempts speaking (heard ++ [.frame frame])))
      (same' : mirrors acts' = mirrors (told.filter Act.told)) :
      Flow speaking captured (heard ++ [.frame frame]) acts' w' := by
    constructor
    case listener =>
      rw [vad]
      rintro _ ⟨⟩
      rw [List.foldl_append, ← current]
      rfl
    case sink => exact sunk
    case interrupts => exact within
    case echoes =>
      exact ⟨unheard, by simp [same', mirrored], few, fun _ => (same there).trans echoes.symm⟩
    case frames => exact ⟨fewer, by simp [all], kept'⟩
    case asks =>
      rw [World.Asks, microphone, captures]
      exact flow.asks
  rcases sent_cases w frame (breaksIn speaking latestEcho speechActive frame) with
    ⟨nothing, none⟩ | ⟨breaks, alive, arrived, sent⟩
  · rw [nothing, List.map_nil, List.append_nil]
    refine rest' _ ⟨told, rfl, ?_⟩ ?_ rfl
    · rw [sink, none]
      exact run
    · rw [attempts_snoc]
      exact flow.interrupts.trans (List.sublist_append_left _ _)
  · rw [arrived, List.map_singleton]
    refine rest' _ ⟨told ++ [.arrived ⟨frame.sequence⟩], filter_told told rfl, ?_⟩ ?_ ?_
    · rw [sink, sent]
      exact run.snoc (.bargeArrives _ alive)
    · have judged : (Listener.judge speaking ⟨latestEcho, speechActive⟩ frame).bargesIn = true :=
        breaks
      rw [attempts_snoc, ← current, Listener.attempt, if_pos judged, arrivals_append]
      exact flow.interrupts.append (List.Sublist.refl _)
    · rw [mirrors_append]
      exact List.append_nil _

/-! ### The sink -/

theorem Flow.mirrors (flow : Flow speaking captured heard acts w) {speech : Speech Pcm}
    {echo : EchoReference Pcm} (at_ : w.playback = .mirroring speech echo)
    (there : w.vad.result = none) (room : w.echoes.length < 8) :
    Flow speaking captured heard (acts ++ [.mirrored echo])
      { w with
        playback := .atShutdown { speech with sequence := speech.sequence + 1 }
        echoes := w.echoes ++ [echo] } := by
  obtain ⟨frames, all, kept⟩ := flow.frames
  obtain ⟨missing, mirrored, -, same⟩ := flow.echoes
  obtain rfl := same there
  obtain ⟨told, rfl, run⟩ := flow.sink
  exact {
    listener := flow.listener
    sink := ⟨told ++ [.mirrored echo], filter_told told rfl, run.snoc (.mirror at_)⟩
    interrupts := by
      rw [arrivals_append]
      exact (List.append_nil _).symm ▸ flow.interrupts
    echoes := by
      refine ⟨w.echoes ++ [echo], ?_, ?_, fun _ => rfl⟩
      · rw [mirrors_append, mirrored, List.append_assoc]
        rfl
      · rw [List.length_append]
        exact room
    frames := ⟨frames, all, kept.same rfl rfl rfl rfl⟩
    asks := flow.asks }

/-! ### Steps and runs -/

theorem Flow.step (flow : Flow speaking captured heard acts w) (step : Step speaking w event w') :
    Flow speaking (captured ++ event.captures) (heard ++ event.hears) (acts ++ event.acts) w' := by
  cases step with
  | proxyCapture result _ asked =>
      have answered := flow.answered asked result
      simpa [Event.hears, Event.acts] using answered
  | proxyLeave _ _ => exact flow.closed.quiet ⟨rfl, rfl, rfl⟩
  | microphoneTick at_ =>
      refine (flow.moved (settled_of_ne ?_) (.inr ?_)).quiet ⟨rfl, rfl, rfl⟩
      · rw [at_]
        rintro _ ⟨⟩
      · rw [World.hand, at_]
        exact ⟨rfl, rfl, rfl⟩
  | microphoneSend at_ _ _ => exact (flow.sent at_).quiet ⟨rfl, rfl, rfl⟩
  | @microphoneReceive i result at_ sent =>
      refine (flow.moved ?_ ?_).quiet ⟨rfl, rfl, rfl⟩
      · rw [at_]
        rintro _ ⟨⟩
        rw [sent]
        rintro ⟨⟩
      · rw [World.hand, at_]
        cases result with
        | ok raw => exact .inr ⟨rfl, rfl, by simp only [Microphone.received, Microphone.hand, sent]⟩
        | error message => exact .inl (by rintro ⟨⟩)
  | @microphoneAdopt raw result at_ =>
      refine (flow.moved (settled_of_ne ?_) ?_).quiet ⟨rfl, rfl, rfl⟩
      · rw [at_]
        rintro _ ⟨⟩
      · rw [World.hand, at_]
        cases result with
        | ok done => exact .inr ⟨rfl, rfl, rfl⟩
        | error message => exact .inl (by rintro ⟨⟩)
  | microphoneReceiveFails at_ dropped =>
      refine (flow.moved ?_ (.inl (by rintro ⟨⟩))).quiet ⟨rfl, rfl, rfl⟩
      rw [at_]
      rintro _ ⟨⟩
      rw [dropped]
      rintro ⟨⟩
  | microphoneForward at_ there room => exact (flow.forwarded at_ there room).quiet ⟨rfl, rfl, rfl⟩
  | microphoneLeave at_ _ | microphoneSendFails at_ _ | microphoneForwardFails at_ _ =>
      refine (flow.moved (settled_of_ne ?_) (.inl ?_)).quiet ⟨rfl, rfl, rfl⟩
      · rw [at_]
        rintro _ ⟨⟩
      · rintro ⟨⟩
  | vadLeave at_ _ | vadPanics at_ _ _ => exact (flow.leaves _).quiet ⟨rfl, rfl, rfl⟩
  | vadGoOn at_ _ | vadNoEcho at_ _ | vadNoFrame at_ _ =>
      exact (flow.polls (by rw [at_]; rfl) (by rw [at_]; rfl)).quiet ⟨rfl, rfl, rfl⟩
  | vadEcho at_ next =>
      have hears := flow.hearsEcho at_ next
      simpa [Event.captures, Event.hears, Event.acts] using hears
  | vadFrame at_ next =>
      change Flow speaking (captured ++ []) _ _ _
      rw [List.append_nil]
      exact flow.hearsFrame at_ next rfl rfl rfl rfl rfl rfl
  | playbackMirror at_ there room =>
      have mirrors := flow.mirrors at_ there room
      simpa [Event.captures, Event.hears, Event.acts] using mirrors
  | playbackLeave at_ shutdown =>
      exact flow.act (.leave at_ shutdown) ⟨rfl, rfl⟩ ⟨rfl, rfl, rfl⟩ rfl rfl rfl rfl rfl
  | playbackGoOn at_ shutdown =>
      exact flow.act (.goOn at_ shutdown) ⟨rfl, rfl⟩ ⟨rfl, rfl, rfl⟩ rfl rfl rfl rfl rfl
  | playbackBarge at_ next =>
      exact flow.act (.barge at_ next) ⟨rfl, rfl⟩ ⟨rfl, rfl, rfl⟩ rfl rfl rfl rfl rfl
  | playbackPanics at_ _ _ =>
      exact flow.act (.bargePanics _ at_) ⟨rfl, rfl⟩ ⟨rfl, rfl, rfl⟩ rfl rfl rfl rfl rfl
  | playbackNoBarge at_ empty =>
      exact flow.act (.noBarge at_ empty) ⟨rfl, rfl⟩ ⟨rfl, rfl, rfl⟩ rfl rfl rfl rfl rfl
  | playbackCommand at_ next =>
      exact flow.act (.command at_ next) ⟨rfl, rfl⟩ ⟨rfl, rfl, rfl⟩ rfl rfl rfl rfl rfl
  | playbackNoCommand at_ empty =>
      exact flow.act (.noCommand at_ empty) ⟨rfl, rfl⟩ ⟨rfl, rfl, rfl⟩ rfl rfl rfl rfl rfl
  | playbackTick at_ current =>
      exact flow.act (.tick at_ current) ⟨rfl, rfl⟩ ⟨rfl, rfl, rfl⟩ rfl rfl rfl rfl rfl
  | playbackFinish at_ current =>
      exact flow.act (.finish at_ current) ⟨rfl, rfl⟩ ⟨rfl, rfl, rfl⟩ rfl rfl rfl rfl rfl
  | playbackNoTick at_ =>
      exact flow.act (.noTick at_) ⟨rfl, rfl⟩ ⟨rfl, rfl, rfl⟩ rfl rfl rfl rfl rfl
  | playbackSend at_ _ _ =>
      exact flow.act (.send _ at_) ⟨rfl, rfl⟩ ⟨rfl, rfl, rfl⟩ rfl rfl rfl rfl rfl
  | playbackSendFails at_ _ | playbackReceiveFails at_ _ =>
      exact flow.act (.callFails _ at_) ⟨rfl, rfl⟩ ⟨rfl, rfl, rfl⟩ rfl rfl rfl rfl rfl
  | playbackReceive at_ _ =>
      exact flow.act (.receive _ at_) ⟨rfl, rfl⟩ ⟨rfl, rfl, rfl⟩ rfl rfl rfl rfl rfl
  | playbackMirrorFails at_ _ =>
      exact flow.act (.mirrorFails at_) ⟨rfl, rfl⟩ ⟨rfl, rfl, rfl⟩ rfl rfl rfl rfl rfl
  | mainStart command _ there _ =>
      exact flow.act (.commandArrives command there) ⟨rfl, rfl⟩ ⟨rfl, rfl, rfl⟩ rfl rfl rfl rfl rfl
  | mainShutdown _ | mainQuit _ _ =>
      exact flow.act .shutdownRequested ⟨rfl, rfl⟩ ⟨rfl, rfl, rfl⟩ rfl rfl rfl rfl rfl
  | _ =>
      refine Flow.quiet ?_ ⟨rfl, rfl, rfl⟩
      exact flow.still rfl rfl rfl rfl rfl rfl

theorem flow_of_runs {log : List (Event Pcm Samples)} (run : Runs (Step speaking) .initial log w) :
    Flow speaking (capturesOf log) (heardOf log) (actsOf log) w := by
  refine run.logged
    (P := fun log w => Flow speaking (capturesOf log) (heardOf log) (actsOf log) w) ?_ flow_initial
  intro log w event w' flow step
  have stepped := flow.step step
  simpa only [capturesOf, heardOf, actsOf, List.flatMap_append, List.flatMap_singleton]
    using stepped

theorem interrupts_append (more : List (Act Pcm)) :
    interrupts (acts ++ more) = interrupts acts ++ interrupts more :=
  List.filterMap_append

/-- Interrupts are received in the order of their arrival. -/
theorem interrupts_received {s : Sink Pcm} (run : Runs Sink.Step .initial acts s) :
    ∃ unread, arrivals acts = interrupts acts ++ unread ∧
      (s.playback.result = none → unread = s.barges) := by
  refine run.logged (P := fun acts s => ∃ unread, arrivals acts = interrupts acts ++ unread ∧
    (s.playback.result = none → unread = s.barges)) ?_ ⟨[], rfl, fun _ => rfl⟩
  rintro acts s act s' ⟨unread, arrived, same⟩ step
  rw [arrivals_append, interrupts_append, arrived]
  cases step with
  | bargeArrives interrupt there =>
      refine ⟨unread ++ [interrupt], ?_, fun _ => congrArg (· ++ [interrupt]) (same there)⟩
      simp [arrivals, interrupts]
  | @barge speech interrupt rest at_ next =>
      obtain rfl : unread = interrupt :: rest := (same (by rw [at_]; rfl)).trans next
      refine ⟨rest, ?_, fun _ => rfl⟩
      simp [arrivals, interrupts]
  | shutdownRequested | commandArrives command there =>
      refine ⟨unread, ?_, same⟩
      simp [arrivals, interrupts]
  | leave | bargePanics message | callFails message | mirrorFails =>
      refine ⟨unread, ?_, by rintro ⟨⟩⟩
      simp [arrivals, interrupts]
  | goOn at_ _ | noBarge at_ _ | command at_ _ | noCommand at_ _ | tick at_ _ | finish at_ _
  | noTick at_ | send _ at_ | receive _ at_ | mirror at_ =>
      refine ⟨unread, ?_, fun _ => same (by rw [at_]; rfl)⟩
      simp [arrivals, interrupts]

/-- Nothing is lost, repeated or reordered on the edges of the graph, in any
interleaving and with any answers of the hardware. The detector has heard the
captures in the order in which the hardware made them, but for the last nine at most:
those in the channel and the one with the microphone. It has heard the echo
references that the sink sent, in order, but for those in the channel. The interrupts
that arrive at the sink are among those that the frames heard give rise to, and are
received in their order. -/
theorem graph_flow {log : List (Event Pcm Samples)} (run : Runs (Step speaking) .initial log w) :
    (∃ acts, actsOf log = acts.filter Act.told ∧ Runs Sink.Step .initial acts w.sink) ∧
      (∀ listener, w.vad.listener = some listener →
        listener = (heardOf log).foldl (Listener.receive speaking) .initial) ∧
      (∃ missing, capturesOf log = framesOf (heardOf log) ++ missing ∧ missing.length ≤ 9 ∧
        (w.vad.result = none → w.microphone.result = none → missing = w.frames ++ w.hand)) ∧
      (∃ missing, mirrors (actsOf log) = echoesOf (heardOf log) ++ missing ∧ missing.length ≤ 8 ∧
        (w.vad.result = none → missing = w.echoes)) ∧
      (arrivals (actsOf log)).Sublist (Listener.initial.attempts speaking (heardOf log)) ∧
      interrupts (actsOf log) <+: arrivals (actsOf log) := by
  have flow := flow_of_runs run
  obtain ⟨missing, all, few, alive⟩ := flow.frames
  refine ⟨flow.sink, flow.listener, ⟨missing, all, ?_, ?_⟩, flow.echoes, flow.interrupts, ?_⟩
  · exact few.trans (Nat.add_le_add_left w.inHand_le 8)
  · intro vad microphone
    obtain ⟨-, last, same, -, hand⟩ := alive vad
    rw [same, hand microphone]
  · obtain ⟨acts, told, sunk⟩ := flow.sink
    obtain ⟨unread, arrived, -⟩ := interrupts_received sunk
    have received : interrupts (actsOf log) = interrupts acts := told ▸ filterMap_told rfl acts
    have came : arrivals (actsOf log) = arrivals acts := told ▸ filterMap_told rfl acts
    rw [received, came, arrived]
    exact List.prefix_append _ _

/-- A frame is played and mirrored, and a capture interrupts it. -/
theorem graph_flow_one_interrupt :
    ∃ (w : World Unit Unit) (log : List (Event Unit Unit)),
      Runs (Step fun _ _ => true) .initial log w ∧ capturesOf log = [⟨7, 0, ()⟩] ∧
      framesOf (heardOf log) = [⟨7, 0, ()⟩] ∧ mirrors (actsOf log) = [⟨(), 0, 0⟩] ∧
      echoesOf (heardOf log) = [⟨(), 0, 0⟩] ∧ interrupts (actsOf log) = [⟨7⟩] ∧
      (arrivals (actsOf log)).Sublist
        (Listener.initial.attempts (fun _ _ => true) (heardOf log)) := by
  have started : Runs (Step fun _ _ => true) (.initial : World Unit Unit) _ _ :=
    .cons (.mainStart ⟨1, [()]⟩ rfl rfl (by decide)) <| .cons (.playbackGoOn rfl rfl) <|
    .cons (.playbackNoBarge rfl rfl) <| .cons (.playbackCommand rfl rfl) <|
    .cons (.playbackGoOn rfl rfl) <| .cons (.playbackNoBarge rfl rfl) <|
    .cons (.playbackNoCommand rfl rfl) <| .cons (.playbackTick rfl rfl) .nil
  have mirrored := started
    |>.snoc (.playbackSend rfl rfl (by decide)) |>.snoc (.proxyGoOn rfl rfl)
    |>.snoc (.proxyPlay ⟨0, 0⟩ rfl (by decide)) |>.snoc (.playbackReceive rfl rfl)
    |>.snoc (.playbackMirror rfl rfl (by decide))
  have forwarded := mirrored
    |>.snoc (.microphoneTick rfl) |>.snoc (.microphoneSend rfl rfl (by decide))
    |>.snoc (.proxyGoOn rfl rfl) |>.snoc (.proxyNoPlay rfl rfl)
    |>.snoc (.proxyCapture (.ok ⟨7, 0, ()⟩) rfl (by decide))
    |>.snoc (.microphoneReceive rfl rfl) |>.snoc (.microphoneAdopt (.ok ()) rfl)
    |>.snoc (.microphoneForward rfl rfl (by decide))
  have heard := forwarded
    |>.snoc (.vadGoOn rfl rfl) |>.snoc (.vadEcho rfl rfl) |>.snoc (.vadGoOn rfl rfl)
    |>.snoc (.vadNoEcho rfl rfl) |>.snoc (.vadFrame rfl rfl)
  have interrupted := heard |>.snoc (.playbackGoOn rfl rfl) |>.snoc (.playbackBarge rfl rfl)
  obtain ⟨-, -, ⟨missing, captured, -, frames⟩, ⟨unheard, echoed, -, echoes⟩, within, -⟩ :=
    graph_flow interrupted
  obtain rfl := frames rfl rfl
  obtain rfl := echoes rfl
  exact ⟨_, _, interrupted, rfl, (captured.trans (List.append_nil _)).symm, rfl,
    (echoed.trans (List.append_nil _)).symm, rfl, within⟩

end Flow

end Dorsche.Topshim.Actors
