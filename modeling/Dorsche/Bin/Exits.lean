import Dorsche.Bin.Tools
import Dorsche.Wireless.Floss.Stop
import Dorsche.Wireless.Negotiation

/-!
How the two tools end, and whether they stop what they started.

`stop` is called at the end of `main`, so it is called exactly when `main` gets there: a
result that was kept does not prevent it, a question mark does, and so do a panic and a
signal. A line that is printed behind `stop` prevents nothing. Which replies end a tool
before that is said in `Dorsche.Bin.Stopping`.
-/

namespace Dorsche.Bin

open Dorsche.Lib Dorsche.Wireless Dorsche.Wireless.DataPlane Dorsche.Wireless.Floss Attempt Proc

variable {V α : Type} {path : FlossLeDataPath} {t : Log V}

/-- A request to the media service. -/
def Media (i : Effect Request Line) : Prop := ∃ call, i = .ask (.media call)

/-- A run of the control plane, as a tool sees it. -/
def calls (u : Trace V) : Log V := u.map (Prog.named fun call => Effect.ask (Request.media call))

/-- One whole run of `stop`, and no other request to the media service. -/
def StopsOnce (path : FlossLeDataPath) (t : Log V) : Prop :=
  ∃ before u result after, t = before ++ (calls u ++ after) ∧
    (∀ e ∈ before, ¬ Media e.1) ∧ (∀ e ∈ after, ¬ Media e.1) ∧
    (path.stop : Control V Unit).Traces u (some result)

/-- `stop` is called exactly once; if its proxy can be created, the stop of every started
direction is requested. -/
structure Stops (directions : FlossLeDirections) (path : FlossLeDataPath)
    (t : Log V) : Prop where
  once : StopsOnce path t
  all : ⟨.ask (.media .proxyBuild), .ok ()⟩ ∈ t → ∀ d, directions.has d = true →
    ∃ reply, ⟨.ask (.media (.stopAudioRequest d)), reply⟩ ∈ t

theorem mem_calls {u : Trace V} {e : Sigma (Effect.Reply (Request.Reply V))} :
    e ∈ calls u ↔ ∃ call reply, ⟨call, reply⟩ ∈ u ∧ e = ⟨.ask (.media call), reply⟩ := by
  constructor
  · intro mem
    obtain ⟨⟨call, reply⟩, inside, rfl⟩ := List.mem_map.mp mem
    exact ⟨call, reply, inside, rfl⟩
  · rintro ⟨call, reply, mem, rfl⟩
    exact List.mem_map.mpr ⟨_, mem, rfl⟩

theorem media_of_calls {u : Trace V} : ∀ e ∈ calls u, Media e.1 := by
  intro e mem
  obtain ⟨call, reply, -, rfl⟩ := mem_calls.mp mem
  exact ⟨call, rfl⟩

theorem StopsOnce.stops {directions : FlossLeDirections} (once : StopsOnce path t)
    (same : path.directions = directions) : Stops directions path t := by
  refine ⟨once, ?_⟩
  obtain ⟨before, u, result, after, rfl, early, late, stopped⟩ := once
  intro built d running
  rw [← same] at running
  have inside : ⟨.proxyBuild, .ok ()⟩ ∈ u := by
    rcases List.mem_append.mp built with first | rest
    · exact absurd ⟨_, rfl⟩ (early _ first)
    rcases List.mem_append.mp rest with inStop | last
    · obtain ⟨call, reply, mem, same⟩ := mem_calls.mp inStop
      cases same
      exact mem
    · exact absurd ⟨_, rfl⟩ (late _ last)
  obtain ⟨reply, mem⟩ := stop_requests stopped inside running
  refine ⟨reply, List.mem_append_right _ (List.mem_append_left _ ?_)⟩
  exact mem_calls.mpr ⟨_, _, mem, rfl⟩

/-- A run that asks the media service nothing does not stop. -/
theorem not_stopsOnce (other : ∀ e ∈ t, ¬ Media e.1) : ¬ StopsOnce path t := by
  rintro ⟨before, u, result, after, rfl, -, -, stopped⟩
  obtain ⟨⟨call, reply⟩, mem⟩ := List.exists_mem_of_ne_nil _ (stop_asks stopped)
  have asked : ⟨.ask (.media call), reply⟩ ∈ calls u := mem_calls.mpr ⟨call, reply, mem, rfl⟩
  exact other _ (List.mem_append_right _ (List.mem_append_left _ asked)) ⟨call, rfl⟩

/-- The requests to the media service are the run of `stop`. -/
theorem StopsOnce.split {t₁ : Log V} {v : Trace V} (once : StopsOnce path (t₁ ++ calls v))
    (first : ∀ e ∈ t₁, ¬ Media e.1) :
    ∃ u result, calls v = calls u ∧ (path.stop : Control V Unit).Traces u (some result) := by
  classical
  obtain ⟨before, u, result, after, same, early, late, stopped⟩ := once
  refine ⟨u, result, ?_, stopped⟩
  have none {log : Log V} (free : ∀ e ∈ log, ¬ Media e.1) :
      log.filter (fun e => Media e.1) = [] := by
    simpa using free
  have all {u : Trace V} : (calls u).filter (fun e => Media e.1) = calls u := by
    simpa using media_of_calls
  have kept := congrArg (List.filter fun e => Media e.1) same
  simpa only [List.filter_append, none first, none early, none late, all, List.nil_append,
    List.append_nil] using kept

theorem calls_injective {u v : Trace V} (same : calls u = calls v) : u = v := by
  refine List.map_injective_iff.mpr ?_ same
  rintro ⟨call, reply⟩ ⟨call', reply'⟩ equal
  cases equal
  rfl

/-! ### Dropping a data path -/

/-- The lines behind a result of `stop`, or behind a failure that prevents it. -/
def Line.Late : Line → Prop
  | .stopped _ | .dropped => True
  | _ => False

/-- The end of a tool: late lines, and the panics over them. -/
def Closes (panics : Halt → Prop) : Effect Request Line → Prop
  | .print line => line.Late
  | .halt reason => panics reason
  | _ => False

theorem Closes.not_media {panics : Halt → Prop} {i : Effect Request Line}
    (closes : Closes panics i) : ¬ Media i := by
  rintro ⟨call, rfl⟩
  exact closes

section Dropping

variable {x : Program V α} {panics : Halt → Prop}

theorem traces_orDrop {result : Result α} (traces : (orDrop x).Traces t (some result)) :
    (∃ a, result = .ok a ∧ x.Traces t (some (.ok a))) ∨
      ∃ e t₁, result = .error e ∧ x.Traces t₁ (some (.error e)) ∧
        t = t₁ ++ [⟨.print .dropped, .ok ()⟩] := by
  rcases traces_outcome_bind.mp traces with ⟨outcome, t₁, t₂, rfl, ran, rest⟩ | ⟨-, ended⟩
  case inr => cases ended
  cases outcome with
  | ok a =>
      obtain ⟨rfl, same⟩ := traces_pure.mp rest
      cases same
      exact .inl ⟨a, rfl, by rwa [List.append_nil]⟩
  | error e =>
      rcases traces_bind_some.mp rest with ⟨_, u₁, u₂, rfl, printed, thrown⟩ | ⟨_, printed, -⟩
      · obtain ⟨rfl, -⟩ := traces_print.mp printed
        obtain ⟨rfl, same⟩ := traces_throw.mp thrown
        cases same
        exact .inr ⟨e, t₁, rfl, ran, rfl⟩
      · cases (traces_print.mp printed).2

theorem comes_orDrop {i : Effect Request Line} {k : i.Reply (Request.Reply V) → _}
    (prints : ∀ e : String, panics (.panic s!"failed printing to stderr: {e}"))
    (comes : (orDrop x).run.run.Comes t (.act i k)) :
    (∃ k', x.run.run.Comes t (.act i k')) ∨
      ∃ e t₁ t₂, t = t₁ ++ t₂ ∧ x.Traces t₁ (some (.error e)) ∧
        (∀ e ∈ t₂, Closes panics e.1) ∧ Closes panics i := by
  rcases comes_outcome_bind comes with inside | ⟨outcome, t₁, t₂, rfl, ran, rest⟩
  · exact .inl inside
  cases outcome with
  | ok a => cases rest
  | error e =>
      have warns : Ensures (Closes panics) (fun _ => True) (do
          eprintln .dropped
          throw e : Program V α) :=
        (ensures_print trivial prints).bind fun _ _ => ensures_throw
      obtain ⟨lines, last⟩ := Prog.Ensures.comes warns rest
      exact .inr ⟨e, t₁, t₂, rfl, ran, lines, last.1⟩

end Dropping

/-! ### The end of `main` -/

theorem calls_append (u v : Trace V) : calls (u ++ v) = calls u ++ calls v := List.map_append

theorem stop_spec {result : Result Unit} (traces : (stop path).Traces t (some result)) :
    ∃ u after, t = calls u ++ after ∧ (path.stop : Control V Unit).Traces u (some result) ∧
      ∀ e ∈ after, e.1 = .print .dropped := by
  rcases traces_bind_some.mp traces with ⟨_, t₁, t₂, rfl, proxied, stopped⟩ | ⟨e, proxied, rfl⟩
  · rcases traces_orDrop proxied with ⟨_, -, built⟩ | ⟨_, _, same, -⟩
    case inr => cases same
    obtain ⟨u₁, proxy, rfl⟩ := Prog.traces_within.mp built
    obtain ⟨u₂, requested, rfl⟩ := Prog.traces_within.mp stopped
    refine ⟨u₁ ++ u₂, [], ?_, traces_bind_of_ok proxy requested, List.forall_mem_nil _⟩
    rw [calls_append, List.append_nil]
    rfl
  · rcases traces_orDrop proxied with ⟨_, same, -⟩ | ⟨_, t₁, same, failed, rfl⟩
    · cases same
    · cases same
      obtain ⟨u, refused, rfl⟩ := Prog.traces_within.mp failed
      exact ⟨u, _, rfl, traces_bind_of_error refused, List.forall_mem_singleton.mpr rfl⟩

/-- Where `stop` is: at a request that its model makes there, or at the warning. -/
theorem stop_comes {i : Effect Request Line} {k : i.Reply (Request.Reply V) → _}
    {panics : Halt → Prop}
    (prints : ∀ e : String, panics (.panic s!"failed printing to stderr: {e}"))
    (comes : (stop path).run.run.Comes t (.act i k)) :
    (∃ u call l, t = calls u ∧ i = .ask (.media call) ∧
      (path.stop : Control V Unit).run.run.Comes u (.act call l)) ∨
    ∃ u result after, t = calls u ++ after ∧
      (path.stop : Control V Unit).Traces u (some result) ∧ (∀ e ∈ after, Closes panics e.1) ∧
      Closes panics i := by
  rcases comes_bind comes with ⟨_, proxying⟩ | ⟨_, t₁, t₂, rfl, proxied, stopping⟩
  · rcases comes_orDrop prints proxying with ⟨_, building⟩ | ⟨e, t₁, t₂, rfl, failed, lines, last⟩
    · obtain ⟨u, call, l, rfl, inside, rfl⟩ := Prog.comes_within building
      exact .inl ⟨u, call, _, rfl, rfl, Prog.Comes.bind_left inside⟩
    · obtain ⟨u, refused, rfl⟩ := Prog.traces_within.mp failed
      exact .inr ⟨u, _, t₂, rfl, traces_bind_of_error refused, lines, last⟩
  · rcases traces_orDrop proxied with ⟨_, -, built⟩ | ⟨_, _, same, -⟩
    case inr => cases same
    obtain ⟨u₁, proxy, rfl⟩ := Prog.traces_within.mp built
    obtain ⟨u₂, call, l, rfl, inside, rfl⟩ := Prog.comes_within stopping
    exact .inl ⟨u₁ ++ u₂, call, l, (calls_append u₁ u₂).symm, rfl,
      Prog.Traces.comes_bind proxy inside⟩

section Closing

variable {finish : α → Program V Unit} {panics : Halt → Prop}
variable (finishes : ∀ value, Ensures (Closes panics) (fun _ => True) (finish value))

include finishes

theorem closing_spec {ioResult : Result α} {result : Result Unit}
    (traces : (closing finish path ioResult).Traces t (some result)) :
    ∃ u stopResult after, t = calls u ++ after ∧
      (path.stop : Control V Unit).Traces u (some stopResult) ∧
      ∀ e ∈ after, Closes panics e.1 := by
  rcases traces_outcome_bind.mp traces with ⟨stopResult, t₁, t₂, rfl, stopping, rest⟩ | ⟨-, ended⟩
  case inr => cases ended
  obtain ⟨u, dropping, rfl, stopped, warned⟩ := stop_spec stopping
  have looks : Ensures (Closes panics) (fun _ => True) (do
      let value ← ioResult
      stopResult
      finish value : Program V Unit) :=
    (ensures_lift fun _ _ => trivial).bind fun _ _ =>
      (ensures_lift fun _ _ => trivial).bind fun _ _ => finishes _
  refine ⟨u, stopResult, dropping ++ t₂, List.append_assoc .., stopped, fun e mem => ?_⟩
  rcases List.mem_append.mp mem with early | late
  · rw [warned e early]
    trivial
  · exact looks.forall_mem rest e late

theorem closing_comes {ioResult : Result α} {i : Effect Request Line}
    {k : i.Reply (Request.Reply V) → _}
    (prints : ∀ e : String, panics (.panic s!"failed printing to stderr: {e}"))
    (comes : (closing finish path ioResult).run.run.Comes t (.act i k)) :
    (∃ u call l, t = calls u ∧ i = .ask (.media call) ∧
      (path.stop : Control V Unit).run.run.Comes u (.act call l)) ∨
    ∃ u result after, t = calls u ++ after ∧
      (path.stop : Control V Unit).Traces u (some result) ∧ (∀ e ∈ after, Closes panics e.1) ∧
      Closes panics i := by
  rcases comes_outcome_bind comes with ⟨_, stopping⟩ | ⟨stopResult, t₁, t₂, rfl, stopping, rest⟩
  · exact stop_comes prints stopping
  obtain ⟨u, dropping, rfl, stopped, warned⟩ := stop_spec stopping
  obtain ⟨value, -, rest⟩ := comes_lift_bind rest
  obtain ⟨_, -, rest⟩ := comes_lift_bind rest
  obtain ⟨lines, last⟩ := Prog.Ensures.comes (finishes value) rest
  refine .inr
    ⟨u, stopResult, dropping ++ t₂, List.append_assoc .., stopped, fun e mem => ?_, last.1⟩
  rcases List.mem_append.mp mem with early | late
  · rw [warned e early]
    trivial
  · exact lines e late

end Closing

/-! ### Both parts -/

/-- What a tool does while it streams: it asks nothing of the media service and prints
lines of its own. -/
def Streams (panics : Halt → Prop) : Effect Request Line → Prop
  | .ask (.media _) => False
  | .print line => ¬ line.Late
  | .halt reason => panics reason
  | _ => True

theorem Streams.not_media {panics : Halt → Prop} {i : Effect Request Line}
    (streams : Streams panics i) : ¬ Media i := by
  rintro ⟨call, rfl⟩
  exact streams

/-- A reply after which a tool panics or aborts before it has stopped. -/
def Ends (expects : Sigma (Request.Reply V) → Prop)
    (e : Sigma (Effect.Reply (L := Line) (Request.Reply V))) : Prop :=
  Effect.Fatal expects e ∧ ∀ line, e.1 = .print line → ¬ line.Late

section Ends

variable {io : Program V (FlossLeDataPath × Result α)} {finish : α → Program V Unit}
  {panics : Halt → Prop} {exit : Exit Request Line} {expects : Sigma (Request.Reply V) → Prop}
  {fails : Sigma (Effect.Reply (L := Line) (Request.Reply V)) → Prop}
variable (prints : ∀ e : String, panics (.panic s!"failed printing to stderr: {e}"))
variable (streams : Obeys (Effect.Fatal expects) (Streams panics) (fun pair => pair.1 = path) io)
variable (finishes : ∀ value, Ensures (Closes panics) (fun _ => True) (finish value))

/-- The two parts of a tool. -/
abbrev whole (io : Program V (FlossLeDataPath × Result α)) (finish : α → Program V Unit) :
    Program V Unit :=
  orDrop io >>= fun pair => closing finish pair.1 pair.2

include prints streams finishes

/-- A panic is one of the streaming part, or one over a late line. -/
theorem panics_of_exits {reason : Halt} (exits : Exits (whole io finish) t (.halted reason)) :
    panics reason := by
  cases exits with
  | halted comes =>
      rcases comes_bind comes with ⟨_, before⟩ | ⟨pair, t₁, t₂, rfl, -, stopping⟩
      · rcases comes_orDrop prints before with ⟨_, streaming⟩ | ⟨_, _, _, -, -, -, last⟩
        · exact (Prog.Ensures.comes streams.ensures streaming).2.1
        · exact last
      · rcases closing_comes finishes prints stopping with ⟨_, call, _, -, same, -⟩ |
          ⟨_, _, _, -, -, -, last⟩
        · cases same
        · exact last

omit prints streams finishes in
/-- The streaming part has failed. -/
theorem fails_of_streamed {e : String} (failsBy : FailsBy fails io)
    (streamed : io.Traces t (some (.error e))) : ∃ e ∈ t, fails e := by
  by_contra none
  obtain ⟨_, same⟩ := (failsBy t _ streamed).mpr fun e mem failed => none ⟨e, mem, failed⟩
  cases same

variable (failsBy : FailsBy fails io)
variable (harmless : ∀ i reply, Media i ∨ Closes panics i →
  ¬ (fails ⟨i, reply⟩ ∨ Ends expects ⟨i, reply⟩))

include failsBy harmless

omit prints finishes in
/-- The streaming part has returned, and `stop` was called. -/
theorem stopsOnce_of_stopped {pair : FlossLeDataPath × Result α} {t₁ after : Log V} {u : Trace V}
    {result : Result Unit} (streamed : io.Traces t₁ (some (.ok pair)))
    (stopped : (path.stop : Control V Unit).Traces u (some result))
    (lines : ∀ e ∈ after, Closes panics e.1) :
    StopsOnce path (t₁ ++ (calls u ++ after)) ∧
      ∀ e ∈ t₁ ++ (calls u ++ after), ¬ (fails e ∨ Ends expects e) := by
  have early := streams.ensures.forall_mem streamed
  refine ⟨⟨t₁, u, result, after, rfl, fun e mem => (early e mem).not_media,
    fun e mem => (lines e mem).not_media, stopped⟩, fun e mem => ?_⟩
  rcases List.mem_append.mp mem with first | rest
  · rintro (failed | ends)
    · exact (failsBy t₁ _ streamed).mp ⟨pair, rfl⟩ e first failed
    · exact Prog.Obeys.traces streams streamed e first ends.1
  rcases List.mem_append.mp rest with inStop | last
  · exact harmless e.1 e.2 (.inl (media_of_calls e inStop))
  · exact harmless e.1 e.2 (.inr (lines e last))

/-- A tool stops what it started exactly if nothing ends it before: no reply that it returns
early for or panics over, and no signal but one that comes at a late line. -/
theorem stopsOnce_iff (exits : Exits (whole io finish) t exit) :
    StopsOnce path t ↔ (∀ e ∈ t, ¬ (fails e ∨ Ends expects e)) ∧
      ∀ effect, exit = .killed effect → ∃ line, effect = .print line ∧ line.Late := by
  -- a run that is about to act, in either part
  have middle {i : Effect Request Line} {k : i.Reply (Request.Reply V) → _}
      (comes : (whole io finish).run.run.Comes t (.act i k))
      (ends : i.isHalt = true ∧ (∃ reason, exit = .halted reason) ∨
        i.isHalt = false ∧ exit = .killed i) :
      StopsOnce path t ↔ (∀ e ∈ t, ¬ (fails e ∨ Ends expects e)) ∧
        ∀ effect, exit = .killed effect → ∃ line, effect = .print line ∧ line.Late := by
    have late (closes : Closes panics i) :
        ∀ effect, exit = .killed effect → ∃ line, effect = .print line ∧ line.Late := by
      rintro effect rfl
      rcases ends with ⟨-, _, ⟨⟩⟩ | ⟨going, same⟩
      cases same
      cases i with
      | print line => exact ⟨line, rfl, closes⟩
      | halt reason => cases going
      | _ => cases closes
    rcases comes_bind comes with ⟨_, before⟩ | ⟨pair, t₁, t₂, rfl, streamed, stopping⟩
    · rcases comes_orDrop prints before with ⟨_, streaming⟩ | ⟨e, t₁, t₂, rfl, failed, lines, -⟩
      · obtain ⟨early, next⟩ := Prog.Ensures.comes streams.ensures streaming
        refine iff_of_false (not_stopsOnce fun e mem => (early e mem).not_media) ?_
        rintro ⟨served, spared⟩
        rcases ends with ⟨halts, -⟩ | ⟨-, rfl⟩
        · obtain ⟨e, mem, failed⟩ := (Prog.Obeys.comes streams streaming).mp halts
          refine served e mem (.inr ⟨failed, fun line same => ?_⟩)
          have printed := early e mem
          rw [same] at printed
          exact printed
        · obtain ⟨line, rfl, last⟩ := spared i rfl
          exact next.1 last
      · have early := streams.ensures.forall_mem failed
        refine iff_of_false (not_stopsOnce fun e mem => ?_) ?_
        · rcases List.mem_append.mp mem with first | last
          · exact (early e first).not_media
          · exact (lines e last).not_media
        · rintro ⟨served, -⟩
          obtain ⟨e, mem, failed⟩ := fails_of_streamed failsBy failed
          exact served e (List.mem_append_left _ mem) (.inl failed)
    · rcases traces_orDrop streamed with ⟨_, same, streamed⟩ | ⟨_, _, same, -⟩
      case inr => cases same
      cases same
      obtain rfl : pair.1 = path :=
        (Prog.Ensures.comes streams.ensures (Prog.comes_ret_iff.mpr streamed)).2 _ rfl
      rcases closing_comes finishes prints stopping with ⟨u, call, l, rfl, rfl, inside⟩ |
        ⟨u, result, after, rfl, stopped, lines, last⟩
      · refine iff_of_false (fun once => ?_) ?_
        · -- the whole of `stop` is done, and a request of it is left
          obtain ⟨v, result, same, stopped⟩ := once.split fun e mem =>
            (streams.ensures.forall_mem streamed e mem).not_media
          cases calls_injective same
          cases (Prog.comes_ret_iff.mpr stopped).unique inside
        · rintro ⟨-, spared⟩
          rcases ends with ⟨⟨⟩, -⟩ | ⟨-, rfl⟩
          obtain ⟨line, same, -⟩ := spared _ rfl
          cases same
      · obtain ⟨once, served⟩ := stopsOnce_of_stopped streams failsBy harmless streamed stopped
          lines
        exact iff_of_true once ⟨served, late last⟩
  cases exits with
  | returned traces =>
      rcases traces_bind_some.mp traces with ⟨pair, t₁, t₂, rfl, streamed, closed⟩ |
        ⟨e, streamed, rfl⟩
      · rcases traces_orDrop streamed with ⟨_, same, streamed⟩ | ⟨_, _, same, -⟩
        case inr => cases same
        cases same
        obtain rfl : pair.1 = path :=
          (Prog.Ensures.comes streams.ensures (Prog.comes_ret_iff.mpr streamed)).2 _ rfl
        obtain ⟨u, stopResult, after, rfl, stopped, lines⟩ := closing_spec finishes closed
        obtain ⟨once, served⟩ := stopsOnce_of_stopped streams failsBy harmless streamed stopped
          lines
        exact iff_of_true once ⟨served, by rintro _ ⟨⟩⟩
      · rcases traces_orDrop streamed with ⟨_, same, -⟩ | ⟨_, t₁, same, failed, rfl⟩
        · cases same
        have early := streams.ensures.forall_mem failed
        refine iff_of_false (not_stopsOnce fun e mem => ?_) ?_
        · rcases List.mem_append.mp mem with first | last
          · exact (early e first).not_media
          · rw [List.mem_singleton.mp last]
            rintro ⟨_, ⟨⟩⟩
        · rintro ⟨served, -⟩
          obtain ⟨e, mem, failed⟩ := fails_of_streamed failsBy failed
          exact served e (List.mem_append_left _ mem) (.inl failed)
  | halted comes => exact middle comes (.inl ⟨rfl, _, rfl⟩)
  | killed comes going => exact middle comes (.inr ⟨going, rfl⟩)

end Ends

end Dorsche.Bin
