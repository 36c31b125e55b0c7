import Dorsche.Bin.FlossAudioSmoke.Main

/-!
What `floss_audio_smoke` does to the service, in every run.

`Seen` is what a reader of the requests and their replies knows of the stream of
`--address`, and `monitor` says what the tool may do in each state: it reconfigures and
starts only a stream that it has just found stopped, feeds only one that it has found
started, and in the order of its input. The one assumption on the surroundings is that the clock
advances while the tool sleeps. The tool stops what it has started if everything was
fed, and only then.
-/

namespace Dorsche.Bin.FlossAudioSmoke

open Dorsche.Lib Attempt Proc

/-! ### The stream -/

variable {F : Type}

/-- A tick of the tone: every sample once for each channel. -/
def toneFrame (sample : UInt64 → Int16) (sampleIndex : UInt64) : List UInt8 :=
  (List.range (framesPerTick * channels)).flatMap fun block =>
    leBytes 2 (sample (sampleIndex + UInt64.ofNat (block / channels))).toUInt16.toNat

def toneTicks (sample : UInt64 → Int16) (ticks : Nat) : List UInt8 :=
  (List.range ticks).flatMap fun tick => toneFrame sample (UInt64.ofNat (tick * framesPerTick))

/-- The ticks of a duration; the product is a `u64`. -/
def tickCount (seconds : UInt64) : Nat := seconds.toNat * 1000 % 2 ^ 64 / 20

theorem tickCount_le (seconds : UInt64) : tickCount seconds ≤ seconds.toNat * 50 := by
  have product := Nat.mod_le (seconds.toNat * 1000) (2 ^ 64)
  unfold tickCount
  omega

/-- What is to be fed: the octets of a file of whole frames, or the tone with its silent
tail. -/
def stream (sample : F → UInt64 → Int16) (args : Args F) (file : Option (List UInt8)) :
    Option (List UInt8) :=
  match args.pcmPath with
  | some _ => file.filter fun pcm => pcm ≠ [] ∧ pcm.length % (channels * 2) = 0
  | none => some (toneTicks (sample args.frequencyHz) (tickCount args.seconds) ++
      List.replicate (5 * frameBytes) 0)

section Tone

variable (sample : UInt64 → Int16) (sampleIndex : UInt64)

theorem frameBytes_eq : frameBytes = 3840 := by
  simp [frameBytes, framesPerTick, channels]

theorem length_toneFrame : (toneFrame sample sampleIndex).length = frameBytes := by
  simp [toneFrame, frameBytes, List.length_flatMap]

/-- The loops of a tick write every octet of it. -/
theorem fillTone_eq {pcm : Buffer UInt8} (length : pcm.cells.length = frameBytes) :
    ∃ out, fillTone sample sampleIndex pcm = some out ∧
      out.cells = toneFrame sample sampleIndex := by
  let content : Nat → List UInt8 := fun block =>
    leBytes 2 (sample (sampleIndex + UInt64.ofNat (block / channels))).toUInt16.toNat
  have sized : ∀ block, (content block).length = 2 := fun _ => length_leBytes _ _
  have inside : ∀ block ∈ List.range (framesPerTick * channels), block < framesPerTick * channels :=
    fun _ mem => List.mem_range.mp mem
  obtain ⟨out, wrote, has⟩ := Buffer.writeBlocks_eq_some sized inside length
  have blocks : fillTone sample sampleIndex pcm =
      pcm.writeBlocks 2 content (List.range (framesPerTick * channels)) := by
    rw [← flatMap_range_blocks, Buffer.writeBlocks_flatMap]
    refine congrArg (fun body => (List.range framesPerTick).foldlM body pcm) ?_
    funext buffer frame
    -- both channels of a frame have its sample
    have left : frame * channels / channels = frame := Nat.mul_div_cancel _ (by decide)
    have right : (frame * channels + 1) / channels = frame := block_div (by decide)
    have pair : List.range channels = [0, 1] := rfl
    simp [pair, Buffer.writeBlocks, content, left, right]
  refine ⟨out, blocks.trans wrote, ?_⟩
  exact eq_flatMap_of_blocks (by decide) sized (has.length.trans length)
    fun block place inside => has.block block place (List.mem_range.mpr inside)

theorem toneTicks_succ (ticks : Nat) : toneTicks sample (ticks + 1) =
    toneTicks sample ticks ++ toneFrame sample (UInt64.ofNat (ticks * framesPerTick)) := by
  rw [toneTicks, List.range_succ, List.flatMap_append, List.flatMap_singleton, toneTicks]

theorem toneTicks_add (first more : Nat) :
    ∃ rest, toneTicks sample (first + more) = toneTicks sample first ++ rest := by
  induction more with
  | zero => exact ⟨[], (List.append_nil _).symm⟩
  | succ more ih =>
      obtain ⟨rest, same⟩ := ih
      exact ⟨_, by rw [← Nat.add_assoc, toneTicks_succ, same, List.append_assoc]⟩

end Tone

/-! ### The monitor -/

structure Seen where
  /-- The clock has come at least so far. -/
  clock : Nat
  /-- The device of the last `SetActiveDevice` that succeeded. -/
  active : Option String
  /-- The last answer of `GetA2dpAudioStarted` for the device, unless a request came after
  it. -/
  audioStarted : Option Bool
  configured : Bool
  volume : Option UInt8
  /-- `StartAudioRequest` has returned true. -/
  accepted : Bool
  /-- The listener has reported 1 after that. -/
  acknowledged : Bool
  file : Option (List UInt8)
  fed : List UInt8
  closed : Bool
  /-- Requests to stop what was started. -/
  stops : Nat
deriving DecidableEq, Repr

def Seen.initial (clock : Nat) : Seen :=
  ⟨clock, none, none, false, none, false, false, none, [], false, 0⟩

/-- What a reader with an eye on one device learns. -/
def Seen.next (address : String) (s : Seen) :
    (i : Effect Request Message) → i.Reply Request.Reply → Seen
  | .ask .now, reading => { s with clock := reading }
  | .ask (.sleep ns), _ => { s with clock := s.clock + ns }
  | .ask (.setActiveDevice device), .ok () => { s with active := some device }
  | .ask (.getA2dpAudioStarted device), reply =>
      if device = address then { s with audioStarted := reply.toOption } else s
  | .ask (.setAudioConfig device ..), reply =>
      if device = address then
        { s with configured := reply.toOption = some true, audioStarted := none }
      else s
  | .ask (.setVolume volume), .ok () => { s with volume := some volume }
  | .ask .startAudioRequest, reply =>
      { s with accepted := s.accepted || reply.toOption = some true, audioStarted := none }
  | .ask .stopAudioRequest, _ =>
      { s with stops := s.stops + (if s.accepted then 1 else 0), audioStarted := none }
  | .ask (.waitForListener _), reply =>
      { s with acknowledged := s.acknowledged ||
        s.accepted && reply.bind Except.toOption = some 1 }
  | .ask (.readFile _), reply => { s with file := reply.toOption }
  | .ask (.writeAll octets), .ok () => { s with fed := s.fed ++ octets }
  | .ask .shutdown, .ok () => { s with closed := true }
  | _, _ => s

/-- Everything was fed. -/
def Seen.Fed (sample : F → UInt64 → Int16) (args : Args F) (s : Seen) : Prop :=
  s.closed = true ∧ stream sample args s.file = some s.fed

/-- A run of more than two million years. -/
def Overflows (args : Args F) : Prop := 2 ^ 46 ≤ args.seconds.toNat

/-- What the tool may do. It panics over a line that is not taken, or over the arithmetic
of a very long run. -/
def allows (checks : Bool) (sample : F → UInt64 → Int16) (args : Args F) (s : Seen) :
    Effect Request Message → Prop
  | .ask (.setActiveDevice device) | .ask (.getA2dpAudioStarted device) => device = args.address
  | .ask (.setAudioConfig device codecType sampleRate bitsPerSample channelMode) =>
      s.audioStarted = some false ∧
        (device, codecType, sampleRate, bitsPerSample, channelMode) = (args.address, 0, 2, 1, 2)
  | .ask .startAudioRequest => s.active = some args.address ∧ s.configured = true ∧
      s.volume = some args.volume ∧ s.audioStarted = some false ∧ s.accepted = false
  | .ask (.writeAll octets) => s.accepted = true ∧ s.acknowledged = true ∧
      s.audioStarted = some true ∧ s.stops = 0 ∧ s.closed = false ∧
      ∃ rest, stream sample args s.file = some (s.fed ++ octets ++ rest)
  | .ask .stopAudioRequest => s.active = some args.address ∧
      (s.accepted = false ∧ s.audioStarted = some true ∨
        s.accepted = true ∧ s.Fed sample args ∧ s.stops = 0)
  | .operate operation => ¬ operation.Fits → Overflows args
  | .halt reason => (∃ e : String, reason = .panic s!"failed printing to stdout: {e}") ∨
      (∃ text, reason = .panic text) ∧ checks = true ∧ Overflows args
  | .allocate _ => False
  | _ => True

def monitor (checks : Bool) (sample : F → UInt64 → Int16) (args : Args F) :
    Monitor (Effect Request Message) (Effect.Reply Request.Reply) Seen where
  allows := allows checks sample args
  expects s
    | .ask .now, reading => s.clock ≤ reading
    | _, _ => True
  next := Seen.next args.address

/-- How a run may fail: what was started is stopped if everything was fed, and not
otherwise. -/
def Seen.Excused (sample : F → UInt64 → Int16) (args : Args F) (s : Seen) : Prop :=
  s.accepted = true → s.stops = 0 ∨ s.Fed sample args

/-- The postcondition of a part that ends in `ok` if it succeeds. -/
abbrev ending {α : Type} (sample : F → UInt64 → Int16) (args : Args F) (ok : α → Seen → Prop) :
    Post α Seen :=
  ⟨ok, Seen.Excused sample args, fun _ => False⟩

/-! ### Waiting -/

section Parts

variable {checks : Bool} {turns : Nat} {sample : F → UInt64 → Int16} {args : Args F} {s : Seen}

/-- The reader learns the time and the state of the stream. -/
def Seen.at (s : Seen) (clock : Nat) (audioStarted : Option Bool) : Seen :=
  { s with clock, audioStarted }

/-- After some turns of a loop with a deadline. Before each sleep the clock was read, and
it was before the deadline. -/
structure Turned (start n : Nat) (s s' : Seen) : Prop where
  same : ∃ clock audioStarted, s' = s.at clock audioStarted
  slept : start + n * pause ≤ s'.clock
  early : n * pause < patience + pause

/-- The reader follows the device of the tool. -/
@[simp] theorem next_getA2dpAudioStarted (reply : Result Bool) :
    (monitor checks sample args).next s (.ask (.getA2dpAudioStarted args.address)) reply =
      { s with audioStarted := reply.toOption } := if_pos rfl

@[simp] theorem next_setAudioConfig (codecType : UInt32) (sampleRate bitsPerSample
    channelMode : Int32) (reply : Result Bool) :
    (monitor checks sample args).next s (.ask (.setAudioConfig args.address codecType sampleRate
      bitsPerSample channelMode)) reply =
        { s with configured := reply.toOption = some true, audioStarted := none } := if_pos rfl

theorem keeps_getA2dpAudioStarted (excused : s.Excused sample args) {ok : Bool → Seen → Prop}
    (done : ∀ started, ok started { s with audioStarted := some started }) :
    Keeps (monitor checks sample args) (getA2dpAudioStarted args.address) s
      (ending sample args ok) := by
  refine keeps_perform_bind rfl fun reply _ => ?_
  rw [next_getA2dpAudioStarted]
  refine keeps_lift ?_ ?_
  · rintro started rfl
    exact done started
  · rintro e rfl
    exact excused

/-- One more turn. -/
theorem Turned.again {start n clock reading : Nat} {audioStarted : Option Bool}
    (turned : Turned start n s (s.at clock audioStarted)) (read : clock ≤ reading)
    (before : reading < start + patience) (audioStarted' : Option Bool) :
    Turned start (n + 1) s (s.at (reading + pause) audioStarted') := by
  have slept : start + n * pause ≤ clock := turned.slept
  refine ⟨⟨_, _, rfl⟩, ?_, ?_⟩
  · change start + (n + 1) * pause ≤ reading + pause
    rw [Nat.succ_mul]
    omega
  · rw [Nat.succ_mul]
    omega

/-- Turns of a loop do not exceed its deadline. -/
theorem Turned.spent {start : Nat} {s s' : Seen} (turned : Turned start turns s s')
    (enough : 151 ≤ turns) : False := by
  have early := turned.early
  unfold pause patience at early
  omega

theorem keeps_waitForAudioState (expected : Bool) (enough : 151 ≤ turns)
    (excused : s.Excused sample args) {ok : Unit → Seen → Prop}
    (done : ∀ clock, ok () (s.at clock (some expected))) :
    Keeps (monitor checks sample args) (waitForAudioState turns args.address expected) s
      (ending sample args ok) := by
  refine keeps_perform_bind trivial fun start _ => ?_
  refine keeps_loop (Turned start · s) ?_ (fun _ turned => turned.spent enough) ?_
  · intro n s' turned
    obtain ⟨clock, audioStarted, rfl⟩ := turned.same
    have here : (s.at clock audioStarted).Excused sample args := excused
    refine Keeps.bind (keeps_getA2dpAudioStarted here fun started => ?_)
    split
    · rename_i same
      subst same
      exact keeps_pure (done clock)
    · refine keeps_perform_bind trivial fun reading read => ?_
      split
      · exact keeps_throw excused
      · rename_i before
        exact keeps_perform_bind trivial fun _ _ => keeps_pure
          (turned.again read (Nat.lt_of_not_le before) (some started))
  · exact ⟨⟨start, s.audioStarted, rfl⟩, Nat.le_of_eq (by simp [monitor, Seen.next]),
      by decide⟩

theorem keeps_connectUipc (enough : 151 ≤ turns) (excused : s.Excused sample args)
    {ok : Unit → Seen → Prop} (done : ∀ clock, ok () (s.at clock s.audioStarted)) :
    Keeps (monitor checks sample args) (connectUipc turns) s (ending sample args ok) := by
  refine keeps_perform_bind trivial fun start _ => ?_
  refine keeps_loop (fun n s' => Turned start n s s' ∧ s'.audioStarted = s.audioStarted) ?_
    (fun _ inv => inv.1.spent enough) ?_
  · rintro n s' ⟨turned, known⟩
    obtain ⟨clock, audioStarted, rfl⟩ := turned.same
    cases known
    refine keeps_perform_bind trivial fun connected _ => ?_
    cases connected with
    | ok _ => exact keeps_pure (done clock)
    | error e =>
        refine keeps_perform_bind trivial fun reading read => ?_
        split
        · rename_i before
          exact keeps_perform_bind trivial fun _ _ => keeps_pure
            ⟨turned.again read before s.audioStarted, rfl⟩
        · exact keeps_throw excused
  · exact ⟨⟨⟨start, s.audioStarted, rfl⟩, Nat.le_of_eq (by simp [monitor, Seen.next]),
      by decide⟩, rfl⟩

/-! ### Requests -/

theorem keeps_waitForListener (operation : String) (excused : s.Excused sample args)
    {ok : UInt8 → Seen → Prop} (done : ∀ status, ok status { s with
      acknowledged := s.acknowledged || s.accepted && status = 1 }) :
    Keeps (monitor checks sample args) (waitForListener operation) s
      (ending sample args ok) := by
  refine keeps_perform_bind trivial fun reply _ => ?_
  rcases reply with _ | e | status
  · exact keeps_throw excused
  · exact keeps_lift (by rintro _ ⟨⟩) fun _ _ => excused
  · refine keeps_lift ?_ (by rintro _ ⟨⟩)
    rintro _ ⟨⟩
    have one : decide (some status = some 1) = decide (status = 1) := by simp
    have seen := done status
    rw [← one] at seen
    exact seen

/-- The request to stop, before the start or after the feed. -/
theorem keeps_stopAudio (operation : String)
    (allowed : allows checks sample args s (.ask .stopAudioRequest))
    {ok : UInt8 → Seen → Prop} (done : ∀ status acknowledged, ok status { s with
      stops := s.stops + (if s.accepted then 1 else 0), audioStarted := none, acknowledged }) :
    Keeps (monitor checks sample args) (stopAudio operation) s (ending sample args ok) := by
  have excused : s.Excused sample args := by
    intro accepted
    rcases allowed.2 with ⟨not, -⟩ | ⟨-, fed, -⟩
    · cases not.symm.trans accepted
    · exact .inr fed
  refine keeps_perform_bind trivial fun pair _ => keeps_lift_bind (fun _ _ => ?_)
    fun _ _ => excused
  have after : Seen.Excused sample args { s with
      stops := s.stops + (if s.accepted then 1 else 0), audioStarted := none } := by
    intro accepted
    rcases allowed.2 with ⟨not, -⟩ | ⟨-, fed, -⟩
    · cases not.symm.trans accepted
    · exact .inr fed
  refine keeps_perform_bind allowed fun stopped _ => keeps_lift_bind (fun _ _ => ?_)
    fun _ _ => after
  exact keeps_waitForListener operation after fun status => done status _

theorem keeps_stopExistingStream (enough : 151 ≤ turns) (active : s.active = some args.address)
    (before : s.accepted = false) {ok : Unit → Seen → Prop}
    (done : ∀ clock acknowledged, ok () { s with
      clock, audioStarted := some false, acknowledged }) :
    Keeps (monitor checks sample args) (stopExistingStream turns args.address) s
      (ending sample args ok) := by
  have excused : ∀ s' : Seen, s'.accepted = s.accepted → s'.Excused sample args := by
    intro s' same accepted
    cases before.symm.trans (same.symm.trans accepted)
  refine Keeps.bind (keeps_getA2dpAudioStarted (excused s rfl) fun started => ?_)
  cases started with
  | false => exact keeps_pure (done s.clock s.acknowledged)
  | true =>
      refine Keeps.bind (keeps_stopAudio _ ?_ ?_)
      · exact ⟨active, .inl ⟨before, rfl⟩⟩
      · intro status acknowledged
        refine keeps_lift_bind (fun _ _ => ?_) fun _ _ => excused _ rfl
        refine keeps_waitForAudioState false enough ?_ fun clock => ?_
        · exact excused _ rfl
        · have none_ : s.stops + (if s.accepted then 1 else 0) = s.stops := by simp [before]
          have seen := done clock acknowledged
          rw [← none_] at seen
          exact seen

/-- Before the start: the stream is configured and was just found stopped. -/
theorem keeps_prepare (start : Nat) (enough : 151 ≤ turns) {ok : Unit → Seen → Prop}
    (done : ∀ clock acknowledged, ok () { Seen.initial clock with
      active := some args.address, audioStarted := some false, configured := true,
      volume := some args.volume, acknowledged }) :
    Keeps (monitor checks sample args) (prepare turns args) (.initial start)
      (ending sample args ok) := by
  have excused : ∀ s : Seen, s.accepted = false → s.Excused sample args := by
    intro s before accepted
    cases before.symm.trans accepted
  refine keeps_perform_bind trivial fun connection _ => keeps_lift_bind (fun _ _ => ?_)
    fun _ _ => excused _ rfl
  refine keeps_perform_bind trivial fun media _ => keeps_lift_bind (fun _ _ => ?_)
    fun _ _ => excused _ rfl
  refine keeps_perform_bind rfl fun active _ => ?_
  cases active with
  | error e => exact keeps_lift_bind (by rintro _ ⟨⟩) fun _ _ => excused _ rfl
  | ok done_ => ?_
  refine keeps_lift_bind (fun _ _ => ?_) (by rintro _ ⟨⟩)
  refine Keeps.bind (keeps_stopExistingStream enough rfl rfl fun clock acknowledged => ?_)
  refine keeps_perform_bind ⟨rfl, rfl⟩ fun config _ => ?_
  rw [next_setAudioConfig]
  refine keeps_lift_bind ?_ fun _ _ => excused _ rfl
  rintro accepted rfl
  refine keeps_lift_bind (fun _ accepts => ?_) fun _ _ => excused _ rfl
  obtain rfl := (ensure_eq_ok.mp accepts)
  refine Keeps.bind (keeps_waitForAudioState false enough ?_ fun clock => ?_)
  · exact excused _ rfl
  · refine keeps_perform_bind trivial fun volume _ => keeps_lift ?_ ?_
    · rintro _ rfl
      exact done clock acknowledged
    · rintro _ rfl
      exact excused _ rfl

/-- A started stream, of which something has been fed. -/
structure Seen.Streaming (args : Args F) (s : Seen) : Prop where
  active : s.active = some args.address
  accepted : s.accepted = true
  acknowledged : s.acknowledged = true
  audioStarted : s.audioStarted = some true
  stops : s.stops = 0
  closed : s.closed = false

theorem Seen.Streaming.excused (streaming : s.Streaming args) : s.Excused sample args :=
  fun _ => .inl streaming.stops

theorem Seen.Streaming.feeds (streaming : s.Streaming args) (file : Option (List UInt8))
    (fed : List UInt8) : Seen.Streaming args { s with file, fed } :=
  ⟨streaming.active, streaming.accepted, streaming.acknowledged, streaming.audioStarted,
    streaming.stops, streaming.closed⟩

/-- Everything was fed, and nothing was stopped. -/
structure Seen.Finished (sample : F → UInt64 → Int16) (args : Args F) (s : Seen) : Prop where
  active : s.active = some args.address
  accepted : s.accepted = true
  fed : s.Fed sample args
  stops : s.stops = 0

theorem keeps_startAudio (ready : s.active = some args.address ∧ s.configured = true ∧
      s.volume = some args.volume ∧ s.audioStarted = some false ∧ s.accepted = false)
    (fresh : s.stops = 0 ∧ s.closed = false ∧ s.fed = []) {ok : Unit → Seen → Prop}
    (done : ∀ s', s'.Streaming args → s'.fed = [] → ok () s') :
    Keeps (monitor checks sample args) (startAudio args) s (ending sample args ok) := by
  have excused : ∀ s' : Seen, s'.stops = 0 → s'.Excused sample args := fun _ none_ _ => .inl none_
  refine keeps_perform_bind trivial fun pair _ => keeps_lift_bind (fun _ _ => ?_)
    fun _ _ => excused _ fresh.1
  refine keeps_perform_bind ready fun reply _ => keeps_lift_bind ?_ fun _ _ => excused _ fresh.1
  rintro accepted rfl
  refine keeps_lift_bind (fun _ accepts => ?_) fun _ _ => excused _ fresh.1
  obtain rfl := ensure_eq_ok.mp accepts
  refine Keeps.bind (keeps_waitForListener _ ?_ fun status => ?_)
  · exact excused _ fresh.1
  refine keeps_lift_bind (fun _ one => ?_) fun _ _ => excused _ fresh.1
  obtain rfl := ensure_eq_ok.mp one
  refine Keeps.bind (keeps_getA2dpAudioStarted ?_ fun started => ?_)
  · exact excused _ fresh.1
  refine keeps_lift (fun _ starts => ?_) fun _ _ => excused _ fresh.1
  obtain rfl := ensure_eq_ok.mp starts
  refine done _ ⟨ready.1, ?_, ?_, rfl, fresh.1, fresh.2.1⟩ fresh.2.2
  · simp [monitor, Seen.next, Except.toOption]
  · simp [monitor, Seen.next, Except.toOption]

/-! ### Feeding -/

theorem keeps_writeAll {text : String} {octets : List UInt8} (streaming : s.Streaming args)
    (next : ∃ rest, stream sample args s.file = some (s.fed ++ octets ++ rest))
    {ok : Unit → Seen → Prop} (done : ok () { s with fed := s.fed ++ octets }) :
    Keeps (monitor checks sample args) (writeAll text octets) s (ending sample args ok) := by
  have allowed : allows checks sample args s (.ask (.writeAll octets)) :=
    ⟨streaming.accepted, streaming.acknowledged, streaming.audioStarted, streaming.stops,
      streaming.closed, next⟩
  refine keeps_perform_bind allowed fun written _ => ?_
  cases written with
  | ok _ => exact keeps_lift (fun _ _ => done) (by rintro _ ⟨⟩)
  | error e => exact keeps_lift (by rintro _ ⟨⟩) fun _ _ => streaming.excused

theorem keeps_closeStream (streaming : s.Streaming args)
    {ok : Unit → Seen → Prop} (done : ok () { s with closed := true }) :
    Keeps (monitor checks sample args) closeStream s (ending sample args ok) := by
  refine keeps_perform_bind trivial fun closed _ => ?_
  cases closed with
  | ok _ => exact keeps_lift (fun _ _ => done) (by rintro _ ⟨⟩)
  | error e => exact keeps_lift (by rintro _ ⟨⟩) fun _ _ => streaming.excused

/-- A product or sum that overflows only in a very long run. -/
theorem keeps_word {text : String} {exact : Nat} (overflows : 2 ^ 64 ≤ exact → Overflows args)
    {ok : Nat → Seen → Prop} (done : ∀ value, value = exact % 2 ^ 64 → ok value s) :
    Keeps (monitor checks sample args) (word checks text exact) s (ending sample args ok) := by
  have long (large : ¬ Operation.Fits ⟨text, exact, 2 ^ 64, checks⟩) : Overflows args :=
    overflows (Nat.le_of_not_lt large)
  exact keeps_operate (fun large => long large)
    (fun checked large => .inr ⟨⟨_, rfl⟩, checked, long large⟩) (done _ rfl)

/-- A line that is not taken is a panic. -/
theorem keeps_println {line : Message} {ok : Unit → Seen → Prop} (done : ok () s) :
    Keeps (monitor checks sample args) (println line) s (ending sample args ok) :=
  keeps_print trivial (fun e => .inl ⟨e, rfl⟩) done

theorem keeps_add_bind {α : Type} {a b : Nat} {f : Nat → Program α}
    (overflows : 2 ^ 64 ≤ a + b → Overflows args) {ok : α → Seen → Prop}
    (rest : ∀ value, value = (a + b) % 2 ^ 64 →
      Keeps (monitor checks sample args) (f value) s (ending sample args ok)) :
    Keeps (monitor checks sample args) (add checks a b >>= f) s (ending sample args ok) :=
  Keeps.bind (keeps_word overflows rest)

theorem keeps_multiply {a b : Nat} (overflows : 2 ^ 64 ≤ a * b → Overflows args)
    {ok : Nat → Seen → Prop} (done : ∀ value, value = a * b % 2 ^ 64 → ok value s) :
    Keeps (monitor checks sample args) (multiply checks a b) s (ending sample args ok) :=
  keeps_word overflows done

theorem keeps_writePcmFile {path : String} (streaming : s.Streaming args) (unfed : s.fed = [])
    (isFile : args.pcmPath = some path) {ok : Nat → Seen → Prop}
    (done : ∀ bytes s', s'.Finished sample args → ok bytes s') :
    Keeps (monitor checks sample args) (writePcmFile path) s (ending sample args ok) := by
  refine keeps_perform_bind trivial fun file _ => ?_
  cases file with
  | error e =>
      exact keeps_lift_bind (by rintro _ ⟨⟩) fun _ _ => (streaming.feeds none s.fed).excused
  | ok pcm =>
      have begun : Seen.Streaming args { s with file := some pcm } :=
        streaming.feeds (some pcm) s.fed
      refine keeps_lift_bind ?_ (by rintro _ ⟨⟩)
      rintro _ ⟨⟩
      refine keeps_lift_bind (fun _ framed => ?_) fun _ _ => begun.excused
      have whole : stream sample args (some pcm) = some pcm := by
        obtain ⟨some_, frames⟩ := not_or.mp (ensure_eq_ok.mp framed)
        simp [stream, isFile, Option.filter, some_, not_not.mp frames]
      have pieces := flatten_chunks (by simp [frameBytes_eq] : 0 < frameBytes) pcm
      -- what has been fed is the chunks that are done
      refine Keeps.bind (keeps_foldlM
        (fun chunks _ s' => s'.Streaming args ∧ s'.file = some pcm ∧ s'.fed = chunks.flatten)
        ?_ ?_ ?_)
      · rintro before chunk rest bytes s' all ⟨streaming, file, fed⟩
        refine keeps_perform_bind trivial fun _ _ => Keeps.bind (keeps_writeAll streaming ?_ ?_)
        · refine ⟨rest.flatten, ?_⟩
          rw [file, whole, fed, ← pieces, all]
          simp
        · refine keeps_pure ⟨streaming.feeds s'.file (s'.fed ++ chunk), file, ?_⟩
          simp [fed]
      · rintro bytes s' ⟨streaming, file, fed⟩
        refine Keeps.bind (keeps_closeStream streaming (keeps_pure ?_))
        refine done _ _ ⟨streaming.active, streaming.accepted, ⟨rfl, ?_⟩, streaming.stops⟩
        change stream sample args s'.file = some s'.fed
        rw [file, whole, fed, pieces]
      · exact ⟨begun, rfl, unfed⟩

/-- The index of the next sample, as a `u64`. -/
theorem ofNat_nextIndex (ticks : Nat) :
    UInt64.ofNat (((UInt64.ofNat (ticks * framesPerTick)).toNat + framesPerTick) % 2 ^ 64) =
      UInt64.ofNat ((ticks + 1) * framesPerTick) := by
  rw [← UInt64.toNat_inj]
  simp [Nat.succ_mul]

/-- What the loop over the ticks of a tone keeps. -/
structure Seen.Toned (sample : F → UInt64 → Int16) (args : Args F) (ticks : Nat)
    (state : Buffer UInt8 × UInt64) (s : Seen) : Prop where
  streaming : s.Streaming args
  fed : s.fed = toneTicks (sample args.frequencyHz) ticks
  cells : state.1.cells.length = frameBytes
  index : state.2 = UInt64.ofNat (ticks * framesPerTick)

theorem keeps_toneTick {ticks item : Nat} {state : Buffer UInt8 × UInt64}
    (isTone : args.pcmPath = none) (left : ticks < tickCount args.seconds)
    (toned : s.Toned sample args ticks state) {ok : Buffer UInt8 × UInt64 → Seen → Prop}
    (done : ∀ state s', s'.Toned sample args (ticks + 1) state → ok state s') :
    Keeps (monitor checks sample args) (toneTick checks (sample args.frequencyHz) state item) s
      (ending sample args ok) := by
  obtain ⟨pcm, index⟩ := state
  obtain ⟨streaming, fed, cells, at_⟩ := toned
  dsimp only at at_
  obtain ⟨out, filled, content⟩ := fillTone_eq (sample args.frequencyHz) index cells
  have overflows : 2 ^ 64 ≤ index.toNat + framesPerTick → Overflows args := by
    have small : index.toNat ≤ ticks * framesPerTick := by
      rw [at_]
      exact Nat.mod_le _ _
    have bound := tickCount_le args.seconds
    unfold Overflows
    unfold framesPerTick at small ⊢
    omega
  refine keeps_perform_bind trivial fun _ _ => ?_
  simp only [filled]
  refine keeps_add_bind overflows ?_
  rintro _ rfl
  refine Keeps.bind (keeps_writeAll streaming ?_ ?_)
  · obtain ⟨more, total⟩ := Nat.exists_eq_add_of_lt left
    obtain ⟨rest, all⟩ := toneTicks_add (sample args.frequencyHz) (ticks + 1) more
    refine ⟨rest ++ List.replicate (5 * frameBytes) 0, ?_⟩
    have order : ticks + more + 1 = ticks + 1 + more := by omega
    simp only [stream, isTone, total, order, all, toneTicks_succ, fed, content, at_,
      List.append_assoc]
  · refine keeps_pure (done _ _ ⟨streaming.feeds s.file _, ?_, ?_, ?_⟩)
    · simp only [fed, content, toneTicks_succ, at_]
    · simp only [content, length_toneFrame]
    · rw [at_]
      exact ofNat_nextIndex ticks

theorem keeps_silentTicks (isTone : args.pcmPath = none) (streaming : s.Streaming args)
    (fed : s.fed = toneTicks (sample args.frequencyHz) (tickCount args.seconds))
    {ok : Unit → Seen → Prop}
    (done : ∀ s', s'.Streaming args → stream sample args s'.file = some s'.fed → ok () s') :
    Keeps (monitor checks sample args)
      ((List.range 5).foldlM (silentTick (List.replicate frameBytes 0)) ()) s
      (ending sample args ok) := by
  refine keeps_foldlM (fun ticks _ s' => s'.Streaming args ∧ s'.fed =
    toneTicks (sample args.frequencyHz) (tickCount args.seconds) ++
      List.replicate (ticks.length * frameBytes) 0) ?_ ?_ ?_
  · rintro before tick rest _ s' all ⟨streaming, fed⟩
    have length : 5 = before.length + rest.length + 1 := by
      have total := congrArg List.length all
      simp at total
      omega
    refine keeps_perform_bind trivial fun _ _ => keeps_writeAll streaming ?_ ?_
    · refine ⟨List.replicate (rest.length * frameBytes) 0, ?_⟩
      have parts : 5 * frameBytes =
          before.length * frameBytes + frameBytes + rest.length * frameBytes := by
        rw [length, Nat.add_mul, Nat.add_mul]
        omega
      simp only [stream, isTone, fed, parts, List.append_assoc, List.replicate_append_replicate]
    · refine ⟨streaming.feeds s'.file _, ?_⟩
      simp [fed, Nat.add_mul]
  · rintro _ s' ⟨streaming, fed⟩
    refine done s' streaming ?_
    simp [stream, isTone, fed]
  · exact ⟨streaming, by simp [fed]⟩

/-- The count of the octets overflows only in a very long run. -/
theorem overflows_of_total
    (large : 2 ^ 64 ≤ (tickCount args.seconds + 5) % 2 ^ 64 * frameBytes) : Overflows args := by
  have bound := tickCount_le args.seconds
  have less := Nat.mod_le (tickCount args.seconds + 5) (2 ^ 64)
  rw [frameBytes_eq] at large
  unfold Overflows
  omega

theorem keeps_writeTestTone (streaming : s.Streaming args) (unfed : s.fed = [])
    (isTone : args.pcmPath = none) {ok : Nat → Seen → Prop}
    (done : ∀ bytes s', s'.Finished sample args → ok bytes s') :
    Keeps (monitor checks sample args)
      (writeTestTone checks (sample args.frequencyHz) args.seconds) s (ending sample args ok) := by
  have long : 2 ^ 64 ≤ args.seconds.toNat * 1000 → Overflows args := by
    unfold Overflows
    omega
  refine Keeps.bind (keeps_multiply long ?_)
  rintro _ rfl
  refine Keeps.bind (keeps_foldlM (fun ticks => Seen.Toned sample args ticks.length) ?_ ?_ ?_)
  · intro before tick rest state s' all toned
    have left : before.length < tickCount args.seconds := by
      have total := congrArg List.length all
      simp only [List.length_range, List.length_append, List.length_cons] at total
      unfold tickCount
      omega
    refine keeps_toneTick isTone left toned fun state s' toned => ?_
    rw [List.length_append, List.length_singleton]
    exact toned
  · rintro ⟨pcm, index⟩ s' ⟨streaming, fed, cells, -⟩
    rw [List.length_range] at fed
    dsimp only at cells
    simp only [cells, List.length_replicate]
    refine Keeps.bind (keeps_silentTicks isTone streaming fed fun s' streaming whole => ?_)
    refine Keeps.bind (keeps_closeStream streaming ?_)
    have bound : args.seconds.toNat * 1000 % 2 ^ 64 / 20 ≤ args.seconds.toNat * 50 :=
      tickCount_le args.seconds
    refine keeps_add_bind ?_ ?_
    · unfold Overflows
      omega
    · rintro _ rfl
      refine keeps_multiply ?_ fun bytes _ => ?_
      · exact overflows_of_total
      · exact done _ _ ⟨streaming.active, streaming.accepted, ⟨rfl, whole⟩, streaming.stops⟩
  · refine ⟨streaming, ?_, ?_, ?_⟩
    · rw [unfed]
      rfl
    · simp
    · simp

theorem keeps_feed (enough : 151 ≤ turns) (streaming : s.Streaming args) (unfed : s.fed = [])
    {ok : Unit → Seen → Prop}
    (done : ∀ s', s'.Finished sample args → ok () s') :
    Keeps (monitor checks sample args) (feed checks turns sample args) s
      (ending sample args ok) := by
  refine Keeps.bind (keeps_connectUipc enough streaming.excused fun clock => ?_)
  have begun : (s.at clock s.audioStarted).Streaming args :=
    ⟨streaming.active, streaming.accepted, streaming.acknowledged, streaming.audioStarted,
      streaming.stops, streaming.closed⟩
  cases path : args.pcmPath with
  | some path_ =>
      refine Keeps.bind (keeps_writePcmFile begun unfed path fun bytes s' finished => ?_)
      exact keeps_println (done s' finished)
  | none =>
      refine Keeps.bind (keeps_writeTestTone begun unfed path fun bytes s' finished => ?_)
      exact keeps_println (done s' finished)

theorem keeps_main (start : Nat) (enough : 151 ≤ turns) :
    Keeps (monitor checks sample args) (main checks turns sample args) (.initial start)
      (ending sample args fun _ s => s.accepted = true ∧ s.Fed sample args ∧ s.stops = 1) := by
  refine Keeps.bind (keeps_prepare start enough fun clock acknowledged => ?_)
  refine Keeps.bind (keeps_startAudio ⟨rfl, rfl, rfl, rfl, rfl⟩ ⟨rfl, rfl, rfl⟩
    fun s' streaming unfed => ?_)
  refine Keeps.bind (keeps_println ?_)
  refine Keeps.bind (keeps_feed enough streaming unfed fun s' finished => ?_)
  have ready : allows checks sample args s' (.ask .stopAudioRequest) :=
    ⟨finished.active, .inr ⟨finished.accepted, finished.fed, finished.stops⟩⟩
  refine Keeps.bind (keeps_stopAudio _ ready fun status acknowledged => ?_)
  refine keeps_println ⟨finished.accepted, finished.fed, ?_⟩
  simp [finished.accepted, finished.stops]

end Parts

/-- The tool and the service, whatever the service answers and however far a run has
come. Every request is one that the monitor allows: a stream is reconfigured and started
only after it was found stopped, fed only after the service and its listener confirmed the
start, in the order of the file or of the tone, and stopped once. A run that succeeds has
fed everything and then asked once to stop; one that fails after the start has not asked,
unless everything was fed. If the clock advances while the tool sleeps, 151 turns are
enough for each of its loops. -/
theorem a2dp_protocol (checks : Bool) {turns : Nat} (sample : F → UInt64 → Int16)
    (args : Args F) (start : Nat) (enough : 151 ≤ turns)
    {t : List (Sigma (Effect.Reply Request.Reply))}
    {q : Prog (Effect Request Message) (Effect.Reply Request.Reply) (Option (Result Unit))}
    (comes : (main checks turns sample args).run.run.Comes t q)
    (advances : (monitor checks sample args).Expected (.initial start) t) :
    let seen := (monitor checks sample args).after (.initial start) t
    (monitor checks sample args).Allowed (.initial start) t ∧
      (∀ r k, q = .act r k → allows checks sample args seen r) ∧
      (q = .ret (some (.ok ())) →
        seen.accepted = true ∧ seen.Fed sample args ∧ seen.stops = 1) ∧
      (∀ e, q = .ret (some (.error e)) → seen.accepted = true →
        seen.stops = 0 ∨ seen.Fed sample args) ∧
      q ≠ .ret none := by
  obtain ⟨allowed, next, ends⟩ := (keeps_main start enough).comes comes advances
  refine ⟨allowed, next, ends (some (.ok ())), ?_, ?_⟩
  · intro e failed
    exact ends (some (.error e)) failed
  · intro spent
    exact ends none spent

section Runs

attribute [local semireducible] framesPerTick

/-- A service that accepts everything; the state is whether the stream is started. The
clock stands still. -/
def service (starts : Bool) :
    (i : Effect Request Message) → Bool → Option (i.Reply Request.Reply × Bool)
  | .ask .startAudioRequest, _ => some (.ok true, starts)
  | .ask .stopAudioRequest, _ => some (.ok (), false)
  | .ask (.getA2dpAudioStarted _), started => some (.ok started, started)
  | .ask (.setAudioConfig ..), started => some (.ok true, started)
  | .ask (.waitForListener _), started => some (some (.ok 1), started)
  | .ask (.readFile _), started => some (.ok [1, 0, 2, 0], started)
  | .ask .now, started => some ((0 : Nat), started)
  | .ask .system, started | .ask .build, started | .ask (.setActiveDevice _), started
  | .ask .listenerPair, started | .ask (.setVolume _), started | .ask .connect, started
  | .ask (.writeAll _), started | .ask .shutdown, started => some (.ok (), started)
  | .ask (.sleep _), started | .ask .tick, started => some ((), started)
  | .print _, started => some (.ok (), started)
  | .operate _, started => some ((), started)
  | .allocate _, _ | .halt _, _ => none

/-- A file of one frame. -/
def sampleArgs : Args Unit := ⟨"F0:BE:25:79:62:A4", 3, 40, (), some "frame.raw"⟩

/-- What both runs do until the service says whether the stream has started. -/
def sampleStart (started : Bool) : List (Sigma (Effect.Reply (L := Message) Request.Reply)) :=
  [⟨.ask .system, .ok ()⟩, ⟨.ask .build, .ok ()⟩,
    ⟨.ask (.setActiveDevice "F0:BE:25:79:62:A4"), .ok ()⟩,
    ⟨.ask (.getA2dpAudioStarted "F0:BE:25:79:62:A4"), .ok false⟩,
    ⟨.ask (.setAudioConfig "F0:BE:25:79:62:A4" 0 2 1 2), .ok true⟩, ⟨.ask .now, (0 : Nat)⟩,
    ⟨.ask (.getA2dpAudioStarted "F0:BE:25:79:62:A4"), .ok false⟩, ⟨.ask (.setVolume 40), .ok ()⟩,
    ⟨.ask .listenerPair, .ok ()⟩, ⟨.ask .startAudioRequest, .ok true⟩,
    ⟨.ask (.waitForListener "A2DP start"), some (.ok 1)⟩,
    ⟨.ask (.getA2dpAudioStarted "F0:BE:25:79:62:A4"), .ok started⟩]

/-- The rest of the run with a stream that starts. -/
def sampleFeed : List (Sigma (Effect.Reply (L := Message) Request.Reply)) :=
  [⟨.print (.started 40), .ok ()⟩, ⟨.ask .now, (0 : Nat)⟩, ⟨.ask .connect, .ok ()⟩,
    ⟨.ask (.readFile "frame.raw"), .ok [1, 0, 2, 0]⟩, ⟨.ask .tick, ()⟩,
    ⟨.ask (.writeAll [1, 0, 2, 0]), .ok ()⟩, ⟨.ask .shutdown, .ok ()⟩,
    ⟨.print (.sentFile 4 "frame.raw"), .ok ()⟩, ⟨.ask .listenerPair, .ok ()⟩,
    ⟨.ask .stopAudioRequest, .ok ()⟩, ⟨.ask (.waitForListener "A2DP stop"), some (.ok 1)⟩,
    ⟨.print (.stopped 1), .ok ()⟩]

/-- With a stream that does not start the tool fails without a request to stop; with one
that starts it feeds the frame, stops and succeeds. -/
theorem a2dp_protocol_frame :
    (∃ t e, (main true 151 (fun _ _ => 0) sampleArgs).run.run.Comes t (.ret (some (.error e))) ∧
      ((monitor true (fun _ _ => 0) sampleArgs).after (.initial 0) t).accepted = true ∧
      (((monitor true (fun _ _ => 0) sampleArgs).after (.initial 0) t).stops = 0 ∨
        ((monitor true (fun _ _ => 0) sampleArgs).after (.initial 0) t).Fed
          (fun _ _ => 0) sampleArgs)) ∧
    ∃ t, (main true 151 (fun _ _ => 0) sampleArgs).run.run.Comes t (.ret (some (.ok ()))) ∧
      ((monitor true (fun _ _ => 0) sampleArgs).after (.initial 0) t).fed = [1, 0, 2, 0] ∧
      ((monitor true (fun _ _ => 0) sampleArgs).after (.initial 0) t).Fed
        (fun _ _ => 0) sampleArgs ∧
      ((monitor true (fun _ _ => 0) sampleArgs).after (.initial 0) t).stops = 1 := by
  have idles : (main true 151 (fun _ _ => 0) sampleArgs).run.run.recordFrom (service false) false =
      some (sampleStart false, some (.error "A2DP start failed: listener status=1")) := by
    rfl
  have feeds : (main true 151 (fun _ _ => 0) sampleArgs).run.run.recordFrom (service true) false =
      some (sampleStart true ++ sampleFeed, some (.ok ())) := by
    rfl
  constructor
  · have comes := Prog.comes_ret_iff.mpr (Prog.traces_of_recordFrom idles)
    have advances : (monitor true (fun _ _ => 0) sampleArgs).Expected (.initial 0)
        (sampleStart false) := by
      simp [sampleStart, sampleArgs, Monitor.Expected, monitor, Seen.next, Seen.initial]
    refine ⟨_, _, comes, rfl, ?_⟩
    exact (a2dp_protocol true _ sampleArgs 0 (Nat.le_refl _) comes advances).2.2.2.1 _ rfl rfl
  · have comes := Prog.comes_ret_iff.mpr (Prog.traces_of_recordFrom feeds)
    have advances : (monitor true (fun _ _ => 0) sampleArgs).Expected (.initial 0)
        (sampleStart true ++ sampleFeed) := by
      simp [sampleStart, sampleFeed, sampleArgs, Monitor.Expected, monitor, Seen.next, Seen.initial]
    obtain ⟨-, fed, stops⟩ :=
      (a2dp_protocol true _ sampleArgs 0 (Nat.le_refl _) comes advances).2.2.1 rfl
    exact ⟨_, comes, rfl, fed, stops⟩

end Runs

end Dorsche.Bin.FlossAudioSmoke
