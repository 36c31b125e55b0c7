import Dorsche.Bin.Exits
import Dorsche.Wireless.Floss.Rollback

/-!
Which replies keep the tools from stopping what they started.

Each part of a tool is described twice: by what it can do and when it halts (`Obeys`),
and by the replies that make it fail (`FailsBy`). The smoke tool keeps the result of a
single direction but not that of `try_join!`; `dorsche_pipewire` keeps that of its pump
but not that of `RingPair::create`.
-/

namespace Dorsche.Bin

open Dorsche.Lib Dorsche.Wireless Dorsche.Wireless.DataPlane Dorsche.Wireless.Floss Attempt Proc

variable {V α : Type}

/-! ### The tools -/

inductive Tool where
  | smoke (checks : Bool) (tone : PcmConfiguration → Nat → List UInt8)
      (args : FlossLeAudioSmoke.Args)
  | pipewire (args : DorschePipewire.Args)

/-- A reply that a question mark of the source refuses. -/
def Refused : Sigma (Effect.Reply (L := Line) (Request.Reply V)) → Prop
  | ⟨.ask (.createRing slotCount payloadCapacity), sys⟩ =>
      ∃ e, RingPair.create 64 sys slotCount payloadCapacity = .error e
  | ⟨.ask (.writeAll _), reply⟩ => ∃ e, reply = .error e
  | ⟨.ask .shutdown, reply⟩ => ∃ e, reply = .error e
  | ⟨.ask (.readExact _), reply⟩ => ∃ e, reply = .error e
  | ⟨.ask (.createFile _), reply⟩ => ∃ e, reply = .error e
  | ⟨.ask (.writeFile _), reply⟩ => ∃ e, reply = .error e
  | ⟨.ask .tryReserve, reply⟩ => reply = none
  | ⟨.ask (.commit ..), reply⟩ => ∃ e, reply = .error e
  | ⟨.ask .tryAcquire, reply⟩ => ∀ frame, reply ≠ .ok (some frame)
  | _ => False

/-- A reply that an `expect` of the source refuses. -/
def Expected : Sigma (Request.Reply V) → Prop
  | ⟨.spawn _, reply⟩ => ∃ e, reply = .error e
  | _ => False

/-- The interval of the peer is longer than the ring made for it. -/
def Truncated (path : FlossLeDataPath) : Prop :=
  ∃ pcm octets, path.peerPcm = some pcm ∧ pcm.bytesPerInterval = .ok octets ∧ 2 ^ 32 ≤ octets

namespace Tool

def groupId : Tool → Int32
  | .smoke _ _ args => args.groupId
  | .pipewire args => args.groupId

def directions : Tool → FlossLeDirections
  | .smoke _ _ args => args.directions
  | .pipewire args => args.directions

/-- `main` after `start_software_unicast`. -/
def main (budget : Nat) : Tool → FlossLeDataPath → Program V Unit
  | .smoke checks tone args => FlossLeAudioSmoke.main checks tone args
  | .pipewire args => DorschePipewire.main budget args

/-- A reply for which a tool returns without `stop`. -/
def Returns : Tool → Sigma (Effect.Reply (L := Line) (Request.Reply V)) → Prop
  | .smoke _ _ args, e => args.mode = .duplex ∧ Refused e
  | .pipewire _, e =>
      (∃ slotCount payloadCapacity, e.1 = .ask (.createRing slotCount payloadCapacity)) ∧ Refused e

/-- A reply that keeps a tool from `stop`: it returns or halts. -/
def Abandons (tool : Tool) (e : Sigma (Effect.Reply (L := Line) (Request.Reply V))) : Prop :=
  tool.Returns e ∨ Ends Expected e

/-- How a tool halts: over a line that standard error does not take; in a build with
overflow checks, over a run of more than 139,000 years; over an interval of 4 GiB; over a
buffer that is not allocated, or a thread that cannot be spawned. -/
inductive Panics (path : FlossLeDataPath) : Tool → Halt → Prop where
  | printing {tool} (e : String) : Panics path tool (.panic s!"failed printing to stderr: {e}")
  | overflow {tone args text} : 2 ^ 42 ≤ args.seconds.toNat →
      text ∈ ["attempt to multiply with overflow", "attempt to add with overflow"] →
      Panics path (.smoke true tone args) (.panic text)
  | truncated {tool} : Truncated path →
      Panics path tool (.panic "range end index out of range for slice")
  | allocation {checks tone args} (octets : Nat) : Panics path (.smoke checks tone args)
      (.abort s!"memory allocation of {octets} bytes failed")
  | spawn {args} (expected error : String) :
      expected ∈ ["spawn PipeWire source thread", "spawn PipeWire sink thread"] →
      Panics path (.pipewire args) (.panic s!"{expected}: {error}")

end Tool

/-! ### Requests -/

section Requests

variable {P : Effect Request Line → Prop}
  {fails : Sigma (Effect.Reply (L := Line) (Request.Reply V)) → Prop}

theorem obeys_ask (r : Request) (asks : P (.ask r))
    (harmless : ∀ reply : r.Reply V, ¬ Expected (⟨r, reply⟩ : Sigma (Request.Reply V))) :
    Obeys (Effect.Fatal Expected) P (fun _ => True) (request r : Program V (r.Reply V)) :=
  obeys_request asks harmless

theorem obeys_attempt {text : String} {reply : Program V (Result α)}
    {fatal : Sigma (Effect.Reply (L := Line) (Request.Reply V)) → Prop}
    (asks : Obeys fatal P (fun _ => True) reply) :
    Obeys fatal P (fun _ => True) (attempt text reply) :=
  asks.bind fun _ _ => obeys_lift fun _ _ => trivial

theorem context_fails {text : String} {result : Result α} :
    (∃ e, context text result = .error e) ↔ ∃ e, result = .error e := by
  cases result with
  | ok a => simp [context]
  | error e => simp [context]

/-- The value of an operation that does not halt. -/
theorem obeys_word {checks : Bool} {text : String} {exact : Nat}
    {expects : Sigma (Request.Reply V) → Prop} (asks : ∀ operation, P (.operate operation))
    (panics : checks = true → 2 ^ 64 ≤ exact → P (.halt (.panic text))) :
    Obeys (Effect.Fatal expects) P (fun value => value ≤ exact)
      (word checks text exact : Program V Nat) :=
  (obeys_operate (o := ⟨text, exact, 2 ^ 64, checks⟩) (asks _)
    fun checked large => panics checked (Nat.le_of_not_lt large)).mono (fun _ => id)
    fun _ is => is.le.trans (Nat.mod_le _ _)

theorem obeys_reserve {overrun : String} {octets : Nat} (asks : P (.ask .tryReserve))
    (slices : ∀ operation, P (.operate operation))
    (panics : 2 ^ 32 ≤ octets → P (.halt (.panic "range end index out of range for slice"))) :
    Obeys (Effect.Fatal Expected) P (fun _ => True)
      (reserve overrun (UInt32.ofNat octets) octets : Program V Unit) := by
  refine (obeys_ask .tryReserve asks fun _ => id).bind fun slot _ => ?_
  cases slot with
  | none => exact obeys_throw
  | some slot =>
      refine (obeys_operate (slices _) fun _ large => panics ?_).bind fun _ _ => obeys_pure trivial
      -- the ring was made for the octets that fit into 32 bits
      have short : (UInt32.ofNat octets).toNat < octets :=
        Nat.lt_of_succ_le (Nat.le_of_not_lt large)
      by_contra fits
      rw [UInt32.toNat_ofNat', Nat.mod_eq_of_lt (by omega)] at short
      omega

theorem failsBy_reserve {overrun : String} {capacity : UInt32} {octets : Nat}
    (agree : ∀ reply, fails ⟨.ask .tryReserve, reply⟩ ↔ reply = none)
    (harmless : ∀ operation, ¬ fails ⟨.operate operation, ()⟩) :
    FailsBy fails (reserve overrun capacity octets : Program V Unit) := by
  refine failsBy_perform (fun reply answered => ?_) fun reply refused => ?_
  · cases reply with
    | none => exact absurd ((agree none).mpr rfl) answered
    | some slot => exact (failsBy_operate (harmless _)).bind fun _ => failsBy_pure
  · obtain rfl := (agree reply).mp refused
    exact ⟨overrun, rfl⟩

end Requests

/-! ### `floss_le_audio_smoke` -/

/-- An interval has at most two octets a microsecond. -/
theorem octets_le {pcm : PcmConfiguration} {octets : Nat}
    (interval : pcm.bytesPerInterval = .ok octets) : octets ≤ 2 * pcm.dataIntervalUs.toNat := by
  obtain ⟨_, valid, -⟩ := bind_eq_ok.mp interval
  have bounds := PcmConfiguration.valid_of_validate valid
  obtain ⟨-, rfl⟩ := (PcmConfiguration.bytesPerInterval_eq_ok_iff valid).mp interval
  have frames : pcm.microframes / 1000000 ≤ 48000 * pcm.dataIntervalUs.toNat / 1000000 :=
    Nat.div_le_div_right (Nat.mul_le_mul_right _ bounds.rate_le)
  have width : pcm.bitsPerSample.toNat / 8 ≤ 4 := by
    have := bounds.width
    omega
  calc pcm.wholeOctets
      ≤ 48000 * pcm.dataIntervalUs.toNat / 1000000 * 8 * 4 :=
        Nat.mul_le_mul (Nat.mul_le_mul frames bounds.channels_le) width
    _ ≤ 2 * pcm.dataIntervalUs.toNat := by omega

/-- The octets of a whole number of intervals. -/
theorem intervals_le {pcm : PcmConfiguration} {octets : Nat}
    (interval : pcm.bytesPerInterval = .ok octets) (micros : Nat) :
    micros / pcm.dataIntervalUs.toNat * octets ≤ 2 * micros :=
  calc micros / pcm.dataIntervalUs.toNat * octets
      ≤ micros / pcm.dataIntervalUs.toNat * (2 * pcm.dataIntervalUs.toNat) :=
        Nat.mul_le_mul_left _ (octets_le interval)
    _ = 2 * (micros / pcm.dataIntervalUs.toNat * pcm.dataIntervalUs.toNat) := by
        rw [Nat.mul_left_comm]
    _ ≤ 2 * micros := Nat.mul_le_mul_left _ (Nat.div_mul_le_self _ _)

theorem obeys_interval {P : Effect Request Line → Prop}
    {fatal : Sigma (Effect.Reply (L := Line) (Request.Reply V)) → Prop} {pcm : PcmConfiguration}
    {octets : Nat} (interval : pcm.bytesPerInterval = .ok octets) :
    Obeys fatal P (fun n => n = octets) (liftM pcm.bytesPerInterval : Program V Nat) :=
  obeys_lift fun _ is => (Except.ok.inj (interval.symm.trans is)).symm

namespace FlossLeAudioSmoke

variable {checks : Bool} {tone : PcmConfiguration → Nat → List UInt8} {args : Args}
variable {pcm : PcmConfiguration} {octets : Nat} {panics : Halt → Prop}

/-- What the tool may halt over, as far as a direction knows. -/
structure Bounds (checks : Bool) (args : Args) (panics : Halt → Prop) : Prop where
  printing : ∀ e : String, panics (.panic s!"failed printing to stderr: {e}")
  overflow : checks = true → 2 ^ 42 ≤ args.seconds.toNat →
    ∀ text ∈ ["attempt to multiply with overflow", "attempt to add with overflow"],
      panics (.panic text)
  allocation : ∀ octets : Nat, panics (.abort s!"memory allocation of {octets} bytes failed")

section Obeys

variable (bounds : Bounds checks args panics)

include bounds

theorem obeys_writeTone (interval : pcm.bytesPerInterval = .ok octets) :
    Obeys (Effect.Fatal Expected) (Streams panics) (fun n => n ≤ 2000000 * args.seconds.toNat)
      (writeTone checks tone args pcm : Program V Nat) := by
  apply (obeys_interval interval).bind
  rintro _ rfl
  refine (obeys_word (fun _ => trivial) fun checked large =>
    bounds.overflow checked (by omega) _ (by simp)).bind fun micros few => ?_
  refine (obeys_withCapacity trivial trivial (fun large => ?_) (bounds.allocation _)).bind
    fun _ _ => ?_
  · have short := octets_le interval
    have := pcm.dataIntervalUs.toNat_lt
    omega
  refine (Obeys.forM (fun n => ?_) _).bind fun _ _ =>
    (obeys_ask .shutdown trivial fun _ => id).bind fun _ _ =>
    (obeys_lift fun _ _ => trivial).bind fun _ _ => ?_
  · exact (obeys_ask .tick trivial fun _ => id).bind fun _ _ =>
      obeys_attempt (obeys_ask (.writeAll _) trivial fun _ => id)
  · have total := intervals_le interval micros
    refine (obeys_word (fun _ => trivial) fun checked large =>
      bounds.overflow checked (by omega) _ (by simp)).mono (fun _ => id) fun n le => ?_
    omega

omit bounds in
theorem obeys_createCapture :
    Obeys (Effect.Fatal Expected) (Streams panics) (fun _ => True)
      (createCapture args : Program V Unit) := by
  unfold createCapture
  split
  · exact obeys_pure trivial
  · exact obeys_attempt (obeys_ask (.createFile _) trivial fun _ => id)

omit bounds in
theorem obeys_writeCapture (bytes : List UInt8) :
    Obeys (Effect.Fatal Expected) (Streams panics) (fun _ => True)
      (writeCapture args bytes : Program V Unit) := by
  unfold writeCapture
  split
  · exact (obeys_ask (.writeFile _) trivial fun _ => id).bind fun _ _ =>
      obeys_lift fun _ _ => trivial
  · exact obeys_pure trivial

omit bounds in
theorem obeys_captureInterval {n : Nat}
    (truncated : 2 ^ 32 ≤ octets → panics (.panic "range end index out of range for slice")) :
    Obeys (Effect.Fatal Expected) (Streams panics) (fun _ => True)
      (captureInterval args pcm octets n : Program V Unit) := by
  refine (obeys_reserve trivial (fun _ => trivial) truncated).bind fun _ _ =>
    (obeys_attempt (obeys_ask (.readExact _) trivial fun _ => id)).bind fun _ _ =>
    (obeys_ask .monotonicTime trivial fun _ => id).bind fun _ _ =>
    (obeys_ask (.commit _ _) trivial fun _ => id).bind fun _ _ =>
    (obeys_lift fun _ _ => trivial).bind fun _ _ =>
    (obeys_ask .tryAcquire trivial fun _ => id).bind fun _ _ =>
    (obeys_lift fun _ _ => trivial).bind fun acquired _ => ?_
  cases acquired with
  | none => exact obeys_throw
  | some frame =>
      exact (obeys_writeCapture frame.payload).bind fun _ _ => obeys_lift fun _ _ => trivial

theorem obeys_capturePeer (interval : pcm.bytesPerInterval = .ok octets)
    (truncated : 2 ^ 32 ≤ octets → panics (.panic "range end index out of range for slice")) :
    Obeys (Effect.Fatal Expected) (Streams panics) (fun n => n ≤ 2000000 * args.seconds.toNat)
      (capturePeer checks args pcm : Program V Nat) := by
  apply (obeys_interval interval).bind
  rintro bytesPerInterval rfl
  refine (obeys_word (fun _ => trivial) fun checked large =>
    bounds.overflow checked (by omega) _ (by simp)).bind fun micros few => ?_
  refine ((obeys_ask (.createRing _ _) trivial fun _ => id).bind fun _ _ =>
    obeys_lift fun _ _ => trivial).bind fun _ _ => obeys_createCapture.bind fun _ _ =>
    (Obeys.forM (fun _ => obeys_captureInterval truncated) _).bind fun _ _ => ?_
  have total := intervals_le interval micros
  have product : Obeys (Effect.Fatal Expected) (Streams panics)
      (fun n => n ≤ 2000000 * args.seconds.toNat)
      (multiply checks (micros / pcm.dataIntervalUs.toNat) bytesPerInterval : Program V Nat) := by
    refine (obeys_word (fun _ => trivial) fun checked large =>
      bounds.overflow checked (by omega) _ (by simp)).mono (fun _ => id) fun n le => ?_
    omega
  exact product.bind fun _ _ => (obeys_eprintln id bounds.printing).bind fun _ _ => product

end Obeys

theorem failsBy_multiply {a b : Nat} :
    FailsBy Refused (multiply checks a b : Program V Nat) := failsBy_operate id

theorem failsBy_writeTone (interval : pcm.bytesPerInterval = .ok octets) :
    FailsBy Refused (writeTone checks tone args pcm : Program V Nat) := by
  refine (failsBy_lift interval).bind fun _ => failsBy_multiply.bind fun _ =>
    (failsBy_withCapacity (fun _ => id) fun _ => id).bind fun _ =>
    (FailsBy.forM (fun n => ?_) _).bind fun _ => ?_
  · refine failsBy_perform (fun _ _ => ?_) (fun _ refused => absurd refused id)
    exact failsBy_perform_lift fun _ => context_fails.symm
  · exact failsBy_perform_lift_bind (fun _ => Iff.rfl) fun _ => failsBy_multiply

theorem failsBy_writeCapture (bytes : List UInt8) :
    FailsBy Refused (writeCapture args bytes : Program V Unit) := by
  unfold writeCapture
  split
  · exact failsBy_perform_lift fun _ => Iff.rfl
  · exact failsBy_pure

/-- A frame that is not there is refused like one that cannot be acquired. -/
theorem failsBy_captureInterval (width : pcm.bitsPerSample ∈ [16, 24, 32]) {n : Nat} :
    FailsBy Refused (captureInterval args pcm octets n : Program V Unit) := by
  refine (failsBy_reserve (fun _ => Iff.rfl) fun _ => id).bind fun _ =>
    (failsBy_perform_lift fun _ => context_fails.symm).bind fun _ =>
    failsBy_perform (fun time _ => ?_) (fun _ refused => absurd refused id)
  refine failsBy_perform_lift_bind (fun _ => Iff.rfl) fun _ =>
    failsBy_perform (fun reply answered => ?_) fun reply refused => ?_
  · rcases reply with e | _ | frame
    · exact absurd (by rintro _ ⟨⟩) answered
    · exact absurd (by rintro _ ⟨⟩) answered
    · have decoded : decodeSamples frame.payload pcm.bitsPerSample = .ok () :=
        ensure_eq_ok.mpr (.inr width)
      change FailsBy Refused (writeCapture args frame.payload >>= fun _ =>
        liftM (decodeSamples frame.payload pcm.bitsPerSample))
      exact (failsBy_writeCapture _).bind fun _ => failsBy_lift decoded
  · rcases reply with e | _ | frame
    · exact ⟨e, rfl⟩
    · exact ⟨_, rfl⟩
    · exact absurd rfl (refused frame)

theorem failsBy_capturePeer (interval : pcm.bytesPerInterval = .ok octets) :
    FailsBy Refused (capturePeer checks args pcm : Program V Nat) := by
  have width : pcm.bitsPerSample ∈ [16, 24, 32] := by
    simp only [PcmConfiguration.bytesPerInterval, PcmConfiguration.validate, bind_eq_ok,
      ensure_eq_ok] at interval
    obtain ⟨_, ⟨_, -, _, width, -⟩, -⟩ := interval
    exact width
  refine (failsBy_lift interval).bind fun _ => failsBy_multiply.bind fun _ =>
    (failsBy_perform_lift fun _ => Iff.rfl).bind fun _ => FailsBy.bind ?_ fun _ =>
    (FailsBy.forM (fun _ => failsBy_captureInterval width) _).bind fun _ =>
    failsBy_multiply.bind fun _ => (failsBy_print fun _ => id).bind fun _ => failsBy_multiply
  unfold createCapture
  split
  · exact failsBy_pure
  · exact failsBy_perform_lift fun _ => context_fails.symm

theorem Args.directions_host (mode : args.mode ≠ .input) :
    args.directions.has .hostToPeer = true := by
  unfold Args.directions
  cases is : args.mode with
  | output => rfl
  | input => exact absurd is mode
  | duplex => rfl

theorem Args.directions_peer (mode : args.mode ≠ .output) :
    args.directions.has .peerToHost = true := by
  unfold Args.directions
  cases is : args.mode with
  | output => exact absurd is mode
  | input => rfl
  | duplex => rfl

section Stream

variable {path : FlossLeDataPath}
variable (configured : ∀ d, args.directions.has d = true →
  ∃ pcm octets, path.pcm d = some pcm ∧ pcm.bytesPerInterval = .ok octets)

include configured

theorem obeys_stream (bounds : Bounds checks args panics)
    (truncated : Truncated path → panics (.panic "range end index out of range for slice")) :
    Obeys (Effect.Fatal Expected) (Streams panics) (fun _ => True)
      (stream checks tone args path : Program V (Result Nat)) := by
  unfold stream
  cases mode : args.mode with
  | output =>
      obtain ⟨pcm, octets, is, interval⟩ :=
        configured .hostToPeer (Args.directions_host (by rw [mode]; decide))
      apply (obeys_unwrap is).bind
      rintro _ rfl
      exact (obeys_writeTone bounds interval).outcome.mono (fun _ => id) fun _ _ => trivial
  | input =>
      obtain ⟨pcm, octets, is, interval⟩ :=
        configured .peerToHost (Args.directions_peer (by rw [mode]; decide))
      apply (obeys_unwrap is).bind
      rintro _ rfl
      exact (obeys_capturePeer bounds interval fun long =>
        truncated ⟨_, octets, is, interval, long⟩).outcome.mono (fun _ => id) fun _ _ => trivial
  | duplex =>
      obtain ⟨hostPcm, played, host, playing⟩ :=
        configured .hostToPeer (Args.directions_host (by rw [mode]; decide))
      obtain ⟨peerPcm, captured, peer, capturing⟩ :=
        configured .peerToHost (Args.directions_peer (by rw [mode]; decide))
      apply (obeys_unwrap host).bind
      rintro _ rfl
      apply (obeys_unwrap peer).bind
      rintro _ rfl
      refine (Obeys.tryJoin trivial (fun _ => id) (obeys_writeTone bounds playing)
        (obeys_capturePeer bounds capturing fun long =>
          truncated ⟨_, captured, peer, capturing, long⟩)).bind fun octets few => ?_
      exact (obeys_word (fun _ => trivial) fun checked large =>
        bounds.overflow checked (by omega) _ (by simp)).bind fun _ _ => obeys_pure trivial

/-- A single direction keeps its result; of a pair, the first failure ends the tool. -/
theorem failsBy_stream : FailsBy (fun e => args.mode = .duplex ∧ Refused e)
    (stream checks tone args path : Program V (Result Nat)) := by
  have free : Bounds checks args fun _ => True :=
    ⟨fun _ => trivial, fun _ _ _ _ => trivial, fun _ => trivial⟩
  unfold stream
  cases mode : args.mode with
  | output =>
      obtain ⟨pcm, octets, is, interval⟩ :=
        configured .hostToPeer (Args.directions_host (by rw [mode]; decide))
      apply failsBy_unwrap_bind is
      apply failsBy_outcome (obeys_writeTone free interval).ensures
      rintro e - ⟨⟨⟩, -⟩
  | input =>
      obtain ⟨pcm, octets, is, interval⟩ :=
        configured .peerToHost (Args.directions_peer (by rw [mode]; decide))
      apply failsBy_unwrap_bind is
      apply failsBy_outcome (obeys_capturePeer free interval fun _ => trivial).ensures
      rintro e - ⟨⟨⟩, -⟩
  | duplex =>
      obtain ⟨hostPcm, played, host, playing⟩ :=
        configured .hostToPeer (Args.directions_host (by rw [mode]; decide))
      obtain ⟨peerPcm, captured, peer, capturing⟩ :=
        configured .peerToHost (Args.directions_peer (by rw [mode]; decide))
      apply failsBy_unwrap_bind host
      apply failsBy_unwrap_bind peer
      refine FailsBy.congr ?_ fun e => (and_iff_right (b := Refused e) rfl).symm
      exact ((failsBy_writeTone playing).tryJoin (fun _ => id) (failsBy_capturePeer capturing)).bind
        fun _ => (failsBy_operate id).bind fun _ => failsBy_pure

omit configured in
/-- `main` until `stop`, once its stream is taken. -/
theorem streaming_eq {stream' : UnixStream}
    (taken : path.takeStream = .ok (stream', { path with stream := none })) :
    (streaming checks tone args path : Program V (FlossLeDataPath × Result Nat)) = do
      eprintln (.negotiated path.hostPcm path.peerPcm args.mode)
      let ioResult ← stream checks tone args { path with stream := none }
      return ({ path with stream := none }, ioResult) := by
  rw [streaming, taken]
  rfl

end Stream

end FlossLeAudioSmoke

/-! ### `dorsche_pipewire` -/

namespace DorschePipewire

variable {args : Args} {pcm : PcmConfiguration} {octets budget : Nat} {panics : Halt → Prop}

/-- What a pump does. -/
def Pumps (panics : Halt → Prop) : Effect Request Line → Prop
  | .ask (.media _) | .ask (.createRing ..) | .print _ => False
  | .halt reason => panics reason
  | _ => True

theorem Pumps.streams {i : Effect Request Line} (pumps : Pumps panics i) : Streams panics i := by
  cases i with
  | ask r =>
      cases r with
      | media call => exact pumps
      | _ => trivial
  | print line => cases pumps
  | halt reason => exact pumps
  | _ => trivial

theorem obeys_pumpFrames
    (truncated : 2 ^ 32 ≤ octets → panics (.panic "range end index out of range for slice"))
    (sequence : UInt64) :
    Obeys (Effect.Fatal Expected) (Pumps panics) (fun _ => True)
      (pumpFrames pcm octets budget sequence : Program V Unit) := by
  induction budget generalizing sequence with
  | zero => exact obeys_spent
  | succ budget ih =>
      exact (obeys_reserve trivial (fun _ => trivial) truncated).bind fun _ _ =>
        (obeys_attempt (obeys_ask (.readExact _) trivial fun _ => id)).bind fun _ _ =>
        (obeys_ask .monotonicTime trivial fun _ => id).bind fun _ _ =>
        (obeys_ask (.commit _ _) trivial fun _ => id).bind fun _ _ =>
        (obeys_lift fun _ _ => trivial).bind fun _ _ => ih (sequence + 1)

theorem obeys_pumpRingToHost :
    Obeys (Effect.Fatal Expected) (Pumps panics) (fun _ => True)
      (pumpRingToHost budget : Program V Unit) := by
  refine Obeys.loop ?_ budget
  refine (obeys_ask .tryAcquire trivial fun _ => id).bind fun _ _ =>
    (obeys_lift fun _ _ => trivial).bind fun acquired _ => ?_
  cases acquired with
  | none =>
      exact (obeys_ask .waitReadable trivial fun _ => id).bind fun _ _ =>
        (obeys_lift fun _ _ => trivial).bind fun _ _ => obeys_pure fun _ _ => trivial
  | some frame =>
      exact (obeys_lift fun _ _ => trivial).bind fun _ _ =>
        (obeys_attempt (obeys_ask (.writeAll _) trivial fun _ => id)).bind fun _ _ =>
        obeys_pure fun _ _ => trivial

theorem obeys_untilCtrlC {pump : Program V Unit}
    (pumps : Obeys (Effect.Fatal Expected) (Pumps panics) (fun _ => True) pump) :
    Obeys (Effect.Fatal Expected) (Pumps panics) (fun _ => True) (untilCtrlC pump) :=
  Obeys.select trivial (fun _ => id) pumps
    (obeys_attempt (obeys_ask .ctrlC trivial fun _ => id))

theorem obeys_pumping {direction : Direction} {name expected : String} {pump : Program V Unit}
    (interval : pcm.bytesPerInterval = .ok octets)
    (printing : ∀ e : String, panics (.panic s!"failed printing to stderr: {e}"))
    (spawn : ∀ error : String, panics (.panic s!"{expected}: {error}"))
    (pumps : Obeys (Effect.Fatal Expected) (Pumps panics) (fun _ => True) pump) :
    Obeys (Effect.Fatal Expected) (Streams panics) (fun _ => True)
      (pumping direction name expected pcm pump) := by
  apply (obeys_interval interval).bind
  rintro _ rfl
  refine ((obeys_ask (.createRing _ _) trivial fun _ => id).bind fun _ _ =>
    obeys_lift fun _ _ => trivial).bind fun _ _ => Obeys.bind (Q := fun _ => True) ?_ fun _ _ =>
    (obeys_eprintln id printing).bind fun _ _ =>
    (obeys_untilCtrlC pumps).outcome.mono (fun _ => Pumps.streams) fun _ _ => trivial
  refine obeys_request_bind (r := Request.spawn _) trivial ?_ fun reply started => ?_
  · rintro _ ⟨error, rfl⟩
    exact ⟨_, rfl, spawn error⟩
  · cases reply with
    | ok done => exact obeys_pure trivial
    | error e => exact absurd ⟨e, rfl⟩ started

/-- What a tool returns early for: a ring that cannot be created. -/
theorem failsBy_pumping {direction : Direction} {name expected : String} {pump : Program V Unit}
    (interval : pcm.bytesPerInterval = .ok octets)
    (pumps : Ensures (Pumps fun _ => True) (fun _ => True) (untilCtrlC pump)) :
    FailsBy (fun e => (∃ slotCount payloadCapacity,
        e.1 = .ask (.createRing slotCount payloadCapacity)) ∧ Refused e)
      (pumping direction name expected pcm pump) := by
  refine (failsBy_lift interval).bind fun _ =>
    (failsBy_perform_lift fun _ => and_iff_right ⟨_, _, rfl⟩).bind fun _ => FailsBy.bind ?_ fun _ =>
    (failsBy_print fun _ => And.right).bind fun _ => failsBy_outcome pumps ?_
  · refine failsBy_perform (fun reply _ => ?_) ?_
    · cases reply with
      | ok done => exact failsBy_pure
      | error e => exact failsBy_halt
    · rintro reply ⟨⟨_, _, ⟨⟩⟩, -⟩
  · rintro e asked ⟨⟨slotCount, payloadCapacity, same⟩, -⟩
    rw [same] at asked
    exact asked

/-- Either direction has its configuration. -/
theorem stream_eq (budget : Nat) (path : FlossLeDataPath)
    (configured : ∀ d, args.directions.has d = true →
      ∃ pcm octets, path.pcm d = some pcm ∧ pcm.bytesPerInterval = .ok octets) :
    ∃ (pcm : PcmConfiguration) (octets : Nat) (direction : Direction) (name expected : String)
      (pump : Program V Unit), pcm.bytesPerInterval = .ok octets ∧
    expected ∈ ["spawn PipeWire source thread", "spawn PipeWire sink thread"] ∧
    stream budget args path = pumping direction name expected pcm pump ∧
    ∀ panics : Halt → Prop,
      (Truncated path → panics (.panic "range end index out of range for slice")) →
      Obeys (Effect.Fatal Expected) (Pumps panics) (fun _ => True) pump := by
  unfold stream
  cases direction : args.direction with
  | source =>
      have peer : args.directions.has .peerToHost = true := by
        rw [Args.directions, direction]
        rfl
      obtain ⟨pcm, octets, is, interval⟩ := configured .peerToHost peer
      refine ⟨pcm, octets, .source, "dorsche-pw-source", "spawn PipeWire source thread",
        pumpPeerToRing budget pcm, interval, List.mem_cons_self, ?_, ?_⟩
      · have is' : path.peerPcm = some pcm := is
        rw [is']
      · intro panics truncated
        apply (obeys_interval interval).bind
        rintro _ rfl
        exact obeys_pumpFrames (fun long => truncated ⟨pcm, _, is, interval, long⟩) 0
  | sink =>
      have host : args.directions.has .hostToPeer = true := by
        rw [Args.directions, direction]
        rfl
      obtain ⟨pcm, octets, is, interval⟩ := configured .hostToPeer host
      refine ⟨pcm, octets, .sink, "dorsche-pw-sink", "spawn PipeWire sink thread",
        pumpRingToHost budget, interval, List.mem_cons_of_mem _ List.mem_cons_self, ?_, ?_⟩
      · have is' : path.hostPcm = some pcm := is
        rw [is']
      · intro panics _
        exact obeys_pumpRingToHost

/-- `main` until `stop`, once its stream is taken. -/
theorem streaming_eq {path : FlossLeDataPath} {stream' : UnixStream}
    (taken : path.takeStream = .ok (stream', { path with stream := none })) :
    (streaming budget args path : Program V (FlossLeDataPath × Result Unit)) = do
      let pumpResult ← stream budget args { path with stream := none }
      return ({ path with stream := none }, pumpResult) := by
  rw [streaming, taken]
  rfl

end DorschePipewire

/-! ### Both tools -/

/-- What `main` is made of: a streaming part that asks nothing of the media service, fails
by what makes the tool return, and hands on the data path; and the closing part. -/
theorem Tool.main_eq (tool : Tool) (budget : Nat) {path : FlossLeDataPath}
    (opened : Opened tool.directions path) :
    ∃ (β : Type) (io : Program V (FlossLeDataPath × Result β)) (finish : β → Program V Unit),
      tool.main budget path = whole io finish ∧
      Obeys (Effect.Fatal Expected) (Streams (tool.Panics path))
        (fun pair => pair.1 = { path with stream := none }) io ∧
      FailsBy tool.Returns io ∧
      ∀ value, Ensures (Closes (tool.Panics path)) (fun _ => True) (finish value) := by
  obtain ⟨stream, taken⟩ := opened.takeStream
  cases tool with
  | smoke checks tone args =>
      refine ⟨Nat, FlossLeAudioSmoke.streaming checks tone args path,
        fun bytes => eprintln (.stopped bytes), rfl, ?_, ?_, fun bytes => ?_⟩
      · have bounds : FlossLeAudioSmoke.Bounds checks args
            (Panics path (.smoke checks tone args)) := by
          refine ⟨.printing, ?_, .allocation⟩
          rintro rfl long text known
          exact .overflow long known
        rw [FlossLeAudioSmoke.streaming_eq taken]
        refine (obeys_eprintln id bounds.printing).bind fun _ _ => ?_
        refine (FlossLeAudioSmoke.obeys_stream opened.pcm bounds .truncated).bind fun _ _ => ?_
        exact obeys_pure rfl
      · rw [FlossLeAudioSmoke.streaming_eq taken]
        refine (failsBy_print fun _ => And.right).bind fun _ => ?_
        exact (FlossLeAudioSmoke.failsBy_stream opened.pcm).bind fun _ => failsBy_pure
      · exact ensures_print trivial .printing
  | pipewire args =>
      obtain ⟨pcm, octets, direction, name, expected, pump, interval, known, same, pumps⟩ :=
        DorschePipewire.stream_eq (V := V) budget { path with stream := none } opened.pcm
      refine ⟨Unit, DorschePipewire.streaming budget args path, fun _ => return (), rfl, ?_, ?_,
        fun _ => ensures_pure trivial⟩
      · rw [DorschePipewire.streaming_eq taken, same]
        refine (DorschePipewire.obeys_pumping interval .printing
          (fun error => .spawn expected error known)
          (pumps _ fun long => .truncated long)).bind fun _ _ => ?_
        exact obeys_pure rfl
      · rw [DorschePipewire.streaming_eq taken, same]
        refine (DorschePipewire.failsBy_pumping interval ?_).bind fun _ => failsBy_pure
        exact (DorschePipewire.obeys_untilCtrlC (pumps _ fun _ => trivial)).ensures

/-- For both tools, every data path that `start_software_unicast` returned, and every
outcome of every later step: what was started is stopped, by one call of `stop`, exactly
if no reply keeps the tool from it and no signal kills the process before. Such replies
are, for the smoke tool, any failure of either half in duplex mode; for `dorsche_pipewire`,
those under which the ring is not created; for both, those that they panic over before
`stop`. A tool halts only as listed. -/
theorem tools_stop [OwnedValue V] (tool : Tool) (budget turns : Nat) (floss : FlossLeAudio)
    {t₀ : Trace V} {path : FlossLeDataPath}
    (started : (floss.startSoftwareUnicast turns tool.groupId tool.directions).Traces t₀
      (some (.ok path)))
    {t : Log V} {exit : Exit Request Line} (exits : Exits (tool.main budget path) t exit) :
    (Stops tool.directions path t ↔ (∀ e ∈ t, ¬ tool.Abandons e) ∧
      ∀ effect, exit = .killed effect → ∃ line, effect = .print line ∧ line.Late) ∧
    ∀ reason, exit = .halted reason → tool.Panics path reason := by
  have opened := startSoftwareUnicast_opened started
  obtain ⟨β, io, finish, same, streams, failsBy, finishes⟩ := tool.main_eq (V := V) budget opened
  rw [same] at exits
  have harmless (i : Effect Request Line) (reply : i.Reply (Request.Reply V))
      (late : Media i ∨ Closes (tool.Panics path) i) : ¬ tool.Abandons ⟨i, reply⟩ := by
    have unrefused : ¬ Refused ⟨i, reply⟩ := by
      rcases late with ⟨call, rfl⟩ | closes
      · exact id
      · cases i with
        | ask r => cases closes
        | _ => exact id
    rintro (returns | ⟨fatal, early⟩)
    · cases tool with
      | smoke checks tone args => exact unrefused returns.2
      | pipewire args => exact unrefused returns.2
    · rcases late with ⟨call, rfl⟩ | closes
      · exact fatal
      · cases i with
        | print line => exact early line rfl closes
        | halt reason => cases reply
        | _ => cases closes
  have taken := stopsOnce_iff .printing streams finishes failsBy harmless exits
  -- `stop` does not look at the stream, which is gone by then
  have once : StopsOnce path t ↔ _ := taken
  refine ⟨⟨fun stops => once.mp stops.once, fun ends => ?_⟩, ?_⟩
  · exact (once.mpr ends).stops opened.same
  · rintro reason rfl
    exact panics_of_exits .printing streams finishes exits

/-- A service that answers, and a socket that takes no octet. -/
def brokenPipe : (r : Request) → Option (r.Reply SampleValue)
  | .media call => some (steadyService SampleValue (.ok sampleProperties) call)
  | .tick => some ()
  | .poll => some true
  | .writeAll _ => some (.error "Broken pipe")
  | _ => none

/-- One second of silence. -/
def silence (mode : FlossLeAudioSmoke.Mode) : Tool := .smoke true (fun _ _ => []) ⟨7, 1, mode, none⟩

/-- The data path that the steady service gives for some directions. -/
def samplePath (directions : FlossLeDirections) : FlossLeDataPath where
  owner := FlossLeAudio.withConnection 0
  stream := some ⟨3⟩
  directions := directions
  hostPcm := if directions.hostToPeer then some ⟨48000, 16, 2, 10000⟩ else none
  peerPcm := if directions.peerToHost then some ⟨48000, 16, 2, 10000⟩ else none
  stopped := false

theorem samplePath_started_output :
    ∃ t₀, ((FlossLeAudio.withConnection 0).startSoftwareUnicast 401 7 .output :
      Control SampleValue _).Traces t₀ (some (.ok (samplePath .output))) :=
  ⟨_, Prog.traces_record (steadyService SampleValue (.ok sampleProperties)) _⟩

theorem samplePath_started_duplex :
    ∃ t₀, ((FlossLeAudio.withConnection 0).startSoftwareUnicast 401 7 .fullDuplex :
      Control SampleValue _).Traces t₀ (some (.ok (samplePath .fullDuplex))) :=
  ⟨_, Prog.traces_record (steadyService SampleValue (.ok sampleProperties)) _⟩

/-- The same failure of the socket is kept in output mode: the direction is stopped. -/
theorem tools_stop_output : ∃ t : Log SampleValue,
    Exits ((silence .output).main 0 (samplePath .output)) t
      (.returned (.error "write LE Audio host PCM: Broken pipe")) ∧
    Stops .output (samplePath .output) t := by
  obtain ⟨t₀, started⟩ := samplePath_started_output
  have recorded : ((silence .output).main 0 (samplePath .output)).run.run.record?
      (Effect.answers brokenPipe) = some (
        [⟨.print (.negotiated (some ⟨48000, 16, 2, 10000⟩) none .output), .ok ()⟩,
        ⟨.operate ⟨"attempt to multiply with overflow", 1000000, 2 ^ 64, true⟩, ()⟩,
        ⟨.operate ⟨"capacity overflow", 1920, 2 ^ 63, true⟩, ()⟩, ⟨.allocate 1920, true⟩,
        ⟨.ask .tick, ()⟩, ⟨.ask (.writeAll []), .error "Broken pipe"⟩,
        ⟨.ask (.media (.proxyDestination flossService)), .ok ()⟩,
        ⟨.ask (.media (.proxyPath (FlossLeAudio.withConnection 0).mediaPath)), .ok ()⟩,
        ⟨.ask (.media .proxyBuild), .ok ()⟩,
        ⟨.ask (.media (.stopAudioRequest .hostToPeer)), .ok ()⟩],
        some (.error "write LE Audio host PCM: Broken pipe")) := by
    rfl
  have exits := Exits.returned (Prog.traces_of_record? recorded)
  refine ⟨_, exits, ((tools_stop (silence .output) 0 401 _ started exits).1.mpr ⟨?_, ?_⟩)⟩
  · simp [Tool.Abandons, Tool.Returns, silence, Ends, Effect.Fatal, Operation.Fits, Expected]
  · rintro effect ⟨⟩

/-- No descriptor is left for a ring. -/
def noDescriptor : (r : Request) → Option (r.Reply SampleValue)
  | .createRing .. => some { SystemCalls.calm with memfdCreate := some "Too many open files" }
  | _ => none

/-- In duplex mode the first write fails, `main` returns its error, and the two
directions run on: nothing is asked of the media service. `dorsche_pipewire` leaves its
direction running when the ring cannot be created. -/
theorem tools_leave_running :
    (∃ (t₀ : Trace SampleValue) (t : Log SampleValue),
      ((FlossLeAudio.withConnection 0).startSoftwareUnicast 401 7 .fullDuplex :
        Control SampleValue _).Traces t₀ (some (.ok (samplePath .fullDuplex))) ∧
      Exits ((silence .duplex).main 0 (samplePath .fullDuplex)) t
        (.returned (.error "write LE Audio host PCM: Broken pipe")) ∧
      (∀ e ∈ t, ¬ Media e.1) ∧
      ¬ Stops .fullDuplex (samplePath .fullDuplex) t) ∧
    ∃ (t₀ : Trace SampleValue) (t : Log SampleValue),
      ((FlossLeAudio.withConnection 0).startSoftwareUnicast 401 7 .output :
        Control SampleValue _).Traces t₀ (some (.ok (samplePath .output))) ∧
      Exits ((Tool.pipewire ⟨7, .sink⟩).main 0 (samplePath .output)) t
        (.returned (.error "Too many open files")) ∧
      (∀ e ∈ t, ¬ Media e.1) ∧
      ¬ Stops .output (samplePath .output) t := by
  have leaves {directions : FlossLeDirections} {path : FlossLeDataPath} {t : Log SampleValue}
      (silent : ∀ e ∈ t, ¬ Media e.1) : (∀ e ∈ t, ¬ Media e.1) ∧ ¬ Stops directions path t :=
    ⟨silent, fun stops => not_stopsOnce silent stops.once⟩
  constructor
  · obtain ⟨t₀, started⟩ := samplePath_started_duplex
    have recorded : ((silence .duplex).main 0 (samplePath .fullDuplex)).run.run.record?
        (Effect.answers brokenPipe) = some (
          [⟨.print (.negotiated (some ⟨48000, 16, 2, 10000⟩) (some ⟨48000, 16, 2, 10000⟩) .duplex),
            .ok ()⟩,
          ⟨.ask .poll, true⟩,
          ⟨.operate ⟨"attempt to multiply with overflow", 1000000, 2 ^ 64, true⟩, ()⟩,
          ⟨.ask .poll, true⟩, ⟨.operate ⟨"capacity overflow", 1920, 2 ^ 63, true⟩, ()⟩,
          ⟨.ask .poll, true⟩, ⟨.allocate 1920, true⟩, ⟨.ask .poll, true⟩, ⟨.ask .tick, ()⟩,
          ⟨.ask .poll, true⟩, ⟨.ask (.writeAll []), .error "Broken pipe"⟩,
          ⟨.print .dropped, .ok ()⟩],
          some (.error "write LE Audio host PCM: Broken pipe")) := by
      rfl
    have exits := Exits.returned (Prog.traces_of_record? recorded)
    exact ⟨t₀, _, started, exits, leaves (by simp [Media])⟩
  · obtain ⟨t₀, started⟩ := samplePath_started_output
    have recorded : ((Tool.pipewire ⟨7, .sink⟩).main 0 (samplePath .output)).run.run.record?
        (Effect.answers noDescriptor) = some ([⟨.ask (.createRing 16 1920),
          { SystemCalls.calm with memfdCreate := some "Too many open files" }⟩,
          ⟨.print .dropped, .ok ()⟩],
        some (.error "Too many open files")) := by
      rfl
    have exits := Exits.returned (Prog.traces_of_record? recorded)
    exact ⟨t₀, _, started, exits, leaves (by simp [Media])⟩

end Dorsche.Bin
