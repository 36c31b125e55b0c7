import Dorsche.Wireless.Floss.Control

/-!
What each part of `start_software_unicast` does.

One specification for each part: which calls it makes, and what its result says
about the replies.
-/

namespace Dorsche.Wireless.Floss

open Dorsche.Lib BluetoothMedia

variable {V : Type}

section Parts

open Attempt

variable {turns : Nat} {directions : FlossLeDirections} {direction : Direction} {t : Trace V}

/-- Neither starts nor stops a direction, nor reads its configuration. -/
def Call.Neutral : Call → Prop
  | .startAudioRequest _ | .stopAudioRequest _ | .getPcmConfig _ => False
  | _ => True

theorem traces_ask {call : Call} {reply : call.Reply V} :
    (ask call).Traces t reply ↔ t = [⟨call, reply⟩] := Prog.traces_perform

theorem traces_ask_bind (call : Call) {β : Type} {f : call.Reply V → Control V β}
    {out : Option (Result β)} :
    Attempt.Traces (Attempt.always (ask call) >>= f) t out ↔
      ∃ reply t', t = ⟨call, reply⟩ :: t' ∧ Attempt.Traces (f reply) t' out := by
  simp [traces_always_bind, traces_ask]

theorem only_ask {S : Call → Prop} (call : Call) (mem : S call) (t : Trace V)
    (reply : call.Reply V) (traces : (ask call).Traces t reply) : ∀ e ∈ t, S e.1 :=
  Prog.forall_mem_of_traces_perform mem t reply traces

theorem streamStarted_neutral :
    Only (R := Call.Reply V) Call.Neutral (streamStarted directions direction) := by
  unfold streamStarted
  split
  · exact (only_call (only_ask (.getStreamStarted direction) trivial)).bind fun _ => only_pure
  · exact only_pure

theorem waitStartedTurn_neutral {deadline : Nat} :
    Only (R := Call.Reply V) Call.Neutral (waitStartedTurn directions deadline) := by
  refine streamStarted_neutral.bind fun _ => streamStarted_neutral.bind fun _ => ?_
  split
  · exact only_pure
  · refine (only_always (only_ask .now trivial)).bind fun _ => ?_
    split
    · exact only_throw
    · exact (only_always (only_ask (.sleep pause) trivial)).bind fun _ => only_pure

theorem waitStarted_neutral {timeout : Nat} :
    Only (R := Call.Reply V) Call.Neutral (waitStarted turns directions timeout) :=
  (only_always (only_ask .now trivial)).bind fun _ => waitStartedTurn_neutral.loop turns

theorem connectWithDeadline_neutral {path : String} {timeout : Nat} :
    Only (R := Call.Reply V) Call.Neutral (connectWithDeadline turns path timeout) := by
  refine (only_always (only_ask .now trivial)).bind fun _ => Only.loop ?_ turns
  refine (only_always (only_ask (.connect path) trivial)).bind fun reply => ?_
  cases reply with
  | ok stream => exact only_pure
  | error error =>
      refine (only_always (only_ask .now trivial)).bind fun _ => ?_
      split
      · exact (only_always (only_ask (.sleep pause) trivial)).bind fun _ => only_pure
      · exact only_throw

theorem activate_neutral {self : FlossLeAudio} {groupId : Int32} :
    Only (R := Call.Reply V) Call.Neutral (self.activate groupId directions) := by
  refine only_lift.bind fun _ => only_lift.bind fun _ => Only.bind ?proxy fun _ =>
    (only_call (only_ask (.groupSetActive groupId) trivial)).bind fun _ =>
    Only.bind ?source fun _ => ?sink
  case proxy =>
    exact (only_call (only_ask (.proxyDestination _) trivial)).bind fun _ =>
      (only_call (only_ask (.proxyPath _) trivial)).bind fun _ =>
      (only_always (only_ask .proxyBuild trivial)).bind fun _ => only_lift
  case source =>
    unfold FlossLeAudio.announceSource
    split
    · exact (only_call (only_ask (.sourceMetadataChanged 1 2 1.0) trivial)).bind fun _ => only_lift
    · exact only_pure
  case sink =>
    unfold FlossLeAudio.announceSink
    split
    · exact (only_call (only_ask (.sinkMetadataChanged 1 1.0) trivial)).bind fun _ => only_lift
    · exact only_pure

/-- Nothing is activated without a direction. -/
theorem activate_selects {self : FlossLeAudio} {groupId : Int32}
    (traces : Attempt.Traces (self.activate groupId directions) t (some (.ok ()))) :
    ∃ direction, directions.has direction = true := by
  obtain ⟨_, t₁, t₂, rfl, validated, -⟩ := traces_bind_ok.mp traces
  obtain ⟨-, valid⟩ := traces_lift.mp validated
  have selected : directions.hostToPeer || directions.peerToHost := by
    simpa [FlossLeDirections.validate] using (Option.some.inj valid).symm
  rcases Bool.or_eq_true_iff.mp selected with host | peer
  · exact ⟨.hostToPeer, host⟩
  · exact ⟨.peerToHost, peer⟩

/-- A direction counts as started by its status, if it was requested. -/
theorem streamStarted_confirms
    (traces : Attempt.Traces (streamStarted directions direction) t (some (.ok true)))
    (requested : directions.has direction = true) :
    ⟨.getStreamStarted direction, .ok 1⟩ ∈ t := by
  unfold streamStarted at traces
  rw [if_pos requested] at traces
  obtain ⟨status, t₁, t₂, rfl, asked, compared⟩ := traces_bind_ok.mp traces
  obtain ⟨reply, asked, replied⟩ := traces_call.mp asked
  obtain ⟨-, equal⟩ := traces_pure.mp compared
  obtain rfl : (.ok status : Result Int32) = reply := Option.some.inj replied
  obtain rfl : status = 1 := by simpa using equal
  rw [traces_ask.mp asked]
  exact List.mem_append_left _ List.mem_cons_self

theorem waitStarted_confirms {timeout : Nat}
    (traces : Attempt.Traces (waitStarted turns directions timeout) t (some (.ok ())))
    (requested : directions.has direction = true) :
    ⟨.getStreamStarted direction, .ok 1⟩ ∈ t := by
  obtain ⟨start, t₁, t₂, rfl, -, looped⟩ := traces_bind_ok.mp traces
  obtain ⟨u₁, u₂, rfl, turn⟩ := loop_yields looped
  obtain ⟨host, v₁, v₂, rfl, first, turn⟩ := traces_bind_ok.mp turn
  obtain ⟨peer, w₁, w₂, rfl, second, turn⟩ := traces_bind_ok.mp turn
  split at turn
  · rename_i both
    obtain ⟨rfl, rfl⟩ := Bool.and_eq_true_iff.mp both
    refine List.mem_append_right _ (List.mem_append_right _ ?_)
    cases direction with
    | hostToPeer => exact List.mem_append_left _ (streamStarted_confirms first requested)
    | peerToHost =>
        have confirmed := streamStarted_confirms second requested
        exact List.mem_append_right _ (List.mem_append_left _ confirmed)
  · -- a turn that reads the clock yields nothing
    obtain ⟨reading, x, rfl, read⟩ := (traces_ask_bind .now).mp turn
    split at read
    · cases (traces_throw.mp read).2
    · obtain ⟨_, y, rfl, paused⟩ := (traces_ask_bind (.sleep pause)).mp read
      cases (traces_pure.mp paused).2

/-- What one start request does; the flag it leaves behind tells whether it was
granted. -/
structure Requests (directions : FlossLeDirections) (direction : Direction) (t : Trace V)
    (flag : Bool) (result : Result Unit) : Prop where
  calls : ∀ e ∈ t, e.1 = .startAudioRequest direction ∧ directions.has direction = true
  granted : ⟨.startAudioRequest direction, .ok true⟩ ∈ t ↔ flag = true
  done : result = .ok () → flag = directions.has direction

theorem requestStart_spec {rejected : String} {out : Option (Result (Bool × Result Unit))}
    (traces : Attempt.Traces (FlossLeAudio.requestStart directions direction rejected) t out) :
    ∃ flag result, out = some (.ok (flag, result)) ∧
      Requests directions direction t flag result := by
  unfold FlossLeAudio.requestStart at traces
  split at traces
  · rename_i requested
    obtain ⟨reply, t₁, t₂, rfl, asked, rest⟩ := traces_outcome_call_bind.mp traces
    obtain rfl := traces_ask.mp asked
    cases reply with
    | error error =>
        obtain ⟨rfl, rfl⟩ := traces_pure.mp rest
        exact ⟨false, .error error, rfl, by simp [requested], by simp, nofun⟩
    | ok accepted =>
        cases accepted with
        | false =>
            obtain ⟨rfl, rfl⟩ := traces_pure.mp rest
            exact ⟨false, .error rejected, rfl, by simp [requested], by simp, nofun⟩
        | true =>
            obtain ⟨rfl, rfl⟩ := traces_pure.mp rest
            exact ⟨true, .ok (), rfl, by simp [requested], by simp, fun _ => requested.symm⟩
  · rename_i unrequested
    obtain ⟨rfl, rfl⟩ := traces_pure.mp traces
    exact ⟨false, .ok (), rfl, List.forall_mem_nil _, by simp, fun _ => by simpa using unrequested⟩

theorem requestStart_bind {rejected : String} {β : Type} {f : Bool × Result Unit → Control V β}
    {out : Option (Result β)}
    (traces : Attempt.Traces
      (FlossLeAudio.requestStart directions direction rejected >>= f) t out) :
    ∃ flag result t₁ t₂, t = t₁ ++ t₂ ∧ Requests directions direction t₁ flag result ∧
      Attempt.Traces (f (flag, result)) t₂ out := by
  rcases traces_bind.mp traces with ⟨a, t₁, t₂, rfl, asked, rest⟩ | ⟨e, asked, -⟩ | ⟨asked, -⟩
  · obtain ⟨flag, result, same, requests⟩ := requestStart_spec asked
    cases same
    exact ⟨flag, result, t₁, t₂, rfl, requests, rest⟩
  · obtain ⟨_, _, same, -⟩ := requestStart_spec asked
    cases same
  · obtain ⟨_, _, same, -⟩ := requestStart_spec asked
    cases same

/-- What the `async` block does; its two flags are read as a set of directions. -/
structure Starts (directions started : FlossLeDirections) (t : Trace V) (result : Result Unit) :
    Prop where
  calls : ∀ e ∈ t, e.1.Neutral ∨ ∃ d, e.1 = .startAudioRequest d ∧ directions.has d = true
  granted : ∀ d, ⟨.startAudioRequest d, .ok true⟩ ∈ t ↔ started.has d = true
  complete : result = .ok () → ∀ d, started.has d = directions.has d
  confirmed : result = .ok () → ∀ d, directions.has d = true →
    [⟨.startAudioRequest d, .ok true⟩, ⟨.getStreamStarted d, .ok 1⟩].Sublist t

theorem Starts.of_requests {host peer : Bool} {t₁ t₂ waiting : Trace V}
    {first second waited : Result Unit}
    (hosts : Requests directions .hostToPeer t₁ host first)
    (peers : Requests directions .peerToHost t₂ peer second)
    (neutral : ∀ e ∈ waiting, e.1.Neutral)
    (complete : waited = .ok () → first = .ok () ∧ second = .ok ())
    (confirmed : waited = .ok () → ∀ d, directions.has d = true →
      ⟨.getStreamStarted d, .ok 1⟩ ∈ waiting) :
    Starts directions ⟨host, peer⟩ (t₁ ++ t₂ ++ waiting) waited := by
  have granted (d : Direction) : ⟨.startAudioRequest d, .ok true⟩ ∈ t₁ ++ t₂ ↔
      FlossLeDirections.has ⟨host, peer⟩ d = true := by
    rw [List.mem_append]
    cases d with
    | hostToPeer =>
        refine (or_iff_left fun other => ?_).trans hosts.granted
        cases (peers.calls _ other).1
    | peerToHost =>
        refine (or_iff_right fun other => ?_).trans peers.granted
        cases (hosts.calls _ other).1
  have agree (done : waited = .ok ()) (d : Direction) :
      FlossLeDirections.has ⟨host, peer⟩ d = directions.has d := by
    obtain ⟨hostDone, peerDone⟩ := complete done
    cases d with
    | hostToPeer => exact hosts.done hostDone
    | peerToHost => exact peers.done peerDone
  refine ⟨?_, ?_, agree, ?_⟩
  · intro e mem
    rcases List.mem_append.mp mem with mem | mem
    · rcases List.mem_append.mp mem with mem | mem
      · exact .inr ⟨.hostToPeer, hosts.calls e mem⟩
      · exact .inr ⟨.peerToHost, peers.calls e mem⟩
    · exact .inl (neutral e mem)
  · intro d
    rw [← granted d, List.mem_append (t := waiting)]
    exact or_iff_left fun mem => neutral _ mem
  · intro done d requested
    have start := (granted d).mpr ((agree done d).trans requested)
    exact (List.singleton_sublist.mpr start).append
      (List.singleton_sublist.mpr (confirmed done d requested))

/-- A request fails, and nobody waits for the stream. -/
theorem Starts.of_refused {host peer : Bool} {t₁ t₂ : Trace V} {first second : Result Unit}
    {error : String} (hosts : Requests directions .hostToPeer t₁ host first)
    (peers : Requests directions .peerToHost t₂ peer second) :
    Starts directions ⟨host, peer⟩ (t₁ ++ t₂) (.error error) := by
  have failed : (Except.error error : Result Unit) ≠ .ok () := by simp
  rw [← List.append_nil (t₁ ++ t₂)]
  exact .of_requests hosts peers (List.forall_mem_nil _) (absurd · failed) (absurd · failed)

theorem startDirections_spec {result : Result (Bool × Bool × Result Unit)}
    (traces : Attempt.Traces (FlossLeAudio.startDirections turns directions) t (some result)) :
    ∃ started waited, result = .ok (started.hostToPeer, started.peerToHost, waited) ∧
      Starts directions started t waited := by
  obtain ⟨host, first, t₁, t₂, rfl, hosts, rest⟩ := requestStart_bind traces
  cases first with
  | error error =>
      obtain ⟨rfl, ended⟩ := traces_pure.mp rest
      cases ended
      -- the peer was not asked
      have peers : Requests directions .peerToHost ([] : Trace V) false (.error error) :=
        ⟨List.forall_mem_nil _, by simp, nofun⟩
      exact ⟨⟨host, false⟩, .error error, rfl, .of_refused hosts peers⟩
  | ok done =>
      obtain ⟨peer, second, u₁, u₂, rfl, peers, rest⟩ := requestStart_bind rest
      cases second with
      | error error =>
          obtain ⟨rfl, ended⟩ := traces_pure.mp rest
          cases ended
          refine ⟨⟨host, peer⟩, .error error, rfl, ?_⟩
          rw [List.append_nil]
          exact .of_refused hosts peers
      | ok done =>
          rcases traces_outcome_bind.mp rest with ⟨waited, w₁, w₂, rfl, waiting, rest⟩ | ⟨-, ended⟩
          · obtain ⟨rfl, ended⟩ := traces_pure.mp rest
            cases ended
            refine ⟨⟨host, peer⟩, waited, rfl, ?_⟩
            rw [List.append_nil, ← List.append_assoc]
            refine .of_requests hosts peers (waitStarted_neutral _ _ waiting)
              (fun _ => ⟨rfl, rfl⟩) ?_
            rintro rfl d requested
            exact waitStarted_confirms waiting requested
          · cases ended

theorem stopDirection_spec {flag : Bool} {out : Option (Result Unit)}
    (traces : Attempt.Traces (stopDirection flag direction) t out) :
    out = some (.ok ()) ∧ (∀ e ∈ t, e.1 = .stopAudioRequest direction ∧ flag = true) ∧
      (flag = true → ∃ reply, ⟨.stopAudioRequest direction, reply⟩ ∈ t) := by
  unfold stopDirection at traces
  split at traces
  · rename_i started
    obtain ⟨reply, t₁, t₂, rfl, asked, rest⟩ := traces_outcome_call_bind.mp traces
    obtain rfl := traces_ask.mp asked
    obtain ⟨rfl, rfl⟩ := traces_pure.mp rest
    exact ⟨rfl, by simp [started], fun _ => ⟨reply, by simp⟩⟩
  · rename_i unstarted
    obtain ⟨rfl, rfl⟩ := traces_pure.mp traces
    exact ⟨rfl, List.forall_mem_nil _, fun started => absurd started unstarted⟩

/-- Exactly the started directions are stopped. -/
theorem stopDirections_spec (started : FlossLeDirections) {out : Option (Result Unit)}
    (traces : Attempt.Traces (stopDirections started.hostToPeer started.peerToHost) t out) :
    out = some (.ok ()) ∧
      (∀ e ∈ t, ∃ d, e.1 = .stopAudioRequest d ∧ started.has d = true) ∧
      ∀ d, started.has d = true → ∃ reply, ⟨.stopAudioRequest d, reply⟩ ∈ t := by
  rcases traces_bind.mp traces with ⟨_, t₁, t₂, rfl, first, second⟩ | ⟨e, first, -⟩ | ⟨first, -⟩
  · obtain ⟨-, onlyPeer, peer⟩ := stopDirection_spec first
    obtain ⟨rfl, onlyHost, host⟩ := stopDirection_spec second
    refine ⟨rfl, List.forall_mem_append.mpr ⟨?_, ?_⟩, ?_⟩
    · exact fun e mem => ⟨.peerToHost, onlyPeer e mem⟩
    · exact fun e mem => ⟨.hostToPeer, onlyHost e mem⟩
    · intro d flagged
      cases d with
      | hostToPeer =>
          obtain ⟨reply, mem⟩ := host flagged
          exact ⟨reply, List.mem_append_right _ mem⟩
      | peerToHost =>
          obtain ⟨reply, mem⟩ := peer flagged
          exact ⟨reply, List.mem_append_left _ mem⟩
  · cases (stopDirection_spec first).1
  · cases (stopDirection_spec first).1

/-- A list of PCM replies, each a property map that `parse_pcm_config` accepts. -/
def PcmAccepted [OwnedValue V] (t : Trace V) : Prop :=
  ∀ d (reply : Result (PropertyMap V)), ⟨.getPcmConfig d, reply⟩ ∈ t →
    ∃ config, reply.bind parsePcmConfig = .ok config

/-- The configuration of a direction: one that `parse_pcm_config` made of a reply
if the direction was requested, none otherwise. -/
def Configured [OwnedValue V] (directions : FlossLeDirections) (t : Trace V) (d : Direction) :
    Option PcmConfiguration → Prop
  | none => directions.has d = false
  | some config => directions.has d = true ∧
      ∃ properties, ⟨.getPcmConfig d, .ok properties⟩ ∈ t ∧ parsePcmConfig properties = .ok config

theorem pcmConfig_spec [OwnedValue V] {out : Option (Result (Option PcmConfiguration))}
    (traces : Attempt.Traces (FlossLeAudio.pcmConfig directions direction) t out) :
    ∃ result, out = some result ∧ (∀ e ∈ t, e.1 = .getPcmConfig direction) ∧
      (PcmAccepted t ↔ ∃ config, result = .ok config) ∧
      ∀ config, result = .ok config → Configured directions t direction config := by
  unfold FlossLeAudio.pcmConfig at traces
  split at traces
  · rename_i requested
    have accepted (reply : Result (PropertyMap V)) :
        PcmAccepted [⟨.getPcmConfig direction, reply⟩] ↔
          ∃ config, reply.bind parsePcmConfig = .ok config := by
      constructor
      · intro all
        exact all direction reply List.mem_cons_self
      · intro one d reply' mem
        cases List.mem_singleton.mp mem
        exact one
    rcases traces_bind.mp traces with ⟨properties, t₁, t₂, rfl, asked, rest⟩ | ⟨e, asked, rfl⟩ |
      ⟨asked, -⟩
    · obtain ⟨reply, asked, replied⟩ := traces_call.mp asked
      obtain rfl := traces_ask.mp asked
      obtain rfl : (.ok properties : Result (PropertyMap V)) = reply := Option.some.inj replied
      rcases traces_bind.mp rest with ⟨config, u₁, u₂, rfl, lifted, returned⟩ | ⟨e, lifted, rfl⟩ |
        ⟨lifted, -⟩
      · obtain ⟨rfl, same⟩ := traces_lift.mp lifted
        obtain ⟨rfl, rfl⟩ := traces_pure.mp returned
        have parsed := (Option.some.inj same).symm
        refine ⟨.ok (some config), rfl, by simp, (accepted _).trans ?_, ?_⟩
        · exact iff_of_true ⟨config, parsed⟩ ⟨_, rfl⟩
        · rintro _ ⟨⟩
          exact ⟨requested, properties, List.mem_cons_self, parsed⟩
      · obtain ⟨rfl, same⟩ := traces_lift.mp lifted
        have parsed := (Option.some.inj same).symm
        refine ⟨.error e, rfl, by simp, (accepted _).trans ?_, nofun⟩
        refine iff_of_false ?_ nofun
        rintro ⟨config, same⟩
        cases parsed.symm.trans same
      · cases (traces_lift.mp lifted).2
    · obtain ⟨reply, asked, replied⟩ := traces_call.mp asked
      obtain rfl := traces_ask.mp asked
      obtain rfl : (.error e : Result (PropertyMap V)) = reply := Option.some.inj replied
      exact ⟨.error e, rfl, by simp, (accepted _).trans (iff_of_false nofun nofun), nofun⟩
    · obtain ⟨reply, -, replied⟩ := traces_call.mp asked
      cases replied
  · rename_i unrequested
    obtain ⟨rfl, rfl⟩ := traces_pure.mp traces
    refine ⟨.ok none, rfl, List.forall_mem_nil _, iff_of_true nofun ⟨none, rfl⟩, ?_⟩
    rintro _ ⟨⟩
    exact Bool.eq_false_iff.mpr unrequested

theorem Configured.mono [OwnedValue V] {u : Trace V} {config : Option PcmConfiguration}
    (configured : Configured directions t direction config) (sub : t ⊆ u) :
    Configured directions u direction config := by
  cases config with
  | none => exact configured
  | some config =>
      obtain ⟨requested, properties, mem, parsed⟩ := configured
      exact ⟨requested, properties, sub mem, parsed⟩

theorem pcmAccepted_append [OwnedValue V] {t u : Trace V} :
    PcmAccepted (t ++ u) ↔ PcmAccepted t ∧ PcmAccepted u := by
  constructor
  · intro all
    exact ⟨fun d reply mem => all d reply (List.mem_append_left _ mem),
      fun d reply mem => all d reply (List.mem_append_right _ mem)⟩
  · rintro ⟨left, right⟩ d reply mem
    exact (List.mem_append.mp mem).elim (left d reply) (right d reply)

theorem pcmAccepted_of_forall [OwnedValue V] (none : ∀ e ∈ t, ∀ d, e.1 ≠ .getPcmConfig d) :
    PcmAccepted t := fun d _ mem => absurd rfl (none _ mem d)

theorem pcmAccepted_of_neutral [OwnedValue V] (neutral : ∀ e ∈ t, e.1.Neutral) :
    PcmAccepted t := fun _ _ mem => absurd (neutral _ mem) id

end Parts

end Dorsche.Wireless.Floss
