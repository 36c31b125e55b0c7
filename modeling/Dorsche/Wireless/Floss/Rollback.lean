import Dorsche.Wireless.Floss.Waiting

/-!
Rollback of a stream that cannot be started.

A run of `startSoftwareUnicast` starts directions in one place and stops them in
two: when the start phase fails, and when the data socket does not connect. A
PCM configuration that cannot be read or is not accepted ends the run between
the two, with the directions running. This is the only way the promise is
broken; the runs come to an end as long as the clock advances.
-/

namespace Dorsche.Wireless.Floss

open Dorsche.Lib BluetoothMedia

variable {V : Type}

section Rollback

variable {directions started : FlossLeDirections} {t u : Trace V}

/-- Every start request that was granted is followed by a stop request, and no
other direction is stopped. -/
structure RolledBack (t : Trace V) : Prop where
  stopped : ∀ d, ⟨.startAudioRequest d, .ok true⟩ ∈ t →
    ∃ reply, [⟨.startAudioRequest d, .ok true⟩, ⟨.stopAudioRequest d, reply⟩].Sublist t
  started : ∀ d reply, ⟨.stopAudioRequest d, reply⟩ ∈ t →
    [⟨.startAudioRequest d, .ok true⟩, ⟨.stopAudioRequest d, reply⟩].Sublist t

/-- Nothing is stopped, exactly the requested directions are started, each is
confirmed, and each has the configuration the service gave for it. -/
structure Delivered [OwnedValue V] (directions : FlossLeDirections) (t : Trace V)
    (path : FlossLeDataPath) : Prop where
  unstopped : ∀ d reply, ⟨.stopAudioRequest d, reply⟩ ∉ t
  requested : ∀ d reply, ⟨.startAudioRequest d, reply⟩ ∈ t → directions.has d = true
  started : ∀ d, directions.has d = true → ⟨.startAudioRequest d, .ok true⟩ ∈ t
  confirmed : ∀ d, directions.has d = true →
    [⟨.startAudioRequest d, .ok true⟩, ⟨.getStreamStarted d, .ok 1⟩].Sublist t
  configured : ∀ d, Configured directions t d (path.pcm d)

/-- What the caller of `start_software_unicast` relies on. -/
def RollsBack [OwnedValue V] (directions : FlossLeDirections) (t : Trace V) :
    Result FlossLeDataPath → Prop
  | .error _ => RolledBack t
  | .ok path => Delivered directions t path

/-- A run that has started the directions `started` and stopped none. -/
structure Running (directions started : FlossLeDirections) (t : Trace V) : Prop where
  granted : ∀ d, ⟨.startAudioRequest d, .ok true⟩ ∈ t ↔ started.has d = true
  requested : ∀ d reply, ⟨.startAudioRequest d, reply⟩ ∈ t → directions.has d = true
  unstopped : ∀ d reply, ⟨.stopAudioRequest d, reply⟩ ∉ t

/-- Starts and stops nothing. -/
def Call.Passive (call : Call) : Prop :=
  ∀ d, call ≠ .startAudioRequest d ∧ call ≠ .stopAudioRequest d

theorem Call.Neutral.passive {call : Call} (neutral : call.Neutral) : call.Passive := by
  intro d
  constructor
  · rintro rfl
    exact neutral
  · rintro rfl
    exact neutral

theorem Running.append (running : Running directions started t) (passive : ∀ e ∈ u, e.1.Passive) :
    Running directions started (t ++ u) where
  granted d := by
    rw [List.mem_append, or_iff_left fun mem => (passive _ mem d).1 rfl]
    exact running.granted d
  requested d reply mem :=
    running.requested d reply
      ((List.mem_append.mp mem).resolve_right fun mem => (passive _ mem d).1 rfl)
  unstopped d reply mem :=
    (List.mem_append.mp mem).elim (running.unstopped d reply) fun mem => (passive _ mem d).2 rfl

theorem Starts.running {waited : Result Unit} (starts : Starts directions started u waited)
    (neutral : ∀ e ∈ t, e.1.Neutral) : Running directions started (t ++ u) where
  granted d := by
    rw [List.mem_append]
    refine (or_iff_right fun mem => ?_).trans (starts.granted d)
    exact neutral _ mem
  requested d reply mem := by
    have mem := (List.mem_append.mp mem).resolve_left fun mem => neutral _ mem
    rcases starts.calls _ mem with neutral | ⟨d', same, requested⟩
    · exact absurd neutral id
    · cases same
      exact requested
  unstopped d reply mem := by
    have mem := (List.mem_append.mp mem).resolve_left fun mem => neutral _ mem
    rcases starts.calls _ mem with neutral | ⟨d', same, -⟩
    · exact neutral
    · cases same

/-- Stopping what runs rolls it back. -/
theorem Running.rolledBack (running : Running directions started t)
    (stops : ∀ e ∈ u, ∃ d, e.1 = .stopAudioRequest d ∧ started.has d = true)
    (all : ∀ d, started.has d = true → ∃ reply, ⟨.stopAudioRequest d, reply⟩ ∈ u) :
    RolledBack (t ++ u) where
  stopped d mem := by
    have mem := (List.mem_append.mp mem).resolve_right fun mem => by
      obtain ⟨_, same, -⟩ := stops _ mem
      cases same
    obtain ⟨reply, stop⟩ := all d ((running.granted d).mp mem)
    exact ⟨reply, (List.singleton_sublist.mpr mem).append (List.singleton_sublist.mpr stop)⟩
  started d reply mem := by
    have stop := (List.mem_append.mp mem).resolve_left (running.unstopped d reply)
    obtain ⟨_, same, flag⟩ := stops _ stop
    cases same
    have mem := (running.granted d).mpr flag
    exact (List.singleton_sublist.mpr mem).append (List.singleton_sublist.mpr stop)

/-- What runs and is left running is not rolled back. -/
theorem Running.not_rolledBack (running : Running directions started t) {d : Direction}
    (flag : started.has d = true) : ¬ RolledBack t := by
  intro rolled
  obtain ⟨reply, sub⟩ := rolled.stopped d ((running.granted d).mpr flag)
  exact running.unstopped d reply (sub.subset (by simp))

section Start

open Attempt

variable [OwnedValue V] {turns : Nat} {result : Result FlossLeDataPath} {error : String}

/-- The two exits that stop what was started. -/
theorem Running.abandon (running : Running directions started t)
    (traces : Attempt.Traces (do
      stopDirections started.hostToPeer started.peerToHost
      throw error) u (some result)) :
    RollsBack directions (t ++ u) result ∧ PcmAccepted u := by
  rcases traces_bind_some.mp traces with ⟨_, u₁, u₂, rfl, stopping, thrown⟩ | ⟨e, stopping, -⟩
  · obtain ⟨-, stops, all⟩ := stopDirections_spec started stopping
    obtain ⟨rfl, same⟩ := traces_throw.mp thrown
    cases same
    rw [List.append_nil]
    refine ⟨running.rolledBack stops all, pcmAccepted_of_forall fun e mem d same => ?_⟩
    obtain ⟨_, stop, -⟩ := stops e mem
    cases stop.symm.trans same
  · cases (stopDirections_spec started stopping).1

/-- The socket connects, or the streams are stopped again. -/
theorem Running.connect (running : Running directions started t) {self : FlossLeAudio}
    {hostPcm peerPcm : Option PcmConfiguration}
    (agree : ∀ d, started.has d = directions.has d)
    (confirmed : ∀ d, directions.has d = true →
      [⟨.startAudioRequest d, .ok true⟩, ⟨.getStreamStarted d, .ok 1⟩].Sublist t)
    (host : Configured directions t .hostToPeer hostPcm)
    (peer : Configured directions t .peerToHost peerPcm)
    (traces : Attempt.Traces (do
      match ← (connectWithDeadline turns self.dataPath 5000000000).outcome with
      | .error error =>
          stopDirections started.hostToPeer started.peerToHost
          throw error
      | .ok stream =>
          return { owner := self, stream := some stream, directions, hostPcm, peerPcm,
                   stopped := false }) u (some result)) :
    RollsBack directions (t ++ u) result ∧ PcmAccepted u := by
  rcases traces_outcome_bind.mp traces with ⟨connected, x, y, rfl, connecting, rest⟩ | ⟨-, ended⟩
  · have neutral := connectWithDeadline_neutral _ _ connecting
    have running := running.append fun e mem => (neutral e mem).passive
    rw [← List.append_assoc, pcmAccepted_append]
    cases connected with
    | error error =>
        obtain ⟨rolled, accepted⟩ := running.abandon rest
        exact ⟨rolled, pcmAccepted_of_neutral neutral, accepted⟩
    | ok stream =>
        obtain ⟨rfl, same⟩ := traces_pure.mp rest
        cases same
        rw [List.append_nil]
        refine ⟨⟨running.unstopped, running.requested, ?_, ?_, ?_⟩,
          pcmAccepted_of_neutral neutral, nofun⟩
        · intro d requested
          exact (running.granted d).mpr ((agree d).trans requested)
        · intro d requested
          exact (confirmed d requested).trans (List.sublist_append_left _ _)
        · intro d
          cases d with
          | hostToPeer => exact host.mono (List.subset_append_left _ _)
          | peerToHost => exact peer.mono (List.subset_append_left _ _)
  · cases ended

/-- A confirmed stream is given up exactly when a PCM reply is not accepted, and
then nothing is stopped. -/
theorem Running.openDataPath (running : Running directions started t) {self : FlossLeAudio}
    (agree : ∀ d, started.has d = directions.has d) (selected : ∃ d, directions.has d = true)
    (confirmed : ∀ d, directions.has d = true →
      [⟨.startAudioRequest d, .ok true⟩, ⟨.getStreamStarted d, .ok 1⟩].Sublist t)
    (traces : Attempt.Traces
      (self.openDataPath turns directions started.hostToPeer started.peerToHost) u (some result)) :
    RollsBack directions (t ++ u) result ↔ PcmAccepted u := by
  obtain ⟨selected, requested⟩ := selected
  have passive {v : Trace V} {d : Direction} (asks : ∀ e ∈ v, e.1 = .getPcmConfig d) :
      ∀ e ∈ v, e.1.Passive := fun e mem d' => by
    rw [asks e mem]
    exact ⟨nofun, nofun⟩
  have abandoned {v : Trace V} {e : String} (still : Running directions started v) :
      ¬ RollsBack directions v (.error e) :=
    still.not_rolledBack ((agree selected).trans requested)
  rcases traces_bind_some.mp traces with ⟨hostPcm, u₁, v, rfl, asked, rest⟩ | ⟨e, asked, rfl⟩
  · obtain ⟨_, same, hosts, hostAccepted, hostPcm⟩ := pcmConfig_spec asked
    cases same
    have running := running.append (passive hosts)
    rcases traces_bind_some.mp rest with ⟨peerPcm, u₂, w, rfl, asked, rest⟩ | ⟨e, asked, rfl⟩
    · obtain ⟨_, same, peers, peerAccepted, peerPcm⟩ := pcmConfig_spec asked
      cases same
      have running := running.append (passive peers)
      have host := (hostPcm _ rfl).mono fun e mem =>
        List.mem_append_left u₂ (List.mem_append_right t mem)
      have peer := (peerPcm _ rfl).mono (List.subset_append_right (t ++ u₁) u₂)
      have earlier := fun d requested => (confirmed d requested).trans
        ((List.sublist_append_left t u₁).trans (List.sublist_append_left _ u₂))
      obtain ⟨rolled, accepted⟩ := running.connect agree earlier host peer rest
      rw [pcmAccepted_append, pcmAccepted_append, ← List.append_assoc, ← List.append_assoc]
      exact iff_of_true rolled
        ⟨hostAccepted.mpr ⟨_, rfl⟩, peerAccepted.mpr ⟨_, rfl⟩, accepted⟩
    · obtain ⟨_, same, peers, peerAccepted, -⟩ := pcmConfig_spec asked
      cases same
      rw [← List.append_assoc]
      apply iff_of_false (abandoned (running.append (passive peers)))
      intro accepted
      obtain ⟨_, config⟩ := peerAccepted.mp (pcmAccepted_append.mp accepted).2
      cases config
  · obtain ⟨_, same, hosts, hostAccepted, -⟩ := pcmConfig_spec asked
    cases same
    apply iff_of_false (abandoned (running.append (passive hosts)))
    intro accepted
    obtain ⟨_, config⟩ := hostAccepted.mp accepted
    cases config

theorem rollsBack_iff {self : FlossLeAudio} {groupId : Int32}
    (traces : Attempt.Traces (self.startSoftwareUnicast turns groupId directions) t (some result)) :
    RollsBack directions t result ↔ PcmAccepted t := by
  rcases traces_bind_some.mp traces with ⟨_, pre, t', rfl, activated, rest⟩ | ⟨e, activated, rfl⟩
  · have neutral := activate_neutral _ _ activated
    rcases traces_bind_some.mp rest with ⟨⟨host, peer, waited⟩, s, t'', rfl, starting, rest⟩ |
      ⟨e, starting, -⟩
    · obtain ⟨started, _, same, starts⟩ := startDirections_spec starting
      cases same
      have running := starts.running neutral
      have accepted : PcmAccepted (pre ++ s) := by
        refine pcmAccepted_append.mpr ⟨pcmAccepted_of_neutral neutral, ?_⟩
        apply pcmAccepted_of_forall
        intro e mem d same
        rcases starts.calls e mem with neutral | ⟨_, start, -⟩
        · rw [same] at neutral
          exact neutral
        · cases start.symm.trans same
      rw [← List.append_assoc, pcmAccepted_append]
      cases waited with
      | error error =>
          obtain ⟨rolled, stopAccepted⟩ := running.abandon rest
          exact iff_of_true rolled ⟨accepted, stopAccepted⟩
      | ok done =>
          have confirmed := fun d requested =>
            (starts.confirmed rfl d requested).trans (List.sublist_append_right pre s)
          have selected := activate_selects activated
          exact (running.openDataPath (starts.complete rfl) selected confirmed rest).trans
            (and_iff_right accepted).symm
    · obtain ⟨_, _, same, -⟩ := startDirections_spec starting
      cases same
  · have neutral := activate_neutral _ _ activated
    refine iff_of_true ⟨fun d mem => ?_, fun d reply mem => ?_⟩ (pcmAccepted_of_neutral neutral)
    · exact absurd (neutral _ mem) id
    · exact absurd (neutral _ mem) id

end Start

end Rollback

/-! ### The promise of `start_software_unicast` -/

/-- In every run, against every service: the run comes to an end when the clock
advances and the loops have 401 turns, and its result keeps the promise exactly
when every PCM reply of the service is one that `parse_pcm_config` accepts. -/
theorem startSoftwareUnicast_rollsBack [OwnedValue V] (self : FlossLeAudio) (turns : Nat)
    (groupId : Int32) (directions : FlossLeDirections) (t : Trace V)
    (out : Option (Result FlossLeDataPath))
    (traces : (self.startSoftwareUnicast turns groupId directions).Traces t out) :
    (401 ≤ turns → ClockAdvances t → out.isSome = true) ∧
      ∀ result, out = some result → (RollsBack directions t result ↔ PcmAccepted t) := by
  constructor
  · intro enough advances
    cases out with
    | none => exact absurd traces (startSoftwareUnicast_ends enough advances)
    | some result => rfl
  · rintro result rfl
    exact rollsBack_iff traces

/-- A service that answers every request in the same way. -/
def steadyService (V : Type) (pcm : Result (PropertyMap V)) : (call : Call) → call.Reply V
  | .proxyDestination _ | .proxyPath _ | .proxyBuild | .groupSetActive _ => .ok ()
  | .sourceMetadataChanged .. | .sinkMetadataChanged .. => .ok true
  | .startAudioRequest _ => .ok true
  | .stopAudioRequest _ => .ok ()
  | .getStreamStarted _ => .ok 1
  | .getPcmConfig _ => pcm
  | .now => 0
  | .sleep _ => ()
  | .connect _ => .ok ⟨3⟩

def sampleProperties : PropertyMap SampleValue :=
  [("data_interval_us", .u32 10000), ("sample_rate", .u32 48000), ("bits_per_sample", .u8 16),
    ("channels_count", .u8 2)]

theorem parse_sampleProperties :
    parsePcmConfig sampleProperties = .ok ⟨48000, 16, 2, 10000⟩ := by
  decide +kernel

theorem startSoftwareUnicast_rollsBack_full_duplex :
    ∃ t path, ((FlossLeAudio.withConnection 0).startSoftwareUnicast 401 7 .fullDuplex :
        Control SampleValue _).Traces t (some (.ok path)) ∧
      RollsBack .fullDuplex t (.ok path) := by
  have runs : ((FlossLeAudio.withConnection 0).startSoftwareUnicast 401 7 .fullDuplex :
      Control SampleValue _).run.run.record (steadyService _ (.ok sampleProperties)) =
      ([⟨.proxyDestination flossService, .ok ()⟩,
        ⟨.proxyPath (FlossLeAudio.withConnection 0).mediaPath, .ok ()⟩, ⟨.proxyBuild, .ok ()⟩,
        ⟨.groupSetActive 7, .ok ()⟩, ⟨.sourceMetadataChanged 1 2 1.0, .ok true⟩,
        ⟨.sinkMetadataChanged 1 1.0, .ok true⟩, ⟨.startAudioRequest .hostToPeer, .ok true⟩,
        ⟨.startAudioRequest .peerToHost, .ok true⟩, ⟨.now, (0 : Nat)⟩,
        ⟨.getStreamStarted .hostToPeer, .ok 1⟩, ⟨.getStreamStarted .peerToHost, .ok 1⟩,
        ⟨.getPcmConfig .hostToPeer, .ok sampleProperties⟩,
        ⟨.getPcmConfig .peerToHost, .ok sampleProperties⟩, ⟨.now, (0 : Nat)⟩,
        ⟨.connect leAudioDataPath, .ok ⟨3⟩⟩],
       some (.ok
        { owner := FlossLeAudio.withConnection 0
          stream := some ⟨3⟩
          directions := .fullDuplex
          hostPcm := some ⟨48000, 16, 2, 10000⟩
          peerPcm := some ⟨48000, 16, 2, 10000⟩
          stopped := false })) := by
    rfl
  have traces := Prog.traces_record (steadyService SampleValue (.ok sampleProperties))
    ((FlossLeAudio.withConnection 0).startSoftwareUnicast 401 7 .fullDuplex).run.run
  rw [runs] at traces
  refine ⟨_, _, traces, ((startSoftwareUnicast_rollsBack _ _ _ _ _ _ traces).2 _ rfl).mpr ?_⟩
  intro d reply mem
  have either : d = .hostToPeer ∧ reply = .ok sampleProperties ∨
      d = .peerToHost ∧ reply = .ok sampleProperties := by
    simpa using mem
  obtain ⟨-, rfl⟩ | ⟨-, rfl⟩ := either
  · exact ⟨_, parse_sampleProperties⟩
  · exact ⟨_, parse_sampleProperties⟩

/-- The service starts the stream, then does not answer the PCM query: the call
fails and the direction is never stopped. -/
theorem startSoftwareUnicast_leaves_running :
    ∃ t, ((FlossLeAudio.withConnection 0).startSoftwareUnicast 401 7 .output :
        Control SampleValue _).Traces t (some (.error "no reply")) ∧
      ⟨.startAudioRequest .hostToPeer, .ok true⟩ ∈ t ∧
      (∀ d reply, ⟨.stopAudioRequest d, reply⟩ ∉ t) ∧
      ¬ RollsBack .output t (.error "no reply") := by
  have runs : ((FlossLeAudio.withConnection 0).startSoftwareUnicast 401 7 .output :
      Control SampleValue _).run.run.record (steadyService _ (.error "no reply")) =
      ([⟨.proxyDestination flossService, .ok ()⟩,
        ⟨.proxyPath (FlossLeAudio.withConnection 0).mediaPath, .ok ()⟩, ⟨.proxyBuild, .ok ()⟩,
        ⟨.groupSetActive 7, .ok ()⟩, ⟨.sourceMetadataChanged 1 2 1.0, .ok true⟩,
        ⟨.startAudioRequest .hostToPeer, .ok true⟩, ⟨.now, (0 : Nat)⟩,
        ⟨.getStreamStarted .hostToPeer, .ok 1⟩, ⟨.getPcmConfig .hostToPeer, .error "no reply"⟩],
       some (.error "no reply")) := by
    rfl
  have traces := Prog.traces_record (steadyService SampleValue (.error "no reply"))
    ((FlossLeAudio.withConnection 0).startSoftwareUnicast 401 7 .output).run.run
  rw [runs] at traces
  refine ⟨_, traces, by simp, by simp, fun rolled => ?_⟩
  obtain ⟨reply, sub⟩ := rolled.stopped .hostToPeer (by simp)
  have mem := sub.subset (List.mem_cons_of_mem _ List.mem_cons_self)
  simp at mem

end Dorsche.Wireless.Floss
