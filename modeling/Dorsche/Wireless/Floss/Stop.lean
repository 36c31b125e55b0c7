import Dorsche.Wireless.Floss.Parts

/-!
The life of a data path after `start_software_unicast` has returned it.

`Opened` is what its owner may rely on: the stream is there to be taken, and a
direction that runs has a configuration whose interval can be computed.
`stop_requests` is what `stop` does: once its proxy is built, it requests the stop
of every direction that runs, whatever the replies are.
-/

namespace Dorsche.Wireless.Floss

open Dorsche.Lib BluetoothMedia Attempt

variable {V : Type} {turns : Nat} {directions : FlossLeDirections} {direction : Direction}
variable {t : Trace V} {path : FlossLeDataPath}

/-- A data path as it is returned for some directions. -/
structure Opened (directions : FlossLeDirections) (path : FlossLeDataPath) : Prop where
  same : path.directions = directions
  stream : ∃ stream, path.stream = some stream
  pcm : ∀ d, directions.has d = true →
    ∃ pcm octets, path.pcm d = some pcm ∧ pcm.bytesPerInterval = .ok octets

theorem Configured.interval [OwnedValue V] {config : Option PcmConfiguration}
    (configured : Configured directions t direction config)
    (requested : directions.has direction = true) :
    ∃ pcm octets, config = some pcm ∧ pcm.bytesPerInterval = .ok octets := by
  cases config with
  | none =>
      have missing : directions.has direction = false := configured
      cases missing.symm.trans requested
  | some pcm =>
      obtain ⟨-, properties, -, parsed⟩ := configured
      simp only [parsePcmConfig, bind_eq_ok, Unique.exists_iff] at parsed
      obtain ⟨_, -, _, -, _, -, _, -, -, octets, computed, same⟩ := parsed
      cases same
      exact ⟨_, octets, rfl, computed⟩

/-- What `start_software_unicast` returns. -/
theorem startSoftwareUnicast_opened [OwnedValue V] {self : FlossLeAudio} {groupId : Int32}
    (traces : (self.startSoftwareUnicast turns groupId directions).Traces t (some (.ok path))) :
    Opened directions path := by
  obtain ⟨_, t₁, t₂, rfl, -, rest⟩ := traces_bind_ok.mp traces
  obtain ⟨⟨host, peer, waited⟩, t₃, t₄, rfl, -, rest⟩ := traces_bind_ok.mp rest
  cases waited with
  | error e =>
      obtain ⟨_, _, _, -, -, thrown⟩ := traces_bind_ok.mp rest
      cases (traces_throw.mp thrown).2
  | ok done =>
      obtain ⟨hostPcm, t₅, t₆, rfl, hosts, rest⟩ := traces_bind_ok.mp rest
      obtain ⟨peerPcm, t₇, t₈, rfl, peers, rest⟩ := traces_bind_ok.mp rest
      obtain ⟨_, same, -, -, hostPcm⟩ := pcmConfig_spec hosts
      cases same
      obtain ⟨_, same, -, -, peerPcm⟩ := pcmConfig_spec peers
      cases same
      obtain ⟨connected, t₉, u, rfl, -, rest⟩ := traces_bind_ok.mp rest
      cases connected with
      | error e =>
          obtain ⟨_, _, _, -, -, thrown⟩ := traces_bind_ok.mp rest
          cases (traces_throw.mp thrown).2
      | ok stream =>
          obtain ⟨-, same⟩ := traces_pure.mp rest
          cases same
          refine ⟨rfl, ⟨stream, rfl⟩, ?_⟩
          intro d requested
          cases d with
          | hostToPeer => exact (hostPcm _ rfl).interval requested
          | peerToHost => exact (peerPcm _ rfl).interval requested

/-- The stream of a new data path can be taken. -/
theorem Opened.takeStream (opened : Opened directions path) :
    ∃ stream, path.takeStream = .ok (stream, { path with stream := none }) := by
  obtain ⟨stream, is⟩ := opened.stream
  exact ⟨stream, by rw [FlossLeDataPath.takeStream, is]⟩

/-! ### What `stop` requests -/

theorem requestStop_spec {out : Option (Result (Result Unit))}
    (traces : (path.requestStop direction).Traces t out) :
    (∃ reply, out = some (.ok reply)) ∧
      (path.directions.has direction = true →
        ∃ reply, ⟨.stopAudioRequest direction, reply⟩ ∈ t) := by
  unfold FlossLeDataPath.requestStop at traces
  split at traces
  · obtain ⟨o, called, rfl⟩ := traces_outcome.mp traces
    obtain ⟨reply, asked, rfl⟩ := traces_call.mp called
    rw [traces_ask.mp asked]
    exact ⟨⟨reply, rfl⟩, fun _ => ⟨reply, List.mem_cons_self⟩⟩
  · rename_i unrequested
    obtain ⟨-, rfl⟩ := traces_pure.mp traces
    exact ⟨⟨_, rfl⟩, fun requested => absurd requested unrequested⟩

/-- A proxy that was built is there. -/
theorem proxy_spec {self : FlossLeAudio} {result : Result Unit}
    (traces : (self.proxy : Control V Unit).Traces t (some result)) :
    t ≠ [] ∧ (⟨.proxyBuild, .ok ()⟩ ∈ t → result = .ok ()) := by
  rcases traces_bind_some.mp traces with ⟨_, t₁, t₂, rfl, destination, rest⟩ | ⟨e, failed, -⟩
  · obtain ⟨first, destination, -⟩ := traces_call.mp destination
    obtain rfl := traces_ask.mp destination
    refine ⟨List.cons_ne_nil _ _, fun built => ?_⟩
    rcases traces_bind_some.mp rest with ⟨_, t₃, t₄, rfl, accepted, building⟩ | ⟨e, failed, -⟩
    · obtain ⟨second, accepted, -⟩ := traces_call.mp accepted
      obtain rfl := traces_ask.mp accepted
      obtain ⟨reply, t₅, rfl, lifted⟩ := (traces_ask_bind .proxyBuild).mp building
      obtain ⟨rfl, same⟩ := traces_lift.mp lifted
      obtain rfl : .ok () = reply := by simpa using built
      exact Option.some.inj same
    · obtain ⟨second, failed, -⟩ := traces_call.mp failed
      obtain rfl := traces_ask.mp failed
      simp at built
  · obtain ⟨first, failed, -⟩ := traces_call.mp failed
    obtain rfl := traces_ask.mp failed
    refine ⟨List.cons_ne_nil _ _, fun built => ?_⟩
    simp at built

theorem stop_asks {result : Result Unit}
    (traces : (path.stop : Control V Unit).Traces t (some result)) : t ≠ [] := by
  rcases traces_bind_some.mp traces with ⟨_, t₁, t₂, rfl, proxy, -⟩ | ⟨e, proxy, -⟩
  · exact List.append_ne_nil_of_left_ne_nil (proxy_spec proxy).1 _
  · exact (proxy_spec proxy).1

/-- Once its proxy is built, `stop` requests the stop of every direction. -/
theorem stop_requests {result : Result Unit}
    (traces : (path.stop : Control V Unit).Traces t (some result))
    (built : ⟨.proxyBuild, .ok ()⟩ ∈ t) (running : path.directions.has direction = true) :
    ∃ reply, ⟨.stopAudioRequest direction, reply⟩ ∈ t := by
  rcases traces_bind_some.mp traces with ⟨_, t₁, t₂, rfl, -, rest⟩ | ⟨e, proxy, -⟩
  · rcases traces_bind_some.mp rest with ⟨peer, t₃, t₄, rfl, first, rest⟩ | ⟨e, first, -⟩
    · rcases traces_bind_some.mp rest with ⟨host, t₅, t₆, rfl, second, -⟩ | ⟨e, second, -⟩
      · cases direction with
        | peerToHost =>
            obtain ⟨reply, mem⟩ := (requestStop_spec first).2 running
            exact ⟨reply, List.mem_append_right _ (List.mem_append_left _ mem)⟩
        | hostToPeer =>
            obtain ⟨reply, mem⟩ := (requestStop_spec second).2 running
            exact ⟨reply, List.mem_append_right _
              (List.mem_append_right _ (List.mem_append_left _ mem))⟩
      · obtain ⟨⟨_, same⟩, -⟩ := requestStop_spec second
        cases same
    · obtain ⟨⟨_, same⟩, -⟩ := requestStop_spec first
      cases same
  · cases (proxy_spec proxy).2 built

end Dorsche.Wireless.Floss
