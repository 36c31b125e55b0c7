import Dorsche.Kernel.ScoHandlers

/-!
The HFP HAL of Floss (`third_party/floss/system/stack/btm/btm_sco_hfp_hal_linux.cc`)
against the management commands of the kernel.

The HAL asks for the codec capabilities once, when it is initialised, and reports
every SCO link that comes or goes. It writes packed structures into a management
socket; the kernel reads them with its own. `RETRY_ON_INTR` is left out: the outcome
of a `read` or `write` is the one after the retries.
-/

namespace Dorsche.Floss.HfpHal

open Dorsche.Lib Dorsche.Kernel.Sco

/-! ### Packets -/

/-- `HCI_DEV_NONE`. -/
def hciDevNone : UInt16 := 0xffff

/-- `struct mgmt_pkt` with the data that counts. -/
def mgmtPkt (opcode index : UInt16) (data : List UInt8) : List UInt8 :=
  leBytes 2 opcode.toNat ++ leBytes 2 index.toNat ++ leBytes 2 data.length ++ data

/-- `MGMT_EV_COMMAND_COMPLETE`. -/
def evCommandComplete : UInt16 := 0x1

/-- The management socket of the kernel, around the commands of the patch, and what is
assumed of it: the kernel frames packets as the HAL does. -/
structure Mgmt where
  /-- `hci_mgmt_cmd` on a socket that is trusted: the command for no controller that a
  packet holds, with its data. -/
  hciMgmtCmd : List UInt8 → Option (UInt16 × List UInt8)
  /-- The packet that `mgmt_cmd_complete` sends for `MGMT_INDEX_NONE`. -/
  mgmtCmdComplete : UInt16 → UInt8 → List UInt8 → List UInt8
  hciMgmtCmd_mgmtPkt : ∀ opcode data, data.length < 256 ^ 2 →
    hciMgmtCmd (mgmtPkt opcode hciDevNone data) = some (opcode, data)
  mgmtCmdComplete_eq : ∀ opcode status payload, payload.length + 3 < 256 ^ 2 →
    mgmtCmdComplete opcode status payload =
      mgmtPkt evCommandComplete hciDevNone (leBytes 2 opcode.toNat ++ [status] ++ payload)

/-- The handler of the patch that a packet gets to. -/
def Mgmt.receive (mgmt : Mgmt) (packet : List UInt8) : Option Request :=
  (mgmt.hciMgmtCmd packet).bind fun command => Request.decode command.1 command.2

/-- The packet of `mgmt_get_codec_capabilities`. -/
def getCodecCapabilitiesPkt (hci : UInt16) : List UInt8 :=
  mgmtPkt opGetScoCodecCapabilities hciDevNone (leBytes 2 hci.toNat)

/-- The packet of `mgmt_notify_sco_connection_change`. -/
def notifyScoConnectionChangePkt (hci : UInt16) (device : BdAddr) (isConnected : Bool)
    (codec : UInt8) : List UInt8 :=
  mgmtPkt opNotifyScoConnectionChange hciDevNone
    (leBytes 2 hci.toNat ++ device.1 ++ [0, if isConnected then 1 else 0, codec])

/-! ### Codecs -/

/-- `codec::CVSD`; the codecs are one bit each. -/
def cvsd : Nat := 1

def msbcTransparent : Nat := 2

def msbc : Nat := 4

def lc3 : Nat := 8

/-- `cached_codec_info`. -/
structure CachedCodec where
  codec : Nat
  dataPath : UInt8
  pktSize : Nat
deriving DecidableEq, Repr

/-- The variables of the HAL. -/
structure Hal where
  offloadSupported : Bool
  cachedCodecs : List CachedCodec
deriving DecidableEq, Repr

def Hal.initial : Hal := ⟨false, []⟩

/-- `localCodecs` is `GetLocalSupportedBrEdrCodecIds`. -/
def Hal.cacheCodecCapabilities (hal : Hal) (rp : CodecCapabilities) (localCodecs : List UInt8) :
    Hal :=
  let transparent : List CachedCodec :=
    if rp.transparentWbsSupported ≠ 0 then [⟨msbcTransparent, 0, rp.wbsPktLen.toNat⟩] else []
  let offloaded : List CachedCodec :=
    if 5 ∈ localCodecs then [⟨msbc, rp.hciDataPathId, rp.wbsPktLen.toNat⟩] else []
  { offloadSupported := hal.offloadSupported || decide (5 ∈ localCodecs)
    cachedCodecs := hal.cachedCodecs ++ [⟨cvsd, 0, 0⟩] ++ transparent ++ offloaded }

/-- `kDefaultPacketSize` if there is no such codec. -/
def Hal.getPacketSize (hal : Hal) (codec : Nat) : Nat :=
  match hal.cachedCodecs.find? fun cached => cached.codec == codec with
  | some cached => cached.pktSize
  | none => 0

/-- `esco_coding_format_t` as far as it is asked for. -/
inductive CodingFormat where
  | transpnt
  | msbc
  | other
deriving DecidableEq, Repr

def Hal.isCodingFormatSupported (hal : Hal) : CodingFormat → Bool
  | .transpnt => hal.cachedCodecs.any fun cached => cached.codec == msbcTransparent
  | .msbc => hal.cachedCodecs.any fun cached => cached.codec == HfpHal.msbc
  | .other => false

def Hal.getWbsSupported (hal : Hal) : Bool :=
  hal.isCodingFormatSupported .transpnt || hal.isCodingFormatSupported .msbc

/-- With `TARGET_FLOSS`. -/
def Hal.getSwbSupported (hal : Hal) : Bool := hal.isCodingFormatSupported .transpnt

/-- `bt_codecs`, each codec with its data path. -/
structure BtCodecs where
  offloadCapable : Bool
  codecs : List (Nat × UInt8)
deriving DecidableEq, Repr

def Hal.getCodecCapabilities (hal : Hal) (codecs : Nat) : BtCodecs where
  offloadCapable := hal.offloadSupported
  codecs := (hal.cachedCodecs.filter fun cached => cached.codec &&& codecs ≠ 0).map fun cached =>
    (cached.codec, cached.dataPath)

/-! ### The exchange at initialisation -/

/-- What becomes of the packet: the socket is not writable in time, the write fails, or
it returns a number. -/
inductive Sent where
  | notWritable
  | failed (errno : Int)
  | written (n : Nat)
deriving DecidableEq, Repr

/-- The result of the first half, if it is the last. -/
def Sent.result : Sent → Option Int
  | .notWritable => some (-1)
  | .failed errno => some (-errno)
  | .written 0 => some (-1)
  | .written (_ + 1) => none

/-- What a turn of the loop waits for and gets. -/
inductive Waited where
  /-- `poll` returns without `POLLIN`. -/
  | notReadable
  | packet (octets : List UInt8)
  | readFails (errno : Int)
  | endOfFile
  | timeout
  | pollFails
deriving DecidableEq, Repr

/-- `sizeof(struct mgmt_pkt)`. -/
def mgmtPktSize : Nat := 1030

/-- `read` into `ev`, which keeps its octets behind a short packet. -/
def readEv (ev : Memory) (octets : List UInt8) : Memory := ev.write 0 (octets.take mgmtPktSize)

/-- The reply in `ev`, if it is the one that was asked for. -/
def replyIn (ev : Memory) (hci : UInt16) : Option CodecCapabilities :=
  if ev.u16 0 = evCommandComplete ∧ ev.u16 6 = opGetScoCodecCapabilities ∧ ev 8 = 0 ∧
      ev.u16 9 = hci then
    some ⟨ev.u16 9, ev 11, ev 12, ev.u32 13⟩
  else none

/-- The loop of `mgmt_get_codec_capabilities`; `none` while it waits. -/
def awaitCapabilities (hci : UInt16) : Memory → List Waited →
    Option (Int × Option CodecCapabilities)
  | _, [] => none
  | ev, .notReadable :: rest => awaitCapabilities hci ev rest
  | ev, .packet octets :: rest =>
      match replyIn (readEv ev octets) hci with
      | some rp => some (0, some rp)
      | none => awaitCapabilities hci (readEv ev octets) rest
  | _, .readFails errno :: _ => some (-errno, none)
  | _, .endOfFile :: _ | _, .timeout :: _ | _, .pollFails :: _ => some (-1, none)

/-- `mgmt_get_codec_capabilities`, with the stack it finds in `ev`. -/
def Hal.mgmtGetCodecCapabilities (hal : Hal) (hci : UInt16) (sent : Sent) (ev : Memory)
    (waited : List Waited) (localCodecs : List UInt8) : Option (Int × Hal) :=
  match sent.result with
  | some ret => some (ret, hal)
  | none =>
      (awaitCapabilities hci (ev.write 0 (getCodecCapabilitiesPkt hci)) waited).map fun
        | (ret, some rp) => (ret, hal.cacheCodecCapabilities rp localCodecs)
        | (ret, none) => (ret, hal)

/-! ### From the HAL to the kernel -/

section Packets

variable {mgmt : Mgmt} {opcode : UInt16} {data : List UInt8} {hci : UInt16}

theorem ofNat_leValue_leBytes (v : UInt16) : UInt16.ofNat (leValue (leBytes 2 v.toNat)) = v := by
  have fits : v.toNat < 256 ^ 2 := v.toNat_lt
  rw [leValue_leBytes, Nat.mod_eq_of_lt fits, UInt16.ofNat_toNat]

theorem Mgmt.receive_mgmtPkt (short : data.length < 256 ^ 2) :
    mgmt.receive (mgmtPkt opcode hciDevNone data) = Request.decode opcode data := by
  rw [Mgmt.receive, mgmt.hciMgmtCmd_mgmtPkt opcode data short]
  rfl

theorem Mgmt.receive_getCodecCapabilitiesPkt :
    mgmt.receive (getCodecCapabilitiesPkt hci) = some (.getScoCodecCapabilities hci) := by
  rw [getCodecCapabilitiesPkt, Mgmt.receive_mgmtPkt (by simp)]
  simp [Request.decode, getScoCodecCapabilitiesSize, ofNat_leValue_leBytes]

theorem Mgmt.receive_notifyScoConnectionChangePkt (device : BdAddr) (isConnected : Bool)
    (codec : UInt8) :
    mgmt.receive (notifyScoConnectionChangePkt hci device isConnected codec) =
      some (.notifyScoConnectionChange
        ⟨hci, device, 0, if isConnected then 1 else 0, codec⟩) := by
  obtain ⟨octets, six⟩ := device
  rw [notifyScoConnectionChangePkt, Mgmt.receive_mgmtPkt (by simp [six])]
  simp [Request.decode, opNotifyScoConnectionChange, opGetScoCodecCapabilities,
    notifyScoConnectionChangeSize, ofNat_leValue_leBytes, six]

end Packets

/-! ### From the kernel to the HAL -/

section Reply

variable {ev : Memory} {octets : List UInt8} {hci : UInt16}

/-- The octets of a packet that fits, as they stand in `ev`. -/
theorem read_readEv (fits : octets.length ≤ mgmtPktSize) {off n : Nat}
    (inside : off + n ≤ octets.length) :
    (readEv ev octets).read off n = (octets.drop off).take n := by
  rw [readEv, List.take_of_length_le fits]
  have part : (((ev.write 0 octets).read 0 octets.length).drop off).take n =
      (ev.write 0 octets).read (0 + off) n := Memory.read_part inside
  rw [Memory.read_write_self rfl, Nat.zero_add] at part
  exact part.symm

theorem u16_readEv (fits : octets.length ≤ mgmtPktSize) {off : Nat}
    (inside : off + 2 ≤ octets.length) :
    (readEv ev octets).u16 off = UInt16.ofNat (leValue ((octets.drop off).take 2)) := by
  rw [Memory.u16, Memory.word, read_readEv fits inside]

theorem octet_readEv (fits : octets.length ≤ mgmtPktSize) {off : Nat}
    (inside : off < octets.length) : readEv ev octets off = octets.getD off 0 := by
  rw [readEv, List.take_of_length_le fits, Memory.write, if_pos (by omega)]
  rfl

/-- The packet has one of the fields that the HAL looks at, with another value. -/
def Unrelated (hci : UInt16) (octets : List UInt8) : Prop :=
  octets.length ≤ mgmtPktSize ∧
    (2 ≤ octets.length ∧ UInt16.ofNat (leValue (octets.take 2)) ≠ evCommandComplete ∨
      8 ≤ octets.length ∧
        UInt16.ofNat (leValue ((octets.drop 6).take 2)) ≠ opGetScoCodecCapabilities ∨
      9 ≤ octets.length ∧ octets.getD 8 0 ≠ 0 ∨
      11 ≤ octets.length ∧ UInt16.ofNat (leValue ((octets.drop 9).take 2)) ≠ hci)

theorem replyIn_unrelated (unrelated : Unrelated hci octets) :
    replyIn (readEv ev octets) hci = none := by
  obtain ⟨fits, differs⟩ := unrelated
  rw [replyIn, if_neg]
  rintro ⟨event, opcode, status, id⟩
  rcases differs with ⟨long, differs⟩ | ⟨long, differs⟩ | ⟨long, differs⟩ | ⟨long, differs⟩
  · exact differs (by rw [← event, u16_readEv fits long, List.drop_zero])
  · exact differs (by rw [← opcode, u16_readEv fits long])
  · exact differs ((octet_readEv fits long).symm.trans status)
  · exact differs (by rw [← id, u16_readEv fits long])

/-- The HAL reads the reply as the kernel wrote it, whatever was in `ev`. -/
theorem replyIn_mgmtCmdComplete (mgmt : Mgmt) (rp : CodecCapabilities) :
    replyIn (readEv ev (mgmt.mgmtCmdComplete opGetScoCodecCapabilities 0 rp.encode)) rp.hciId =
      some rp := by
  rw [mgmt.mgmtCmdComplete_eq _ _ _ (by simp [CodecCapabilities.encode])]
  obtain ⟨hciId, transparent, dataPath, pktLen⟩ := rp
  -- the packet, octet by octet
  let packet := mgmtPkt evCommandComplete hciDevNone
    (leBytes 2 opGetScoCodecCapabilities.toNat ++ [0] ++
      CodecCapabilities.encode ⟨hciId, transparent, dataPath, pktLen⟩)
  have length : packet.length = 17 := by
    simp [packet, mgmtPkt, CodecCapabilities.encode]
  have fits : packet.length ≤ mgmtPktSize := by
    rw [length]
    decide
  have event : (readEv ev packet).u16 0 = evCommandComplete := by
    rw [u16_readEv fits (by omega)]
    rfl
  have opcode : (readEv ev packet).u16 6 = opGetScoCodecCapabilities := by
    rw [u16_readEv fits (by omega)]
    rfl
  have status : readEv ev packet 8 = 0 := by
    rw [octet_readEv fits (by omega)]
    rfl
  have id : (readEv ev packet).u16 9 = hciId := by
    rw [u16_readEv fits (by omega)]
    exact ofNat_leValue_leBytes hciId
  have wbs : readEv ev packet 11 = transparent := by
    rw [octet_readEv fits (by omega)]
    rfl
  have path : readEv ev packet 12 = dataPath := by
    rw [octet_readEv fits (by omega)]
    rfl
  have size : (readEv ev packet).u32 13 = pktLen := by
    have below : pktLen.toNat < 256 ^ 4 := pktLen.toNat_lt
    have field : (packet.drop 13).take 4 = leBytes 4 pktLen.toNat := rfl
    rw [Memory.u32, Memory.word, read_readEv fits (by omega), field, leValue_leBytes,
      Nat.mod_eq_of_lt below, UInt32.ofNat_toNat]
  change replyIn (readEv ev packet) hciId = _
  rw [replyIn, event, opcode, status, id, wbs, path, size, if_pos ⟨rfl, rfl, rfl, rfl⟩]

/-- The loop passes unrelated packets by. -/
theorem awaitCapabilities_unrelated (ev : Memory) {before rest : List Waited}
    (unrelated : ∀ waited ∈ before, waited = .notReadable ∨
      ∃ octets, waited = .packet octets ∧ Unrelated hci octets) :
    ∃ ev', awaitCapabilities hci ev (before ++ rest) = awaitCapabilities hci ev' rest := by
  induction before generalizing ev with
  | nil => exact ⟨ev, rfl⟩
  | cons waited before ih =>
      have later := fun next mem => unrelated next (List.mem_cons_of_mem _ mem)
      rcases unrelated waited List.mem_cons_self with rfl | ⟨octets, rfl, other⟩
      · exact ih ev later
      · obtain ⟨ev', same⟩ := ih (readEv ev octets) later
        refine ⟨ev', ?_⟩
        rw [List.cons_append, awaitCapabilities, replyIn_unrelated other]
        exact same

/-- The loop ends with the answer of the kernel, behind whatever is not it. -/
theorem awaitCapabilities_answered (mgmt : Mgmt) (ev : Memory) {rp : CodecCapabilities}
    (id : rp.hciId = hci) {before rest : List Waited}
    (unrelated : ∀ waited ∈ before, waited = .notReadable ∨
      ∃ octets, waited = .packet octets ∧ Unrelated hci octets) :
    awaitCapabilities hci ev (before ++
      .packet (mgmt.mgmtCmdComplete opGetScoCodecCapabilities 0 rp.encode) :: rest) =
        some (0, some rp) := by
  obtain ⟨ev', passed⟩ := awaitCapabilities_unrelated ev unrelated
  have answer : replyIn (readEv ev'
      (mgmt.mgmtCmdComplete opGetScoCodecCapabilities 0 rp.encode)) hci = some rp := by
    rw [← id]
    exact replyIn_mgmtCmdComplete mgmt rp
  rw [passed, awaitCapabilities, answer]

end Reply

section Kernel

variable {Hash ι : Type} [DecidableEq ι] {core : HciCore Hash} {s : List (HciDev Hash ι)}
  {dev : Nat} {d : HciDev Hash ι} {hci : UInt16}

theorem run_getScoCodecCapabilities (t : ι) (complete : Int)
    (found : s.findIdx? (fun d => d.listed && d.id == hci) = some dev)
    (inside : s[dev]? = some d) :
    (flossGetScoCodecCapabilities t hci complete).run (exec core) s =
      some ((some d.capabilities, complete), s) := by
  obtain ⟨bound, rfl⟩ := List.getElem?_eq_some_iff.mp inside
  simp [flossGetScoCodecCapabilities, call, Prog.perform, Prog.run, exec, found, onDev, bound,
    HciDev.capabilities]
  exact List.set_getElem_self bound

/-- The codecs after the first answer. -/
theorem Hal.cached_initial (rp : CodecCapabilities) (localCodecs : List UInt8) :
    (Hal.initial.cacheCodecCapabilities rp localCodecs).cachedCodecs =
      ⟨cvsd, 0, 0⟩ ::
        ((if rp.transparentWbsSupported ≠ 0 then
            [⟨msbcTransparent, 0, rp.wbsPktLen.toNat⟩] else []) ++
          if 5 ∈ localCodecs then [⟨msbc, rp.hciDataPathId, rp.wbsPktLen.toNat⟩] else []) := by
  simp [Hal.cacheCodecCapabilities, Hal.initial]

theorem Hal.getPacketSize_cached (rp : CodecCapabilities) (localCodecs : List UInt8) :
    (Hal.initial.cacheCodecCapabilities rp localCodecs).getPacketSize msbcTransparent =
        (if rp.transparentWbsSupported ≠ 0 then rp.wbsPktLen.toNat else 0) ∧
      (Hal.initial.cacheCodecCapabilities rp localCodecs).getPacketSize msbc =
        if 5 ∈ localCodecs then rp.wbsPktLen.toNat else 0 := by
  by_cases transparent : rp.transparentWbsSupported = 0 <;>
    by_cases offloaded : (5 : UInt8) ∈ localCodecs <;>
    simp [Hal.getPacketSize, Hal.cached_initial, transparent, offloaded, cvsd, msbc,
      msbcTransparent]

theorem Hal.supported_cached (rp : CodecCapabilities) (localCodecs : List UInt8) :
    (Hal.initial.cacheCodecCapabilities rp localCodecs).isCodingFormatSupported .transpnt =
        decide (rp.transparentWbsSupported ≠ 0) ∧
      (Hal.initial.cacheCodecCapabilities rp localCodecs).isCodingFormatSupported .msbc =
        decide (5 ∈ localCodecs) := by
  by_cases transparent : rp.transparentWbsSupported = 0 <;>
    by_cases offloaded : (5 : UInt8) ∈ localCodecs <;>
    simp [Hal.isCodingFormatSupported, Hal.cached_initial, transparent, offloaded, cvsd, msbc,
      msbcTransparent]

theorem Hal.getCodecCapabilities_cached (rp : CodecCapabilities) (localCodecs : List UInt8) :
    (Hal.initial.cacheCodecCapabilities rp localCodecs).getCodecCapabilities msbc =
      ⟨decide (5 ∈ localCodecs), if 5 ∈ localCodecs then [(msbc, rp.hciDataPathId)] else []⟩ := by
  rw [Hal.getCodecCapabilities, Hal.cached_initial]
  by_cases transparent : rp.transparentWbsSupported = 0 <;>
    by_cases offloaded : (5 : UInt8) ∈ localCodecs <;>
    simp [Hal.cacheCodecCapabilities, Hal.initial, transparent, offloaded, cvsd, msbc,
      msbcTransparent]

/-- The packet size of the alternate setting that `btusb` prefers. -/
def altPacketSize (findAltsetting : Nat → Bool) : Nat :=
  if findAltsetting 6 then 60 else if findAltsetting 3 then 72 else 24

theorem probedWbsPktLen_cases (findAltsetting : Nat → Bool) :
    (probedWbsPktLen findAltsetting).toNat = altPacketSize findAltsetting := by
  unfold probedWbsPktLen altPacketSize
  split
  · rfl
  · split
    · rfl
    · rfl

/-- The negotiation at initialisation, end to end. The kernel accepts the packet of the
HAL and answers it without a trace; the HAL finds the answer behind any packets that are
not it, whatever its buffer held before. It then supports transparent mSBC exactly if
the driver has the quirk, and offloaded mSBC exactly if the controller lists it, which
is also when it is offload capable; each with the packet size of the alternate setting
that `btusb` prefers, the offloaded one over the data path of the driver. -/
theorem capabilities_negotiated (mgmt : Mgmt) (core : HciCore Hash) (t : ι)
    (found : s.findIdx? (fun d => d.listed && d.id == hci) = some dev)
    (inside : s[dev]? = some d) {findAltsetting : Nat → Bool}
    (probed : d.wbsPktLen = probedWbsPktLen findAltsetting) {before : List Waited}
    (rest : List Waited) (unrelated : ∀ waited ∈ before, waited = .notReadable ∨
      ∃ octets, waited = .packet octets ∧ Unrelated hci octets)
    (ev : Memory) (localCodecs : List UInt8) :
    ∃ rp hal,
      mgmt.receive (getCodecCapabilitiesPkt hci) = some (.getScoCodecCapabilities hci) ∧
      (flossGetScoCodecCapabilities t hci 0).run (exec core) s = some ((some rp, 0), s) ∧
      Hal.initial.mgmtGetCodecCapabilities hci (.written 8) ev
        (before ++ .packet (mgmt.mgmtCmdComplete opGetScoCodecCapabilities 0 rp.encode) :: rest)
        localCodecs = some (0, hal) ∧
      hal.isCodingFormatSupported .transpnt = d.widebandSpeech ∧
      hal.isCodingFormatSupported .msbc = decide (5 ∈ localCodecs) ∧
      hal.getWbsSupported = (d.widebandSpeech || decide (5 ∈ localCodecs)) ∧
      hal.getSwbSupported = d.widebandSpeech ∧
      hal.getPacketSize msbcTransparent =
        (if d.widebandSpeech then altPacketSize findAltsetting else 0) ∧
      hal.getPacketSize msbc = (if 5 ∈ localCodecs then altPacketSize findAltsetting else 0) ∧
      hal.getCodecCapabilities msbc = ⟨decide (5 ∈ localCodecs),
        if 5 ∈ localCodecs then [(msbc, d.dataPathId.getD 0)] else []⟩ := by
  have id : d.id = hci := by
    obtain ⟨bound, matches_, -⟩ := List.findIdx?_eq_some_iff_getElem.mp found
    obtain ⟨_, rfl⟩ := List.getElem?_eq_some_iff.mp inside
    simp only [Bool.and_eq_true, beq_iff_eq] at matches_
    exact matches_.2
  have answered : Hal.initial.mgmtGetCodecCapabilities hci (.written 8) ev
      (before ++ .packet (mgmt.mgmtCmdComplete opGetScoCodecCapabilities 0
        d.capabilities.encode) :: rest) localCodecs =
      some (0, Hal.initial.cacheCodecCapabilities d.capabilities localCodecs) := by
    simp only [Hal.mgmtGetCodecCapabilities, Sent.result]
    rw [awaitCapabilities_answered mgmt _ id unrelated]
    rfl
  have quirk : decide (d.capabilities.transparentWbsSupported ≠ 0) = d.widebandSpeech := by
    cases quirk : d.widebandSpeech <;> simp [HciDev.capabilities, quirk]
  have size : d.capabilities.wbsPktLen.toNat = altPacketSize findAltsetting :=
    (congrArg UInt32.toNat probed).trans (probedWbsPktLen_cases findAltsetting)
  obtain ⟨transpnt, offloaded⟩ := Hal.supported_cached d.capabilities localCodecs
  obtain ⟨transpntSize, offloadedSize⟩ := Hal.getPacketSize_cached d.capabilities localCodecs
  rw [quirk] at transpnt
  rw [size] at transpntSize offloadedSize
  refine ⟨d.capabilities, Hal.initial.cacheCodecCapabilities d.capabilities localCodecs,
    Mgmt.receive_getCodecCapabilitiesPkt, run_getScoCodecCapabilities t 0 found inside, answered,
    transpnt, offloaded, ?_, transpnt, ?_, offloadedSize,
    Hal.getCodecCapabilities_cached d.capabilities localCodecs⟩
  · rw [Hal.getWbsSupported, transpnt, offloaded]
  · rw [transpntSize, ← quirk]
    simp

end Kernel

/-- A packet whose header has the length of its data and no controller. -/
def unframe (packet : List UInt8) : Option (UInt16 × List UInt8) :=
  if 6 ≤ packet.length ∧ leValue ((packet.drop 4).take 2) = packet.length - 6 ∧
      leValue ((packet.drop 2).take 2) = hciDevNone.toNat then
    some (UInt16.ofNat (leValue (packet.take 2)), packet.drop 6)
  else none

theorem unframe_mgmtPkt (opcode : UInt16) (data : List UInt8) (short : data.length < 256 ^ 2) :
    unframe (mgmtPkt opcode hciDevNone data) = some (opcode, data) := by
  have length : (mgmtPkt opcode hciDevNone data).length = 6 + data.length := by
    simp [mgmtPkt]
    omega
  have first : (mgmtPkt opcode hciDevNone data).take 2 = leBytes 2 opcode.toNat := by
    simp [mgmtPkt]
  have second : ((mgmtPkt opcode hciDevNone data).drop 2).take 2 =
      leBytes 2 hciDevNone.toNat := by
    simp [mgmtPkt]
  have third : ((mgmtPkt opcode hciDevNone data).drop 4).take 2 = leBytes 2 data.length := by
    simp [mgmtPkt, leBytes]
  have rest : (mgmtPkt opcode hciDevNone data).drop 6 = data := by
    simp [mgmtPkt, leBytes]
  rw [unframe, length, first, second, third, rest, ofNat_leValue_leBytes, leValue_leBytes,
    leValue_leBytes, if_pos]
  refine ⟨Nat.le_add_right _ _, ?_, rfl⟩
  rw [Nat.mod_eq_of_lt short, Nat.add_sub_cancel_left]

def sampleMgmt : Mgmt where
  hciMgmtCmd := unframe
  mgmtCmdComplete opcode status payload :=
    mgmtPkt evCommandComplete hciDevNone (leBytes 2 opcode.toNat ++ [status] ++ payload)
  hciMgmtCmd_mgmtPkt := unframe_mgmtPkt
  mgmtCmdComplete_eq _ _ _ _ := rfl

/-- The packet size of alternate setting 6, read behind an event of another kind. -/
theorem capabilities_negotiated_alt6 :
    ∃ (rp : CodecCapabilities) (hal : Hal),
      Hal.initial.mgmtGetCodecCapabilities 0 (.written 8) (fun _ => 0)
        ([.packet (mgmtPkt 4 0 [])] ++
          .packet (sampleMgmt.mgmtCmdComplete opGetScoCodecCapabilities 0 rp.encode) :: []) [5] =
        some (0, hal) ∧
      hal.getPacketSize msbcTransparent = 60 ∧ hal.isCodingFormatSupported .msbc = true ∧
      hal.getCodecCapabilities msbc = ⟨true, [(msbc, 0)]⟩ := by
  have found : [sampleDev].findIdx? (fun d => d.listed && d.id == 0) = some 0 := rfl
  have probed : sampleDev.wbsPktLen = probedWbsPktLen fun alt => alt == 6 := rfl
  have other : Unrelated 0 (mgmtPkt 4 0 []) := by
    constructor
    · simp [mgmtPkt, mgmtPktSize]
    · left
      simp [mgmtPkt, leBytes, leValue, evCommandComplete]
  have unrelated : ∀ waited ∈ [Waited.packet (mgmtPkt 4 0 [])], waited = .notReadable ∨
      ∃ octets, waited = .packet octets ∧ Unrelated 0 octets := by
    intro waited mem
    exact .inr ⟨_, List.mem_singleton.mp mem, other⟩
  have at_ : [sampleDev][0]? = some sampleDev := rfl
  obtain ⟨rp, hal, -, -, cached, -, offloaded, -, -, size, -, listed⟩ :=
    capabilities_negotiated sampleMgmt sampleCore () found at_ probed [] unrelated (fun _ => 0) [5]
  exact ⟨rp, hal, cached, size, offloaded, listed⟩

end Dorsche.Floss.HfpHal
