import Mathlib.Data.Finset.Card
import Dorsche.Lib.Bytes
import Dorsche.Lib.Interleave

/-!
Userspace SCO coordination
(`kernel/patches/0002-bluetooth-add-floss-userspace-sco.patch`).

Floss owns the controller, so the kernel does not see its SCO links. Two management
commands tell it of them: one asks for the codec capabilities of the driver, the
other reports that a link has come or gone, for which the kernel keeps a shadow
connection and notifies the driver.

The handlers run on any number of threads, each as a program of single calls into
the HCI core, with `hci_dev_lock` as a lock that blocks. The patch has the calls and
not the functions, so what is assumed of the rest of the kernel is stated here:

* `hci_dev_get` finds a controller in `hci_dev_list` and takes a reference to it,
  `hci_dev_put` puts one, and a controller is freed with its last reference;
* `HciCore`: what `hci_conn_hash_lookup_ba`, `hci_conn_add_unset` and `hci_conn_del`
  do to the SCO connections of a controller and to its references. What they tell the
  driver on their own is left open;
* `HciDev.Rest`: what everything else does to a controller between two calls, among it
  `hci_unregister_dev` and the closing of the controller.

What `hci_conn_add_unset` and `mgmt_cmd_complete` return is a parameter of the handler.
-/

namespace Dorsche.Kernel.Sco

open Dorsche.Lib

/-- `bdaddr_t`. -/
abbrev BdAddr := { octets : List UInt8 // octets.length = 6 }

/-- What the driver is told: `HCI_NOTIFY_*`. -/
inductive Notify where
  | enableScoCvsd
  | enableScoTransp
  | disableSco
deriving DecidableEq, Repr

/-- `MGMT_SCO_CODEC_CVSD`. -/
def codecCvsd : UInt8 := 0x1

/-- `MGMT_SCO_CODEC_MSBC_TRANSPARENT`. -/
def codecMsbcTransparent : UInt8 := 0x2

/-- `MGMT_SCO_CODEC_MSBC`. -/
def codecMsbc : UInt8 := 0x3

/-! ### Packets -/

/-- `MGMT_OP_GET_SCO_CODEC_CAPABILITIES`. -/
def opGetScoCodecCapabilities : UInt16 := 0x0100

/-- `MGMT_OP_NOTIFY_SCO_CONNECTION_CHANGE`. -/
def opNotifyScoConnectionChange : UInt16 := 0x0101

/-- `struct mgmt_cp_notify_sco_connection_change`. -/
structure ConnectionChange where
  hciId : UInt16
  addr : BdAddr
  addrType : UInt8
  connected : UInt8
  codec : UInt8
deriving DecidableEq, Repr

/-- `struct mgmt_rp_get_codec_capabilities`. -/
structure CodecCapabilities where
  hciId : UInt16
  transparentWbsSupported : UInt8
  hciDataPathId : UInt8
  wbsPktLen : UInt32
deriving DecidableEq, Repr

/-- A handler of `mgmt_handlers`, with the parameters it reads from its packet. -/
inductive Request where
  | getScoCodecCapabilities (hciId : UInt16)
  | notifyScoConnectionChange (change : ConnectionChange)
deriving DecidableEq, Repr

/-- `MGMT_GET_SCO_CODEC_CAPABILITIES_SIZE`. -/
def getScoCodecCapabilitiesSize : Nat := 2

/-- `MGMT_NOTIFY_SCO_CONNECTION_CHANGE_SIZE`. -/
def notifyScoConnectionChangeSize : Nat := 11

/-- A command of the table: neither entry has a variable length, so the data has the
size of its structure. -/
def Request.decode (opcode : UInt16) (data : List UInt8) : Option Request :=
  if opcode = opGetScoCodecCapabilities then
    if data.length = getScoCodecCapabilitiesSize then
      some (.getScoCodecCapabilities (UInt16.ofNat (leValue data)))
    else none
  else if opcode = opNotifyScoConnectionChange then
    if size : data.length = notifyScoConnectionChangeSize then
      some (.notifyScoConnectionChange {
        hciId := UInt16.ofNat (leValue (data.take 2))
        addr := ⟨(data.drop 2).take 6, by simp [size, notifyScoConnectionChangeSize]⟩
        addrType := data.getD 8 0
        connected := data.getD 9 0
        codec := data.getD 10 0 })
    else none
  else none

/-- The reply as it stands in the packet. -/
def CodecCapabilities.encode (rp : CodecCapabilities) : List UInt8 :=
  leBytes 2 rp.hciId.toNat ++ [rp.transparentWbsSupported, rp.hciDataPathId] ++
    leBytes 4 rp.wbsPktLen.toNat

/-! ### Controllers -/

/-- The functions of the HCI core that the handlers call for connections, and what is
assumed of them. `Hash` is what the core keeps of the connections of a controller. -/
structure HciCore (Hash : Type) where
  /-- `hci_conn_hash_lookup_ba` of a `SCO_LINK`. -/
  lookupBa : Hash → BdAddr → Bool
  /-- `hci_conn_add_unset` that returns the number, which is an error if it is negative:
  the connections it leaves, and how many references to the controller it takes. -/
  addUnset : Hash → BdAddr → Int → Hash × Nat
  /-- `hci_conn_del` of the connection that was looked up: the connections it leaves, and
  how many references to the controller it puts. -/
  del : Hash → BdAddr → Hash × Nat
  /-- The addresses that have a SCO connection. -/
  links : Hash → Finset BdAddr
  /-- The references to the controller that its connections hold. -/
  held : Hash → Nat
  lookupBa_eq : ∀ hash addr, lookupBa hash addr = decide (addr ∈ links hash)
  links_refused : ∀ hash addr result, result < 0 →
    links (addUnset hash addr result).1 = links hash
  links_added : ∀ hash addr result, 0 ≤ result → addr ∉ links hash →
    links (addUnset hash addr result).1 = insert addr (links hash)
  links_del : ∀ hash addr, addr ∈ links hash →
    links (del hash addr).1 = (links hash).erase addr
  held_addUnset : ∀ hash addr result, addr ∉ links hash →
    held (addUnset hash addr result).1 = held hash + (addUnset hash addr result).2
  held_del : ∀ hash addr, addr ∈ links hash →
    held hash = held (del hash addr).1 + (del hash addr).2

/-- A handled report, with what `hci_conn_add_unset` returns for it. -/
structure Change where
  addr : BdAddr
  connected : Bool
  codec : UInt8
  added : Int
deriving DecidableEq, Repr

/-- What has happened to the connections of a controller. -/
inductive Entry where
  | report (change : Change)
  /-- The rest of the kernel has dropped connections. -/
  | dropped (gone : Finset BdAddr)
deriving DecidableEq

/-- `struct hci_dev` as the handlers use it. `holders` are the threads that have got
it and not put it, `others` counts the references of the rest of the kernel, and
`history` is what happened to the connections, in the order of the locks. -/
structure HciDev (Hash ι : Type) where
  id : UInt16
  /-- It is in `hci_dev_list`. -/
  listed : Bool
  references : Nat
  lock : Option ι
  /-- The driver has a `notify`. -/
  notify : Bool
  /-- `HCI_QUIRK_WIDEBAND_SPEECH_SUPPORTED`. -/
  widebandSpeech : Bool
  /-- What `get_data_path_id` stores, if the driver has one. -/
  dataPathId : Option UInt8
  wbsPktLen : UInt32
  hash : Hash
  /-- What the handlers have told the driver. -/
  notified : List Notify
  holders : List ι
  others : Nat
  history : List Entry

/-- `hci_packet_size_usb_alt`. -/
def hciPacketSizeUsbAlt : List UInt32 := [0, 24, 48, 72, 96, 144, 60]

/-- `wbs_pkt_len` after `btusb_probe`, from what `btusb_find_altsetting` finds. -/
def probedWbsPktLen (findAltsetting : Nat → Bool) : UInt32 :=
  hciPacketSizeUsbAlt.getD
    (if findAltsetting 6 then 6 else if findAltsetting 3 then 3 else 1) 0

/-! ### Calls -/

inductive Action (ι : Type) where
  | hciDevGet (t : ι) (id : UInt16)
  | hciDevPut (t : ι) (dev : Nat)
  | hasNotify (dev : Nat)
  | hciDevLock (t : ι) (dev : Nat)
  /-- Unlock; the report has been handled. -/
  | hciDevUnlock (t : ι) (dev : Nat) (change : Change)
  | hciConnHashLookupBa (dev : Nat) (addr : BdAddr)
  | hciConnAddUnset (dev : Nat) (addr : BdAddr) (result : Int)
  | hciConnDel (dev : Nat) (addr : BdAddr)
  | notify (dev : Nat) (event : Notify)
  | capabilities (dev : Nat)

abbrev Action.Reply {ι : Type} : Action ι → Type
  | .hciDevGet _ _ => Option Nat
  | .hasNotify _ | .hciConnHashLookupBa _ _ => Bool
  | .hciConnAddUnset _ _ _ => Int
  | .capabilities _ => CodecCapabilities
  | _ => Unit

abbrev Handler (ι α : Type) := Prog (Action ι) Action.Reply α

section Exec

variable {Hash ι : Type}

/-- The fields of the reply. -/
def HciDev.capabilities (d : HciDev Hash ι) : CodecCapabilities where
  hciId := d.id
  transparentWbsSupported := if d.widebandSpeech then 1 else 0
  hciDataPathId := d.dataPathId.getD 0
  wbsPktLen := d.wbsPktLen

/-- A call on a controller that exists. -/
def onDev {α : Type} (s : List (HciDev Hash ι)) (dev : Nat)
    (run : HciDev Hash ι → Option (α × HciDev Hash ι)) : Option (α × List (HciDev Hash ι)) :=
  s[dev]?.bind fun d => (run d).map fun out => (out.1, s.set dev out.2)

def exec [DecidableEq ι] (core : HciCore Hash) : (i : Action ι) → List (HciDev Hash ι) →
    Option (i.Reply × List (HciDev Hash ι))
  | .hciDevGet t id, s =>
      match s.findIdx? fun d => d.listed && d.id == id with
      | none => some (none, s)
      | some dev => onDev s dev fun d =>
          some (some dev, { d with references := d.references + 1, holders := t :: d.holders })
  | .hciDevPut t dev, s => onDev s dev fun d =>
      some ((), { d with references := d.references - 1, holders := d.holders.erase t })
  | .hasNotify dev, s => onDev s dev fun d => some (d.notify, d)
  | .hciDevLock t dev, s => onDev s dev fun d =>
      match d.lock with
      | none => some ((), { d with lock := some t })
      | some _ => none
  | .hciDevUnlock _ dev change, s => onDev s dev fun d =>
      some ((), { d with lock := none, history := d.history ++ [.report change] })
  | .hciConnHashLookupBa dev addr, s => onDev s dev fun d =>
      some (core.lookupBa d.hash addr, d)
  | .hciConnAddUnset dev addr result, s => onDev s dev fun d =>
      some (result, { d with
        hash := (core.addUnset d.hash addr result).1
        references := d.references + (core.addUnset d.hash addr result).2 })
  | .hciConnDel dev addr, s => onDev s dev fun d =>
      some ((), { d with
        hash := (core.del d.hash addr).1
        references := d.references - (core.del d.hash addr).2 })
  | .notify dev event, s => onDev s dev fun d =>
      some ((), { d with notified := d.notified ++ [event] })
  | .capabilities dev, s => onDev s dev fun d => some (d.capabilities, d)

/-! ### The rest of the kernel -/

/-- A controller as `hci_register_dev` enters it into the list. -/
structure HciDev.Fresh (core : HciCore Hash) (d : HciDev Hash ι) : Prop where
  listed : d.listed = true
  others : 0 < d.others
  references : d.references = d.others + core.held d.hash
  lock : d.lock = none
  holders : d.holders = []
  links : core.links d.hash = ∅
  notified : d.notified = []
  history : d.history = []

/-- What everything else may do to a controller between two calls of the handlers: it
puts the references that are its own, but the last only of a controller that has left
the list; it leaves a locked controller's connections alone; and it adds no SCO
connection, as Floss owns the controller, but may drop some (`hci_conn_hash_flush`). -/
structure HciDev.Rest (core : HciCore Hash) (d d' : HciDev Hash ι) : Prop where
  holders : d'.holders = d.holders
  references : d'.references + (d.others + core.held d.hash) =
    d.references + (d'.others + core.held d'.hash)
  listed : d'.listed = true → 0 < d'.others
  lock : d'.lock = d.lock
  notified : d'.notified = d.notified
  conns : d'.hash = d.hash ∧ d'.history = d.history ∨
    d.lock = none ∧ ∃ gone, core.links d'.hash = core.links d.hash \ gone ∧
      d'.history = d.history ++ [.dropped gone]

/-- A controller is registered, with an id that is free, or something else happens to
one. -/
inductive Outside (core : HciCore Hash) :
    List (HciDev Hash ι) → List (HciDev Hash ι) → Prop where
  | register {s : List (HciDev Hash ι)} {d : HciDev Hash ι} : d.Fresh core →
      (∀ other ∈ s, other.listed = true → other.id ≠ d.id) → Outside core s (s ++ [d])
  | rest {s : List (HciDev Hash ι)} {dev : Nat} {d d' : HciDev Hash ι} : s[dev]? = some d →
      d.Rest core d' → Outside core s (s.set dev d')

/-! ### Handlers -/

def call (i : Action ι) : Handler ι i.Reply := Prog.perform i

/-- `-EINVAL`. -/
def eINVAL : Int := -22

/-- The reply and what `mgmt_cmd_complete` returns for it. -/
def flossGetScoCodecCapabilities (t : ι) (hciId : UInt16) (complete : Int) :
    Handler ι (Option CodecCapabilities × Int) := do
  match ← call (.hciDevGet t hciId) with
  | none => return (none, eINVAL)
  | some dev =>
      let rp ← call (.capabilities dev)
      call (.hciDevPut t dev)
      return (some rp, complete)

def enableOf (codec : UInt8) : Notify :=
  if codec = codecMsbcTransparent then .enableScoTransp else .enableScoCvsd

/-- `hci_dev_unlock`, `hci_dev_put` and the return. -/
def leave (t : ι) (dev : Nat) (change : Change) (result : Int) : Handler ι Int := do
  call (.hciDevUnlock t dev change)
  call (.hciDevPut t dev)
  return result

/-- A report as it is handled. -/
def ConnectionChange.change (cp : ConnectionChange) (added : Int) : Change :=
  ⟨cp.addr, cp.connected != 0, cp.codec, added⟩

/-- The body of `floss_notify_sco_connection_change` under the lock. -/
def changeLocked (t : ι) (dev : Nat) (change : Change) : Handler ι Int := do
  let conn ← call (.hciConnHashLookupBa dev change.addr)
  if change.connected && !conn then
    let err ← call (.hciConnAddUnset dev change.addr change.added)
    if err < 0 then leave t dev change err
    else
      call (.notify dev (enableOf change.codec))
      leave t dev change 0
  else if !change.connected && conn then
    call (.hciConnDel dev change.addr)
    call (.notify dev .disableSco)
    leave t dev change 0
  else leave t dev change 0

def flossNotifyScoConnectionChange (t : ι) (cp : ConnectionChange) (added : Int) :
    Handler ι Int := do
  match ← call (.hciDevGet t cp.hciId) with
  | none => return eINVAL
  | some dev =>
      if ← call (.hasNotify dev) then
        call (.hciDevLock t dev)
        changeLocked t dev (cp.change added)
      else
        call (.hciDevPut t dev)
        return 0

/-- What a thread may do next. -/
inductive Menu (t : ι) : Unit → Handler ι Unit → Prop where
  | getScoCodecCapabilities (hciId complete) :
      Menu t () (do let _ ← flossGetScoCodecCapabilities t hciId complete)
  | notifyScoConnectionChange (cp added) :
      Menu t () (do let _ ← flossNotifyScoConnectionChange t cp added)

/-- Threads and controllers, from a kernel without controllers on. -/
def Reaches [DecidableEq ι] (core : HciCore Hash)
    (c : Many (Action ι) Action.Reply ι Unit (List (HciDev Hash ι))) : Prop :=
  Relation.ReflTransGen (ManyStep (exec core) Menu (Outside core)) ⟨fun _ => .ret (), []⟩ c

end Exec

/-! ### One thing after the other -/

/-- What the handlers are for: the links that the kernel knows and what the driver was
told of them. `lost` counts the links that went without a report. -/
structure Shadow where
  links : Finset BdAddr
  notified : List Notify
  lost : Nat
deriving DecidableEq

/-- A report that changes a link: one that came, with room, or one that went. -/
def Change.news (change : Change) (links : Finset BdAddr) : Bool :=
  if change.connected then decide (change.addr ∉ links ∧ 0 ≤ change.added)
  else decide (change.addr ∈ links)

def Change.update (change : Change) (links : Finset BdAddr) : Finset BdAddr :=
  if change.connected then insert change.addr links else links.erase change.addr

/-- What the driver is told of it. -/
def Change.event (change : Change) : Notify :=
  if change.connected then enableOf change.codec else .disableSco

def Shadow.handle (shadow : Shadow) : Entry → Shadow
  | .report change =>
      if change.news shadow.links then
        { shadow with
          links := change.update shadow.links
          notified := shadow.notified ++ [change.event] }
      else shadow
  | .dropped gone =>
      { shadow with
        links := shadow.links \ gone
        lost := shadow.lost + (shadow.links ∩ gone).card }

def Shadow.after (history : List Entry) : Shadow := history.foldl Shadow.handle ⟨∅, [], 0⟩

end Dorsche.Kernel.Sco
