import Dorsche.Lib.Interleave

/-!
SCO transmission in `btusb.c` with the patch
`kernel/patches/0001-bluetooth-btusb-serialize-sco-tx-altsetting.patch`.

Any number of kernel threads send SCO frames, switch the alternate setting of
the isochronous interface, flush and stop traffic. Each body is a program of
single calls, with `isoc_tx_mutex` as a lock that blocks. URBs complete between
any two calls. What the unpatched kernel returns from `alloc_isoc_urb`,
`usb_submit_urb`, `usb_set_interface` and the endpoint lookup is a parameter of
the body.

Assumed of the kernel: `usb_kill_anchored_urbs` leaves no anchored URB in
flight, a failed `usb_submit_urb` leaves the URB not in flight, a failed
`usb_set_interface` leaves the setting as it was, and code outside the bodies
may clear `BTUSB_ISOC_RUNNING` while none of them is under way but does not set
it. Receive URBs have an anchor of their own and are left out.
-/

namespace Dorsche.Kernel.Btusb

open Dorsche.Lib

/-- A SCO TX URB, with the setting it was constructed under: its number, and
which selection of a setting it was. -/
structure Urb where
  altsetting : Nat
  selection : Nat
  anchored : Bool
  inFlight : Bool
deriving DecidableEq, Repr

/-- The isochronous part of `struct btusb_data`, the setting that the USB core has
selected, and every URB built so far. -/
structure BtusbData (ι : Type) where
  isocTxMutex : Option ι
  running : Bool
  isocAltsetting : Nat
  endpoints : Bool
  selected : Nat
  selections : Nat
  urbs : List Urb
  /-- From the end of a switch to setting 0 until the next switch. -/
  parked : Bool

/-- `btusb_probe`. -/
def BtusbData.probed {ι : Type} : BtusbData ι where
  isocTxMutex := none
  running := false
  isocAltsetting := 0
  endpoints := false
  selected := 0
  selections := 0
  urbs := []
  parked := false

inductive Anchor where
  | isocAnchor
  | isocTxAnchor
deriving DecidableEq, Repr

/-- `-ENODEV`. -/
def eNODEV : Int := -19

/-! ### Calls -/

/-- One call of a body. An `Int` argument is what the kernel is going to return;
a URB is named by its position. -/
inductive Action (ι : Type) where
  | mutexLock (t : ι)
  | mutexUnlock (t : ι)
  | testRunning
  | clearRunning
  | testAndSetRunning
  /-- Code outside the bodies clears `BTUSB_ISOC_RUNNING`. -/
  | clearRunningOutside
  | readAltsetting
  | allocIsocUrb (result : Int)
  | anchorUrb (urb : Nat)
  | unanchorUrb (urb : Nat)
  | submitUrb (urb : Nat) (result : Int)
  | killAnchoredUrbs (anchor : Anchor)
  | setInterface (altsetting : Nat) (result : Int)
  /-- Record the setting and look its endpoints up. -/
  | findEndpoints (altsetting : Nat) (found : Bool)
  /-- A receive URB. -/
  | submitIsocUrb (result : Int)
  /-- No call: a switch begins, or ends. -/
  | park (parked : Bool)

abbrev Action.Reply {ι : Type} : Action ι → Type
  | .testRunning | .testAndSetRunning => Bool
  | .readAltsetting => Nat
  | .allocIsocUrb _ => Except Int Nat
  | .submitUrb .. | .setInterface .. | .submitIsocUrb _ => Int
  | _ => Unit

abbrev Routine (ι α : Type) := Prog (Action ι) Action.Reply α

section Exec

variable {ι : Type}

/-- What `usb_kill_anchored_urbs` does to a URB. -/
def Urb.kill (urb : Urb) : Urb :=
  if urb.anchored then { urb with anchored := false, inFlight := false } else urb

/-- What its completion does to a URB: the core takes it off its anchor. -/
def Urb.complete (urb : Urb) : Urb := { urb with anchored := false, inFlight := false }

def exec : (i : Action ι) → BtusbData ι → Option (i.Reply × BtusbData ι)
  | .mutexLock t, d =>
      match d.isocTxMutex with
      | none => some ((), { d with isocTxMutex := some t })
      | some _ => none
  | .mutexUnlock _, d => some ((), { d with isocTxMutex := none })
  | .testRunning, d => some (d.running, d)
  | .clearRunning, d => some ((), { d with running := false })
  | .testAndSetRunning, d => some (d.running, { d with running := true })
  | .clearRunningOutside, d =>
      match d.isocTxMutex with
      | none => some ((), { d with running := false })
      | some _ => none
  | .readAltsetting, d => some (d.isocAltsetting, d)
  | .allocIsocUrb result, d =>
      if result < 0 then some (.error result, d)
      else some (.ok d.urbs.length,
        { d with urbs := d.urbs ++ [⟨d.selected, d.selections, false, false⟩] })
  | .anchorUrb i, d =>
      some ((), { d with urbs := d.urbs.modify i fun urb => { urb with anchored := true } })
  | .unanchorUrb i, d =>
      some ((), { d with urbs := d.urbs.modify i fun urb => { urb with anchored := false } })
  | .submitUrb i result, d =>
      if result < 0 then some (result, d)
      else some (result,
        { d with urbs := d.urbs.modify i fun urb => { urb with inFlight := true } })
  | .killAnchoredUrbs .isocAnchor, d => some ((), d)
  | .killAnchoredUrbs .isocTxAnchor, d => some ((), { d with urbs := d.urbs.map Urb.kill })
  | .setInterface altsetting result, d =>
      if result < 0 then some (result, d)
      else some (result, { d with selected := altsetting, selections := d.selections + 1 })
  | .findEndpoints altsetting found, d =>
      some ((), { d with isocAltsetting := altsetting, endpoints := found })
  | .submitIsocUrb result, d => some (result, d)
  | .park parked, d => some ((), { d with parked })

/-- A URB in flight completes. -/
inductive Completes : BtusbData ι → BtusbData ι → Prop where
  | urb {d : BtusbData ι} {i : Nat} {urb : Urb} : d.urbs[i]? = some urb →
      urb.inFlight = true → Completes d { d with urbs := d.urbs.modify i Urb.complete }

/-! ### Bodies -/

def call (i : Action ι) : Routine ι i.Reply := Prog.perform i

/-- The body of `submit_isoc_tx_urb` under the mutex. -/
def submitLocked (alloc submit : Int) : Routine ι Int := do
  if ← call .testRunning then
    match ← call (.allocIsocUrb alloc) with
    | .error err => return err
    | .ok urb =>
        call (.anchorUrb urb)
        let err ← call (.submitUrb urb submit)
        if err < 0 then
          call (.unanchorUrb urb)
          return err
        else return err
  else return eNODEV

def submitIsocTxUrb (t : ι) (alloc submit : Int) : Routine ι Int := do
  call (.mutexLock t)
  let err ← submitLocked alloc submit
  call (.mutexUnlock t)
  return err

/-- The SCO branch of `btusb_send_frame`; `links` is `hci_conn_num(hdev, SCO_LINK)`. -/
def sendFrame (t : ι) (links : Nat) (alloc submit : Int) : Routine ι Int :=
  if links < 1 then return eNODEV else submitIsocTxUrb t alloc submit

def setIsocInterface (altsetting : Nat) (result : Int) (found : Bool) : Routine ι Int := do
  let err ← call (.setInterface altsetting result)
  if err < 0 then return err
  else
    call (.findEndpoints altsetting found)
    -- Alternate setting zero intentionally has no isochronous endpoints.
    if altsetting = 0 then return 0
    else if found then return 0
    else return eNODEV

/-- The part of `btusb_switch_alt_setting` after the setting is right. -/
def startIsoc (newAlts : Nat) (rx : Int) : Routine ι Int := do
  if newAlts = 0 then
    call .clearRunning
    call (.killAnchoredUrbs .isocAnchor)
    call (.killAnchoredUrbs .isocTxAnchor)
    return 0
  else if ← call .testAndSetRunning then return 0
  else
    let err ← call (.submitIsocUrb rx)
    if err < 0 then
      call .clearRunning
      return 0
    else
      let _ ← call (.submitIsocUrb rx)
      return 0

/-- The body of `btusb_switch_alt_setting` under the mutex. -/
def switchLocked (newAlts : Nat) (result : Int) (found : Bool) (rx : Int) : Routine ι Int := do
  let current ← call .readAltsetting
  if current = newAlts then startIsoc newAlts rx
  else
    call .clearRunning
    call (.killAnchoredUrbs .isocAnchor)
    call (.killAnchoredUrbs .isocTxAnchor)
    let err ← setIsocInterface newAlts result found
    if err < 0 then return err else startIsoc newAlts rx

def switchAltSetting (t : ι) (newAlts : Nat) (result : Int) (found : Bool) (rx : Int) :
    Routine ι Int := do
  call (.mutexLock t)
  call (.park false)
  let err ← switchLocked newAlts result found rx
  call (.park (newAlts == 0))
  call (.mutexUnlock t)
  return err

/-- What `btusb_flush` and `btusb_stop_traffic` do to the SCO TX anchor. -/
def killIsocTx (t : ι) : Routine ι Unit := do
  call (.mutexLock t)
  call (.killAnchoredUrbs .isocTxAnchor)
  call (.mutexUnlock t)

def stopTraffic (t : ι) : Routine ι Unit := do
  call (.killAnchoredUrbs .isocAnchor)
  killIsocTx t

def flush (t : ι) : Routine ι Unit := killIsocTx t

/-- What a kernel thread may do next. `btusb_work` is a switch. -/
inductive Menu (t : ι) : Unit → Routine ι Unit → Prop where
  | sendFrame (links alloc submit) :
      Menu t () (do let _ ← sendFrame t links alloc submit)
  | switchAltSetting (newAlts result found rx) :
      Menu t () (do let _ ← switchAltSetting t newAlts result found rx)
  | stopTraffic : Menu t () (stopTraffic t)
  | flush : Menu t () (flush t)
  | clearRunningOutside : Menu t () (call .clearRunningOutside)

/-- Threads and URBs after `btusb_probe`. -/
def Reaches [DecidableEq ι] (c : Many (Action ι) Action.Reply ι Unit (BtusbData ι)) : Prop :=
  Relation.ReflTransGen (ManyStep exec Menu Completes) ⟨fun _ => .ret (), .probed⟩ c

end Exec

end Dorsche.Kernel.Btusb
