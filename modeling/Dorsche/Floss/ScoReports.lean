import Dorsche.Floss.HfpHal

/-!
Reports of SCO links, from the stack to the driver.

`btm_sco.cc` calls `notify_sco_connection_change` for every link that comes or goes.
Each call opens a management socket of its own and writes one packet; the kernel
updates the shadow connections and tells the driver. The stack is single-threaded
here, so the calls are handled in turn.
-/

namespace Dorsche.Floss.HfpHal

open Dorsche.Lib Dorsche.Kernel.Sco

/-- `MGMT_SCO_CODEC_*` of a codec. -/
def convertedCodec (codec : Nat) : UInt8 :=
  if codec = msbc then codecMsbc
  else if codec = msbcTransparent then codecMsbcTransparent
  else codecCvsd

/-- A call of `notify_sco_connection_change`, and how it goes. -/
structure Report where
  device : BdAddr
  isConnected : Bool
  codec : Nat
  /-- `btsocket_open_mgmt` returns a socket. -/
  opened : Bool
  sent : Sent
  /-- What `hci_conn_add_unset` returns. -/
  added : Int
deriving DecidableEq, Repr

/-- The packet that gets through, and the sockets that stay open: the return for LC3 does
not close the socket. -/
def notifyScoConnectionChange (hci : UInt16) (report : Report) : Option (List UInt8) × Nat :=
  if !report.opened then (none, 0)
  else if report.codec = lc3 then (none, 1)
  else
    match report.sent.result with
    | some _ => (none, 0)
    | none => (some (notifyScoConnectionChangePkt hci report.device report.isConnected
        (convertedCodec report.codec)), 0)

/-- The sockets that Floss has open, and the controllers of the kernel. -/
structure World (Hash ι : Type) where
  sockets : Nat
  devs : List (HciDev Hash ι)

section Reports

variable {Hash ι : Type} [DecidableEq ι]

/-- A call, with the thread of the kernel that handles its packet. -/
def World.report (mgmt : Mgmt) (core : HciCore Hash) (t : ι) (hci : UInt16) (w : World Hash ι)
    (report : Report) : Option (World Hash ι) :=
  let (packet, left) := notifyScoConnectionChange hci report
  match packet.bind mgmt.receive with
  | none => some ⟨w.sockets + left, w.devs⟩
  | some (.getScoCodecCapabilities hciId) =>
      ((flossGetScoCodecCapabilities t hciId 0).run (exec core) w.devs).map fun out =>
        ⟨w.sockets + left, out.2⟩
  | some (.notifyScoConnectionChange cp) =>
      ((flossNotifyScoConnectionChange t cp report.added).run (exec core) w.devs).map fun out =>
        ⟨w.sockets + left, out.2⟩

/-- The calls one after the other. -/
def World.reports (mgmt : Mgmt) (core : HciCore Hash) (t : ι) (hci : UInt16) (w : World Hash ι)
    (reports : List Report) : Option (World Hash ι) :=
  reports.foldlM (World.report mgmt core t hci) w

/-- What the kernel hears of a call. -/
def Report.change (report : Report) : Option Change :=
  if report.opened ∧ report.codec ≠ lc3 ∧ report.sent.result = none then
    some ⟨report.device, report.isConnected, convertedCodec report.codec, report.added⟩
  else none

/-- The call leaves its socket open. -/
def Report.leaks (report : Report) : Bool := report.opened && report.codec == lc3

variable {mgmt : Mgmt} {core : HciCore Hash} {s : List (HciDev Hash ι)} {dev : Nat}
  {d : HciDev Hash ι} {t : ι} {hci : UInt16}

/-! ### The kernel handles a report -/

/-- A controller after a report that nothing else comes between. -/
def hear (core : HciCore Hash) (d : HciDev Hash ι) (change : Change) : HciDev Hash ι :=
  let heard := { d with history := d.history ++ [.report change] }
  if change.connected && !core.lookupBa d.hash change.addr then
    let added := { heard with
      hash := (core.addUnset d.hash change.addr change.added).1
      references := d.references + (core.addUnset d.hash change.addr change.added).2 }
    if change.added < 0 then added
    else { added with notified := d.notified ++ [enableOf change.codec] }
  else if !change.connected && core.lookupBa d.hash change.addr then
    { heard with
      hash := (core.del d.hash change.addr).1
      references := d.references - (core.del d.hash change.addr).2
      notified := d.notified ++ [.disableSco] }
  else heard

/-- Reports are entered in the history, and nothing else of the controller changes but
its connections and what its driver was told. -/
structure Heard (changes : List Change) (d d' : HciDev Hash ι) : Prop where
  history : d'.history = d.history ++ changes.map .report
  id : d'.id = d.id
  listed : d'.listed = d.listed
  lock : d'.lock = d.lock
  notify : d'.notify = d.notify
  holders : d'.holders = d.holders
  others : d'.others = d.others

omit [DecidableEq ι] in
theorem Heard.append {first second : List Change} {d' d'' : HciDev Hash ι}
    (before : Heard first d d') (after : Heard second d' d'') :
    Heard (first ++ second) d d'' where
  history := by rw [after.history, before.history, List.map_append, List.append_assoc]
  id := after.id.trans before.id
  listed := after.listed.trans before.listed
  lock := after.lock.trans before.lock
  notify := after.notify.trans before.notify
  holders := after.holders.trans before.holders
  others := after.others.trans before.others

omit [DecidableEq ι] in
theorem heard_hear (d : HciDev Hash ι) (change : Change) :
    Heard [change] d (hear core d change) := by
  unfold hear
  split
  · split
    · exact ⟨rfl, rfl, rfl, rfl, rfl, rfl, rfl⟩
    · exact ⟨rfl, rfl, rfl, rfl, rfl, rfl, rfl⟩
  · split
    · exact ⟨rfl, rfl, rfl, rfl, rfl, rfl, rfl⟩
    · exact ⟨rfl, rfl, rfl, rfl, rfl, rfl, rfl⟩

omit [DecidableEq ι] in
/-- The books stay right. -/
theorem inv_hear (books : d.Inv core) (free : d.lock = none) (change : Change) :
    (hear core d change).Inv core := by
  have shows := books.shows free
  have references := books.references
  have after : (Shadow.after d.history).handle (.report change) =
      .after (d.history ++ [.report change]) := (Shadow.after_append _ _).symm
  have unchanged (same : change.connected = decide (change.addr ∈ core.links d.hash)) :
      d.guarded.Shows core ((Shadow.after d.history).handle (.report change)) := shows.known same
  by_cases known : change.addr ∈ core.links d.hash
  · have found : core.lookupBa d.hash change.addr = true := by simp [core.lookupBa_eq, known]
    cases connected : change.connected with
    | true =>
        have same := unchanged (by simp [connected, known])
        simp only [hear, connected, found, Bool.not_true, Bool.and_false, Bool.false_and,
          Bool.false_eq_true, if_false]
        exact ⟨references, books.listed, fun _ => after ▸ ⟨same.links, same.notified⟩⟩
    | false =>
        have gone := shows.deleted connected known
        have puts := core.held_del d.hash change.addr known
        simp only [hear, connected, found, Bool.false_and, Bool.not_false, Bool.and_self,
          Bool.false_eq_true, if_false, if_true]
        refine ⟨?_, books.listed, fun _ => after ▸ ⟨gone.links, gone.notified⟩⟩
        simp only
        omega
  · have missing : core.lookupBa d.hash change.addr = false := by simp [core.lookupBa_eq, known]
    cases connected : change.connected with
    | true =>
        have takes := core.held_addUnset d.hash change.addr change.added known
        simp only [hear, connected, missing, Bool.not_false, Bool.and_self, if_true]
        split
        · rename_i fails
          have refused := shows.refused connected fails
          refine ⟨?_, books.listed, fun _ => after ▸ ⟨refused.links, refused.notified⟩⟩
          simp only
          omega
        · rename_i fits
          have added := shows.added connected known (Int.not_lt.mp fits)
          refine ⟨?_, books.listed, fun _ => after ▸ ⟨added.links, added.notified⟩⟩
          simp only
          omega
    | false =>
        have same := unchanged (by simp [connected, known])
        simp only [hear, connected, missing, Bool.false_and, Bool.and_false, Bool.false_eq_true,
          if_false]
        exact ⟨references, books.listed, fun _ => after ▸ ⟨same.links, same.notified⟩⟩

/-- The lock and the reference are given back, whatever the branch. -/
theorem run_changeLocked (core : HciCore Hash) (t : ι) (inside : s[dev]? = some d)
    (change : Change) :
    ∃ result, (changeLocked t dev change).run (exec core) s =
      some (result, s.set dev { hear core d change with
        references := (hear core d change).references - 1
        holders := d.holders.erase t
        lock := none }) := by
  obtain ⟨bound, rfl⟩ := List.getElem?_eq_some_iff.mp inside
  cases connected : change.connected with
  | true =>
      cases known : core.lookupBa s[dev].hash change.addr with
      | true =>
          simp [changeLocked, leave, call, Prog.perform, Prog.run, exec, onDev, bound, connected,
            known, hear]
      | false =>
          by_cases fails : change.added < 0
          · simp [changeLocked, leave, call, Prog.perform, Prog.run, exec, onDev, bound,
              connected, known, fails, hear]
          · simp [changeLocked, leave, call, Prog.perform, Prog.run, exec, onDev, bound,
              connected, known, fails, hear]
  | false =>
      cases known : core.lookupBa s[dev].hash change.addr with
      | true =>
          simp [changeLocked, leave, call, Prog.perform, Prog.run, exec, onDev, bound, connected,
            known, hear]
      | false =>
          simp [changeLocked, leave, call, Prog.perform, Prog.run, exec, onDev, bound, connected,
            known, hear]

/-- The reference and the lock of the handler make no difference to what it does. -/
theorem hear_locked (free : d.lock = none) (change : Change) :
    let locked := { d with
      references := d.references + 1, holders := t :: d.holders, lock := some t }
    { hear core locked change with
      references := (hear core locked change).references - 1
      holders := locked.holders.erase t
      lock := none } = hear core d change := by
  have put (n : Nat) : d.references + 1 - n - 1 = d.references - n := by omega
  have taken (n : Nat) : d.references + 1 + n - 1 = d.references + n := by omega
  cases connected : change.connected with
  | true =>
      cases known : core.lookupBa d.hash change.addr with
      | true => simp [hear, connected, known, free]
      | false =>
          by_cases fails : change.added < 0
          · simp [hear, connected, known, fails, taken, free]
          · simp [hear, connected, known, fails, taken, free]
  | false =>
      cases known : core.lookupBa d.hash change.addr with
      | true => simp [hear, connected, known, put, free]
      | false => simp [hear, connected, known, free]

theorem run_notifyScoConnectionChange (core : HciCore Hash) (t : ι) (cp : ConnectionChange)
    (added : Int)
    (found : s.findIdx? (fun d => d.listed && d.id == cp.hciId) = some dev)
    (inside : s[dev]? = some d) (notify : d.notify = true) (free : d.lock = none) :
    ∃ result, (flossNotifyScoConnectionChange t cp added).run (exec core) s =
      some (result, s.set dev (hear core d (cp.change added))) := by
  obtain ⟨bound, rfl⟩ := List.getElem?_eq_some_iff.mp inside
  let locked : HciDev Hash ι := { s[dev] with
    references := s[dev].references + 1, holders := t :: s[dev].holders, lock := some t }
  have entered : (flossNotifyScoConnectionChange t cp added).run (exec core) s =
      (changeLocked t dev (cp.change added)).run (exec core) (s.set dev locked) := by
    simp [flossNotifyScoConnectionChange, call, Prog.perform, Prog.run, exec, found, onDev, bound,
      notify, free, locked]
  have at_ : (s.set dev locked)[dev]? = some locked := List.getElem?_set_self bound
  obtain ⟨result, ran⟩ := run_changeLocked core t at_ (cp.change added)
  refine ⟨result, entered.trans (ran.trans ?_)⟩
  rw [List.set_set, hear_locked free]

/-! ### Calls -/

omit [DecidableEq ι] in
/-- A controller is found as before if its registration is as before. -/
theorem findIdx?_set {p : HciDev Hash ι → Bool} {d' : HciDev Hash ι}
    (found : s.findIdx? p = some dev) (inside : s[dev]? = some d) (same : p d' = p d) :
    (s.set dev d').findIdx? p = some dev := by
  obtain ⟨bound, holds, earlier⟩ := List.findIdx?_eq_some_iff_getElem.mp found
  obtain ⟨_, rfl⟩ := List.getElem?_eq_some_iff.mp inside
  refine List.findIdx?_eq_some_iff_getElem.mpr ⟨by simpa using bound, ?_, ?_⟩
  · rw [List.getElem_set_self, same]
    exact holds
  · intro j before
    rw [List.getElem_set_ne (Nat.ne_of_gt before)]
    exact earlier j before

/-- What a run of calls leaves. -/
structure Reported (core : HciCore Hash) (dev : Nat) (d : HciDev Hash ι) (reports : List Report)
    (w w' : World Hash ι) (d' : HciDev Hash ι) : Prop where
  devs : w'.devs = w.devs.set dev d'
  heard : Heard (reports.filterMap Report.change) d d'
  books : d'.Inv core
  sockets : w'.sockets = w.sockets + reports.countP Report.leaks

/-- One call. -/
theorem World.report_eq (mgmt : Mgmt) (t : ι) {w : World Hash ι} (report : Report)
    (found : w.devs.findIdx? (fun d => d.listed && d.id == hci) = some dev)
    (inside : w.devs[dev]? = some d) (notify : d.notify = true) (free : d.lock = none)
    (books : d.Inv core) :
    ∃ w' d', w.report mgmt core t hci report = some w' ∧
      Reported core dev d [report] w w' d' := by
  have unheard : w.devs.set dev d = w.devs := by
    obtain ⟨bound, rfl⟩ := List.getElem?_eq_some_iff.mp inside
    exact List.set_getElem_self bound
  have still : Heard [] d d := ⟨by simp, rfl, rfl, rfl, rfl, rfl, rfl⟩
  by_cases opened : report.opened = true
  · by_cases offloaded : report.codec = lc3
    · refine ⟨⟨w.sockets + 1, w.devs⟩, d, ?_, unheard.symm, ?_, books, ?_⟩
      · simp [World.report, notifyScoConnectionChange, opened, offloaded]
      · simpa [Report.change, opened, offloaded] using still
      · simp [Report.leaks, opened, offloaded]
    · cases sent : report.sent.result with
      | some ret =>
          refine ⟨⟨w.sockets, w.devs⟩, d, ?_, unheard.symm, ?_, books, ?_⟩
          · simp [World.report, notifyScoConnectionChange, opened, offloaded, sent]
          · simpa [Report.change, opened, offloaded, sent] using still
          · simp [Report.leaks, offloaded]
      | none =>
          let cp : ConnectionChange := ⟨hci, report.device, 0,
            if report.isConnected then 1 else 0, convertedCodec report.codec⟩
          obtain ⟨result, ran⟩ := run_notifyScoConnectionChange core t cp report.added found
            inside notify free
          have change : report.change = some (cp.change report.added) := by
            cases connected : report.isConnected <;>
              simp [Report.change, opened, offloaded, sent, cp, ConnectionChange.change, connected]
          refine ⟨⟨w.sockets, w.devs.set dev (hear core d (cp.change report.added))⟩, _, ?_, rfl,
            ?_, inv_hear books free _, ?_⟩
          · simp [World.report, notifyScoConnectionChange, opened, offloaded, sent,
              Mgmt.receive_notifyScoConnectionChangePkt]
            exact ⟨result, ran⟩
          · simpa [change] using heard_hear d (cp.change report.added)
          · simp [Report.leaks, offloaded]
  · refine ⟨⟨w.sockets, w.devs⟩, d, ?_, unheard.symm, ?_, books, ?_⟩
    · simp [World.report, notifyScoConnectionChange, opened]
    · simpa [Report.change, opened] using still
    · simp [Report.leaks, opened]

/-- Any calls. -/
theorem World.reports_eq (mgmt : Mgmt) (t : ι) {w : World Hash ι} (reports : List Report)
    (found : w.devs.findIdx? (fun d => d.listed && d.id == hci) = some dev)
    (inside : w.devs[dev]? = some d) (notify : d.notify = true) (free : d.lock = none)
    (books : d.Inv core) :
    ∃ w' d', w.reports mgmt core t hci reports = some w' ∧
      Reported core dev d reports w w' d' := by
  induction reports generalizing w d with
  | nil =>
      obtain ⟨bound, rfl⟩ := List.getElem?_eq_some_iff.mp inside
      exact ⟨w, w.devs[dev], rfl, (List.set_getElem_self bound).symm,
        ⟨by simp, rfl, rfl, rfl, rfl, rfl, rfl⟩, books, rfl⟩
  | cons report rest ih =>
      have bound := (List.getElem?_eq_some_iff.mp inside).1
      obtain ⟨w₁, d₁, first, one⟩ :=
        World.report_eq mgmt t report found inside notify free books
      have at_ : w₁.devs[dev]? = some d₁ := by
        rw [one.devs]
        exact List.getElem?_set_self bound
      have still : w₁.devs.findIdx? (fun d => d.listed && d.id == hci) = some dev := by
        rw [one.devs]
        exact findIdx?_set found inside (by rw [one.heard.listed, one.heard.id])
      obtain ⟨w', d', later, all⟩ := ih still at_ (one.heard.notify.trans notify)
        (one.heard.lock.trans free) one.books
      have changes : (report :: rest).filterMap Report.change =
          [report].filterMap Report.change ++ rest.filterMap Report.change := by
        rw [← List.filterMap_append]
        rfl
      refine ⟨w', d', ?_, ?_, ?_, all.books, ?_⟩
      · rw [World.reports, List.foldlM_cons, first]
        exact later
      · rw [all.devs, one.devs, List.set_set]
      · rw [changes]
        exact one.heard.append all.heard
      · have leaks : (report :: rest).countP Report.leaks =
            [report].countP Report.leaks + rest.countP Report.leaks := by
          rw [← List.countP_append]
          rfl
        rw [all.sockets, one.sockets, leaks]
        omega

/-! ### Links -/

/-- Whether an address has a link after the changes. -/
def linked (addr : BdAddr) (was : Bool) (changes : List Change) : Bool :=
  changes.foldl (fun on change =>
    if change.addr = addr then change.connected && (on || decide (0 ≤ change.added)) else on) was

/-- What the driver is told of a link, in the words of the HAL. -/
def Report.announcement (report : Report) : Notify :=
  if report.isConnected then
    if report.codec = msbcTransparent then .enableScoTransp else .enableScoCvsd
  else .disableSco

/-- The reports that get through and change a link. -/
def news (links : Finset BdAddr) : List Report → List Report
  | [] => []
  | report :: rest =>
      match report.change with
      | none => news links rest
      | some change =>
          if change.news links then report :: news (change.update links) rest
          else news links rest

theorem mem_handle (shadow : Shadow) (change : Change) (addr : BdAddr) :
    decide (addr ∈ (shadow.handle (.report change)).links) =
      linked addr (decide (addr ∈ shadow.links)) [change] := by
  by_cases same : change.addr = addr
  · subst same
    cases connected : change.connected with
    | true =>
        by_cases mem : change.addr ∈ shadow.links
        · simp [Shadow.handle, Change.news, linked, connected, mem]
        · by_cases room : 0 ≤ change.added
          · simp [Shadow.handle, Change.news, Change.update, linked, connected, mem, room]
          · simp [Shadow.handle, Change.news, linked, connected, mem, room]
    | false =>
        by_cases mem : change.addr ∈ shadow.links
        · simp [Shadow.handle, Change.news, Change.update, linked, connected, mem]
        · simp [Shadow.handle, Change.news, linked, connected, mem]
  · have other : addr ≠ change.addr := Ne.symm same
    have here : linked addr (decide (addr ∈ shadow.links)) [change] =
        decide (addr ∈ shadow.links) := by
      simp [linked, same]
    rw [here, decide_eq_decide, Shadow.handle]
    split
    · cases connected : change.connected with
      | true => simp [Change.update, connected, other]
      | false => simp [Change.update, connected, other]
    · exact Iff.rfl

/-- The links are those of the reports. -/
theorem mem_foldl_handle (shadow : Shadow) (changes : List Change) (addr : BdAddr) :
    decide (addr ∈ ((changes.map .report).foldl Shadow.handle shadow).links) =
      linked addr (decide (addr ∈ shadow.links)) changes := by
  induction changes generalizing shadow with
  | nil => rfl
  | cons change rest ih =>
      exact (ih _).trans (congrArg (linked addr · rest) (mem_handle shadow change addr))

theorem enableOf_convertedCodec (codec : Nat) :
    enableOf (convertedCodec codec) =
      if codec = msbcTransparent then .enableScoTransp else .enableScoCvsd := by
  by_cases offloaded : codec = msbc
  · simp [convertedCodec, enableOf, offloaded, codecMsbc, codecMsbcTransparent, msbc,
      msbcTransparent]
  · by_cases transparent : codec = msbcTransparent
    · simp [convertedCodec, enableOf, transparent, msbc, msbcTransparent]
    · simp [convertedCodec, enableOf, offloaded, transparent, codecCvsd, codecMsbcTransparent]

/-- The codec that the HAL announces becomes the notification that the driver gets. -/
theorem event_change {report : Report} {change : Change} (heard : report.change = some change) :
    change.event = report.announcement := by
  unfold Report.change at heard
  split at heard
  · obtain rfl := Option.some.inj heard
    rw [Change.event, Report.announcement, enableOf_convertedCodec]
  · cases heard

/-- The driver is told of every report that changes a link. -/
theorem notified_foldl_handle (shadow : Shadow) (reports : List Report) :
    (((reports.filterMap Report.change).map .report).foldl Shadow.handle shadow).notified =
      shadow.notified ++ (news shadow.links reports).map Report.announcement := by
  induction reports generalizing shadow with
  | nil => simp [news]
  | cons report rest ih =>
      cases heard : report.change with
      | none => simpa [news, heard] using ih shadow
      | some change =>
          cases new : change.news shadow.links with
          | false => simpa [news, heard, new, Shadow.handle] using ih shadow
          | true =>
              simp [news, heard, new, Shadow.handle, ih, event_change heard]

/-- Reports from the stack to the driver. After any calls of
`notify_sco_connection_change` that nothing else comes between, the controller has a
connection for exactly the addresses that a report connected, with room, and none has
disconnected since, of the reports that got through. The handlers told the driver of
every report that changed a link, in turn, and of no other: a link that came was a
transparent one exactly if it had the transparent codec, and one with offloaded mSBC was
announced as CVSD. The lock is free, every reference but those of the connections is as
before, and no other controller is touched. Every call for LC3 leaves a socket open. -/
theorem reports_reach_driver (mgmt : Mgmt) (core : HciCore Hash) (t : ι) {w : World Hash ι}
    (reports : List Report)
    (found : w.devs.findIdx? (fun d => d.listed && d.id == hci) = some dev)
    (inside : w.devs[dev]? = some d) (notify : d.notify = true) (free : d.lock = none)
    (books : d.Inv core) :
    ∃ w' d', w.reports mgmt core t hci reports = some w' ∧
      (∀ other, other ≠ dev → w'.devs[other]? = w.devs[other]?) ∧
      w'.devs[dev]? = some d' ∧ d'.lock = none ∧ d'.holders = d.holders ∧
      d'.references + core.held d.hash = d.references + core.held d'.hash ∧
      (∀ addr, decide (addr ∈ core.links d'.hash) =
        linked addr (decide (addr ∈ core.links d.hash)) (reports.filterMap Report.change)) ∧
      d'.notified =
        d.notified ++ (news (core.links d.hash) reports).map Report.announcement ∧
      (∀ report ∈ news (core.links d.hash) reports, report.isConnected = true →
        (report.announcement = .enableScoTransp ↔ report.codec = msbcTransparent) ∧
        (report.codec = msbc → report.announcement = .enableScoCvsd)) ∧
      w'.sockets = w.sockets +
        reports.countP fun report => report.opened && report.codec == lc3 := by
  have bound := (List.getElem?_eq_some_iff.mp inside).1
  obtain ⟨w', d', ran, reported⟩ :=
    World.reports_eq mgmt t reports found inside notify free books
  have heard := reported.heard
  have free' : d'.lock = none := heard.lock.trans free
  have before := books.shows free
  have after := reported.books.shows free'
  -- the shadow of the history goes on from where it stood
  have replay : Shadow.after d'.history =
      ((reports.filterMap Report.change).map .report).foldl Shadow.handle
        (.after d.history) := by
    rw [heard.history, Shadow.after, List.foldl_append]
    rfl
  refine ⟨w', d', ran, ?_, ?_, free', heard.holders, ?_, ?_, ?_, ?_, reported.sockets⟩
  · intro other ne
    rw [reported.devs]
    exact List.getElem?_set_ne (Ne.symm ne)
  · rw [reported.devs]
    exact List.getElem?_set_self bound
  · have now := reported.books.references
    have then_ := books.references
    rw [heard.holders, heard.others] at now
    omega
  · intro addr
    have links : core.links d.hash = (Shadow.after d.history).links := before.links
    have links' : core.links d'.hash = (Shadow.after d'.history).links := after.links
    rw [links', replay, mem_foldl_handle, links]
  · have links : core.links d.hash = (Shadow.after d.history).links := before.links
    have told : d.notified = (Shadow.after d.history).notified := before.notified
    have told' : d'.notified = (Shadow.after d'.history).notified := after.notified
    rw [told', replay, notified_foldl_handle, links, told]
  · intro report _ connected
    constructor
    · by_cases transparent : report.codec = msbcTransparent
      · simp [Report.announcement, connected, transparent]
      · simp [Report.announcement, connected, transparent]
    · intro offloaded
      simp [Report.announcement, connected, offloaded, msbc, msbcTransparent]

end Reports

/-- A transparent link comes and goes, one over LC3 comes, and one over offloaded mSBC. -/
def sampleReports : List Report :=
  [⟨sampleAddr, true, msbcTransparent, true, .written 17, 0⟩,
    ⟨sampleAddr, false, msbcTransparent, true, .written 17, 0⟩,
    ⟨sampleAddr, true, lc3, true, .written 17, 0⟩,
    ⟨⟨[6, 5, 4, 3, 2, 1], rfl⟩, true, msbc, true, .written 17, 0⟩]

theorem reports_reach_driver_four_links :
    ∃ (w' : World (Finset BdAddr) Unit) (d' : HciDev (Finset BdAddr) Unit),
      World.reports sampleMgmt sampleCore () 0 ⟨3, [sampleDev]⟩ sampleReports = some w' ∧
      w'.devs[0]? = some d' ∧ decide (sampleAddr ∈ sampleCore.links d'.hash) = false ∧
      d'.notified = [.enableScoTransp, .disableSco, .enableScoCvsd] ∧ w'.sockets = 4 := by
  have found : [sampleDev].findIdx? (fun d => d.listed && d.id == 0) = some 0 := rfl
  have books : sampleDev.Inv sampleCore := ⟨rfl, fun _ => by decide, fun _ => ⟨rfl, rfl⟩⟩
  let w : World (Finset BdAddr) Unit := ⟨3, [sampleDev]⟩
  have at_ : w.devs[0]? = some sampleDev := rfl
  obtain ⟨w', d', ran, -, at_', -, -, -, conns, told, -, sockets⟩ :=
    reports_reach_driver sampleMgmt sampleCore () sampleReports found at_ rfl rfl books
  exact ⟨w', d', ran, at_', (conns sampleAddr).trans rfl, told.trans rfl, sockets⟩

end Dorsche.Floss.HfpHal
