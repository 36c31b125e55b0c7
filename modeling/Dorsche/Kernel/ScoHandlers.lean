import Dorsche.Kernel.UserspaceSco

/-!
The handlers of userspace SCO on any number of threads.

What a thread knows of the controllers is its `stake` in each: how many references
it holds and, under the lock, what the lock guards. Nothing else changes it, neither
another thread nor the rest of the kernel, so a handler is followed by its stake alone.
Reports then take effect one at a time, in the order of their locks, on a controller
that is not freed meanwhile.
-/

namespace Dorsche.Kernel.Sco

open Dorsche.Lib

/-! ### One thing after the other -/

section Shadow

variable {shadow : Shadow}

/-- Notifications that enable SCO, less those that disable it and the links that went
without one, count the links. -/
def Shadow.Counted (shadow : Shadow) : Prop :=
  shadow.notified.countP (· ≠ .disableSco) =
    shadow.notified.count .disableSco + shadow.lost + shadow.links.card

theorem enableOf_ne (codec : UInt8) : enableOf codec ≠ .disableSco := by
  unfold enableOf
  split
  · rintro ⟨⟩
  · rintro ⟨⟩

theorem Shadow.Counted.handle (counted : shadow.Counted) (entry : Entry) :
    (shadow.handle entry).Counted := by
  cases entry with
  | report change =>
      cases news : change.news shadow.links with
      | false => simpa [Shadow.handle, news] using counted
      | true =>
          simp only [Shadow.Counted, Shadow.handle, news, if_true, List.countP_append,
            List.count_append] at counted ⊢
          rw [counted]
          cases connected : change.connected with
          | true =>
              have fresh : change.addr ∉ shadow.links := by
                simp only [Change.news, connected, if_true, decide_eq_true_eq] at news
                exact news.1
              have card := Finset.card_insert_of_notMem fresh
              simp [Change.event, Change.update, connected, enableOf_ne change.codec, card]
              omega
          | false =>
              have mem : change.addr ∈ shadow.links := by
                simpa [Change.news, connected] using news
              have card := Finset.card_erase_add_one mem
              simp [Change.event, Change.update, connected]
              omega
  | dropped gone =>
      have card := Finset.card_sdiff_add_card_inter shadow.links gone
      simp only [Shadow.Counted, Shadow.handle] at counted ⊢
      omega

theorem Shadow.after_append (history : List Entry) (entry : Entry) :
    Shadow.after (history ++ [entry]) = (Shadow.after history).handle entry := by
  simp [Shadow.after]

end Shadow

/-! ### What a thread holds -/

section Stake

variable {Hash ι : Type} [DecidableEq ι] {core : HciCore Hash} {t t' : ι}
  {s : List (HciDev Hash ι)} {d d' : HciDev Hash ι} {dev : Nat}

/-- What the lock of a controller is for. -/
structure Guarded (Hash : Type) where
  hash : Hash
  notified : List Notify
  history : List Entry

def HciDev.guarded (d : HciDev Hash ι) : Guarded Hash := ⟨d.hash, d.notified, d.history⟩

/-- The links and what the driver was told are those of the shadow. -/
structure Guarded.Shows (core : HciCore Hash) (g : Guarded Hash) (shadow : Shadow) : Prop where
  links : core.links g.hash = shadow.links
  notified : g.notified = shadow.notified

section Shows

variable {g : Guarded Hash} {shadow : Shadow} {change : Change}

/-- A report of what is known already changes nothing. -/
theorem Guarded.Shows.known (shows : g.Shows core shadow)
    (same : change.connected = decide (change.addr ∈ core.links g.hash)) :
    g.Shows core (shadow.handle (.report change)) := by
  rw [shows.links] at same
  have old : change.news shadow.links = false := by
    by_cases mem : change.addr ∈ shadow.links
    · simp [Change.news, same, mem]
    · simp [Change.news, same, mem]
  rw [Shadow.handle, old]
  exact shows

theorem Guarded.Shows.refused (shows : g.Shows core shadow) (connected : change.connected = true)
    (fails : change.added < 0) :
    Guarded.Shows core { g with hash := (core.addUnset g.hash change.addr change.added).1 }
      (shadow.handle (.report change)) := by
  have old : change.news shadow.links = false := by
    simp [Change.news, connected, fails]
  rw [Shadow.handle, old]
  exact ⟨(core.links_refused _ _ _ fails).trans shows.links, shows.notified⟩

theorem Guarded.Shows.added (shows : g.Shows core shadow) (connected : change.connected = true)
    (unknown : change.addr ∉ core.links g.hash) (room : 0 ≤ change.added) :
    Guarded.Shows core
      { g with
        hash := (core.addUnset g.hash change.addr change.added).1
        notified := g.notified ++ [enableOf change.codec] }
      (shadow.handle (.report change)) := by
  have news : change.news shadow.links = true := by
    rw [shows.links] at unknown
    simp [Change.news, connected, unknown, room]
  rw [Shadow.handle, news]
  constructor
  · simp [Change.update, connected, core.links_added _ _ _ room unknown, shows.links]
  · simp [Change.event, connected, shows.notified]

theorem Guarded.Shows.deleted (shows : g.Shows core shadow) (connected : change.connected = false)
    (known : change.addr ∈ core.links g.hash) :
    Guarded.Shows core
      { g with
        hash := (core.del g.hash change.addr).1
        notified := g.notified ++ [.disableSco] }
      (shadow.handle (.report change)) := by
  have news : change.news shadow.links = true := by
    rw [shows.links] at known
    simp [Change.news, connected, known]
  rw [Shadow.handle, news]
  constructor
  · simp [Change.update, connected, core.links_del _ _ known, shows.links]
  · simp [Change.event, connected, shows.notified]

end Shows

/-- References, and what the lock guards if it is held. -/
abbrev Stake (Hash : Type) := Nat × Option (Guarded Hash)

def HciDev.stake (t : ι) (d : HciDev Hash ι) : Stake Hash :=
  (d.holders.count t, if d.lock = some t then some d.guarded else none)

/-- What a thread holds of each controller. -/
def stake (t : ι) (s : List (HciDev Hash ι)) (dev : Nat) : Stake Hash :=
  (s[dev]?.map (HciDev.stake t)).getD (0, none)

/-- A stake in one controller. -/
def only (dev : Nat) (held : Stake Hash) : Nat → Stake Hash :=
  Function.update (fun _ => (0, none)) dev held

def nothing : Nat → Stake Hash := fun _ => (0, none)

theorem stake_set (inside : s[dev]? = some d) :
    stake t (s.set dev d') = Function.update (stake t s) dev (d'.stake t) := by
  funext j
  by_cases same : j = dev
  · subst same
    have bound := (List.getElem?_eq_some_iff.mp inside).1
    simp [stake, bound]
  · simp [stake, Function.update_of_ne same, List.getElem?_set_ne (Ne.symm same)]

theorem stake_eq (inside : s[dev]? = some d) : stake t s dev = d.stake t := by
  simp [stake, inside]

/-- A controller in which something is held exists. -/
theorem exists_of_stake {held : Stake Hash} (holds : stake t s = only dev held)
    (some_ : held ≠ (0, none)) : ∃ d, s[dev]? = some d ∧ d.stake t = held := by
  have here : stake t s dev = held := by rw [holds, only, Function.update_self]
  cases at_ : s[dev]? with
  | none =>
      rw [stake, at_] at here
      exact absurd here.symm some_
  | some d => exact ⟨d, rfl, (stake_eq at_).symm.trans here⟩

/-- The books of a controller. -/
structure HciDev.Inv (core : HciCore Hash) (d : HciDev Hash ι) : Prop where
  references : d.references = d.holders.length + d.others + core.held d.hash
  listed : d.listed = true → 0 < d.others
  shows : d.lock = none → d.guarded.Shows core (.after d.history)

def Inv (core : HciCore Hash) (s : List (HciDev Hash ι)) : Prop := ∀ d ∈ s, d.Inv core

omit [DecidableEq ι] in
theorem Inv.set (inv : Inv core s) (inv' : d'.Inv core) : Inv core (s.set dev d') := by
  intro d mem
  rcases List.mem_or_eq_of_mem_set mem with mem | rfl
  · exact inv d mem
  · exact inv'

/-- A controller that a thread has got is not freed. -/
theorem HciDev.Inv.alive (inv : d.Inv core) (holds : 0 < d.holders.count t) :
    0 < d.references := by
  have some_ := List.length_pos_of_mem (List.count_pos_iff.mp holds)
  rw [inv.references]
  omega

theorem HciDev.Inv.alive_of_stake {n : Nat} {held : Option (Guarded Hash)} (inv : d.Inv core)
    (here : d.stake t = (n + 1, held)) : 0 < d.references := by
  have count : d.holders.count t = n + 1 := (Prod.mk.inj here).1
  apply inv.alive
  rw [count]
  exact Nat.succ_pos n

omit [DecidableEq ι] in
/-- Nor is one that can be found. -/
theorem HciDev.Inv.alive_of_listed (inv : d.Inv core) (listed : d.listed = true) :
    0 < d.references := by
  have some_ := inv.listed listed
  rw [inv.references]
  omega

/-! ### Contract of a thread -/

/-- A thread calls on a controller that is not freed, finds none that is, touches
connections and tells the driver under the lock, and takes a lock when it holds none. -/
def Safe (t : ι) : Action ι → List (HciDev Hash ι) → Prop
  | .hciDevGet t' _, s => t' = t ∧ ∀ d ∈ s, d.listed = true → 0 < d.references
  | .hciDevPut t' dev, s => t' = t ∧ ∃ d, s[dev]? = some d ∧ 0 < d.references ∧ t ∈ d.holders
  | .hasNotify dev, s | .capabilities dev, s => ∃ d, s[dev]? = some d ∧ 0 < d.references
  | .hciDevLock t' dev, s => t' = t ∧ (∃ d, s[dev]? = some d ∧ 0 < d.references) ∧
      ∀ d ∈ s, d.lock ≠ some t
  | .hciDevUnlock t' dev _, s => t' = t ∧
      ∃ d, s[dev]? = some d ∧ 0 < d.references ∧ d.lock = some t
  | .hciConnHashLookupBa dev _, s | .hciConnAddUnset dev _ _, s | .hciConnDel dev _, s
  | .notify dev _, s => ∃ d, s[dev]? = some d ∧ 0 < d.references ∧ d.lock = some t

def contract (core : HciCore Hash) (t : ι) :
    Contract (Action ι) Action.Reply (List (HciDev Hash ι)) where
  exec := exec core
  inv := Inv core
  rely := fun s s' => stake t s' = stake t s
  guar := fun s s' => ∀ t', t ≠ t' → stake t' s' = stake t' s
  safe := Safe t
  rely_refl := fun _ => rfl
  rely_trans := fun first second => second.trans first

/-- A program that keeps its contract whenever the thread holds the given stakes, and
ends with the others. -/
def Follows {α : Type} (core : HciCore Hash) (t : ι) (held : Nat → Stake Hash)
    (p : Handler ι α) (left : Nat → Stake Hash) : Prop :=
  ∀ s, stake t s = held → (contract core t).Holds (fun _ s => stake t s = left) p s

section Rules

variable {α β : Type} {held left left' : Nat → Stake Hash}

theorem Follows.bind {p : Handler ι α} {f : α → Handler ι β} (first : Follows core t held p left)
    (rest : ∀ a, Follows core t left (f a) left') : Follows core t held (p >>= f) left' := by
  intro s holds
  exact (first s holds).bind fun a s' _ holds' => rest a s' holds'

theorem follows_ret (a : α) : Follows core t held (.ret a) held := by
  intro s holds
  apply Contract.Holds.of_ret
  intro s' rely _
  exact rely.trans holds

/-- A call on a controller in which the thread has a stake. -/
theorem follows_dev {i : Action ι} {k : i.Reply → Handler ι α} {mine : Stake Hash}
    (some_ : mine ≠ (0, none)) (run : HciDev Hash ι → Option (i.Reply × HciDev Hash ι))
    (runs : ∀ s, exec core i s = onDev s dev run)
    (safe : ∀ s d, s[dev]? = some d → d.Inv core → d.stake t = mine → stake t s = only dev mine →
      Safe t i s)
    (next : ∀ d r d', d.Inv core → d.stake t = mine → run d = some (r, d') →
      d'.Inv core ∧ (∀ t', t ≠ t' → d'.stake t' = d.stake t') ∧
      Follows core t (only dev (d'.stake t)) (k r) left) :
    Follows core t (only dev mine) (.act i k) left := by
  intro s₀ holds₀
  apply Contract.Holds.of_act
  intro s rely inv
  have holds : stake t s = only dev mine := rely.trans holds₀
  obtain ⟨d, inside, here⟩ := exists_of_stake holds some_
  have invd := inv d (List.mem_of_getElem? inside)
  refine ⟨safe s d inside invd here holds, fun r s' ran => ?_⟩
  have ran' : onDev s dev run = some (r, s') := (runs s).symm.trans ran
  simp only [onDev, inside, Option.bind_some, Option.map_eq_some_iff] at ran'
  obtain ⟨⟨r', d'⟩, ran', out⟩ := ran'
  obtain ⟨rfl, rfl⟩ := Prod.mk.inj out
  obtain ⟨invd', others, rest⟩ := next d _ d' invd here ran'
  refine ⟨inv.set invd', fun t' ne => ?_, rest _ ?_⟩
  · rw [stake_set inside, others t' ne, ← stake_eq inside, Function.update_eq_self]
  · rw [stake_set inside, holds, only, Function.update_idem]
    rfl

theorem only_nothing : (only dev (0, none) : Nat → Stake Hash) = nothing :=
  Function.update_eq_self _ _

/-- Without the lock. -/
theorem stake_free {n : Nat} (here : d.stake t = (n, none)) :
    d.holders.count t = n ∧ d.lock ≠ some t := by
  obtain ⟨count, locked⟩ := Prod.mk.inj here
  refine ⟨count, fun lock => ?_⟩
  rw [if_pos lock] at locked
  cases locked

/-- With the lock. -/
theorem stake_locked {n : Nat} {g : Guarded Hash} (here : d.stake t = (n, some g)) :
    d.holders.count t = n ∧ d.lock = some t ∧ d.guarded = g := by
  obtain ⟨count, locked⟩ := Prod.mk.inj here
  by_cases lock : d.lock = some t
  · rw [if_pos lock] at locked
    exact ⟨count, lock, Option.some.inj locked⟩
  · rw [if_neg lock] at locked
    cases locked

/-- Other threads see nothing of what happens under the lock. -/
theorem stake_other (lock : d.lock = some t) (holders : d'.holders = d.holders)
    (lock' : d'.lock = d.lock) (ne : t ≠ t') : d'.stake t' = d.stake t' := by
  have theirs : d.lock ≠ some t' := by
    rw [lock]
    exact fun same => ne (Option.some.inj same)
  rw [HciDev.stake, HciDev.stake, holders, lock', if_neg theirs, if_neg theirs]

theorem follows_read {i : Action ι} {k : i.Reply → Handler ι α} {mine : Stake Hash}
    (some_ : mine ≠ (0, none)) (value : HciDev Hash ι → i.Reply)
    (runs : ∀ s, exec core i s = onDev s dev fun d => some (value d, d))
    (safe : ∀ s d, s[dev]? = some d → d.Inv core → d.stake t = mine → stake t s = only dev mine →
      Safe t i s)
    (next : ∀ d, d.Inv core → d.stake t = mine →
      Follows core t (only dev mine) (k (value d)) left) :
    Follows core t (only dev mine) (.act i k) left := by
  refine follows_dev some_ _ runs safe fun d r d' inv here ran => ?_
  obtain ⟨rfl, rfl⟩ := Prod.mk.inj (Option.some.inj ran)
  refine ⟨inv, fun _ _ => rfl, ?_⟩
  rw [here]
  exact next d inv here

theorem follows_get {id : UInt16} {k : Option Nat → Handler ι α}
    (none_ : Follows core t nothing (k none) left)
    (found : ∀ dev, Follows core t (only dev (1, none)) (k (some dev)) left) :
    Follows core t nothing (.act (.hciDevGet t id) k) left := by
  intro s₀ holds₀
  apply Contract.Holds.of_act
  intro s rely inv
  have holds : stake t s = nothing := rely.trans holds₀
  refine ⟨⟨rfl, fun d mem listed => (inv d mem).alive_of_listed listed⟩, fun r s' ran => ?_⟩
  simp only [contract, exec] at ran
  split at ran
  · obtain ⟨rfl, rfl⟩ := Prod.mk.inj (Option.some.inj ran)
    exact ⟨inv, fun _ _ => rfl, none_ _ holds⟩
  · rename_i dev _
    simp only [onDev, Option.bind_eq_some_iff, Option.map_some, Option.some.injEq] at ran
    obtain ⟨d, at_, out⟩ := ran
    obtain ⟨rfl, rfl⟩ := Prod.mk.inj out
    have invd := inv d (List.mem_of_getElem? at_)
    have here : d.stake t = (0, none) := by
      rw [← stake_eq at_, holds]
      rfl
    obtain ⟨count, lock⟩ := stake_free here
    refine ⟨inv.set ⟨?_, invd.listed, invd.shows⟩, fun t' ne => ?_, found dev _ ?_⟩
    · change d.references + 1 = (d.holders.length + 1) + d.others + core.held d.hash
      rw [invd.references]
      omega
    · rw [stake_set at_]
      refine (congrArg _ ?_).trans (Function.update_eq_self dev _)
      rw [stake_eq at_]
      simp [HciDev.stake, HciDev.guarded, List.count_cons_of_ne ne]
    · rw [stake_set at_, holds]
      refine congrArg (Function.update _ dev) ?_
      simp [HciDev.stake, count, lock]

theorem follows_put {k : Unit → Handler ι α} (rest : Follows core t nothing (k ()) left) :
    Follows core t (only dev (1, none)) (.act (.hciDevPut t dev) k) left := by
  refine follows_dev (by simp) _ (fun _ => rfl) ?_ ?_
  · intro s d inside inv here _
    have holds : 0 < d.holders.count t := by
      rw [(stake_free here).1]
      decide
    exact ⟨rfl, d, inside, inv.alive holds, List.count_pos_iff.mp holds⟩
  · intro d r d' inv here ran
    obtain ⟨rfl, rfl⟩ := Prod.mk.inj (Option.some.inj ran)
    obtain ⟨count, lock⟩ := stake_free here
    have mem : t ∈ d.holders := List.count_pos_iff.mp (by omega)
    have some_ := List.length_pos_of_mem mem
    refine ⟨⟨?_, inv.listed, inv.shows⟩, fun t' ne => ?_, ?_⟩
    · change d.references - 1 = (d.holders.erase t).length + d.others + core.held d.hash
      rw [inv.references, List.length_erase_of_mem mem]
      omega
    · simp [HciDev.stake, HciDev.guarded, List.count_erase_of_ne ne.symm]
    · have gone : HciDev.stake t { d with
          references := d.references - 1, holders := d.holders.erase t } = (0, none) := by
        simp [HciDev.stake, count, lock]
      rw [gone, only_nothing]
      exact rest

theorem follows_lock {k : Unit → Handler ι α}
    (next : ∀ g : Guarded Hash, g.Shows core (.after g.history) →
      Follows core t (only dev (1, some g)) (k ()) left) :
    Follows core t (only dev (1, none)) (.act (.hciDevLock t dev) k) left := by
  refine follows_dev (by simp) _ (fun _ => rfl) ?_ ?_
  · intro s d inside inv here holds
    refine ⟨rfl, ⟨d, inside, inv.alive_of_stake here⟩, fun other mem => ?_⟩
    · obtain ⟨j, there⟩ := List.getElem?_of_mem mem
      have theirs : other.stake t = only dev (1, none) j := by rw [← holds, stake_eq there]
      by_cases same : j = dev
      · subst same
        rw [only, Function.update_self] at theirs
        exact (stake_free theirs).2
      · rw [only, Function.update_of_ne same] at theirs
        exact (stake_free theirs).2
  · intro d r d' inv here ran
    obtain ⟨count, -⟩ := stake_free here
    split at ran
    case h_2 => cases ran
    case h_1 unlocked =>
      obtain ⟨rfl, rfl⟩ := Prod.mk.inj (Option.some.inj ran)
      refine ⟨⟨inv.references, inv.listed, by rintro ⟨⟩⟩, fun t' ne => ?_, ?_⟩
      · simp [HciDev.stake, unlocked, ne]
      · have mine : HciDev.stake t { d with lock := some t } = (1, some d.guarded) := by
          simp [HciDev.stake, count, HciDev.guarded]
        rw [mine]
        exact next d.guarded (inv.shows unlocked)

/-- A call under the lock, with what it makes of the controller. -/
structure Locally (core : HciCore Hash) (g g' : Guarded Hash) (d d' : HciDev Hash ι) : Prop where
  holders : d'.holders = d.holders
  lock : d'.lock = d.lock
  others : d'.others = d.others
  listed : d'.listed = d.listed
  guarded : d'.guarded = g'
  references : d.references = d.holders.length + d.others + core.held g.hash →
    d'.references = d.holders.length + d.others + core.held g'.hash

theorem follows_locked {i : Action ι} {k : i.Reply → Handler ι α} {g : Guarded Hash}
    (g' : Guarded Hash) (value : Guarded Hash → i.Reply) (update : HciDev Hash ι → HciDev Hash ι)
    (runs : ∀ s, exec core i s = onDev s dev fun d => some (value d.guarded, update d))
    (safe : ∀ s : List (HciDev Hash ι),
      (∃ d, s[dev]? = some d ∧ 0 < d.references ∧ d.lock = some t) → Safe t i s)
    (becomes : ∀ d, d.guarded = g → Locally core g g' d (update d))
    (next : Follows core t (only dev (1, some g')) (k (value g)) left) :
    Follows core t (only dev (1, some g)) (.act i k) left := by
  refine follows_dev (by simp) _ runs ?_ ?_
  · intro s d inside inv here _
    exact safe s ⟨d, inside, inv.alive_of_stake here, (stake_locked here).2.1⟩
  · intro d r d' inv here ran
    obtain ⟨rfl, rfl⟩ := Prod.mk.inj (Option.some.inj ran)
    obtain ⟨count, lock, rfl⟩ := stake_locked here
    have after := becomes d rfl
    refine ⟨⟨?_, ?_, ?_⟩, fun t' ne => stake_other lock after.holders after.lock ne, ?_⟩
    · have hash : (update d).hash = g'.hash := congrArg Guarded.hash after.guarded
      rw [after.holders, after.others, hash]
      exact after.references inv.references
    · rw [after.listed, after.others]
      exact inv.listed
    · intro free
      rw [after.lock, lock] at free
      cases free
    · have mine : (update d).stake t = (1, some g') := by
        rw [HciDev.stake, after.holders, count, after.lock, if_pos lock, after.guarded]
      rw [mine]
      exact next

omit [DecidableEq ι] in
theorem locally_refl {g : Guarded Hash} (here : d.guarded = g) : Locally core g g d d :=
  ⟨rfl, rfl, rfl, rfl, here, id⟩

/-- A report has taken its effect when the lock is given back. -/
theorem follows_unlock {k : Unit → Handler ι α} {change : Change} {g : Guarded Hash}
    (done : g.Shows core ((Shadow.after g.history).handle (.report change)))
    (rest : Follows core t (only dev (1, none)) (k ()) left) :
    Follows core t (only dev (1, some g)) (.act (.hciDevUnlock t dev change) k) left := by
  refine follows_dev (by simp) _ (fun _ => rfl) ?_ ?_
  · intro s d inside inv here _
    exact ⟨rfl, d, inside, inv.alive_of_stake here, (stake_locked here).2.1⟩
  · intro d r d' inv here ran
    obtain ⟨rfl, rfl⟩ := Prod.mk.inj (Option.some.inj ran)
    obtain ⟨count, lock, rfl⟩ := stake_locked here
    refine ⟨⟨inv.references, inv.listed, fun _ => ?_⟩, fun t' ne => ?_, ?_⟩
    · rw [Shadow.after_append]
      exact ⟨done.links, done.notified⟩
    · simp [HciDev.stake, lock, ne]
    · have mine : HciDev.stake t { d with
          lock := none, history := d.history ++ [.report change] } = (1, none) := by
        simp [HciDev.stake, count]
      rw [mine]
      exact rest

/-! ### Handlers -/

theorem follows_leave {change : Change} {g : Guarded Hash} {result : Int}
    (done : g.Shows core ((Shadow.after g.history).handle (.report change))) :
    Follows core t (only dev (1, some g)) (leave t dev change result) nothing :=
  follows_unlock done (follows_put (follows_ret result))

theorem follows_notify {k : Unit → Handler ι α} {g : Guarded Hash} {event : Notify}
    (rest : Follows core t (only dev (1, some { g with notified := g.notified ++ [event] }))
      (k ()) left) :
    Follows core t (only dev (1, some g)) (.act (.notify dev event) k) left := by
  refine follows_locked _ (fun _ => ()) _ (fun _ => rfl) (fun _ => id) ?_ rest
  rintro d rfl
  exact ⟨rfl, rfl, rfl, rfl, rfl, id⟩

/-- A link that the kernel does not know comes. -/
theorem follows_connect {change : Change} {g : Guarded Hash}
    (shows : g.Shows core (.after g.history)) (connected : change.connected = true)
    (unknown : change.addr ∉ core.links g.hash) :
    Follows core t (only dev (1, some g))
      (do
        let err ← call (.hciConnAddUnset dev change.addr change.added)
        if err < 0 then leave t dev change err
        else
          call (.notify dev (enableOf change.codec))
          leave t dev change 0) nothing := by
  let added : Guarded Hash := { g with hash := (core.addUnset g.hash change.addr change.added).1 }
  refine follows_locked added (fun _ => change.added) _ (fun _ => rfl) (fun _ => id) ?_ ?_
  · rintro d rfl
    refine ⟨rfl, rfl, rfl, rfl, rfl, fun books => ?_⟩
    have takes := core.held_addUnset d.hash change.addr change.added unknown
    simp only [added, HciDev.guarded] at books ⊢
    omega
  · change Follows core t _ (if change.added < 0 then _ else _) _
    split
    · rename_i fails
      exact follows_leave (shows.refused connected fails)
    · rename_i fits
      exact follows_notify (follows_leave (shows.added connected unknown (Int.not_lt.mp fits)))

/-- A link that the kernel knows goes. -/
theorem follows_disconnect {change : Change} {g : Guarded Hash}
    (shows : g.Shows core (.after g.history)) (connected : change.connected = false)
    (known : change.addr ∈ core.links g.hash) :
    Follows core t (only dev (1, some g))
      (do
        call (.hciConnDel dev change.addr)
        call (.notify dev .disableSco)
        leave t dev change 0) nothing := by
  let deleted : Guarded Hash := { g with hash := (core.del g.hash change.addr).1 }
  refine follows_locked deleted (fun _ => ()) _ (fun _ => rfl) (fun _ => id) ?_ ?_
  · rintro d rfl
    refine ⟨rfl, rfl, rfl, rfl, rfl, fun books => ?_⟩
    have puts := core.held_del d.hash change.addr known
    simp only [deleted, HciDev.guarded] at books ⊢
    omega
  · exact follows_notify (follows_leave (shows.deleted connected known))

theorem follows_changeLocked (change : Change) {g : Guarded Hash}
    (shows : g.Shows core (.after g.history)) :
    Follows core t (only dev (1, some g)) (changeLocked t dev change) nothing := by
  refine follows_locked g (fun g => core.lookupBa g.hash change.addr) id (fun _ => rfl)
    (fun _ => id) (fun d here => locally_refl here) ?_
  change Follows core t _ (if change.connected && !core.lookupBa g.hash change.addr
    then _ else if !change.connected && core.lookupBa g.hash change.addr then _ else _) _
  rw [core.lookupBa_eq]
  by_cases known : change.addr ∈ core.links g.hash
  · cases connected : change.connected with
    | true =>
        simp only [known, decide_true, Bool.not_true, Bool.and_false, Bool.false_and,
          Bool.false_eq_true, if_false]
        exact follows_leave (shows.known (by simp [connected, known]))
    | false =>
        simp only [known, decide_true, Bool.false_and, Bool.not_false, Bool.and_self,
          Bool.false_eq_true, if_false, if_true]
        exact follows_disconnect shows connected known
  · cases connected : change.connected with
    | true =>
        simp only [known, decide_false, Bool.not_false, Bool.and_self, if_true]
        exact follows_connect shows connected known
    | false =>
        simp only [known, decide_false, Bool.false_and, Bool.and_false, Bool.false_eq_true,
          if_false]
        exact follows_leave (shows.known (by simp [connected, known]))

theorem follows_notifyScoConnectionChange (cp : ConnectionChange) (added : Int) :
    Follows core t nothing (flossNotifyScoConnectionChange t cp added) nothing := by
  refine follows_get (follows_ret _) fun dev => ?_
  refine follows_read (by simp) HciDev.notify (fun _ => rfl)
    (fun s d inside inv here _ => ⟨d, inside, inv.alive_of_stake here⟩) fun d _ _ => ?_
  change Follows core t _ (if d.notify then _ else _) _
  split
  · exact follows_lock fun g shows => follows_changeLocked _ shows
  · exact follows_put (follows_ret 0)

theorem follows_getScoCodecCapabilities (hciId : UInt16) (complete : Int) :
    Follows core t nothing (flossGetScoCodecCapabilities t hciId complete) nothing := by
  refine follows_get (follows_ret _) fun dev => ?_
  refine follows_read (by simp) HciDev.capabilities (fun _ => rfl)
    (fun s d inside inv here _ => ⟨d, inside, inv.alive_of_stake here⟩) fun d _ _ => ?_
  exact follows_put (follows_ret _)

theorem follows_offered {p : Handler ι Unit} (offered : Menu t () p) :
    Follows core t nothing p nothing := by
  cases offered with
  | getScoCodecCapabilities hciId complete =>
      exact (follows_getScoCodecCapabilities hciId complete).bind fun _ => follows_ret ()
  | notifyScoConnectionChange cp added =>
      exact (follows_notifyScoConnectionChange cp added).bind fun _ => follows_ret ()

end Rules

/-! ### Controllers come and go -/

theorem stake_append (fresh : d.stake t = (0, none)) : stake t (s ++ [d]) = stake t s := by
  funext j
  rcases Nat.lt_trichotomy j s.length with inside | rfl | outside
  · simp [stake, List.getElem?_append_left inside]
  · simp [stake, fresh]
  · have past : (s ++ [d])[j]? = none := by
      rw [List.getElem?_eq_none_iff, List.length_append]
      exact outside
    rw [stake, stake, past, List.getElem?_eq_none_iff.mpr (Nat.le_of_lt outside)]

omit [DecidableEq ι] in
theorem HciDev.Fresh.inv (fresh : d.Fresh core) : d.Inv core where
  references := by
    rw [fresh.references, fresh.holders]
    simp
  listed := fun _ => fresh.others
  shows := fun _ => by
    constructor
    · rw [fresh.history]
      exact fresh.links
    · rw [fresh.history]
      exact fresh.notified

omit [DecidableEq ι] in
theorem HciDev.Rest.inv (rest : d.Rest core d') (inv : d.Inv core) : d'.Inv core where
  references := by
    have before := inv.references
    have balanced := rest.references
    rw [rest.holders]
    omega
  listed := rest.listed
  shows := by
    intro free
    rw [rest.lock] at free
    have shows := inv.shows free
    rcases rest.conns with ⟨hash, history⟩ | ⟨-, gone, links, history⟩
    · constructor
      · rw [history]
        exact (congrArg core.links hash).trans shows.links
      · rw [history]
        exact rest.notified.trans shows.notified
    · rw [history, Shadow.after_append]
      constructor
      · exact links.trans (congrArg (· \ gone) shows.links)
      · exact rest.notified.trans shows.notified

/-- No thread's stake changes: what the lock guards is left alone where it is held. -/
theorem HciDev.Rest.stake_eq (rest : d.Rest core d') (t : ι) : d'.stake t = d.stake t := by
  rw [HciDev.stake, HciDev.stake, rest.holders, rest.lock]
  congr 1
  by_cases lock : d.lock = some t
  · rcases rest.conns with ⟨hash, history⟩ | ⟨free, -⟩
    · rw [HciDev.guarded, hash, history, rest.notified]
      rfl
    · cases lock.symm.trans free
  · rw [if_neg lock, if_neg lock]

theorem Outside.keeps {s' : List (HciDev Hash ι)} (outside : Outside core s s')
    (inv : Inv core s) : Inv core s' ∧ ∀ t, stake t s' = stake t s := by
  cases outside with
  | @register d fresh _ =>
      constructor
      · intro other mem
        rcases List.mem_append.mp mem with mem | new
        · exact inv other mem
        · obtain rfl := List.mem_singleton.mp new
          exact fresh.inv
      · intro t
        exact stake_append (by simp [HciDev.stake, fresh.lock, fresh.holders])
  | @rest dev d d' inside rest =>
      constructor
      · exact inv.set (rest.inv (inv d (List.mem_of_getElem? inside)))
      · intro t
        rw [stake_set inside, rest.stake_eq, ← Sco.stake_eq inside, Function.update_eq_self]

theorem reaches_contracts
    {c : Many (Action ι) Action.Reply ι Unit (List (HciDev Hash ι))} (reached : Reaches core c) :
    Inv core c.shared ∧ ∀ t, (contract core t).Holds (fun _ s => stake t s = nothing)
      (c.threads t) c.shared := by
  refine many_invariant (contract core) (fun _ => rfl) (fun _ => rfl)
    (fun t t' s s' ne guar => guar t' ne) ?_ (fun s s' inv outside => outside.keeps inv) reached
    ?_ ?_
  · intro t point p s _ holds offered
    exact follows_offered offered s holds
  · intro d mem
    cases mem
  · intro t
    exact follows_ret () _ rfl

/-! ### The handlers together -/

end Stake

/-- A core that keeps the addresses and takes one reference for each connection. -/
def sampleCore : HciCore (Finset BdAddr) where
  lookupBa hash addr := decide (addr ∈ hash)
  addUnset hash addr result := if result < 0 then (hash, 0) else (insert addr hash, 1)
  del hash addr := (hash.erase addr, 1)
  links := id
  held := Finset.card
  lookupBa_eq _ _ := rfl
  links_refused _ _ _ fails := by simp [fails]
  links_added _ _ _ room _ := by simp [Int.not_lt.mpr room]
  links_del _ _ _ := rfl
  held_addUnset _ _ result unknown := by
    by_cases fails : result < 0
    · simp [fails]
    · simpa [fails] using Finset.card_insert_of_notMem unknown
  held_del _ _ known := (Finset.card_erase_add_one known).symm

/-- A controller as its driver registers it. -/
def sampleDev : HciDev (Finset BdAddr) Unit where
  id := 0
  listed := true
  references := 2
  lock := none
  notify := true
  widebandSpeech := true
  dataPathId := none
  wbsPktLen := 60
  hash := ∅
  notified := []
  holders := []
  others := 2
  history := []

def sampleAddr : BdAddr := ⟨[1, 2, 3, 4, 5, 6], rfl⟩

end Dorsche.Kernel.Sco
