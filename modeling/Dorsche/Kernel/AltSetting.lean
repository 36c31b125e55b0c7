import Dorsche.Kernel.Btusb

/-!
SCO transmission never outlives its alternate setting.

Under the mutex a thread sees only completions (`Quiet`), so its contract says
what each call of a body does to the URBs. The guarantee of a thread is the rely
of every other one: it enters and leaves the mutex for itself only.
-/

namespace Dorsche.Kernel.Btusb

open Dorsche.Lib

variable {ι : Type} {t : ι} {d d' d'' : BtusbData ι}

/-! ### Invariant -/

/-- A URB in flight is anchored and was constructed under the current selection. -/
structure Urb.Current (d : BtusbData ι) (urb : Urb) : Prop where
  anchored : urb.anchored = true
  altsetting : urb.altsetting = d.selected
  selection : urb.selection = d.selections

structure Inv (d : BtusbData ι) : Prop where
  current : ∀ urb ∈ d.urbs, urb.inFlight = true → urb.Current d
  /-- After a switch to setting 0 nothing is in flight and nothing is let through. -/
  parked : d.parked = true → d.running = false ∧ ∀ urb ∈ d.urbs, urb.inFlight = false

/-- No SCO TX URB is in flight. -/
def Drained (d : BtusbData ι) : Prop := ∀ urb ∈ d.urbs, urb.inFlight = false

/-- Between two states URBs have completed and nothing else has happened. -/
structure Quiet (d d' : BtusbData ι) : Prop where
  isocTxMutex : d'.isocTxMutex = d.isocTxMutex
  running : d'.running = d.running
  isocAltsetting : d'.isocAltsetting = d.isocAltsetting
  selected : d'.selected = d.selected
  selections : d'.selections = d.selections
  parked : d'.parked = d.parked
  urbs : ∀ (i : Nat) (urb' : Urb), d'.urbs[i]? = some urb' → ∃ urb : Urb, d.urbs[i]? = some urb ∧
    (urb' = urb ∨ urb.inFlight = true ∧ urb' = urb.complete)
  length : d'.urbs.length = d.urbs.length

theorem Quiet.refl (d : BtusbData ι) : Quiet d d :=
  ⟨rfl, rfl, rfl, rfl, rfl, rfl, fun _ urb is => ⟨urb, is, .inl rfl⟩, rfl⟩

theorem Quiet.trans (first : Quiet d d') (second : Quiet d' d'') : Quiet d d'' := by
  refine ⟨second.isocTxMutex.trans first.isocTxMutex, second.running.trans first.running,
    second.isocAltsetting.trans first.isocAltsetting, second.selected.trans first.selected,
    second.selections.trans first.selections, second.parked.trans first.parked, ?_,
    second.length.trans first.length⟩
  intro i urb'' is
  obtain ⟨urb', is', later⟩ := second.urbs i urb'' is
  obtain ⟨urb, is₀, earlier⟩ := first.urbs i urb' is'
  refine ⟨urb, is₀, ?_⟩
  rcases later with rfl | ⟨flying', rfl⟩
  · exact earlier
  · rcases earlier with rfl | ⟨flying, rfl⟩
    · exact .inr ⟨flying', rfl⟩
    · cases flying'

/-- A URB that is not in flight stays as it is. -/
theorem Quiet.grounded {i : Nat} {urb : Urb} (quiet : Quiet d d')
    (is : d.urbs[i]? = some urb) (grounded : urb.inFlight = false) : d'.urbs[i]? = some urb := by
  have inside : i < d'.urbs.length := by
    rw [quiet.length]
    exact (List.getElem?_eq_some_iff.mp is).1
  obtain ⟨urb', is'⟩ : ∃ urb', d'.urbs[i]? = some urb' := ⟨_, List.getElem?_eq_getElem inside⟩
  obtain ⟨urb₀, is₀, same | ⟨flying, -⟩⟩ := quiet.urbs i urb' is'
  · rw [is', same, ← is₀, is]
  · rw [is] at is₀
    obtain rfl := Option.some.inj is₀
    rw [grounded] at flying
    cases flying

theorem Drained.quiet (drained : Drained d) (quiet : Quiet d d') : Drained d' := by
  intro urb' mem
  obtain ⟨i, is⟩ := List.mem_iff_getElem?.mp mem
  obtain ⟨urb, is₀, rfl | ⟨-, rfl⟩⟩ := quiet.urbs i urb' is
  · exact drained urb' (List.mem_iff_getElem?.mpr ⟨i, is₀⟩)
  · rfl

/-- Completions keep the invariant. -/
theorem Inv.quiet (inv : Inv d) (quiet : Quiet d d') : Inv d' := by
  constructor
  · intro urb' mem flying
    obtain ⟨i, is⟩ := List.mem_iff_getElem?.mp mem
    obtain ⟨urb, is₀, rfl | ⟨-, rfl⟩⟩ := quiet.urbs i urb' is
    · have current := inv.current urb' (List.mem_iff_getElem?.mpr ⟨i, is₀⟩) flying
      exact ⟨current.anchored, current.altsetting.trans quiet.selected.symm,
        current.selection.trans quiet.selections.symm⟩
    · cases flying
  · intro parked
    obtain ⟨stopped, drained⟩ := inv.parked (quiet.parked ▸ parked)
    exact ⟨quiet.running.trans stopped, Drained.quiet drained quiet⟩

theorem Completes.quiet (completes : Completes d d') : Quiet d d' := by
  obtain @⟨i, urb, is, flying⟩ := completes
  refine ⟨rfl, rfl, rfl, rfl, rfl, rfl, fun j urb' is' => ?_, List.length_modify ..⟩
  simp only [List.getElem?_modify] at is'
  obtain ⟨urb₀, is₀, rfl⟩ := Option.map_eq_some_iff.mp is'
  refine ⟨urb₀, is₀, ?_⟩
  by_cases same : i = j
  · subst same
    rw [is] at is₀
    obtain rfl := Option.some.inj is₀
    exact .inr ⟨flying, by simp⟩
  · exact .inl (by simp [same])

/-- An update that leaves the URBs, the selection and the parking alone. -/
theorem Inv.congr (inv : Inv d) (urbs : d'.urbs = d.urbs) (selected : d'.selected = d.selected)
    (selections : d'.selections = d.selections) (parked : d'.parked = d.parked)
    (running : d'.running = true → d.running = true) : Inv d' := by
  constructor
  · intro urb mem flying
    have current := inv.current urb (urbs ▸ mem) flying
    exact ⟨current.anchored, current.altsetting.trans selected.symm,
      current.selection.trans selections.symm⟩
  · intro rest
    obtain ⟨stopped, drained⟩ := inv.parked (parked ▸ rest)
    refine ⟨?_, fun urb mem => drained urb (urbs ▸ mem)⟩
    by_contra going
    rw [running (by simpa using going)] at stopped
    cases stopped

/-! ### Contract of a thread -/

/-- What the other threads do between two calls of `t`. -/
structure Relies (t : ι) (d d' : BtusbData ι) : Prop where
  held : d.isocTxMutex = some t → Quiet d d'
  free : d.isocTxMutex ≠ some t → d'.isocTxMutex ≠ some t

theorem Relies.refl (t : ι) (d : BtusbData ι) : Relies t d d := ⟨fun _ => .refl d, id⟩

theorem Relies.trans (first : Relies t d d') (second : Relies t d' d'') : Relies t d d'' := by
  refine ⟨fun held => ?_, fun free => second.free (first.free free)⟩
  have quiet := first.held held
  exact quiet.trans (second.held (quiet.isocTxMutex.trans held))

/-- A SCO TX URB is submitted under the mutex and with `BTUSB_ISOC_RUNNING` set; the
mutex is taken by a thread that does not hold it and given back by its holder. -/
def Safe (t : ι) : Action ι → BtusbData ι → Prop
  | .submitUrb _ _, d => d.running = true ∧ d.isocTxMutex = some t
  | .mutexLock t', d => t' = t ∧ d.isocTxMutex ≠ some t
  | .mutexUnlock t', d => t' = t ∧ d.isocTxMutex = some t
  | _, _ => True

def contract (t : ι) : Contract (Action ι) Action.Reply (BtusbData ι) where
  exec := exec
  inv := Inv
  rely := Relies t
  guar := fun d d' => ∀ t', t ≠ t' → Relies t' d d'
  safe := Safe t
  rely_refl := Relies.refl t
  rely_trans := Relies.trans

section Rules

variable {α : Type} {Q : α → BtusbData ι → Prop}

/-- A call of the holder: before it only completions have happened. -/
theorem held_act {i : Action ι} {k : i.Reply → Routine ι α} (held : d.isocTxMutex = some t)
    (value : BtusbData ι → i.Reply) (update : BtusbData ι → BtusbData ι)
    (runs : ∀ e, exec i e = some (value e, update e))
    (keeps : ∀ e, (update e).isocTxMutex = e.isocTxMutex)
    (next : ∀ e, Quiet d e → Inv e → e.isocTxMutex = some t → Safe t i e ∧ Inv (update e) ∧
      ((update e).isocTxMutex = some t → (contract t).Holds Q (k (value e)) (update e))) :
    (contract t).Holds Q (.act i k) d := by
  apply Contract.Holds.of_act
  intro e relies inv
  have quiet := relies.held held
  have still := quiet.isocTxMutex.trans held
  obtain ⟨safe, inv', rest⟩ := next e quiet inv still
  refine ⟨safe, fun r e' ran => ?_⟩
  obtain ⟨rfl, rfl⟩ := Prod.mk.inj (Option.some.inj ((runs e).symm.trans ran))
  have after := (keeps e).trans still
  refine ⟨inv', fun t' other => ⟨fun theirs => ?_, fun _ => ?_⟩, rest after⟩
  · rw [still] at theirs
    exact absurd (Option.some.inj theirs) other
  · rw [after]
    exact fun same => other (Option.some.inj same)

/-- A call of the holder that changes nothing. -/
theorem held_read {i : Action ι} {k : i.Reply → Routine ι α} (held : d.isocTxMutex = some t)
    (value : BtusbData ι → i.Reply) (runs : ∀ e, exec i e = some (value e, e))
    (safe : ∀ e, Quiet d e → Safe t i e)
    (next : ∀ e, Quiet d e → Inv e → e.isocTxMutex = some t →
      (contract t).Holds Q (k (value e)) e) :
    (contract t).Holds Q (.act i k) d :=
  held_act held value id runs (fun _ => rfl) fun e quiet inv _ =>
    ⟨safe e quiet, inv, next e quiet inv⟩

/-- The holder returns a value. -/
theorem held_ret {a : α} (held : d.isocTxMutex = some t)
    (post : ∀ e, Quiet d e → Inv e → e.isocTxMutex = some t → Q a e) :
    (contract t).Holds Q (.ret a) d := by
  apply Contract.Holds.of_ret
  intro e relies inv
  have quiet := relies.held held
  exact post e quiet inv (quiet.isocTxMutex.trans held)

/-- Taking the mutex: what follows starts from the invariant alone. -/
theorem lock_act {k : Unit → Routine ι α} (free : d.isocTxMutex ≠ some t)
    (next : ∀ e, Inv e → e.isocTxMutex = some t → (contract t).Holds Q (k ()) e) :
    (contract t).Holds Q (.act (.mutexLock t) k) d := by
  apply Contract.Holds.of_act
  intro e relies inv
  refine ⟨⟨rfl, relies.free free⟩, fun r e' ran => ?_⟩
  simp only [contract, exec] at ran
  split at ran
  case h_2 => cases ran
  case h_1 unlocked =>
    obtain ⟨rfl, rfl⟩ := Prod.mk.inj (Option.some.inj ran)
    have inv' : Inv { e with isocTxMutex := some t } := inv.congr rfl rfl rfl rfl id
    refine ⟨inv', fun t' other => ⟨fun theirs => ?_, fun _ => ?_⟩, next _ inv' rfl⟩
    · rw [unlocked] at theirs
      cases theirs
    · exact fun same => other (Option.some.inj same)

/-- Giving the mutex back ends a body. -/
theorem unlock_act {k : Unit → Routine ι α} (held : d.isocTxMutex = some t)
    (next : ∀ e, e.isocTxMutex ≠ some t → (contract t).Holds Q (k ()) e) :
    (contract t).Holds Q (.act (.mutexUnlock t) k) d := by
  apply Contract.Holds.of_act
  intro e relies inv
  have still := (relies.held held).isocTxMutex.trans held
  refine ⟨⟨rfl, still⟩, fun r e' ran => ?_⟩
  obtain ⟨rfl, rfl⟩ := Prod.mk.inj (Option.some.inj ran)
  have inv' : Inv { e with isocTxMutex := (none : Option ι) } := inv.congr rfl rfl rfl rfl id
  refine ⟨inv', fun t' other => ⟨fun theirs => ?_, fun _ => by simp⟩, next _ (by simp)⟩
  rw [still] at theirs
  exact absurd (Option.some.inj theirs) other

end Rules

/-! ### Calls on URBs -/

/-- `usb_kill_anchored_urbs` on the SCO TX anchor: URBs in flight are anchored. -/
theorem Inv.drained_kill (inv : Inv d) : Drained { d with urbs := d.urbs.map Urb.kill } := by
  intro urb' mem
  obtain ⟨urb, there, rfl⟩ := List.mem_map.mp mem
  unfold Urb.kill
  split
  · rfl
  · rename_i loose
    by_contra flying
    exact loose (inv.current urb there (by simpa using flying)).anchored

/-- Where nothing is in flight, only the parking is left of the invariant. -/
theorem Inv.of_drained (drained : Drained d) (parked : d.parked = true → d.running = false) :
    Inv d :=
  ⟨fun urb mem flying => absurd flying (by simp [drained urb mem]),
    fun rest => ⟨parked rest, drained⟩⟩

theorem Inv.kill (inv : Inv d) : Inv { d with urbs := d.urbs.map Urb.kill } :=
  .of_drained inv.drained_kill fun rest => (inv.parked rest).1

/-- Changing one URB keeps the invariant if the changed URB does. -/
theorem Inv.modify {i : Nat} {f : Urb → Urb} (inv : Inv d) (going : d.parked = false)
    (changed : ∀ urb, d.urbs[i]? = some urb → (f urb).inFlight = true → (f urb).Current d) :
    Inv { d with urbs := d.urbs.modify i f } := by
  refine ⟨fun urb' mem flying => ?_, fun rest => by simp [going] at rest⟩
  obtain ⟨j, is⟩ := List.mem_iff_getElem?.mp mem
  simp only [List.getElem?_modify] at is
  obtain ⟨urb, is₀, rfl⟩ := Option.map_eq_some_iff.mp is
  by_cases same : i = j
  · subst same
    simp only [if_pos] at flying ⊢
    obtain ⟨anchored, altsetting, selection⟩ := changed urb is₀ flying
    exact ⟨anchored, altsetting, selection⟩
  · simp only [if_neg same] at flying ⊢
    obtain ⟨anchored, altsetting, selection⟩ :=
      inv.current urb (List.mem_iff_getElem?.mpr ⟨j, is₀⟩) flying
    exact ⟨anchored, altsetting, selection⟩

theorem getElem?_modify_self {urbs : List Urb} {i : Nat} {urb : Urb} {f : Urb → Urb}
    (is : urbs[i]? = some urb) : (urbs.modify i f)[i]? = some (f urb) := by
  simp [is]

/-- Building a URB adds one that is not in flight. -/
theorem Inv.alloc (inv : Inv d) :
    Inv { d with urbs := d.urbs ++ [⟨d.selected, d.selections, false, false⟩] } := by
  have old (urb : Urb) (mem : urb ∈ d.urbs ++ [⟨d.selected, d.selections, false, false⟩]) :
      urb ∈ d.urbs ∨ urb.inFlight = false := by
    rcases List.mem_append.mp mem with there | new
    · exact .inl there
    · exact .inr (by rw [List.mem_singleton.mp new])
  constructor
  · intro urb mem flying
    rcases old urb mem with there | grounded
    · have current := inv.current urb there flying
      exact ⟨current.anchored, current.altsetting, current.selection⟩
    · rw [grounded] at flying
      cases flying
  · intro rest
    obtain ⟨stopped, drained⟩ := inv.parked rest
    exact ⟨stopped, fun urb mem => (old urb mem).elim (drained urb) id⟩

/-! ### Bodies -/

/-- Transmission is off and nothing is in flight. -/
def Stopped (d : BtusbData ι) : Prop := d.running = false ∧ Drained d

theorem Stopped.quiet (stopped : Stopped d) (quiet : Quiet d d') : Stopped d' :=
  ⟨quiet.running.trans stopped.1, stopped.2.quiet quiet⟩

/-- Anchoring and submitting a new URB. Until it is in flight, nobody else touches
it. -/
theorem submit_built {i : Nat} (held : d.isocTxMutex = some t) (running : d.running = true)
    (going : d.parked = false) (built : d.urbs[i]? = some ⟨d.selected, d.selections, false, false⟩)
    (submit : Int) :
    (contract t).Holds (fun _ e => e.isocTxMutex = some t) (do
      call (.anchorUrb i)
      let err ← call (.submitUrb i submit)
      if err < 0 then
        call (.unanchorUrb i)
        return err
      else return err) d := by
  simp only [call, Prog.perform_bind]
  apply held_act held (fun _ => ())
    (fun e => { e with urbs := e.urbs.modify i fun urb => { urb with anchored := true } })
    (fun _ => rfl) (fun _ => rfl)
  intro e₁ quiet₁ inv₁ _
  have going₁ := quiet₁.parked.trans going
  have running₁ := quiet₁.running.trans running
  have built₁ := quiet₁.grounded built rfl
  have anchored₁ := getElem?_modify_self (f := fun urb => { urb with anchored := true }) built₁
  refine ⟨trivial, inv₁.modify going₁ fun urb is flying => ?_, fun held₁ => ?_⟩
  · rw [built₁] at is
    obtain rfl := Option.some.inj is
    cases flying
  by_cases fails : submit < 0
  · apply held_read (i := .submitUrb i submit) held₁ (fun _ => submit)
      (fun e => by simp [exec, fails])
      (fun e quiet => ⟨quiet.running.trans running₁, quiet.isocTxMutex.trans held₁⟩)
    intro e₂ quiet₂ _ held₂
    simp only [fails, if_true]
    apply held_act held₂ (fun _ => ())
      (fun e => { e with urbs := e.urbs.modify i fun urb => { urb with anchored := false } })
      (fun _ => rfl) (fun _ => rfl)
    intro e₃ quiet₃ inv₃ _
    have grounded₃ := quiet₃.grounded (quiet₂.grounded anchored₁ rfl) rfl
    have going₃ := quiet₃.parked.trans (quiet₂.parked.trans going₁)
    refine ⟨trivial, inv₃.modify going₃ fun urb is flying => ?_,
      fun held₃ => held_ret held₃ fun e _ _ still => still⟩
    rw [grounded₃] at is
    obtain rfl := Option.some.inj is
    cases flying
  · apply held_act (i := .submitUrb i submit) held₁ (fun _ => submit)
      (fun e => { e with urbs := e.urbs.modify i fun urb => { urb with inFlight := true } })
      (fun e => by simp [exec, fails]) (fun _ => rfl)
    intro e₂ quiet₂ inv₂ held₂
    have grounded₂ := quiet₂.grounded anchored₁ rfl
    have going₂ := quiet₂.parked.trans going₁
    refine ⟨⟨quiet₂.running.trans running₁, held₂⟩, inv₂.modify going₂ fun urb is _ => ?_, ?_⟩
    · rw [grounded₂] at is
      obtain rfl := Option.some.inj is
      exact ⟨rfl, (quiet₂.selected.trans quiet₁.selected).symm,
        (quiet₂.selections.trans quiet₁.selections).symm⟩
    · intro held₃
      simp only [fails, if_false]
      exact held_ret held₃ fun e _ _ still => still

theorem submitLocked_keeps (held : d.isocTxMutex = some t) (alloc submit : Int) :
    (contract t).Holds (fun _ e => e.isocTxMutex = some t) (submitLocked alloc submit) d := by
  unfold submitLocked
  simp only [call, Prog.perform_bind]
  apply held_read (i := .testRunning) held (fun e => e.running) (fun _ => rfl) (fun _ _ => trivial)
  intro e₁ _ inv₁ held₁
  cases running₁ : e₁.running with
  | false => exact held_ret held₁ fun e _ _ still => still
  | true =>
      have going₁ : e₁.parked = false := by
        by_contra rest
        rw [(inv₁.parked (by simpa using rest)).1] at running₁
        cases running₁
      simp only [if_true]
      by_cases fails : alloc < 0
      · apply held_read (i := .allocIsocUrb alloc) held₁ (fun _ => .error alloc)
          (fun e => by simp [exec, fails]) (fun _ _ => trivial)
        intro e₂ _ _ held₂
        exact held_ret held₂ fun e _ _ still => still
      · apply held_act (i := .allocIsocUrb alloc) held₁ (fun e => .ok e.urbs.length)
          (fun e => { e with urbs := e.urbs ++ [⟨e.selected, e.selections, false, false⟩] })
          (fun e => by simp [exec, fails]) (fun _ => rfl)
        intro e₂ quiet₂ inv₂ _
        refine ⟨trivial, inv₂.alloc, fun held₂ => ?_⟩
        exact submit_built held₂ (quiet₂.running.trans running₁) (quiet₂.parked.trans going₁)
          (by simp) submit

/-- Clearing the flag and killing both anchors. -/
theorem stop_keeps {α : Type} {Q : α → BtusbData ι → Prop} {rest : Routine ι α}
    (held : d.isocTxMutex = some t)
    (next : ∀ e, e.isocTxMutex = some t → Stopped e → e.parked = d.parked →
      (contract t).Holds Q rest e) :
    (contract t).Holds Q (do
      call .clearRunning
      call (.killAnchoredUrbs .isocAnchor)
      call (.killAnchoredUrbs .isocTxAnchor)
      rest) d := by
  simp only [call, Prog.perform_bind]
  apply held_act held (fun _ => ()) (fun e => { e with running := false }) (fun _ => rfl)
    (fun _ => rfl)
  intro e₁ quiet₁ inv₁ _
  refine ⟨trivial, inv₁.congr rfl rfl rfl rfl (fun off => by cases off), fun held₁ => ?_⟩
  apply held_read (i := .killAnchoredUrbs .isocAnchor) held₁ (fun _ => ()) (fun _ => rfl)
    (fun _ _ => trivial)
  intro e₂ quiet₂ _ held₂
  apply held_act held₂ (fun _ => ()) (fun e => { e with urbs := e.urbs.map Urb.kill })
    (fun _ => rfl) (fun _ => rfl)
  intro e₃ quiet₃ inv₃ _
  refine ⟨trivial, inv₃.kill, fun held₃ => next _ held₃ ⟨?_, inv₃.drained_kill⟩ ?_⟩
  · exact (quiet₂.trans quiet₃).running
  · exact (quiet₂.trans quiet₃).parked.trans quiet₁.parked

/-- A switch under way: the mutex is held and the setting counts as left. -/
structure Switching (t : ι) (d : BtusbData ι) : Prop where
  held : d.isocTxMutex = some t
  going : d.parked = false

theorem Switching.quiet (switching : Switching t d) (quiet : Quiet d d') : Switching t d' :=
  ⟨quiet.isocTxMutex.trans switching.held, quiet.parked.trans switching.going⟩

/-- The setting changes only where nothing is in flight. -/
theorem setIsocInterface_keeps (switching : Switching t d) (stopped : Stopped d)
    (altsetting : Nat) (result : Int) (found : Bool) :
    (contract t).Holds (fun _ e => Switching t e ∧ Stopped e)
      (setIsocInterface altsetting result found) d := by
  have done {e : BtusbData ι} (err : Int) (switching : Switching t e) (stopped : Stopped e) :
      (contract t).Holds (fun _ e => Switching t e ∧ Stopped e) (.ret err) e :=
    held_ret switching.held fun e quiet _ _ => ⟨switching.quiet quiet, stopped.quiet quiet⟩
  unfold setIsocInterface
  simp only [call, Prog.perform_bind]
  by_cases fails : result < 0
  · apply held_read (i := .setInterface altsetting result) switching.held (fun _ => result)
      (fun e => by simp [exec, fails]) (fun _ _ => trivial)
    intro e₁ quiet₁ _ _
    simp only [fails, if_true]
    exact done result (switching.quiet quiet₁) (stopped.quiet quiet₁)
  · apply held_act (i := .setInterface altsetting result) switching.held (fun _ => result)
      (fun e => { e with selected := altsetting, selections := e.selections + 1 })
      (fun e => by simp [exec, fails]) (fun _ => rfl)
    intro e₁ quiet₁ _ _
    have going₁ := quiet₁.parked.trans switching.going
    obtain ⟨off₁, drained₁⟩ := stopped.quiet quiet₁
    have stopped₁ : Stopped { e₁ with selected := altsetting, selections := e₁.selections + 1 } :=
      ⟨off₁, drained₁⟩
    refine ⟨trivial, .of_drained stopped₁.2 fun _ => stopped₁.1, fun held₁ => ?_⟩
    simp only [fails, if_false]
    apply held_act held₁ (fun _ => ())
      (fun e => { e with isocAltsetting := altsetting, endpoints := found }) (fun _ => rfl)
      (fun _ => rfl)
    intro e₂ quiet₂ inv₂ _
    have stopped₂ := stopped₁.quiet quiet₂
    refine ⟨trivial, inv₂.congr rfl rfl rfl rfl id, fun held₂ => ?_⟩
    have switching₂ : Switching t { e₂ with isocAltsetting := altsetting, endpoints := found } :=
      ⟨held₂, quiet₂.parked.trans going₁⟩
    by_cases zero : altsetting = 0
    · simp only [zero, if_true]
      exact done 0 ⟨switching₂.held, switching₂.going⟩ stopped₂
    · cases found with
      | true =>
          simp only [zero, if_true, if_false]
          exact done 0 switching₂ stopped₂
      | false =>
          simp only [zero, if_false, Bool.false_eq_true]
          exact done eNODEV switching₂ stopped₂

/-- What holds at the end of a switch. -/
def Switched (t : ι) (newAlts : Nat) (d : BtusbData ι) : Prop :=
  Switching t d ∧ (newAlts = 0 → Stopped d)

theorem Switched.quiet {newAlts : Nat} (switched : Switched t newAlts d) (quiet : Quiet d d') :
    Switched t newAlts d' :=
  ⟨switched.1.quiet quiet, fun zero => (switched.2 zero).quiet quiet⟩

theorem switched_ret {newAlts : Nat} (err : Int) (switched : Switched t newAlts d) :
    (contract t).Holds (fun _ => Switched t newAlts) (.ret err) d :=
  held_ret switched.1.held fun _ quiet _ _ => switched.quiet quiet

theorem startIsoc_keeps (switching : Switching t d) (newAlts : Nat) (rx : Int) :
    (contract t).Holds (fun _ => Switched t newAlts) (startIsoc newAlts rx) d := by
  unfold startIsoc
  by_cases zero : newAlts = 0
  · simp only [zero, if_true]
    apply stop_keeps switching.held
    intro e held stopped parked
    exact switched_ret 0 ⟨⟨held, parked.trans switching.going⟩, fun _ => stopped⟩
  · have done {e : BtusbData ι} (switching : Switching t e) :
        (contract t).Holds (fun _ => Switched t newAlts) (.ret (0 : Int)) e :=
      switched_ret 0 ⟨switching, fun is => absurd is zero⟩
    simp only [zero, if_false, call, Prog.perform_bind]
    apply held_act switching.held (fun e => e.running) (fun e => { e with running := true })
      (fun _ => rfl) (fun _ => rfl)
    intro e₁ quiet₁ inv₁ _
    have going₁ := quiet₁.parked.trans switching.going
    refine ⟨trivial, ⟨fun urb mem flying => ?_, fun rest => ?_⟩, fun held₁ => ?_⟩
    · obtain ⟨anchored, altsetting, selection⟩ := inv₁.current urb mem flying
      exact ⟨anchored, altsetting, selection⟩
    · rw [show e₁.parked = true from rest] at going₁
      cases going₁
    have switching₁ : Switching t { e₁ with running := true } := ⟨held₁, going₁⟩
    cases e₁.running with
    | true => exact done switching₁
    | false =>
        simp only [Bool.false_eq_true, if_false]
        apply held_read (i := .submitIsocUrb rx) held₁ (fun _ => rx) (fun _ => rfl)
          (fun _ _ => trivial)
        intro e₂ quiet₂ _ _
        have switching₂ := switching₁.quiet quiet₂
        by_cases fails : rx < 0
        · simp only [fails, if_true]
          apply held_act switching₂.held (fun _ => ()) (fun e => { e with running := false })
            (fun _ => rfl) (fun _ => rfl)
          intro e₃ quiet₃ inv₃ _
          exact ⟨trivial, inv₃.congr rfl rfl rfl rfl (fun off => by cases off),
            fun held₃ => done ⟨held₃, (switching₂.quiet quiet₃).going⟩⟩
        · simp only [fails, if_false]
          apply held_read (i := .submitIsocUrb rx) switching₂.held (fun _ => rx) (fun _ => rfl)
            (fun _ _ => trivial)
          intro e₃ quiet₃ _ _
          exact done (switching₂.quiet quiet₃)

theorem switchLocked_keeps (switching : Switching t d) (newAlts : Nat) (result : Int)
    (found : Bool) (rx : Int) :
    (contract t).Holds (fun _ => Switched t newAlts) (switchLocked newAlts result found rx) d := by
  unfold switchLocked
  simp only [call, Prog.perform_bind]
  apply held_read (i := .readAltsetting) switching.held (fun e => e.isocAltsetting) (fun _ => rfl)
    (fun _ _ => trivial)
  intro e₁ quiet₁ _ _
  have switching₁ := switching.quiet quiet₁
  by_cases same : e₁.isocAltsetting = newAlts
  · simp only [same, if_true]
    exact startIsoc_keeps switching₁ newAlts rx
  · simp only [same, if_false]
    apply stop_keeps switching₁.held
    intro e₂ held₂ stopped₂ parked₂
    have switching₂ : Switching t e₂ := ⟨held₂, parked₂.trans switching₁.going⟩
    apply (setIsocInterface_keeps switching₂ stopped₂ newAlts result found).bind
    rintro err e₃ - ⟨switching₃, stopped₃⟩
    by_cases fails : err < 0
    · simp only [fails, if_true]
      exact switched_ret err ⟨switching₃, fun _ => stopped₃⟩
    · simp only [fails, if_false]
      exact startIsoc_keeps switching₃ newAlts rx

/-! ### Threads -/

/-- Between two bodies a thread does not hold the mutex. -/
def Rests (t : ι) (_ : Unit) (d : BtusbData ι) : Prop := d.isocTxMutex ≠ some t

theorem rests (free : d.isocTxMutex ≠ some t) :
    (contract t).Holds (Rests t) (.ret ()) d :=
  .of_ret fun _ relies _ => relies.free free

theorem submitIsocTxUrb_keeps (free : d.isocTxMutex ≠ some t) (alloc submit : Int) :
    (contract t).Holds (Rests t) (do let _ ← submitIsocTxUrb t alloc submit) d := by
  unfold submitIsocTxUrb
  simp only [call, Prog.perform_bind, Prog.act_bind]
  apply lock_act free
  intro e _ held
  apply ((submitLocked_keeps held alloc submit).bind _).bind
  · exact fun _ e _ free => rests free
  · intro _ e₁ _ held₁
    apply unlock_act held₁
    exact fun e₂ free₂ => .of_ret fun _ relies _ => relies.free free₂

theorem switchAltSetting_keeps (free : d.isocTxMutex ≠ some t) (newAlts : Nat) (result : Int)
    (found : Bool) (rx : Int) :
    (contract t).Holds (Rests t) (do let _ ← switchAltSetting t newAlts result found rx) d := by
  unfold switchAltSetting
  simp only [call, Prog.perform_bind, Prog.act_bind]
  apply lock_act free
  intro e _ held
  apply held_act held (fun _ => ()) (fun e => { e with parked := false }) (fun _ => rfl)
    (fun _ => rfl)
  intro e₁ _ inv₁ _
  refine ⟨trivial, ⟨fun urb mem flying => ?_, fun rest => by cases rest⟩, fun held₁ => ?_⟩
  · obtain ⟨anchored, altsetting, selection⟩ := inv₁.current urb mem flying
    exact ⟨anchored, altsetting, selection⟩
  apply ((switchLocked_keeps ⟨held₁, rfl⟩ newAlts result found rx).bind _).bind
  · exact fun _ e _ free => rests free
  · rintro _ e₂ - ⟨switching₂, stopped₂⟩
    apply held_act switching₂.held (fun _ => ()) (fun e => { e with parked := newAlts == 0 })
      (fun _ => rfl) (fun _ => rfl)
    intro e₃ quiet₃ inv₃ _
    refine ⟨trivial, ⟨fun urb mem flying => ?_, fun rest => ?_⟩, fun held₃ => ?_⟩
    · obtain ⟨anchored, altsetting, selection⟩ := inv₃.current urb mem flying
      exact ⟨anchored, altsetting, selection⟩
    · obtain ⟨off₃, drained₃⟩ := (stopped₂ (by simpa using rest)).quiet quiet₃
      exact ⟨off₃, drained₃⟩
    · apply unlock_act held₃
      exact fun e₄ free₄ => .of_ret fun _ relies _ => relies.free free₄

theorem killIsocTx_keeps (free : d.isocTxMutex ≠ some t) :
    (contract t).Holds (Rests t) (killIsocTx t) d := by
  unfold killIsocTx
  simp only [call, Prog.perform_bind]
  apply lock_act free
  intro e _ held
  apply held_act held (fun _ => ()) (fun e => { e with urbs := e.urbs.map Urb.kill }) (fun _ => rfl)
    (fun _ => rfl)
  intro e₁ _ inv₁ _
  refine ⟨trivial, inv₁.kill, fun held₁ => ?_⟩
  apply unlock_act held₁
  exact fun e₂ free₂ => rests free₂

/-- A call outside the mutex that leaves the mutex and, while another thread holds
it, everything else alone. -/
theorem free_act {i : Action ι} {k : i.Reply → Routine ι Unit} (free : d.isocTxMutex ≠ some t)
    (safe : ∀ e, Safe t i e)
    (runs : ∀ e r e', exec i e = some (r, e') → e'.isocTxMutex = e.isocTxMutex ∧
      (Inv e → Inv e') ∧ (e.isocTxMutex ≠ none → e' = e))
    (next : ∀ r e, e.isocTxMutex ≠ some t → (contract t).Holds (Rests t) (k r) e) :
    (contract t).Holds (Rests t) (.act i k) d := by
  apply Contract.Holds.of_act
  intro e relies inv
  refine ⟨safe e, fun r e' ran => ?_⟩
  obtain ⟨mutex, keeps, theirs⟩ := runs e r e' ran
  have still := relies.free free
  refine ⟨keeps inv, fun t' _ => ⟨fun held => ?_, fun away => mutex ▸ away⟩,
    next r e' (mutex ▸ still)⟩
  rw [theirs (by simp [held])]
  exact .refl e

theorem offers {p : Routine ι Unit} (free : d.isocTxMutex ≠ some t) (offered : Menu t () p) :
    (contract t).Holds (Rests t) p d := by
  cases offered with
  | sendFrame links alloc submit =>
      unfold sendFrame
      by_cases none : links < 1
      · simp only [none, if_true]
        exact rests free
      · simp only [none, if_false]
        exact submitIsocTxUrb_keeps free alloc submit
  | switchAltSetting newAlts result found rx =>
      exact switchAltSetting_keeps free newAlts result found rx
  | stopTraffic =>
      apply free_act (i := .killAnchoredUrbs .isocAnchor) free (fun _ => trivial)
      · rintro e r e' ran
        obtain ⟨rfl, rfl⟩ := Prod.mk.inj (Option.some.inj ran)
        exact ⟨rfl, id, fun _ => rfl⟩
      · exact fun _ e free => killIsocTx_keeps free
  | flush => exact killIsocTx_keeps free
  | clearRunningOutside =>
      apply free_act (i := .clearRunningOutside) free (fun _ => trivial)
      · intro e r e' ran
        simp only [exec] at ran
        split at ran
        case h_1 unlocked =>
          obtain ⟨rfl, rfl⟩ := Prod.mk.inj (Option.some.inj ran)
          exact ⟨rfl, fun inv => inv.congr rfl rfl rfl rfl (fun off => by cases off),
            fun locked => absurd unlocked locked⟩
        case h_2 => cases ran
      · exact fun _ e free => rests free

/-- In every interleaving every thread keeps its contract. -/
theorem reaches_contracts [DecidableEq ι]
    {c : Many (Action ι) Action.Reply ι Unit (BtusbData ι)} (reached : Reaches c) :
    Inv c.shared ∧ ∀ t, (contract t).Holds (Rests t) (c.threads t) c.shared := by
  refine many_invariant contract (fun _ => rfl) (fun _ => rfl)
    (fun t t' d d' other guar => guar t' other) (fun t _ p d _ free offered => offers free offered)
    ?_ reached ?_ ?_
  · intro d d' inv completes
    have quiet := completes.quiet
    exact ⟨inv.quiet quiet, fun t => ⟨fun _ => quiet, fun free => quiet.isocTxMutex ▸ free⟩⟩
  · exact .of_drained (fun urb mem => absurd mem List.not_mem_nil) fun parked => by cases parked
  · exact fun t => rests (by simp [BtusbData.probed])

/-- SCO transmission never outlives its alternate setting: every URB in flight was
constructed under the selection in force, none is in flight from the end of a
switch to setting 0 until the next switch, and none is submitted while
`BTUSB_ISOC_RUNNING` is clear. -/
theorem transmits_within_altsetting [DecidableEq ι]
    {c : Many (Action ι) Action.Reply ι Unit (BtusbData ι)} (reached : Reaches c) :
    (∀ urb ∈ c.shared.urbs, urb.inFlight = true →
      urb.altsetting = c.shared.selected ∧ urb.selection = c.shared.selections) ∧
    (c.shared.parked = true → ∀ urb ∈ c.shared.urbs, urb.inFlight = false) ∧
    ∀ t urb result k, c.threads t = .act (.submitUrb urb result) k → c.shared.running = true := by
  obtain ⟨inv, holds⟩ := reaches_contracts reached
  refine ⟨fun urb mem flying => ?_, fun parked => (inv.parked parked).2, ?_⟩
  · have current := inv.current urb mem flying
    exact ⟨current.altsetting, current.selection⟩
  · intro t urb result k is
    have held := holds t
    rw [is] at held
    exact (held.act inv).1.1

/-- The driver after a switch to setting 2 and one SCO frame. -/
def oneFrame : BtusbData Unit := ⟨none, true, 2, true, 2, 1, [⟨2, 1, true, true⟩], false⟩

theorem reaches_oneFrame : Reaches ⟨Function.update (fun _ => .ret ()) () (.ret ()), oneFrame⟩ := by
  have switched : (do let _ ← switchAltSetting () 2 0 true 0 : Routine Unit Unit).run exec .probed =
      some ((), ⟨none, true, 2, true, 2, 1, [], false⟩) := rfl
  have sent : (do let _ ← sendFrame () 1 0 0 : Routine Unit Unit).run exec
      ⟨none, true, 2, true, 2, 1, [], false⟩ = some ((), oneFrame) := rfl
  unfold Reaches
  refine .head (.start () rfl (.switchAltSetting 2 0 true 0)) ((many_run () switched).trans ?_)
  refine .head (.start () (Function.update_self ..) (.sendFrame 1 0 0)) ?_
  rw [Function.update_idem]
  exact many_run () sent

theorem transmits_within_altsetting_one_frame :
    ∃ c : Many (Action Unit) Action.Reply Unit Unit (BtusbData Unit), Reaches c ∧
      c.shared.urbs.map (·.inFlight) = [true] ∧
      ∀ urb ∈ c.shared.urbs, urb.inFlight = true →
        urb.altsetting = c.shared.selected ∧ urb.selection = c.shared.selections :=
  ⟨_, reaches_oneFrame, rfl, (transmits_within_altsetting reaches_oneFrame).1⟩

end Dorsche.Kernel.Btusb
