import Mathlib.Data.List.Nodup
import Mathlib.Data.List.Perm.Basic

/-!
Tables of handles that are used again.

A table hands out the lowest free handle, as a process does with its file
descriptors. Behind a handle stands an instance, which is never used again; the
table keeps the instances that were released. Releasing a handle twice hits
whatever instance stands behind it by then, or is counted as a stray.

`Accounts t owned` says that the owned handles are exactly the open ones, each
owned once, and that every instance ever handed out is open or was released,
once. Acquiring adds a handle to the owned ones and releasing an owned handle
takes it away.
-/

namespace Dorsche.Lib

structure Table where
  slots : List (Option Nat)
  /-- How many instances were handed out. -/
  opened : Nat
  released : List Nat
  /-- Releases of handles that were not open. -/
  strays : Nat
deriving DecidableEq, Repr

namespace Table

def empty : Table := ⟨[], 0, [], 0⟩

/-- The instance behind a handle. -/
def find (t : Table) (handle : Nat) : Option Nat := t.slots[handle]?.join

def lowest (t : Table) : Nat := t.slots.findIdx (·.isNone)

def acquire (t : Table) : Nat × Table :=
  (t.lowest,
    { t with
      slots := if t.lowest < t.slots.length then t.slots.set t.lowest (some t.opened)
        else t.slots ++ [some t.opened]
      opened := t.opened + 1 })

def release (t : Table) (handle : Nat) : Table :=
  match t.find handle with
  | some i => { t with slots := t.slots.set handle none, released := t.released ++ [i] }
  | none => { t with strays := t.strays + 1 }

variable {t : Table} {owned owned' : List Nat} {handle other : Nat}

theorem find_lowest (t : Table) : t.find t.lowest = none := by
  unfold find
  by_cases inside : t.lowest < t.slots.length
  · have free := List.findIdx_getElem (w := inside)
    rw [List.getElem?_eq_getElem inside]
    exact Option.isNone_iff_eq_none.mp free
  · rw [List.getElem?_eq_none (by omega)]
    rfl

theorem lowest_le (t : Table) : t.lowest ≤ t.slots.length := List.findIdx_le_length

theorem find_acquire (t : Table) (other : Nat) :
    t.acquire.2.find other = if other = t.lowest then some t.opened else t.find other := by
  have le := t.lowest_le
  unfold acquire find
  by_cases inside : t.lowest < t.slots.length
  · rw [if_pos inside, List.getElem?_set]
    by_cases same : other = t.lowest
    · rw [if_pos same.symm, if_pos inside, if_pos same]
      rfl
    · rw [if_neg (Ne.symm same), if_neg same]
  · have last : t.lowest = t.slots.length := by omega
    rw [if_neg inside, last]
    by_cases same : other = t.slots.length
    · rw [if_pos same, same, List.getElem?_concat_length]
      rfl
    · rw [if_neg same]
      by_cases below : other < t.slots.length
      · rw [List.getElem?_append_left below]
      · have beyond : (t.slots ++ [some t.opened]).length ≤ other := by
          rw [List.length_append, List.length_singleton]
          omega
        rw [List.getElem?_eq_none beyond, List.getElem?_eq_none (by omega)]

theorem find_release {i : Nat} (isOpen : t.find handle = some i) (other : Nat) :
    (t.release handle).find other = if other = handle then none else t.find other := by
  unfold release
  rw [isOpen]
  unfold find
  simp only [List.getElem?_set]
  by_cases same : other = handle
  · subst same
    by_cases inside : other < t.slots.length
    · simp [inside]
    · simp [inside]
  · simp [same, Ne.symm same]

/-- The books of a table balance: handles are owned exactly while they are open,
by one owner, and an instance is open or released, once. -/
structure Accounts (t : Table) (owned : List Nat) : Prop where
  nodup : owned.Nodup
  mem_iff : ∀ handle, handle ∈ owned ↔ (t.find handle).isSome
  inj : ∀ handle other i, t.find handle = some i → t.find other = some i → handle = other
  lt : ∀ handle i, t.find handle = some i → i < t.opened
  released_nodup : t.released.Nodup
  released_lt : ∀ i ∈ t.released, i < t.opened
  apart : ∀ handle i, t.find handle = some i → i ∉ t.released
  cover : ∀ i < t.opened, (∃ handle, t.find handle = some i) ∨ i ∈ t.released
  strays : t.strays = 0

theorem Accounts.empty : Accounts .empty [] where
  nodup := List.nodup_nil
  mem_iff := fun handle => by simp [find, Table.empty]
  inj := fun handle other i is => by simp [find, Table.empty] at is
  lt := fun handle i is => by simp [find, Table.empty] at is
  released_nodup := List.nodup_nil
  released_lt := fun i mem => absurd mem List.not_mem_nil
  apart := fun handle i _ => List.not_mem_nil
  cover := fun i lt => absurd lt (Nat.not_lt_zero i)
  strays := rfl

/-- Who owns a handle does not matter to the table. -/
theorem Accounts.perm (accounts : Accounts t owned) (perm : owned.Perm owned') :
    Accounts t owned' :=
  { accounts with
    nodup := perm.nodup_iff.mp accounts.nodup
    mem_iff := fun handle => perm.mem_iff.symm.trans (accounts.mem_iff handle) }

theorem Accounts.acquire (accounts : Accounts t owned) :
    Accounts t.acquire.2 (t.acquire.1 :: owned) := by
  have free := t.find_lowest
  have fresh {i : Nat} {handle : Nat} (is : t.find handle = some i) : i ≠ t.opened :=
    Nat.ne_of_lt (accounts.lt handle i is)
  have cases {handle i : Nat} (is : t.acquire.2.find handle = some i) :
      handle = t.lowest ∧ i = t.opened ∨ handle ≠ t.lowest ∧ t.find handle = some i := by
    rw [find_acquire] at is
    by_cases same : handle = t.lowest
    · rw [if_pos same] at is
      exact .inl ⟨same, (Option.some.inj is).symm⟩
    · rw [if_neg same] at is
      exact .inr ⟨same, is⟩
  constructor
  case nodup =>
    refine List.nodup_cons.mpr ⟨fun mem => ?_, accounts.nodup⟩
    have := (accounts.mem_iff _).mp mem
    change (t.find t.lowest).isSome at this
    rw [free] at this
    cases this
  case mem_iff =>
    intro handle
    rw [find_acquire, List.mem_cons]
    change handle = t.lowest ∨ _ ↔ _
    by_cases same : handle = t.lowest
    · simp [same]
    · simp [same, accounts.mem_iff]
  case inj =>
    intro handle other i is is'
    rcases cases is with ⟨rfl, rfl⟩ | ⟨-, old⟩
    · rcases cases is' with ⟨rfl, -⟩ | ⟨-, old'⟩
      · rfl
      · exact absurd rfl (fresh old')
    · rcases cases is' with ⟨rfl, rfl⟩ | ⟨-, old'⟩
      · exact absurd rfl (fresh old)
      · exact accounts.inj handle other i old old'
  case lt =>
    intro handle i is
    rcases cases is with ⟨-, rfl⟩ | ⟨-, old⟩
    · exact Nat.lt_succ_self _
    · exact Nat.lt_succ_of_lt (accounts.lt handle i old)
  case released_nodup => exact accounts.released_nodup
  case released_lt => exact fun i mem => Nat.lt_succ_of_lt (accounts.released_lt i mem)
  case apart =>
    intro handle i is
    rcases cases is with ⟨-, rfl⟩ | ⟨-, old⟩
    · exact fun mem => absurd (accounts.released_lt _ mem) (Nat.lt_irrefl _)
    · exact accounts.apart handle i old
  case cover =>
    intro i lt
    rcases Nat.lt_succ_iff_lt_or_eq.mp lt with old | rfl
    · rcases accounts.cover i old with ⟨handle, is⟩ | gone
      · refine .inl ⟨handle, ?_⟩
        rw [find_acquire, if_neg, is]
        rintro rfl
        rw [free] at is
        cases is
      · exact .inr gone
    · exact .inl ⟨t.lowest, by rw [find_acquire, if_pos rfl]⟩
  case strays => exact accounts.strays

theorem Accounts.release (accounts : Accounts t (handle :: owned)) :
    Accounts (t.release handle) owned := by
  obtain ⟨i, isOpen⟩ := Option.isSome_iff_exists.mp
    ((accounts.mem_iff handle).mp List.mem_cons_self)
  have find := find_release isOpen
  obtain ⟨unowned, nodup⟩ := List.nodup_cons.mp accounts.nodup
  have old {other j : Nat} (is : (t.release handle).find other = some j) :
      other ≠ handle ∧ t.find other = some j := by
    rw [find] at is
    by_cases same : other = handle
    · rw [if_pos same] at is
      cases is
    · rw [if_neg same] at is
      exact ⟨same, is⟩
  have opened : (t.release handle).opened = t.opened := by
    unfold Table.release
    rw [isOpen]
  have released : (t.release handle).released = t.released ++ [i] := by
    unfold Table.release
    rw [isOpen]
  have strays : (t.release handle).strays = t.strays := by
    unfold Table.release
    rw [isOpen]
  constructor
  case nodup => exact nodup
  case mem_iff =>
    intro other
    rw [find]
    by_cases same : other = handle
    · subst same
      simp [unowned]
    · rw [if_neg same, ← accounts.mem_iff other, List.mem_cons, or_iff_right same]
  case inj =>
    exact fun first second j is is' => accounts.inj first second j (old is).2 (old is').2
  case lt =>
    intro other j is
    rw [opened]
    exact accounts.lt other j (old is).2
  case released_nodup =>
    rw [released]
    refine List.nodup_append.mpr ⟨accounts.released_nodup, List.nodup_singleton i, ?_⟩
    rintro j mem k last rfl
    rw [List.mem_singleton.mp last] at mem
    exact accounts.apart handle i isOpen mem
  case released_lt =>
    intro j mem
    rw [released] at mem
    rw [opened]
    rcases List.mem_append.mp mem with earlier | last
    · exact accounts.released_lt j earlier
    · rw [List.mem_singleton.mp last]
      exact accounts.lt handle i isOpen
  case apart =>
    intro other j is mem
    obtain ⟨away, still⟩ := old is
    rw [released] at mem
    rcases List.mem_append.mp mem with earlier | last
    · exact accounts.apart other j still earlier
    · obtain rfl := List.mem_singleton.mp last
      exact away (accounts.inj other handle j still isOpen)
  case cover =>
    intro j lt
    rw [opened] at lt
    rw [released]
    rcases accounts.cover j lt with ⟨other, is⟩ | gone
    · by_cases same : other = handle
      · subst same
        obtain rfl := Option.some.inj (is.symm.trans isOpen)
        exact .inr (List.mem_append_right _ (List.mem_singleton.mpr rfl))
      · exact .inl ⟨other, by rw [find, if_neg same, is]⟩
    · exact .inr (List.mem_append_left _ gone)
  case strays => exact strays.trans accounts.strays

/-- The fate of an instance: open behind one handle and never released, or behind
no handle and released once. -/
theorem Accounts.fate (accounts : Accounts t owned) {i : Nat} (lt : i < t.opened) :
    (∃ handle ∈ owned, t.find handle = some i ∧ t.released.count i = 0) ∨
      (∀ handle, t.find handle ≠ some i) ∧ t.released.count i = 1 := by
  rcases accounts.cover i lt with ⟨handle, is⟩ | gone
  · exact .inl ⟨handle, (accounts.mem_iff handle).mpr (by simp [is]), is,
      List.count_eq_zero.mpr (accounts.apart handle i is)⟩
  · exact .inr ⟨fun handle is => accounts.apart handle i is gone,
      List.count_eq_one_of_mem accounts.released_nodup gone⟩

end Table

end Dorsche.Lib
