import Mathlib.Logic.Function.Basic
import Dorsche.Lib.Ensure
import Dorsche.Lib.Handles

/-!
Owners of handles, and code that gives up what it owns on its way out.

A `Process` has a table of handles for each kind (descriptors, mappings), and
remembers what each instance is of. A `Holding` is a handle together with that, and
`Books p held` says that the held handles are exactly the open ones, each held
once, and stand for what their holders think.

`Scope` is code that returns early with an error. `Scope.orDrop` is a local that
owns a handle: the rest of the function keeps it if it succeeds, and the local
releases it otherwise. `Refines` compares such code with the plain computation of
its result and says what is held on either way out.
-/

namespace Dorsche.Lib

/-- Tables of handles by kind, and what the instances of each kind are of. -/
structure Process (κ ω : Type) where
  tables : κ → Table
  objects : κ → List ω

/-- A handle, and what it is thought to be of. -/
structure Holding (κ ω : Type) where
  kind : κ
  handle : Nat
  object : ω
deriving DecidableEq, Repr

namespace Process

variable {κ ω : Type} [DecidableEq κ]

def start : Process κ ω := ⟨fun _ => .empty, fun _ => []⟩

/-- What stands behind a handle. -/
def behind (p : Process κ ω) (kind : κ) (handle : Nat) : Option ω :=
  ((p.tables kind).find handle).bind fun i => (p.objects kind)[i]?

def acquire (p : Process κ ω) (kind : κ) (object : ω) : Nat × Process κ ω :=
  ((p.tables kind).acquire.1,
    { tables := Function.update p.tables kind (p.tables kind).acquire.2
      objects := Function.update p.objects kind (p.objects kind ++ [object]) })

def release (p : Process κ ω) (kind : κ) (handle : Nat) : Process κ ω :=
  { p with tables := Function.update p.tables kind ((p.tables kind).release handle) }

/-- The handles of one kind. -/
def handlesOf (kind : κ) (held : List (Holding κ ω)) : List Nat :=
  (held.filter (·.kind = kind)).map (·.handle)

/-- The held handles are the open ones, and stand for what they should. -/
structure Books (p : Process κ ω) (held : List (Holding κ ω)) : Prop where
  accounts : ∀ kind, (p.tables kind).Accounts (handlesOf kind held)
  counted : ∀ kind, (p.objects kind).length = (p.tables kind).opened
  behind : ∀ holding ∈ held, p.behind holding.kind holding.handle = some holding.object

variable {p : Process κ ω} {held held' : List (Holding κ ω)} {holding : Holding κ ω}

theorem Books.start : Books (.start : Process κ ω) [] :=
  ⟨fun _ => .empty, fun _ => rfl, fun _ mem => absurd mem List.not_mem_nil⟩

theorem Books.perm (books : Books p held) (perm : held.Perm held') : Books p held' where
  accounts := fun kind => (books.accounts kind).perm ((perm.filter _).map _)
  counted := books.counted
  behind := fun holding mem => books.behind holding (perm.mem_iff.mpr mem)

theorem handlesOf_cons (kind : κ) (holding : Holding κ ω) (held : List (Holding κ ω)) :
    handlesOf kind (holding :: held) =
      if holding.kind = kind then holding.handle :: handlesOf kind held
      else handlesOf kind held := by
  unfold handlesOf
  rw [List.filter_cons]
  split
  · rename_i same
    rw [if_pos (of_decide_eq_true same), List.map_cons]
  · rename_i other
    rw [if_neg fun same => other (decide_eq_true same)]

theorem behind_acquire (books : Books p held) (kind other : κ) (object : ω) (handle : Nat) :
    (p.acquire kind object).2.behind other handle =
      if other = kind ∧ handle = (p.acquire kind object).1 then some object
      else p.behind other handle := by
  have count := books.counted kind
  unfold Process.behind Process.acquire
  by_cases same : other = kind
  · subst same
    simp only [Function.update_self, Table.find_acquire, true_and]
    by_cases new : handle = (p.tables other).lowest
    · -- instances are numbered in the order of their objects
      have there : (p.objects other ++ [object])[(p.tables other).opened]? = some object := by
        rw [← count, List.getElem?_concat_length]
      rw [if_pos new, Option.bind_some, there]
      exact (if_pos new).symm
    · rw [if_neg new]
      refine Eq.trans ?_ (if_neg new).symm
      cases found : (p.tables other).find handle with
      | none => rfl
      | some i =>
          have old := (books.accounts other).lt handle i found
          rw [Option.bind_some, Option.bind_some, List.getElem?_append_left (by omega)]
  · simp only [Function.update_of_ne same, same, false_and, if_false]

/-- A new handle is held, and stands for what it was made for. -/
theorem Books.acquire (books : Books p held) (kind : κ) (object : ω) :
    Books (p.acquire kind object).2 (⟨kind, (p.acquire kind object).1, object⟩ :: held) := by
  refine ⟨fun other => ?_, fun other => ?_, fun holding mem => ?_⟩
  · rw [handlesOf_cons]
    by_cases same : kind = other
    · subst same
      simpa [Process.acquire] using (books.accounts kind).acquire
    · simpa [Process.acquire, same, Function.update_of_ne (Ne.symm same)] using
        books.accounts other
  · by_cases same : other = kind
    · subst same
      simpa [Process.acquire, Table.acquire] using books.counted other
    · simpa [Process.acquire, Function.update_of_ne same] using books.counted other
  · rw [behind_acquire books]
    rcases List.mem_cons.mp mem with rfl | old
    · exact if_pos ⟨rfl, rfl⟩
    · have before := books.behind holding old
      rw [if_neg, before]
      -- the lowest free handle is nobody's
      rintro ⟨same, new⟩
      rw [same, new] at before
      simp [Process.behind, Process.acquire, Table.acquire, Table.find_lowest] at before

/-- A handle that is given up by its holder. -/
theorem Books.release (books : Books p (holding :: held)) :
    Books (p.release holding.kind holding.handle) held := by
  have accounts : (p.tables holding.kind).Accounts
      (holding.handle :: handlesOf holding.kind held) := by
    simpa [handlesOf_cons] using books.accounts holding.kind
  obtain ⟨i, isOpen⟩ := Option.isSome_iff_exists.mp
    ((accounts.mem_iff holding.handle).mp List.mem_cons_self)
  refine ⟨fun other => ?_, fun other => ?_, fun kept mem => ?_⟩
  · by_cases same : other = holding.kind
    · subst same
      simpa [Process.release] using accounts.release
    · have before := books.accounts other
      rw [handlesOf_cons, if_neg (Ne.symm same)] at before
      simpa [Process.release, Function.update_of_ne same] using before
  · by_cases same : other = holding.kind
    · subst same
      simpa [Process.release, Table.release, isOpen] using books.counted holding.kind
    · simpa [Process.release, Function.update_of_ne same] using books.counted other
  · have before := books.behind kept (List.mem_cons_of_mem _ mem)
    unfold Process.behind at before ⊢
    by_cases same : kept.kind = holding.kind
    · rw [same] at before ⊢
      simp only [Process.release, Function.update_self]
      rw [Table.find_release isOpen, if_neg, before]
      -- another holder of the same handle would be a second owner
      intro twice
      have owned : kept.handle ∈ handlesOf holding.kind held :=
        List.mem_map.mpr ⟨kept, List.mem_filter.mpr ⟨mem, decide_eq_true same⟩, rfl⟩
      rw [twice] at owned
      exact (List.nodup_cons.mp accounts.nodup).1 owned
    · simpa [Process.release, Function.update_of_ne same] using before

end Process

/-! ### Early returns -/

/-- Code that opens and closes handles and may return early. -/
abbrev Scope (κ ω α : Type) := ExceptT String (StateM (Process κ ω)) α

namespace Scope

variable {κ ω : Type} [DecidableEq κ] {α β : Type}

/-- A result and the process after it. -/
def outcome (code : Scope κ ω α) (p : Process κ ω) : Result α × Process κ ω :=
  (code.run).run p

/-- A call that makes a handle. -/
def make (kind : κ) (object : ω) : Scope κ ω Nat :=
  ExceptT.mk fun p => (.ok (p.acquire kind object).1, (p.acquire kind object).2)

/-- A call that needs a handle and makes another of the same object. -/
def again (kind made : κ) (handle : Nat) (bad : String) : Scope κ ω Nat :=
  ExceptT.mk fun p =>
    match p.behind kind handle with
    | none => (.error bad, p)
    | some object => (.ok (p.acquire made object).1, (p.acquire made object).2)

/-- The destructor of a handle. -/
def drop (kind : κ) (handle : Nat) : Scope κ ω Unit :=
  ExceptT.mk fun p => (.ok (), p.release kind handle)

/-- The rest of a function that has a handle in a local: an early return drops it. -/
def orDrop (kind : κ) (handle : Nat) (rest : Scope κ ω α) : Scope κ ω α :=
  ExceptT.mk fun p =>
    match rest.outcome p with
    | (.ok a, p') => (.ok a, p')
    | (.error e, p') => (.error e, p'.release kind handle)

omit [DecidableEq κ] in
theorem outcome_bind (code : Scope κ ω α) (rest : α → Scope κ ω β) (p : Process κ ω) :
    (code >>= rest).outcome p =
      match code.outcome p with
      | (.ok a, p') => (rest a).outcome p'
      | (.error e, p') => (.error e, p') := by
  unfold outcome
  rw [ExceptT.run_bind, StateT.run_bind]
  rcases code.run.run p with ⟨e | a, p'⟩
  · rfl
  · rfl

/-- Two results agree: a success has left what `owned` says, and an early return has
left `left`. -/
def Agree (owned : α → β → List (Holding κ ω)) (left : List (Holding κ ω)) :
    Result α × Process κ ω → Result β → Prop
  | (.ok a, p), .ok b => p.Books (owned a b)
  | (.error e, p), .error e' => e = e' ∧ p.Books left
  | _, _ => False

theorem Agree.cases {owned : α → β → List (Holding κ ω)}
    {left : List (Holding κ ω)} {out : Result α × Process κ ω} {plain : Result β}
    (agree : Agree owned left out plain) :
    (∃ a b, out.1 = .ok a ∧ plain = .ok b ∧ out.2.Books (owned a b)) ∨
      ∃ e, out.1 = .error e ∧ plain = .error e ∧ out.2.Books left := by
  rcases out with ⟨e | a, p⟩
  · cases plain with
    | ok b => exact agree.elim
    | error e' => exact .inr ⟨e, rfl, agree.1 ▸ rfl, agree.2⟩
  · cases plain with
    | ok b => exact .inl ⟨a, b, rfl, rfl, agree⟩
    | error e' => exact agree.elim

/-- From a process that holds `held`, the code computes the plain result. -/
def Refines (code : Scope κ ω α) (plain : Result β) (held : List (Holding κ ω))
    (owned : α → β → List (Holding κ ω)) (left : List (Holding κ ω)) : Prop :=
  ∀ p, p.Books held → Agree owned left (code.outcome p) plain

variable {plain : Result β} {held left : List (Holding κ ω)}
variable {owned : α → β → List (Holding κ ω)}

theorem refines_pure {a : α} {b : β} (perm : held.Perm (owned a b)) :
    Refines (pure a) (.ok b) held owned left := fun _ books => books.perm perm

/-- The order of what is held makes no difference. -/
theorem refines_perm {code : Scope κ ω α} {held' left' : List (Holding κ ω)}
    (inner : Refines code plain held' owned left') (perm : held.Perm held')
    (perm_left : left'.Perm left) : Refines code plain held owned left := by
  intro p books
  have done := inner p (books.perm perm)
  generalize code.outcome p = out at done ⊢
  obtain ⟨result, p'⟩ := out
  rcases done.cases with ⟨a, b, rfl, rfl, after⟩ | ⟨e, rfl, rfl, after⟩
  · exact after
  · exact ⟨rfl, after.perm perm_left⟩

/-- A check that touches no handle. -/
theorem refines_check {γ : Type} {check : Result γ} {rest : γ → Scope κ ω α}
    {after : γ → Result β} (left_eq : left = held)
    (next : ∀ c, check = .ok c → Refines (rest c) (after c) held owned left) :
    Refines ((liftM check : Scope κ ω γ) >>= rest) (check >>= after) held owned left := by
  subst left_eq
  cases found : check with
  | ok c => exact next c found
  | error e => exact fun _ books => ⟨rfl, books⟩

theorem refines_bind {γ δ : Type} {code : Scope κ ω γ} {check : Result δ}
    {middle : γ → δ → List (Holding κ ω)} {rest : γ → Scope κ ω α} {after : δ → Result β}
    (first : Refines code check held middle left)
    (next : ∀ c d, Refines (rest c) (after d) (middle c d) owned left) :
    Refines (code >>= rest) (check >>= after) held owned left := by
  intro p books
  have done := first p books
  rw [outcome_bind]
  generalize code.outcome p = out at done ⊢
  obtain ⟨result, p'⟩ := out
  rcases done.cases with ⟨c, d, rfl, rfl, after⟩ | ⟨e, rfl, rfl, after⟩
  · exact next c d p' after
  · exact ⟨rfl, after⟩

theorem refines_make {kind : κ} {object : ω} {rest : Nat → Scope κ ω α}
    (next : ∀ handle, Refines (rest handle) plain (⟨kind, handle, object⟩ :: held) owned left) :
    Refines (make kind object >>= rest) plain held owned left :=
  fun _ books => next _ _ (books.acquire kind object)

theorem refines_again {kind made : κ} {handle : Nat} (object : ω) {bad : String}
    {rest : Nat → Scope κ ω α} (mem : ⟨kind, handle, object⟩ ∈ held)
    (next : ∀ handle, Refines (rest handle) plain (⟨made, handle, object⟩ :: held) owned left) :
    Refines (again kind made handle bad >>= rest) plain held owned left := by
  intro p books
  have found : p.behind kind handle = some object := books.behind _ mem
  have step : (again kind made handle bad : Scope κ ω Nat).outcome p =
      (.ok (p.acquire made object).1, (p.acquire made object).2) := by
    change (match p.behind kind handle with
      | none => (.error bad, p)
      | some object => (.ok (p.acquire made object).1, (p.acquire made object).2) :
        Result Nat × Process κ ω) = _
    rw [found]
  rw [outcome_bind, step]
  exact next _ _ (books.acquire made object)

theorem refines_drop {kind : κ} {handle : Nat} {object : ω} {rest : Unit → Scope κ ω α}
    (next : Refines (rest ()) plain held owned left) :
    Refines (drop kind handle >>= rest) plain (⟨kind, handle, object⟩ :: held) owned left :=
  fun _ books => next _ books.release

theorem refines_orDrop {kind : κ} {handle : Nat} (object : ω) {rest : Scope κ ω α}
    (inner : Refines rest plain held owned (⟨kind, handle, object⟩ :: left)) :
    Refines (orDrop kind handle rest) plain held owned left := by
  intro p books
  have done := inner p books
  have step : (orDrop kind handle rest).outcome p =
      match rest.outcome p with
      | (.ok a, p') => (.ok a, p')
      | (.error e, p') => (.error e, p'.release kind handle) := rfl
  rw [step]
  generalize rest.outcome p = out at done ⊢
  obtain ⟨result, p'⟩ := out
  rcases done.cases with ⟨a, b, rfl, rfl, after⟩ | ⟨e, rfl, rfl, after⟩
  · exact after
  · exact ⟨rfl, after.release⟩

end Scope

end Dorsche.Lib
