import Mathlib.Data.List.GetD

/-!
A circular delay line.

A line is a list of cells and a cursor at the oldest one. An element that comes in is
exchanged for the oldest, which goes out. What went out followed by what the line
holds is what the line held followed by what came in (`exchanges_law`). A line
without cells lets everything through.
-/

namespace Dorsche.Lib

variable {α : Type}

/-- Cells, and the number of the oldest one. -/
structure DelayLine (α : Type) where
  cells : List α
  cursor : Nat
  valid : cursor ≤ cells.length - 1

namespace DelayLine

/-- The cell after the last one is the first. -/
def following (length cursor : Nat) : Nat := if cursor + 1 < length then cursor + 1 else 0

theorem following_le (length cursor : Nat) : following length cursor ≤ length - 1 := by
  unfold following
  split <;> omega

theorem following_of_lt {length cursor : Nat} (bound : cursor < length) :
    following length cursor = if cursor + 1 = length then 0 else cursor + 1 := by
  unfold following
  by_cases last : cursor + 1 = length
  · rw [if_neg (by omega), if_pos last]
  · rw [if_pos (by omega), if_neg last]

theorem cursor_lt (line : DelayLine α) (nonempty : line.cells ≠ []) :
    line.cursor < line.cells.length := by
  have positive := List.length_pos_iff.mpr nonempty
  have valid := line.valid
  omega

/-- A line of `n` equal cells. -/
def blank (n : Nat) (a : α) : DelayLine α := ⟨List.replicate n a, 0, Nat.zero_le _⟩

/-- What the line holds, from the oldest on. -/
def contents (line : DelayLine α) : List α :=
  line.cells.drop line.cursor ++ line.cells.take line.cursor

@[simp] theorem contents_blank (n : Nat) (a : α) : (blank n a).contents = List.replicate n a := by
  simp [contents, blank]

@[simp] theorem length_contents (line : DelayLine α) :
    line.contents.length = line.cells.length := by
  simp only [contents, List.length_append, List.length_drop, List.length_take]
  omega

/-- Put `a` in the place of the oldest element, which goes out. -/
def exchange (line : DelayLine α) (a : α) : α × DelayLine α :=
  (line.cells.getD line.cursor a,
    { cells := line.cells.set line.cursor a
      cursor := following line.cells.length line.cursor
      valid := by
        rw [List.length_set]
        exact following_le _ _ })

@[simp] theorem length_exchange (line : DelayLine α) (a : α) :
    (line.exchange a).2.cells.length = line.cells.length := by
  simp [exchange]

theorem exchange_law (line : DelayLine α) (a : α) :
    (line.exchange a).1 :: (line.exchange a).2.contents = line.contents ++ [a] := by
  by_cases empty : line.cells = []
  · simp [exchange, contents, empty]
  have bound := line.cursor_lt empty
  obtain ⟨cells, cursor, valid⟩ := line
  dsimp only at bound
  have split : cells.drop cursor = cells[cursor] :: cells.drop (cursor + 1) :=
    List.drop_eq_getElem_cons bound
  have taken : (cells.set cursor a).take (cursor + 1) = cells.take cursor ++ [a] := by
    rw [List.take_succ_eq_append_getElem (by simpa using bound), List.getElem_set_self,
      List.take_set, List.set_eq_of_length_le (by rw [List.length_take]; omega)]
  have dropped : (cells.set cursor a).drop (cursor + 1) = cells.drop (cursor + 1) :=
    List.drop_set_of_lt (Nat.lt_succ_self cursor)
  simp only [exchange, contents, List.getD_eq_getElem _ _ bound, split, following]
  by_cases goesOn : cursor + 1 < cells.length
  · rw [if_pos goesOn, taken, dropped, List.cons_append, List.cons_append, List.append_assoc]
  · -- The cursor was at the last cell, and the new line is read from the first.
    have whole : (cells.set cursor a).take (cursor + 1) = cells.set cursor a :=
      List.take_of_length_le (by rw [List.length_set]; omega)
    rw [if_neg goesOn, List.drop_zero, List.take_zero, List.append_nil, ← whole, taken,
      List.drop_of_length_le (by omega)]
    rfl

/-- Exchange one element after the other. -/
def exchanges (line : DelayLine α) : List α → List α × DelayLine α
  | [] => ([], line)
  | a :: rest =>
      let (out, line) := line.exchange a
      let (outs, line) := line.exchanges rest
      (out :: outs, line)

@[simp] theorem length_exchanges (line : DelayLine α) (input : List α) :
    (line.exchanges input).1.length = input.length ∧
      (line.exchanges input).2.cells.length = line.cells.length := by
  induction input generalizing line with
  | nil => exact ⟨rfl, rfl⟩
  | cons a rest ih =>
      obtain ⟨outs, cells⟩ := ih (line.exchange a).2
      exact ⟨congrArg (· + 1) outs, cells.trans (length_exchange line a)⟩

theorem exchanges_law (line : DelayLine α) (input : List α) :
    (line.exchanges input).1 ++ (line.exchanges input).2.contents = line.contents ++ input := by
  induction input generalizing line with
  | nil => exact (List.append_nil _).symm
  | cons a rest ih =>
      calc
        (line.exchanges (a :: rest)).1 ++ (line.exchanges (a :: rest)).2.contents
            = (line.exchange a).1 :: ((line.exchange a).2.contents ++ rest) :=
              congrArg ((line.exchange a).1 :: ·) (ih (line.exchange a).2)
        _ = line.contents ++ a :: rest := by
              rw [← List.cons_append, exchange_law, List.append_assoc]
              rfl

theorem exchanges_append (line : DelayLine α) (first second : List α) :
    line.exchanges (first ++ second) =
      ((line.exchanges first).1 ++ ((line.exchanges first).2.exchanges second).1,
        ((line.exchanges first).2.exchanges second).2) := by
  induction first generalizing line with
  | nil => rfl
  | cons a rest ih =>
      simp only [List.cons_append, exchanges, ih]

/-- A line without cells lets everything through. -/
theorem exchanges_of_empty {line : DelayLine α} (empty : line.cells = []) (input : List α) :
    line.exchanges input = (input, line) := by
  obtain ⟨cells, cursor, valid⟩ := line
  obtain rfl : cells = [] := empty
  obtain rfl : cursor = 0 := Nat.le_zero.mp valid
  induction input with
  | nil => rfl
  | cons a rest ih => exact congrArg (fun out => (a :: out.1, out.2)) ih

/-! ### Reading a line out -/

/-- Go on to the next cell. -/
def skip (line : DelayLine α) : DelayLine α where
  cells := line.cells
  cursor := following line.cells.length line.cursor
  valid := following_le _ _

/-- The elements from the oldest on, `n` of them, going round if there are fewer. -/
def reads (line : DelayLine α) : Nat → List α × DelayLine α
  | 0 => ([], line)
  | n + 1 =>
      match line.cells[line.cursor]? with
      | none => ([], line)
      | some a =>
          let (outs, line) := line.skip.reads n
          (a :: outs, line)

theorem reads_succ {line : DelayLine α} {a : α} (oldest : line.cells[line.cursor]? = some a)
    (n : Nat) : line.reads (n + 1) = (a :: (line.skip.reads n).1, (line.skip.reads n).2) := by
  simp only [reads, oldest]

theorem reads_add {line : DelayLine α} (nonempty : line.cells ≠ []) (m n : Nat) :
    line.reads (m + n) =
      ((line.reads m).1 ++ ((line.reads m).2.reads n).1, ((line.reads m).2.reads n).2) := by
  induction m generalizing line with
  | zero => rw [Nat.zero_add]; rfl
  | succ m ih =>
      have oldest := List.getElem?_eq_getElem (line.cursor_lt nonempty)
      rw [Nat.add_right_comm, reads_succ oldest, reads_succ oldest, @ih line.skip nonempty]
      rfl

/-- To read an element is to exchange it for itself. -/
theorem exchange_self {line : DelayLine α} {a : α} (oldest : line.cells[line.cursor]? = some a) :
    line.exchange a = (a, line.skip) := by
  obtain ⟨bound, is⟩ := List.getElem?_eq_some_iff.mp oldest
  have same : line.cells.set line.cursor a = line.cells := by
    rw [← is, List.set_getElem_self]
  simp only [exchange, skip, same, List.getD_eq_getElem _ _ bound, is]

theorem reads_law (line : DelayLine α) (n : Nat) :
    (line.reads n).1 ++ (line.reads n).2.contents = line.contents ++ (line.reads n).1 := by
  induction n generalizing line with
  | zero => exact (List.append_nil _).symm
  | succ n ih =>
      unfold reads
      cases oldest : line.cells[line.cursor]? with
      | none => exact (List.append_nil _).symm
      | some a =>
          have one := exchange_law line a
          rw [exchange_self oldest] at one
          calc
            a :: ((line.skip.reads n).1 ++ (line.skip.reads n).2.contents)
                = a :: line.skip.contents ++ (line.skip.reads n).1 :=
                  congrArg (a :: ·) (ih line.skip)
            _ = line.contents ++ a :: (line.skip.reads n).1 := by
                rw [one, List.append_assoc]
                rfl

theorem length_reads {line : DelayLine α} (nonempty : line.cells ≠ []) (n : Nat) :
    (line.reads n).1.length = n ∧ (line.reads n).2.cells = line.cells := by
  induction n generalizing line with
  | zero => exact ⟨rfl, rfl⟩
  | succ n ih =>
      obtain ⟨outs, cells⟩ := @ih line.skip nonempty
      rw [reads_succ (List.getElem?_eq_getElem (line.cursor_lt nonempty))]
      exact ⟨congrArg (· + 1) outs, cells⟩

/-- Up to its length, a line is read in the order of its contents. -/
theorem reads_eq_take {line : DelayLine α} (nonempty : line.cells ≠ []) {n : Nat}
    (within : n ≤ line.cells.length) :
    (line.reads n).1 = line.contents.take n ∧
      (line.reads n).2.contents = line.contents.drop n ++ line.contents.take n := by
  have law := reads_law line n
  have length := (length_reads nonempty n).1
  have first : (line.reads n).1 = line.contents.take n := by
    have front := congrArg (List.take n) law
    rwa [List.take_append_of_le_length (by omega), List.take_of_length_le (by omega),
      List.take_append_of_le_length (by simpa using within)] at front
  have back := congrArg (List.drop n) law
  rw [List.drop_append_of_le_length (by omega), List.drop_of_length_le (by omega),
    List.nil_append, List.drop_append_of_le_length (by simpa using within), first] at back
  exact ⟨first, back⟩

end DelayLine

end Dorsche.Lib
