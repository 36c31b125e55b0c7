import Mathlib.Data.List.Induction
import Mathlib.Algebra.Order.Ring.Nat

/-!
Blocks of equal width in a buffer.

A position of the buffer is a block and a place in it, the quotient and the remainder
of its index. Blocks that are written in any order do not meet, so the buffer is
described block by block; `chunksExact` reads it back the same way.
-/

namespace Dorsche.Lib

variable {α : Type}

/-! ### Positions -/

/-- The indices of `count` blocks are those of their places, block after block. -/
theorem flatMap_range_blocks (count width : Nat) :
    (List.range count).flatMap (fun i => (List.range width).map (i * width + ·)) =
      List.range (count * width) := by
  induction count with
  | zero => simp
  | succ count ih =>
      rw [List.range_succ, List.flatMap_append, ih, List.flatMap_singleton, Nat.succ_mul,
        List.range_add]

theorem block_div {i j width : Nat} (inside : j < width) : (i * width + j) / width = i := by
  rw [Nat.add_comm, Nat.add_mul_div_right _ _ (Nat.zero_lt_of_lt inside),
    Nat.div_eq_of_lt inside, Nat.zero_add]

/-- A place is in a block exactly when it is one of the block's own. -/
theorem mem_block_iff {i i' j width : Nat} (inside : j < width) :
    (i * width ≤ i' * width + j ∧ i' * width + j < i * width + width) ↔ i = i' := by
  constructor
  · rintro ⟨lower, upper⟩
    have below : i < i' + 1 := by
      apply Nat.lt_of_mul_lt_mul_right (a := width)
      rw [Nat.succ_mul]
      omega
    have above : i' < i + 1 := by
      apply Nat.lt_of_mul_lt_mul_right (a := width)
      rw [Nat.succ_mul]
      omega
    omega
  · rintro rfl
    omega

/-! ### Buffers -/

/-- A slice, and the indices that have been written. -/
structure Buffer (α : Type) where
  cells : List α
  written : List Nat

namespace Buffer

/-- Replace the cells from `offset` on; nothing where they do not exist. -/
def copyFromSlice (self : Buffer α) (offset : Nat) (source : List α) : Option (Buffer α) :=
  if offset + source.length ≤ self.cells.length then
    some
      { cells := self.cells.take offset ++ source ++ self.cells.drop (offset + source.length)
        written := self.written ++ (List.range source.length).map (offset + ·) }
  else none

variable {self out : Buffer α} {offset : Nat} {source : List α}

theorem length_copyFromSlice (copied : self.copyFromSlice offset source = some out) :
    out.cells.length = self.cells.length := by
  unfold copyFromSlice at copied
  split at copied
  · cases copied
    simp only [List.length_append, List.length_take, List.length_drop]
    omega
  · cases copied

theorem getElem?_copyFromSlice (copied : self.copyFromSlice offset source = some out) (k : Nat) :
    out.cells[k]? = if offset ≤ k ∧ k < offset + source.length then source[k - offset]?
      else self.cells[k]? := by
  unfold copyFromSlice at copied
  split at copied
  · rename_i fits
    cases copied
    have taken : (self.cells.take offset).length = offset := by
      rw [List.length_take]
      omega
    rw [List.append_assoc]
    by_cases before : k < offset
    · rw [List.getElem?_append_left (by omega), List.getElem?_take_of_lt before,
        if_neg (by omega)]
    rw [List.getElem?_append_right (by omega), taken]
    by_cases within : k < offset + source.length
    · rw [List.getElem?_append_left (by omega), if_pos (by omega)]
    · rw [List.getElem?_append_right (by omega), List.getElem?_drop, if_neg (by omega)]
      congr 1
      omega
  · cases copied

/-! ### Writing blocks -/

/-- Write some blocks, one after the other. -/
def writeBlocks (width : Nat) (content : Nat → List α) (order : List Nat) (self : Buffer α) :
    Option (Buffer α) :=
  order.foldlM (fun buffer i => buffer.copyFromSlice (i * width) (content i)) self

/-- A buffer some blocks of which have been written. -/
structure HasBlocks (width : Nat) (content : Nat → List α) (order : List Nat)
    (before after : Buffer α) : Prop where
  length : after.cells.length = before.cells.length
  written : after.written =
    before.written ++ order.flatMap fun i => (List.range width).map (i * width + ·)
  block : ∀ i j, i ∈ order → j < width → after.cells[i * width + j]? = (content i)[j]?

theorem writeBlocks_append (width : Nat) (content : Nat → List α) (first second : List Nat)
    (self : Buffer α) : writeBlocks width content (first ++ second) self =
      (writeBlocks width content first self).bind (writeBlocks width content second) :=
  List.foldlM_append

/-- Groups of blocks, one after the other. -/
theorem writeBlocks_flatMap {γ : Type} (width : Nat) (content : Nat → List α)
    (blocks : γ → List Nat) (groups : List γ) (self : Buffer α) :
    writeBlocks width content (groups.flatMap blocks) self =
      groups.foldlM (fun buffer group => writeBlocks width content (blocks group) buffer) self := by
  induction groups generalizing self with
  | nil => rfl
  | cons group rest ih =>
      rw [List.flatMap_cons, writeBlocks_append, List.foldlM_cons]
      exact congrArg _ (funext ih)

/-- Blocks inside the buffer can be written in any order; each is found at its place. -/
theorem writeBlocks_eq_some {width count : Nat} {content : Nat → List α}
    (sized : ∀ i, (content i).length = width) {order : List Nat}
    (inside : ∀ i ∈ order, i < count) (length : self.cells.length = count * width) :
    ∃ out, writeBlocks width content order self = some out ∧
      HasBlocks width content order self out := by
  induction order using List.reverseRecOn with
  | nil => exact ⟨self, rfl, rfl, by simp, by simp⟩
  | append_singleton order i ih =>
      simp only [List.mem_append, List.mem_singleton] at inside
      obtain ⟨before, wrote, blocks⟩ := ih fun i mem => inside i (.inl mem)
      have room : i * width + (content i).length ≤ before.cells.length := by
        have last := Nat.mul_le_mul_right width (inside i (.inr rfl))
        rw [Nat.succ_mul] at last
        rw [sized, blocks.length, length]
        exact last
      obtain ⟨out, copied⟩ : ∃ out, before.copyFromSlice (i * width) (content i) = some out :=
        ⟨_, if_pos room⟩
      refine ⟨out, ?_, (length_copyFromSlice copied).trans blocks.length, ?_, ?_⟩
      · rw [writeBlocks_append, wrote]
        simp [writeBlocks, copied]
      · rw [copyFromSlice, if_pos room] at copied
        cases copied
        simp [blocks.written, sized]
      · intro i' j mem place
        rw [getElem?_copyFromSlice copied, sized]
        simp only [mem_block_iff place]
        split
        · rename_i same
          subst same
          rw [Nat.add_sub_cancel_left]
        · rename_i other
          rw [List.mem_append, List.mem_singleton] at mem
          exact blocks.block i' j (mem.resolve_right fun same => other same.symm) place

end Buffer

/-! ### Reading blocks -/

/-- `chunks_exact`: the whole blocks of a sequence. -/
def chunksExact (width : Nat) (cells : List α) : List (List α) :=
  (List.range (cells.length / width)).map fun i => (cells.drop (i * width)).take width

/-- What is left behind the last whole block. -/
def chunksRemainder (width : Nat) (cells : List α) : List α :=
  cells.drop (cells.length / width * width)

theorem chunksExact_eq {width count : Nat} {content : Nat → List α} {cells : List α}
    (pos : 0 < width) (sized : ∀ i, (content i).length = width)
    (length : cells.length = count * width)
    (blocks : ∀ i j, i < count → j < width → cells[i * width + j]? = (content i)[j]?) :
    chunksExact width cells = (List.range count).map content := by
  rw [chunksExact, length, Nat.mul_div_cancel _ pos]
  refine List.map_congr_left fun i mem => ?_
  apply List.ext_getElem?
  intro j
  by_cases place : j < width
  · rw [List.getElem?_take_of_lt place, List.getElem?_drop]
    exact blocks i j (List.mem_range.mp mem) place
  · rw [List.getElem?_eq_none, List.getElem?_eq_none]
    · rw [sized]
      omega
    · rw [List.length_take]
      omega

theorem chunksRemainder_eq_nil {width count : Nat} {cells : List α} (pos : 0 < width)
    (length : cells.length = count * width) : chunksRemainder width cells = [] := by
  rw [chunksRemainder, length, Nat.mul_div_cancel _ pos, ← length]
  exact List.drop_length

/-- `chunks`: the blocks of a sequence, the last of which may be short. -/
def chunks (width : Nat) (cells : List α) : List (List α) :=
  (List.range ((cells.length + width - 1) / width)).map fun i => (cells.drop (i * width)).take width

/-- The first blocks of a sequence, one after the other. -/
theorem flatMap_blocks (width count : Nat) (cells : List α) :
    (List.range count).flatMap (fun i => (cells.drop (i * width)).take width) =
      cells.take (count * width) := by
  induction count with
  | zero => simp
  | succ count ih =>
      rw [List.range_succ, List.flatMap_append, ih, List.flatMap_singleton, Nat.succ_mul,
        List.take_add]

theorem flatten_chunks {width : Nat} (pos : 0 < width) (cells : List α) :
    (chunks width cells).flatten = cells := by
  have covers : cells.length ≤ (cells.length + width - 1) / width * width := by
    have split := Nat.div_add_mod' (cells.length + width - 1) width
    have rest := Nat.mod_lt (cells.length + width - 1) pos
    omega
  rw [chunks, ← List.flatMap_def, flatMap_blocks, List.take_of_length_le covers]

/-- A sequence is its blocks, one after the other. -/
theorem eq_flatMap_of_blocks {width count : Nat} {content : Nat → List α} {cells : List α}
    (pos : 0 < width) (sized : ∀ i, (content i).length = width)
    (length : cells.length = count * width)
    (blocks : ∀ i j, i < count → j < width → cells[i * width + j]? = (content i)[j]?) :
    cells = (List.range count).flatMap content := by
  have whole := chunksExact_eq pos sized length blocks
  rw [chunksExact, length, Nat.mul_div_cancel _ pos] at whole
  have taken := flatMap_blocks width count cells
  rw [List.flatMap_def, whole, ← length, List.take_length, ← List.flatMap_def] at taken
  exact taken.symm

end Dorsche.Lib
