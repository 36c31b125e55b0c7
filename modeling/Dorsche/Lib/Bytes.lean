import Mathlib.Data.List.GetD
import Mathlib.Tactic.Ring

/-!
Byte memory and little-endian words.

A memory is a total function from offsets to octets; the extent of a mapping is
kept beside it, never inside it, so that an access outside the extent can be
stated instead of being unrepresentable. `Memory.read` and `Memory.write` move
whole blocks; `Memory.word` and `Memory.setWord` are the same for one
little-endian word. Every frame condition is an instance of `read_congr`.
-/

namespace Dorsche.Lib

/-! ### Little-endian words -/

/-- The `n` low octets of `v`, least significant first. -/
def leBytes : Nat → Nat → List UInt8
  | 0, _ => []
  | n + 1, v => UInt8.ofNat v :: leBytes n (v / 256)

/-- The number a little-endian octet sequence stands for. -/
def leValue : List UInt8 → Nat
  | [] => 0
  | b :: bs => b.toNat + 256 * leValue bs

@[simp] theorem length_leBytes (n v : Nat) : (leBytes n v).length = n := by
  induction n generalizing v with
  | zero => rfl
  | succ n ih => simp [leBytes, ih]

/-- Encoding then decoding truncates to the encoded width. -/
theorem leValue_leBytes (n v : Nat) : leValue (leBytes n v) = v % 256 ^ n := by
  induction n generalizing v with
  | zero => simp [leBytes, leValue, Nat.mod_one]
  | succ n ih =>
      have split : v % 256 ^ (n + 1) = v % 256 + 256 * (v / 256 % 256 ^ n) := by
        rw [pow_succ, Nat.mul_comm, Nat.mod_mul]
      simp only [leBytes, leValue, ih, split, UInt8.toNat_ofNat']

/-- The first octets are the encoding at a smaller width. -/
theorem take_leBytes {k n : Nat} (le : k ≤ n) (v : Nat) : (leBytes n v).take k = leBytes k v := by
  induction k generalizing n v with
  | zero => rfl
  | succ k ih =>
      cases n with
      | zero => cases le
      | succ n => simp only [leBytes, List.take_succ_cons, ih (Nat.le_of_succ_le_succ le)]

/-- A signed number is given by its low bits, if it is small enough for them. -/
theorem bmod_two_pow_of_lane {v m k : Nat} {x : Int} (divides : 2 ^ (k + 1) ∣ m)
    (lane : x = (v : Int).bmod m) (lower : -2 ^ k ≤ x) (upper : x < 2 ^ k) :
    ((v % 2 ^ (k + 1) : Nat) : Int).bmod (2 ^ (k + 1)) = x := by
  have twice : ((2 ^ (k + 1) : Nat) : Int) = 2 * 2 ^ k := by
    push_cast
    ring
  have same : ((2 ^ (k + 1) : Nat) : Int) ∣ x - v := by
    rw [lane]
    exact (Int.natCast_dvd_natCast.mpr divides).trans Int.dvd_bmod_sub_self
  rw [Int.natCast_mod, Int.emod_bmod, Int.bmod_eq_iff (Nat.two_pow_pos _)]
  exact ⟨by omega, by omega, same⟩

/-- Split one `n`-octet word off the front of a sequence. -/
def takeWord (n : Nat) (bs : List UInt8) : Nat × List UInt8 :=
  (leValue (bs.take n), bs.drop n)

@[simp] theorem takeWord_leBytes_append (n v : Nat) (rest : List UInt8) :
    takeWord n (leBytes n v ++ rest) = (v % 256 ^ n, rest) := by
  simp [takeWord, leValue_leBytes]

@[simp] theorem takeWord_leBytes (n v : Nat) :
    takeWord n (leBytes n v) = (v % 256 ^ n, []) := by
  simpa using takeWord_leBytes_append n v []

/-! ### Block reads and writes -/

/-- A byte memory. -/
abbrev Memory := Nat → UInt8

namespace Memory

/-- The `n` octets from offset `off` on. -/
def read (m : Memory) (off n : Nat) : List UInt8 :=
  (List.range n).map fun i => m (off + i)

/-- Replace the octets from offset `off` on by `bs`. -/
def write (m : Memory) (off : Nat) (bs : List UInt8) : Memory := fun o =>
  if off ≤ o ∧ o < off + bs.length then bs.getD (o - off) 0 else m o

@[simp] theorem length_read (m : Memory) (off n : Nat) : (m.read off n).length = n := by
  simp [read]

theorem write_apply_of_outside {m : Memory} {off o : Nat} {bs : List UInt8}
    (outside : o < off ∨ off + bs.length ≤ o) : m.write off bs o = m o := by
  unfold write
  rw [if_neg]
  omega

/-- A read depends only on the octets of its block. -/
theorem read_congr {m m' : Memory} {off n : Nat}
    (same : ∀ o, off ≤ o → o < off + n → m o = m' o) : m.read off n = m'.read off n := by
  apply List.map_congr_left
  intro i hi
  exact same _ (Nat.le_add_right _ _) (Nat.add_lt_add_left (List.mem_range.mp hi) _)

/-- Frame rule: a write is invisible to a read of a disjoint block. -/
theorem read_write_of_disjoint {m : Memory} {off off' n : Nat} {bs : List UInt8}
    (disjoint : off' + n ≤ off ∨ off + bs.length ≤ off') :
    (m.write off bs).read off' n = m.read off' n :=
  read_congr fun o lower upper => write_apply_of_outside (by omega)

/-- Reading back a block returns what was written. -/
theorem read_write_self {m : Memory} {off n : Nat} {bs : List UInt8} (len : bs.length = n) :
    (m.write off bs).read off n = bs := by
  subst len
  apply List.ext_getElem
  · simp
  · intro i hi _
    rw [length_read] at hi
    simp only [read, List.getElem_map, List.getElem_range]
    unfold write
    rw [if_pos (by omega), Nat.add_sub_cancel_left, List.getD_eq_getElem _ _ hi]

/-! ### Parts of a block -/

theorem read_append (m : Memory) (off a b : Nat) :
    m.read off (a + b) = m.read off a ++ m.read (off + a) b := by
  simp [read, List.range_add, Nat.add_assoc]

theorem take_read {m : Memory} {off n k : Nat} (le : k ≤ n) :
    (m.read off n).take k = m.read off k := by
  obtain ⟨rest, rfl⟩ := Nat.le.dest le
  rw [read_append, List.take_left' (length_read ..)]

/-- The part of a block of `n` octets that starts at `start` and has `k`. -/
theorem read_part {m : Memory} {off n start k : Nat} (inside : start + k ≤ n) :
    ((m.read off n).drop start).take k = m.read (off + start) k := by
  obtain ⟨rest, rfl⟩ := Nat.le.dest inside
  rw [Nat.add_assoc, read_append, read_append]
  simp

/-- Replace the octets of a block from `start` on by a patch. -/
def overlay (block : List UInt8) (start : Nat) (patch : List UInt8) : List UInt8 :=
  block.take start ++ patch ++ block.drop (start + patch.length)

/-- A write inside a block changes exactly the octets written. -/
theorem read_write_inside {m : Memory} {off n start : Nat} {patch : List UInt8}
    (inside : start + patch.length ≤ n) :
    (m.write (off + start) patch).read off n = overlay (m.read off n) start patch := by
  obtain ⟨rest, rfl⟩ := Nat.le.dest inside
  have written : (m.write (off + start) patch).read (off + start) patch.length = patch :=
    read_write_self rfl
  have prior : (m.write (off + start) patch).read off start = m.read off start :=
    read_write_of_disjoint (.inl le_rfl)
  have after : (m.write (off + start) patch).read (off + (start + patch.length)) rest =
      m.read (off + (start + patch.length)) rest :=
    read_write_of_disjoint (.inr (by omega))
  rw [overlay, read_append, read_append, prior, written, after, read_append, read_append,
    List.drop_left' (by simp), List.append_assoc (m.read off start) (m.read _ _) (m.read _ rest),
    List.take_left' (length_read ..)]

/-! ### Words in memory -/

/-- The `n`-octet word at `off`. -/
def word (n : Nat) (m : Memory) (off : Nat) : Nat := leValue (m.read off n)

/-- Replace the `n`-octet word at `off`. -/
def setWord (n : Nat) (m : Memory) (off v : Nat) : Memory := m.write off (leBytes n v)

theorem word_congr {n : Nat} {m m' : Memory} {off : Nat}
    (same : ∀ o, off ≤ o → o < off + n → m o = m' o) : m.word n off = m'.word n off := by
  unfold word
  rw [read_congr same]

theorem word_write_of_disjoint {n : Nat} {m : Memory} {off off' : Nat} {bs : List UInt8}
    (disjoint : off' + n ≤ off ∨ off + bs.length ≤ off') :
    (m.write off bs).word n off' = m.word n off' := by
  unfold word
  rw [read_write_of_disjoint disjoint]

theorem word_setWord_of_disjoint {k n : Nat} {m : Memory} {off off' v : Nat}
    (disjoint : off' + n ≤ off ∨ off + k ≤ off') :
    (m.setWord k off v).word n off' = m.word n off' :=
  word_write_of_disjoint (by rwa [length_leBytes])

theorem word_setWord_self {n : Nat} {m : Memory} {off v : Nat} (fits : v < 256 ^ n) :
    (m.setWord n off v).word n off = v := by
  unfold word setWord
  rw [read_write_self (length_leBytes _ _), leValue_leBytes, Nat.mod_eq_of_lt fits]

/-- The 16-bit word at `off`. -/
def u16 (m : Memory) (off : Nat) : UInt16 := UInt16.ofNat (m.word 2 off)

/-- The 32-bit word at `off`. -/
def u32 (m : Memory) (off : Nat) : UInt32 := UInt32.ofNat (m.word 4 off)

/-- The 64-bit word at `off`. -/
def u64 (m : Memory) (off : Nat) : UInt64 := UInt64.ofNat (m.word 8 off)

end Memory

end Dorsche.Lib
