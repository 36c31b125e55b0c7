import Mathlib.Data.Nat.ModEq
import Mathlib.Tactic.Ring

/-!
Circular indices under a counter that wraps.

A counter of `M` values is reduced modulo `n` to pick one of `n` cells. Inside
a window of consecutive counts the cells are distinct as long as the two moduli
agree. `spread_iff` says exactly when that is so. `and_mask_eq` is the other
piece of modular arithmetic of circular layouts: clearing the low bits of a
word.
-/

namespace Dorsche.Lib

/-- The `L` counts from `t` on fall into pairwise distinct cells. -/
def Spread (M n t L : Nat) : Prop :=
  ∀ i j, i < j → j < L → (t + i) % M % n ≠ (t + j) % M % n

/-- Two counts less than `n` apart with no wrap between them differ modulo `n`. -/
theorem mod_ne_of_lt {n x y : Nat} (lt : x < y) (near : y < x + n) : x % n ≠ y % n := by
  intro same
  have dvd : n ∣ y - x := (Nat.modEq_iff_dvd' lt.le).mp same
  exact absurd (Nat.le_of_dvd (by omega) dvd) (by omega)

/-- `M` reaches `d` past a multiple of `n` exactly when `d` is its remainder. -/
theorem dvd_sub_iff_mod_eq {M n d : Nat} (dn : d < n) (dM : d ≤ M) :
    n ∣ M - d ↔ M % n = d := by
  constructor
  · intro dvd
    have same : d % n = M % n := (Nat.modEq_iff_dvd' dM).mpr dvd
    rw [← same, Nat.mod_eq_of_lt dn]
  · intro same
    refine (Nat.modEq_iff_dvd' dM).mp ?_
    show d % n = M % n
    rw [same, Nat.mod_eq_of_lt dn]

/-- The count `t + i`, reduced by a counter that wraps at most once in the
window. -/
theorem add_mod_window {M t i : Nat} (pos : 0 < M) (iM : i < M) :
    (t + i) % M = if t % M + i < M then t % M + i else t % M + i - M := by
  have small := Nat.mod_lt t pos
  rw [Nat.add_mod, Nat.mod_eq_of_lt iM]
  split
  · rename_i h
    exact Nat.mod_eq_of_lt h
  · rw [Nat.mod_eq_sub_mod (by omega), Nat.mod_eq_of_lt (by omega)]

/-- Across the wrap, two counts share a cell exactly when they are `M % n` apart. -/
theorem wrap_collision_iff {M n t i j : Nat} (jn : j < n) (nM : n ≤ M) (ij : i < j)
    (before : t % M + i < M) (after : M ≤ t % M + j) :
    (t + i) % M % n = (t + j) % M % n ↔ M % n = j - i := by
  rw [add_mod_window (by omega) (by omega : i < M), add_mod_window (by omega) (by omega : j < M),
    if_pos before, if_neg (by omega)]
  have small := Nat.mod_lt t (by omega : 0 < M)
  have apart : n ∣ M - (j - i) ↔ M % n = j - i := dvd_sub_iff_mod_eq (by omega) (by omega)
  rw [← apart, show M - (j - i) = t % M + i - (t % M + j - M) by omega, eq_comm]
  exact Nat.modEq_iff_dvd' (by omega)

/-- A window is spread exactly when `n` divides the counter's range, or the
counter does not wrap inside the window, or the window is no longer than what
is left of the range after whole turns. -/
theorem spread_iff {M n t L : Nat} (Ln : L ≤ n) (nM : n ≤ M) (pos : 0 < n) :
    Spread M n t L ↔ M % n = 0 ∨ t % M + L ≤ M ∨ L ≤ M % n := by
  have small := Nat.mod_lt t (by omega : 0 < M)
  constructor
  · intro spread
    by_contra none
    push Not at none
    obtain ⟨turns, wraps, long⟩ := none
    -- The pair of counts `M % n` apart that straddles the wrap as early as possible.
    obtain ⟨i, hi⟩ : ∃ i, i = M - t % M - M % n := ⟨_, rfl⟩
    refine spread i (i + M % n) (by omega) (by omega) ?_
    exact (wrap_collision_iff (by omega) nM (by omega) (by omega) (by omega)).mpr (by omega)
  · intro cases i j ij jL same
    by_cases before : t % M + j < M
    · rw [add_mod_window (by omega) (by omega : i < M),
        add_mod_window (by omega) (by omega : j < M), if_pos (by omega), if_pos before] at same
      exact mod_ne_of_lt (by omega) (by omega) same
    · by_cases after : t % M + i < M
      · have apart := (wrap_collision_iff (by omega) nM ij after (by omega)).mp same
        omega
      · rw [add_mod_window (by omega) (by omega : i < M),
          add_mod_window (by omega) (by omega : j < M), if_neg after, if_neg before] at same
        exact mod_ne_of_lt (by omega) (by omega) same

/-! ### Unbounded counts behind a 64-bit counter -/

theorem ofNat_add_one (a : Nat) : UInt64.ofNat a + 1 = UInt64.ofNat (a + 1) := by
  apply UInt64.toNat.inj
  simp

/-- Wrapping subtraction recovers the distance of two counts. -/
theorem toNat_ofNat_sub_ofNat {a b : Nat} (le : b ≤ a) (near : a - b < 2 ^ 64) :
    (UInt64.ofNat a - UInt64.ofNat b).toNat = a - b := by
  rw [UInt64.toNat_sub, UInt64.toNat_ofNat', UInt64.toNat_ofNat']
  omega

/-- Counts less than a turn apart are told apart by the counter. -/
theorem ofNat_inj_of_near {a b : Nat} (le : b ≤ a) (near : a - b < 2 ^ 64) :
    UInt64.ofNat b = UInt64.ofNat a ↔ b = a := by
  constructor
  · intro same
    have := congrArg UInt64.toNat same
    rw [UInt64.toNat_ofNat', UInt64.toNat_ofNat'] at this
    omega
  · rintro rfl
    rfl

/-! ### Masks -/

/-- Clearing the `k` low bits of a `w`-bit word rounds it down. -/
theorem and_mask_eq {w k x : Nat} (kw : k ≤ w) (xw : x < 2 ^ w) :
    x &&& (2 ^ w - 2 ^ k) = x / 2 ^ k * 2 ^ k := by
  have pos := Nat.two_pow_pos k
  have le := Nat.pow_le_pow_right (n := 2) (by decide) kw
  have mask : 2 ^ w - 2 ^ k = 2 ^ w - ((2 ^ k - 1) + 1) := by omega
  apply Nat.eq_of_testBit_eq
  intro i
  rw [Nat.testBit_and, mask, Nat.testBit_two_pow_sub_succ (by omega), Nat.testBit_two_pow_sub_one,
    Nat.testBit_mul_two_pow, Nat.testBit_div_two_pow]
  by_cases low : k ≤ i
  · by_cases high : i < w
    · simp [low, high, Nat.not_lt.mpr low]
    · have clear : x.testBit i = false := Nat.testBit_lt_two_pow
        (xw.trans_le (Nat.pow_le_pow_right (by decide) (Nat.not_lt.mp high)))
      simp [low, high, clear]
  · simp [low, Nat.lt_of_not_le low]

end Dorsche.Lib
