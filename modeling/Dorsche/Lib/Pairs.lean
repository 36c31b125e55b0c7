import Mathlib.Algebra.GroupWithZero.Nat
import Mathlib.Data.List.Basic

/-!
A stream taken two elements at a time, read by read.

`pairs` and `mapPairs` look at one read: the odd element at its end belongs to no
pair. So what becomes of a stream depends on where its reads end, by way of their
`spans` only: whether the next two elements are a pair, or the next one is left over.
-/

namespace Dorsche.Lib

variable {α : Type}

/-- The pairs of a read (`chunks_exact(2)`). -/
def pairs : List α → List (α × α)
  | a :: b :: rest => (a, b) :: pairs rest
  | [_] => []
  | [] => []

/-- Replace the pairs of a read (`chunks_exact_mut(2)`). -/
def mapPairs (f : α × α → α × α) : List α → List α
  | a :: b :: rest => (f (a, b)).1 :: (f (a, b)).2 :: mapPairs f rest
  | [a] => [a]
  | [] => []

@[simp] theorem length_mapPairs (f : α × α → α × α) (read : List α) :
    (mapPairs f read).length = read.length := by
  induction read using mapPairs.induct with
  | case1 a b rest ih => simp [mapPairs, ih]
  | case2 a => rfl
  | case3 => rfl

/-- Consecutive reads of the given lengths. -/
def cut : List Nat → List α → List (List α)
  | [], _ => []
  | n :: lengths, stream => stream.take n :: cut lengths (stream.drop n)

theorem flatten_cut {lengths : List Nat} {stream : List α} (whole : stream.length = lengths.sum) :
    (cut lengths stream).flatten = stream := by
  induction lengths generalizing stream with
  | nil => exact (List.eq_nil_of_length_eq_zero whole).symm
  | cons n lengths ih =>
      have rest : (stream.drop n).length = lengths.sum := by
        rw [List.length_drop, whole, List.sum_cons]
        omega
      rw [cut, List.flatten_cons, ih rest, List.take_append_drop]

theorem lengths_cut {lengths : List Nat} {stream : List α} (whole : stream.length = lengths.sum) :
    (cut lengths stream).map List.length = lengths := by
  induction lengths generalizing stream with
  | nil => rfl
  | cons n lengths ih =>
      rw [List.sum_cons] at whole
      have first : (stream.take n).length = n := List.length_take_of_le (by omega)
      have rest : (stream.drop n).length = lengths.sum := by
        rw [List.length_drop]
        omega
      rw [cut, List.map_cons, first, ih rest]

/-! ### Spans -/

inductive Span where
  | pair
  | single
deriving DecidableEq, Repr

/-- The spans of a read of the given length. -/
def spans : Nat → List Span
  | n + 2 => .pair :: spans n
  | 1 => [.single]
  | 0 => []

/-- The spans of a stream. -/
def spansOf (lengths : List Nat) : List Span := lengths.flatMap spans

theorem spans_add {m : Nat} (even : m % 2 = 0) (n : Nat) : spans (m + n) = spans m ++ spans n := by
  induction m using spans.induct with
  | case1 m ih =>
      rw [show m + 2 + n = m + n + 2 by omega]
      simp only [spans, ih (by omega), List.cons_append]
  | case2 => cases even
  | case3 => rw [Nat.zero_add]; rfl

/-- If every read but the last has even length, the spans are those of one read. -/
theorem spansOf_even {lengths : List Nat} (even : ∀ n ∈ lengths, n % 2 = 0) (last : Nat) :
    spansOf (lengths ++ [last]) = spans (lengths.sum + last) := by
  induction lengths with
  | nil => simp [spansOf]
  | cons n lengths ih =>
      obtain ⟨here, later⟩ := List.forall_mem_cons.mp even
      have rest := ih later
      rw [spansOf] at rest ⊢
      rw [List.cons_append, List.flatMap_cons, rest, List.sum_cons, Nat.add_assoc, spans_add here]

def pairsAt : List Span → List α → List (α × α)
  | .pair :: rest, a :: b :: stream => (a, b) :: pairsAt rest stream
  | .single :: rest, _ :: stream => pairsAt rest stream
  | _, _ => []

def mapPairsAt (f : α × α → α × α) : List Span → List α → List α
  | .pair :: rest, a :: b :: stream =>
      (f (a, b)).1 :: (f (a, b)).2 :: mapPairsAt f rest stream
  | .single :: rest, a :: stream => a :: mapPairsAt f rest stream
  | _, stream => stream

theorem pairsAt_append (read stream : List α) (rest : List Span) :
    pairsAt (spans read.length ++ rest) (read ++ stream) = pairs read ++ pairsAt rest stream := by
  induction read using pairs.induct with
  | case1 a b read ih => simp only [List.length_cons, spans, List.cons_append, pairsAt, pairs, ih]
  | case2 a => rfl
  | case3 => rfl

theorem mapPairsAt_append (f : α × α → α × α) (read stream : List α) (rest : List Span) :
    mapPairsAt f (spans read.length ++ rest) (read ++ stream) =
      mapPairs f read ++ mapPairsAt f rest stream := by
  induction read using mapPairs.induct with
  | case1 a b read ih =>
      simp only [List.length_cons, spans, List.cons_append, mapPairsAt, mapPairs, ih]
  | case2 a => rfl
  | case3 => rfl

/-- The pairs of all reads, from the stream. -/
theorem flatMap_pairs (reads : List (List α)) :
    reads.flatMap pairs = pairsAt (spansOf (reads.map List.length)) reads.flatten := by
  induction reads with
  | nil => rfl
  | cons read reads ih =>
      rw [List.flatMap_cons, ih, ← pairsAt_append]
      rfl

theorem flatMap_mapPairs (f : α × α → α × α) (reads : List (List α)) :
    reads.flatMap (mapPairs f) = mapPairsAt f (spansOf (reads.map List.length)) reads.flatten := by
  induction reads with
  | nil => rfl
  | cons read reads ih =>
      rw [List.flatMap_cons, ih, ← mapPairsAt_append]
      rfl

/-! ### Telling spans apart -/

def Span.width : Span → Nat
  | .pair => 2
  | .single => 1

theorem Span.width_pos (span : Span) : 0 < span.width := by
  cases span <;> decide

theorem width_spans (n : Nat) : ((spans n).map Span.width).sum = n := by
  induction n using spans.induct with
  | case1 n ih =>
      rw [spans, List.map_cons, List.sum_cons, ih, Nat.add_comm]
      rfl
  | case2 => rfl
  | case3 => rfl

theorem width_spansOf (lengths : List Nat) :
    ((spansOf lengths).map Span.width).sum = lengths.sum := by
  induction lengths with
  | nil => rfl
  | cons n lengths ih =>
      rw [spansOf] at ih ⊢
      rw [List.flatMap_cons, List.map_append, List.sum_append, width_spans, ih, List.sum_cons]

/-- A constant stream and a constant replacement by something else tell spans apart. -/
theorem eq_of_mapPairsAt {a b : α} (differ : a ≠ b) {f : α × α → α × α} (const : ∀ p, f p = (b, b))
    {first second : List Span}
    (widths : (first.map Span.width).sum = (second.map Span.width).sum)
    (same : mapPairsAt f first (List.replicate (first.map Span.width).sum a) =
      mapPairsAt f second (List.replicate (second.map Span.width).sum a)) : first = second := by
  induction first generalizing second with
  | nil =>
      cases second with
      | nil => rfl
      | cons span second =>
          rw [List.map_nil, List.sum_nil, List.map_cons, List.sum_cons] at widths
          exact absurd widths (by have := span.width_pos; omega)
  | cons span first ih =>
      cases second with
      | nil =>
          rw [List.map_nil, List.sum_nil, List.map_cons, List.sum_cons] at widths
          exact absurd widths (by have := span.width_pos; omega)
      | cons span' second =>
          simp only [List.map_cons, List.sum_cons] at widths same
          cases span with
          | pair =>
              cases span' with
              | pair =>
                  simp only [Span.width, Nat.add_comm 2, List.replicate_succ, mapPairsAt,
                    List.cons.injEq, true_and] at widths same
                  rw [ih (by omega) same]
              | single =>
                  simp only [Span.width, Nat.add_comm 2, Nat.add_comm 1, List.replicate_succ,
                    mapPairsAt, List.cons.injEq, const] at same
                  exact absurd same.1.symm differ
          | single =>
              cases span' with
              | pair =>
                  simp only [Span.width, Nat.add_comm 2, Nat.add_comm 1, List.replicate_succ,
                    mapPairsAt, List.cons.injEq, const] at same
                  exact absurd same.1 differ
              | single =>
                  simp only [Span.width, Nat.add_comm 1, List.replicate_succ, mapPairsAt,
                    List.cons.injEq, true_and] at widths same
                  rw [ih (by omega) same]

end Dorsche.Lib
