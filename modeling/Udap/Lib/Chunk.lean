import Mathlib.Tactic

/-!
Cutting a list into pieces of equal length, the last piece taking what is left.

* `numFull k len` counts the full pieces cut off while more than `k` elements are left, so a
  non-empty list keeps between `1` and `k` elements for its last piece (`numFull_lt`,
  `le_numFull_succ`).
* `chunk k l i` is the `i`-th full piece; `flatten_chunks` puts the first `n` together and
  `flatten_chunks_append` the whole list.
-/

namespace Chunk

variable {α : Type*} {k len i n : ℕ}

/-- The number of full pieces: a piece is cut off as long as more than `k` elements are left. -/
def numFull (k len : ℕ) : ℕ := (len - 1) / k

/-- The `i`-th full piece. -/
def chunk (k : ℕ) (l : List α) (i : ℕ) : List α := (l.drop (k * i)).take k

/-- The full pieces fit into the list. -/
lemma mul_numFull_le (k len : ℕ) : k * numFull k len ≤ len :=
  (Nat.mul_div_le _ _).trans (Nat.sub_le _ _)

/-- What the full pieces leave is at most one piece. -/
lemma le_numFull_succ (hk : 0 < k) : len ≤ k * (numFull k len + 1) := by
  have h := Nat.lt_mul_div_succ (len - 1) hk
  rw [numFull]
  omega

/-- A list of at most `k` elements has no full piece. -/
lemma numFull_eq_zero (hk : 0 < k) (h : len ≤ k) : numFull k len = 0 := by
  rw [numFull, Nat.div_eq_zero_iff]
  omega

/-- Cutting off one piece leaves one fewer. -/
lemma numFull_eq_succ (hk : 0 < k) (h : k < len) :
    numFull k len = numFull k (len - k) + 1 := by
  rw [numFull, numFull, ← Nat.add_div_right _ hk]
  congr 1
  omega

/-- A bound on the length bounds the number of full pieces. -/
lemma numFull_le (hk : 0 < k) (h : len ≤ k * (n + 1)) : numFull k len ≤ n := by
  have hpos : 0 < k * (n + 1) := Nat.mul_pos hk (Nat.succ_pos n)
  have hlt : len - 1 < (n + 1) * k := by
    rw [Nat.mul_comm]
    omega
  exact Nat.lt_succ_iff.mp ((Nat.div_lt_iff_lt_mul hk).mpr hlt)

lemma chunk_length {l : List α} (h : i < numFull k l.length) : (chunk k l i).length = k := by
  have h1 : k * (i + 1) ≤ k * numFull k l.length := Nat.mul_le_mul_left k h
  have h2 := mul_numFull_le k l.length
  rw [Nat.mul_succ] at h1
  rw [chunk, List.length_take, List.length_drop]
  omega

/-- The pieces of the list after its first piece. -/
lemma chunk_drop (l : List α) (i : ℕ) : chunk k (l.drop k) i = chunk k l (i + 1) := by
  rw [chunk, chunk, List.drop_drop, Nat.mul_succ, Nat.add_comm]

/-- The first `n` pieces in order are the first `k * n` elements. -/
lemma flatten_chunks (l : List α) (n : ℕ) :
    ((List.range n).map (chunk k l)).flatten = l.take (k * n) := by
  induction n with
  | zero => simp
  | succ n ih =>
      rw [List.range_succ, List.map_append, List.flatten_append, ih, Nat.mul_succ, List.take_add]
      simp [chunk]

/-- The pieces and what they leave are the whole list. -/
lemma flatten_chunks_append (l : List α) (n : ℕ) :
    ((List.range n).map (chunk k l)).flatten ++ l.drop (k * n) = l := by
  rw [flatten_chunks, List.take_append_drop]

end Chunk
