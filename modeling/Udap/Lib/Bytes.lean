import Mathlib.Tactic
import Mathlib.Data.Vector.Basic

/-!
Byte strings as the memory of a C program sees them.

* `slice`: the `memcpy` out of a buffer, total because reads past the end of the
  string give `0`; `slice_mid` reads back a field of a concatenation.
* `memcpy`: the copy into a buffer at an offset; `memcpy_at` writes one field of a
  concatenation.
* `leBytes`, `leNat`: fixed width integers in the byte order of the host, with
  `leNat_leBytes`, the round trip modulo the width.
* `usub`: unsigned subtraction at the width of `size_t`.
-/

namespace ByteMem

/-- A byte string. -/
abbrev Bytes := List UInt8

/-- A byte string of fixed length. -/
abbrev Blob (n : ℕ) := List.Vector UInt8 n

/-! ### Reading and writing at an offset -/

/-- The `len` bytes at offset `off`; bytes past the end read as `0`. -/
def slice (b : Bytes) (off len : ℕ) : Bytes := (b.drop off).takeD len 0

@[simp] lemma slice_length (b : Bytes) (off len : ℕ) : (slice b off len).length = len :=
  List.takeD_length _ _ _

@[simp] lemma slice_zero (b : Bytes) (off : ℕ) : slice b off 0 = [] := rfl

/-- A field in the middle of a concatenation reads back as itself. -/
lemma slice_mid {a b c : Bytes} {off len : ℕ} (ha : a.length = off) (hb : b.length = len) :
    slice (a ++ (b ++ c)) off len = b := by
  subst ha hb
  rw [slice, List.drop_left, List.takeD_left]

/-- The first field of a concatenation. -/
lemma slice_head {b c : Bytes} {len : ℕ} (hb : b.length = len) : slice (b ++ c) 0 len = b :=
  slice_mid (a := []) rfl hb

/-- The last field of a concatenation. -/
lemma slice_last {a b : Bytes} {off len : ℕ} (ha : a.length = off) (hb : b.length = len) :
    slice (a ++ b) off len = b := by
  simpa using slice_mid (c := []) ha hb

/-- Inside the string a slice is the sublist at that place. -/
lemma slice_eq_take {b : Bytes} {off len : ℕ} (h : off + len ≤ b.length) :
    slice b off len = (b.drop off).take len := by
  rw [slice, List.takeD_eq_take]
  rw [List.length_drop]
  omega

/-- A whole string is the slice of its full length. -/
@[simp] lemma slice_self (b : Bytes) : slice b 0 b.length = b := by
  simp [slice_eq_take]

lemma takeD_append (a b : Bytes) {n : ℕ} (h : a.length ≤ n) :
    (a ++ b).takeD n 0 = a ++ b.takeD (n - a.length) 0 := by
  induction a generalizing n with
  | nil => rfl
  | cons x a ih =>
      obtain ⟨k, rfl⟩ : ∃ k, n = k + 1 := ⟨n - 1, by simp at h; omega⟩
      rw [List.length_cons] at h ⊢
      rw [Nat.add_sub_add_right]
      exact congrArg (x :: ·) (ih (Nat.le_of_succ_le_succ h))

/-- The start of a string is the start of every longer slice from there. -/
lemma prefix_slice (a b : Bytes) {n : ℕ} (h : a.length ≤ n) : a <+: slice (a ++ b) 0 n :=
  ⟨_, (takeD_append a b h).symm⟩

/-- A byte of a slice. -/
lemma getD_slice (b : Bytes) (off : ℕ) {i len : ℕ} (h : i < len) :
    (slice b off len).getD i 0 = b.getD (off + i) 0 := by
  have htake : ∀ (l : Bytes) (n i : ℕ), i < n → (l.takeD n 0).getD i 0 = l.getD i 0 := by
    intro l n
    induction n generalizing l with
    | zero => intro i hi; omega
    | succ n ih =>
        intro i hi
        cases l with
        | nil =>
            cases i with
            | zero => simp
            | succ i => simp [show i < n by omega]
        | cons x l =>
            cases i with
            | zero => rfl
            | succ i => exact ih l i (by omega)
  rw [slice, htake _ _ _ h]
  simp [List.getD_eq_getElem?_getD, List.getElem?_drop]

/-- A slice of a slice. -/
lemma slice_slice (b : Bytes) (o : ℕ) {n off len : ℕ} (h : off + len ≤ n) :
    slice (slice b o n) off len = slice b (o + off) len := by
  refine List.ext_getElem (by simp) fun i h₁ h₂ => ?_
  rw [slice_length] at h₁
  have hget := getD_slice (slice b o n) off h₁
  rw [getD_slice b o (by omega), ← Nat.add_assoc, ← getD_slice b (o + off) h₁] at hget
  simpa [List.getD_eq_getElem?_getD, h₁] using hget

/-- The fixed length string at offset `off`. -/
def sliceBlob (b : Bytes) (off len : ℕ) : Blob len := ⟨slice b off len, slice_length b off len⟩

@[simp] lemma sliceBlob_val (b : Bytes) (off len : ℕ) :
    (sliceBlob b off len).1 = slice b off len := rfl

/-- Copy `src` over `dst` at offset `off`. The destination keeps its length as long as the
copy stays inside it; a copy past its end makes the string longer. -/
def memcpy (dst : Bytes) (off : ℕ) (src : Bytes) : Bytes :=
  dst.take off ++ src ++ dst.drop (off + src.length)

/-- Overwriting one field of a concatenation. -/
lemma memcpy_at {a b c s : Bytes} {o : ℕ} (ha : a.length = o) (hb : b.length = s.length) :
    memcpy (a ++ (b ++ c)) o s = a ++ (s ++ c) := by
  subst ha
  have hd : (a ++ (b ++ c)).drop (a.length + s.length) = c := by
    rw [← List.append_assoc]
    exact List.drop_left' (by simp [hb])
  rw [memcpy, List.take_left, hd, List.append_assoc]

/-- A copy that stays inside the destination keeps its length. -/
lemma memcpy_length {dst src : Bytes} {off : ℕ} (h : off + src.length ≤ dst.length) :
    (memcpy dst off src).length = dst.length := by
  simp only [memcpy, List.length_append, List.length_take, List.length_drop]
  omega

/-! ### Fixed width integers -/

/-- The `k` low bytes of `n`, least significant first. -/
def leBytes : ℕ → ℕ → Bytes
  | 0, _ => []
  | k + 1, n => UInt8.ofNat (n % 256) :: leBytes k (n / 256)

/-- The number a byte string denotes, least significant byte first. -/
def leNat : Bytes → ℕ
  | [] => 0
  | b :: bs => b.toNat + 256 * leNat bs

@[simp] lemma leBytes_length (k n : ℕ) : (leBytes k n).length = k := by
  induction k generalizing n with
  | zero => rfl
  | succ k ih => simp [leBytes, ih]

/-- Writing and reading a `k` byte integer keeps it modulo `256 ^ k`. -/
lemma leNat_leBytes (k n : ℕ) : leNat (leBytes k n) = n % 256 ^ k := by
  induction k generalizing n with
  | zero => simp [leBytes, leNat, Nat.mod_one]
  | succ k ih =>
      have hb : (UInt8.ofNat (n % 256)).toNat = n % 256 := by
        rw [UInt8.toNat_ofNat']
        omega
      rw [leBytes, leNat, ih, hb, pow_succ, Nat.mul_comm (256 ^ k) 256, Nat.mod_mul]

/-- The sixteen bit case. -/
lemma leNat_leBytes_two (n : ℕ) : leNat (leBytes 2 n) = n % 65536 := leNat_leBytes 2 n

/-- A value below `256 ^ k` survives the round trip. -/
lemma leNat_leBytes_of_lt {k n : ℕ} (h : n < 256 ^ k) : leNat (leBytes k n) = n := by
  rw [leNat_leBytes, Nat.mod_eq_of_lt h]

/-- A `k` byte integer is below `256 ^ k`. -/
lemma leNat_lt (b : Bytes) : leNat b < 256 ^ b.length := by
  induction b with
  | nil => simp [leNat]
  | cons x xs ih =>
      have hx := x.toNat_lt
      rw [leNat, List.length_cons, pow_succ]
      omega

/-- Unsigned subtraction at the width of `size_t`. -/
def usub (a b : ℕ) : ℕ := (a + (2 ^ 64 - b % 2 ^ 64)) % 2 ^ 64

/-- Without a borrow it is subtraction. -/
lemma usub_eq {a b : ℕ} (h : b ≤ a) (ha : a < 2 ^ 64) : usub a b = a - b := by
  rw [usub, Nat.mod_eq_of_lt (show b < 2 ^ 64 by omega)]
  omega

end ByteMem
