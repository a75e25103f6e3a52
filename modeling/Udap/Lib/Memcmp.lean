import Udap.Lib.Bytes

/-!
The order that `memcmp` gives byte strings of one length, and the XOR distance.

* `memcmpLt_iff`: the order is the order of the numbers the strings denote, most significant
  byte first (`beNat`), so that it is a strict total order (`beNat_injective`).
* `beNat_xor_injective`: different strings have different distances to any third one.
* `xorWords_eq`: XOR word by word is XOR byte by byte.
-/

namespace ByteMem

/-- `memcmp(a, b, n) < 0` for two strings of `n` bytes. -/
def memcmpLt : Bytes → Bytes → Bool
  | a :: as, b :: bs => if a = b then memcmpLt as bs else a < b
  | _, _ => false

/-- The number a byte string denotes, most significant byte first. -/
def beNat : Bytes → ℕ
  | [] => 0
  | b :: bs => b.toNat * 256 ^ bs.length + beNat bs

lemma beNat_lt (b : Bytes) : beNat b < 256 ^ b.length := by
  induction b with
  | nil => simp [beNat]
  | cons x xs ih =>
      have hx : x.toNat + 1 ≤ 256 := x.toNat_lt
      have hmul : (x.toNat + 1) * 256 ^ xs.length ≤ 256 * 256 ^ xs.length :=
        Nat.mul_le_mul_right _ hx
      rw [beNat, List.length_cons, pow_succ]
      linarith

/-- A byte decides before all that follow it. -/
lemma beNat_cons_lt {x y : UInt8} {xs ys : Bytes} (hlen : xs.length = ys.length) (h : x < y) :
    beNat (x :: xs) < beNat (y :: ys) := by
  have hxy : x.toNat + 1 ≤ y.toNat := UInt8.lt_iff_toNat_lt.mp h
  have hmul : (x.toNat + 1) * 256 ^ ys.length ≤ y.toNat * 256 ^ ys.length :=
    Nat.mul_le_mul_right _ hxy
  have hxs := beNat_lt xs
  rw [beNat, beNat, hlen]
  rw [hlen] at hxs
  linarith

lemma memcmpLt_iff {a b : Bytes} (h : a.length = b.length) :
    memcmpLt a b = true ↔ beNat a < beNat b := by
  induction a generalizing b with
  | nil =>
      cases b with
      | nil => simp [memcmpLt, beNat]
      | cons y ys => cases h
  | cons x xs ih =>
      cases b with
      | nil => cases h
      | cons y ys =>
          have hlen : xs.length = ys.length := Nat.succ.inj h
          rw [memcmpLt]
          split_ifs with hxy
          · subst hxy
            rw [ih hlen, beNat, beNat, hlen]
            omega
          · obtain hlt | hgt := lt_or_gt_of_ne (fun he => hxy (UInt8.toNat_inj.mp he))
            · have := beNat_cons_lt hlen (UInt8.lt_iff_toNat_lt.mpr hlt)
              simp [UInt8.lt_iff_toNat_lt, hlt, this]
            · have := beNat_cons_lt hlen.symm (UInt8.lt_iff_toNat_lt.mpr hgt)
              simp only [decide_eq_true_eq, UInt8.lt_iff_toNat_lt]
              omega

lemma memcmpLt_irrefl (a : Bytes) : memcmpLt a a = false := by
  rw [Bool.eq_false_iff, ne_eq, memcmpLt_iff rfl]
  exact lt_irrefl _

/-- Strings of one length that denote the same number are equal. -/
lemma beNat_injective {a b : Bytes} (h : a.length = b.length) (heq : beNat a = beNat b) :
    a = b := by
  induction a generalizing b with
  | nil =>
      cases b with
      | nil => rfl
      | cons y ys => cases h
  | cons x xs ih =>
      cases b with
      | nil => cases h
      | cons y ys =>
          have hlen : xs.length = ys.length := Nat.succ.inj h
          have hxy : x = y := by
            by_contra hne
            obtain hlt | hgt := lt_or_gt_of_ne (fun he => hne (UInt8.toNat_inj.mp he))
            · exact (beNat_cons_lt hlen (UInt8.lt_iff_toNat_lt.mpr hlt)).ne heq
            · exact (beNat_cons_lt hlen.symm (UInt8.lt_iff_toNat_lt.mpr hgt)).ne' heq
          subst hxy
          rw [beNat, beNat, hlen] at heq
          rw [ih hlen (Nat.add_left_cancel heq)]

/-- The bytewise XOR of two strings. -/
def xorBytes (a b : Bytes) : Bytes := List.zipWith (· ^^^ ·) a b

@[simp] lemma xorBytes_length (a b : Bytes) :
    (xorBytes a b).length = min a.length b.length := List.length_zipWith

lemma xorBytes_comm (a b : Bytes) : xorBytes a b = xorBytes b a := by
  rw [xorBytes, xorBytes, List.zipWith_comm]
  simp only [UInt8.xor_comm]

/-- XOR with a string is injective. -/
lemma xorBytes_right_injective {a b t : Bytes} (ha : a.length = t.length)
    (hb : b.length = t.length) (h : xorBytes a t = xorBytes b t) : a = b := by
  induction t generalizing a b with
  | nil => rw [List.length_eq_zero_iff.mp ha, List.length_eq_zero_iff.mp hb]
  | cons z t ih =>
      cases a with
      | nil => cases ha
      | cons x a =>
          cases b with
          | nil => cases hb
          | cons y b =>
              obtain ⟨hxy, hrest⟩ := List.cons.inj h
              rw [(UInt8.xor_left_inj z).mp hxy,
                ih (Nat.succ.inj ha) (Nat.succ.inj hb) hrest]

/-- Different strings have different distances to a third one. -/
lemma beNat_xor_injective {a b t : Bytes} (ha : a.length = t.length) (hb : b.length = t.length)
    (h : beNat (xorBytes a t) = beNat (xorBytes b t)) : a = b := by
  refine xorBytes_right_injective ha hb (beNat_injective ?_ h)
  rw [xorBytes_length, xorBytes_length, ha, hb]

/-! ### Words -/

/-- The eight byte word of a string at an index, in the byte order of the host. -/
def word (b : Bytes) (idx : ℕ) : UInt64 := UInt64.ofNat (leNat (slice b (8 * idx) 8))

/-- The XOR of the first `n` words of two strings. -/
def xorWords : ℕ → Bytes → Bytes → Bytes
  | 0, _, _ => []
  | n + 1, a, b => xorWords n a b ++ leBytes 8 (word a n ^^^ word b n).toNat

/-- The bytes of an XOR of integers. -/
lemma leBytes_xor {a b : Bytes} (h : a.length = b.length) :
    leBytes a.length (leNat a ^^^ leNat b) = xorBytes a b := by
  induction a generalizing b with
  | nil => rfl
  | cons x a ih =>
      cases b with
      | nil => cases h
      | cons y b =>
          have hx := x.toNat_lt
          have hy := y.toNat_lt
          have hlow : (leNat (x :: a) ^^^ leNat (y :: b)) % 256 = x.toNat ^^^ y.toNat := by
            rw [show 256 = 2 ^ 8 from rfl, Nat.xor_mod_two_pow, leNat, leNat]
            congr 1 <;> omega
          have hhigh : (leNat (x :: a) ^^^ leNat (y :: b)) / 256 = leNat a ^^^ leNat b := by
            rw [show 256 = 2 ^ 8 from rfl, Nat.xor_div_two_pow, leNat, leNat]
            congr 1 <;> omega
          have hbyte : UInt8.ofNat (x.toNat ^^^ y.toNat) = x ^^^ y := by
            rw [← UInt8.toNat_xor, UInt8.ofNat_toNat]
          rw [List.length_cons, leBytes, hlow, hhigh, ih (Nat.succ.inj h), hbyte]
          rfl

lemma toNat_word (b : Bytes) (idx : ℕ) : (word b idx).toNat = leNat (slice b (8 * idx) 8) := by
  refine UInt64.toNat_ofNat_of_lt' ((leNat_lt _).trans_eq ?_)
  rw [slice_length]
  rfl

/-- XOR word by word is XOR byte by byte. -/
lemma xorWords_eq {n : ℕ} {a b : Bytes} (ha : 8 * n ≤ a.length) (hb : 8 * n ≤ b.length) :
    xorWords n a b = (xorBytes a b).take (8 * n) := by
  induction n with
  | zero => rfl
  | succ n ih =>
      have hword : leBytes 8 (word a n ^^^ word b n).toNat =
          xorBytes (slice a (8 * n) 8) (slice b (8 * n) 8) := by
        rw [UInt64.toNat_xor, toNat_word, toNat_word, ← leBytes_xor (by simp), slice_length]
      rw [xorWords, hword, ih (by omega) (by omega), slice_eq_take (by omega),
        slice_eq_take (by omega), Nat.mul_succ, List.take_add]
      congr 1
      rw [xorBytes, xorBytes, List.drop_zipWith, List.take_zipWith]

end ByteMem
