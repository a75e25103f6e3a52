import Udap.Lib.Bytes
import Mathlib.Data.Nat.Digits.Lemmas

/-!
Decimal numbers as the C library prints and reads them.

* `decimal` and `decimalInt` are what `%lu` and `%ld` print.
* `strtol` reads a number back: it skips white space, takes a sign, stops at the first
  character that is no digit, and saturates at the range of `long`.
* `strtol_decimal`: a printed number below `2 ^ 63` reads back as itself; `strtol_decimalInt`: so
  does every `long`.
* `integerOf` is the integer without the range; `integerOf_of_strtol`.
* `Denotes` is the grammar of an integer; `Denotes.integerOf_eq`.
-/

namespace ByteMem

/-- `isdigit`. -/
def isdigit (c : UInt8) : Bool := 48 ≤ c && c ≤ 57

/-- `isspace`. -/
def isspace (c : UInt8) : Bool := c == 32 || (9 ≤ c && c ≤ 13)

/-- The decimal digits of a number, most significant first. -/
def decimal (n : ℕ) : Bytes :=
  if n = 0 then [48] else (Nat.digits 10 n).reverse.map fun d => UInt8.ofNat (48 + d)

/-- The decimal digits of an integer after its sign. -/
def decimalInt : ℤ → Bytes
  | .ofNat n => decimal n
  | .negSucc n => 45 :: decimal (n + 1)

/-- The value of the leading digits of a string after the digits with value `acc`. -/
def digitsValue : ℕ → Bytes → ℕ
  | acc, [] => acc
  | acc, c :: cs => if isdigit c then digitsValue (10 * acc + (c.toNat - 48)) cs else acc

/-- The nearest value of type `long`. -/
def clampLong (z : ℤ) : ℤ := max (-2 ^ 63) (min z (2 ^ 63 - 1))

/-- `strtol` in base ten. -/
def strtol (s : Bytes) : ℤ :=
  match s.dropWhile isspace with
  | [] => 0
  | c :: cs =>
      if c = 45 then clampLong (-(digitsValue 0 cs))
      else if c = 43 then clampLong (digitsValue 0 cs)
      else clampLong (digitsValue 0 (c :: cs))

/-- The integer at the start of a string, of any size. -/
def integerOf (s : Bytes) : ℤ :=
  match s.dropWhile isspace with
  | [] => 0
  | c :: cs =>
      if c = 45 then -(digitsValue 0 cs)
      else if c = 43 then digitsValue 0 cs
      else digitsValue 0 (c :: cs)

lemma strtol_eq_clampLong (s : Bytes) : strtol s = clampLong (integerOf s) := by
  rw [strtol, integerOf]
  cases s.dropWhile isspace with
  | nil => simp [clampLong]
  | cons c cs =>
      dsimp only
      split_ifs <;> rfl

/-- Small numbers are read as they are: others saturate, and negative ones are large as unsigned
ones. -/
lemma integerOf_of_strtol {s : Bytes} {n : ℕ} (h : (UInt64.ofInt (strtol s)).toNat = n)
    (hn : n < 2 ^ 62) : integerOf s = n := by
  have hval : (UInt64.ofInt (strtol s)).toNat = (strtol s % 2 ^ 64).toNat := by
    rw [UInt64.ofInt, UInt64.toNat_ofNat']
    omega
  rw [hval, strtol_eq_clampLong, clampLong] at h
  omega

/-- A digit is no white space and no sign. -/
lemma of_isdigit {c : UInt8} (h : isdigit c = true) : isspace c = false ∧ c ≠ 45 ∧ c ≠ 43 := by
  have hc : 48 ≤ c ∧ c ≤ 57 := by simpa [isdigit] using h
  have hlow : 48 ≤ c.toNat := UInt8.le_iff_toNat_le.mp hc.1
  have hne (d : UInt8) (hd : d.toNat < 48) : c ≠ d := by
    rintro rfl
    omega
  have hlarge : ¬ c ≤ 13 := fun hle => by
    have hle' : c.toNat ≤ 13 := UInt8.le_iff_toNat_le.mp hle
    omega
  refine ⟨?_, hne 45 (by decide), hne 43 (by decide)⟩
  simp [isspace, hne 32 (by decide), hlarge]

/-- Digits only, without a sign. -/
lemma integerOf_of_isdigit {s : Bytes} (h : ∀ c ∈ s, isdigit c = true) :
    integerOf s = digitsValue 0 s := by
  cases s with
  | nil => rfl
  | cons c cs =>
      obtain ⟨hspace, hminus, hplus⟩ := of_isdigit (h c List.mem_cons_self)
      rw [integerOf, List.dropWhile_cons_of_neg (by simp [hspace])]
      simp only [if_neg hminus, if_neg hplus]

/-- A minus sign in front. -/
lemma integerOf_minus (s : Bytes) : integerOf (45 :: s) = -(digitsValue 0 s) := by
  have hspace : isspace 45 = false := by decide
  rw [integerOf, List.dropWhile_cons_of_neg (by simp [hspace])]
  exact if_pos rfl

/-- The digits say how large a number can be. -/
lemma digitsValue_lt (acc : ℕ) (s : Bytes) : digitsValue acc s < (acc + 1) * 10 ^ s.length := by
  induction s generalizing acc with
  | nil => simp [digitsValue]
  | cons c s ih =>
      rw [digitsValue, List.length_cons, pow_succ]
      split_ifs with hc
      · have hle : c ≤ 57 := by simpa [isdigit] using (Bool.and_eq_true_iff.mp hc).2
        have hle' : c.toNat ≤ 57 := UInt8.le_iff_toNat_le.mp hle
        have hacc : 10 * acc + (c.toNat - 48) + 1 ≤ (acc + 1) * 10 := by omega
        have hmul := Nat.mul_le_mul_right (10 ^ s.length) hacc
        have hlt := ih (10 * acc + (c.toNat - 48))
        linarith
      · have hpos : 0 < 10 ^ s.length := by positivity
        nlinarith

lemma strtol_lt {s : Bytes} {n : ℕ} (h : s.length ≤ n) : strtol s < 10 ^ n := by
  have hlen : (s.dropWhile isspace).length ≤ n := (List.dropWhile_suffix _).length_le.trans h
  have hvalue : ∀ t : Bytes, t.length ≤ n → (digitsValue 0 t : ℤ) < 10 ^ n := by
    intro t ht
    have hlt := digitsValue_lt 0 t
    rw [Nat.zero_add, Nat.one_mul] at hlt
    exact_mod_cast hlt.trans_le (Nat.pow_le_pow_right (by norm_num) ht)
  have hinteger : integerOf s < 10 ^ n := by
    rw [integerOf]
    cases hdrop : s.dropWhile isspace with
    | nil => positivity
    | cons c t =>
        rw [hdrop, List.length_cons] at hlen
        have hpos : (0 : ℤ) < 10 ^ n := by positivity
        dsimp only
        split_ifs
        · omega
        · exact hvalue t (by omega)
        · exact hvalue (c :: t) hlen
  have hpos : (0 : ℤ) < 10 ^ n := by positivity
  rw [strtol_eq_clampLong, clampLong]
  omega

/-! ### Printed numbers -/

/-- The character of a decimal digit. -/
lemma isdigit_ofNat {d : ℕ} (h : d < 10) : isdigit (UInt8.ofNat (48 + d)) = true := by
  interval_cases d <;> decide

lemma toNat_ofNat_digit {d : ℕ} (h : d < 10) : (UInt8.ofNat (48 + d)).toNat - 48 = d := by
  interval_cases d <;> decide

/-- A printed number has digits only. -/
lemma isdigit_of_mem_decimal {n : ℕ} {c : UInt8} (h : c ∈ decimal n) : isdigit c = true := by
  rw [decimal] at h
  split_ifs at h
  · rw [List.mem_singleton.mp h]
    decide
  · obtain ⟨d, hd, rfl⟩ := List.mem_map.mp h
    exact isdigit_ofNat (Nat.digits_lt_base (by norm_num) (List.mem_reverse.mp hd))

lemma decimal_ne_nil (n : ℕ) : decimal n ≠ [] := by
  rw [decimal]
  split_ifs with h
  · simp
  · simpa using Nat.digits_ne_nil_iff_ne_zero.mpr h

/-- A number below `10 ^ k` is printed with at most `k` digits. -/
lemma decimal_length_le {n k : ℕ} (hk : 0 < k) (h : n < 10 ^ k) : (decimal n).length ≤ k := by
  rw [decimal]
  split_ifs
  · exact hk
  · simpa using (Nat.digits_length_le_iff (by norm_num) n).mpr h

/-- The digits read back most significant first. -/
lemma digitsValue_map {ds : List ℕ} (h : ∀ d ∈ ds, d < 10) (acc : ℕ) :
    digitsValue acc (ds.map fun d => UInt8.ofNat (48 + d)) =
      ds.foldl (fun a d => 10 * a + d) acc := by
  induction ds generalizing acc with
  | nil => rfl
  | cons d ds ih =>
      have hd : d < 10 := h d List.mem_cons_self
      rw [List.map_cons, digitsValue, if_pos (isdigit_ofNat hd), toNat_ofNat_digit hd,
        ih (fun e he => h e (List.mem_cons_of_mem _ he)), List.foldl_cons]

lemma digitsValue_decimal (n : ℕ) : digitsValue 0 (decimal n) = n := by
  rw [decimal]
  split_ifs with h
  · rw [h]
    decide
  · have hds : ∀ d ∈ (Nat.digits 10 n).reverse, d < 10 := fun d hd =>
      Nat.digits_lt_base (by norm_num) (List.mem_reverse.mp hd)
    rw [digitsValue_map hds, List.foldl_reverse]
    calc (Nat.digits 10 n).foldr (fun d a => 10 * a + d) 0
        = (Nat.digits 10 n).foldr (fun d a => d + 10 * a) 0 := by simp only [Nat.add_comm]
      _ = Nat.ofDigits 10 (Nat.digits 10 n) := (Nat.ofDigits_eq_foldr 10 _).symm
      _ = n := Nat.ofDigits_digits 10 n

/-- A printed number reads back as itself. -/
theorem strtol_decimal {n : ℕ} (h : n < 2 ^ 63) : strtol (decimal n) = n := by
  have hint := integerOf_of_isdigit fun c (hc : c ∈ decimal n) => isdigit_of_mem_decimal hc
  rw [digitsValue_decimal] at hint
  rw [strtol_eq_clampLong, hint, clampLong]
  omega

/-! ### Printed integers -/

lemma decimalInt_ne_nil (z : ℤ) : decimalInt z ≠ [] := by
  cases z with
  | ofNat n => exact decimal_ne_nil n
  | negSucc n => exact List.cons_ne_nil _ _

/-- A printed integer has digits only, and a sign. -/
lemma of_mem_decimalInt {z : ℤ} {c : UInt8} (h : c ∈ decimalInt z) :
    c = 45 ∨ isdigit c = true := by
  cases z with
  | ofNat n => exact .inr (isdigit_of_mem_decimal h)
  | negSucc n => exact (List.mem_cons.mp h).imp_right isdigit_of_mem_decimal

lemma decimalInt_length_le {z : ℤ} {k : ℕ} (hk : 0 < k) (h : z.natAbs < 10 ^ k) :
    (decimalInt z).length ≤ k + 1 := by
  cases z with
  | ofNat n => exact (decimal_length_le hk h).trans (Nat.le_succ k)
  | negSucc n => exact Nat.succ_le_succ (decimal_length_le hk h)

theorem strtol_decimalInt {z : ℤ} (h : -2 ^ 63 ≤ z) (h' : z < 2 ^ 63) :
    strtol (decimalInt z) = z := by
  cases z with
  | ofNat n => exact strtol_decimal (Int.ofNat_lt.mp h')
  | negSucc n =>
      rw [decimalInt, strtol_eq_clampLong, integerOf_minus, digitsValue_decimal, clampLong]
      omega

/-! ### Numerals -/

/-- One or more digits. -/
structure IsNumeral (s : Bytes) : Prop where
  ne_nil : s ≠ []
  digits : ∀ c ∈ s, isdigit c = true

/-- The number that digits denote. -/
def numeralValue (s : Bytes) : ℕ := Nat.ofDigits 10 (s.reverse.map fun c => c.toNat - 48)

/-- An integer, with a minus sign or without a sign, and what it denotes. -/
inductive Denotes : Bytes → ℤ → Prop
  | numeral {s : Bytes} (h : IsNumeral s) : Denotes s (numeralValue s)
  | minus {s : Bytes} (h : IsNumeral s) : Denotes (45 :: s) (-(numeralValue s))

section Numerals

variable {s : Bytes} {z z' : ℤ}

lemma digitsValue_eq_foldl (h : ∀ c ∈ s, isdigit c = true) (acc : ℕ) :
    digitsValue acc s = s.foldl (fun a c => 10 * a + (c.toNat - 48)) acc := by
  induction s generalizing acc with
  | nil => rfl
  | cons c s ih =>
      rw [digitsValue, if_pos (h c List.mem_cons_self), List.foldl_cons]
      exact ih (fun d hd => h d (List.mem_cons_of_mem c hd)) _

lemma digitsValue_eq_numeralValue (h : ∀ c ∈ s, isdigit c = true) :
    digitsValue 0 s = numeralValue s := by
  rw [digitsValue_eq_foldl h, numeralValue, Nat.ofDigits_eq_foldr, List.foldr_map,
    List.foldr_reverse]
  simp only [Nat.cast_id, Nat.add_comm]

lemma IsNumeral.integerOf_eq (h : IsNumeral s) : integerOf s = numeralValue s := by
  rw [integerOf_of_isdigit h.digits, digitsValue_eq_numeralValue h.digits]

lemma Denotes.integerOf_eq (h : Denotes s z) : integerOf s = z := by
  cases h with
  | numeral h => exact h.integerOf_eq
  | minus h => rw [integerOf_minus, digitsValue_eq_numeralValue h.digits]

/-- The first byte of an integer is a digit or the sign, and so are all. -/
lemma Denotes.of_mem (h : Denotes s z) {c : UInt8} (hc : c ∈ s) : c = 45 ∨ isdigit c = true := by
  cases h with
  | numeral h => exact .inr (h.digits c hc)
  | minus h => exact (List.mem_cons.mp hc).imp_right (h.digits c)

/-- The value of a few digits. -/
lemma IsNumeral.numeralValue_lt (h : IsNumeral s) : numeralValue s < 10 ^ s.length := by
  have hdigit : ∀ d ∈ s.reverse.map fun c => c.toNat - 48, d < 10 := by
    intro d hd
    obtain ⟨c, hc, rfl⟩ := List.mem_map.mp hd
    have hle : c ≤ 57 := by
      simpa [isdigit] using (Bool.and_eq_true_iff.mp (h.digits c (List.mem_reverse.mp hc))).2
    have hle' : c.toNat ≤ 57 := UInt8.le_iff_toNat_le.mp hle
    omega
  have hlt := Nat.ofDigits_lt_base_pow_length (by norm_num) hdigit
  rwa [List.length_map, List.length_reverse] at hlt

end Numerals

end ByteMem
