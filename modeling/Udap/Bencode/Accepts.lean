import Udap.Bencode.Fields
import Udap.Bencode.Reads

/-!
What the bencode readers accept.

The text of a number ends at its delimiter or where the array for it is full, and the byte behind
it is skipped, whatever it is. A number is made of any text.

* `readNumber_iff`: the text of a number and the byte behind it.
* `readString_iff`, `readInteger_iff`: the accepted strings and integers.
* `IsString`, `IsInteger`: those of the format; `isString_strBytes` and `isInteger_intBytes`: the
  writers write such.
* `readsBencode_iff`: the buffers of which no others are accepted.
-/

namespace Udap

open ByteMem

/-! ### The format -/

/-- A byte string: digits, a colon, and as many bytes as the digits denote. -/
def IsString (s str : Bytes) : Prop :=
  ∃ digits, IsNumeral digits ∧ s = digits ++ [ascii ':'] ++ str ∧
    str.length = numeralValue digits

/-- An integer, which is taken modulo `2 ^ 64`. -/
def IsInteger (s : Bytes) (i : UInt64) : Prop :=
  ∃ text z, Denotes text z ∧ s = [ascii 'i'] ++ text ++ [ascii 'e'] ∧ i = UInt64.ofInt z

lemma isNumeral_decimal (n : ℕ) : IsNumeral (decimal n) :=
  ⟨decimal_ne_nil n, fun _ => isdigit_of_mem_decimal⟩

lemma numeralValue_decimal (n : ℕ) : numeralValue (decimal n) = n := by
  rw [← digitsValue_eq_numeralValue (isNumeral_decimal n).digits, digitsValue_decimal]

lemma denotes_decimalInt (z : ℤ) : Denotes (decimalInt z) z := by
  cases z with
  | ofNat n =>
      have h := Denotes.numeral (isNumeral_decimal n)
      rwa [numeralValue_decimal] at h
  | negSucc n =>
      have h := Denotes.minus (isNumeral_decimal (n + 1))
      rwa [numeralValue_decimal] at h

/-- A string that ends in its bytes begins with its length and a colon. -/
lemma isString_append_iff {text str : Bytes} {c : UInt8} :
    IsString (text ++ [c] ++ str) str ↔
      IsNumeral text ∧ c = ascii ':' ∧ str.length = numeralValue text := by
  constructor
  · rintro ⟨digits, hdigits, heq, hlen⟩
    obtain ⟨rfl, hc⟩ := List.append_inj' (List.append_cancel_right heq) rfl
    exact ⟨hdigits, List.singleton_inj.mp hc, hlen⟩
  · rintro ⟨htext, rfl, hlen⟩
    exact ⟨text, htext, rfl, hlen⟩

lemma isInteger_append_iff {text : Bytes} {c : UInt8} {i : UInt64} :
    IsInteger ([ascii 'i'] ++ text ++ [c]) i ↔
      c = ascii 'e' ∧ ∃ z, Denotes text z ∧ i = UInt64.ofInt z := by
  constructor
  · rintro ⟨text', z, hz, heq, rfl⟩
    obtain ⟨htext, hc⟩ := List.append_inj' heq rfl
    obtain rfl := List.append_cancel_left htext
    exact ⟨List.singleton_inj.mp hc, z, hz, rfl⟩
  · rintro ⟨rfl, z, hz, rfl⟩
    exact ⟨text, z, hz, rfl, rfl⟩

namespace Buffer

variable {b b' : Buffer} {text str : Bytes} {delim c : UInt8} {n : ℕ}

/-! ### Numbers -/

/-- The text of a number, for which there is an array of `n` bytes, and the byte behind it. -/
structure Number (b : Buffer) (delim : UInt8) (n : ℕ) (text : Bytes) (c : UInt8) : Prop where
  holds : b.Holds (text ++ [c])
  ne_nil : text ≠ []
  not_mem : delim ∉ text
  length_le : text.length ≤ n
  ends : c = delim ∨ text.length = n

/-- The loop stops at the delimiter, at the end, or where the array is full. -/
lemma readUntil_spec (delim : UInt8) (n : ℕ) (b : Buffer) :
    ∃ text, b.readUntil delim n = (text, b.skip text.length) ∧ b.bytes text.length = text ∧
      delim ∉ text ∧ text.length ≤ n ∧
      ((b.skip text.length).peek = delim ∨ b.cur + text.length = b.sz ∨ text.length = n) := by
  induction n generalizing b with
  | zero => exact ⟨[], rfl, rfl, List.not_mem_nil, le_rfl, .inr (.inr rfl)⟩
  | succ n ih =>
      rw [readUntil]
      split_ifs with hstop
      · exact ⟨[], rfl, rfl, List.not_mem_nil, Nat.zero_le _, hstop.imp_right .inl⟩
      · obtain ⟨hdelim, hend⟩ := not_or.mp hstop
        obtain ⟨text, hread, hbytes, hmem, hle, hends⟩ := ih (b.skip 1)
        rw [skip_skip, Nat.add_comm 1] at hread hends
        refine ⟨b.peek :: text, ?_, ?_, ?_, Nat.succ_le_succ hle, ?_⟩
        · rw [hread]
          rfl
        · rw [List.length_cons, Nat.add_comm, bytes_add, hbytes]
          rfl
        · exact fun h => (List.mem_cons.mp h).elim (fun heq => hdelim heq.symm) hmem
        · refine hends.imp_right (Or.imp (fun hcur => ?_) (congrArg (· + 1)))
          change b.cur + 1 + text.length = b.sz at hcur
          rw [List.length_cons]
          omega

lemma Number.readNumber (h : b.Number delim n text c) :
    b.readNumber delim n = some (text, b.skip text.length) := by
  rcases h.ends with rfl | rfl
  · exact h.holds.readNumber h.not_mem h.ne_nil h.length_le
  · have hread := h.holds.left.readUntil_add h.not_mem 0
    rw [Nat.add_zero, readUntil, List.append_nil] at hread
    rw [Buffer.readNumber, hread]
    exact if_neg (not_or.mpr ⟨h.ne_nil, h.holds.right.sizeLeft_ne_zero⟩)

lemma readNumber_iff : b.readNumber delim n = some (text, b') ↔
    (∃ c, b.Number delim n text c) ∧ b' = b.skip text.length := by
  constructor
  · intro h
    obtain ⟨text', hread, hbytes, hmem, hle, hends⟩ := readUntil_spec delim n b
    rw [readNumber, hread] at h
    split_ifs at h with hnone
    obtain ⟨rfl, rfl⟩ := Prod.mk.inj (Option.some.inj h)
    obtain ⟨hne, hleft⟩ := not_or.mp hnone
    -- the window goes on behind the text
    have hlt : b.cur + text'.length < b.sz := by
      have hroom : b.sz - (b.cur + text'.length) ≠ 0 := hleft
      omega
    refine ⟨⟨(b.skip text'.length).peek, ?_, hne, hmem, hle, ?_⟩, rfl⟩
    · refine ⟨?_, ?_⟩
      · rw [List.length_append, List.length_singleton]
        exact hlt
      · rw [List.length_append, bytes_add, hbytes]
        rfl
    · exact hends.imp_right fun hor => hor.resolve_left hlt.ne
  · rintro ⟨⟨c, h⟩, rfl⟩
    exact h.readNumber

/-! ### Strings and integers -/

lemma since_skip (b : Buffer) (n : ℕ) : (b.skip n).since b.cur = b.bytes n :=
  congrArg b.bytes (Nat.add_sub_cancel_left ..)

lemma readString_iff : b.readString = some (str, b') ↔
    ∃ text c, b.Number (ascii ':') 9 text c ∧ 0 ≤ strtol text ∧
      text.length + 1 + (strtol text).toNat ≤ b.sizeLeft ∧
      str = (b.skip (text.length + 1)).bytes (strtol text).toNat ∧
      b' = b.skip (text.length + 1 + (strtol text).toNat) := by
  have hleft (k : ℕ) : (b.skip k).sizeLeft = b.sizeLeft - k := by
    rw [sizeLeft, sizeLeft, Nat.sub_sub]
    rfl
  constructor
  · intro h
    rw [readString] at h
    cases hn : b.readNumber (ascii ':') 9 with
    | none => simp [hn] at h
    | some r =>
        obtain ⟨text, rest⟩ := r
        obtain ⟨⟨c, hnumber⟩, rfl⟩ := readNumber_iff.mp hn
        have hroom := hnumber.holds.length_le
        rw [List.length_append, List.length_singleton] at hroom
        simp only [hn, skip_skip, hleft] at h
        split_ifs at h with hneg hlt
        obtain ⟨rfl, rfl⟩ := Prod.mk.inj (Option.some.inj h)
        exact ⟨text, c, hnumber, not_lt.mp hneg, by omega, rfl, rfl⟩
  · rintro ⟨text, c, hnumber, hnum, hroom, rfl, rfl⟩
    rw [readString, hnumber.readNumber]
    simp only [skip_skip, hleft]
    rw [if_neg (not_lt.mpr hnum), if_neg (by omega)]

lemma readInteger_iff {result i : UInt64} : b.readInteger result = (i, some b') ↔
    b.peek = ascii 'i' ∧ ∃ text c, (b.skip 1).Number (ascii 'e') 31 text c ∧
      i = UInt64.ofInt (strtol text) ∧ i ≠ UInt64.ofInt (-1) ∧
      b' = b.skip (1 + (text.length + 1)) := by
  constructor
  · intro h
    obtain ⟨hpeek, text, rest, hn, hi, hne, rfl⟩ := readInteger_inv h
    obtain ⟨⟨c, hnumber⟩, rfl⟩ := readNumber_iff.mp hn
    rw [skip_skip, skip_skip]
    exact ⟨hpeek, text, c, hnumber, hi, hne, rfl⟩
  · rintro ⟨hpeek, text, c, hnumber, rfl, hne, rfl⟩
    rw [readInteger, if_neg (not_not.mpr hpeek), hnumber.readNumber]
    simp only [skip_skip, if_neg hne, Nat.add_assoc]

/-- What the buffer holds from the number of a string on. -/
lemma Number.bytes_string (h : b.Number delim n text c) (k : ℕ) :
    b.bytes (text.length + 1 + k) = text ++ [c] ++ (b.skip (text.length + 1)).bytes k := by
  have hbytes := h.holds.bytes
  rw [List.length_append, List.length_singleton] at hbytes
  rw [bytes_add, hbytes]

lemma Number.bytes_integer (h : (b.skip 1).Number delim n text c) (hpeek : b.peek = ascii 'i') :
    b.bytes (1 + (text.length + 1)) = [ascii 'i'] ++ text ++ [c] := by
  have hbytes := h.holds.bytes
  rw [List.length_append, List.length_singleton] at hbytes
  rw [bytes_add, hbytes, ← hpeek, List.append_assoc]
  rfl

/-- A few digits are in the range of `atoi`. -/
lemma strtol_of_isNumeral (h : IsNumeral text) (hle : text.length ≤ 9) :
    strtol text = numeralValue text := by
  have hlt := h.numeralValue_lt.trans_le (Nat.pow_le_pow_right (by norm_num) hle)
  rw [strtol_eq_clampLong, h.integerOf_eq, clampLong]
  omega

/-- The mark of a failure is one value of `atol`. -/
lemma ofInt_strtol_eq_iff : UInt64.ofInt (strtol text) = UInt64.ofInt (-1) ↔ strtol text = -1 := by
  constructor
  · intro h
    have hval (z : ℤ) : (UInt64.ofInt z).toNat = (z % 2 ^ 64).toNat := by
      rw [UInt64.ofInt, UInt64.toNat_ofNat']
      omega
    have hmod := congrArg UInt64.toNat h
    rw [hval, hval, strtol_eq_clampLong, clampLong] at hmod
    rw [strtol_eq_clampLong, clampLong]
    omega
  · exact fun h => congrArg UInt64.ofInt h

/-! ### The accepted buffers -/

/-- What the readers accept is of the format. -/
structure ReadsBencode (b : Buffer) : Prop where
  string : ∀ str b', b.readString = some (str, b') → IsString (b'.since b.cur) str
  integer : ∀ result i b', b.readInteger result = (i, some b') → IsInteger (b'.since b.cur) i

/-- A length that is not refused is digits, and a colon is behind them. -/
def LengthInDigits (b : Buffer) : Prop :=
  ∀ text c, b.Number (ascii ':') 9 text c → 0 ≤ strtol text →
    text.length + 1 + (strtol text).toNat ≤ b.sizeLeft → IsNumeral text ∧ c = ascii ':'

/-- An integer that is not refused is digits behind a sign at most, in the range of a `long`, and
an `e` is behind it. Out of the range it may be that the nearest `long` is the same number
modulo `2 ^ 64`. -/
def IntegerInDigits (b : Buffer) : Prop :=
  b.peek = ascii 'i' → ∀ text c, (b.skip 1).Number (ascii 'e') 31 text c → strtol text ≠ -1 →
    c = ascii 'e' ∧ ∃ z, Denotes text z ∧ UInt64.ofInt (clampLong z) = UInt64.ofInt z

lemma string_iff : (∀ str b', b.readString = some (str, b') → IsString (b'.since b.cur) str) ↔
    b.LengthInDigits := by
  constructor
  · intro h text c hnumber hnum hroom
    have hread := h _ _ (readString_iff.mpr ⟨text, c, hnumber, hnum, hroom, rfl, rfl⟩)
    rw [since_skip, hnumber.bytes_string] at hread
    obtain ⟨hdigits, hcolon, -⟩ := isString_append_iff.mp hread
    exact ⟨hdigits, hcolon⟩
  · intro h str b' hread
    obtain ⟨text, c, hnumber, hnum, hroom, rfl, rfl⟩ := readString_iff.mp hread
    obtain ⟨hdigits, hcolon⟩ := h text c hnumber hnum hroom
    rw [since_skip, hnumber.bytes_string]
    refine isString_append_iff.mpr ⟨hdigits, hcolon, ?_⟩
    rw [bytes_length, strtol_of_isNumeral hdigits hnumber.length_le, Int.toNat_natCast]

lemma integer_iff : (∀ result i b', b.readInteger result = (i, some b') →
    IsInteger (b'.since b.cur) i) ↔ b.IntegerInDigits := by
  constructor
  · intro h hpeek text c hnumber hne
    have hread := h 0 _ _ (readInteger_iff.mpr ⟨hpeek, text, c, hnumber, rfl,
      fun heq => hne (ofInt_strtol_eq_iff.mp heq), rfl⟩)
    rw [since_skip, hnumber.bytes_integer hpeek] at hread
    obtain ⟨hend, z, hz, heq⟩ := isInteger_append_iff.mp hread
    rw [strtol_eq_clampLong, hz.integerOf_eq] at heq
    exact ⟨hend, z, hz, heq⟩
  · intro h result i b' hread
    obtain ⟨hpeek, text, c, hnumber, rfl, hne, rfl⟩ := readInteger_iff.mp hread
    obtain ⟨hend, z, hz, heq⟩ :=
      h hpeek text c hnumber fun hmark => hne (ofInt_strtol_eq_iff.mpr hmark)
    rw [since_skip, hnumber.bytes_integer hpeek]
    refine isInteger_append_iff.mpr ⟨hend, z, hz, ?_⟩
    rw [strtol_eq_clampLong, hz.integerOf_eq, heq]

/-- The readers accept nothing but the format of a buffer exactly if the lengths and integers that
they do not refuse are in digits. -/
theorem readsBencode_iff (b : Buffer) : b.ReadsBencode ↔ b.LengthInDigits ∧ b.IntegerInDigits := by
  rw [← string_iff, ← integer_iff]
  constructor
  · exact fun h => ⟨h.string, h.integer⟩
  · exact fun h => ⟨h.1, h.2⟩

/-- A letter in front of the colon is the length of an empty string. -/
theorem not_readsBencode_letter :
    ¬ (ofBytes [ascii 'x', ascii ':'] fun _ => 0).ReadsBencode := by
  have hholds := holds_ofBytes [ascii 'x', ascii ':'] fun _ => 0
  have hnumber : Number (ofBytes [ascii 'x', ascii ':'] fun _ => 0) (ascii ':') 9 [ascii 'x']
      (ascii ':') :=
    ⟨hholds, List.cons_ne_nil _ _, by decide, by decide, .inl rfl⟩
  intro h
  obtain ⟨hdigits, -⟩ := string_iff.mp h.string _ _ hnumber (by decide) (by decide)
  exact absurd (hdigits.digits _ List.mem_cons_self) (by decide)

end Buffer

end Udap
