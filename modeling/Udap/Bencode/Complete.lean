import Udap.Bencode.Accepts

/-!
What a bencode writer has written when it reports success, and what is read back of it.

`vsnprintf` keeps the last byte of the room for the end of the text, and success is reported when
the text fits without it. Numbers are printed as signed ones, and the reader takes one of them for
a failure.

* `wrote_exact`: a text that fits exactly has lost its last byte.
* `completes_iff`: the rooms in which the writers are complete.
* `readsBack_iff`: the numbers that are read back.
-/

namespace Udap

open ByteMem Buffer

/-- When the writer reports success, `s` is what it has written from the position on, nothing is
changed in front of it, and the new position is in the window. -/
def Completes (w : Writer) (s : Bytes) (b : Buffer) : Prop :=
  (w b).2 = true →
    (w b).1.since b.cur = s ∧ (∀ i < b.cur, (w b).1.mem i = b.mem i) ∧ (w b).1.cur ≤ b.sz

section Writers

variable {w : Writer} {b b₁ : Buffer} {s data : Bytes} {c : UInt8}

lemma inside_of_sizeLeft (h : 0 < b.sizeLeft) : b.Inside :=
  (Nat.lt_of_sub_pos h).le

lemma completes_of_wrote (h : (w b).2 = true → b.Wrote s (w b).1) : Completes w s b := by
  intro hw
  have hwrote := h hw
  have hinside : (w b).1.cur ≤ (w b).1.sz := hwrote.inside
  rw [hwrote.sz] at hinside
  exact ⟨hwrote.since_eq.1, hwrote.since_eq.2, hinside⟩

lemma completes_of_false (h : (w b).2 = false) : Completes w s b := by
  intro hw
  rw [h] at hw
  cases hw

/-- Other bytes were written. -/
lemma not_completes_of_wrote {s' : Bytes} (hw : (w b).2 = true) (h : b.Wrote s' (w b).1)
    (hne : s' ≠ s) : ¬ Completes w s b :=
  fun hcomplete => hne (h.since_eq.1.symm.trans (hcomplete hw).1)

/-! ### Texts -/

/-- The end of the text in place of its last byte. -/
lemma wrote_exact (h : b.sizeLeft = (s ++ [c]).length) :
    b.Wrote (s ++ [0]) ((formatted (s ++ [c]) b).skip (s ++ [c]).length) := by
  rw [List.length_append, List.length_singleton] at h ⊢
  have hinside : b.Inside := inside_of_sizeLeft (by omega)
  have hwrote := wrote_store (s := s ++ [0]) hinside (by simp [h]) []
  rw [List.append_nil, List.length_append, List.length_singleton] at hwrote
  rwa [formatted, if_neg (by omega), h, Nat.add_sub_cancel, List.take_left]

/-- What becomes of a text in a room that is too small for it, that it fills, or that is larger. -/
lemma bufferWritef_cases (s : Bytes) (c : UInt8) (b : Buffer) :
    (b.sizeLeft < (s ++ [c]).length ∧ (bufferWritef (s ++ [c]) b).2 = false) ∨
    (b.sizeLeft = (s ++ [c]).length ∧ (bufferWritef (s ++ [c]) b).2 = true ∧
      b.Wrote (s ++ [0]) (bufferWritef (s ++ [c]) b).1) ∨
    ((s ++ [c]).length < b.sizeLeft ∧ (bufferWritef (s ++ [c]) b).2 = true ∧
      b.Wrote (s ++ [c]) (bufferWritef (s ++ [c]) b).1) := by
  have hne : s ++ [c] ≠ [] := List.append_ne_nil_of_right_ne_nil s (by simp)
  rcases lt_trichotomy b.sizeLeft (s ++ [c]).length with hlt | heq | hgt
  · refine .inl ⟨hlt, ?_⟩
    rw [bufferWritef_of_lt hne hlt]
  · refine .inr (.inl ⟨heq, ?_⟩)
    rw [bufferWritef_of_le hne heq.ge]
    exact ⟨rfl, wrote_exact heq⟩
  · have hinside := inside_of_sizeLeft (Nat.zero_lt_of_lt hgt)
    exact .inr (.inr ⟨hgt, (emits_bufferWritef hne).fits b hinside hgt⟩)

/-- A text is complete if it does not fill the room, or does not fit. -/
lemma completes_bufferWritef_iff (hc : c ≠ 0) :
    Completes (bufferWritef (s ++ [c])) (s ++ [c]) b ↔ b.sizeLeft ≠ (s ++ [c]).length := by
  rcases bufferWritef_cases s c b with ⟨hlt, hw⟩ | ⟨heq, hw, hwrote⟩ | ⟨hgt, -, hwrote⟩
  · exact iff_of_true (completes_of_false hw) hlt.ne
  · refine iff_of_false (not_completes_of_wrote hw hwrote fun h => ?_) (not_not.mpr heq)
    exact hc (List.singleton_inj.mp (List.append_cancel_left h)).symm
  · exact iff_of_true (completes_of_wrote fun _ => hwrote) hgt.ne'

lemma completes_writeInt_iff (i : ℤ) :
    Completes (writeInt i) (intBytes i) b ↔ b.sizeLeft ≠ (intBytes i).length :=
  completes_bufferWritef_iff (by decide)

lemma intBytes_injective {z z' : ℤ} (h : intBytes z = intBytes z') : z = z' := by
  have hdecimal : decimalInt z = decimalInt z' :=
    List.append_cancel_left (List.append_cancel_right h)
  rw [← (denotes_decimalInt z).integerOf_eq, hdecimal, (denotes_decimalInt z').integerOf_eq]

/-- A large number is printed as a negative one. -/
lemma toInt64_eq_iff (i : UInt64) : i.toInt64.toInt = i.toNat ↔ i.toNat < 2 ^ 63 := by
  have hsigned : i.toInt64.toInt = (i.toNat : ℤ).bmod (2 ^ 64) :=
    BitVec.toInt_eq_toNat_bmod i.toBitVec
  have hlt := i.toNat_lt
  rw [hsigned, Int.bmod_def]
  split_ifs <;> omega

lemma completes_writeUint64_iff (i : UInt64) :
    Completes (writeUint64 i) (intBytes i.toNat) b ↔
      b.sizeLeft ≠ (intBytes i.toInt64.toInt).length ∧
        (i.toNat < 2 ^ 63 ∨ b.sizeLeft < (intBytes i.toInt64.toInt).length) := by
  by_cases hsmall : i.toNat < 2 ^ 63
  · rw [writeUint64, (toInt64_eq_iff i).mpr hsmall, completes_writeInt_iff]
    exact (and_iff_left (.inl hsmall)).symm
  · have hother : intBytes i.toInt64.toInt ≠ intBytes i.toNat := fun h =>
      hsmall ((toInt64_eq_iff i).mp (intBytes_injective h))
    rcases bufferWritef_cases ([ascii 'i'] ++ decimalInt i.toInt64.toInt) (ascii 'e') b with
      ⟨hlt, hw⟩ | ⟨heq, hw, hwrote⟩ | ⟨hgt, hw, hwrote⟩
    · exact iff_of_true (completes_of_false hw) ⟨hlt.ne, .inr hlt⟩
    · refine iff_of_false (not_completes_of_wrote hw hwrote fun h => ?_) fun h => h.1 heq
      have hlast : [0] = [ascii 'e'] := (List.append_inj' h rfl).2
      exact absurd hlast (by decide)
    · refine iff_of_false (not_completes_of_wrote hw hwrote hother) fun h => ?_
      exact (h.2.resolve_left hsmall).not_gt hgt

/-! ### Byte strings -/

lemma all_single (w : Writer) (b : Buffer) : Writer.all [w] b = w b := by
  cases hw : (w b).2 with
  | true =>
      rw [all_cons_of_true hw, Writer.all]
      exact Prod.ext rfl hw.symm
  | false =>
      rw [all_cons_of_false hw]
      exact Prod.ext rfl hw.symm

/-- The bytes of a string take the place of the end of its length, if there are any. -/
lemma completes_writeBytestring_iff (data : Bytes) :
    Completes (writeBytestring data) (strBytes data) b ↔ ¬ (data = [] ∧ b.sizeLeft = 2) := by
  rcases bufferWritef_cases (decimal data.length) (ascii ':') b with
    ⟨hlt, hw⟩ | ⟨heq, hw, hwrote⟩ | ⟨hgt, hw, hwrote⟩
  · refine iff_of_true (completes_of_false ?_) ?_
    · rw [writeBytestring, all_cons_of_false hw]
    · rintro ⟨rfl, htwo⟩
      exact hlt.ne htwo
  · have hrest : writeBytestring data b =
        bufferWrite data (bufferWritef (decimal data.length ++ [ascii ':']) b).1 := by
      rw [writeBytestring, all_cons_of_true hw, all_single]
    have hroom := hwrote.sizeLeft
    rw [heq, List.length_append, List.length_append] at hroom
    by_cases hdata : data = []
    · subst hdata
      have hsuccess : (writeBytestring [] b).2 = true := by
        rw [hrest, bufferWrite_of_le (Nat.zero_le _)]
      have hwhole : b.Wrote (decimal 0 ++ [0] ++ []) (writeBytestring [] b).1 := by
        rw [hrest]
        exact hwrote.trans (wrote_bufferWrite hwrote.inside (Nat.zero_le _))
      refine iff_of_false (not_completes_of_wrote hsuccess hwhole (by decide)) ?_
      exact not_not.mpr ⟨rfl, heq⟩
    · refine iff_of_true (completes_of_false ?_) fun h => hdata h.1
      rw [hrest, bufferWrite_of_lt]
      have hpos := List.length_pos_of_ne_nil hdata
      simp only [List.length_singleton] at hroom
      omega
  · refine iff_of_true (completes_of_wrote fun hsuccess => ?_) ?_
    · rw [writeBytestring, all_cons_of_true hw, all_single] at hsuccess ⊢
      exact hwrote.trans (wrote_bufferWrite hwrote.inside (le_of_bufferWrite hsuccess))
    · rintro ⟨rfl, htwo⟩
      exact hgt.ne' htwo

/-! ### The room for a writer -/

/-- The writers are complete whenever they report success exactly if the room they find is not that
of the text they format: for a byte string that is all it has only if there are no bytes. A large
`uint64_t` is written as a negative number. -/
theorem completes_iff (b : Buffer) :
    (∀ i : ℤ, Completes (writeInt i) (intBytes i) b ↔ b.sizeLeft ≠ (intBytes i).length) ∧
    (∀ i : UInt16, Completes (writeUint16 i) (intBytes i.toNat) b ↔
      b.sizeLeft ≠ (intBytes i.toNat).length) ∧
    (∀ i : UInt64, Completes (writeUint64 i) (intBytes i.toInt64.toInt) b ↔
      b.sizeLeft ≠ (intBytes i.toInt64.toInt).length) ∧
    (∀ i : UInt64, Completes (writeUint64 i) (intBytes i.toNat) b ↔
      b.sizeLeft ≠ (intBytes i.toInt64.toInt).length ∧
        (i.toNat < 2 ^ 63 ∨ b.sizeLeft < (intBytes i.toInt64.toInt).length)) ∧
    (∀ data : Bytes, Completes (writeBytestring data) (strBytes data) b ↔
      ¬ (data = [] ∧ b.sizeLeft = 2)) ∧
    (Completes writeVersionEntry versionBytes b ↔ b.sizeLeft ≠ versionBytes.length) := by
  refine ⟨completes_writeInt_iff, fun i => completes_writeInt_iff i.toNat,
    fun i => completes_writeInt_iff i.toInt64.toInt, completes_writeUint64_iff,
    completes_writeBytestring_iff, ?_⟩
  exact completes_bufferWritef_iff (c := ascii 'e') (by decide)

/-- A zero in three bytes. -/
theorem not_completes_exact :
    ¬ Completes (writeInt 0) (intBytes 0) { mem := fun _ => 0, cur := 0, sz := 3 } := by
  intro h
  exact absurd (h (by decide)).1 (by decide)

end Writers

/-! ### Integers that are read back -/

/-- What `bencode_write_uint64` has written with room to spare is read back, whatever is behind
it. -/
def ReadsBack (i : UInt64) : Prop :=
  ∀ b : Buffer, (intBytes i.toInt64.toInt).length < b.sizeLeft →
    (writeUint64 i b).2 = true ∧
    ∀ r : Buffer, r.Holds ((writeUint64 i b).1.since b.cur) → ∀ result,
      r.readInteger result = (i, some (r.skip ((writeUint64 i b).1.cur - b.cur)))

lemma readInteger_ne_mark {b b' : Buffer} {result : UInt64} :
    b.readInteger result ≠ (-1, some b') := by
  intro h
  obtain ⟨-, text, rest, -, -, hmark, -⟩ := readInteger_inv h
  exact hmark rfl

/-- The mark of a failure is the only number that is not read back. -/
theorem readsBack_iff (i : UInt64) : ReadsBack i ↔ i ≠ -1 := by
  constructor
  · rintro h rfl
    obtain ⟨-, hread⟩ := h { mem := fun _ => 0, cur := 0, sz := 5 } (by decide)
    exact readInteger_ne_mark (hread _ (holds_ofBytes _ fun _ => 0) 0)
  · intro hi b hroom
    have hinside := inside_of_sizeLeft (Nat.zero_lt_of_lt hroom)
    obtain ⟨hw, hwrote⟩ := (emits_writeUint64 i).fits b hinside hroom
    refine ⟨hw, fun r hr result => ?_⟩
    rw [hwrote.since_eq.1] at hr
    rw [hr.readInteger_uint64 hi, hwrote.cur, Nat.add_sub_cancel_left]

/-- The largest number is written as `-1`. -/
theorem not_readsBack_max : ¬ ReadsBack 18446744073709551615 := by
  intro h
  obtain ⟨-, hread⟩ := h { mem := fun _ => 0, cur := 0, sz := 5 } (by decide)
  exact readInteger_ne_mark (hread _ (holds_ofBytes _ fun _ => 0) 0)

end Udap
