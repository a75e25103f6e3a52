import Mathlib.Tactic

/-!
How long ago something was, by an unsigned difference of two times: what a comparison of the
difference says about the times themselves.
-/

namespace UInt64

variable (last now timeout : UInt64)

/-- An unsigned difference is the difference, or `2 ^ 64` more if that is negative. -/
lemma toNat_sub_cases :
    last ≤ now ∧ (now - last).toNat + last.toNat = now.toNat ∨
      now < last ∧ (now - last).toNat + last.toNat = 2 ^ 64 + now.toNat := by
  have hlast := last.toNat_lt
  have hnow := now.toNat_lt
  rw [UInt64.le_iff_toNat_le, UInt64.lt_iff_toNat_lt, UInt64.toNat_sub]
  rcases Nat.lt_or_ge now.toNat last.toNat with h | h
  · exact .inr ⟨h, by omega⟩
  · exact .inl ⟨h, by omega⟩

/-- A test for at least `k` is right for times in order, and for those in the wrong order only if
they are almost `2 ^ 64` apart. -/
lemma sub_correct_iff (k : ℕ) :
    (k ≤ (now - last).toNat ↔ last.toNat + k ≤ now.toNat) ↔
      last ≤ now ∨ 2 ^ 64 + now.toNat < last.toNat + k := by
  have hlast := last.toNat_lt
  obtain ⟨hle, hsub⟩ | ⟨hlt, hsub⟩ := toNat_sub_cases last now
  · exact iff_of_true (by omega) (.inl hle)
  · have hlt' := UInt64.lt_iff_toNat_lt.mp hlt
    rw [or_iff_right (UInt64.not_le.mpr hlt)]
    constructor <;> intro h <;> omega

lemma le_sub_correct_iff :
    (timeout ≤ now - last ↔ last.toNat + timeout.toNat ≤ now.toNat) ↔
      last ≤ now ∨ 2 ^ 64 + now.toNat < last.toNat + timeout.toNat := by
  rw [UInt64.le_iff_toNat_le (a := timeout)]
  exact sub_correct_iff ..

/-- The same for a test for more than `timeout`. -/
lemma lt_sub_correct_iff :
    (timeout < now - last ↔ last.toNat + timeout.toNat < now.toNat) ↔
      last ≤ now ∨ 2 ^ 64 + now.toNat ≤ last.toNat + timeout.toNat := by
  rw [UInt64.lt_iff_toNat_lt (a := timeout)]
  exact (sub_correct_iff last now (timeout.toNat + 1)).trans (or_congr_right Nat.lt_succ_iff)

end UInt64
