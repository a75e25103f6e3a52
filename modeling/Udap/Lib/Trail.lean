import Mathlib.Data.List.Basic
import Mathlib.Data.List.Range

/-!
The trail of a thing that is handed on from one to the next, until somebody keeps it.
-/

section Trail

variable {β π : Type}

/-- What becomes of `p` from the time `k` on: what `step` reports each time, for as long as there is
something to hand on. -/
def trail (step : ℕ → π → β × Option π) : ℕ → ℕ → π → List β
  | 0, _, _ => []
  | fuel + 1, k, p => (step k p).1 :: (step k p).2.elim [] (trail step fuel (k + 1))

/-- A trail of `n` stations that are known. -/
lemma trail_eq {step : ℕ → π → β × Option π} {n : ℕ} {p : ℕ → π} {b : ℕ → β}
    (h : ∀ k < n, step k (p k) = (b k, if k + 1 < n then some (p (k + 1)) else none)) {fuel k : ℕ}
    (hk : k < n) (hfuel : n ≤ k + fuel) :
    trail step fuel k (p k) = (List.range' k (n - k)).map b := by
  induction fuel generalizing k with
  | zero => omega
  | succ fuel ih =>
    obtain ⟨m, hm⟩ : ∃ m, n - k = m + 1 := ⟨n - k - 1, by omega⟩
    rw [trail, h k hk, hm, List.range'_succ, List.map_cons]
    refine congrArg (b k :: ·) ?_
    by_cases hnext : k + 1 < n
    · rw [if_pos hnext, Option.elim_some, ih hnext (by omega)]
      congr 2
      omega
    · have hzero : m = 0 := by omega
      rw [if_neg hnext, hzero]
      rfl

end Trail
