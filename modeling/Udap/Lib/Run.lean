import Mathlib.Logic.Basic

/-!
Runs of a state machine, given by their inputs: what holds whenever an input comes (`Along`), what
holds in every state (`Always`), and rules that lead from one to the other.
-/

section Run

variable {σ ι : Type} (step : σ → ι → σ)

/-- Whenever an input comes, `P` holds of the state and the input. -/
def Along (P : σ → ι → Prop) : σ → List ι → Prop
  | _, [] => True
  | s, i :: is => P s i ∧ Along P (step s i) is

/-- `Q` holds at the start and after every input. -/
def Always (Q : σ → Prop) : σ → List ι → Prop
  | s, [] => Q s
  | s, i :: is => Q s ∧ Always Q (step s i) is

variable {step} {P P' F : σ → ι → Prop} {I J : σ → Prop} {s : σ} {is : List ι}

/-- What holds at the end. -/
lemma Always.last (h : Always step I s is) : I (is.foldl step s) := by
  induction is generalizing s with
  | nil => exact h
  | cons i is ih => exact ih h.2

/-- The invariant rule: `I` is kept by inputs that meet the condition `P`. -/
lemma always_of_along (hstep : ∀ s i, I s → P s i → I (step s i)) (hI : I s)
    (h : Along step P s is) : Always step I s is := by
  induction is generalizing s with
  | nil => exact hI
  | cons i is ih => exact ⟨hI, ih (hstep s i hI h.1) h.2⟩

lemma Always.mono (hmono : ∀ s, I s → J s) (h : Always step I s is) : Always step J s is := by
  induction is generalizing s with
  | nil => exact hmono s h
  | cons i is ih => exact ⟨hmono s h.1, ih h.2⟩

lemma Always.head (h : Always step I s is) : I s := by
  cases is with
  | nil => exact h
  | cons i is => exact h.1

/-- The exact rule: where `J` holds as well, `I` is kept exactly by the inputs that meet `P`. -/
lemma always_iff_along (hJ : ∀ s i, J s → I s → P s i → J (step s i))
    (hI : ∀ s i, J s → I s → (I (step s i) ↔ P s i)) (hJs : J s) (hIs : I s) :
    Always step I s is ↔ Along step P s is := by
  induction is generalizing s with
  | nil => exact iff_of_true hIs trivial
  | cons i is ih =>
    by_cases hP : P s i
    · exact and_congr (iff_of_true hIs hP) (ih (hJ s i hJs hIs hP) ((hI s i hJs hIs).mpr hP))
    · exact iff_of_false (fun h => hP ((hI s i hJs hIs).mp h.2.head)) fun h => hP h.1

/-- Two conditions come to the same if they agree where `J` holds, and keep it. -/
lemma along_congr (hstep : ∀ s i, J s → F s i → (P s i ↔ P' s i) ∧ (P s i → J (step s i)))
    (hJ : J s) (hF : Along step F s is) : Along step P s is ↔ Along step P' s is := by
  induction is generalizing s with
  | nil => exact Iff.rfl
  | cons i is ih =>
    obtain ⟨hiff, hkeep⟩ := hstep s i hJ hF.1
    by_cases hP : P s i
    · exact and_congr hiff (ih (hkeep hP) hF.2)
    · exact iff_of_false (fun h => hP h.1) fun h => hP (hiff.mpr h.1)

/-- A condition may be weakened where `J` holds, and `P` keeps `J`. -/
lemma Along.imp (h : Along step P s is)
    (hstep : ∀ s i, J s → F s i → P s i → P' s i ∧ J (step s i)) (hJ : J s)
    (hF : Along step F s is) : Along step P' s is := by
  induction is generalizing s with
  | nil => exact trivial
  | cons i is ih =>
    obtain ⟨hP', hJ'⟩ := hstep s i hJ hF.1 h.1
    exact ⟨hP', ih h.2 hJ' hF.2⟩

variable (step s is) in
lemma along_true : Along step (fun _ _ => True) s is := by
  induction is generalizing s with
  | nil => exact trivial
  | cons i is ih => exact ⟨trivial, ih (step s i)⟩

lemma along_append {js : List ι} :
    Along step P s (is ++ js) ↔ Along step P s is ∧ Along step P (is.foldl step s) js := by
  induction is generalizing s with
  | nil => exact (and_iff_right trivial).symm
  | cons i is ih =>
    rw [List.cons_append, List.foldl_cons, Along, Along, ih, and_assoc]

/-- What holds at the end, if every input adds a condition to what held before it. -/
lemma holds_foldl_iff (hJ : ∀ s i, J s → J (step s i))
    (hI : ∀ s i, J s → (I (step s i) ↔ I s ∧ P s i)) (hJs : J s) :
    I (is.foldl step s) ↔ I s ∧ Along step P s is := by
  induction is generalizing s with
  | nil => exact (and_iff_left trivial).symm
  | cons i is ih =>
    rw [List.foldl_cons, ih (hJ s i hJs), hI s i hJs, and_assoc]
    exact Iff.rfl

/-- Two machines that stay in a relation meet their conditions on the same inputs. -/
lemma along_simulates {τ : Type} {step' : τ → ι → τ} {Q : τ → ι → Prop} {R : σ → τ → Prop} {t : τ}
    (hstep : ∀ s t i, R s t → R (step s i) (step' t i)) (hPQ : ∀ s t i, R s t → (P s i ↔ Q t i))
    (hR : R s t) : Along step P s is ↔ Along step' Q t is := by
  induction is generalizing s t with
  | nil => exact Iff.rfl
  | cons i is ih => exact and_congr (hPQ s t i hR) (ih (hstep s t i hR))

end Run
