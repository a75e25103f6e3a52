import Udap.Bencode.Codec

/-!
The calls of `on_key` that `bencode_read_dict` makes.

* `dictCalls`, `readCalls`: the calls one by one, each with the object and the buffer it is made
  on. The last one is without a key if the reader gets to the end of the dictionary.
* `readCalls_rule`: an invariant over the entries read so far and the object.
* `readDict_of_end`, `readDict_of_not_end`: the reader ends with the call without a key, or fails.
-/

namespace Udap

open ByteMem

variable {α : Type}

/-- A call of `on_key`. -/
structure KeyCall (α : Type) where
  key : Option Bytes
  object : α
  buffer : Buffer

/-- The calls that the loop of `bencode_read_dict` makes. -/
def dictCalls (onKey : Option Bytes → Reader α) : ℕ → α → Buffer → List (KeyCall α)
  | 0, _, _ => []
  | fuel + 1, a, b =>
      if b.sizeLeft ≠ 0 ∧ b.peek ≠ ascii 'e' then
        match b.readString with
        | none => []
        | some (key, b) =>
            ⟨some key, a, b⟩ ::
              match onKey (some key) a b with
              | (_, none) => []
              | (a, some b) => dictCalls onKey fuel a b
      else if b.peek ≠ ascii 'e' then []
      else [⟨none, a, b.skip 1⟩]

/-- The calls that `bencode_read_dict` makes. -/
def readCalls (onKey : Option Bytes → Reader α) (a : α) (b : Buffer) : List (KeyCall α) :=
  if b.peek ≠ ascii 'd' then []
  else dictCalls onKey ((b.skip 1).sizeLeft + 1) a (b.skip 1)

/-- An entry that was read: its key, and the buffer at its value. -/
structure Entry where
  key : Bytes
  value : Buffer

/-- A key has one first character. -/
lemma isKey_eq_false {key : Bytes} {c d : Char} (hc : isKey key c = true)
    (hne : ascii c ≠ ascii d) : isKey key d = false := by
  cases key with
  | nil => cases hc
  | cons k key =>
      simp only [isKey, bufferEq, Bool.and_true, beq_iff_eq] at hc
      simpa [isKey, bufferEq, hc] using hne

/-- The entries among the calls. -/
def entriesOf (calls : List (KeyCall α)) : List Entry :=
  calls.filterMap fun c => c.key.map fun key => ⟨key, c.buffer⟩

/-- The reader gets to the end of the dictionary. -/
def ReachesEnd (calls : List (KeyCall α)) : Prop := ∃ c ∈ calls, c.key = none

section Rules

variable {onKey : Option Bytes → Reader α} {P : α → Prop} {I : List Entry → α → Prop} {a : α}
  {b : Buffer} {c : KeyCall α} {pre post : List (KeyCall α)}

lemma dictCalls_rule
    (h : ∀ es key a b a' b', I es a → onKey (some key) a b = (a', some b') →
      I (es ++ [⟨key, b⟩]) a') (fuel : ℕ) {es : List Entry} (ha : I es a)
    (hc : dictCalls onKey fuel a b = pre ++ c :: post) : I (es ++ entriesOf pre) c.object := by
  induction fuel generalizing es a b pre with
  | zero => simp [dictCalls] at hc
  | succ fuel ih =>
      rw [dictCalls] at hc
      split_ifs at hc
      · cases hs : b.readString with
        | none => simp [hs] at hc
        | some r =>
            obtain ⟨key, b₁⟩ := r
            simp only [hs] at hc
            cases pre with
            | nil =>
                rw [← (List.cons.inj hc).1]
                simpa [entriesOf] using ha
            | cons d pre =>
                obtain ⟨rfl, hrest⟩ := List.cons.inj hc
                obtain ⟨a', ob, hk⟩ : ∃ a' ob, onKey (some key) a b₁ = (a', ob) := ⟨_, _, rfl⟩
                cases ob with
                | none => simp [hk] at hrest
                | some b' =>
                    simp only [hk] at hrest
                    have hnext := ih (h es key a b₁ a' b' ha hk) hrest
                    simpa [entriesOf] using hnext
      · simp at hc
      · cases pre with
        | nil =>
            rw [← (List.cons.inj hc).1]
            simpa [entriesOf] using ha
        | cons d pre => simp at hc

/-- What holds at the start and is carried over each entry holds of the object at every call,
with the entries before that call. -/
lemma readCalls_rule
    (h : ∀ es key a b a' b', I es a → onKey (some key) a b = (a', some b') →
      I (es ++ [⟨key, b⟩]) a') (ha : I [] a)
    (hc : readCalls onKey a b = pre ++ c :: post) : I (entriesOf pre) c.object := by
  rw [readCalls] at hc
  split_ifs at hc
  · simp at hc
  · exact dictCalls_rule h _ ha hc

lemma dictLoop_of_end (fuel : ℕ) (hc : c ∈ dictCalls onKey fuel a b) (hnone : c.key = none) :
    dictLoop onKey fuel a b = onKey none c.object c.buffer ∧
      ∃ pre, dictCalls onKey fuel a b = pre ++ [c] ∧
        entriesOf pre = entriesOf (dictCalls onKey fuel a b) := by
  induction fuel generalizing a b with
  | zero => simp [dictCalls] at hc
  | succ fuel ih =>
      rw [dictCalls] at hc ⊢
      rw [dictLoop]
      split_ifs at hc ⊢
      · cases hs : b.readString with
        | none => simp [hs] at hc
        | some r =>
            obtain ⟨key, b₁⟩ := r
            simp only [hs] at hc ⊢
            obtain ⟨a', ob, hk⟩ : ∃ a' ob, onKey (some key) a b₁ = (a', ob) := ⟨_, _, rfl⟩
            obtain rfl | hc := List.mem_cons.mp hc
            · cases hnone
            · cases ob with
              | none => simp [hk] at hc
              | some b' =>
                  simp only [hk] at hc ⊢
                  obtain ⟨hloop, pre, hpre, hentries⟩ := ih hc
                  refine ⟨hloop, _ :: pre, congrArg _ hpre, ?_⟩
                  simpa [entriesOf] using hentries
      · simp at hc
      · obtain rfl := List.mem_singleton.mp hc
        exact ⟨rfl, [], rfl, rfl⟩

/-- The call without a key is the last one, and its verdict is the verdict. -/
lemma readDict_of_end (hc : c ∈ readCalls onKey a b) (hnone : c.key = none) :
    readDict onKey a b = onKey none c.object c.buffer ∧
      ∃ pre, readCalls onKey a b = pre ++ [c] ∧
        entriesOf pre = entriesOf (readCalls onKey a b) := by
  rw [readCalls] at hc ⊢
  rw [readDict]
  split_ifs at hc ⊢
  · simp at hc
  · exact dictLoop_of_end _ hc hnone

lemma dictLoop_of_not_end (h : ∀ key a b, P a → P (onKey (some key) a b).1) (fuel : ℕ) (ha : P a)
    (hno : ¬ ReachesEnd (dictCalls onKey fuel a b)) :
    P (dictLoop onKey fuel a b).1 ∧ (dictLoop onKey fuel a b).2 = none := by
  induction fuel generalizing a b with
  | zero => exact ⟨ha, rfl⟩
  | succ fuel ih =>
      rw [dictCalls] at hno
      rw [dictLoop]
      split_ifs at hno ⊢
      · cases hs : b.readString with
        | none => exact ⟨ha, rfl⟩
        | some r =>
            obtain ⟨key, b₁⟩ := r
            have hkept := h key a b₁ ha
            simp only [hs] at hno ⊢
            obtain ⟨a', ob, hk⟩ : ∃ a' ob, onKey (some key) a b₁ = (a', ob) := ⟨_, _, rfl⟩
            rw [hk] at hkept
            cases ob with
            | none => simpa only [hk, and_true] using hkept
            | some b' =>
                simp only [hk] at hno ⊢
                refine ih hkept fun hend => ?_
                obtain ⟨c, hc, hnone⟩ := hend
                exact hno ⟨c, List.mem_cons_of_mem _ hc, hnone⟩
      · exact ⟨ha, rfl⟩
      · exact absurd ⟨_, List.mem_singleton_self _, rfl⟩ hno

/-- Otherwise the reader fails, and only calls with a key have touched the object. -/
lemma readDict_of_not_end (h : ∀ key a b, P a → P (onKey (some key) a b).1) (ha : P a)
    (hno : ¬ ReachesEnd (readCalls onKey a b)) :
    P (readDict onKey a b).1 ∧ (readDict onKey a b).2 = none := by
  rw [readCalls] at hno
  rw [readDict]
  split_ifs at hno ⊢
  · exact ⟨ha, rfl⟩
  · exact dictLoop_of_not_end h _ ha hno

end Rules

end Udap
