import Mathlib.Data.List.AList

/-!
Association lists whose values know their keys.
-/

namespace AList

variable {α β : Type} [DecidableEq α] (key : β → α) (s : AList fun _ : α => β)

/-- Every value is under its own key. -/
def Keyed : Prop := ∀ a b, s.lookup a = some b → key b = a

lemma keyed_empty : Keyed key (∅ : AList fun _ : α => β) := fun _ _ h => nomatch h

variable {key s}

/-- An insertion keeps the keys exactly if it puts the value under its own. -/
lemma Keyed.insert_iff (h : s.Keyed key) {a : α} {b : β} :
    (s.insert a b).Keyed key ↔ key b = a := by
  constructor
  · intro hinsert
    exact hinsert a b (lookup_insert s)
  · intro hkey a' b' hlookup
    by_cases ha : a' = a
    · subst ha
      rw [lookup_insert] at hlookup
      rw [← Option.some.inj hlookup, hkey]
    · rw [lookup_insert_ne ha] at hlookup
      exact h a' b' hlookup

/-- An insertion changes nothing exactly if it inserts what is there. -/
lemma lookup_insert_eq_iff {a : α} {b : β} :
    (∀ a', (s.insert a b).lookup a' = s.lookup a') ↔ s.lookup a = some b := by
  constructor
  · intro h
    rw [← h a, lookup_insert]
  · intro h a'
    by_cases ha : a' = a
    · rw [ha, lookup_insert, h]
    · exact lookup_insert_ne ha

/-- What is the value of some key after an insertion. -/
lemma exists_lookup_insert {a : α} {b : β} : ∃ a', (s.insert a b).lookup a' = some b :=
  ⟨a, lookup_insert s⟩

end AList
