import Mathlib.Data.List.AList

/-!
The number of entries of an association list whose value satisfies a predicate, and how the
operations of the list change it.
-/

namespace AList

variable {α β : Type}

/-- The number of values that satisfy `p`. -/
def tally (p : β → Bool) (s : AList fun _ : α => β) : ℕ := s.entries.countP fun e => p e.2

@[simp] lemma tally_empty (p : β → Bool) : tally p (∅ : AList fun _ : α => β) = 0 := rfl

variable [DecidableEq α] (p : β → Bool) (s : AList fun _ : α => β)

lemma countP_kerase (a : α) (l : List (Sigma fun _ : α => β)) :
    ((l.kerase a).countP fun e => p e.2) + (if (l.dlookup a).any p then 1 else 0) =
      l.countP fun e => p e.2 := by
  induction l with
  | nil => rfl
  | cons e l ih =>
    obtain ⟨a', b⟩ := e
    by_cases h : a = a'
    · subst h
      have hkerase : List.kerase a (⟨a, b⟩ :: l) = l := List.kerase_cons_eq rfl
      rw [hkerase, List.dlookup_cons_eq, List.countP_cons]
      rfl
    · have hkerase : List.kerase a (⟨a', b⟩ :: l) = ⟨a', b⟩ :: l.kerase a := List.kerase_cons_ne h
      rw [hkerase, List.dlookup_cons_ne _ _ h, List.countP_cons, List.countP_cons, ← ih]
      omega

/-- What is erased is not counted any more. -/
lemma tally_erase (a : α) :
    (s.erase a).tally p + (if (s.lookup a).any p then 1 else 0) = s.tally p :=
  countP_kerase p a s.entries

/-- What is inserted takes the place of what was there. -/
lemma tally_insert (a : α) (b : β) :
    (s.insert a b).tally p + (if (s.lookup a).any p then 1 else 0) =
      s.tally p + if p b then 1 else 0 := by
  have hinsert : (s.insert a b).tally p = (s.erase a).tally p + if p b then 1 else 0 := by
    rw [tally, entries_insert, List.countP_cons]
    rfl
  rw [hinsert, ← tally_erase p s a]
  omega

end AList
