import Mathlib.Order.Preorder.Chain

/-!
Comparison of several fields by a disjunction: a value is less if some field is.

This is no order where one field is less and another one is more. Where that never happens it is
the order in which no field is more.

* `OrdersOn`: the laws of a strict order on a set, in which what is tied is equal.
* `ordersOn_iff`: they hold for the disjunction exactly on chains.
-/

namespace SomeLess

variable {α β : Type} [LinearOrder β]

/-- Some field is less. -/
def Less (fields : List (α → β)) (a b : α) : Prop := ∃ f ∈ fields, f a < f b

/-- No field is more. -/
def NoneMore (fields : List (α → β)) (a b : α) : Prop := ∀ f ∈ fields, f a ≤ f b

/-- The comparison orders the values strictly, and what it does not tell apart is equal. -/
structure OrdersOn (lt eq : α → α → Prop) (S : Set α) : Prop where
  irrefl : ∀ a ∈ S, ¬ lt a a
  asymm : ∀ a ∈ S, ∀ b ∈ S, lt a b → ¬ lt b a
  trans : ∀ a ∈ S, ∀ b ∈ S, ∀ c ∈ S, lt a b → lt b c → lt a c
  tie : ∀ a ∈ S, ∀ b ∈ S, ¬ lt a b → ¬ lt b a → eq a b

variable {fields : List (α → β)} {a b c : α} {eq : α → α → Prop} {S : Set α}

lemma not_less_iff : ¬ Less fields a b ↔ NoneMore fields b a := by
  simp only [Less, NoneMore, not_exists, not_and, not_lt]

lemma NoneMore.refl (a : α) : NoneMore fields a a := fun _ _ => le_rfl

lemma not_less_self (a : α) : ¬ Less fields a a := not_less_iff.mpr (.refl a)

lemma NoneMore.trans_less (hab : NoneMore fields a b) (hbc : Less fields b c) :
    Less fields a c := by
  obtain ⟨f, hf, hlt⟩ := hbc
  exact ⟨f, hf, (hab f hf).trans_lt hlt⟩

/-- In a chain what is less has no field that is more. -/
lemma noneMore_of_less (hS : IsChain (NoneMore fields) S) (ha : a ∈ S) (hb : b ∈ S)
    (hab : Less fields a b) : NoneMore fields a b := by
  have hne : a ≠ b := by
    rintro rfl
    exact not_less_self a hab
  obtain hle | hle := hS ha hb hne
  · exact hle
  · exact absurd hab (not_less_iff.mpr hle)

/-- The disjunction is an order exactly on chains. -/
theorem ordersOn_iff (heq : ∀ a b, (∀ f ∈ fields, f a = f b) → eq a b) :
    OrdersOn (Less fields) eq S ↔ IsChain (NoneMore fields) S := by
  constructor
  · intro h a ha b hb _
    by_cases hab : Less fields a b
    · exact .inl (not_less_iff.mp (h.asymm a ha b hb hab))
    · exact .inr (not_less_iff.mp hab)
  · intro hS
    refine ⟨fun a _ => not_less_self a, fun a ha b hb hab => ?_, fun a ha b hb c _ hab hbc => ?_,
      fun a _ b _ hab hba => heq a b fun f hf => ?_⟩
    · exact not_less_iff.mpr (noneMore_of_less hS ha hb hab)
    · exact (noneMore_of_less hS ha hb hab).trans_less hbc
    · exact le_antisymm (not_less_iff.mp hba f hf) (not_less_iff.mp hab f hf)

end SomeLess
