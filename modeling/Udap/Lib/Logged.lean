import Mathlib.Data.List.Basic

/-!
Computations that log events beside their value, and rules for what holds of every event.
-/

/-- A value and the events on the way to it, in their order. -/
structure Logged (E α : Type) where
  val : α
  log : List E

namespace Logged

variable {E α β : Type}

instance : Monad (Logged E) where
  pure a := ⟨a, []⟩
  bind x f := ⟨(f x.val).val, x.log ++ (f x.val).log⟩

/-- One event. -/
def emit (e : E) : Logged E Unit := ⟨(), [e]⟩

@[simp] lemma val_pure (a : α) : (pure a : Logged E α).val = a := rfl

@[simp] lemma val_bind (x : Logged E α) (f : α → Logged E β) : (x >>= f).val = (f x.val).val := rfl

@[simp] lemma val_emit (e : E) : (emit e).val = () := rfl

/-- Every event on the way satisfies `P`. -/
def All (P : E → Prop) (x : Logged E α) : Prop := ∀ e ∈ x.log, P e

variable {P : E → Prop}

@[simp] lemma all_pure (a : α) : All P (pure a : Logged E α) ↔ True :=
  iff_true_intro fun _ he => nomatch he

@[simp] lemma all_bind (x : Logged E α) (f : α → Logged E β) :
    All P (x >>= f) ↔ All P x ∧ All P (f x.val) := List.forall_mem_append

@[simp] lemma all_emit (e : E) : All P (emit e) ↔ P e := List.forall_mem_singleton

end Logged
