import Mathlib.Data.List.Basic
import Mathlib.Data.List.Pairwise

/-!
Ordered maps as sorted association lists, over an order that is given by a function.
-/

namespace OrderedMap

variable {κ β γ : Type}

/-- `lt` is a strict total order. -/
structure Total (lt : κ → κ → Bool) : Prop where
  irrefl : ∀ a, lt a a = false
  trans : ∀ a b c, lt a b = true → lt b c = true → lt a c = true
  eq_of_not_lt : ∀ a b, lt a b = false → lt b a = false → a = b

/-- The keys are in order. -/
def Sorted (lt : κ → κ → Bool) (l : List (κ × β)) : Prop := l.Pairwise fun a b => lt a.1 b.1 = true

/-- The value of a key is set. -/
def assign (lt : κ → κ → Bool) (k : κ) (v : β) : List (κ × β) → List (κ × β)
  | [] => [(k, v)]
  | (k', v') :: rest =>
      if lt k k' then (k, v) :: (k', v') :: rest
      else if lt k' k then (k', v') :: assign lt k v rest
      else (k', v) :: rest

/-- A key is removed. -/
def remove (lt : κ → κ → Bool) (k : κ) (l : List (κ × β)) : List (κ × β) :=
  l.filter fun n => lt n.1 k || lt k n.1

variable {lt : κ → κ → Bool} {k : κ} {v : β} {l : List (κ × β)} {e : κ × β}

lemma Total.ne_of_lt (h : Total lt) {a b : κ} (hlt : lt a b = true) : a ≠ b := by
  rintro rfl
  rw [h.irrefl] at hlt
  cases hlt

lemma mem_assign (h : Total lt) (hl : Sorted lt l) :
    e ∈ assign lt k v l ↔ e = (k, v) ∨ e.1 ≠ k ∧ e ∈ l := by
  induction l with
  | nil => simp [assign]
  | cons n rest ih =>
    obtain ⟨k', v'⟩ := n
    obtain ⟨hhead, hrest⟩ := List.pairwise_cons.mp hl
    rw [assign]
    split_ifs with hbefore hafter
    · -- all keys of the list come after the new one
      have hne : ∀ x ∈ (k', v') :: rest, x.1 ≠ k := by
        intro x hx
        rcases List.mem_cons.mp hx with rfl | hx
        · exact (h.ne_of_lt hbefore).symm
        · exact (h.ne_of_lt (h.trans _ _ _ hbefore (hhead x hx))).symm
      rw [List.mem_cons]
      exact or_congr_right ⟨fun hmem => ⟨hne e hmem, hmem⟩, fun hmem => hmem.2⟩
    · have hne : k' ≠ k := h.ne_of_lt hafter
      rw [List.mem_cons, ih hrest, List.mem_cons]
      constructor
      · rintro (rfl | heq | ⟨hk, hmem⟩)
        · exact .inr ⟨hne, .inl rfl⟩
        · exact .inl heq
        · exact .inr ⟨hk, .inr hmem⟩
      · rintro (heq | ⟨hk, rfl | hmem⟩)
        · exact .inr (.inl heq)
        · exact .inl rfl
        · exact .inr (.inr ⟨hk, hmem⟩)
    · have heq : k' = k := h.eq_of_not_lt _ _ (by simpa using hafter) (by simpa using hbefore)
      subst heq
      have hne : ∀ x ∈ rest, x.1 ≠ k' := fun x hx => (h.ne_of_lt (hhead x hx)).symm
      rw [List.mem_cons, List.mem_cons]
      constructor
      · rintro (heq | hmem)
        · exact .inl heq
        · exact .inr ⟨hne e hmem, .inr hmem⟩
      · rintro (heq | ⟨hk, rfl | hmem⟩)
        · exact .inl heq
        · exact absurd rfl hk
        · exact .inr hmem

lemma sorted_assign (h : Total lt) (hl : Sorted lt l) : Sorted lt (assign lt k v l) := by
  induction l with
  | nil => exact List.pairwise_singleton _ _
  | cons n rest ih =>
    obtain ⟨k', v'⟩ := n
    obtain ⟨hhead, hrest⟩ := List.pairwise_cons.mp hl
    rw [assign]
    split_ifs with hbefore hafter
    · refine List.pairwise_cons.mpr ⟨fun x hx => ?_, hl⟩
      rcases List.mem_cons.mp hx with rfl | hx
      · exact hbefore
      · exact h.trans _ _ _ hbefore (hhead x hx)
    · refine List.pairwise_cons.mpr ⟨fun x hx => ?_, ih hrest⟩
      rcases (mem_assign h hrest).mp hx with rfl | ⟨-, hx⟩
      · exact hafter
      · exact hhead x hx
    · exact List.pairwise_cons.mpr ⟨hhead, hrest⟩

lemma mem_remove (h : Total lt) : e ∈ remove lt k l ↔ e.1 ≠ k ∧ e ∈ l := by
  rw [remove, List.mem_filter, and_comm]
  refine and_congr_left fun _ => ⟨?_, fun hne => ?_⟩
  · rintro hlt heq
    rw [heq, h.irrefl] at hlt
    cases hlt
  · by_contra hno
    rw [Bool.or_eq_true, not_or, Bool.not_eq_true, Bool.not_eq_true] at hno
    exact hne (h.eq_of_not_lt _ _ hno.1 hno.2)

lemma sorted_remove (hl : Sorted lt l) : Sorted lt (remove lt k l) :=
  List.Pairwise.sublist List.filter_sublist hl

/-- The map whose values are looked at through `f`. -/
def view (f : β → γ) (l : List (κ × β)) : List (κ × γ) := l.map fun n => (n.1, f n.2)

lemma view_assign (f : β → γ) : view f (assign lt k v l) = assign lt k (f v) (view f l) := by
  induction l with
  | nil => rfl
  | cons n rest ih =>
    obtain ⟨k', v'⟩ := n
    simp only [view, List.map_cons, assign] at ih ⊢
    split_ifs with hbefore hafter
    · rfl
    · rw [List.map_cons, ih]
    · rfl

lemma view_remove (f : β → γ) : view f (remove lt k l) = remove lt k (view f l) := by
  rw [remove, remove, view, view, List.filter_map]
  rfl

lemma view_congr {f g : β → γ} (h : ∀ e ∈ l, f e.2 = g e.2) : view f l = view g l :=
  List.map_congr_left fun e he => by rw [h e he]

/-- The value that a key had before it is set does not matter. -/
lemma assign_view_congr {f g : β → γ} {v : γ} (h : Total lt) (hl : Sorted lt l)
    (heq : ∀ e ∈ l, e.1 ≠ k → f e.2 = g e.2) :
    assign lt k v (view f l) = assign lt k v (view g l) := by
  induction l with
  | nil => rfl
  | cons n rest ih =>
    obtain ⟨k', v'⟩ := n
    obtain ⟨hhead, hrest⟩ := List.pairwise_cons.mp hl
    have ih := ih hrest fun e he => heq e (List.mem_cons_of_mem _ he)
    simp only [view, List.map_cons, assign] at ih ⊢
    split_ifs with hbefore hafter
    · have hview : view f rest = view g rest := view_congr fun e he =>
        heq e (List.mem_cons_of_mem _ he)
          (h.ne_of_lt (h.trans _ _ _ hbefore (hhead e he))).symm
      rw [heq (k', v') List.mem_cons_self (h.ne_of_lt hbefore).symm]
      exact congrArg (fun l => (k, v) :: (k', g v') :: l) hview
    · rw [heq (k', v') List.mem_cons_self (h.ne_of_lt hafter), ih]
    · have hk : k' = k := h.eq_of_not_lt _ _ (by simpa using hafter) (by simpa using hbefore)
      subst hk
      have hview : view f rest = view g rest := view_congr fun e he =>
        heq e (List.mem_cons_of_mem _ he) (h.ne_of_lt (hhead e he)).symm
      exact congrArg (fun l => (k', v) :: l) hview

end OrderedMap
