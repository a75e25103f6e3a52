import Mathlib.Data.List.Sort
import Mathlib.Data.Multiset.Basic

/-!
Priority queues: the one with the greatest key comes out first. Among equal keys the order is left
open, so an implementation is a parameter (`PriorityQueue`).

* `coe_drain`: emptying a queue gives what was in it;
* `pairwise_drain`: the keys come out in descending order;
* `sortedList`: an implementation in which the last of equal keys comes out first.
-/

/-- An implementation of priority queues over a key, with containers `C`. -/
structure PriorityQueue (C : Type) {α κ : Type} [LinearOrder κ] (key : α → κ) where
  /-- what a container holds -/
  items : C → Multiset α
  empty : C
  push : α → C → C
  /-- the top, and what is left without it -/
  pop : C → Option (α × C)
  items_empty : items empty = 0
  items_push : ∀ a q, items (push a q) = a ::ₘ items q
  pop_eq_none : ∀ q, pop q = none ↔ items q = 0
  items_pop : ∀ q a q', pop q = some (a, q') → items q = a ::ₘ items q'
  le_top : ∀ q a q', pop q = some (a, q') → ∀ b ∈ items q, key b ≤ key a

namespace PriorityQueue

variable {C α κ : Type} [LinearOrder κ] {key : α → κ} (pq : PriorityQueue C key)

/-- The number of items. -/
def size (q : C) : ℕ := (pq.items q).card

@[simp] lemma size_empty : pq.size pq.empty = 0 := by simp [size, pq.items_empty]

@[simp] lemma size_push (a : α) (q : C) : pq.size (pq.push a q) = pq.size q + 1 := by
  simp [size, pq.items_push]

variable {pq} in
lemma size_pop {q q' : C} {a : α} (h : pq.pop q = some (a, q')) : pq.size q = pq.size q' + 1 := by
  simp [size, pq.items_pop q a q' h]

lemma size_eq_zero {q : C} : pq.size q = 0 ↔ pq.items q = 0 := Multiset.card_eq_zero

/-- A queue that is not empty has a top. -/
lemma exists_pop {n : ℕ} {q : C} (hsize : pq.size q = n + 1) :
    ∃ a q', pq.pop q = some (a, q') ∧ pq.size q' = n := by
  cases hpop : pq.pop q with
  | none =>
      have hzero := pq.size_eq_zero.mpr ((pq.pop_eq_none q).mp hpop)
      omega
  | some top =>
      have hlen := size_pop hpop
      exact ⟨top.1, top.2, rfl, by omega⟩

/-! ### Emptying a queue -/

/-- What comes out of a queue in `n` steps. -/
def drain : ℕ → C → List α
  | 0, _ => []
  | n + 1, q =>
    match pq.pop q with
    | none => []
    | some (a, q') => a :: drain n q'

lemma drain_succ {q q' : C} {a : α} (h : pq.pop q = some (a, q')) (n : ℕ) :
    pq.drain (n + 1) q = a :: pq.drain n q' := by
  rw [drain, h]

/-- Emptying a queue gives what was in it. -/
lemma coe_drain {n : ℕ} {q : C} (hsize : pq.size q = n) :
    (pq.drain n q : Multiset α) = pq.items q := by
  induction n generalizing q with
  | zero => exact (pq.size_eq_zero.mp hsize).symm
  | succ n ih =>
      obtain ⟨a, q', hpop, hrest⟩ := pq.exists_pop hsize
      rw [pq.drain_succ hpop, pq.items_pop q a q' hpop, ← ih hrest]
      rfl

lemma mem_drain {n : ℕ} {q : C} (hsize : pq.size q = n) {a : α} :
    a ∈ pq.drain n q ↔ a ∈ pq.items q := by
  rw [← pq.coe_drain hsize, Multiset.mem_coe]

/-- The keys come out in descending order. -/
lemma pairwise_drain {n : ℕ} {q : C} (hsize : pq.size q = n) :
    (pq.drain n q).Pairwise fun a b => key b ≤ key a := by
  induction n generalizing q with
  | zero => exact List.Pairwise.nil
  | succ n ih =>
      obtain ⟨a, q', hpop, hrest⟩ := pq.exists_pop hsize
      rw [pq.drain_succ hpop]
      refine List.pairwise_cons.mpr ⟨fun b hb => pq.le_top q a q' hpop b ?_, ih hrest⟩
      rw [pq.items_pop q a q' hpop]
      exact Multiset.mem_cons_of_mem ((pq.mem_drain hrest).mp hb)

/-! ### Sorted lists -/

variable (key)

/-- `a` comes out before `b`, or may. -/
def Over (a b : α) : Prop := key b ≤ key a

instance : DecidableRel (Over key) := fun a b => inferInstanceAs (Decidable (key b ≤ key a))

instance : Std.Total (Over key) := ⟨fun a b => le_total (key b) (key a)⟩

instance : IsTrans α (Over key) := ⟨fun _ _ _ hab hbc => le_trans hbc hab⟩

/-- Lists in descending order of the keys; a new item goes before those with its own key. -/
def sortedList : PriorityQueue { l : List α // l.Pairwise (Over key) } key where
  items q := q.1
  empty := ⟨[], List.Pairwise.nil⟩
  push a q := ⟨q.1.orderedInsert (Over key) a, q.2.orderedInsert a q.1⟩
  pop
    | ⟨[], _⟩ => none
    | ⟨a :: l, h⟩ => some (a, ⟨l, h.of_cons⟩)
  items_empty := rfl
  items_push a q := Multiset.coe_eq_coe.mpr (List.perm_orderedInsert (Over key) a q.1)
  pop_eq_none := by
    rintro ⟨_ | ⟨a, l⟩, h⟩ <;> simp
  items_pop := by
    rintro ⟨_ | ⟨b, l⟩, h⟩ a q' hpop
    · cases hpop
    · obtain ⟨rfl, rfl⟩ := Prod.mk.inj (Option.some.inj hpop)
      rfl
  le_top := by
    rintro ⟨_ | ⟨a', l⟩, h⟩ a q' hpop b hb
    · cases hpop
    · obtain ⟨rfl, rfl⟩ := Prod.mk.inj (Option.some.inj hpop)
      rcases List.mem_cons.mp hb with rfl | hb
      · exact le_rfl
      · exact List.rel_of_pairwise_cons h hb

variable {key}

/-- Sorted lists come out as they are. -/
lemma drain_sortedList (q : { l : List α // l.Pairwise (Over key) }) :
    (sortedList key).drain q.1.length q = q.1 := by
  obtain ⟨l, h⟩ := q
  induction l with
  | nil => rfl
  | cons a l ih => exact congrArg (a :: ·) (ih h.of_cons)

/-- What has the greatest key so far comes out first. -/
lemma push_sortedList {a : α} {q : { l : List α // l.Pairwise (Over key) }}
    (h : ∀ b ∈ q.1, key b ≤ key a) : ((sortedList key).push a q).1 = a :: q.1 := by
  obtain ⟨_ | ⟨b, l⟩, hq⟩ := q
  · rfl
  · exact if_pos (h b List.mem_cons_self)

end PriorityQueue
