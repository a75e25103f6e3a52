import Mathlib.Data.List.Basic

/-!
Multimaps as association lists in the order of insertion, with lookups for the first value of a key
that passes a check.
-/

namespace Multimap

variable {κ β : Type}

/-- A value is put behind the others of its key. -/
def put (k : κ) (v : β) (l : List (κ × β)) : List (κ × β) := l ++ [(k, v)]

variable [DecidableEq κ]

/-- The first value of a key that passes a check. -/
def get (k : κ) (check : β → Bool) (l : List (κ × β)) : Option β :=
  (l.find? fun e => e.1 = k && check e.2).map Prod.snd

/-- Some value of a key passes a check. -/
def has (k : κ) (check : β → Bool) (l : List (κ × β)) : Bool := l.any fun e => e.1 = k && check e.2

/-- All values of a key are erased. -/
def erase (k : κ) (l : List (κ × β)) : List (κ × β) := l.filter fun e => e.1 ≠ k

variable {k : κ} {v : β} {check : β → Bool} {l : List (κ × β)}

/-- What is left when keys are erased one after the other. -/
lemma foldl_erase (ks : List κ) :
    ks.foldl (fun l k => erase k l) l = l.filter fun e => e.1 ∉ ks := by
  induction ks generalizing l with
  | nil => simp
  | cons k ks ih =>
    rw [List.foldl_cons, ih, erase, List.filter_filter]
    refine List.filter_congr fun e _ => ?_
    simp [Bool.and_comm]

/-- The only value of a key that passes the check is found. -/
lemma get_eq_some_of_unique (hmem : (k, v) ∈ l) (hcheck : check v = true)
    (hunique : ∀ w, (k, w) ∈ l → check w = true → w = v) : get k check l = some v := by
  cases hfind : l.find? fun e => e.1 = k && check e.2 with
  | none =>
    have hno := List.find?_eq_none.mp hfind (k, v) hmem
    simp [hcheck] at hno
  | some e =>
    have hkey := List.find?_some hfind
    simp only [Bool.and_eq_true, decide_eq_true_eq] at hkey
    have hin : (k, e.2) ∈ l := by
      rw [← hkey.1]
      exact List.mem_of_find?_eq_some hfind
    rw [get, hfind, Option.map_some, hunique e.2 hin hkey.2]

/-- The only value of a key is found if it passes the check. -/
lemma get_eq_some (hmem : ∀ w, (k, w) ∈ l ↔ w = v) (hcheck : check v = true) :
    get k check l = some v :=
  get_eq_some_of_unique ((hmem v).mpr rfl) hcheck fun w hw _ => (hmem w).mp hw

end Multimap
