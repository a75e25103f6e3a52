import Mathlib.Data.List.Basic
import Mathlib.Tactic.SplitIfs

/-!
Trees whose children have names, and places in them: a place is the list of the names on the way
down from the root.

* `get?`, `modify`: what is at a place, and a change there.
* `view_relabel`, `view_addChild`: what a change at one place does to all others. `view` shows a
  place without what is below it.
* `modify_append`, `modify_congr`, `modify_addChild`: changes compose.
* `Rose.induct`: induction over a tree.
-/

/-- A tree with named children. -/
structure Rose (κ α : Type) where
  label : α
  children : List (κ × Rose κ α) := []

namespace Rose

variable {κ α : Type}

/-- What holds of a tree if it holds of its children holds of every tree. -/
theorem induct {P : Rose κ α → Prop} (h : ∀ t : Rose κ α, (∀ c ∈ t.children, P c.2) → P t)
    (t : Rose κ α) : P t := by
  refine h t fun c hc => ?_
  have : sizeOf c.2 < sizeOf t := by
    obtain ⟨label, children⟩ := t
    have hlist := List.sizeOf_lt_of_mem hc
    have hpair : sizeOf c = 1 + sizeOf c.1 + sizeOf c.2 := rfl
    simp only [mk.sizeOf_spec] at hlist ⊢
    omega
  exact induct h c.2
termination_by sizeOf t

/-- The label changes. -/
def relabel (f : α → α) (t : Rose κ α) : Rose κ α := { t with label := f t.label }

lemma relabel_id : (relabel fun a : α => a) = fun t : Rose κ α => t := by
  funext t
  cases t
  rfl

variable [DecidableEq κ]

/-- The child of a name changes. -/
def modifyChild (k : κ) (f : Rose κ α → Rose κ α) : List (κ × Rose κ α) → List (κ × Rose κ α)
  | [] => []
  | c :: cs => if c.1 = k then (c.1, f c.2) :: cs else c :: modifyChild k f cs

/-- What is at a place. -/
def get? : Rose κ α → List κ → Option (Rose κ α)
  | t, [] => some t
  | t, k :: ks => (t.children.lookup k).bind fun c => c.get? ks

/-- What is at a place changes. -/
def modify (f : Rose κ α → Rose κ α) : List κ → Rose κ α → Rose κ α
  | [], t => f t
  | k :: ks, t => { t with children := modifyChild k (modify f ks) t.children }

/-- A new child, after the others. -/
def addChild (k : κ) (c : Rose κ α) (t : Rose κ α) : Rose κ α :=
  { t with children := t.children ++ [(k, c)] }

/-- A place, without what is below it. -/
def view (t : Rose κ α) (p : List κ) : Option (α × List κ) :=
  (t.get? p).map fun s => (s.label, s.children.map Prod.fst)

variable {k k' : κ} {ks p q : List κ} {f g : Rose κ α → Rose κ α} {t c : Rose κ α}

@[simp] lemma get?_nil : t.get? [] = some t := rfl

@[simp] lemma get?_cons : t.get? (k :: ks) = (t.children.lookup k).bind fun c => c.get? ks := rfl

@[simp] lemma modify_nil : modify f [] t = f t := rfl

/-! ### The children -/

lemma lookup_modifyChild (cs : List (κ × Rose κ α)) :
    (modifyChild k f cs).lookup k' = if k' = k then (cs.lookup k).map f else cs.lookup k' := by
  induction cs with
  | nil => simp [modifyChild]
  | cons c cs ih =>
    obtain ⟨k₁, c⟩ := c
    by_cases hk : k₁ = k
    · subst hk
      by_cases hk' : k' = k₁
      · simp [modifyChild, hk']
      · have hne' : (k' == k₁) = false := by simpa using hk'
        simp [modifyChild, List.lookup_cons, hne', hk']
    · by_cases hk' : k' = k₁
      · subst hk'
        simp [modifyChild, hk]
      · have hne : (k == k₁) = false := by simpa using Ne.symm hk
        have hne' : (k' == k₁) = false := by simpa using hk'
        simp [modifyChild, List.lookup_cons, hk, hne, hne', ih]

lemma map_fst_modifyChild (cs : List (κ × Rose κ α)) :
    (modifyChild k f cs).map Prod.fst = cs.map Prod.fst := by
  induction cs with
  | nil => rfl
  | cons c cs ih =>
    by_cases hk : c.1 = k <;> simp [modifyChild, hk, ih]

lemma modifyChild_congr {cs : List (κ × Rose κ α)} (h : ∀ c, cs.lookup k = some c → f c = g c) :
    modifyChild k f cs = modifyChild k g cs := by
  induction cs with
  | nil => rfl
  | cons c cs ih =>
    obtain ⟨k₁, c⟩ := c
    by_cases hk : k₁ = k
    · subst hk
      simp [modifyChild, h c (by simp)]
    · have hne : (k == k₁) = false := by simpa using Ne.symm hk
      have := ih fun c hc => h c (by simpa [List.lookup_cons, hne] using hc)
      simp [modifyChild, hk, this]

lemma modifyChild_modifyChild (cs : List (κ × Rose κ α)) :
    modifyChild k f (modifyChild k g cs) = modifyChild k (fun c => f (g c)) cs := by
  induction cs with
  | nil => rfl
  | cons c cs ih =>
    by_cases hk : c.1 = k <;> simp [modifyChild, hk, ih]

lemma modifyChild_append_new {cs : List (κ × Rose κ α)} (h : cs.lookup k = none) :
    modifyChild k f (cs ++ [(k, c)]) = cs ++ [(k, f c)] := by
  induction cs with
  | nil => simp [modifyChild]
  | cons c' cs ih =>
    obtain ⟨k₁, c'⟩ := c'
    by_cases hk : k = k₁
    · simp [hk] at h
    · have hne : (k == k₁) = false := by simpa using hk
      rw [List.lookup_cons, hne] at h
      simp [modifyChild, Ne.symm hk, ih h]

/-! ### Places -/

lemma get?_append : t.get? (p ++ q) = (t.get? p).bind fun s => s.get? q := by
  induction p generalizing t with
  | nil => rfl
  | cons k ks ih =>
    cases hlookup : t.children.lookup k <;> simp [hlookup, ih]

/-- A change at a place below a place. -/
lemma modify_append : modify f (p ++ q) t = modify (modify f q) p t := by
  induction p generalizing t with
  | nil => rfl
  | cons k ks ih =>
    have : modify f (ks ++ q) = modify (modify f q) ks := funext fun c => ih
    simp [modify, this]

/-- A change is what it is at the place. -/
lemma modify_congr (h : ∀ s, t.get? p = some s → f s = g s) : modify f p t = modify g p t := by
  induction p generalizing t with
  | nil => exact h t rfl
  | cons k ks ih =>
    have : modifyChild k (modify f ks) t.children = modifyChild k (modify g ks) t.children :=
      modifyChild_congr fun c hc => ih fun s hs => h s (by simpa [hc] using hs)
    simp [modify, this]

lemma modifyChild_id (cs : List (κ × Rose κ α)) : modifyChild k (fun c => c) cs = cs := by
  induction cs with
  | nil => rfl
  | cons c cs ih => by_cases hk : c.1 = k <;> simp [modifyChild, ih]

/-- No change. -/
lemma modify_id : modify (fun s => s) p t = t := by
  induction p generalizing t with
  | nil => rfl
  | cons k ks ih =>
    have hid : modify (fun s : Rose κ α => s) ks = fun s => s := funext fun c => ih
    rw [modify, hid, modifyChild_id]
    cases t
    rfl

/-- What is below a place that changes. -/
lemma get?_modify : (modify f p t).get? (p ++ q) = (t.get? p).bind fun s => (f s).get? q := by
  induction p generalizing t with
  | nil => rfl
  | cons k ks ih =>
    rw [List.cons_append, get?_cons, get?_cons, modify, lookup_modifyChild, if_pos rfl]
    cases t.children.lookup k with
    | none => rfl
    | some c => exact ih

/-- Two changes at a place. -/
lemma modify_modify : modify f p (modify g p t) = modify (fun s => f (g s)) p t := by
  induction p generalizing t with
  | nil => rfl
  | cons k ks ih =>
    have : (fun c => modify f ks (modify g ks c)) = modify (fun s => f (g s)) ks :=
      funext fun c => ih
    simp [modify, modifyChild_modifyChild, this]

/-- A new child changes at once. -/
lemma modify_addChild (h : t.children.lookup k = none) :
    modify f [k] (addChild k c t) = addChild k (f c) t := by
  simp only [modify, addChild, modifyChild_append_new h]

/-- A child that is not there. -/
lemma lookup_eq_none_iff {cs : List (κ × Rose κ α)} :
    cs.lookup k = none ↔ k ∉ cs.map Prod.fst := by
  induction cs with
  | nil => simp
  | cons c cs ih =>
    obtain ⟨k₁, c⟩ := c
    by_cases hk : k = k₁
    · simp [hk]
    · have hne : (k == k₁) = false := by simpa using hk
      simp [List.lookup_cons, hne, hk, ih]

/-- A child that is there, if names are told apart. -/
lemma lookup_of_mem {cs : List (κ × Rose κ α)} (hnodup : (cs.map Prod.fst).Nodup)
    {c : κ × Rose κ α} (hc : c ∈ cs) : cs.lookup c.1 = some c.2 := by
  induction cs with
  | nil => simp at hc
  | cons c' cs ih =>
    rw [List.map_cons, List.nodup_cons] at hnodup
    rcases List.mem_cons.mp hc with rfl | hc
    · rw [List.lookup_cons, beq_self_eq_true]
    · have hne : (c.1 == c'.1) = false := by
        rw [beq_eq_false_iff_ne]
        rintro heq
        exact hnodup.1 (heq ▸ List.mem_map_of_mem hc)
      rw [List.lookup_cons, hne]
      exact ih hnodup.2 hc

/-! ### A change, seen from everywhere -/

lemma view_nil : t.view [] = some (t.label, t.children.map Prod.fst) := rfl

lemma view_cons : t.view (k :: ks) = (t.children.lookup k).bind fun c => c.view ks := by
  rw [view, get?, Option.map_bind]
  rfl

@[simp] lemma view_eq_none_iff : t.view p = none ↔ t.get? p = none := Option.map_eq_none_iff

/-- A change at a place in a new child. -/
lemma modify_modify_addChild (hk : t.get? (p ++ [k]) = none) :
    modify f (p ++ k :: q) (modify (addChild k c) p t) =
      modify (addChild k (modify f q c)) p t := by
  rw [List.append_cons, modify_append, modify_append, modify_modify]
  refine modify_congr fun s hs => modify_addChild ?_
  rw [get?_append, hs, Option.bind_some, get?_cons] at hk
  cases hlookup : s.children.lookup k with
  | none => rfl
  | some c => simp [hlookup] at hk

/-- What is in a new child. -/
lemma get?_modify_addChild (hp : t.get? p ≠ none) (hk : t.get? (p ++ [k]) = none) :
    (modify (addChild k c) p t).get? (p ++ k :: q) = c.get? q := by
  obtain ⟨s, hs⟩ := Option.ne_none_iff_exists'.mp hp
  rw [get?_append, hs, Option.bind_some, get?_cons] at hk
  have hnone : s.children.lookup k = none := by
    cases hlookup : s.children.lookup k with
    | none => rfl
    | some c => simp [hlookup] at hk
  rw [get?_modify, hs, Option.bind_some, get?_cons, addChild, List.lookup_append, hnone]
  simp

/-- A label changes at one place. -/
lemma view_relabel (f : α → α) :
    (modify (relabel f) p t).view q =
      (t.view q).map fun v => if q = p then (f v.1, v.2) else v := by
  induction p generalizing t q with
  | nil =>
    cases q with
    | nil => simp [view_nil, relabel]
    | cons k ks => simp [view_cons, relabel]
  | cons k ks ih =>
    cases q with
    | nil => simp [view_nil, modify, map_fst_modifyChild]
    | cons k' ks' =>
      rw [view_cons, view_cons, modify, lookup_modifyChild]
      by_cases hk : k' = k
      · subst hk
        cases t.children.lookup k' with
        | none => simp
        | some c => simpa using ih (t := c) (q := ks')
      · simp [hk]

/-- A child is added at one place. -/
lemma view_addChild (a : α) (hp : t.get? p ≠ none) (hk : t.get? (p ++ [k]) = none) :
    (modify (addChild k { label := a }) p t).view q =
      if q = p ++ [k] then some (a, [])
      else (t.view q).map fun v => if q = p then (v.1, v.2 ++ [k]) else v := by
  induction p generalizing t q with
  | nil =>
    have hnone : t.children.lookup k = none := by
      cases hlookup : t.children.lookup k with
      | none => rfl
      | some c => simp [hlookup] at hk
    cases q with
    | nil => simp [view_nil, addChild]
    | cons k' ks' =>
      rw [view_cons, view_cons, modify_nil, addChild, List.lookup_append]
      by_cases hk' : k' = k
      · subst hk'
        cases ks' <;> simp [hnone, view_nil, view_cons]
      · have hne : (k' == k) = false := by simpa using hk'
        simp [List.lookup_cons, hne, hk']
  | cons k₁ ks ih =>
    cases q with
    | nil => simp [view_nil, modify, map_fst_modifyChild]
    | cons k' ks' =>
      rw [view_cons, view_cons, modify, lookup_modifyChild]
      by_cases hk' : k' = k₁
      · subst hk'
        cases hlookup : t.children.lookup k' with
        | none => simp [hlookup] at hp
        | some c =>
          rw [get?_cons, hlookup, Option.bind_some] at hp
          rw [List.cons_append, get?_cons, hlookup, Option.bind_some] at hk
          simpa using ih (t := c) (q := ks') hp hk
      · simp [hk']

end Rose
