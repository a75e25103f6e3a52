import Udap.Dht.Context

/-!
The searches of a bucket for the nearest node.

Both start from the greatest distance there is and keep a node only if it is strictly nearer, so
the one node that is at this distance, `farthest`, is never kept.

* `closest_le`, `closest_eq_or`: what the loop over the nodes finds.
* `IsNearest.closest`, `closest_of_farthest`: a node that is not the farthest one is enough for the
  loop to find the nearest one; without it the loop finds nothing.
* `nearest_exact_iff`: the searches are exact unless they have the farthest node to choose from and
  no other.
-/

namespace Udap.Dht

open ByteMem

/-! ### The greatest distance -/

lemma beNat_replicate (n : ℕ) : beNat (List.replicate n 255) + 1 = 256 ^ n := by
  induction n with
  | zero => rfl
  | succ n ih =>
      have hbyte : (255 : UInt8).toNat = 255 := rfl
      rw [List.replicate_succ, beNat, List.length_replicate, hbyte, pow_succ]
      omega

lemma beNat_le_maxKey (k : Key) : beNat k.1 ≤ beNat Bucket.maxKey.1 := by
  have hmax : beNat Bucket.maxKey.1 + 1 = 256 ^ 32 := beNat_replicate 32
  have hlt := beNat_lt k.1
  rw [k.2] at hlt
  omega

/-- The key at the greatest distance to a target: all its bits are the other ones. -/
def farthest (target : Key) : Key := xorKey Bucket.maxKey target

lemma xorKey_xorKey (a b : Key) : xorKey (xorKey a b) b = a := by
  refine Subtype.ext (List.ext_getElem (by simp [xorKey]) fun i h₁ h₂ => ?_)
  simp only [xorKey, xorBytes, List.getElem_zipWith, UInt8.xor_assoc, UInt8.xor_self,
    UInt8.xor_zero]

lemma dist_farthest (target : Key) : dist (farthest target) target = beNat Bucket.maxKey.1 := by
  rw [dist, farthest, xorKey_xorKey]

lemma dist_lt_iff {k target : Key} :
    dist k target < beNat Bucket.maxKey.1 ↔ k ≠ farthest target := by
  have hle := beNat_le_maxKey (xorKey k target)
  rw [← dist_farthest target]
  constructor
  · rintro hlt rfl
    exact lt_irrefl _ hlt
  · intro hne
    refine lt_of_le_of_ne ?_ fun heq => hne (dist_injective heq)
    rwa [dist_farthest]

/-! ### The loop -/

namespace Bucket

/-- Of these keys it is one at the least distance to the target. -/
structure IsNearest (target : Key) (keys : List Key) (k : Key) : Prop where
  mem : k ∈ keys
  le : ∀ k' ∈ keys, dist k target ≤ dist k' target

/-- There is only one such key. -/
lemma IsNearest.unique {target : Key} {keys : List Key} {k k' : Key}
    (h : IsNearest target keys k) (h' : IsNearest target keys k') : k = k' :=
  dist_injective (le_antisymm (h.le k' h'.mem) (h'.le k h.mem))

variable {target : Key} {l : List Key} {best : Key × Key}

lemma ltKey_iff_dist {k : Key} : ltKey (xorKey k target) best.1 = true ↔
    dist k target < beNat best.1.1 := memcmpLt_iff (by simp)

/-- The distance at the end is the least one. -/
lemma closest_le (target : Key) (l : List Key) (best : Key × Key) :
    beNat (closest target l best).1.1 ≤ beNat best.1.1 ∧
      ∀ k ∈ l, beNat (closest target l best).1.1 ≤ dist k target := by
  induction l generalizing best with
  | nil => exact ⟨le_rfl, fun k hk => absurd hk List.not_mem_nil⟩
  | cons k rest ih =>
      rw [closest]
      split_ifs with hlt
      · obtain ⟨hle, hrest⟩ := ih (xorKey k target, k)
        refine ⟨hle.trans (ltKey_iff_dist.mp hlt).le, fun k' hk' => ?_⟩
        obtain rfl | hk' := List.mem_cons.mp hk'
        · exact hle
        · exact hrest k' hk'
      · obtain ⟨hle, hrest⟩ := ih best
        refine ⟨hle, fun k' hk' => ?_⟩
        obtain rfl | hk' := List.mem_cons.mp hk'
        · exact hle.trans (not_lt.mp fun h => hlt (ltKey_iff_dist.mpr h))
        · exact hrest k' hk'

/-- Either no key is nearer, or the end is at one of the keys. -/
lemma closest_eq_or (target : Key) (l : List Key) (best : Key × Key) :
    closest target l best = best ∨
      (closest target l best).2 ∈ l ∧
        (closest target l best).1 = xorKey (closest target l best).2 target ∧
        beNat (closest target l best).1.1 < beNat best.1.1 := by
  induction l generalizing best with
  | nil => exact .inl rfl
  | cons k rest ih =>
      rw [closest]
      split_ifs with hlt
      · have hnear := ltKey_iff_dist.mp hlt
        obtain heq | ⟨hmem, hdist, hless⟩ := ih (xorKey k target, k)
        · rw [heq]
          exact .inr ⟨List.mem_cons_self, rfl, hnear⟩
        · exact .inr ⟨List.mem_cons_of_mem k hmem, hdist, hless.trans hnear⟩
      · exact (ih best).imp id fun h => ⟨List.mem_cons_of_mem k h.1, h.2⟩

/-- One key that is not the farthest is enough. -/
lemma IsNearest.closest (r : Key) (h : ∃ k ∈ l, k ≠ farthest target) :
    IsNearest target l (closest target l (maxKey, r)).2 ∧
      ltKey (Bucket.closest target l (maxKey, r)).1 maxKey = true := by
  obtain ⟨k, hk, hne⟩ := h
  obtain ⟨-, hleast⟩ := closest_le target l (maxKey, r)
  have hless : beNat (Bucket.closest target l (maxKey, r)).1.1 < beNat maxKey.1 :=
    (hleast k hk).trans_lt (dist_lt_iff.mpr hne)
  obtain heq | ⟨hmem, hdist, -⟩ := closest_eq_or target l (maxKey, r)
  · rw [heq] at hless
    exact absurd hless (lt_irrefl _)
  · refine ⟨⟨hmem, fun k' hk' => ?_⟩, (memcmpLt_iff (by simp)).mpr hless⟩
    have hle := hleast k' hk'
    rw [hdist] at hle
    exact hle

/-- Without one the loop keeps what it started from. -/
lemma closest_of_farthest (r : Key) (h : ∀ k ∈ l, k = farthest target) :
    Bucket.closest target l (maxKey, r) = (maxKey, r) := by
  obtain heq | ⟨hmem, hdist, hless⟩ := closest_eq_or target l (maxKey, r)
  · exact heq
  · rw [hdist] at hless
    exact absurd (h _ hmem) (dist_lt_iff.mp hless)

/-! ### The searches -/

/-- The keys of the nodes. -/
def keys (b : Bucket) : List Key := b.nodes.map Prod.fst

/-- The keys of the nodes that are not excluded. -/
def keysExcluding (b : Bucket) (exclude : Finset Key) : List Key :=
  b.keys.filter (· ∉ exclude)

/-- Both searches find a node whenever there is one, and then the nearest one; and they agree when
nothing is excluded. -/
structure Exact (b : Bucket) (target result : Key) (exclude : Finset Key) : Prop where
  excluding_found : (b.findCloseExcluding target exclude).isSome = true ↔
    ∃ k ∈ b.keys, k ∉ exclude
  excluding_nearest : ∀ k, b.findCloseExcluding target exclude = some k →
    IsNearest target (b.keysExcluding exclude) k
  closest_found : (b.findClosest target result).2 = true ↔ b.nodes ≠ []
  closest_nearest : (b.findClosest target result).2 = true →
    IsNearest target b.keys (b.findClosest target result).1
  agree : b.findCloseExcluding target ∅ =
    if (b.findClosest target result).2 then some (b.findClosest target result).1 else none

/-- There are no keys, or not only the farthest one. -/
def Findable (target : Key) (l : List Key) : Prop := l = [] ∨ ∃ k ∈ l, k ≠ farthest target

lemma eq_farthest_of_not_findable (h : ¬ Findable target l) :
    l ≠ [] ∧ ∀ k ∈ l, k = farthest target := by
  obtain ⟨hne, hno⟩ := not_or.mp h
  exact ⟨hne, fun k hk => not_not.mp fun hk' => hno ⟨k, hk, hk'⟩⟩

variable {b : Bucket} {result : Key} {exclude : Finset Key}

lemma findCloseExcluding_eq : b.findCloseExcluding target exclude =
    if ltKey (Bucket.closest target (b.keysExcluding exclude) (maxKey, maxKey)).1 maxKey then
      some (Bucket.closest target (b.keysExcluding exclude) (maxKey, maxKey)).2 else none := rfl

lemma keysExcluding_empty (b : Bucket) : b.keysExcluding ∅ = b.keys := by
  simp [keysExcluding]

lemma findCloseExcluding_of_ne (h : ∃ k ∈ b.keysExcluding exclude, k ≠ farthest target) :
    ∃ k, b.findCloseExcluding target exclude = some k ∧
      IsNearest target (b.keysExcluding exclude) k := by
  obtain ⟨hnear, hlt⟩ := IsNearest.closest maxKey h
  exact ⟨_, findCloseExcluding_eq.trans (if_pos hlt), hnear⟩

lemma findCloseExcluding_of_farthest (h : ∀ k ∈ b.keysExcluding exclude, k = farthest target) :
    b.findCloseExcluding target exclude = none := by
  rw [findCloseExcluding_eq, closest_of_farthest maxKey h, ltKey, memcmpLt_irrefl]
  rfl

lemma findClosest_of_ne (result : Key) (h : ∃ k ∈ b.keys, k ≠ farthest target) :
    IsNearest target b.keys (b.findClosest target result).1 := (IsNearest.closest result h).1

lemma findClosest_found : (b.findClosest target result).2 = true ↔ b.nodes ≠ [] := by
  rw [findClosest, decide_eq_true_iff, List.length_pos_iff]

lemma exists_mem_keysExcluding :
    (∃ k ∈ b.keys, k ∉ exclude) ↔ b.keysExcluding exclude ≠ [] := by
  simp [keysExcluding, List.filter_eq_nil_iff]

lemma keysExcluding_eq_nil_of_farthest (h : ∀ k ∈ b.keysExcluding exclude, k = farthest target)
    (hfound : (b.findCloseExcluding target exclude).isSome = true ↔ ∃ k ∈ b.keys, k ∉ exclude) :
    b.keysExcluding exclude = [] := by
  rw [findCloseExcluding_of_farthest h, exists_mem_keysExcluding] at hfound
  simpa using hfound

/-- What the search with exclusions finds. -/
lemma findCloseExcluding_cases (h : Findable target (b.keysExcluding exclude)) :
    b.keysExcluding exclude = [] ∧ b.findCloseExcluding target exclude = none ∨
      b.keysExcluding exclude ≠ [] ∧ ∃ k, b.findCloseExcluding target exclude = some k ∧
        IsNearest target (b.keysExcluding exclude) k := by
  obtain hnil | hne := h
  · refine .inl ⟨hnil, findCloseExcluding_of_farthest fun k hk => ?_⟩
    rw [hnil] at hk
    cases hk
  · obtain ⟨k, hk, -⟩ := id hne
    exact .inr ⟨List.ne_nil_of_mem hk, findCloseExcluding_of_ne hne⟩

/-- **The searches for the nearest node are exact unless the farthest key is all they have.** For
every bucket, target and set of excluded keys, and whatever the caller has in the variable for the
result. -/
theorem nearest_exact_iff (b : Bucket) (target result : Key) (exclude : Finset Key) :
    b.Exact target result exclude ↔
      Findable target (b.keysExcluding exclude) ∧ Findable target b.keys := by
  have hnodes : b.keys = [] ↔ b.nodes = [] := List.map_eq_nil_iff
  constructor
  · intro h
    refine ⟨not_not.mp fun hno => ?_, not_not.mp fun hno => ?_⟩
    · obtain ⟨hne, hfar⟩ := eq_farthest_of_not_findable hno
      exact hne (keysExcluding_eq_nil_of_farthest hfar h.excluding_found)
    · obtain ⟨hne, hfar⟩ := eq_farthest_of_not_findable hno
      have hagree := h.agree
      rw [findCloseExcluding_of_farthest (by rwa [keysExcluding_empty]),
        if_pos (h.closest_found.mpr (hnodes.not.mp hne))] at hagree
      cases hagree
  · rintro ⟨hexcl, hall⟩
    have hclosest : b.nodes ≠ [] → IsNearest target b.keys (b.findClosest target result).1 :=
      fun hne => findClosest_of_ne result (hall.resolve_left (hnodes.not.mpr hne))
    refine ⟨?_, fun k hk => ?_, findClosest_found, fun h => hclosest (findClosest_found.mp h), ?_⟩
    · rw [exists_mem_keysExcluding]
      obtain ⟨hnil, hnone⟩ | ⟨hne, k, hsome, -⟩ := findCloseExcluding_cases hexcl
      · simp [hnil, hnone]
      · simp [hne, hsome]
    · obtain ⟨-, hnone⟩ | ⟨-, k', hsome, hnear⟩ := findCloseExcluding_cases hexcl
      · rw [hnone] at hk
        cases hk
      · obtain rfl : k' = k := Option.some.inj (hsome.symm.trans hk)
        exact hnear
    · have hempty : Findable target (b.keysExcluding ∅) := by rwa [keysExcluding_empty]
      have hcases := findCloseExcluding_cases hempty
      rw [keysExcluding_empty] at hcases
      obtain ⟨hnil, hnone⟩ | ⟨hne, k, hsome, hnear⟩ := hcases
      · rw [hnone, if_neg fun h => findClosest_found.mp h (hnodes.mp hnil)]
      · have hnonempty := hnodes.not.mp hne
        rw [hsome, if_pos (findClosest_found.mpr hnonempty), hnear.unique (hclosest hnonempty)]

/-- A bucket with one node, all of whose bits are set. -/
def onlyFarthest : Bucket := Bucket.putNode { pubkey := maxKey } ⟨lastByte 1, []⟩

/-- No search for the key zero finds it. -/
theorem nearest_not_exact : ¬ ∀ (b : Bucket) (target result : Key) (exclude : Finset Key),
    b.Exact target result exclude := by
  intro h
  have hfound := (h onlyFarthest (zeroBlob 32) (lastByte 1) ∅).excluding_found
  have hnone : onlyFarthest.findCloseExcluding (zeroBlob 32) ∅ = none := by decide
  rw [hnone] at hfound
  exact absurd (hfound.mpr ⟨maxKey, List.mem_singleton_self _, by simp⟩) (by simp)

end Bucket

end Udap.Dht
