import Udap.Dht.Context
import Udap.Lib.OrderedMap

/-!
The bucket as a map that is ordered by the XOR distance to the own key.

`Context` keeps the contacts themselves in its bucket. The nodes of the source are pointers to
contacts, each with the key that the contact had when the node was made.

* `metric_iff`, `metric_total`: `XorMetric` compares distances, and orders the keys strictly and
  totally.
* `BucketStorage.call_spec`, `BucketStorage.after_spec`: after any calls the nodes are the ones that
  were put last and not deleted since.
* `BucketStorage.bucket_ordered_map`: in the order of the distances, and one for each key.
* `Bucket.storage_putNode`, `Bucket.storage_delNode`: the bucket of the context is such a map.
-/

namespace Udap.Dht

open ByteMem

/-! ### The metric -/

/-- `Key_t::operator^`, word by word. -/
def keyXor (a b : Key) : Key :=
  ⟨xorWords 4 a.1 b.1, by rw [xorWords_eq (by simp) (by simp)]; simp⟩

/-- `XorMetric`. -/
def xorMetric (us left right : Key) : Bool := ltKey (keyXor us left) (keyXor us right)

lemma keyXor_eq (a b : Key) : keyXor a b = xorKey a b := by
  refine Subtype.ext ?_
  have hlen : 8 * 4 = (xorBytes a.1 b.1).length := by simp
  change xorWords 4 a.1 b.1 = xorBytes a.1 b.1
  rw [xorWords_eq (by simp) (by simp), hlen, List.take_length]

lemma xorMetric_eq (us : Key) : xorMetric us = Bucket.metric us := by
  funext left right
  rw [xorMetric, keyXor_eq, keyXor_eq]
  rfl

/-- The order of the bucket is that of the distances to us. -/
lemma metric_iff (us a b : Key) : Bucket.metric us a b = true ↔ dist a us < dist b us := by
  have hcomm (k : Key) : xorKey us k = xorKey k us := Subtype.ext (xorBytes_comm _ _)
  rw [Bucket.metric, hcomm a, hcomm b]
  exact ltKey_iff a b us

lemma metric_total (us : Key) : OrderedMap.Total (Bucket.metric us) where
  irrefl a := by
    rw [← Bool.not_eq_true, metric_iff]
    exact lt_irrefl _
  trans a b c hab hbc := (metric_iff us a c).mpr
    (((metric_iff us a b).mp hab).trans ((metric_iff us b c).mp hbc))
  eq_of_not_lt a b hab hba := by
    rw [← Bool.not_eq_true, metric_iff, not_lt] at hab hba
    exact dist_injective (le_antisymm hba hab)

lemma xorMetric_total (us : Key) : OrderedMap.Total (xorMetric us) := by
  rw [xorMetric_eq]
  exact metric_total us

/-- Different keys are at different distances from any third one. -/
lemma keyXor_injective (p : Key) : Function.Injective (keyXor p) := by
  intro a b h
  rw [keyXor_eq, keyXor_eq] at h
  have hbytes : xorBytes a.1 p.1 = xorBytes b.1 p.1 := by
    rw [xorBytes_comm a.1, xorBytes_comm b.1]
    exact congrArg Subtype.val h
  exact Subtype.ext (xorBytes_right_injective (by simp) (by simp) hbytes)

/-! ### Nodes -/

/-- `Node`: a pointer to a contact, and the key that it is under. -/
structure Node (ρ : Type) where
  rc : Option ρ
  ID : Key

/-- `Bucket::BucketStorage_t`. -/
abbrev BucketStorage (ρ : Type) := List (Key × Node ρ)

/-- A call on a bucket. -/
inductive BucketCall (ρ : Type) where
  | putNode (v : Node ρ)
  | delNode (k : Key)

namespace BucketStorage

variable {ρ : Type}

/-- `Bucket::PutNode`. -/
def putNode (us : Key) (v : Node ρ) (nodes : BucketStorage ρ) : BucketStorage ρ :=
  OrderedMap.assign (xorMetric us) v.ID v nodes

/-- `Bucket::DelNode`: what is found under the key is erased. -/
def delNode (us k : Key) (nodes : BucketStorage ρ) : BucketStorage ρ :=
  OrderedMap.remove (xorMetric us) k nodes

/-- What a call makes of the nodes. -/
def call (us : Key) (nodes : BucketStorage ρ) : BucketCall ρ → BucketStorage ρ
  | .putNode v => nodes.putNode us v
  | .delNode k => nodes.delNode us k

end BucketStorage

namespace BucketCall

variable {ρ : Type} {calls : List (BucketCall ρ)} {c : BucketCall ρ} {v : Node ρ}

/-- The key that a call is about. -/
def key : BucketCall ρ → Key
  | putNode v => v.ID
  | delNode k => k

/-- The node is the last one that was put under its key, and the key was not deleted since. -/
def LastPut (calls : List (BucketCall ρ)) (v : Node ρ) : Prop :=
  ∃ before after, calls = before ++ putNode v :: after ∧ ∀ c ∈ after, c.key ≠ v.ID

lemma not_lastPut_nil : ¬ LastPut [] v := by
  rintro ⟨before, after, h, -⟩
  exact absurd h.symm (by simp)

/-- Whether a node was put last, one call later. -/
lemma lastPut_concat :
    LastPut (calls ++ [c]) v ↔ c = putNode v ∨ c.key ≠ v.ID ∧ LastPut calls v := by
  constructor
  · rintro ⟨before, after, h, hlater⟩
    obtain rfl | ⟨after, d, rfl⟩ := List.eq_nil_or_concat after
    · exact .inl (List.singleton_inj.mp (List.append_inj' h rfl).2)
    · rw [List.concat_eq_append] at h hlater
      rw [← List.cons_append, ← List.append_assoc] at h
      obtain ⟨rfl, hd⟩ := List.append_inj' h rfl
      obtain rfl := List.singleton_inj.mp hd
      refine .inr ⟨hlater c (by simp), before, after, rfl, fun d hd => ?_⟩
      exact hlater d (List.mem_append_left _ hd)
  · rintro (rfl | ⟨hne, before, after, rfl, hlater⟩)
    · exact ⟨calls, [], rfl, fun d hd => absurd hd List.not_mem_nil⟩
    · refine ⟨before, after ++ [c], by simp, fun d hd => ?_⟩
      obtain hd | hd := List.mem_append.mp hd
      · exact hlater d hd
      · rwa [List.mem_singleton.mp hd]

end BucketCall

/-! ### Runs -/

namespace BucketStorage

open BucketCall

variable {ρ : Type}

/-- The nodes are in the order of their distances, and they are the ones that were put last and not
deleted since, one for each key. -/
structure Holds (us : Key) (calls : List (BucketCall ρ)) (nodes : BucketStorage ρ) : Prop where
  sorted : nodes.Pairwise fun a b => dist a.1 us < dist b.1 us
  once : (nodes.map Prod.fst).Nodup
  mem_iff : ∀ k v, (k, v) ∈ nodes ↔ v.ID = k ∧ LastPut calls v

/-- The nodes after some calls on a new bucket. -/
def after (us : Key) (calls : List (BucketCall ρ)) : BucketStorage ρ :=
  calls.foldl (call us) []

variable {us : Key} {calls : List (BucketCall ρ)} {nodes : BucketStorage ρ}

/-- One call keeps the order, and what the map holds. -/
lemma call_spec (hsorted : OrderedMap.Sorted (xorMetric us) nodes)
    (hmem : ∀ k v, (k, v) ∈ nodes ↔ v.ID = k ∧ LastPut calls v) (c : BucketCall ρ) :
    OrderedMap.Sorted (xorMetric us) (call us nodes c) ∧
      ∀ k v, (k, v) ∈ call us nodes c ↔ v.ID = k ∧ LastPut (calls ++ [c]) v := by
  have htotal := xorMetric_total us
  cases c with
  | putNode w =>
    refine ⟨OrderedMap.sorted_assign htotal hsorted, fun k v => ?_⟩
    rw [call, putNode, OrderedMap.mem_assign htotal hsorted, hmem, lastPut_concat, Prod.mk.injEq,
      putNode.injEq, key]
    constructor
    · rintro (⟨rfl, rfl⟩ | ⟨hne, rfl, hlast⟩)
      · exact ⟨rfl, .inl rfl⟩
      · exact ⟨rfl, .inr ⟨fun h => hne h.symm, hlast⟩⟩
    · rintro ⟨rfl, rfl | ⟨hne, hlast⟩⟩
      · exact .inl ⟨rfl, rfl⟩
      · exact .inr ⟨fun h => hne h.symm, rfl, hlast⟩
  | delNode k' =>
    refine ⟨OrderedMap.sorted_remove hsorted, fun k v => ?_⟩
    rw [call, delNode, OrderedMap.mem_remove htotal, hmem, lastPut_concat, key]
    constructor
    · rintro ⟨hne, rfl, hlast⟩
      exact ⟨rfl, .inr ⟨fun h => hne h.symm, hlast⟩⟩
    · rintro ⟨rfl, hput | ⟨hne, hlast⟩⟩
      · cases hput
      · exact ⟨fun h => hne h.symm, rfl, hlast⟩

/-- After any calls the map is in order, and holds what was put last. -/
lemma after_spec (us : Key) (calls : List (BucketCall ρ)) :
    OrderedMap.Sorted (xorMetric us) (after us calls) ∧
      ∀ k v, (k, v) ∈ after us calls ↔ v.ID = k ∧ LastPut calls v := by
  induction calls using List.reverseRecOn with
  | nil =>
    refine ⟨.nil, fun k v => iff_of_false List.not_mem_nil ?_⟩
    rintro ⟨-, hlast⟩
    exact not_lastPut_nil hlast
  | append_singleton calls c ih =>
    rw [after, List.foldl_concat]
    exact call_spec ih.1 ih.2 c

/-- **The bucket is a map that is ordered by the XOR distance.** For every own key: `XorMetric` is a
strict total order of the keys, and different keys are at different distances from any point; and
after any calls of `PutNode` and `DelNode` the bucket has exactly one node for every key that was
put and not deleted since, the last one put, in the order of the distances to the own key. -/
theorem bucket_ordered_map (us : Key) (calls : List (BucketCall ρ)) :
    OrderedMap.Total (xorMetric us) ∧ (∀ p, Function.Injective (keyXor p)) ∧
      Holds us calls (after us calls) := by
  obtain ⟨hsorted, hmem⟩ := after_spec us calls
  have hdist : (after us calls).Pairwise fun a b => dist a.1 us < dist b.1 us := by
    refine hsorted.imp fun hlt => ?_
    rwa [xorMetric_eq, metric_iff] at hlt
  refine ⟨xorMetric_total us, keyXor_injective, hdist, ?_, hmem⟩
  refine List.pairwise_map.mpr (hdist.imp fun hlt heq => ?_)
  rw [heq] at hlt
  exact lt_irrefl _ hlt

end BucketStorage

/-! ### The bucket of the context -/

namespace Bucket

/-- The node that is made for a contact. -/
def node (rc : RouterContact) : Node RouterContact := ⟨some rc, rc.pubkey⟩

/-- The nodes that a bucket of contacts stands for. -/
def storage (b : Bucket) : BucketStorage RouterContact := OrderedMap.view node b.nodes

lemma storage_putNode (b : Bucket) (rc : RouterContact) :
    (b.putNode rc).storage = b.storage.putNode b.us (node rc) := by
  rw [BucketStorage.putNode, xorMetric_eq, storage, putNode]
  exact OrderedMap.view_assign node

lemma storage_delNode (b : Bucket) (k : Key) :
    (b.delNode k).storage = b.storage.delNode b.us k := by
  rw [BucketStorage.delNode, xorMetric_eq]
  exact OrderedMap.view_remove node

end Bucket

end Udap.Dht
