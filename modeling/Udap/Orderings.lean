import Udap.Dht.Context
import Udap.Lib.SomeLess
import Udap.Path.Context

/-!
The orderings that are written by hand: `Addr::operator<`, `TransitHopInfo::operator<` and
`TXOwner::operator<`.

Each is a disjunction over its fields, without the equalities that would make it lexicographic.

* `Addr.lt_iff`, `TransitHopInfo.lt_iff`, `TXOwner.lt_iff`: a value is less if some field is.
* `orderings_iff`: they order a set of values exactly if no two of these have one field in one order
  and another field in the other.
-/

namespace Udap

open ByteMem Dht SomeLess

/-- `AlignedBuffer::operator<`. -/
def AlignedBuffer.lt {n : ℕ} (a b : Blob n) : Bool := memcmpLt a.1 b.1

lemma AlignedBuffer.lt_iff {n : ℕ} (a b : Blob n) :
    AlignedBuffer.lt a b = true ↔ beNat a.1 < beNat b.1 := memcmpLt_iff (a.2.trans b.2.symm)

lemma blob_eq_of_beNat {n : ℕ} {a b : Blob n} (h : beNat a.1 = beNat b.1) : a = b :=
  Subtype.ext (beNat_injective (a.2.trans b.2.symm) h)

/-! ### Addresses -/

/-- `ntohs`. -/
def ntohs (x : UInt16) : UInt16 := x <<< 8 ||| x >>> 8

/-- `Addr`, whose `_addr` is all that is compared. -/
structure Addr where
  sin6_family : UInt16
  sin6_port : UInt16
  sin6_addr : Blob 16
  deriving DecidableEq

namespace Addr

/-- `Addr::af`. -/
def af (a : Addr) : ℕ := a.sin6_family.toNat

/-- `Addr::port`. -/
def port (a : Addr) : UInt16 := ntohs a.sin6_port

/-- `Addr::operator<`. -/
def lt (a b : Addr) : Bool :=
  a.port < b.port || AlignedBuffer.lt a.sin6_addr b.sin6_addr || a.af < b.af

/-- `Addr::operator==`. -/
def eq (a b : Addr) : Bool := a.af = b.af && a.sin6_addr = b.sin6_addr && a.port = b.port

/-- What is compared, as numbers. -/
def fields : List (Addr → ℕ) :=
  [fun a => a.port.toNat, fun a => beNat a.sin6_addr.1, fun a => a.af]

lemma lt_iff (a b : Addr) : lt a b = true ↔ Less fields a b := by
  simp [lt, Less, fields, AlignedBuffer.lt_iff, UInt16.lt_iff_toNat_lt, or_assoc]

lemma eq_of_fields (a b : Addr) (h : ∀ f ∈ fields, f a = f b) : eq a b = true := by
  simp only [fields, List.forall_mem_cons, List.not_mem_nil, false_imp_iff, implies_true,
    and_true] at h
  obtain ⟨hport, haddr, haf⟩ := h
  simp [eq, UInt16.toNat_inj.mp hport, blob_eq_of_beNat haddr, haf]

end Addr

/-! ### Hops -/

namespace TransitHopInfo

/-- `TransitHopInfo::operator<`. -/
def lt (a b : TransitHopInfo) : Bool :=
  AlignedBuffer.lt a.txID b.txID || AlignedBuffer.lt a.rxID b.rxID ||
    AlignedBuffer.lt a.upstream b.upstream || AlignedBuffer.lt a.downstream b.downstream

/-- `TransitHopInfo::operator==`. -/
def eq (a b : TransitHopInfo) : Bool :=
  a.txID = b.txID && a.rxID = b.rxID && a.upstream = b.upstream && a.downstream = b.downstream

/-- What is compared, as numbers. -/
def fields : List (TransitHopInfo → ℕ) :=
  [fun a => beNat a.txID.1, fun a => beNat a.rxID.1, fun a => beNat a.upstream.1,
    fun a => beNat a.downstream.1]

lemma lt_iff (a b : TransitHopInfo) : lt a b = true ↔ Less fields a b := by
  simp [lt, Less, fields, AlignedBuffer.lt_iff, or_assoc]

lemma eq_of_fields (a b : TransitHopInfo) (h : ∀ f ∈ fields, f a = f b) : eq a b = true := by
  simp only [fields, List.forall_mem_cons, List.not_mem_nil, false_imp_iff, implies_true,
    and_true] at h
  obtain ⟨htx, hrx, hup, hdown⟩ := h
  simp [eq, blob_eq_of_beNat htx, blob_eq_of_beNat hrx, blob_eq_of_beNat hup,
    blob_eq_of_beNat hdown]

end TransitHopInfo

/-! ### Transactions -/

/-- `TXOwner`. -/
structure TXOwner where
  node : Key
  txid : UInt64 := 0
  deriving DecidableEq

namespace TXOwner

/-- `TXOwner::operator<`. -/
def lt (a b : TXOwner) : Bool := a.txid < b.txid || ltKey a.node b.node

/-- `TXOwner::operator==`. -/
def eq (a b : TXOwner) : Bool := a.txid = b.txid && a.node = b.node

/-- What is compared, as numbers. -/
def fields : List (TXOwner → ℕ) := [fun a => a.txid.toNat, fun a => beNat a.node.1]

lemma lt_iff (a b : TXOwner) : lt a b = true ↔ Less fields a b := by
  have hnode : ltKey a.node b.node = true ↔ beNat a.node.1 < beNat b.node.1 :=
    AlignedBuffer.lt_iff a.node b.node
  simp [lt, Less, fields, hnode, UInt64.lt_iff_toNat_lt]

lemma eq_of_fields (a b : TXOwner) (h : ∀ f ∈ fields, f a = f b) : eq a b = true := by
  simp only [fields, List.forall_mem_cons, List.not_mem_nil, false_imp_iff, implies_true,
    and_true] at h
  obtain ⟨htxid, hnode⟩ := h
  simp [eq, UInt64.toNat_inj.mp htxid, blob_eq_of_beNat hnode]

end TXOwner

/-! ### Laws -/

/-- The operators `lt` and `eq` of a type are those of a strict order on the values. -/
abbrev OrderedBy {α : Type} (lt eq : α → α → Bool) (S : Set α) : Prop :=
  OrdersOn (fun a b => lt a b = true) (fun a b => eq a b = true) S

/-- A disjunction over the fields orders exactly the sets in which no two values have one field in
one order and another field in the other. -/
lemma orderedBy_iff {α : Type} {lt eq : α → α → Bool} {fields : List (α → ℕ)} {S : Set α}
    (hlt : ∀ a b, lt a b = true ↔ Less fields a b)
    (heq : ∀ a b, (∀ f ∈ fields, f a = f b) → eq a b = true) :
    OrderedBy lt eq S ↔ IsChain (NoneMore fields) S := by
  have hless : (fun a b => lt a b = true) = Less fields := by
    funext a b
    exact propext (hlt a b)
  rw [OrderedBy, hless]
  exact ordersOn_iff heq

/-- **The orderings order the values of which no two are crossed.** For any addresses, hops and
transactions that are compared: the operator is irreflexive, asymmetric and transitive on them, and
only equal values are tied, if and only if of any two of them one has no field that is more. -/
theorem orderings_iff (addrs : Set Addr) (hops : Set TransitHopInfo) (owners : Set TXOwner) :
    (OrderedBy Addr.lt Addr.eq addrs ↔ IsChain (NoneMore Addr.fields) addrs) ∧
      (OrderedBy TransitHopInfo.lt TransitHopInfo.eq hops ↔
        IsChain (NoneMore TransitHopInfo.fields) hops) ∧
      (OrderedBy TXOwner.lt TXOwner.eq owners ↔ IsChain (NoneMore TXOwner.fields) owners) :=
  ⟨orderedBy_iff Addr.lt_iff Addr.eq_of_fields,
    orderedBy_iff TransitHopInfo.lt_iff TransitHopInfo.eq_of_fields,
    orderedBy_iff TXOwner.lt_iff TXOwner.eq_of_fields⟩

/-- An IPv6 address by its port and its last byte. -/
def addrAt (port : UInt16) (last : UInt8) : Addr :=
  ⟨10, ntohs port, ⟨List.replicate 15 0 ++ [last], rfl⟩⟩

/-- A hop by the last bytes of the routers beside it. -/
def hopBetween (up down : UInt8) : TransitHopInfo :=
  ⟨zeroBlob 16, zeroBlob 16, lastByte up, lastByte down⟩

/-- Two values that are each less than the other are not ordered. -/
lemma not_orderedBy {α : Type} {lt eq : α → α → Bool} {a b : α} (hab : lt a b = true)
    (hba : lt b a = true) : ¬ OrderedBy lt eq {a, b} :=
  fun h => h.asymm a (Set.mem_insert a {b}) b (Set.mem_insert_of_mem a rfl) hab hba

/-- Of two crossed values each is less than the other, for all three of the operators. -/
theorem not_orderings_crossed :
    ¬ OrderedBy Addr.lt Addr.eq {addrAt 1 2, addrAt 2 1} ∧
      ¬ OrderedBy TransitHopInfo.lt TransitHopInfo.eq {hopBetween 1 2, hopBetween 2 1} ∧
      ¬ OrderedBy TXOwner.lt TXOwner.eq {⟨lastByte 2, 1⟩, ⟨lastByte 1, 2⟩} :=
  ⟨not_orderedBy (by decide) (by decide), not_orderedBy (by decide) (by decide),
    not_orderedBy (by decide) (by decide)⟩

end Udap
