import Udap.Crypto
import Udap.LinkMessage
import Udap.Lib.Multimap

/-!
Paths: `Path`, the path of our own, `TransitHop`, a hop of the path of another router, and the
tables of `PathContext` in which the messages that are relayed find them.

A pointer is an address with what is behind it: a hop does not change any more when it is in the
table, nor do the hops of a path.
-/

namespace Udap

open ByteMem

/-- `PathID_t`. -/
abbrev PathID := Blob 16

/-- A pointer. -/
structure Ptr (α : Type) where
  address : ℕ
  val : α
  deriving DecidableEq

/-! ### Hops and paths -/

/-- `TransitHopInfo`. -/
structure TransitHopInfo where
  txID : PathID
  rxID : PathID
  upstream : PubKey
  downstream : PubKey
  deriving DecidableEq

/-- `TransitHop`. -/
structure TransitHop where
  info : TransitHopInfo
  pathKey : Blob 32
  started : UInt64 := 0
  lifetime : UInt64 := 600000
  deriving DecidableEq

/-- `PathHopConfig`. -/
structure PathHopConfig where
  txID : PathID
  rxID : PathID
  router : RouterContact
  commkey : SecretKey := zeroBlob 64
  shared : Blob 32 := zeroBlob 32
  upstream : PubKey := zeroBlob 32
  nonce : Blob 32 := zeroBlob 32
  deriving DecidableEq

/-- The loop in `Path::Path` that lets every hop send under the id that the next one receives
under. -/
def chainIDs : List PathHopConfig → List PathHopConfig
  | hop :: next :: hops => { hop with txID := next.rxID } :: chainIDs (next :: hops)
  | hops => hops

/-- The ids of the hops are chained. -/
def Chained (hops : List PathHopConfig) : Prop := hops.IsChain fun hop next => hop.txID = next.rxID

lemma head?_chainIDs (hops : List PathHopConfig) :
    ((chainIDs hops).head?.map fun hop => hop.rxID) = hops.head?.map fun hop => hop.rxID := by
  cases hops with
  | nil => rfl
  | cons hop hops => cases hops <;> rfl

lemma chained_chainIDs (hops : List PathHopConfig) : Chained (chainIDs hops) := by
  induction hops with
  | nil => exact List.isChain_nil
  | cons hop hops ih =>
    cases hops with
    | nil => exact List.isChain_singleton _
    | cons next hops =>
      refine List.isChain_cons.mpr ⟨fun other hother => ?_, ih⟩
      have hhead := head?_chainIDs (next :: hops)
      rw [Option.mem_def.mp hother] at hhead
      exact (Option.some.inj hhead).symm

lemma chainIDs_ne_nil {hops : List PathHopConfig} (h : hops ≠ []) : chainIDs hops ≠ [] := by
  cases hops with
  | nil => exact absurd rfl h
  | cons hop hops => cases hops <;> exact List.cons_ne_nil _ _

/-- `Path`, of one hop at least. The ids of the hops are those that the constructor gave them. -/
structure Path where
  hops : List PathHopConfig
  ne_nil : hops ≠ []
  chained : Chained hops
  deriving DecidableEq

namespace Path

/-- `Path::Path` over the routers that were selected, with the ids that are drawn for each. -/
def new (routers : List RouterContact) (h : routers ≠ []) (random : ℕ → PathID × PathID) : Path :=
  let hops := routers.mapIdx fun idx router =>
    { txID := (random idx).1, rxID := (random idx).2, router := router }
  ⟨chainIDs hops, chainIDs_ne_nil (by simpa [hops] using h), chained_chainIDs hops⟩

variable (p : Path)

/-- `hops[0]`. -/
def first : PathHopConfig := p.hops.head p.ne_nil

/-- `TXID`. -/
def TXID : PathID := p.first.txID

/-- `RXID`. -/
def RXID : PathID := p.first.rxID

/-- `Upstream`. -/
def Upstream : PubKey := p.first.router.pubkey

/-- The hop at a place; past the end it is the first one. -/
def hop (k : ℕ) : PathHopConfig := p.hops.getD k p.first

/-- The routers of the path. -/
def routers : List PubKey := p.hops.map fun hop => hop.router.pubkey

/-- The router at a place, the creator in front of the first one. -/
def station (creator : PubKey) : ℕ → PubKey
  | 0 => creator
  | k + 1 => (p.hop k).router.pubkey

/-- What the relay at a place has to know of its hop: the last one is its own upstream. -/
def info (creator : PubKey) (k : ℕ) : TransitHopInfo where
  txID := (p.hop k).txID
  rxID := (p.hop k).rxID
  upstream := p.station creator (if k + 1 < p.hops.length then k + 2 else k + 1)
  downstream := p.station creator k

variable {p} {k : ℕ}

lemma length_pos : 0 < p.hops.length := List.length_pos_of_ne_nil p.ne_nil

lemma hop_eq (hk : k < p.hops.length) : p.hop k = p.hops[k] := by simp [hop, hk]

lemma hop_zero : p.hop 0 = p.first := by
  rw [hop_eq length_pos, first, List.head_eq_getElem]

lemma drop_eq (hk : k < p.hops.length) : p.hops.drop k = p.hop k :: p.hops.drop (k + 1) := by
  rw [List.drop_eq_getElem_cons hk, hop_eq hk]

/-- A hop sends under the id that the next one receives under. -/
lemma txID_eq (hk : k + 1 < p.hops.length) : (p.hop k).txID = (p.hop (k + 1)).rxID := by
  rw [hop_eq hk, hop_eq (Nat.lt_of_succ_lt hk)]
  exact p.chained.getElem k hk

lemma hop_of_le (hk : p.hops.length ≤ k) : p.hop k = p.hop 0 := by
  rw [hop_zero, hop, List.getD_eq_getElem?_getD, List.getElem?_eq_none hk, Option.getD_none]

lemma getElem?_hop (hk : k < p.hops.length) : p.hops[k]? = some (p.hop k) := by
  rw [hop_eq hk, List.getElem?_eq_getElem hk]

/-- The upstream of a hop is the router of the next one, or its own. -/
lemma upstream_eq (creator : PubKey) :
    (p.info creator k).upstream =
      (p.hops[k + 1]?.map fun next => next.router.pubkey).getD (p.hop k).router.pubkey := by
  rw [info]
  by_cases hnext : k + 1 < p.hops.length
  · rw [if_pos hnext, getElem?_hop hnext]
    rfl
  · rw [if_neg hnext, List.getElem?_eq_none (Nat.le_of_not_lt hnext)]
    rfl

/-- A relay sees itself as its upstream only at the end. -/
lemma upstream_eq_iff
    (hadjacent : k + 1 < p.hops.length →
      (p.hop k).router.pubkey ≠ (p.hop (k + 1)).router.pubkey) (hk : k < p.hops.length)
    (creator : PubKey) :
    (p.info creator k).upstream = (p.hop k).router.pubkey ↔ k + 1 = p.hops.length := by
  rw [info]
  by_cases hnext : k + 1 < p.hops.length
  · rw [if_pos hnext]
    exact ⟨fun h => absurd h.symm (hadjacent hnext), fun h => absurd h hnext.ne⟩
  · rw [if_neg hnext]
    exact ⟨fun _ => by omega, fun _ => rfl⟩

lemma routers_eq : p.routers = (List.range p.hops.length).map fun k => (p.hop k).router.pubkey := by
  refine List.ext_getElem (by simp [routers]) fun k hk hk' => ?_
  rw [routers, List.length_map] at hk
  simp only [routers, List.getElem_map, List.getElem_range, hop_eq hk]

end Path

/-! ### The tables -/

/-- `PathSet`. -/
structure PathSet where
  numPaths : ℕ := 0
  paths : AList (fun _ : PubKey × PathID => Ptr Path) := ∅

namespace PathSet

/-- `AddPath`; an entry that is there stays. -/
def addPath (path : Ptr Path) (s : PathSet) : PathSet :=
  let key := (path.val.Upstream, path.val.RXID)
  if key ∈ s.paths then s else { s with paths := s.paths.insert key path }

/-- `PathSet::GetByUpstream`. -/
def getByUpstream (remote : PubKey) (rxid : PathID) (s : PathSet) : Option (Ptr Path) :=
  s.paths.lookup (remote, rxid)

end PathSet

/-- `IHopHandler`. -/
inductive HopHandler
  | path (path : Ptr Path)
  | transit (hop : Ptr TransitHop)
  deriving DecidableEq

/-- `PathContext`, with what it reads of its router: the identity and the encryption key. -/
structure PathContext where
  ourRouterID : PubKey
  encryption : SecretKey
  allowTransit : Bool := false
  transitPaths : List (PathID × Ptr TransitHop) := []
  /-- which set the path with an id is in -/
  ourPaths : AList (fun _ : PathID => ℕ) := ∅
  sets : ℕ → PathSet := fun _ => {}

namespace PathContext

variable (c : PathContext)

/-- `HopIsUs`. -/
def hopIsUs (k : PubKey) : Bool := k = c.ourRouterID

/-- `MapPut` into the map of our own paths, where an entry that is there stays. -/
def putOwn (id : PathID) (owner : ℕ) : PathContext :=
  if id ∈ c.ourPaths then c else { c with ourPaths := c.ourPaths.insert id owner }

/-- `AddOwnPath`. -/
def addOwnPath (owner : ℕ) (path : Ptr Path) : PathContext :=
  ({ c with sets := Function.update c.sets owner ((c.sets owner).addPath path) }.putOwn
    path.val.TXID owner).putOwn path.val.RXID owner

/-- `PutTransitHop`. -/
def putTransitHop (hop : Ptr TransitHop) : PathContext :=
  let map := Multimap.put hop.val.info.txID hop c.transitPaths
  { c with transitPaths := Multimap.put hop.val.info.rxID hop map }

lemma mem_putTransitHop {c : PathContext} {hop hop' : Ptr TransitHop} {id : PathID} :
    (id, hop') ∈ (c.putTransitHop hop).transitPaths ↔ (id, hop') ∈ c.transitPaths ∨
      hop' = hop ∧ (id = hop.val.info.txID ∨ id = hop.val.info.rxID) := by
  simp only [putTransitHop, Multimap.put, List.mem_append, List.mem_singleton, Prod.mk.injEq]
  tauto

/-- `HasTransitHop`. -/
def hasTransitHop (info : TransitHopInfo) : Bool :=
  Multimap.has info.txID (fun hop => info = hop.val.info) c.transitPaths

/-- `GetByUpstream`. -/
def getByUpstream (remote : PubKey) (id : PathID) : Option HopHandler :=
  let own := (c.ourPaths.lookup id).bind fun owner => (c.sets owner).getByUpstream remote id
  match own with
  | some path => some (.path path)
  | none =>
      (Multimap.get id (fun hop => hop.val.info.upstream = remote) c.transitPaths).map .transit

/-- `GetByDownstream`. -/
def getByDownstream (remote : PubKey) (id : PathID) : Option HopHandler :=
  (Multimap.get id (fun hop => hop.val.info.downstream = remote) c.transitPaths).map .transit

end PathContext

end Udap
