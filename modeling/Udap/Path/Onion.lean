import Udap.Path.Context
import Udap.ContactSignature

/-!
Relaying over a path.

The creator of a path adds the key stream of every hop to a payload and takes them away from one
that it receives; a relay adds its own, and finds the hop by the id that the message carries, which
is another one of its two ids in each direction.

* `Path.Laid`: the relays have the hops of a path, and nothing else has its ids.
* `Laid.handleMessage_upstream`, `Laid.handleMessage_downstream`, `Laid.handleMessage_creator`: what
  each of them then does with a payload.
-/

namespace Udap

open ByteMem Iwp

/-! ### Messages -/

/-- `RelayUpstreamMessage` and `RelayDownstreamMessage`. -/
inductive Relayed
  | upstream (m : RelayMessage)
  | downstream (m : RelayMessage)
  deriving DecidableEq

/-- A message between two routers. -/
structure Packet where
  src : PubKey
  dst : PubKey
  msg : Relayed
  deriving DecidableEq

/-- What is done with a payload. -/
inductive Handled
  /-- `SendToOrQueue` -/
  | sent (dst : PubKey) (msg : Relayed)
  /-- `ParseMessageBuffer` of the handler -/
  | parsed (handler : HopHandler) (buf : Bytes)
  /-- there is no such path -/
  | unknown
  deriving DecidableEq

namespace Handled

/-- The message that router `src` sends. -/
def packet (src : PubKey) : Handled → Option Packet
  | .sent dst msg => some ⟨src, dst, msg⟩
  | .parsed _ _ => none
  | .unknown => none

end Handled

/-- The link that a message comes from gives it its sender. -/
def Relayed.receivedFrom (remote : PubKey) : Relayed → Relayed
  | .upstream m => .upstream { m with remote := remote }
  | .downstream m => .downstream { m with remote := remote }

/-! ### Hops -/

/-- The payload of a routing message, from a buffer on the stack. -/
def encodeRouting (w : Writer) (tmp : ℕ → UInt8) : Option Bytes :=
  match w (RouterContact.stackBuffer tmp (maxLinkMsgSize / 2)) with
  | (buf, true) => some buf.written
  | (_, false) => none

/-- The loop over the hops in `Path::HandleUpstream` and `Path::HandleDownstream`. -/
def xorHops (S : Sodium) (hops : List PathHopConfig) (Y : Blob 32) (buf : Bytes) : Bytes :=
  hops.foldl (fun buf hop => S.xchacha20 buf hop.shared Y.1) buf

namespace Path

/-- `Path::HandleUpstream`. -/
def handleUpstream (S : Sodium) (buf : Bytes) (Y : Blob 32) (p : Path) : Handled :=
  .sent p.Upstream
    (.upstream { remote := zeroBlob 32, pathid := p.TXID, X := xorHops S p.hops Y buf, Y := Y })

/-- `Path::HandleDownstream`. -/
def handleDownstream (S : Sodium) (buf : Bytes) (Y : Blob 32) (self : Ptr Path) : Handled :=
  .parsed (.path self) (xorHops S self.val.hops Y buf)

end Path

namespace TransitHop

/-- `TransitHop::HandleDownstream`. -/
def handleDownstream (S : Sodium) (buf : Bytes) (Y : Blob 32) (hop : TransitHop) : Handled :=
  .sent hop.info.downstream (.downstream { remote := zeroBlob 32, pathid := hop.info.rxID
                                           X := S.xchacha20 buf hop.pathKey Y.1, Y := Y })

/-- `TransitHop::HandleUpstream` at the router `r`. -/
def handleUpstream (S : Sodium) (r : PubKey) (buf : Bytes) (Y : Blob 32) (self : Ptr TransitHop) :
    Handled :=
  let buf := S.xchacha20 buf self.val.pathKey Y.1
  let info := self.val.info
  if info.upstream = r then .parsed (.transit self) buf
  else .sent info.upstream
    (.upstream { remote := zeroBlob 32, pathid := info.txID, X := buf, Y := Y })

/-- `TransitHop::SendRoutingMessage` with the nonce `N`. -/
def sendRoutingMessage (S : Sodium) (w : Writer) (tmp : ℕ → UInt8) (N : Blob 32)
    (hop : TransitHop) : Option Handled :=
  (encodeRouting w tmp).map fun buf => hop.handleDownstream S buf N

end TransitHop

namespace PathContext

/-- `RelayUpstreamMessage::HandleMessage` and `RelayDownstreamMessage::HandleMessage`. -/
def handleMessage (S : Sodium) (c : PathContext) : Relayed → Handled
  | .upstream m =>
      match c.getByDownstream m.remote m.pathid with
      | some (.transit hop) => TransitHop.handleUpstream S c.ourRouterID m.X m.Y hop
      | some (.path path) => path.val.handleUpstream S m.X m.Y
      | none => .unknown
  | .downstream m =>
      match c.getByUpstream m.remote m.pathid with
      | some (.transit hop) => hop.val.handleDownstream S m.X m.Y
      | some (.path path) => Path.handleDownstream S m.X m.Y path
      | none => .unknown

end PathContext

/-- An encoding that fits on the stack. -/
lemma encodeRouting_eq {w : Writer} {s : Bytes} (h : Sure w s) (hlen : s.length ≤ 16384)
    (tmp : ℕ → UInt8) : encodeRouting w tmp = some s := by
  let b := RouterContact.stackBuffer tmp (maxLinkMsgSize / 2)
  have hinside : b.Inside := Nat.zero_le _
  have hok : (w b).2 = true := (h.fits_iff b hinside).mpr hlen
  have hwritten := (h.wrote b hinside hok).written
  unfold encodeRouting
  split
  · rename_i buf heq
    rw [heq] at hwritten
    rw [hwritten]
    rfl
  · rename_i heq
    rw [heq] at hok
    cases hok

/-! ### A path that is laid -/

namespace Path

/-- The ids of the hop at a place. -/
def ids (p : Path) (k : ℕ) : List PathID := [(p.hop k).txID, (p.hop k).rxID]

/-- The router at the end. -/
def farthest (p : Path) : PubKey := (p.hop (p.hops.length - 1)).router.pubkey

/-- The creator of a path has it in a set, and each relay has its hop under both of its ids, and
nothing else under these. -/
structure Laid (p : Path) (creator : PubKey) (owner : ℕ) (mine : Ptr Path)
    (hops : ℕ → Ptr TransitHop) (routers : PubKey → PathContext) : Prop where
  ourRouterID : ∀ r, (routers r).ourRouterID = r
  val : mine.val = p
  own : (routers creator).ourPaths.lookup p.RXID = some owner ∧
    ((routers creator).sets owner).paths.lookup (p.Upstream, p.RXID) = some mine
  hop : ∀ k < p.hops.length,
    (hops k).val.info = p.info creator k ∧ (hops k).val.pathKey = (p.hop k).shared
  distinct : ∀ k < p.hops.length, ∀ k' < p.hops.length,
    (p.hop k).router.pubkey = (p.hop k').router.pubkey → hops k = hops k' → k = k'
  held : ∀ k < p.hops.length, ∀ id ∈ p.ids k, ∀ hop,
    (id, hop) ∈ (routers (p.hop k).router.pubkey).transitPaths ↔ hop = hops k
  /-- no other path of a relay has one of the ids -/
  index : ∀ k < p.hops.length, ∀ id ∈ p.ids k, ∀ s,
    (routers (p.hop k).router.pubkey).ourPaths.lookup id = some s →
      (p.hop k).router.pubkey = creator ∧ s = owner
  /-- no other path of the set has one of the ids -/
  alone : ∀ k < p.hops.length, ∀ id ∈ p.ids k, ∀ remote path,
    ((routers creator).sets owner).paths.lookup (remote, id) = some path →
      path = mine ∧ remote = p.Upstream ∧ id = p.RXID

/-! ### Layers -/

section Layers

variable (S : Sodium) (Y : Blob 32)

lemma xorHops_comm (hops : List PathHopConfig) (key : Blob 32) (buf : Bytes) :
    S.xchacha20 (xorHops S hops Y buf) key Y.1 = xorHops S hops Y (S.xchacha20 buf key Y.1) := by
  induction hops generalizing buf with
  | nil => rfl
  | cons hop hops ih =>
    calc S.xchacha20 (xorHops S hops Y (S.xchacha20 buf hop.shared Y.1)) key Y.1
        = xorHops S hops Y (S.xchacha20 (S.xchacha20 buf hop.shared Y.1) key Y.1) := ih _
      _ = xorHops S hops Y (S.xchacha20 (S.xchacha20 buf key Y.1) hop.shared Y.1) := by
          rw [S.xchacha20_comm]

/-- Upstream the first relay takes its own layer away. -/
lemma xchacha20_xorHops_cons (hop : PathHopConfig) (hops : List PathHopConfig) (buf : Bytes) :
    S.xchacha20 (xorHops S (hop :: hops) Y buf) hop.shared Y.1 = xorHops S hops Y buf := by
  calc S.xchacha20 (xorHops S hops Y (S.xchacha20 buf hop.shared Y.1)) hop.shared Y.1
      = xorHops S hops Y (S.xchacha20 (S.xchacha20 buf hop.shared Y.1) hop.shared Y.1) :=
        xorHops_comm S Y hops hop.shared _
    _ = xorHops S hops Y buf := by rw [S.xchacha20_xchacha20]

/-- What the relays from the last one on have made of a payload. -/
def relayedDown (hops : List PathHopConfig) (buf : Bytes) : Bytes :=
  hops.foldr (fun hop buf => S.xchacha20 buf hop.shared Y.1) buf

/-- The creator takes the layers away, those of the nearest relay first. -/
lemma xorHops_relayedDown (hops : List PathHopConfig) (buf : Bytes) :
    xorHops S hops Y (relayedDown S Y hops buf) = buf := by
  induction hops with
  | nil => rfl
  | cons hop hops ih =>
    calc xorHops S hops Y
          (S.xchacha20 (S.xchacha20 (relayedDown S Y hops buf) hop.shared Y.1) hop.shared Y.1)
        = xorHops S hops Y (relayedDown S Y hops buf) := by rw [S.xchacha20_xchacha20]
      _ = buf := ih

end Layers

/-! ### The ids of a path -/

section Laid

variable {p : Path} {creator : PubKey} {owner : ℕ} {mine : Ptr Path} {hops : ℕ → Ptr TransitHop}
  {routers : PubKey → PathContext} {k : ℕ}

namespace Laid

/-- Two relays that follow each other are different routers. -/
lemma station_ne (h : p.Laid creator owner mine hops routers) (hk : k + 1 < p.hops.length) :
    (p.hop (k + 1)).router.pubkey ≠ (p.hop k).router.pubkey := by
  intro heq
  have hk' : k < p.hops.length := Nat.lt_of_succ_lt hk
  have hnext : (p.hop k).txID ∈ p.ids (k + 1) := by
    rw [txID_eq hk]
    exact List.mem_cons_of_mem _ (List.mem_singleton_self _)
  -- both have their hop under the id between them
  have hmem := (h.held (k + 1) hk _ hnext (hops (k + 1))).mpr rfl
  rw [heq, h.held k hk' _ List.mem_cons_self] at hmem
  exact absurd (h.distinct (k + 1) hk k hk' heq hmem) (Nat.succ_ne_self k)

lemma getByDownstream (h : p.Laid creator owner mine hops routers) (hk : k < p.hops.length)
    {id : PathID} (hid : id ∈ p.ids k) :
    (routers (p.hop k).router.pubkey).getByDownstream (p.station creator k) id =
      some (.transit (hops k)) := by
  have hdown : (hops k).val.info.downstream = p.station creator k := by
    rw [(h.hop k hk).1]
    rfl
  rw [PathContext.getByDownstream, Multimap.get_eq_some (h.held k hk id hid) (by simp [hdown]),
    Option.map_some]

/-- A relay in front of another one has no path of its own for what comes back from that. -/
lemma own_eq_none (h : p.Laid creator owner mine hops routers) (hk : k + 1 < p.hops.length) :
    ((routers (p.hop k).router.pubkey).ourPaths.lookup (p.hop k).txID).bind (fun s =>
      ((routers (p.hop k).router.pubkey).sets s).getByUpstream (p.hop (k + 1)).router.pubkey
        (p.hop k).txID) = none := by
  have hk' : k < p.hops.length := Nat.lt_of_succ_lt hk
  have hid : (p.hop k).txID ∈ p.ids k := List.mem_cons_self
  refine Option.eq_none_iff_forall_not_mem.mpr fun path hpath => ?_
  obtain ⟨s, hs, hget⟩ := Option.bind_eq_some_iff.mp hpath
  obtain ⟨hrouter, rfl⟩ := h.index k hk' _ hid s hs
  rw [hrouter] at hget
  obtain ⟨-, hremote, hrxid⟩ := h.alone k hk' _ hid _ path hget
  -- the router in front of the creator would hold two hops under one id
  have hnext : p.RXID ∈ p.ids (k + 1) := by
    rw [← hrxid, txID_eq hk]
    exact List.mem_cons_of_mem _ (List.mem_singleton_self _)
  have hfirst : p.RXID ∈ p.ids 0 := by
    rw [ids, hop_zero]
    exact List.mem_cons_of_mem _ (List.mem_singleton_self _)
  have hrouters : (p.hop (k + 1)).router.pubkey = (p.hop 0).router.pubkey := by
    rw [hremote, hop_zero]
    rfl
  have hmem := (h.held (k + 1) hk _ hnext (hops (k + 1))).mpr rfl
  rw [hrouters, h.held 0 length_pos _ hfirst] at hmem
  exact absurd (h.distinct (k + 1) hk 0 length_pos hrouters hmem) (Nat.succ_ne_zero k)

lemma getByUpstream (h : p.Laid creator owner mine hops routers) (hk : k + 1 < p.hops.length) :
    (routers (p.hop k).router.pubkey).getByUpstream (p.hop (k + 1)).router.pubkey
      (p.hop k).txID = some (.transit (hops k)) := by
  have hk' : k < p.hops.length := Nat.lt_of_succ_lt hk
  have hup : (hops k).val.info.upstream = (p.hop (k + 1)).router.pubkey := by
    rw [(h.hop k hk').1, info, if_pos hk]
    rfl
  have hget : Multimap.get (p.hop k).txID
      (fun hop => hop.val.info.upstream = (p.hop (k + 1)).router.pubkey)
      (routers (p.hop k).router.pubkey).transitPaths = some (hops k) :=
    Multimap.get_eq_some (h.held k hk' _ List.mem_cons_self) (by simp [hup])
  rw [PathContext.getByUpstream, h.own_eq_none hk]
  dsimp only
  rw [hget, Option.map_some]

lemma getByUpstream_creator (h : p.Laid creator owner mine hops routers) :
    (routers creator).getByUpstream p.Upstream p.RXID = some (.path mine) := by
  rw [PathContext.getByUpstream, h.own.1, Option.bind_some, PathSet.getByUpstream, h.own.2]

end Laid

end Laid

/-! ### Upstream -/

section Upstream

variable (S : Sodium) (p : Path) (creator : PubKey) (Y : Blob 32) (m : Bytes)

/-- The id under which a message comes upstream to the relay at a place. -/
def inID : ℕ → PathID
  | 0 => p.TXID
  | k + 1 => (p.hop k).txID

/-- The message that goes to the relay at a place. -/
def upstreamTo (k : ℕ) : Packet where
  src := p.station creator k
  dst := (p.hop k).router.pubkey
  msg := .upstream { remote := zeroBlob 32, pathid := p.inID k
                     X := xorHops S (p.hops.drop k) Y m, Y := Y }

variable {p} {creator : PubKey} {owner : ℕ} {mine : Ptr Path} {hops : ℕ → Ptr TransitHop} {k : ℕ}

lemma inID_mem (hk : k < p.hops.length) : p.inID k ∈ p.ids k := by
  cases k with
  | zero =>
    rw [inID, ids, hop_zero]
    exact List.mem_cons_self
  | succ k =>
    rw [inID, txID_eq hk]
    exact List.mem_cons_of_mem _ (List.mem_singleton_self _)

/-- The relay at a place takes its layer away, and sends the message on or parses it. -/
lemma Laid.handleMessage_upstream {routers : PubKey → PathContext}
    (h : p.Laid creator owner mine hops routers) (hk : k < p.hops.length) :
    (routers (p.hop k).router.pubkey).handleMessage S
        ((p.upstreamTo S creator Y m k).msg.receivedFrom (p.station creator k)) =
      if k + 1 < p.hops.length then
        .sent (p.hop (k + 1)).router.pubkey (p.upstreamTo S creator Y m (k + 1)).msg
      else .parsed (.transit (hops k)) m := by
  obtain ⟨hinfo, hkey⟩ := h.hop k hk
  have hlayer : S.xchacha20 (xorHops S (p.hops.drop k) Y m) (hops k).val.pathKey Y.1 =
      xorHops S (p.hops.drop (k + 1)) Y m := by
    rw [drop_eq hk, hkey, xchacha20_xorHops_cons]
  simp only [upstreamTo, Relayed.receivedFrom, PathContext.handleMessage,
    h.getByDownstream hk (inID_mem hk), TransitHop.handleUpstream, hlayer, hinfo, h.ourRouterID]
  by_cases hnext : k + 1 < p.hops.length
  · rw [if_pos hnext, if_neg]
    · rw [info, if_pos hnext]
      rfl
    · rw [info, if_pos hnext]
      exact h.station_ne hnext
  -- the last relay is its own next hop, and no layer is left
  · have hlast : p.hops.drop (k + 1) = [] := List.drop_eq_nil_of_le (Nat.le_of_not_lt hnext)
    rw [if_neg hnext, if_pos, hlast]
    · rfl
    · rw [info, if_neg hnext]
      rfl

end Upstream

/-! ### Downstream -/

section Downstream

variable (S : Sodium) (p : Path) (creator : PubKey) (Y : Blob 32) (m : Bytes)

/-- The message that the relay at a place sends down. -/
def downstreamFrom (k : ℕ) : Packet where
  src := (p.hop k).router.pubkey
  dst := p.station creator k
  msg := .downstream { remote := zeroBlob 32, pathid := (p.hop k).rxID
                       X := relayedDown S Y (p.hops.drop k) m, Y := Y }

variable {p} {creator : PubKey} {owner : ℕ} {mine : Ptr Path} {hops : ℕ → Ptr TransitHop} {k : ℕ}

/-- What a relay does with a payload that goes down. -/
lemma handleDownstream_hop {routers : PubKey → PathContext}
    (h : p.Laid creator owner mine hops routers) (hk : k < p.hops.length) :
    (hops k).val.handleDownstream S (relayedDown S Y (p.hops.drop (k + 1)) m) Y =
      .sent (p.station creator k) (p.downstreamFrom S creator Y m k).msg := by
  obtain ⟨hinfo, hkey⟩ := h.hop k hk
  rw [TransitHop.handleDownstream, hinfo, hkey, downstreamFrom, drop_eq hk]
  rfl

/-- The payload of the last relay has no layer yet. -/
lemma handleDownstream_farthest {routers : PubKey → PathContext}
    (h : p.Laid creator owner mine hops routers) (hk : k + 1 = p.hops.length) :
    (hops k).val.handleDownstream S m Y =
      .sent (p.station creator k) (p.downstreamFrom S creator Y m k).msg := by
  have hsend := handleDownstream_hop S Y m h (show k < p.hops.length by omega)
  have hnone : p.hops.drop (k + 1) = [] := List.drop_eq_nil_of_le hk.ge
  rwa [hnone] at hsend

lemma Laid.handleMessage_downstream {routers : PubKey → PathContext}
    (h : p.Laid creator owner mine hops routers) (hk : k + 1 < p.hops.length) :
    (routers (p.hop k).router.pubkey).handleMessage S
        ((p.downstreamFrom S creator Y m (k + 1)).msg.receivedFrom (p.hop (k + 1)).router.pubkey) =
      .sent (p.station creator k) (p.downstreamFrom S creator Y m k).msg := by
  simp only [downstreamFrom, Relayed.receivedFrom, PathContext.handleMessage, ← txID_eq hk,
    h.getByUpstream hk]
  exact handleDownstream_hop S Y m h (Nat.lt_of_succ_lt hk)

/-- The creator takes all layers away and parses what comes back. -/
lemma Laid.handleMessage_creator {routers : PubKey → PathContext}
    (h : p.Laid creator owner mine hops routers) :
    (routers creator).handleMessage S
        ((p.downstreamFrom S creator Y m 0).msg.receivedFrom (p.hop 0).router.pubkey) =
      .parsed (.path mine) m := by
  have hget := h.getByUpstream_creator
  simp only [downstreamFrom, Relayed.receivedFrom, PathContext.handleMessage, hop_zero]
  rw [Upstream, RXID] at hget
  rw [hget]
  dsimp only
  rw [handleDownstream, h.val, List.drop_zero, xorHops_relayedDown]

end Downstream

/-! ### A path over two relays -/

section Example

/-- A router contact by one byte of its key. -/
def someRouter (b : UInt8) : RouterContact := { pubkey := List.Vector.replicate 32 b }

/-- A key stream that goes up from the first byte of the key. -/
def countingStream : Sodium where
  scalarmult _ _ := none
  scalarmultBase s := s
  generichash _ _ := zeroBlob 32
  stream key _ i := key.1.headD 0 + UInt8.ofNat i

/-- A path of the router 9 over the routers 3 and 5. -/
def twoHops : Path :=
  .new [someRouter 3, someRouter 5] (List.cons_ne_nil _ _) fun idx =>
    (List.Vector.replicate 16 (UInt8.ofNat (10 + idx)),
      List.Vector.replicate 16 (UInt8.ofNat (20 + idx)))

/-- The hops of its relays. -/
def twoHopsAt (k : ℕ) : Ptr TransitHop :=
  ⟨k, twoHops.info (someRouter 9).pubkey k, (twoHops.hop k).shared, 0, 600000⟩

/-- The three routers. -/
def threeRouters (r : PubKey) : PathContext :=
  let c : PathContext := { ourRouterID := r, encryption := zeroBlob 64 }
  if r = (someRouter 9).pubkey then c.addOwnPath 0 ⟨0, twoHops⟩
  else if r = (someRouter 3).pubkey then c.putTransitHop (twoHopsAt 0)
  else if r = (someRouter 5).pubkey then c.putTransitHop (twoHopsAt 1)
  else c

/-- A place on the path. -/
lemma twoHops_lt {k : ℕ} (hk : k < twoHops.hops.length) : k = 0 ∨ k = 1 := by
  have htwo : twoHops.hops.length = 2 := by decide
  omega

lemma threeRouters_relay {k : ℕ} (hk : k < twoHops.hops.length) :
    threeRouters (twoHops.hop k).router.pubkey =
      ({ ourRouterID := (twoHops.hop k).router.pubkey, encryption := zeroBlob 64 } :
        PathContext).putTransitHop (twoHopsAt k) := by
  obtain rfl | rfl := twoHops_lt hk <;> rfl

lemma twoHops_laid :
    twoHops.Laid (someRouter 9).pubkey 0 ⟨0, twoHops⟩ twoHopsAt threeRouters where
  ourRouterID r := by
    unfold threeRouters
    split_ifs <;> rfl
  val := rfl
  own := by decide +kernel
  hop k _ := ⟨rfl, rfl⟩
  distinct k _ k' _ _ h := congrArg Ptr.address h
  held k hk id hid hop := by
    rw [threeRouters_relay hk, PathContext.mem_putTransitHop]
    have hids : id = (twoHops.hop k).txID ∨ id = (twoHops.hop k).rxID := by simpa [ids] using hid
    refine ⟨fun h => ?_, fun h => .inr ⟨h, hids⟩⟩
    obtain h | ⟨h, -⟩ := h
    · cases h
    · exact h
  index k hk id _ s hs := by
    rw [threeRouters_relay hk] at hs
    cases hs
  alone k hk id _ remote path hpath := by
    have hpaths : ((threeRouters (someRouter 9).pubkey).sets 0).paths =
        AList.insert (twoHops.Upstream, twoHops.RXID) ⟨0, twoHops⟩ ∅ := rfl
    rw [hpaths] at hpath
    by_cases hkey : (remote, id) = (twoHops.Upstream, twoHops.RXID)
    · rw [hkey, AList.lookup_insert, Option.some.injEq] at hpath
      obtain ⟨hremote, hid⟩ := Prod.mk.inj hkey
      exact ⟨hpath.symm, hremote, hid⟩
    · rw [AList.lookup_insert_ne hkey] at hpath
      cases hpath

end Example

end Path

end Udap
