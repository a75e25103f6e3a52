import Udap.Path.Latency
import Udap.Path.OwnIndex

/-!
The routers of a network, and the messages of a path between them.

Everything that a router does with a message is here: a relay takes its hop, the last one confirms
the path and answers its test, the creator sends the test and takes the answer. Between two
deliveries the routers take hops of other paths, add paths of their own and let paths expire.

* `step_alike`: what the steps for others leave as it was.
* `Path.Tables`: the tables when the first relays have taken their hops; `Path.Tables.commit` for
  the next relay, `Path.Tables.laid` at the end.
* `handle_commit`, `handle_upstream`, `handle_farthest`, `handle_downstream`, `handle_creator`: one
  delivery each.
-/

namespace Udap

open ByteMem Iwp

namespace Path

/-- `Path::SendRoutingMessage` with the nonce `N`. -/
def sendRoutingMessage (S : Sodium) (w : Writer) (tmp : ℕ → UInt8) (N : Blob 32) (p : Path) :
    Option Handled :=
  (encodeRouting w tmp).map fun buf => p.handleUpstream S buf N

end Path

/-! ### The messages of a path -/

/-- What a router takes from its surroundings when a message comes to it. -/
structure Surroundings where
  relay : RelayRandom
  /-- `udap_time_now_ms` -/
  now : UInt64
  /-- `rand` -/
  random : UInt64

instance : Inhabited Surroundings := ⟨⟨Path.zeroRelay, 0, 0⟩⟩

namespace Surroundings

/-- A payload that is parsed. -/
def arrival (e : Surroundings) (buf : Bytes) : Arrival where
  buf := .ofBytes buf e.relay.after
  now := e.now
  random := e.random
  tmp := e.relay.tmp

end Surroundings

/-- `ParseMessageBuffer` of the last hop of a path: it answers a test. -/
def TransitHop.parseMessageBuffer (S : Sodium) (e : Surroundings) (hop : TransitHop)
    (buf : Bytes) : Option Handled :=
  match (e.arrival buf).message with
  | some (.pathLatency msg) =>
      hop.sendRoutingMessage S (latencyReply msg).bencode e.relay.tmp e.relay.nonce
  | some (.pathConfirm _) => none
  | none => none

/-- What `HandleRoutingMessage` of a path sends: the test, when it is confirmed. -/
def Path.reply (S : Sodium) (e : Surroundings) (test : PathTest) (p : Path) (buf : Bytes) :
    Option Handled :=
  match (e.arrival buf).message with
  | some (.pathConfirm _) =>
      if test.status = .building then
        let latency : Routing.PathLatencyMessage := { T := e.random }
        p.sendRoutingMessage S latency.bencode e.relay.tmp e.relay.nonce
      else none
  | some (.pathLatency _) => none
  | none => none

/-- A message between two routers. -/
inductive Flight
  | commit (packet : CommitPacket)
  | relayed (packet : Packet)

/-- What the router `r` sends after an `LR_CommitMessage`. -/
def Commit.flight (r : PubKey) : Commit → Option Flight
  | .refused => none
  | .confirmed _ _ confirm => (confirm.bind (Handled.packet r)).map .relayed
  | .forwarded _ _ dst frames => some (.commit ⟨r, dst, frames⟩)

/-- The tables of all routers, the tests of their paths by address, and the message of a path that
is under way. -/
structure PathNetwork where
  routers : PubKey → PathContext
  tests : PubKey → ℕ → PathTest
  flight : Option Flight

/-- What happens in the network. -/
inductive NetworkStep
  /-- the message that is under way is handled -/
  | deliver (e : Surroundings)
  /-- another `LR_CommitMessage` is handled -/
  | commit (r : PubKey) (m : CommitArrival)
  /-- `AddOwnPath` -/
  | addOwnPath (r : PubKey) (owner : ℕ) (path : Ptr Path)
  /-- `ExpirePaths`, where `expired` says which paths of the sets are -/
  | expirePaths (r : PubKey) (now : UInt64) (expired : ℕ → Ptr Path → Bool)

namespace PathContext

/-- `ExpirePaths`. -/
def expirePaths (now : UInt64) (expired : ℕ → Ptr Path → Bool) (c : PathContext) : PathContext :=
  { (c.expireTransit now).1 with sets := fun b => (c.sets b).expirePaths (expired b) }

end PathContext

namespace PathNetwork

variable (S : Sodium) (w : PathNetwork)

/-- The tables of a router change. -/
def update (r : PubKey) (f : PathContext → PathContext) : PathNetwork :=
  { w with routers := Function.update w.routers r (f (w.routers r)) }

/-- A message is handled where it was sent to. -/
def handle (e : Surroundings) : Flight → PathNetwork
  | .commit packet =>
      let (c, outcome) :=
        (w.routers packet.dst).handleCommit S e.relay packet.src packet.frames
      { w.update packet.dst fun _ => c with flight := outcome.flight packet.dst }
  | .relayed packet =>
      let r := packet.dst
      match (w.routers r).handleMessage S (packet.msg.receivedFrom packet.src) with
      | .sent dst msg => { w with flight := some (.relayed ⟨r, dst, msg⟩) }
      | .parsed (.transit hop) buf =>
          { w with flight :=
              ((hop.val.parseMessageBuffer S e buf).bind (Handled.packet r)).map .relayed }
      | .parsed (.path path) buf =>
          let test := w.tests r path.address
          { w with
            tests := Function.update w.tests r
              (Function.update (w.tests r) path.address (test.step (e.arrival buf)))
            flight := ((path.val.reply S e test buf).bind (Handled.packet r)).map .relayed }
      | .unknown => { w with flight := none }

/-- One step. -/
def step : NetworkStep → PathNetwork
  | .deliver e =>
      match w.flight with
      | none => w
      | some flight => w.handle S e flight
  | .commit r m => w.update r fun c => (c.receive S m).1
  | .addOwnPath r owner path => w.update r fun c => c.addOwnPath owner path
  | .expirePaths r now expired => w.update r fun c => c.expirePaths now expired

/-- `pathbuilder_generated_keys`, when the keys and the frames of a path have been made. -/
def build (routers : PubKey → PathContext) (tests : PubKey → ℕ → PathTest) (creator : PubKey)
    (owner : ℕ) (path : Ptr Path) (frames : List Bytes) : PathNetwork where
  routers := Function.update routers creator ((routers creator).addOwnPath owner path)
  tests := Function.update tests creator
    (Function.update (tests creator) path.address { status := .building })
  flight := some (.commit ⟨creator, path.val.Upstream, frames⟩)

end PathNetwork

/-- The deliveries among the steps. -/
def deliveries : List NetworkStep → List Surroundings :=
  List.filterMap fun
    | .deliver e => some e
    | .commit _ _ => none
    | .addOwnPath _ _ _ => none
    | .expirePaths _ _ _ => none

/-! ### What others leave as it was -/

/-- The ids of all hops. -/
def Path.allIds (p : Path) : List PathID := (List.range p.hops.length).flatMap p.ids

namespace PathContext

/-- Two states of the tables of a router are the same for the ids of a path. -/
structure Alike (ids : List PathID) (c c' : PathContext) : Prop where
  ourRouterID : c'.ourRouterID = c.ourRouterID
  encryption : c'.encryption = c.encryption
  allowTransit : c'.allowTransit = c.allowTransit
  transitPaths : ∀ id ∈ ids, ∀ hop, (id, hop) ∈ c'.transitPaths ↔ (id, hop) ∈ c.transitPaths
  ourPaths : ∀ id ∈ ids, c'.ourPaths.lookup id = c.ourPaths.lookup id
  sets : ∀ id ∈ ids, ∀ s remote path, (c'.sets s).paths.lookup (remote, id) = some path ↔
    (c.sets s).paths.lookup (remote, id) = some path

/-- The tables have nothing under the ids of a path. -/
structure Unused (ids : List PathID) (c : PathContext) : Prop where
  transitPaths : ∀ id ∈ ids, ∀ hop, (id, hop) ∉ c.transitPaths
  ourPaths : ∀ id ∈ ids, c.ourPaths.lookup id = none
  sets : ∀ id ∈ ids, ∀ s remote, (c.sets s).paths.lookup (remote, id) = none

end PathContext

/-- A step is for others: it takes no hop and adds no path with one of the ids, and what it lets
expire has none of them; and the numbers that a delivery takes from its surroundings are such that
the decoder can tell them. -/
def PathNetwork.ForOthers (S : Sodium) (ids : List PathID) (w : PathNetwork) :
    NetworkStep → Prop
  | .deliver e => e.random ≠ -1 ∧ e.relay.created ≠ -1
  | .commit r m => ∀ hop, ((w.routers r).receive S m).2.hop = some hop →
      hop.val.info.txID ∉ ids ∧ hop.val.info.rxID ∉ ids
  | .addOwnPath _ _ path => path.val.TXID ∉ ids ∧ path.val.RXID ∉ ids
  | .expirePaths r now expired =>
      (∀ e ∈ (w.routers r).transitPaths, e.2.val.expired now = true →
        e.2.val.info.txID ∉ ids ∧ e.2.val.info.rxID ∉ ids) ∧
      ∀ b remote path id, ((w.routers r).sets b).paths.lookup (remote, id) = some path →
        id ∈ ids → expired b path = false

namespace PathContext

variable {S : Sodium} {ids : List PathID} {c c' : PathContext}

lemma Alike.refl (ids : List PathID) (c : PathContext) : Alike ids c c :=
  ⟨rfl, rfl, rfl, fun _ _ _ => Iff.rfl, fun _ _ => rfl, fun _ _ _ _ _ => Iff.rfl⟩

/-- A hop of another path is taken. -/
lemma alike_putTransitHop {hop : Ptr TransitHop} (htx : hop.val.info.txID ∉ ids)
    (hrx : hop.val.info.rxID ∉ ids) : Alike ids c (c.putTransitHop hop) where
  ourRouterID := rfl
  encryption := rfl
  allowTransit := rfl
  transitPaths id hid hop' := by
    have htx' : id ≠ hop.val.info.txID := fun heq => htx (heq ▸ hid)
    have hrx' : id ≠ hop.val.info.rxID := fun heq => hrx (heq ▸ hid)
    simp [mem_putTransitHop, htx', hrx']
  ourPaths _ _ := rfl
  sets _ _ _ _ _ := Iff.rfl

lemma alike_receive {m : CommitArrival} (h : ∀ hop, (c.receive S m).2.hop = some hop →
    hop.val.info.txID ∉ ids ∧ hop.val.info.rxID ∉ ids) : Alike ids c (c.receive S m).1 := by
  rcases c.receive_cases S m with ⟨-, heq⟩ | ⟨hop, hhop, -, -, heq⟩
  · rw [heq]
    exact .refl ids c
  · rw [heq]
    exact alike_putTransitHop (h hop hhop).1 (h hop hhop).2

/-- What `AddPath` leaves under another id. -/
lemma lookup_addPath_of_ne {s : PathSet} {path : Ptr Path} {id : PathID} (h : id ≠ path.val.RXID)
    (remote : PubKey) :
    (s.addPath path).paths.lookup (remote, id) = s.paths.lookup (remote, id) := by
  rw [PathSet.addPath]
  split_ifs
  · rfl
  · exact AList.lookup_insert_ne fun heq => h (Prod.mk.inj heq).2

lemma sets_addOwnPath (owner : ℕ) (path : Ptr Path) : (c.addOwnPath owner path).sets =
    Function.update c.sets owner ((c.sets owner).addPath path) := by
  rw [addOwnPath, putOwn, putOwn]
  split_ifs <;> rfl

/-- A path of our own changes neither the identity nor the hops. -/
lemma addOwnPath_fields (owner : ℕ) (path : Ptr Path) :
    (c.addOwnPath owner path).ourRouterID = c.ourRouterID ∧
      (c.addOwnPath owner path).encryption = c.encryption ∧
      (c.addOwnPath owner path).allowTransit = c.allowTransit ∧
      (c.addOwnPath owner path).transitPaths = c.transitPaths := by
  rw [addOwnPath, putOwn, putOwn]
  split_ifs <;> exact ⟨rfl, rfl, rfl, rfl⟩

lemma alike_addOwnPath (owner : ℕ) {path : Ptr Path} (htx : path.val.TXID ∉ ids)
    (hrx : path.val.RXID ∉ ids) : Alike ids c (c.addOwnPath owner path) := by
  obtain ⟨hrouter, hencryption, hallow, htransit⟩ := c.addOwnPath_fields owner path
  refine ⟨hrouter, hencryption, hallow, fun id _ hop => by rw [htransit], ?_, ?_⟩
  · intro id hid
    have hne : ¬ (id = path.val.TXID ∨ id = path.val.RXID) := by
      rintro (rfl | rfl)
      · exact htx hid
      · exact hrx hid
    rw [lookup_addOwnPath, if_neg hne, Option.or_none]
  · intro id hid s remote path'
    rw [sets_addOwnPath]
    by_cases hs : s = owner
    · subst hs
      have hne : id ≠ path.val.RXID := fun heq => hrx (heq ▸ hid)
      rw [Function.update_self, lookup_addPath_of_ne hne]
    · rw [Function.update_of_ne hs]

lemma alike_expirePaths {now : UInt64} {expired : ℕ → Ptr Path → Bool}
    (htransit : ∀ e ∈ c.transitPaths, e.2.val.expired now = true →
      e.2.val.info.txID ∉ ids ∧ e.2.val.info.rxID ∉ ids)
    (hown : ∀ b remote path id, (c.sets b).paths.lookup (remote, id) = some path → id ∈ ids →
      expired b path = false) : Alike ids c (c.expirePaths now expired) where
  ourRouterID := rfl
  encryption := rfl
  allowTransit := rfl
  transitPaths id hid hop := by
    have hkept : id ∉ (c.expireTransit now).2.flatMap fun hop =>
        [hop.val.info.txID, hop.val.info.rxID] := by
      rw [mem_ids_removed]
      rintro ⟨e, he, hexpired, rfl | rfl⟩
      · exact (htransit e he hexpired).1 hid
      · exact (htransit e he hexpired).2 hid
    change (id, hop) ∈ (c.expireTransit now).1.transitPaths ↔ _
    rw [transitPaths_expireTransit, List.mem_filter, decide_eq_true_eq]
    exact and_iff_left hkept
  ourPaths _ _ := rfl
  sets id hid s remote path := by
    change ((c.sets s).expirePaths (expired s)).paths.lookup (remote, id) = some path ↔ _
    rw [PathSet.lookup_expirePaths]
    exact and_iff_left_of_imp fun hlookup => hown s remote path id hlookup hid

end PathContext

namespace PathNetwork

variable {S : Sodium} {ids : List PathID} {w : PathNetwork}

/-- The tables of all routers are the same for the ids, when one of them changes that is alike. -/
lemma alike_update {r : PubKey} {f : PathContext → PathContext}
    (h : (w.routers r).Alike ids (f (w.routers r))) (r' : PubKey) :
    (w.routers r').Alike ids ((w.update r f).routers r') := by
  by_cases hr : r' = r
  · subst hr
    simpa [update] using h
  · simpa [update, hr] using PathContext.Alike.refl ids (w.routers r')

/-- A step for others leaves the tables alike, and the test and the message as they were. -/
lemma step_alike {i : NetworkStep} (h : w.ForOthers S ids i) (hi : deliveries [i] = []) :
    (∀ r, (w.routers r).Alike ids ((w.step S i).routers r)) ∧ (w.step S i).tests = w.tests ∧
      (w.step S i).flight = w.flight := by
  cases i with
  | deliver e => cases hi
  | commit r m =>
      exact ⟨alike_update (f := fun c => (c.receive S m).1) (PathContext.alike_receive h), rfl, rfl⟩
  | addOwnPath r owner path =>
      exact ⟨alike_update (f := fun c => c.addOwnPath owner path)
        (PathContext.alike_addOwnPath owner h.1 h.2), rfl, rfl⟩
  | expirePaths r now expired =>
      exact ⟨alike_update (f := fun c => c.expirePaths now expired)
        (PathContext.alike_expirePaths h.1 h.2), rfl, rfl⟩

end PathNetwork

/-! ### The tables of a path -/

namespace Path

/-- The creator has made the frames of a path whose adjacent routers are distinct. -/
structure Made (S : Sodium) (secrets : ℕ → Blob 32) (p₀ p : Path) (frames : List Bytes) :
    Prop where
  length : p₀.hops.length ≤ maxHops
  adjacent : ∀ k, k + 1 < p₀.hops.length →
    (p₀.hop k).router.pubkey ≠ (p₀.hop (k + 1)).router.pubkey
  same : SameHops p₀ p
  count : frames.length = maxHops
  size : ∀ f ∈ frames, f.length = frameSize
  generated : ∀ k < p₀.hops.length, ∀ creator, Generated S (secrets k) (p₀.hop k)
    (p₀.info creator k).upstream (p.hop k) (frames.getD k [])

/-- Two hops at one router have no id in common. -/
def Separate (p : Path) : Prop :=
  ∀ k < p.hops.length, ∀ k' < p.hops.length,
    (p.hop k).router.pubkey = (p.hop k').router.pubkey → k ≠ k' → ∀ id ∈ p.ids k, id ∉ p.ids k'

/-- The tables when the first `d` relays have taken their hops. -/
structure Tables (S : Sodium) (p : Path) (creator : PubKey) (owner : ℕ) (mine : Ptr Path)
    (secrets : ℕ → Blob 32) (relay : ℕ → RelayRandom) (d : ℕ) (routers : PubKey → PathContext) :
    Prop where
  ourRouterID : ∀ r, (routers r).ourRouterID = r
  willing : ∀ k < p.hops.length,
    (routers (p.hop k).router.pubkey).encryption = S.enckeygen (secrets k) ∧
      (routers (p.hop k).router.pubkey).allowTransit = true
  own : (routers creator).ourPaths.lookup p.RXID = some owner ∧
    ((routers creator).sets owner).paths.lookup (p.Upstream, p.RXID) = some mine
  held : ∀ k < p.hops.length, ∀ id ∈ p.ids k, ∀ hop,
    (id, hop) ∈ (routers (p.hop k).router.pubkey).transitPaths ↔
      k < d ∧ hop = p.relayHop creator (relay k) k
  index : ∀ k < p.hops.length, ∀ id ∈ p.ids k, ∀ s,
    (routers (p.hop k).router.pubkey).ourPaths.lookup id = some s →
      (p.hop k).router.pubkey = creator ∧ s = owner
  alone : ∀ k < p.hops.length, ∀ id ∈ p.ids k, ∀ remote path,
    ((routers creator).sets owner).paths.lookup (remote, id) = some path →
      path = mine ∧ remote = p.Upstream ∧ id = p.RXID

variable {S : Sodium} {p₀ p : Path} {creator : PubKey} {owner : ℕ} {mine : Ptr Path}
  {secrets : ℕ → Blob 32} {relay relay' : ℕ → RelayRandom} {d k : ℕ}
  {routers routers' : PubKey → PathContext} {frames : List Bytes}

lemma mem_allIds {id : PathID} (hk : k < p.hops.length) (hid : id ∈ p.ids k) : id ∈ p.allIds :=
  List.mem_flatMap.mpr ⟨k, List.mem_range.mpr hk, hid⟩

lemma RXID_mem : p.RXID ∈ p.ids 0 := by
  rw [ids, hop_zero]
  exact List.mem_cons_of_mem _ (List.mem_singleton_self _)

namespace Tables

/-- Steps for others. -/
lemma alike (h : Tables S p creator owner mine secrets relay d routers)
    (hlike : ∀ r, (routers r).Alike p.allIds (routers' r)) :
    Tables S p creator owner mine secrets relay d routers' where
  ourRouterID r := (hlike r).ourRouterID.trans (h.ourRouterID r)
  willing k hk := by
    rw [(hlike _).encryption, (hlike _).allowTransit]
    exact h.willing k hk
  own := by
    have hid := mem_allIds length_pos (RXID_mem (p := p))
    rw [(hlike creator).ourPaths _ hid, (hlike creator).sets _ hid]
    exact h.own
  held k hk id hid hop := by
    rw [(hlike _).transitPaths id (mem_allIds hk hid)]
    exact h.held k hk id hid hop
  index k hk id hid s := by
    rw [(hlike _).ourPaths id (mem_allIds hk hid)]
    exact h.index k hk id hid s
  alone k hk id hid remote path := by
    rw [(hlike creator).sets id (mem_allIds hk hid)]
    exact h.alone k hk id hid remote path

/-- Only what the relays took is in the tables. -/
lemma congr (h : Tables S p creator owner mine secrets relay d routers)
    (hrelay : ∀ k < d, relay' k = relay k) :
    Tables S p creator owner mine secrets relay' d routers where
  ourRouterID := h.ourRouterID
  willing := h.willing
  own := h.own
  held k hk id hid hop := by
    rw [h.held k hk id hid hop]
    exact and_congr_right fun hkd => by rw [hrelay k hkd]
  index := h.index
  alone := h.alone

/-- A relay takes its hop. -/
lemma commit (h : Tables S p creator owner mine secrets relay d routers) (hsep : p.Separate)
    (hd : d < p.hops.length) :
    Tables S p creator owner mine secrets relay (d + 1) (Function.update routers
      (p.hop d).router.pubkey ((routers (p.hop d).router.pubkey).putTransitHop
        (p.relayHop creator (relay d) d))) := by
  set hop := p.relayHop creator (relay d) d
  have hids : ∀ id, (id = hop.val.info.txID ∨ id = hop.val.info.rxID) ↔ id ∈ p.ids d := by
    intro id
    simp [hop, relayHop, info, ids]
  -- whatever router it is, only its transit hops may change
  have hlookup : ∀ r, ∃ l, Function.update routers (p.hop d).router.pubkey
      ((routers (p.hop d).router.pubkey).putTransitHop hop) r =
        { routers r with transitPaths := l } := by
    intro r
    by_cases hr : r = (p.hop d).router.pubkey
    · rw [hr, Function.update_self]
      exact ⟨_, rfl⟩
    · rw [Function.update_of_ne hr]
      exact ⟨_, rfl⟩
  constructor
  · intro r
    obtain ⟨l, hl⟩ := hlookup r
    rw [hl]
    exact h.ourRouterID r
  · intro k hk
    obtain ⟨l, hl⟩ := hlookup (p.hop k).router.pubkey
    rw [hl]
    exact h.willing k hk
  · obtain ⟨l, hl⟩ := hlookup creator
    rw [hl]
    exact h.own
  · intro k hk id hid hop'
    by_cases hr : (p.hop k).router.pubkey = (p.hop d).router.pubkey
    · rw [hr, Function.update_self, PathContext.mem_putTransitHop, hids, ← hr,
        h.held k hk id hid hop']
      -- a router may stand in the path twice: `Separate` keeps its ids apart
      by_cases hkd : k = d
      · subst hkd
        simp [hid, hop]
      · have hnot : id ∉ p.ids d := hsep k hk d hd hr hkd id hid
        have hlt : k < d + 1 ↔ k < d := by omega
        simp [hnot, hlt]
    · have hkd : k ≠ d := fun heq => hr (by rw [heq])
      have hlt : k < d + 1 ↔ k < d := by omega
      rw [Function.update_of_ne hr, h.held k hk id hid hop', hlt]
  · intro k hk id hid s
    obtain ⟨l, hl⟩ := hlookup (p.hop k).router.pubkey
    rw [hl]
    exact h.index k hk id hid s
  · intro k hk id hid remote path
    obtain ⟨l, hl⟩ := hlookup creator
    rw [hl]
    exact h.alone k hk id hid remote path

/-- When all relays have taken their hops the path is laid. -/
lemma laid (h : Tables S p creator owner mine secrets relay d routers) (hsep : p.Separate)
    (hval : mine.val = p) (hd : p.hops.length ≤ d) :
    p.Laid creator owner mine (fun k => p.relayHop creator (relay k) k) routers where
  ourRouterID := h.ourRouterID
  val := hval
  own := h.own
  hop _ _ := ⟨rfl, rfl⟩
  distinct k hk k' hk' hr heq := by
    by_contra hne
    have htx : (p.hop k).txID = (p.hop k').txID :=
      congrArg (fun hop : Ptr TransitHop => hop.val.info.txID) heq
    exact hsep k hk k' hk' hr hne _ List.mem_cons_self (by rw [htx]; exact List.mem_cons_self)
  held k hk id hid hop := by
    rw [h.held k hk id hid hop]
    exact and_iff_right (hk.trans_le hd)
  index := h.index
  alone := h.alone

/-- A relay whose turn has not come has no hop of the path. -/
lemma hasTransitHop_eq (h : Tables S p creator owner mine secrets relay d routers)
    (hd : d < p.hops.length) :
    (routers (p.hop d).router.pubkey).hasTransitHop (p.info creator d) = false := by
  rw [PathContext.hasTransitHop, Multimap.has, List.any_eq_false]
  rintro ⟨id, hop⟩ hmem hcheck
  obtain ⟨hid, -⟩ := Bool.and_eq_true_iff.mp hcheck
  obtain rfl : id = (p.hop d).txID := of_decide_eq_true hid
  exact lt_irrefl d ((h.held d hd _ List.mem_cons_self hop).mp hmem).1

end Tables

/-- The junk that is behind the frames comes from the relays in front. -/
lemma commitTo_congr (hrelay : ∀ k < d, relay' k = relay k) :
    p.commitTo creator relay' frames d = p.commitTo creator relay frames d := by
  have hjunk : (List.range d).map (fun i => (List.range frameSize).map (relay' i).junk) =
      (List.range d).map fun i => (List.range frameSize).map (relay i).junk :=
    List.map_congr_left fun i hi => by rw [hrelay i (List.mem_range.mp hi)]
  rw [commitTo, commitTo, framesAt, framesAt, hjunk]

end Path

/-! ### Deliveries -/

namespace PathNetwork

variable {S : Sodium} {w : PathNetwork} {p₀ p : Path} {creator : PubKey} {owner : ℕ}
  {mine : Ptr Path} {secrets : ℕ → Blob 32} {relay : ℕ → RelayRandom} {d k : ℕ}
  {frames : List Bytes} {hops : ℕ → Ptr TransitHop} {e : Surroundings} {Y : Blob 32} {m : Bytes}

/-- The relay whose turn it is takes its hop, and sends the other frames on, or the confirmation. -/
lemma handle_commit (hmade : Path.Made S secrets p₀ p frames)
    (ht : p.Tables S creator owner mine secrets relay d w.routers) (hd : d < p.hops.length)
    (he : relay d = e.relay) :
    w.handle S e (.commit (p.commitTo creator relay frames d)) =
      { w with
        routers := Function.update w.routers (p.hop d).router.pubkey
          ((w.routers (p.hop d).router.pubkey).putTransitHop (p.relayHop creator (relay d) d))
        flight := if d + 1 < p.hops.length then
            some (.commit (p.commitTo creator relay frames (d + 1)))
          else (((p.relayHop creator (relay d) d).val.handleDownstream S (confirmBytes (relay d))
            (relay d).nonce).packet (p.hop d).router.pubkey).map .relayed } := by
  have hlen : p.hops.length = p₀.hops.length := hmade.same.length
  have hd₀ : d < p₀.hops.length := hlen ▸ hd
  have hrouter : (p.hop d).router = (p₀.hop d).router := hmade.same.router d
  -- the step of one relay, seen with the tables of this moment
  let net : ℕ → PubKey → PathContext := fun _ => w.routers
  have hwilling : p₀.Willing S (secrets d) d (net d (p₀.hop d).router.pubkey) := by
    obtain ⟨henc, hallow⟩ := ht.willing d hd
    rw [← hrouter]
    exact ⟨(ht.ourRouterID _).trans (by rw [hrouter]), henc, hallow⟩
  have hnew : (net d (p₀.hop d).router.pubkey).hasTransitHop (p₀.info creator d) = false := by
    rw [← hrouter, ← hmade.same.info_eq]
    exact ht.hasTransitHop_eq hd
  obtain ⟨hgot, hnext⟩ := Path.commitStep_spec relay hmade.length hmade.same hmade.count
    hmade.size hd₀ (hmade.generated d hd₀ creator) (hmade.adjacent d) hwilling hnew
  rw [commitStep] at hgot hnext
  have hafter := hgot.after
  have hforwards := hgot.forwards
  have hconfirms := hgot.confirms
  dsimp only at hafter hforwards hconfirms hnext
  rw [handle, ← he]
  dsimp only
  rw [hafter]
  have hflight : (((w.routers (p.commitTo creator relay frames d).dst).handleCommit S (relay d)
      (p.commitTo creator relay frames d).src
      (p.commitTo creator relay frames d).frames).2).flight (p.hop d).router.pubkey =
      if d + 1 < p.hops.length then some (.commit (p.commitTo creator relay frames (d + 1)))
      else (((p.relayHop creator (relay d) d).val.handleDownstream S (confirmBytes (relay d))
        (relay d).nonce).packet (p.hop d).router.pubkey).map .relayed := by
    by_cases hlt : d + 1 < p.hops.length
    · obtain ⟨frames', hout⟩ := hforwards hlt
      rw [hout, if_pos (hlen ▸ hlt)] at hnext
      rw [hout, if_pos hlt]
      exact congrArg (Option.map Flight.commit) hnext
    · rw [hconfirms (by omega), if_neg hlt]
      rfl
  rw [← hflight]
  rfl

lemma handle_upstream (hlaid : p.Laid creator owner mine hops w.routers)
    (hk : k + 1 < p.hops.length) : w.handle S e (.relayed (p.upstreamTo S creator Y m k)) =
      { w with flight := some (.relayed (p.upstreamTo S creator Y m (k + 1))) } := by
  have hhandled := hlaid.handleMessage_upstream S Y m (Nat.lt_of_succ_lt hk)
  rw [if_pos hk] at hhandled
  rw [handle]
  dsimp only [Path.upstreamTo] at hhandled ⊢
  rw [hhandled]
  rfl

/-- The last relay parses the payload. -/
lemma handle_farthest (hlaid : p.Laid creator owner mine hops w.routers)
    (hk : k + 1 = p.hops.length) : w.handle S e (.relayed (p.upstreamTo S creator Y m k)) =
      { w with flight := (((hops k).val.parseMessageBuffer S e m).bind
        (Handled.packet (p.hop k).router.pubkey)).map .relayed } := by
  have hhandled := hlaid.handleMessage_upstream S Y m (show k < p.hops.length by omega)
  rw [if_neg (by omega)] at hhandled
  rw [handle]
  dsimp only [Path.upstreamTo] at hhandled ⊢
  rw [hhandled]

lemma handle_downstream (hlaid : p.Laid creator owner mine hops w.routers)
    (hk : k + 1 < p.hops.length) :
    w.handle S e (.relayed (p.downstreamFrom S creator Y m (k + 1))) =
      { w with flight := some (.relayed (p.downstreamFrom S creator Y m k)) } := by
  have hhandled := hlaid.handleMessage_downstream S Y m hk
  rw [handle]
  dsimp only [Path.downstreamFrom, Path.station] at hhandled ⊢
  rw [hhandled]

/-- The creator parses what comes back. -/
lemma handle_creator (hlaid : p.Laid creator owner mine hops w.routers) :
    w.handle S e (.relayed (p.downstreamFrom S creator Y m 0)) =
      { w with
        tests := Function.update w.tests creator (Function.update (w.tests creator) mine.address
          ((w.tests creator mine.address).step (e.arrival m)))
        flight := ((mine.val.reply S e (w.tests creator mine.address) m).bind
          (Handled.packet creator)).map .relayed } := by
  have hhandled := hlaid.handleMessage_creator S Y m
  rw [handle]
  dsimp only [Path.downstreamFrom, Path.station] at hhandled ⊢
  rw [hhandled]

end PathNetwork

/-! ### Payloads -/

section Payloads

variable {S : Sodium} {e : Surroundings} {T L : UInt64}

/-- A payload is read back as it was encoded. -/
lemma message_confirm {relay : RelayRandom} (h : relay.created ≠ -1) :
    ∃ c, (e.arrival (confirmBytes relay)).message = some (.pathConfirm c) := by
  have hlifetime : (600000 : UInt64) ≠ -1 := by decide
  obtain ⟨q, hparse, hmsg⟩ := Routing.InboundMessageParser.reads_parse_pathConfirm
    (m := { pathLifetime := 600000, pathCreated := relay.created }) hlifetime h {} _
    (Buffer.holds_ofBytes (confirmBytes relay) e.relay.after)
  refine ⟨{ pathLifetime := 600000, pathCreated := relay.created }, ?_⟩
  rw [Arrival.message, Surroundings.arrival, hparse]
  exact hmsg

lemma message_latency (hL : L ≠ -1) (hT : T ≠ -1) :
    (e.arrival ({ T := T, L := L } : Routing.PathLatencyMessage).encoding).message =
      some (.pathLatency { T := T, L := L }) := by
  obtain ⟨q, hparse, hmsg⟩ := Routing.InboundMessageParser.reads_parse_pathLatency
    (m := { T := T, L := L }) hL hT {} _ (Buffer.holds_ofBytes _ e.relay.after)
  rw [Arrival.message, Surroundings.arrival, hparse]
  exact hmsg

lemma encodeRouting_latency (m : Routing.PathLatencyMessage) (tmp : ℕ → UInt8) :
    encodeRouting m.bencode tmp = some m.encoding :=
  encodeRouting_eq m.sure_bencode (m.encoding_length_le.trans (by norm_num)) tmp

/-- The last hop answers a test. -/
lemma TransitHop.parseMessageBuffer_latency (hT : T ≠ -1) (hop : TransitHop) :
    hop.parseMessageBuffer S e ({ T := T } : Routing.PathLatencyMessage).encoding =
      some (hop.handleDownstream S ({ L := T } : Routing.PathLatencyMessage).encoding
        e.relay.nonce) := by
  rw [parseMessageBuffer, message_latency (by decide) hT]
  dsimp only
  rw [sendRoutingMessage, latencyReply, encodeRouting_latency]
  rfl

/-- The creator tests a path that is confirmed. -/
lemma Path.reply_confirm {p : Path} {test : PathTest} {buf : Bytes} {c : Routing.PathConfirmMessage}
    (hmsg : (e.arrival buf).message = some (.pathConfirm c)) (hstatus : test.status = .building)
    (creator : PubKey) : (p.reply S e test buf).bind (Handled.packet creator) =
      some (p.upstreamTo S creator e.relay.nonce
        ({ T := e.random } : Routing.PathLatencyMessage).encoding 0) := by
  rw [reply, hmsg]
  dsimp only
  rw [if_pos hstatus, sendRoutingMessage, encodeRouting_latency, Option.map_some, Option.bind_some,
    handleUpstream, upstreamTo, hop_zero]
  rfl

/-- An answer is not answered. -/
lemma Path.reply_latency {p : Path} {test : PathTest} {buf : Bytes}
    {m : Routing.PathLatencyMessage} (hmsg : (e.arrival buf).message = some (.pathLatency m)) :
    p.reply S e test buf = none := by
  rw [reply, hmsg]

end Payloads

end Udap
