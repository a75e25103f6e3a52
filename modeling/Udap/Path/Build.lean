import Udap.Iwp.Handshake
import Udap.Path.CommitRecord
import Udap.Path.Frame
import Udap.Lib.Trail
import Udap.Path.Onion
import Udap.Routing.Message

/-!
Building a path.

The creator of a path makes a key for every hop and puts a record for each relay into a frame that
only this one can decrypt. The frames go from relay to relay: each takes the one in front, puts the
hop of its record into its table and sends the others on, with junk of the same size behind them.
A relay that has the same hop already drops the message.

* `generate_spec`: the keys and the frames of the creator. A relay that knows the secret of a hop
  finds the record of this hop in its frame (`Generated`).
* `handleCommit_spec`: what a relay does with the frames.
* `records_delivered`: each relay of a path gets its own record and takes its hop (`GotRecord`),
  unless it has this hop already; then it drops the message (`record_dropped`).
-/

namespace Udap

open ByteMem Iwp

/-- `MAXHOPS`. -/
def maxHops : ℕ := 8

/-- The size of a frame that was made with the default constructor. -/
def frameSize : ℕ := 256 + overheadSize

/-! ### The creator -/

/-- What is drawn at random for a hop. -/
structure HopRandom where
  commkey : Blob 32
  nonce : Blob 32
  framekey : Blob 32
  frameNonce : Blob 32

/-- The record that tells a relay of its hop. -/
def PathHopConfig.record (hop : PathHopConfig) : LRCommitRecord where
  commkey := hop.commkey.toPublic
  nextHop := hop.upstream
  tunnelNonce := hop.nonce
  txid := hop.txID
  rxid := hop.rxID

/-- The buffer of a frame, at its body. -/
def frameBody (frame : Bytes) (after : ℕ → UInt8) : Buffer :=
  { Buffer.ofBytes frame after with cur := overheadSize }

lemma holds_frameBody {head s rest : Bytes} (hhead : head.length = overheadSize)
    (after : ℕ → UInt8) : (frameBody (head ++ (s ++ rest)) after).Holds s := by
  have hright := (Buffer.holds_ofBytes (head ++ (s ++ rest)) after).right
  rw [hhead, Buffer.skip] at hright
  exact hright.left

/-- `GenerateNextKey` for a hop, with the router of the next one if there is one. -/
def generateNextKey (S : Sodium) (random : HopRandom) (hop : PathHopConfig) (next : Option PubKey)
    (frame : Bytes) : Option (PathHopConfig × Bytes) :=
  let commkey := S.enckeygen random.commkey
  match S.dhClient hop.router.enckey commkey random.nonce with
  | none => none
  | some shared =>
      let hop := { hop with
        commkey := commkey, nonce := random.nonce, shared := shared
        upstream := next.getD hop.router.pubkey }
      match hop.record.bencode (frameBody frame fun _ => 0) with
      | (_, false) => none
      | (buf, true) =>
          let frame := { buf with cur := 0 }.bytes buf.sz
          match EncryptedFrame.encryptInPlace S random.frameNonce (S.enckeygen random.framekey)
            hop.router.enckey frame with
          | (_, false) => none
          | (frame, true) => some (hop, frame)

/-- The jobs from a hop on; `idx` is its place. -/
def generateKeys (S : Sodium) (random : ℕ → HopRandom) :
    ℕ → List PathHopConfig → List Bytes → Option (List PathHopConfig × List Bytes)
  | _, [], frames => some ([], frames)
  | _, _ :: _, [] => none
  | idx, hop :: hops, frame :: frames =>
      (generateNextKey S (random idx) hop (hops.head?.map fun next => next.router.pubkey)
        frame).bind fun first =>
      (generateKeys S random (idx + 1) hops frames).map fun rest =>
        (first.1 :: rest.1, first.2 :: rest.2)

lemma generateNextKey_ids {S : Sodium} {random : HopRandom} {hop hop' : PathHopConfig}
    {next : Option PubKey} {frame frame' : Bytes}
    (h : generateNextKey S random hop next frame = some (hop', frame')) :
    (hop'.txID, hop'.rxID) = (hop.txID, hop.rxID) := by
  unfold generateNextKey at h
  dsimp only at h
  split at h
  · cases h
  split at h
  · cases h
  split at h
  · cases h
  rw [Option.some.injEq, Prod.mk.injEq] at h
  rw [← h.1]

/-- The keys of a path are made, not its ids. -/
lemma generateKeys_ids {S : Sodium} {random : ℕ → HopRandom} {idx : ℕ}
    {hops hops' : List PathHopConfig} {frames frames' : List Bytes}
    (h : generateKeys S random idx hops frames = some (hops', frames')) :
    (hops'.map fun hop => (hop.txID, hop.rxID)) = hops.map fun hop => (hop.txID, hop.rxID) := by
  induction hops generalizing idx hops' frames frames' with
  | nil =>
    cases frames <;>
    · rw [generateKeys, Option.some.injEq, Prod.mk.injEq] at h
      rw [← h.1]
  | cons hop hops ih =>
    cases frames with
    | nil => cases h
    | cons frame frames =>
      obtain ⟨⟨hop₁, frame₁⟩, hfirst, hmap⟩ := Option.bind_eq_some_iff.mp h
      obtain ⟨⟨hops₁, frames₁⟩, hrest, heq⟩ := Option.map_eq_some_iff.mp hmap
      obtain ⟨rfl, -⟩ := Prod.mk.inj heq
      rw [List.map_cons, List.map_cons, generateNextKey_ids hfirst, ih hrest]

lemma chained_iff (hops : List PathHopConfig) : Chained hops ↔
    (hops.map fun hop => (hop.txID, hop.rxID)).IsChain fun ids ids' => ids.1 = ids'.2 := by
  rw [Chained, List.isChain_map]

/-- `AsyncGenerateKeys` with its jobs: the path with its keys, and the frames of the message. -/
def Path.generate (S : Sodium) (random : ℕ → HopRandom) (junk : ℕ → Blob frameSize) (p : Path) :
    Option (Path × List Bytes) :=
  let frames := (List.range maxHops).map fun idx => (junk idx).1
  match h : generateKeys S random 0 p.hops frames with
  | none => none
  | some (hops, frames) =>
      have hids := generateKeys_ids h
      some (⟨hops, fun hnil => p.ne_nil (by simpa [hnil] using hids.symm),
        (chained_iff hops).mpr (hids ▸ (chained_iff p.hops).mp p.chained)⟩, frames)

/-! ### The relays -/

/-- What a relay takes from its surroundings: the address of a new hop, what is in memory that is
not initialised and behind a frame, random bytes and times. -/
structure RelayRandom where
  address : ℕ
  record : LRCommitRecord
  after : ℕ → UInt8
  junk : ℕ → UInt8
  started : UInt64
  created : UInt64
  nonce : Blob 32
  tmp : ℕ → UInt8

/-- What comes of an `LR_CommitMessage`. -/
inductive Commit
  /-- not handled, or dropped -/
  | refused
  /-- `SendPathConfirm` -/
  | confirmed (record : LRCommitRecord) (hop : Ptr TransitHop) (confirm : Option Handled)
  /-- `SendLRCM` -/
  | forwarded (record : LRCommitRecord) (hop : Ptr TransitHop) (dst : PubKey) (frames : List Bytes)

namespace PathContext

/-- `SendPathConfirm`. -/
def sendPathConfirm (S : Sodium) (random : RelayRandom) (hop : TransitHop) : Option Handled :=
  let confirm : Routing.PathConfirmMessage :=
    { pathLifetime := hop.lifetime, pathCreated := random.created }
  hop.sendRoutingMessage S confirm.bencode random.tmp random.nonce

/-- `HandleDecrypted` with the front frame and the others; the message came from `remote`. -/
def handleDecrypted (S : Sodium) (random : RelayRandom) (remote : PubKey) (front : Bytes)
    (frames : List Bytes) (c : PathContext) : PathContext × Commit :=
  match LRCommitRecord.bdecode { random.record with work := false } (frameBody front random.after)
  with
  | (_, none) => (c, .refused)
  | (record, some _) =>
      let info : TransitHopInfo := ⟨record.txid, record.rxid, record.nextHop, remote⟩
      if c.hasTransitHop info then (c, .refused)
      else
        match S.dhServer record.commkey c.encryption record.tunnelNonce with
        | none => (c, .refused)
        | some pathKey =>
            let hop : Ptr TransitHop :=
              ⟨random.address, { info := info, pathKey := pathKey, started := random.started }⟩
            if c.hopIsUs info.upstream then
              (c.putTransitHop hop, .confirmed record hop (sendPathConfirm S random hop.val))
            else
              let junk := (List.range front.length).map random.junk
              (c.putTransitHop hop, .forwarded record hop info.upstream (frames ++ [junk]))

/-- `LR_CommitMessage::HandleMessage`. -/
def handleCommit (S : Sodium) (random : RelayRandom) (remote : PubKey) (frames : List Bytes)
    (c : PathContext) : PathContext × Commit :=
  if frames.length ≠ maxHops then (c, .refused)
  else if c.allowTransit then
    match frames with
    | [] => (c, .refused)
    | front :: frames =>
        match EncryptedFrame.decryptInPlace S c.encryption front with
        | (_, false) => (c, .refused)
        | (front, true) => c.handleDecrypted S random remote front frames
  else (c, .refused)

end PathContext

/-- An `LR_CommitMessage` between two routers. -/
structure CommitPacket where
  src : PubKey
  dst : PubKey
  frames : List Bytes

/-- A router that got the message: what it got, its tables after that, and what came of it. -/
structure CommitStation where
  router : PubKey
  frames : List Bytes
  after : PathContext
  outcome : Commit

/-- A message is handled where it was sent to. -/
def commitStep (S : Sodium) (net : ℕ → PubKey → PathContext) (random : ℕ → RelayRandom) (t : ℕ)
    (packet : CommitPacket) : CommitStation × Option CommitPacket :=
  let handled := (net t packet.dst).handleCommit S (random t) packet.src packet.frames
  (⟨packet.dst, packet.frames, handled.1, handled.2⟩,
    match handled.2 with
    | .forwarded _ _ dst frames => some ⟨packet.dst, dst, frames⟩
    | .confirmed _ _ _ => none
    | .refused => none)

/-- The routers that a message comes to; `net t` has the tables of all routers when it is handled
for the `t`-th time. -/
def commitJourney (S : Sodium) (net : ℕ → PubKey → PathContext) (random : ℕ → RelayRandom)
    (fuel : ℕ) (packet : CommitPacket) : List CommitStation :=
  trail (commitStep S net random) fuel 0 packet

/-! ### The frames of the creator -/

section Creator

variable {S : Sodium}

/-- What the creator has made for a hop, and what a relay with this secret makes of the frame. -/
structure Generated (S : Sodium) (secret : Blob 32) (hop : PathHopConfig) (upstream : PubKey)
    (hop' : PathHopConfig) (frame : Bytes) : Prop where
  txID : hop'.txID = hop.txID
  rxID : hop'.rxID = hop.rxID
  router : hop'.router = hop.router
  upstream : hop'.upstream = upstream
  shared : S.dhServer hop'.commkey.toPublic (S.enckeygen secret) hop'.nonce = some hop'.shared
  length : frame.length = frameSize
  body : ∃ head rest, head.length = overheadSize ∧
    EncryptedFrame.decryptInPlace S (S.enckeygen secret) frame =
      (head ++ (hop'.record.encoding ++ rest), true)

/-- A record that is written to the body of a frame. -/
lemma bencode_frameBody (record : LRCommitRecord) (h : record.work = false) {frame : Bytes}
    (hlen : frame.length = frameSize) (after : ℕ → UInt8) : ∃ buf head rest,
      record.bencode (frameBody frame after) = (buf, true) ∧ head.length = overheadSize ∧
      { buf with cur := 0 }.bytes buf.sz = head ++ (record.encoding ++ rest) ∧
      buf.sz = frameSize := by
  have hsure := LRCommitRecord.sure_bencode h
  have hsz : (frameBody frame after).sz = frameSize := hlen
  have hinside : (frameBody frame after).Inside := by
    rw [Buffer.Inside, hsz]
    exact Nat.le_add_left ..
  have hroom : (frameBody frame after).sizeLeft = 256 := by
    rw [Buffer.sizeLeft, hsz]
    rfl
  have hok : (record.bencode (frameBody frame after)).2 = true := by
    rw [hsure.fits_iff _ hinside, hroom, record.encoding_length]
    decide
  have hwrote := hsure.wrote _ hinside hok
  generalize record.bencode (frameBody frame after) = b at hok hwrote
  obtain ⟨buf, ok⟩ := b
  obtain rfl : ok = true := hok
  have hsize : buf.cur + (buf.sz - buf.cur) = buf.sz := Nat.add_sub_cancel' hwrote.inside
  refine ⟨buf, (frameBody frame after).written, (buf.skip 0).bytes (buf.sz - buf.cur), rfl,
    Buffer.written_length _, ?_, hwrote.sz.trans hsz⟩
  calc { buf with cur := 0 }.bytes buf.sz
      = { buf with cur := 0 }.bytes (buf.cur + (buf.sz - buf.cur)) := by rw [hsize]
    _ = buf.written ++ ({ buf with cur := 0 }.skip buf.cur).bytes (buf.sz - buf.cur) :=
        Buffer.bytes_add ..
    _ = (frameBody frame after).written ++ record.encoding ++
          ({ buf with cur := 0 }.skip buf.cur).bytes (buf.sz - buf.cur) := by rw [hwrote.written]
    _ = (frameBody frame after).written ++
          (record.encoding ++ (buf.skip 0).bytes (buf.sz - buf.cur)) := by
        rw [List.append_assoc, Buffer.skip, Nat.zero_add]
        rfl

/-- The key of a hop is made, and its record is put into its frame. -/
lemma generateNextKey_spec {random : HopRandom} {secret : Blob 32} {hop : PathHopConfig}
    {frame : Bytes} (hkey : hop.router.enckey = S.scalarmultBase secret)
    (hcomm : S.Agree random.commkey secret) (hframe : S.Agree random.framekey secret)
    (hlen : frame.length = frameSize) (next : Option PubKey) : ∃ hop' frame',
      generateNextKey S random hop next frame = some (hop', frame') ∧
      Generated S secret hop (next.getD hop.router.pubkey) hop' frame' := by
  obtain ⟨key, hclient, hserver⟩ := S.dhClient_eq_dhServer hcomm
  let hop' : PathHopConfig := { hop with
    commkey := S.enckeygen random.commkey, nonce := random.nonce, shared := key random.nonce
    upstream := next.getD hop.router.pubkey }
  obtain ⟨buf, head, rest, hbencode, hhead, hbytes, hsz⟩ :=
    bencode_frameBody hop'.record rfl hlen fun _ => 0
  have hwhole : ({ buf with cur := 0 }.bytes buf.sz).length = frameSize :=
    (Buffer.bytes_length ..).trans hsz
  have hlarge : overheadSize < ({ buf with cur := 0 }.bytes buf.sz).length := by
    rw [hwhole]
    decide
  obtain ⟨frame', head', hencrypt, hsame, hhead', hdecrypt⟩ :=
    EncryptedFrame.decrypt_encrypt S hframe random.frameNonce hlarge
  refine ⟨hop', frame', ?_, rfl, rfl, rfl, rfl, ?_, hsame.trans hwhole, head', rest, hhead', ?_⟩
  · rw [generateNextKey, hkey, hclient]
    dsimp only
    rw [hbencode]
    dsimp only
    rw [hkey, hencrypt]
  · rw [← hserver random.nonce, ← S.enckeygen_toPublic random.commkey]
  · rw [hdecrypt, hbytes, List.drop_left' hhead]

/-- What lets a creator and a relay agree on the keys of a hop. -/
structure Keyed (S : Sodium) (random : HopRandom) (secret : Blob 32) (hop : PathHopConfig) :
    Prop where
  enckey : hop.router.enckey = S.scalarmultBase secret
  commkey : S.Agree random.commkey secret
  framekey : S.Agree random.framekey secret

lemma generateKeys_spec {random : ℕ → HopRandom} {secrets : ℕ → Blob 32} {idx : ℕ}
    {hops : List PathHopConfig} {frames : List Bytes}
    (hkeyed : ∀ i hop, hops[i]? = some hop → Keyed S (random (idx + i)) (secrets (idx + i)) hop)
    (hlen : hops.length ≤ frames.length) (hsize : ∀ f ∈ frames, f.length = frameSize) :
    ∃ hops' frames', generateKeys S random idx hops frames = some (hops', frames') ∧
      hops'.length = hops.length ∧ frames'.length = frames.length ∧
      (∀ f ∈ frames', f.length = frameSize) ∧
      ∀ i hop hop' frame, hops[i]? = some hop → hops'[i]? = some hop' → frames'[i]? = some frame →
        Generated S (secrets (idx + i)) hop
          ((hops[i + 1]?.map fun next => next.router.pubkey).getD hop.router.pubkey)
          hop' frame := by
  induction hops generalizing idx frames with
  | nil => exact ⟨[], frames, by cases frames <;> rfl, rfl, rfl, hsize, by simp⟩
  | cons hop hops ih =>
    cases frames with
    | nil => cases hlen
    | cons frame frames =>
      have hfirst : Keyed S (random idx) (secrets idx) hop := hkeyed 0 hop rfl
      have hothers : ∀ i hop, hops[i]? = some hop →
          Keyed S (random (idx + 1 + i)) (secrets (idx + 1 + i)) hop := by
        intro i hop' hi
        rw [Nat.add_right_comm]
        exact hkeyed (i + 1) hop' hi
      obtain ⟨hop', frame', hnext, hgen⟩ := generateNextKey_spec hfirst.enckey hfirst.commkey
        hfirst.framekey (hsize frame List.mem_cons_self)
        (hops.head?.map fun next => next.router.pubkey)
      obtain ⟨hops', frames', hrest, hlen', hflen', hsize', hgens⟩ := ih hothers
        (Nat.le_of_succ_le_succ hlen) fun f hf => hsize f (List.mem_cons_of_mem _ hf)
      refine ⟨hop' :: hops', frame' :: frames', ?_, congrArg Nat.succ hlen',
        congrArg Nat.succ hflen', ?_, fun i h₀ h₁ f hi hi' hf => ?_⟩
      · rw [generateKeys, hnext, Option.bind_some, hrest]
        rfl
      · intro f hf
        rcases List.mem_cons.mp hf with rfl | hf
        · exact hgen.length
        · exact hsize' f hf
      · cases i with
        | zero =>
          obtain rfl : hop = h₀ := Option.some.inj hi
          obtain rfl : hop' = h₁ := Option.some.inj hi'
          obtain rfl : frame' = f := Option.some.inj hf
          rw [List.getElem?_cons_succ, ← List.head?_eq_getElem?]
          exact hgen
        | succ i =>
          have hgen' := hgens i h₀ h₁ f hi hi' hf
          rwa [Nat.add_right_comm] at hgen'

end Creator

/-! ### One relay -/

section Relay

variable {S : Sodium} {random : RelayRandom} {c : PathContext}

/-- The hop that a relay makes of a record. -/
def PathHopConfig.hopAt (random : RelayRandom) (remote : PubKey) (hop : PathHopConfig) :
    Ptr TransitHop :=
  ⟨random.address, ⟨hop.txID, hop.rxID, hop.upstream, remote⟩, hop.shared, random.started, 600000⟩

/-- The payload of the confirmation. -/
def confirmBytes (random : RelayRandom) : Bytes :=
  ({ pathLifetime := 600000, pathCreated := random.created } : Routing.PathConfirmMessage).encoding

lemma sendPathConfirm_eq (remote : PubKey) (hop : PathHopConfig) :
    PathContext.sendPathConfirm S random (hop.hopAt random remote).val =
      some ((hop.hopAt random remote).val.handleDownstream S (confirmBytes random)
        random.nonce) := by
  have hlifetime : (hop.hopAt random remote).val.lifetime = 600000 := rfl
  have hsmall (m : Routing.PathConfirmMessage) : m.encoding.length ≤ 16384 :=
    m.encoding_length_le.trans (by norm_num)
  rw [PathContext.sendPathConfirm, TransitHop.sendRoutingMessage, hlifetime,
    encodeRouting_eq (Routing.PathConfirmMessage.sure_bencode _) (hsmall _), Option.map_some,
    confirmBytes]

/-- A relay with the frame for it in front takes its hop, unless it has it already. -/
lemma handleCommit_spec {secret : Blob 32} {hop₀ hop : PathHopConfig} {upstream : PubKey}
    {front : Bytes} (hgen : Generated S secret hop₀ upstream hop front)
    (henc : c.encryption = S.enckeygen secret) (hallow : c.allowTransit = true)
    {frames : List Bytes} (hlen : (front :: frames).length = maxHops) (remote : PubKey) :
    c.handleCommit S random remote (front :: frames) =
      if c.hasTransitHop (hop.hopAt random remote).val.info then (c, .refused)
      else (c.putTransitHop (hop.hopAt random remote),
        if hop.upstream = c.ourRouterID then
          .confirmed hop.record (hop.hopAt random remote) (some
            ((hop.hopAt random remote).val.handleDownstream S (confirmBytes random) random.nonce))
        else .forwarded hop.record (hop.hopAt random remote) hop.upstream
          (frames ++ [(List.range frameSize).map random.junk])) := by
  obtain ⟨head, rest, hhead, hdecrypt⟩ := hgen.body
  have hsize : (head ++ (hop.record.encoding ++ rest)).length = frameSize := by
    rw [← hgen.length, ← EncryptedFrame.decryptInPlace_length S (S.enckeygen secret) front,
      hdecrypt]
  have hreads : Reads LRCommitRecord.bdecode { random.record with work := false }
      hop.record.encoding (· = hop.record) := LRCommitRecord.reads_bdecode rfl rfl
  obtain ⟨record, hread, hrecord⟩ := hreads _ (holds_frameBody hhead random.after)
  subst hrecord
  rw [PathContext.handleCommit, if_neg (not_not.mpr hlen), if_pos hallow, henc, hdecrypt]
  dsimp only
  rw [PathContext.handleDecrypted, hread]
  dsimp only
  have hshared : S.dhServer hop.record.commkey (S.enckeygen secret) hop.record.tunnelNonce =
      some hop.shared := hgen.shared
  rw [henc, hshared, hsize, ← sendPathConfirm_eq remote hop]
  by_cases hhas : c.hasTransitHop (hop.hopAt random remote).val.info = true
  · rw [if_pos hhas]
    exact if_pos hhas
  · rw [if_neg hhas]
    refine (if_neg hhas).trans ?_
    by_cases hus : hop.upstream = c.ourRouterID
    · rw [if_pos hus]
      exact if_pos (decide_eq_true hus)
    · rw [if_neg hus]
      exact if_neg fun h => hus (of_decide_eq_true h)

end Relay

/-! ### All relays -/

namespace Path

/-- The hop that the relay at a place takes. -/
def relayHop (p : Path) (creator : PubKey) (random : RelayRandom) (k : ℕ) : Ptr TransitHop :=
  ⟨random.address, p.info creator k, (p.hop k).shared, random.started, 600000⟩

/-- The ids and the routers of two paths are the same. -/
structure SameHops (p p' : Path) : Prop where
  length : p'.hops.length = p.hops.length
  txID : ∀ k, (p'.hop k).txID = (p.hop k).txID
  rxID : ∀ k, (p'.hop k).rxID = (p.hop k).rxID
  router : ∀ k, (p'.hop k).router = (p.hop k).router

/-- The relay at a place is what the creator takes it for, and allows transit. -/
structure Willing (p : Path) (S : Sodium) (secret : Blob 32) (k : ℕ) (c : PathContext) : Prop where
  ourRouterID : c.ourRouterID = (p.hop k).router.pubkey
  encryption : c.encryption = S.enckeygen secret
  allowTransit : c.allowTransit = true

/-- What the relay at a place gets and does: it decrypts its record, takes the hop of it, and sends
the other frames on, or the confirmation if it is the last one. -/
structure GotRecord (p : Path) (S : Sodium) (creator : PubKey) (net : ℕ → PubKey → PathContext)
    (random : ℕ → RelayRandom) (k : ℕ) (s : CommitStation) : Prop where
  router : s.router = (p.hop k).router.pubkey
  frames : s.frames.length = maxHops ∧ ∀ f ∈ s.frames, f.length = frameSize
  after : s.after = (net k s.router).putTransitHop (p.relayHop creator (random k) k)
  farthest : (p.info creator k).upstream = s.router ↔ k + 1 = p.hops.length
  forwards : k + 1 < p.hops.length → ∃ frames, s.outcome = .forwarded (p.hop k).record
    (p.relayHop creator (random k) k) (p.hop (k + 1)).router.pubkey frames
  confirms : k + 1 = p.hops.length →
    let hop := p.relayHop creator (random k) k
    s.outcome = .confirmed (p.hop k).record hop
      (some (hop.val.handleDownstream S (confirmBytes (random k)) (random k).nonce))

section Creator

variable {S : Sodium} {p₀ p : Path} {creator : PubKey} {secrets : ℕ → Blob 32}

lemma SameHops.info_eq (h : SameHops p₀ p) (k : ℕ) : p.info creator k = p₀.info creator k := by
  have hstation : ∀ j, p.station creator j = p₀.station creator j := by
    intro j
    cases j with
    | zero => rfl
    | succ j => exact congrArg RouterContact.pubkey (h.router j)
  rw [info, info, h.txID, h.rxID, h.length, hstation, hstation]

/-- The keys of a path do not change its ids. -/
lemma generate_eq {random : ℕ → HopRandom} {junk : ℕ → Blob frameSize} {hops : List PathHopConfig}
    {frames : List Bytes} (h : generateKeys S random 0 p₀.hops
      ((List.range maxHops).map fun idx => (junk idx).1) = some (hops, frames)) :
    ∃ p : Path, p.hops = hops ∧ p₀.generate S random junk = some (p, frames) := by
  rw [generate]
  split
  · rename_i hnone
    cases hnone.symm.trans h
  · rename_i hops' frames' hsome
    obtain ⟨rfl, rfl⟩ := Prod.mk.inj (Option.some.inj (hsome.symm.trans h))
    exact ⟨_, rfl, rfl⟩

/-- The keys and the frames of a path. -/
lemma generate_spec {random : ℕ → HopRandom} (junk : ℕ → Blob frameSize)
    (hn : p₀.hops.length ≤ maxHops)
    (hkeyed : ∀ k < p₀.hops.length, Keyed S (random k) (secrets k) (p₀.hop k)) :
    ∃ p frames, p₀.generate S random junk = some (p, frames) ∧ SameHops p₀ p ∧
      frames.length = maxHops ∧ (∀ f ∈ frames, f.length = frameSize) ∧
      ∀ k < p₀.hops.length, ∀ creator, Generated S (secrets k) (p₀.hop k)
        (p₀.info creator k).upstream (p.hop k) (frames.getD k []) := by
  have hkeyed' : ∀ i hop, p₀.hops[i]? = some hop →
      Keyed S (random (0 + i)) (secrets (0 + i)) hop := by
    intro i hop hi
    obtain ⟨hlt, -⟩ := List.getElem?_eq_some_iff.mp hi
    obtain rfl : p₀.hop i = hop := Option.some.inj ((getElem?_hop hlt).symm.trans hi)
    rw [Nat.zero_add]
    exact hkeyed i hlt
  have hcount : ((List.range maxHops).map fun idx => (junk idx).1).length = maxHops := by
    rw [List.length_map, List.length_range]
  have hjunk : ∀ f ∈ (List.range maxHops).map fun idx => (junk idx).1, f.length = frameSize := by
    intro f hf
    obtain ⟨idx, -, rfl⟩ := List.mem_map.mp hf
    exact (junk idx).2
  obtain ⟨hops, frames, hkeys, hlen, hflen, hsize, hgens⟩ :=
    generateKeys_spec hkeyed' (hn.trans hcount.ge) hjunk
  obtain ⟨p, rfl, hgenerate⟩ := generate_eq hkeys
  have hgen : ∀ k < p₀.hops.length, ∀ creator, Generated S (secrets k) (p₀.hop k)
      (p₀.info creator k).upstream (p.hop k) (frames.getD k []) := by
    intro k hk creator
    have hframe : k < frames.length := by
      rw [hflen, hcount]
      exact hk.trans_le hn
    have hgen := hgens k _ _ _ (getElem?_hop hk) (getElem?_hop (hlen ▸ hk))
      (List.getElem?_eq_getElem hframe)
    rw [Nat.zero_add, ← upstream_eq creator] at hgen
    rwa [List.getD_eq_getElem?_getD, List.getElem?_eq_getElem hframe]
  refine ⟨p, frames, hgenerate, ?_, hflen.trans hcount, hsize, hgen⟩
  have hsame : ∀ k, ∃ k', p.hop k = p.hop k' ∧ p₀.hop k = p₀.hop k' ∧ k' < p₀.hops.length := by
    intro k
    by_cases hk : k < p₀.hops.length
    · exact ⟨k, rfl, rfl, hk⟩
    · have hle : p₀.hops.length ≤ k := Nat.le_of_not_lt hk
      exact ⟨0, hop_of_le (hlen.trans_le hle), hop_of_le hle, length_pos⟩
  refine ⟨hlen, fun k => ?_, fun k => ?_, fun k => ?_⟩
  all_goals
    obtain ⟨k', hp, hp₀, hk'⟩ := hsame k
    rw [hp, hp₀]
  · exact (hgen k' hk' p₀.Upstream).txID
  · exact (hgen k' hk' p₀.Upstream).rxID
  · exact (hgen k' hk' p₀.Upstream).router

/-! ### The frames on the way -/

/-- The frames that come to a place: those that are not taken yet, and junk for the others. -/
def framesAt (random : ℕ → RelayRandom) (frames : List Bytes) (k : ℕ) : List Bytes :=
  frames.drop k ++ (List.range k).map fun i => (List.range frameSize).map (random i).junk

variable {random : ℕ → RelayRandom} {frames : List Bytes} {k : ℕ}

lemma framesAt_zero (random : ℕ → RelayRandom) (frames : List Bytes) :
    framesAt random frames 0 = frames := by
  rw [framesAt, List.range_zero, List.map_nil, List.append_nil, List.drop_zero]

lemma framesAt_length (hk : k ≤ frames.length) :
    (framesAt random frames k).length = frames.length := by
  rw [framesAt, List.length_append, List.length_drop, List.length_map, List.length_range]
  exact Nat.sub_add_cancel hk

lemma framesAt_size (h : ∀ f ∈ frames, f.length = frameSize) :
    ∀ f ∈ framesAt random frames k, f.length = frameSize := by
  intro f hf
  rcases List.mem_append.mp hf with hf | hf
  · exact h f (List.mem_of_mem_drop hf)
  · obtain ⟨i, -, rfl⟩ := List.mem_map.mp hf
    rw [List.length_map, List.length_range]

/-- A relay takes the frame in front, and puts junk behind the others. -/
lemma framesAt_eq (random : ℕ → RelayRandom) (hk : k < frames.length) : ∃ rest,
    framesAt random frames k = frames.getD k [] :: rest ∧
      rest ++ [(List.range frameSize).map (random k).junk] = framesAt random frames (k + 1) := by
  refine ⟨frames.drop (k + 1) ++
    (List.range k).map fun i => (List.range frameSize).map (random i).junk, ?_, ?_⟩
  · rw [framesAt, List.drop_eq_getElem_cons hk, List.getD_eq_getElem?_getD,
      List.getElem?_eq_getElem hk]
    rfl
  · rw [framesAt, List.range_succ, List.map_append, List.append_assoc]
    rfl

/-- The message that comes to a place. -/
def commitTo (p : Path) (creator : PubKey) (random : ℕ → RelayRandom) (frames : List Bytes)
    (k : ℕ) : CommitPacket where
  src := p.station creator k
  dst := (p.hop k).router.pubkey
  frames := framesAt random frames k

lemma SameHops.relayHop_eq (h : SameHops p₀ p) {secret : Blob 32} {frame : Bytes}
    (hgen : Generated S secret (p₀.hop k) (p₀.info creator k).upstream (p.hop k) frame)
    (random : RelayRandom) :
    (p.hop k).hopAt random (p.station creator k) = p.relayHop creator random k := by
  rw [PathHopConfig.hopAt, relayHop, hgen.upstream, ← h.info_eq]
  rfl

/-- The relay at a place gets its record. -/
lemma commitStep_spec (random : ℕ → RelayRandom) {net : ℕ → PubKey → PathContext}
    (hn : p₀.hops.length ≤ maxHops)
    (hsame : SameHops p₀ p) (hframes : frames.length = maxHops)
    (hsize : ∀ f ∈ frames, f.length = frameSize) (hk : k < p₀.hops.length)
    (hgen : Generated S (secrets k) (p₀.hop k) (p₀.info creator k).upstream (p.hop k)
      (frames.getD k []))
    (hadjacent : k + 1 < p₀.hops.length →
      (p₀.hop k).router.pubkey ≠ (p₀.hop (k + 1)).router.pubkey)
    (hwilling : p₀.Willing S (secrets k) k (net k (p₀.hop k).router.pubkey))
    (hnew : (net k (p₀.hop k).router.pubkey).hasTransitHop (p₀.info creator k) = false) :
    p.GotRecord S creator net random k
        (commitStep S net random k (p.commitTo creator random frames k)).1 ∧
      (commitStep S net random k (p.commitTo creator random frames k)).2 =
        if k + 1 < p₀.hops.length then some (p.commitTo creator random frames (k + 1))
        else none := by
  have hkmax : k < frames.length := hframes ▸ hk.trans_le hn
  have hrouter : (p.hop k).router = (p₀.hop k).router := hsame.router k
  obtain ⟨rest, hfront, hrest⟩ := framesAt_eq random hkmax
  have hlen : (frames.getD k [] :: rest).length = maxHops := by
    rw [← hfront, framesAt_length hkmax.le, hframes]
  have hinfo : p.info creator k = p₀.info creator k := hsame.info_eq k
  -- the relay is the farthest one exactly if its record names itself as the next
  have hus := upstream_eq_iff hadjacent hk creator
  rw [← hinfo, ← hrouter] at hus
  have hhandled : (net k (p.hop k).router.pubkey).handleCommit S (random k) (p.station creator k)
      (framesAt random frames k) =
      ((net k (p.hop k).router.pubkey).putTransitHop (p.relayHop creator (random k) k),
        if k + 1 = p₀.hops.length then
          .confirmed (p.hop k).record (p.relayHop creator (random k) k) (some
            ((p.relayHop creator (random k) k).val.handleDownstream S (confirmBytes (random k))
              (random k).nonce))
        else .forwarded (p.hop k).record (p.relayHop creator (random k) k)
          (p.info creator k).upstream (framesAt random frames (k + 1))) := by
    rw [hfront, hrouter, handleCommit_spec hgen hwilling.encryption hwilling.allowTransit hlen,
      hsame.relayHop_eq hgen, hrest, hwilling.ourRouterID, hgen.upstream, ← hinfo, ← hrouter]
    have hheld : (net k (p.hop k).router.pubkey).hasTransitHop
        (p.relayHop creator (random k) k).val.info = false := by
      rw [hrouter]
      exact (congrArg _ hinfo).trans hnew
    rw [hheld, if_neg Bool.false_ne_true]
    simp only [hus]
  have hgot : (framesAt random frames k).length = maxHops ∧
      ∀ f ∈ framesAt random frames k, f.length = frameSize :=
    ⟨(framesAt_length hkmax.le).trans hframes, framesAt_size hsize⟩
  rw [← hsame.length] at hus hhandled ⊢
  rw [commitStep, commitTo, hhandled]
  by_cases hnext : k + 1 < p.hops.length
  · have hup : (p.info creator k).upstream = (p.hop (k + 1)).router.pubkey := by
      rw [info, if_pos hnext]
      rfl
    rw [if_neg hnext.ne, if_pos hnext, hup]
    exact ⟨⟨rfl, hgot, rfl, hus, fun _ => ⟨_, rfl⟩, fun hlast => absurd hlast hnext.ne⟩, rfl⟩
  · have hlast : k + 1 = p.hops.length := by
      have hlt := hk.trans_eq hsame.length.symm
      omega
    rw [if_pos hlast, if_neg hnext]
    exact ⟨⟨rfl, hgot, rfl, hus, fun h => absurd h hnext, fun _ => rfl⟩, rfl⟩

end Creator

/-- What becomes of a path that is built: its message comes to `n` routers, one for each hop. -/
def Delivers (p₀ : Path) (S : Sodium) (creator : PubKey) (random : ℕ → HopRandom)
    (junk : ℕ → Blob frameSize) (net : ℕ → PubKey → PathContext) (relayRandom : ℕ → RelayRandom)
    (fuel : ℕ) : Prop :=
  ∃ p frames, p₀.generate S random junk = some (p, frames) ∧ SameHops p₀ p ∧
    let stations := commitJourney S net relayRandom fuel ⟨creator, p.Upstream, frames⟩
    stations.length = p.hops.length ∧
      (∀ k s, stations[k]? = some s → p.GotRecord S creator net relayRandom k s) ∧
      ∀ k, k + 1 < p.hops.length → (p.info creator k).txID = (p.info creator (k + 1)).rxID

/-- A path that can be built: adjacent routers are distinct, and every relay allows transit and
agrees with the creator on keys. -/
structure Buildable (p : Path) (S : Sodium) (secrets : ℕ → Blob 32) (random : ℕ → HopRandom)
    (net : ℕ → PubKey → PathContext) : Prop where
  length : p.hops.length ≤ maxHops
  adjacent : ∀ k, k + 1 < p.hops.length →
    (p.hop k).router.pubkey ≠ (p.hop (k + 1)).router.pubkey
  keyed : ∀ k < p.hops.length, Keyed S (random k) (secrets k) (p.hop k)
  willing : ∀ k < p.hops.length, p.Willing S (secrets k) k (net k (p.hop k).router.pubkey)

/-- Every relay of a path gets its own record and takes its hop, unless it has this hop already, in
which case it drops the message. -/
theorem records_delivered (S : Sodium) (p : Path) (creator : PubKey) (secrets : ℕ → Blob 32)
    (random : ℕ → HopRandom) (junk : ℕ → Blob frameSize) (net : ℕ → PubKey → PathContext)
    (relayRandom : ℕ → RelayRandom) (fuel : ℕ) (hfuel : p.hops.length ≤ fuel)
    (h : p.Buildable S secrets random net)
    (hnew : ∀ k < p.hops.length,
      (net k (p.hop k).router.pubkey).hasTransitHop (p.info creator k) = false) :
    p.Delivers S creator random junk net relayRandom fuel := by
  obtain ⟨p', frames, hgenerate, hsame, hframes, hsize, hgen⟩ := generate_spec junk h.length h.keyed
  have hstep := fun k (hk : k < p.hops.length) =>
    commitStep_spec relayRandom h.length hsame hframes hsize hk (hgen k hk creator)
      (h.adjacent k) (h.willing k hk) (hnew k hk)
  have hfirst : p'.commitTo creator relayRandom frames 0 = ⟨creator, p'.Upstream, frames⟩ := by
    rw [commitTo, hop_zero, framesAt_zero]
    rfl
  have htrail : commitJourney S net relayRandom fuel ⟨creator, p'.Upstream, frames⟩ =
      (List.range' 0 p.hops.length).map fun k =>
        (commitStep S net relayRandom k (p'.commitTo creator relayRandom frames k)).1 := by
    rw [← hfirst, commitJourney]
    exact trail_eq (fun k hk => Prod.ext rfl (hstep k hk).2) length_pos (by rwa [Nat.zero_add])
  refine ⟨p', frames, hgenerate, hsame, ?_⟩
  rw [htrail]
  refine ⟨?_, fun k s hs => ?_, fun k hk => txID_eq hk⟩
  · rw [List.length_map, List.length_range', hsame.length]
  · rw [List.getElem?_map] at hs
    obtain ⟨k', hk', rfl⟩ := Option.map_eq_some_iff.mp hs
    obtain ⟨hlt, rfl⟩ := List.getElem?_eq_some_iff.mp hk'
    rw [List.length_range'] at hlt
    rw [List.getElem_range', Nat.zero_add, Nat.one_mul]
    exact (hstep k hlt).1

/-- A first relay that has its hop already drops the message. -/
lemma not_delivers {S : Sodium} {p : Path} {creator : PubKey} {secrets : ℕ → Blob 32}
    {random : ℕ → HopRandom} {net : ℕ → PubKey → PathContext}
    (h : p.Buildable S secrets random net)
    (hheld : (net 0 (p.hop 0).router.pubkey).hasTransitHop (p.info creator 0) = true)
    (hlong : 1 < p.hops.length) (junk : ℕ → Blob frameSize) (relayRandom : ℕ → RelayRandom)
    (fuel : ℕ) : ¬ p.Delivers S creator random junk net relayRandom fuel := by
  rintro ⟨p', frames, hgenerate, hsame, hcount, -, -⟩
  obtain ⟨p₁, frames₁, hgenerate₁, -, hframes, -, hgen⟩ := generate_spec junk h.length h.keyed
  obtain ⟨rfl, rfl⟩ := Prod.mk.inj (Option.some.inj (hgenerate₁.symm.trans hgenerate))
  have hfirst := hgen 0 length_pos creator
  have hrouter : p₁.Upstream = (p.hop 0).router.pubkey := by
    rw [← hsame.router, hop_zero]
    rfl
  -- the guard `HasTransitHop` finds the hop
  have hrefused : ((net 0 p₁.Upstream).handleCommit S (relayRandom 0) creator frames₁).2 =
      .refused := by
    have hpos : 0 < frames₁.length := by
      rw [hframes]
      exact Nat.succ_pos 7
    obtain ⟨rest, hfront, -⟩ := framesAt_eq relayRandom hpos
    rw [framesAt_zero] at hfront
    have hlen : (frames₁.getD 0 [] :: rest).length = maxHops := hfront ▸ hframes
    have hhas : (net 0 (p.hop 0).router.pubkey).hasTransitHop
        (((p₁.hop 0).hopAt (relayRandom 0) creator).val.info) = true := by
      rw [show (p₁.hop 0).hopAt (relayRandom 0) creator = p₁.relayHop creator (relayRandom 0) 0 from
        hsame.relayHop_eq hfirst _]
      exact (congrArg _ (hsame.info_eq 0)).trans hheld
    rw [hfront, hrouter, handleCommit_spec hfirst (h.willing 0 length_pos).encryption
      (h.willing 0 length_pos).allowTransit hlen, if_pos hhas]
  have hstop : (commitStep S net relayRandom 0 ⟨creator, p₁.Upstream, frames₁⟩).2 = none := by
    rw [commitStep, hrefused]
  have hone :
      (commitJourney S net relayRandom fuel ⟨creator, p₁.Upstream, frames₁⟩).length ≤ 1 := by
    cases fuel with
    | zero => exact Nat.zero_le 1
    | succ fuel =>
      rw [commitJourney, trail, hstop]
      exact le_refl 1
  rw [hcount, hsame.length] at hone
  exact absurd hlong (Nat.not_lt.mpr hone)

/-! ### Two relays -/

section Two

/-- A relay whose secret is that of Bob. -/
def bobRouter (b : UInt8) : RouterContact := { someRouter b with enckey := Handshake.bobPub }

/-- A path of the router 9 over two of them. -/
def overBobs : Path :=
  .new [bobRouter 3, bobRouter 5] (List.cons_ne_nil _ _) fun idx =>
    (List.Vector.replicate 16 (UInt8.ofNat (10 + idx)),
      List.Vector.replicate 16 (UInt8.ofNat (20 + idx)))

/-- The keys that Alice makes for a hop. -/
def aliceHop : HopRandom := ⟨Handshake.aliceSeed, zeroBlob 32, Handshake.aliceSeed, zeroBlob 32⟩

/-- A relay that holds nothing. -/
def bobContext (r : PubKey) : PathContext where
  ourRouterID := r
  encryption := Handshake.twoKeys.enckeygen Handshake.bobSeed
  allowTransit := true

/-- A relay whose memory is all zero. -/
def zeroRelay : RelayRandom where
  address := 0
  record := ⟨zeroBlob 32, zeroBlob 32, zeroBlob 32, zeroBlob 16, zeroBlob 16, false⟩
  after _ := 0
  junk _ := 0
  started := 0
  created := 0
  nonce := zeroBlob 32
  tmp _ := 0

lemma overBobs_lt {k : ℕ} (hk : k < overBobs.hops.length) : k = 0 ∨ k = 1 := by
  have htwo : overBobs.hops.length = 2 := by decide
  omega

lemma overBobs_buildable (net : ℕ → PubKey → PathContext)
    (h : ∀ k r, (net k r).ourRouterID = r ∧
      (net k r).encryption = Handshake.twoKeys.enckeygen Handshake.bobSeed ∧
      (net k r).allowTransit = true) :
    overBobs.Buildable Handshake.twoKeys (fun _ => Handshake.bobSeed) (fun _ => aliceHop) net where
  length := by decide
  adjacent k hk := by
    have htwo : overBobs.hops.length = 2 := by decide
    obtain rfl : k = 0 := by omega
    decide +kernel
  keyed k hk := by
    have henckey : (overBobs.hop k).router.enckey = Handshake.bobPub := by
      obtain rfl | rfl := overBobs_lt hk <;> rfl
    exact ⟨henckey.trans (by decide), Handshake.twoKeys_agree, Handshake.twoKeys_agree⟩
  willing k hk := ⟨(h k _).1, (h k _).2.1, (h k _).2.2⟩

theorem records_delivered_two :
    overBobs.Delivers Handshake.twoKeys (someRouter 9).pubkey (fun _ => aliceHop)
      (fun _ => zeroBlob frameSize) (fun _ => bobContext) (fun _ => zeroRelay) 2 :=
  records_delivered _ overBobs _ (fun _ => Handshake.bobSeed) _ _ _ _ 2 (by decide)
    (overBobs_buildable _ fun _ _ => ⟨rfl, rfl, rfl⟩) fun _ _ => rfl

/-- Relays that have the hop of the first one already. -/
def bobHolding (r : PubKey) : PathContext :=
  (bobContext r).putTransitHop
    ⟨0, overBobs.info (someRouter 9).pubkey 0, zeroBlob 32, 0, 600000⟩

theorem record_dropped :
    overBobs.Buildable Handshake.twoKeys (fun _ => Handshake.bobSeed) (fun _ => aliceHop)
        (fun _ => bobHolding) ∧
      ¬ overBobs.Delivers Handshake.twoKeys (someRouter 9).pubkey (fun _ => aliceHop)
        (fun _ => zeroBlob frameSize) (fun _ => bobHolding) (fun _ => zeroRelay) 2 := by
  have hbuildable := overBobs_buildable (fun _ => bobHolding) fun _ _ => ⟨rfl, rfl, rfl⟩
  exact ⟨hbuildable, not_delivers hbuildable (by decide +kernel) (by decide) _ _ _⟩

end Two

end Path

end Udap
