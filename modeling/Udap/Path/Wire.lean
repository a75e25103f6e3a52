import Udap.LinkCodec
import Udap.Path.Network

/-!
The messages of a path as bytes on a link.

`SendTo` encodes a message into a buffer of the router, and the parser of the next router decodes
it from the bytes that its session received. So the routers never see the message itself, but what
the parser makes of its bytes, with the sender that the session knows.

* `router_processFrom`: the parser changes the router as the handlers of its messages do.
* `node_processFrom`: a message that was sent is handled as if it had been handed over.
* `Sendable.handle`: what a router makes of a message that has room in the buffer has room, too.
* `wire_refines`: so every run over the bytes is a run over the messages.
-/

namespace Udap

open ByteMem Iwp

/-! ### The parser and the router -/

namespace InboundMessageParser

variable {ρ : Type} {lib : HostLib} {u : Uninit} {handle : Handler ρ} {p : InboundMessageParser ρ}

/-- The router after messages were handled. -/
def routerAfter (handle : Handler ρ) (router : ρ) (msgs : List LinkMsg) : ρ :=
  msgs.foldl (fun router msg => (handleMessage handle router msg).1) router

/-- The router has handled the messages that were dispatched since. -/
def Answered (handle : Handler ρ) (router : ρ) (D : List LinkMsg) (p : InboundMessageParser ρ) :
    Prop :=
  ∃ new, p.dispatched = D ++ new ∧ p.router = routerAfter handle router new

lemma Answered.messageDone {router : ρ} {D : List LinkMsg} (h : Answered handle router D p) :
    Answered handle router D (p.messageDone handle).1 := by
  obtain ⟨new, hD, hrouter⟩ := h
  rw [InboundMessageParser.messageDone]
  cases hm : p.msg with
  | none => exact ⟨new, hD, hrouter⟩
  | some msg =>
      refine ⟨new ++ [msg], ?_, ?_⟩
      · simp [hD]
      · simp [routerAfter, hrouter]

lemma Answered.onKey {router : ρ} {D : List LinkMsg} (key : Option Bytes) (b : Buffer)
    (h : Answered handle router D p) :
    Answered handle router D (onKey lib u handle key p b).1 := by
  cases key with
  | none =>
      simp only [InboundMessageParser.onKey]
      split
      · exact h
      · exact h.messageDone
  | some key =>
      simp only [InboundMessageParser.onKey]
      split_ifs with hf ha
      · refine Reader.string_rule (fun type p' heq => ?_) h
        obtain ⟨msg, -, rfl⟩ := Option.map_eq_some_iff.mp heq
        exact h
      · exact h
      · split
        · exact h
        · exact decodeKey_rule key _ h (fun _ _ => h) fun _ _ _ _ => h

/-- The parser changes the router as the handlers of its messages do. -/
lemma router_processFrom (after : ℕ → UInt8) (bytes : Bytes) {new : List LinkMsg}
    (h : (processFrom lib u handle after bytes p).1.dispatched = p.dispatched ++ new) :
    (processFrom lib u handle after bytes p).1.router = routerAfter handle p.router new := by
  have hrun : Answered handle p.router p.dispatched (processFrom lib u handle after bytes p).1 :=
    readDict_rule (fun key _ b => Answered.onKey key b) ⟨[], (List.append_nil _).symm, rfl⟩
  obtain ⟨new', hD, hrouter⟩ := hrun
  rw [h] at hD
  rw [hrouter, List.append_cancel_left hD]

end InboundMessageParser

/-! ### Messages as bytes -/

namespace Flight

/-- The router that a message comes from. -/
def src : Flight → PubKey
  | .commit packet => packet.src
  | .relayed packet => packet.src

/-- The router that a message goes to. -/
def dst : Flight → PubKey
  | .commit packet => packet.dst
  | .relayed packet => packet.dst

/-- `BEncode`. -/
def bencode : Flight → Writer
  | .commit packet => lrCommitBencode packet.frames
  | .relayed ⟨_, _, .upstream m⟩ => relayUpstreamBencode m
  | .relayed ⟨_, _, .downstream m⟩ => relayDownstreamBencode m

/-- `BEncode` in full. -/
def encoding : Flight → Bytes
  | .commit packet => [ascii 'd'] ++ (entryBytes 'a' (strBytes [ascii 'c']) ++
      (entryBytes 'c' (listBytes (packet.frames.map strBytes)) ++ (versionBytes ++ [ascii 'e'])))
  | .relayed ⟨_, _, .upstream m⟩ => m.encoding 'u'
  | .relayed ⟨_, _, .downstream m⟩ => m.encoding 'd'

/-- The parts of a message that have a length of their own. -/
def parts : Flight → List Bytes
  | .commit packet => packet.frames
  | .relayed ⟨_, _, .upstream m⟩ => [m.X]
  | .relayed ⟨_, _, .downstream m⟩ => [m.X]

/-- What the handlers of the next router see of a message from `remote`. -/
def received (remote : PubKey) : Flight → LinkMsg
  | .commit packet => .lrCommit remote packet.frames
  | .relayed ⟨_, _, .upstream m⟩ => .relayUpstream { m with remote := remote }
  | .relayed ⟨_, _, .downstream m⟩ => .relayDownstream { m with remote := remote }

/-- The parser takes the parts for parts, and `SendTo` has room for the message. -/
structure Sendable (f : Flight) : Prop where
  ne_nil : ∀ part ∈ f.parts, part ≠ []
  room : f.encoding.length ≤ maxLinkMsgSize

variable {f : Flight}

lemma sure_bencode (f : Flight) : Sure f.bencode f.encoding := by
  match f with
  | .commit packet => exact sure_lrCommitBencode packet.frames
  | .relayed ⟨_, _, .upstream m⟩ => exact m.sure_bencode 'u'
  | .relayed ⟨_, _, .downstream m⟩ => exact m.sure_bencode 'd'

end Flight

/-- Bytes between two routers. -/
structure WirePacket where
  src : PubKey
  dst : PubKey
  bytes : Bytes

/-- `SendTo`; `tmp` is what `linkmsg_buffer` had before. -/
def Flight.sendTo (tmp : ℕ → UInt8) (f : Flight) : Option WirePacket :=
  match f.bencode (RouterContact.stackBuffer tmp maxLinkMsgSize) with
  | (buf, true) => some ⟨f.src, f.dst, buf.written⟩
  | (_, false) => none

/-- A message on the wire. -/
def Flight.wire (f : Flight) : WirePacket := ⟨f.src, f.dst, f.encoding⟩

/-- A message is sent if it has room. -/
lemma Flight.sendTo_eq (f : Flight) (tmp : ℕ → UInt8) :
    f.sendTo tmp = if f.encoding.length ≤ maxLinkMsgSize then some f.wire else none := by
  have hinside : (RouterContact.stackBuffer tmp maxLinkMsgSize).Inside := Nat.zero_le _
  have hfits : (f.bencode (RouterContact.stackBuffer tmp maxLinkMsgSize)).2 = true ↔
      f.encoding.length ≤ maxLinkMsgSize := f.sure_bencode.fits_iff _ hinside
  have hwrote := f.sure_bencode.wrote _ hinside
  rw [Flight.sendTo]
  split
  · rename_i buf heq
    rw [heq] at hfits hwrote
    rw [if_pos (hfits.mp rfl), (hwrote rfl).written]
    rfl
  · rename_i heq
    rw [heq] at hfits
    rw [if_neg fun hroom => Bool.false_ne_true (hfits.mpr hroom)]

lemma Flight.Sendable.sendTo {f : Flight} (h : f.Sendable) (tmp : ℕ → UInt8) :
    f.sendTo tmp = some f.wire := (f.sendTo_eq tmp).trans (if_pos h.room)

/-! ### One router -/

/-- The tables of a router, the tests of its paths, and the message that it sends. -/
structure PathNode where
  context : PathContext
  tests : ℕ → PathTest
  out : Option Flight := none

namespace PathNode

variable (S : Sodium) (e : Surroundings) (node : PathNode)

/-- `HandleMessage` of a relayed message, with the parsers behind it. -/
def relay (msg : Relayed) : PathNode :=
  let r := node.context.ourRouterID
  match node.context.handleMessage S msg with
  | .sent dst msg => { node with out := some (.relayed ⟨r, dst, msg⟩) }
  | .parsed (.transit hop) buf =>
      { node with out :=
          ((hop.val.parseMessageBuffer S e buf).bind (Handled.packet r)).map .relayed }
  | .parsed (.path path) buf =>
      let test := node.tests path.address
      { node with
        tests := Function.update node.tests path.address (test.step (e.arrival buf))
        out := ((path.val.reply S e test buf).bind (Handled.packet r)).map .relayed }
  | .unknown => { node with out := none }

/-- `LR_CommitMessage::HandleMessage`. -/
def commit (remote : PubKey) (frames : List Bytes) : PathNode :=
  let (c, outcome) := node.context.handleCommit S e.relay remote frames
  { node with context := c, out := outcome.flight node.context.ourRouterID }

/-- `HandleMessage`, with its verdict; what it does with messages that are not for paths is a
parameter. -/
def handler (verdict : PathNode → LinkMsg → Bool)
    (other : InboundMessageParser.Handler PathNode) : InboundMessageParser.Handler PathNode
  | node, .relayUpstream m =>
      (node.relay S e (.upstream m), verdict node (.relayUpstream m), [])
  | node, .relayDownstream m =>
      (node.relay S e (.downstream m), verdict node (.relayDownstream m), [])
  | node, .lrCommit remote frames =>
      (node.commit S e remote frames, verdict node (.lrCommit remote frames), [])
  | node, msg => other node msg

/-- What a router does with a message that is handed over to it. -/
def receive (remote : PubKey) : Flight → PathNode
  | .commit packet => node.commit S e remote packet.frames
  | .relayed packet => node.relay S e (packet.msg.receivedFrom remote)

end PathNode

section Parsing

variable {lib : HostLib} {u : Uninit} {S : Sodium} {e : Surroundings} {f : Flight}
  {verdict : PathNode → LinkMsg → Bool} {other : InboundMessageParser.Handler PathNode} {ρ : Type}
  {handle : InboundMessageParser.Handler ρ}

lemma length_le_flatten {l : List Bytes} {x : Bytes} (h : x ∈ l) : x.length ≤ l.flatten.length :=
  (List.sublist_flatten_of_mem h).length_le

/-- What is in a message is written into it. -/
lemma Flight.strBytes_length_le {part : Bytes} (hpart : part ∈ f.parts) :
    (strBytes part).length ≤ f.encoding.length := by
  match f, hpart with
  | .commit packet, hpart =>
      have hflat : (strBytes part).length ≤ (packet.frames.map strBytes).flatten.length :=
        length_le_flatten (List.mem_map_of_mem hpart)
      simp only [encoding, entryBytes, listBytes, List.length_append]
      omega
  | .relayed ⟨_, _, .upstream m⟩, hpart =>
      obtain rfl := List.mem_singleton.mp hpart
      simp only [encoding, RelayMessage.encoding, entryBytes, List.length_append]
      omega
  | .relayed ⟨_, _, .downstream m⟩, hpart =>
      obtain rfl := List.mem_singleton.mp hpart
      simp only [encoding, RelayMessage.encoding, entryBytes, List.length_append]
      omega

/-- A part is shorter than the message. -/
lemma Flight.Sendable.part_length (h : f.Sendable) {part : Bytes} (hpart : part ∈ f.parts) :
    part.length < 10 ^ 9 := by
  have hstr : part.length ≤ (strBytes part).length := by
    rw [strBytes, List.length_append]
    exact Nat.le_add_left ..
  have hle := strBytes_length_le hpart
  have hroom := h.room
  rw [maxLinkMsgSize] at hroom
  omega

/-- The parser hands the message to the handlers of the router. -/
lemma Flight.Sendable.ends_parse (h : f.Sendable) (p : InboundMessageParser ρ) :
    Ends (InboundMessageParser.parse lib u handle) p f.encoding
      (InboundMessageParser.Dispatches handle p (· = f.received p.remoteRouter.pubkey)) := by
  match f, h with
  | .commit packet, h =>
      exact InboundMessageParser.ends_lrCommit fun frame hframe =>
        ⟨h.ne_nil frame hframe, h.part_length hframe⟩
  | .relayed ⟨_, _, .upstream m⟩, h =>
      exact InboundMessageParser.ends_relay 'u' (fun _ _ => rfl) rfl m
        (h.ne_nil _ (List.mem_singleton_self _)) (h.part_length (List.mem_singleton_self _))
  | .relayed ⟨_, _, .downstream m⟩, h =>
      exact InboundMessageParser.ends_relay 'd' (fun _ _ => rfl) rfl m
        (h.ne_nil _ (List.mem_singleton_self _)) (h.part_length (List.mem_singleton_self _))

/-- A message that was sent is handled once. -/
lemma Flight.Sendable.router_processFrom (h : f.Sendable) (after : ℕ → UInt8)
    (p : InboundMessageParser ρ) :
    (InboundMessageParser.processFrom lib u handle after f.encoding p).1.router =
      InboundMessageParser.routerAfter handle p.router [f.received p.remoteRouter.pubkey] := by
  have hends : Ends (InboundMessageParser.parse lib u handle) p f.encoding _ := h.ends_parse p
  obtain ⟨p', ok, hparse, msg, rfl, hD, -⟩ := hends _ (Buffer.holds_ofBytes f.encoding after)
  have hfrom : (InboundMessageParser.processFrom lib u handle after f.encoding p).1 = p' := by
    rw [InboundMessageParser.processFrom_eq, hparse]
  rw [← hfrom] at hD
  exact InboundMessageParser.router_processFrom after f.encoding hD

lemma handle_received (node : PathNode) (remote : PubKey) (f : Flight) :
    InboundMessageParser.routerAfter (PathNode.handler S e verdict other) node
      [f.received remote] = node.receive S e remote f := by
  match f with
  | .commit packet => rfl
  | .relayed ⟨_, _, .upstream m⟩ => rfl
  | .relayed ⟨_, _, .downstream m⟩ => rfl

/-- A message that was sent is handled as if it had been handed over. -/
lemma node_processFrom (h : f.Sendable) (after : ℕ → UInt8) (p : InboundMessageParser PathNode) :
    (InboundMessageParser.processFrom lib u (PathNode.handler S e verdict other) after f.encoding
      p).1.router = p.router.receive S e p.remoteRouter.pubkey f := by
  rw [h.router_processFrom, handle_received]

end Parsing

/-! ### What a router sends has room -/

section Room

variable {S : Sodium} {e : Surroundings} {r dst : PubKey} {msg : Relayed} {m m' : RelayMessage}

/-- The payload of a relayed message. -/
def Relayed.X : Relayed → Bytes
  | .upstream m => m.X
  | .downstream m => m.X

lemma RelayMessage.encoding_length (type : Char) (m : RelayMessage) :
    (m.encoding type).length = m.X.length + (decimal m.X.length).length + 78 := by
  have hp : (strBytes m.pathid.1).length = 19 := by
    rw [strBytes, m.pathid.2]
    simp [m.pathid.2, show (decimal 16).length = 2 from by decide]
  have hy : (strBytes m.Y.1).length = 35 := by
    rw [strBytes, m.Y.2]
    simp [m.Y.2, show (decimal 32).length = 2 from by decide]
  have ha : (strBytes [ascii type]).length = 3 := by
    simp [strBytes, show (decimal 1).length = 1 from by decide]
  have hv : versionBytes.length = 6 := by decide
  have hx : (strBytes m.X).length = m.X.length + (decimal m.X.length).length + 1 := by
    simp [strBytes]
    omega
  simp only [encoding, entryBytes, List.length_append, keyBytes_length, List.length_singleton,
    ha, hp, hy, hv, hx]
  omega

/-- Whether a relayed message has room depends on the length of the payload. -/
lemma sendable_relayed_iff : (Flight.relayed ⟨r, dst, msg⟩).Sendable ↔
    msg.X ≠ [] ∧ msg.X.length + (decimal msg.X.length).length + 78 ≤ maxLinkMsgSize := by
  match msg with
  | .upstream m =>
      refine ⟨fun h => ⟨h.ne_nil _ (List.mem_singleton_self _), ?_⟩, fun h => ⟨?_, ?_⟩⟩
      · exact (m.encoding_length 'u').symm.trans_le h.room
      · exact fun part hpart => List.mem_singleton.mp hpart ▸ h.1
      · exact (m.encoding_length 'u').trans_le h.2
  | .downstream m =>
      refine ⟨fun h => ⟨h.ne_nil _ (List.mem_singleton_self _), ?_⟩, fun h => ⟨?_, ?_⟩⟩
      · exact (m.encoding_length 'd').symm.trans_le h.room
      · exact fun part hpart => List.mem_singleton.mp hpart ▸ h.1
      · exact (m.encoding_length 'd').trans_le h.2

/-- A payload as long as one that had room. -/
lemma sendable_of_length {r' dst' : PubKey} {msg' : Relayed}
    (h : (Flight.relayed ⟨r, dst, msg⟩).Sendable) (hlen : msg'.X.length = msg.X.length) :
    (Flight.relayed ⟨r', dst', msg'⟩).Sendable := by
  obtain ⟨hne, hroom⟩ := sendable_relayed_iff.mp h
  refine sendable_relayed_iff.mpr ⟨fun hnil => hne ?_, by rwa [hlen]⟩
  rw [← List.length_eq_zero_iff, ← hlen, hnil, List.length_nil]

/-- A payload of a routing message. -/
lemma sendable_of_le (hne : msg.X ≠ []) (hlen : msg.X.length ≤ 16384) :
    (Flight.relayed ⟨r, dst, msg⟩).Sendable := by
  refine sendable_relayed_iff.mpr ⟨hne, ?_⟩
  have hdigits : (decimal msg.X.length).length ≤ 9 := decimal_length_le (by norm_num) (by omega)
  rw [maxLinkMsgSize]
  omega

lemma xorHops_length (hops : List PathHopConfig) (Y : Blob 32) (buf : Bytes) :
    (xorHops S hops Y buf).length = buf.length := by
  induction hops generalizing buf with
  | nil => rfl
  | cons hop hops ih =>
      calc (xorHops S hops Y (S.xchacha20 buf hop.shared Y.1)).length
          = (S.xchacha20 buf hop.shared Y.1).length := ih _
        _ = buf.length := S.xchacha20_length ..

/-- What comes of a payload that is handled is as long. -/
lemma handleMessage_sent {c : PathContext} {msg' : Relayed}
    (h : c.handleMessage S msg = .sent dst msg') : msg'.X.length = msg.X.length := by
  match msg with
  | .upstream m =>
      rw [PathContext.handleMessage] at h
      split at h
      · rw [TransitHop.handleUpstream] at h
        split_ifs at h
        obtain ⟨-, rfl⟩ := Handled.sent.inj h
        exact S.xchacha20_length ..
      · obtain ⟨-, rfl⟩ := Handled.sent.inj h
        exact xorHops_length ..
      · cases h
  | .downstream m =>
      rw [PathContext.handleMessage] at h
      split at h
      · obtain ⟨-, rfl⟩ := Handled.sent.inj h
        exact S.xchacha20_length ..
      · cases h
      · cases h

/-- What a relay or a creator sends of a payload of its own. -/
lemma sendable_own {w : Writer} {s : Bytes} (hw : Sure w s) (hlen : s.length ≤ 16384)
    {tmp : ℕ → UInt8} {send : Bytes → Handled} {f : Flight}
    (hsend : ∀ buf, ∃ dst msg, send buf = .sent dst msg ∧ msg.X.length = buf.length)
    (h : (((encodeRouting w tmp).map send).bind (Handled.packet r)).map Flight.relayed = some f) :
    f.Sendable := by
  obtain ⟨dst, msg, hsent, hX⟩ := hsend s
  rw [encodeRouting_eq hw hlen, Option.map_some, hsent, Option.bind_some, Handled.packet,
    Option.map_some] at h
  obtain rfl := Option.some.inj h
  refine sendable_of_le (fun hnil => hw.ne_nil ?_) (hX.trans_le hlen)
  rw [← List.length_eq_zero_iff, ← hX, hnil, List.length_nil]

lemma handleDownstream_sent (hop : TransitHop) (N : Blob 32) (buf : Bytes) :
    ∃ dst msg, hop.handleDownstream S buf N = .sent dst msg ∧ msg.X.length = buf.length :=
  ⟨_, _, rfl, S.xchacha20_length ..⟩

lemma handleUpstream_sent (p : Path) (N : Blob 32) (buf : Bytes) :
    ∃ dst msg, p.handleUpstream S buf N = .sent dst msg ∧ msg.X.length = buf.length :=
  ⟨_, _, rfl, xorHops_length ..⟩

lemma sendable_relay {node : PathNode} {f : Flight}
    (h : (Flight.relayed ⟨r, dst, msg⟩).Sendable) {remote : PubKey}
    (hout : (node.relay S e (msg.receivedFrom remote)).out = some f) : f.Sendable := by
  have hX : (msg.receivedFrom remote).X = msg.X := by cases msg <;> rfl
  have hlatency (m : Routing.PathLatencyMessage) : m.encoding.length ≤ 16384 :=
    m.encoding_length_le.trans (by norm_num)
  rw [PathNode.relay] at hout
  dsimp only at hout
  split at hout
  · next dst' msg' hsent =>
      obtain rfl := Option.some.inj hout
      exact sendable_of_length h ((handleMessage_sent hsent).trans (congrArg _ hX))
  · next hop buf hparsed =>
      dsimp only at hout
      rw [TransitHop.parseMessageBuffer] at hout
      split at hout
      · exact sendable_own (TransitHop.latencyReply _).sure_bencode (hlatency _)
          (handleDownstream_sent hop.val _) hout
      · cases hout
      · cases hout
  · next path buf hparsed =>
      dsimp only at hout
      rw [Path.reply] at hout
      split at hout
      · split_ifs at hout
        · exact sendable_own (Routing.PathLatencyMessage.sure_bencode _) (hlatency _)
            (handleUpstream_sent path.val _) hout
        · cases hout
      · cases hout
      · cases hout
  · cases hout

/-- The frames that a relay sends on: the others, and junk as long as the first one. -/
lemma handleCommit_forwarded {c : PathContext} {random : RelayRandom} {remote : PubKey}
    {frames frames' : List Bytes} {record : LRCommitRecord} {hop : Ptr TransitHop}
    (h : (c.handleCommit S random remote frames).2 = .forwarded record hop dst frames') :
    ∃ front rest junk, frames = front :: rest ∧ frames' = rest ++ [junk] ∧
      junk.length = front.length := by
  unfold PathContext.handleCommit at h
  split_ifs at h
  match frames with
  | [] => cases h
  | front :: rest =>
      have hlen := EncryptedFrame.decryptInPlace_length S c.encryption front
      dsimp only at h
      generalize EncryptedFrame.decryptInPlace S c.encryption front = decrypted at h hlen
      obtain ⟨front', ok⟩ := decrypted
      cases ok with
      | false => cases h
      | true =>
          dsimp only at h hlen
          rw [PathContext.handleDecrypted] at h
          split at h
          · cases h
          dsimp only at h
          split_ifs at h
          · split at h <;> cases h
          · split at h
            · cases h
            · obtain ⟨-, -, -, rfl⟩ := Commit.forwarded.inj h
              exact ⟨front, rest, _, rfl, rfl, by simp [hlen]⟩

/-- The confirmation that the last relay sends. -/
lemma handleCommit_confirmed {c : PathContext} {random : RelayRandom} {remote : PubKey}
    {frames : List Bytes} {record : LRCommitRecord} {hop : Ptr TransitHop}
    {confirm : Option Handled}
    (h : (c.handleCommit S random remote frames).2 = .confirmed record hop confirm) :
    confirm = PathContext.sendPathConfirm S random hop.val := by
  unfold PathContext.handleCommit at h
  split_ifs at h
  split at h
  · cases h
  split at h
  · cases h
  rw [PathContext.handleDecrypted] at h
  split at h
  · cases h
  dsimp only at h
  split_ifs at h
  · split at h
    · cases h
    · obtain ⟨-, rfl, rfl⟩ := Commit.confirmed.inj h
      rfl
  · split at h <;> cases h

lemma strBytes_length_congr {x y : Bytes} (h : x.length = y.length) :
    (strBytes x).length = (strBytes y).length := by
  simp only [strBytes, List.length_append, h]

lemma sendable_commit {node : PathNode} {packet : CommitPacket} {f : Flight}
    (h : (Flight.commit packet).Sendable) {remote : PubKey}
    (hout : (node.commit S e remote packet.frames).out = some f) : f.Sendable := by
  have hout' : (node.context.handleCommit S e.relay remote packet.frames).2.flight
      node.context.ourRouterID = some f := hout
  generalize houtcome : (node.context.handleCommit S e.relay remote packet.frames).2 = outcome
    at hout'
  cases outcome with
  | refused => cases hout'
  | confirmed record hop confirm =>
      obtain rfl := handleCommit_confirmed houtcome
      exact sendable_own (Routing.PathConfirmMessage.sure_bencode _)
        ((Routing.PathConfirmMessage.encoding_length_le _).trans (by norm_num))
        (handleDownstream_sent hop.val _) hout'
  | forwarded record hop dst frames =>
      obtain rfl := Option.some.inj hout'
      obtain ⟨front, rest, junk, hframes, rfl, hjunk⟩ := handleCommit_forwarded houtcome
      have hfront : front ≠ [] := h.ne_nil front (by simp [Flight.parts, hframes])
      constructor
      · intro part hpart
        rcases List.mem_append.mp hpart with hrest | hlast
        · exact h.ne_nil part (by simp [Flight.parts, hframes, hrest])
        · obtain rfl := List.mem_singleton.mp hlast
          exact fun hnil => hfront (List.eq_nil_of_length_eq_zero (by rw [← hjunk, hnil]; rfl))
      · have hroom := h.room
        have hstr := strBytes_length_congr hjunk
        simp only [Flight.encoding, hframes, listBytes, entryBytes, List.map_cons, List.map_append,
          List.map_nil, List.flatten_cons, List.flatten_append, List.flatten_nil,
          List.length_append, List.length_nil, hstr] at hroom ⊢
        omega

/-- What a router sends of a message that had room has room. -/
lemma sendable_receive {node : PathNode} {f f' : Flight} (h : f.Sendable) {remote : PubKey}
    (hout : (node.receive S e remote f).out = some f') : f'.Sendable := by
  match f with
  | .commit packet => exact sendable_commit h hout
  | .relayed packet => exact sendable_relay h hout

end Room

/-! ### The network over the wire -/

/-- The network, with bytes under way. -/
structure WireNetwork where
  routers : PubKey → PathContext
  tests : PubKey → ℕ → PathTest
  flight : Option WirePacket

/-- What the parsers of the links work with. -/
structure Links where
  lib : HostLib
  /-- memory that the parsers do not initialise -/
  u : Uninit
  /-- the contact that a session of the first router has of the second one -/
  session : PubKey → PubKey → RouterContact
  /-- a session knows its peer -/
  pubkey_session : ∀ r remote, (session r remote).pubkey = remote

/-- The links, and what the routers do apart from paths. -/
structure WireParams extends Links where
  verdict : PathNode → LinkMsg → Bool
  other : InboundMessageParser.Handler PathNode

/-- A network with its message as bytes. -/
def PathNetwork.wire (w : PathNetwork) : WireNetwork :=
  ⟨w.routers, w.tests, w.flight.map Flight.wire⟩

namespace WireNetwork

variable (P : WireParams) (S : Sodium) (w : WireNetwork)

/-- `ProcessFrom` of the router that bytes come to. -/
def deliver (e : Surroundings) (packet : WirePacket) : WireNetwork :=
  let p : InboundMessageParser PathNode :=
    { firstkey := true, msg := none
      remoteRouter := P.session packet.dst packet.src
      router := { context := w.routers packet.dst, tests := w.tests packet.dst } }
  let node := (InboundMessageParser.processFrom P.lib P.u (PathNode.handler S e P.verdict P.other)
    e.relay.after packet.bytes p).1.router
  { routers := Function.update w.routers packet.dst node.context
    tests := Function.update w.tests packet.dst node.tests
    flight := node.out.bind (Flight.sendTo e.relay.tmp) }

/-- The tables of a router change. -/
def update (r : PubKey) (f : PathContext → PathContext) : WireNetwork :=
  { w with routers := Function.update w.routers r (f (w.routers r)) }

/-- One step. -/
def step : NetworkStep → WireNetwork
  | .deliver e =>
      match w.flight with
      | none => w
      | some packet => w.deliver P S e packet
  | .commit r m => w.update r fun c => (c.receive S m).1
  | .addOwnPath r owner path => w.update r fun c => c.addOwnPath owner path
  | .expirePaths r now expired => w.update r fun c => c.expirePaths now expired

end WireNetwork

section Refinement

variable {P : WireParams} {S : Sodium} {w : PathNetwork} {e : Surroundings} {f : Flight}

/-- A message is handled by one router. -/
lemma PathNetwork.handle_eq (hrouter : (w.routers f.dst).ourRouterID = f.dst) :
    w.handle S e f =
      let node := PathNode.receive S e ⟨w.routers f.dst, w.tests f.dst, none⟩ f.src f
      ⟨Function.update w.routers f.dst node.context, Function.update w.tests f.dst node.tests,
        node.out⟩ := by
  match f with
  | .commit packet =>
      have hdst : (w.routers packet.dst).ourRouterID = packet.dst := hrouter
      simp [handle, PathNode.receive, PathNode.commit, Flight.dst, Flight.src, update, hdst]
  | .relayed packet =>
      have hdst : (w.routers packet.dst).ourRouterID = packet.dst := hrouter
      rw [handle, PathNode.receive, PathNode.relay]
      dsimp only [Flight.dst, Flight.src]
      rw [hdst]
      generalize (w.routers packet.dst).handleMessage S (packet.msg.receivedFrom packet.src)
        = handled
      cases handled with
      | sent dst msg => simp
      | parsed handler buf => cases handler <;> simp
      | unknown => simp

/-- The message that is under way has room, and every router has its own identity. -/
structure PathNetwork.Fits (w : PathNetwork) : Prop where
  ourRouterID : ∀ r, (w.routers r).ourRouterID = r
  sendable : ∀ f, w.flight = some f → f.Sendable

/-- The tables of a router keep its identity. -/
lemma ourRouterID_receive (c : PathContext) (m : CommitArrival) :
    (c.receive S m).1.ourRouterID = c.ourRouterID := by
  rcases c.receive_cases S m with ⟨-, heq⟩ | ⟨hop, -, -, -, heq⟩
  · rw [heq]
  · rw [heq]
    rfl

lemma ourRouterID_nodeReceive (node : PathNode) (remote : PubKey) (f : Flight) :
    (node.receive S e remote f).context.ourRouterID = node.context.ourRouterID := by
  match f with
  | .commit packet => exact ourRouterID_receive node.context ⟨e.relay, remote, packet.frames⟩
  | .relayed packet =>
      rw [PathNode.receive, PathNode.relay]
      dsimp only
      split <;> rfl

lemma PathNetwork.Fits.update (h : w.Fits) {r : PubKey} {f : PathContext → PathContext}
    (hf : (f (w.routers r)).ourRouterID = (w.routers r).ourRouterID) : (w.update r f).Fits := by
  refine ⟨fun r' => ?_, h.sendable⟩
  by_cases hr : r' = r
  · subst hr
    simpa [PathNetwork.update, hf] using h.ourRouterID r'
  · simpa [PathNetwork.update, hr] using h.ourRouterID r'

/-- A step keeps this. -/
lemma PathNetwork.Fits.step (h : w.Fits) (i : NetworkStep) : (w.step S i).Fits := by
  cases i with
  | deliver e =>
      cases hflight : w.flight with
      | none =>
          rw [PathNetwork.step, hflight]
          exact h
      | some f =>
          have hdst := h.ourRouterID f.dst
          rw [PathNetwork.step, hflight]
          dsimp only
          rw [PathNetwork.handle_eq hdst]
          refine ⟨fun r => ?_, fun f' hf' => sendable_receive (h.sendable f hflight) hf'⟩
          by_cases hr : r = f.dst
          · subst hr
            simpa using (ourRouterID_nodeReceive _ _ f).trans hdst
          · simpa [hr] using h.ourRouterID r
  | commit r m => exact h.update (f := fun c => (c.receive S m).1) (ourRouterID_receive _ m)
  | addOwnPath r owner path =>
      exact h.update (f := fun c => c.addOwnPath owner path)
        (PathContext.addOwnPath_fields owner path).1
  | expirePaths r now expired => exact h.update (f := fun c => c.expirePaths now expired) rfl

/-- What the parser makes of the bytes of a message is what the message does. -/
lemma WireNetwork.deliver_wire (h : w.Fits) (hf : f.Sendable) :
    w.wire.deliver P S e f.wire = (w.handle S e f).wire := by
  have hnode : ∀ node : PathNode, (InboundMessageParser.processFrom P.lib P.u
      (PathNode.handler S e P.verdict P.other) e.relay.after f.encoding
      { firstkey := true, msg := none, remoteRouter := P.session f.dst f.src
        router := node }).1.router = node.receive S e f.src f := by
    intro node
    rw [node_processFrom hf]
    dsimp only
    rw [P.pubkey_session]
  have hout : ∀ o : Option Flight, (∀ f', o = some f' → f'.Sendable) →
      o.bind (Flight.sendTo e.relay.tmp) = o.map Flight.wire := by
    intro o ho
    cases o with
    | none => rfl
    | some f' => exact (ho f' rfl).sendTo e.relay.tmp
  rw [PathNetwork.handle_eq (h.ourRouterID f.dst), WireNetwork.deliver]
  dsimp only [Flight.wire, PathNetwork.wire]
  rw [hnode, hout _ fun f' hf' => sendable_receive hf hf']

/-- A step over the wire is a step over the messages. -/
lemma WireNetwork.step_wire (h : w.Fits) (i : NetworkStep) :
    w.wire.step P S i = (w.step S i).wire := by
  cases i with
  | deliver e =>
      rw [WireNetwork.step, PathNetwork.step, PathNetwork.wire]
      cases hflight : w.flight with
      | none => simp [PathNetwork.wire, hflight]
      | some f => exact WireNetwork.deliver_wire h (h.sendable f hflight)
  | commit r m => rfl
  | addOwnPath r owner path => rfl
  | expirePaths r now expired => rfl

end Refinement

/-- A run over the bytes, with every message encoded, sent, parsed and dispatched, is the run over
the messages: the routers have the same tables and tests, and the bytes that are under way are those
of the message. -/
theorem wire_refines (P : WireParams) (S : Sodium) (w : PathNetwork) (h : w.Fits)
    (is : List NetworkStep) :
    is.foldl (WireNetwork.step P S) w.wire = (is.foldl (PathNetwork.step S) w).wire := by
  induction is generalizing w with
  | nil => rfl
  | cons i is ih =>
      rw [List.foldl_cons, List.foldl_cons, WireNetwork.step_wire h, ih _ (h.step i)]

/-- Links of a host of letters, whose routers do nothing but relay. -/
def plainWire : WireParams where
  lib := RouterContact.plainHost
  u := RouterContact.zeroMemory
  session _ remote := { pubkey := remote }
  verdict _ _ := true
  other node _ := (node, true, [])
  pubkey_session _ _ := rfl

/-- Three bytes on their way to the first of two relays. -/
def threeBytes : PathNetwork where
  routers := Path.threeRouters
  tests _ _ := { status := .established }
  flight := some (.relayed (Path.twoHops.upstreamTo Path.countingStream
    (Path.someRouter 9).pubkey (zeroBlob 32) [1, 2, 3] 0))

theorem wire_refines_relayed :
    [NetworkStep.deliver default, .deliver default].foldl
        (WireNetwork.step plainWire Path.countingStream) threeBytes.wire =
      ([NetworkStep.deliver default, .deliver default].foldl
        (PathNetwork.step Path.countingStream) threeBytes).wire := by
  refine wire_refines plainWire Path.countingStream threeBytes ⟨Path.twoHops_laid.ourRouterID, ?_⟩ _
  intro f hf
  obtain rfl := Option.some.inj hf
  exact sendable_relayed_iff.mpr (by decide +kernel)

end Udap
