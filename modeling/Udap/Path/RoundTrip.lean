import Udap.Lib.Trail
import Udap.Path.Wire

/-!
Payloads on their way over a path, as bytes between the routers.

A router encodes a payload that it relays into its buffer, and sends nothing if there is no room for
it; the parser of the next router refuses a message whose payload is empty. Each station is followed
from the bytes that come in to the bytes that go out. The tables of the routers may change while a
message is on its way.

* `Relayable`: a payload that has bytes, and room.
* `upstream_iff`, `downstream_iff`: the others are lost at the first station already.
* `onion_round_trip`: exactly these payloads get through a path, both ways, and no relay on the way
  parses them; the payloads that `SendRoutingMessage` makes are among them.
-/

namespace Udap

open ByteMem Iwp

/-! ### Payloads that can be relayed -/

/-- The payload is not empty, and a message with it has room in the buffer of a router. -/
def Relayable (m : Bytes) : Prop := m ≠ [] ∧ m.length ≤ 32685

instance (m : Bytes) : Decidable (Relayable m) := inferInstanceAs (Decidable (_ ∧ _))

/-- A message with a payload of `n` bytes has room. -/
lemma room_iff (n : ℕ) : n + (decimal n).length + 78 ≤ maxLinkMsgSize ↔ n ≤ 32685 := by
  rw [maxLinkMsgSize]
  constructor
  · intro h
    by_contra hlt
    have hdigits : 4 < (decimal n).length := by
      have hlong := (Nat.lt_digits_length_iff (by norm_num : 1 < 10) n).mpr
        (show 10 ^ 4 ≤ n by omega)
      rw [decimal, if_neg (by omega)]
      simpa using hlong
    omega
  · intro h
    have hdigits : (decimal n).length ≤ 5 := decimal_length_le (by norm_num) (by omega)
    omega

lemma sendable_iff {packet : Packet} :
    (Flight.relayed packet).Sendable ↔ Relayable packet.msg.X := by
  rw [sendable_relayed_iff, Relayable, room_iff]

/-- The cipher keeps the length. -/
lemma Relayable.of_length {m m' : Bytes} (h : Relayable m) (hlen : m'.length = m.length) :
    Relayable m' := by
  refine ⟨fun hnil => h.1 ?_, hlen.trans_le h.2⟩
  rw [← List.length_eq_zero_iff, ← hlen, hnil, List.length_nil]

/-- What `SendRoutingMessage` encodes can be relayed. -/
lemma Relayable.of_encodeRouting {w : Writer} {s buf : Bytes} {tmp : ℕ → UInt8} (hw : Sure w s)
    (h : encodeRouting w tmp = some buf) : Relayable buf := by
  have hinside : (RouterContact.stackBuffer tmp (maxLinkMsgSize / 2)).Inside := Nat.zero_le _
  rw [encodeRouting] at h
  split at h
  · rename_i b heq
    have hok : (w (RouterContact.stackBuffer tmp (maxLinkMsgSize / 2))).2 = true := by rw [heq]
    have hwritten := (hw.wrote _ hinside hok).written
    have hroom : s.length ≤ 16384 := (hw.fits_iff _ hinside).mp hok
    rw [heq] at hwritten
    obtain rfl : s = buf := hwritten.symm.trans (Option.some.inj h)
    exact ⟨hw.ne_nil, by omega⟩
  · cases h

/-! ### Stations -/

/-- The links between the routers, the memory around the bytes, and the verdicts of the handlers. -/
structure Relaying extends Links where
  /-- behind the bytes that come in at a time -/
  after : ℕ → ℕ → UInt8
  /-- in `linkmsg_buffer` before the bytes that go out at a time -/
  tmp : ℕ → ℕ → UInt8
  verdict : LinkMsg → Bool

namespace Relaying

variable (R : Relaying) (S : Sodium) (net : ℕ → PubKey → PathContext)

/-- `HandleMessage` of a router with the tables `c`; it keeps what was done with a payload. -/
def handler (c : PathContext) : InboundMessageParser.Handler (Option Handled)
  | _, .relayUpstream m =>
      (some (c.handleMessage S (.upstream m)), R.verdict (.relayUpstream m), [])
  | _, .relayDownstream m =>
      (some (c.handleMessage S (.downstream m)), R.verdict (.relayDownstream m), [])
  | handled, msg => (handled, R.verdict msg, [])

/-- `ProcessFrom` of the router that bytes come to, and what is done with the payload, if the
parser hands it over. -/
def receive (t : ℕ) (packet : WirePacket) : Option Handled :=
  let p : InboundMessageParser (Option Handled) :=
    { firstkey := true, msg := none
      remoteRouter := R.session packet.dst packet.src
      router := none }
  (InboundMessageParser.processFrom R.lib R.u (R.handler S (net t packet.dst)) (R.after t)
    packet.bytes p).1.router

/-- `SendTo` of the router `src`, if it sends a message. -/
def send (t : ℕ) (src : PubKey) (handled : Handled) : Option WirePacket :=
  (handled.packet src).bind fun packet => (Flight.relayed packet).sendTo (R.tmp t)

/-- A message is handled where it was sent to. -/
def relayStep (t : ℕ) (packet : WirePacket) : (PubKey × Option Handled) × Option WirePacket :=
  let handled := R.receive S net t packet
  ((packet.dst, handled), handled.bind (R.send (t + 1) packet.dst))

/-- Where a message comes to and what is done with it there; `net t` has the tables of all routers
when it is handled for the `t`-th time. -/
def journey (fuel : ℕ) (packet : WirePacket) : List (PubKey × Option Handled) :=
  trail (R.relayStep S net) fuel 0 packet

end Relaying

/-- A message gets through: the routers `via` pass it on, and a handler of `dst` parses `buf`. -/
def GetsThrough (l : List (PubKey × Option Handled)) (via : List PubKey) (dst : PubKey)
    (handler : HopHandler) (buf : Bytes) : Prop :=
  ∃ way, l = way ++ [(dst, some (.parsed handler buf))] ∧ way.map Prod.fst = via ∧
    ∀ e ∈ way, ∃ next msg, e.2 = some (.sent next msg)

section Stations

variable {R : Relaying} {S : Sodium} {net : ℕ → PubKey → PathContext} {packet : Packet}

lemma routerAfter_received (c : PathContext) (handled : Option Handled) (remote : PubKey)
    (packet : Packet) :
    InboundMessageParser.routerAfter (R.handler S c) handled
      [(Flight.relayed packet).received remote] =
      some (c.handleMessage S (packet.msg.receivedFrom remote)) := by
  match packet with
  | ⟨_, _, .upstream m⟩ => rfl
  | ⟨_, _, .downstream m⟩ => rfl

/-- What is done with a payload that was sent. -/
lemma receive_wire (h : Relayable packet.msg.X) (t : ℕ) :
    R.receive S net t (Flight.relayed packet).wire =
      some ((net t packet.dst).handleMessage S (packet.msg.receivedFrom packet.src)) := by
  have hsession : (R.session packet.dst packet.src).pubkey = packet.src := R.pubkey_session _ _
  rw [Relaying.receive]
  dsimp only [Flight.wire]
  rw [(sendable_iff.mpr h).router_processFrom, routerAfter_received]
  dsimp only [Flight.src, Flight.dst]
  rw [hsession]

/-- The parser refuses a message without a payload. -/
lemma receive_wire_nil (h : packet.msg.X = []) (t : ℕ) :
    R.receive S net t (Flight.relayed packet).wire = none := by
  have hends (p : InboundMessageParser (Option Handled)) :
      Ends (InboundMessageParser.parse R.lib R.u (R.handler S (net t packet.dst))) p
        (Flight.relayed packet).encoding fun p' ok => p'.router = p.router ∧ ok = false := by
    match packet, h with
    | ⟨_, _, .upstream m⟩, h =>
        exact InboundMessageParser.ends_relay_nil 'u' (fun _ _ => rfl) rfl m h
    | ⟨_, _, .downstream m⟩, h =>
        exact InboundMessageParser.ends_relay_nil 'd' (fun _ _ => rfl) rfl m h
  rw [Relaying.receive]
  dsimp only [Flight.wire]
  rw [InboundMessageParser.processFrom_eq]
  obtain ⟨p', ok, hparse, hrouter, -⟩ := hends _ _ (Buffer.holds_ofBytes _ (R.after t))
  exact (congrArg (fun r => r.1.router) hparse).trans hrouter

lemma send_sent (h : Relayable packet.msg.X) (t : ℕ) :
    R.send t packet.src (.sent packet.dst packet.msg) = some (Flight.relayed packet).wire :=
  (sendable_iff.mpr h).sendTo (R.tmp t)

/-- A payload that gets through can be relayed. -/
lemma relayable_of_getsThrough {t fuel : ℕ} {wire : WirePacket} {via : List PubKey} {dst : PubKey}
    {handler : HopHandler} {buf : Bytes}
    (hsend : R.send t packet.src (.sent packet.dst packet.msg) = some wire)
    (hthrough : GetsThrough (R.journey S net fuel wire) via dst handler buf) :
    Relayable packet.msg.X := by
  obtain ⟨way, hway, -, hsent⟩ := hthrough
  have hsend' : (Flight.relayed packet).sendTo (R.tmp t) = some wire := hsend
  rw [Flight.sendTo_eq] at hsend'
  split_ifs at hsend' with hroom
  obtain rfl := Option.some.inj hsend'
  constructor
  · intro hnil
    cases fuel with
    | zero => exact List.append_ne_nil_of_right_ne_nil way (List.cons_ne_nil _ _) hway.symm
    | succ fuel =>
        -- the first station is the last one, and nothing is done there
        have hfirst : R.journey S net (fuel + 1) (Flight.relayed packet).wire =
            [(packet.dst, none)] := by
          rw [Relaying.journey, trail, Relaying.relayStep, receive_wire_nil hnil]
          rfl
        have hlast := congrArg List.getLast? (hfirst.symm.trans hway)
        rw [List.getLast?_concat] at hlast
        exact Option.some_ne_none _ (congrArg Prod.snd (Option.some.inj hlast)).symm
  · rw [← room_iff]
    obtain ⟨_, _, m | m⟩ := packet
    · exact (m.encoding_length 'u').symm.trans_le hroom
    · exact (m.encoding_length 'd').symm.trans_le hroom

end Stations

/-! ### Both ways -/

namespace Path

section RoundTrip

variable {R : Relaying} {S : Sodium} {p : Path} {creator : PubKey} {owner : ℕ} {mine : Ptr Path}
  {hops : ℕ → Ptr TransitHop} {net : ℕ → PubKey → PathContext} {n : ℕ} {Y : Blob 32} {m : Bytes}

/-- The payload under its layers. -/
lemma upstreamTo_X_length (k : ℕ) : (p.upstreamTo S creator Y m k).msg.X.length = m.length :=
  xorHops_length ..

lemma relayedDown_length (hops : List PathHopConfig) :
    (relayedDown S Y hops m).length = m.length := by
  induction hops with
  | nil => rfl
  | cons hop hops ih => exact (S.xchacha20_length ..).trans ih

lemma downstreamFrom_X_length (k : ℕ) :
    (p.downstreamFrom S creator Y m k).msg.X.length = m.length := relayedDown_length ..

lemma dropLast_routers (hn : p.hops.length = n + 1) :
    p.routers.dropLast = (List.range n).map fun k => (p.hop k).router.pubkey := by
  rw [routers_eq, hn, List.range_succ, List.map_append]
  exact List.dropLast_concat

/-- The stations on the way back. -/
lemma reverse_dropLast_routers (creator : PubKey) (hn : p.hops.length = n + 1) :
    p.routers.dropLast.reverse = (List.range n).map fun t => p.station creator (n - t) := by
  rw [dropLast_routers hn]
  refine List.ext_getElem (by simp) fun t ht ht' => ?_
  rw [List.length_reverse, List.length_map, List.length_range] at ht
  obtain ⟨k, hk⟩ : ∃ k, n - t = k + 1 := ⟨n - t - 1, by omega⟩
  have hindex : n - 1 - t = k := by omega
  simp [hk, hindex, station]

/-- A trail whose last station parses the message. -/
lemma getsThrough_range (station : ℕ → PubKey) (handled : ℕ → Handled) {handler : HopHandler}
    {buf : Bytes} (hsent : ∀ t < n, ∃ next msg, handled t = .sent next msg)
    (hlast : handled n = .parsed handler buf) :
    GetsThrough ((List.range' 0 (n + 1)).map fun t => (station t, some (handled t)))
      ((List.range n).map station) (station n) handler buf := by
  refine ⟨(List.range n).map fun t => (station t, some (handled t)), ?_, ?_, fun e he => ?_⟩
  · rw [← List.range_eq_range', List.range_succ, List.map_append, List.map_singleton, hlast]
  · rw [List.map_map]
    rfl
  · obtain ⟨t, ht, rfl⟩ := List.mem_map.mp he
    obtain ⟨next, msg, hnext⟩ := hsent t (List.mem_range.mp ht)
    exact ⟨next, msg, congrArg some hnext⟩

/-- A payload that is lost is lost at the first station: the layers keep its length. -/
lemma getsThrough_iff {packet : Packet} {handled : Handled} {fuel : ℕ} {via : List PubKey}
    {dst : PubKey} {handler : HopHandler} (hout : handled = .sent packet.dst packet.msg)
    (hX : packet.msg.X.length = m.length)
    (hthrough : Relayable m →
      GetsThrough (R.journey S net fuel (Flight.relayed packet).wire) via dst handler m) :
    (∃ wire, R.send 0 packet.src handled = some wire ∧
      GetsThrough (R.journey S net fuel wire) via dst handler m) ↔ Relayable m := by
  subst hout
  constructor
  · rintro ⟨wire, hsend, hway⟩
    exact (relayable_of_getsThrough hsend hway).of_length hX.symm
  · exact fun hm => ⟨_, send_sent (hm.of_length hX) 0, hthrough hm⟩

/-! #### Upstream -/

/-- What is done at the `t`-th station on the way up. -/
def handledUp (S : Sodium) (p : Path) (creator : PubKey) (hops : ℕ → Ptr TransitHop) (Y : Blob 32)
    (m : Bytes) (t : ℕ) : Handled :=
  if t + 1 < p.hops.length then
    .sent (p.hop (t + 1)).router.pubkey (p.upstreamTo S creator Y m (t + 1)).msg
  else .parsed (.transit (hops t)) m

lemma relayStep_upstream (h : ∀ t, p.Laid creator owner mine hops (net t)) (hm : Relayable m)
    (t : ℕ) (ht : t < p.hops.length) :
    R.relayStep S net t (Flight.relayed (p.upstreamTo S creator Y m t)).wire =
      (((p.hop t).router.pubkey, some (handledUp S p creator hops Y m t)),
        if t + 1 < p.hops.length then
          some (Flight.relayed (p.upstreamTo S creator Y m (t + 1))).wire
        else none) := by
  have hX (k : ℕ) : Relayable (p.upstreamTo S creator Y m k).msg.X :=
    hm.of_length (upstreamTo_X_length k)
  have hreceive : R.receive S net t (Flight.relayed (p.upstreamTo S creator Y m t)).wire =
      some (handledUp S p creator hops Y m t) :=
    (receive_wire (hX t) t).trans (congrArg some ((h t).handleMessage_upstream S Y m ht))
  rw [Relaying.relayStep, hreceive, Option.bind_some, handledUp]
  split_ifs
  · exact congrArg (Prod.mk _) (send_sent (hX (t + 1)) (t + 1))
  · rfl

lemma getsThrough_upstream (h : ∀ t, p.Laid creator owner mine hops (net t)) (hm : Relayable m)
    (hn : p.hops.length = n + 1) {fuel : ℕ} (hfuel : p.hops.length ≤ fuel) :
    GetsThrough (R.journey S net fuel (Flight.relayed (p.upstreamTo S creator Y m 0)).wire)
      p.routers.dropLast (p.hop n).router.pubkey (.transit (hops n)) m := by
  rw [Relaying.journey, trail_eq (relayStep_upstream h hm) length_pos (by rwa [Nat.zero_add]),
    dropLast_routers hn, hn]
  refine getsThrough_range (fun k => (p.hop k).router.pubkey) _ (fun k hk => ?_) ?_
  · rw [handledUp, if_pos (by omega)]
    exact ⟨_, _, rfl⟩
  · rw [handledUp, if_neg (by omega)]

lemma upstream_iff (h : ∀ t, p.Laid creator owner mine hops (net t)) (hn : p.hops.length = n + 1)
    {fuel : ℕ} (hfuel : p.hops.length ≤ fuel) :
    (∃ packet, R.send 0 creator (p.handleUpstream S m Y) = some packet ∧
      GetsThrough (R.journey S net fuel packet) p.routers.dropLast (p.hop n).router.pubkey
        (.transit (hops n)) m) ↔ Relayable m := by
  have hup : p.handleUpstream S m Y = .sent (p.upstreamTo S creator Y m 0).dst
      (p.upstreamTo S creator Y m 0).msg := by
    rw [handleUpstream, upstreamTo, hop_zero]
    rfl
  exact getsThrough_iff hup (upstreamTo_X_length 0) fun hm => getsThrough_upstream h hm hn hfuel

/-! #### Downstream -/

/-- What is done at the `t`-th station on the way back. -/
def handledBack (S : Sodium) (p : Path) (creator : PubKey) (mine : Ptr Path) (n : ℕ) (Y : Blob 32)
    (m : Bytes) (t : ℕ) : Handled :=
  if t < n then
    .sent (p.station creator (n - (t + 1))) (p.downstreamFrom S creator Y m (n - (t + 1))).msg
  else .parsed (.path mine) m

lemma handleMessage_back (h : ∀ t, p.Laid creator owner mine hops (net t))
    (hn : p.hops.length = n + 1) (t : ℕ) (ht : t < n + 1) :
    (net t (p.station creator (n - t))).handleMessage S
        ((p.downstreamFrom S creator Y m (n - t)).msg.receivedFrom
          (p.hop (n - t)).router.pubkey) = handledBack S p creator mine n Y m t := by
  rw [handledBack]
  by_cases hlt : t < n
  · obtain ⟨k, hk⟩ : ∃ k, n - t = k + 1 := ⟨n - t - 1, by omega⟩
    have hnext : n - (t + 1) = k := by omega
    rw [if_pos hlt, hk, hnext]
    exact (h t).handleMessage_downstream S Y m (by omega)
  · have hzero : n - t = 0 := by omega
    rw [if_neg hlt, hzero]
    exact (h t).handleMessage_creator S Y m

lemma relayStep_back (h : ∀ t, p.Laid creator owner mine hops (net t)) (hm : Relayable m)
    (hn : p.hops.length = n + 1) (t : ℕ) (ht : t < n + 1) :
    R.relayStep S net t (Flight.relayed (p.downstreamFrom S creator Y m (n - t))).wire =
      ((p.station creator (n - t), some (handledBack S p creator mine n Y m t)),
        if t + 1 < n + 1 then
          some (Flight.relayed (p.downstreamFrom S creator Y m (n - (t + 1)))).wire
        else none) := by
  have hX (k : ℕ) : Relayable (p.downstreamFrom S creator Y m k).msg.X :=
    hm.of_length (downstreamFrom_X_length k)
  have hreceive : R.receive S net t (Flight.relayed (p.downstreamFrom S creator Y m (n - t))).wire =
      some (handledBack S p creator mine n Y m t) :=
    (receive_wire (hX _) t).trans (congrArg some (handleMessage_back h hn t ht))
  rw [Relaying.relayStep, hreceive, Option.bind_some, handledBack]
  by_cases hlt : t < n
  · obtain ⟨k, hk⟩ : ∃ k, n - t = k + 1 := ⟨n - t - 1, by omega⟩
    have hnext : n - (t + 1) = k := by omega
    rw [if_pos hlt, if_pos (Nat.succ_lt_succ hlt), hk, hnext]
    exact congrArg (Prod.mk _) (send_sent (hX k) (t + 1))
  · rw [if_neg hlt, if_neg fun hsucc => hlt (Nat.lt_of_succ_lt_succ hsucc)]
    rfl

lemma getsThrough_downstream (h : ∀ t, p.Laid creator owner mine hops (net t)) (hm : Relayable m)
    (hn : p.hops.length = n + 1) {fuel : ℕ} (hfuel : p.hops.length ≤ fuel) :
    GetsThrough (R.journey S net fuel (Flight.relayed (p.downstreamFrom S creator Y m n)).wire)
      p.routers.dropLast.reverse creator (.path mine) m := by
  have htrail : trail (R.relayStep S net) fuel 0
      (Flight.relayed (p.downstreamFrom S creator Y m n)).wire =
      (List.range' 0 (n + 1)).map fun t =>
        (p.station creator (n - t), some (handledBack S p creator mine n Y m t)) :=
    trail_eq (relayStep_back h hm hn) (Nat.succ_pos n) (by omega)
  have hcreator : p.station creator (n - n) = creator := by
    rw [Nat.sub_self]
    rfl
  have hthrough := getsThrough_range (fun t => p.station creator (n - t))
    (handledBack S p creator mine n Y m) (fun t ht => ⟨_, _, if_pos ht⟩) (if_neg (lt_irrefl n))
  rw [Relaying.journey, htrail, reverse_dropLast_routers creator hn]
  rwa [hcreator] at hthrough

lemma downstream_iff (h : ∀ t, p.Laid creator owner mine hops (net t))
    (hn : p.hops.length = n + 1) {fuel : ℕ} (hfuel : p.hops.length ≤ fuel) :
    (∃ packet, R.send 0 (p.hop n).router.pubkey ((hops n).val.handleDownstream S m Y) =
        some packet ∧
      GetsThrough (R.journey S net fuel packet) p.routers.dropLast.reverse creator (.path mine)
        m) ↔ Relayable m := by
  have hdown : (hops n).val.handleDownstream S m Y = .sent (p.downstreamFrom S creator Y m n).dst
      (p.downstreamFrom S creator Y m n).msg := handleDownstream_farthest S Y m (h 0) hn.symm
  exact getsThrough_iff hdown (downstreamFrom_X_length n) fun hm =>
    getsThrough_downstream h hm hn hfuel

/-- A payload that the creator of a path sends goes through all relays and is parsed by the last
one, and what the last one sends goes back through all of them and is parsed by the creator, each
as the bytes that were sent, exactly if the payload is not empty and has room in the buffer of a
router; and what `SendRoutingMessage` encodes always is and has. -/
theorem onion_round_trip (R : Relaying) (S : Sodium) (p : Path) (creator : PubKey) (owner : ℕ)
    (mine : Ptr Path) (hops : ℕ → Ptr TransitHop) (net : ℕ → PubKey → PathContext)
    (h : ∀ t, p.Laid creator owner mine hops (net t)) (fuel : ℕ) (hfuel : p.hops.length ≤ fuel) :
    (∀ (m : Bytes) (Y : Blob 32),
      (∃ packet, R.send 0 creator (p.handleUpstream S m Y) = some packet ∧
        GetsThrough (R.journey S net fuel packet) p.routers.dropLast p.farthest
          (.transit (hops (p.hops.length - 1))) m) ↔ Relayable m) ∧
    (∀ (w : Writer) (tmp : ℕ → UInt8) (N : Blob 32) (m : Bytes), encodeRouting w tmp = some m →
      ((∃ packet, ((hops (p.hops.length - 1)).val.sendRoutingMessage S w tmp N).bind
          (R.send 0 p.farthest) = some packet ∧
        GetsThrough (R.journey S net fuel packet) p.routers.dropLast.reverse creator (.path mine)
          m) ↔ Relayable m)) ∧
    ∀ (w : Writer) (s : Bytes), Sure w s → ∀ (tmp : ℕ → UInt8) (m : Bytes),
      encodeRouting w tmp = some m → Relayable m := by
  obtain ⟨n, hn⟩ : ∃ n, p.hops.length = n + 1 := Nat.exists_eq_succ_of_ne_zero length_pos.ne'
  have hpred : p.hops.length - 1 = n := by rw [hn, Nat.add_sub_cancel]
  rw [farthest, hpred]
  refine ⟨fun m Y => upstream_iff h hn hfuel, fun w tmp N m hm => ?_, fun w s hw tmp m hm =>
    .of_encodeRouting hw hm⟩
  rw [TransitHop.sendRoutingMessage, hm, Option.map_some, Option.bind_some]
  exact downstream_iff h hn hfuel

/-- Routers that have nothing but zeros around the bytes. -/
def plainRelaying : Relaying where
  toLinks := plainWire.toLinks
  after _ _ := 0
  tmp _ _ := 0
  verdict _ := true

/-- The payload gets from the creator of the path of two hops to its last relay. -/
def Crosses (m : Bytes) : Prop :=
  ∃ packet, plainRelaying.send 0 (someRouter 9).pubkey
      (twoHops.handleUpstream countingStream m (zeroBlob 32)) = some packet ∧
    GetsThrough (plainRelaying.journey countingStream (fun _ => threeRouters) 2 packet)
      [(someRouter 3).pubkey] (someRouter 5).pubkey (.transit (twoHopsAt 1)) m

theorem onion_round_trip_two :
    Crosses [1, 2, 3] ∧ ∃ packet, ((twoHopsAt 1).val.sendRoutingMessage countingStream
        ({ L := 7 } : Routing.PathLatencyMessage).bencode (fun _ => 0) (zeroBlob 32)).bind
          (plainRelaying.send 0 (someRouter 5).pubkey) = some packet ∧
      GetsThrough (plainRelaying.journey countingStream (fun _ => threeRouters) 2 packet)
        [(someRouter 3).pubkey] (someRouter 9).pubkey (.path ⟨0, twoHops⟩)
        ({ L := 7 } : Routing.PathLatencyMessage).encoding := by
  obtain ⟨hup, hdown, hmade⟩ := onion_round_trip plainRelaying countingStream twoHops _ 0 _
    twoHopsAt (fun _ => threeRouters) (fun _ => twoHops_laid) 2 (by decide)
  have hbuf := encodeRouting_latency { L := 7 } fun _ => 0
  exact ⟨(hup [1, 2, 3] _).mpr (by decide), (hdown _ _ _ _ hbuf).mpr
    (hmade _ _ (Routing.PathLatencyMessage.sure_bencode _) _ _ hbuf)⟩

/-- The relays of a path refuse an empty payload, and one of 32686 bytes is not even sent. -/
theorem payload_lost : ¬ Crosses [] ∧ ¬ Crosses (List.replicate 32686 0) := by
  have hlaid : ∀ _ : ℕ, twoHops.Laid (someRouter 9).pubkey 0 ⟨0, twoHops⟩ twoHopsAt threeRouters :=
    fun _ => twoHops_laid
  have hrelayable : ∀ m : Bytes, Crosses m → Relayable m := fun m hm =>
    (upstream_iff hlaid (n := 1) rfl (by decide)).mp hm
  refine ⟨fun hm => (hrelayable _ hm).1 rfl, fun hm => ?_⟩
  have hlong := (hrelayable _ hm).2
  rw [List.length_replicate] at hlong
  omega

end RoundTrip

end Path

end Udap
