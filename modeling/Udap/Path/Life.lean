import Udap.Path.Network

/-!
A path from its `LR_CommitMessage` to its latency, while the routers are busy with others.

One message of the path is under way at a time: the frames go to the last relay, the confirmation
comes back, the latency test goes to the last relay and the answer comes back.

* `Path.flightAfter`, `Path.testAfter`: where the message is, and what the test of the path is,
  after a number of deliveries.
* `Path.Alive`: a network in which this is so, with the tables; `Path.Alive.step` keeps it.
* `Path.path_comes_alive`: every run gets there, with `4 * n` deliveries over `n` hops.
-/

namespace Udap

open ByteMem Iwp

/-! ### What is under way -/

/-- The surroundings of the `k`-th delivery. -/
def delivery (ds : List Surroundings) (k : ℕ) : Surroundings := ds.getD k default

section Delivery

variable {ds : List Surroundings} {e : Surroundings} {k : ℕ}

lemma delivery_mem (hk : k < ds.length) : delivery ds k ∈ ds := by
  simp [delivery, List.getD_eq_getElem?_getD, hk]

lemma delivery_append (hk : k < ds.length) : delivery (ds ++ [e]) k = delivery ds k := by
  simp [delivery, List.getD_eq_getElem?_getD, List.getElem?_append_left hk]

@[simp] lemma delivery_length (ds : List Surroundings) (e : Surroundings) :
    delivery (ds ++ [e]) ds.length = e := by
  simp [delivery]

end Delivery

namespace Path

section Script

variable (S : Sodium) (p : Path) (creator : PubKey) (frames : List Bytes) (ds : List Surroundings)

/-- The relays at the first deliveries. -/
def relayAt (k : ℕ) : RelayRandom := (delivery ds k).relay

/-- The test that the creator sends when the confirmation has come back. -/
def testSent : Routing.PathLatencyMessage := { T := (delivery ds (2 * p.hops.length - 1)).random }

/-- The message that is under way after some deliveries: first the frames, then the confirmation on
its way back, then the test, then the answer on its way back. -/
def flightAfter : Option Flight :=
  let n := p.hops.length
  let d := ds.length
  if d < n then some (.commit (p.commitTo creator (relayAt ds) frames d))
  else if d < 2 * n then
    let last := relayAt ds (n - 1)
    some (.relayed (p.downstreamFrom S creator last.nonce (confirmBytes last) (2 * n - 1 - d)))
  else if d < 3 * n then
    some (.relayed (p.upstreamTo S creator (relayAt ds (2 * n - 1)).nonce (p.testSent ds).encoding
      (d - 2 * n)))
  else if d < 4 * n then
    some (.relayed (p.downstreamFrom S creator (relayAt ds (3 * n - 1)).nonce
      (TransitHop.latencyReply (p.testSent ds)).encoding (4 * n - 1 - d)))
  else none

/-- The test of the path after some deliveries. -/
def testAfter : PathTest :=
  let n := p.hops.length
  let d := ds.length
  let sent := delivery ds (2 * n - 1)
  if d < 2 * n then { status := .building }
  else
    let tested : PathTest :=
      { status := .established, lastLatencyTestTime := sent.now, lastLatencyTestID := sent.random
        log := [.sent sent.random] }
    if d < 4 * n then tested
    else { tested with
      latency := (delivery ds (4 * n - 1)).now - sent.now
      log := [.sent sent.random, .answered sent.random] }

end Script

/-- The tables, the message and the test of a path after some deliveries. -/
structure Alive (S : Sodium) (p : Path) (creator : PubKey) (owner : ℕ) (mine : Ptr Path)
    (secrets : ℕ → Blob 32) (frames : List Bytes) (ds : List Surroundings) (w : PathNetwork) :
    Prop where
  tables : p.Tables S creator owner mine secrets (relayAt ds) ds.length w.routers
  flight : w.flight = p.flightAfter S creator frames ds
  test : w.tests creator mine.address = p.testAfter ds
  /-- the decoder can tell the numbers that were sent -/
  plain : ∀ e ∈ ds, e.random ≠ -1 ∧ e.relay.created ≠ -1

section Phases

variable {S : Sodium} {p₀ p : Path} {creator : PubKey} {owner : ℕ} {mine : Ptr Path}
  {secrets : ℕ → Blob 32} {frames : List Bytes} {ds : List Surroundings} {w : PathNetwork}
  {e : Surroundings} {k : ℕ}

lemma relayAt_append (hk : k < ds.length) : relayAt (ds ++ [e]) k = relayAt ds k := by
  rw [relayAt, delivery_append hk]
  rfl

lemma testSent_append (h : 2 * p.hops.length ≤ ds.length) :
    p.testSent (ds ++ [e]) = p.testSent ds := by
  have hpos := length_pos (p := p)
  rw [testSent, delivery_append (by omega)]
  rfl

/-- The last relay sends something down. -/
lemma packet_farthest {hops : ℕ → Ptr TransitHop} {routers : PubKey → PathContext}
    (hlaid : p.Laid creator owner mine hops routers) (hk : k + 1 = p.hops.length) (Y : Blob 32)
    (m : Bytes) : ((hops k).val.handleDownstream S m Y).packet (p.hop k).router.pubkey =
      some (p.downstreamFrom S creator Y m k) :=
  congrArg (Handled.packet (p.hop k).router.pubkey) (handleDownstream_farthest S Y m hlaid hk)

namespace Alive

/-- The hops that the relays have taken are those of the path. -/
lemma laid (h : Alive S p creator owner mine secrets frames ds w) (hsep : p.Separate)
    (hval : mine.val = p) (hd : p.hops.length ≤ ds.length) :
    p.Laid creator owner mine (fun k => p.relayHop creator (relayAt ds k) k) w.routers :=
  h.tables.laid hsep hval hd

/-- When all relays have their hops the tables stay as they are. -/
lemma tables_append (h : Alive S p creator owner mine secrets frames ds w)
    (hd : p.hops.length ≤ ds.length) :
    p.Tables S creator owner mine secrets (relayAt (ds ++ [e])) (ds ++ [e]).length w.routers := by
  have ht : p.Tables S creator owner mine secrets (relayAt (ds ++ [e])) ds.length w.routers :=
    h.tables.congr fun k hk => relayAt_append hk
  refine ⟨ht.ourRouterID, ht.willing, ht.own, fun k hk id hid hop => ?_, ht.index, ht.alone⟩
  have hlt : k < (ds ++ [e]).length ↔ k < ds.length := by
    rw [List.length_append, List.length_singleton]
    omega
  rw [ht.held k hk id hid hop, hlt]

lemma plain_append (h : Alive S p creator owner mine secrets frames ds w)
    (he : e.random ≠ -1 ∧ e.relay.created ≠ -1) :
    ∀ e' ∈ ds ++ [e], e'.random ≠ -1 ∧ e'.relay.created ≠ -1 := by
  intro e' he'
  rcases List.mem_append.mp he' with hold | hnew
  · exact h.plain e' hold
  · exact List.mem_singleton.mp hnew ▸ he

/-- The frames go to the next relay. -/
lemma commit (h : Alive S p creator owner mine secrets frames ds w)
    (hmade : Made S secrets p₀ p frames) (hsep : p.Separate) (hval : mine.val = p)
    (he : e.random ≠ -1 ∧ e.relay.created ≠ -1) (hd : ds.length < p.hops.length) :
    Alive S p creator owner mine secrets frames (ds ++ [e]) (w.step S (.deliver e)) := by
  have hrelay : ∀ k < ds.length, relayAt (ds ++ [e]) k = relayAt ds k := fun k hk =>
    relayAt_append hk
  have hlast : relayAt (ds ++ [e]) ds.length = e.relay := by rw [relayAt, delivery_length]
  have ht := h.tables.congr hrelay
  have hflight : w.flight = some (.commit (p.commitTo creator (relayAt (ds ++ [e])) frames
      ds.length)) := by
    rw [h.flight, flightAfter, if_pos hd, commitTo_congr hrelay]
  have hstep : w.step S (.deliver e) = w.handle S e (.commit (p.commitTo creator
      (relayAt (ds ++ [e])) frames ds.length)) := by
    rw [PathNetwork.step, hflight]
  have htables := ht.commit hsep hd
  have hlaid := fun hlast => htables.laid hsep hval (hlast : p.hops.length ≤ ds.length + 1)
  rw [hstep, PathNetwork.handle_commit hmade ht hd hlast]
  refine ⟨by simpa using htables, ?_, ?_, h.plain_append he⟩
  · rw [flightAfter, List.length_append, List.length_singleton]
    -- the last relay sends the confirmation in place of frames
    by_cases hlt : ds.length + 1 < p.hops.length
    · simp only [hlt, if_true]
    · have hlast : ds.length + 1 = p.hops.length := by omega
      have htwo : ds.length + 1 < 2 * p.hops.length := by omega
      have hidx : 2 * p.hops.length - 1 - (ds.length + 1) = ds.length := by omega
      have hpred : p.hops.length - 1 = ds.length := by omega
      simp only [hlt, htwo, if_true, if_false, hidx, hpred]
      rw [packet_farthest (hlaid hlast.ge) hlast]
      rfl
  · have htwo : ds.length < 2 * p.hops.length := by omega
    have htwo' : (ds ++ [e]).length < 2 * p.hops.length := by
      rw [List.length_append, List.length_singleton]
      omega
    rw [testAfter, if_pos htwo']
    exact h.test.trans (by rw [testAfter, if_pos htwo])

/-- A message on its way back comes to the next relay. -/
lemma step_down (h : Alive S p creator owner mine secrets frames ds w) (hsep : p.Separate)
    (hval : mine.val = p) (hd : p.hops.length ≤ ds.length) {Y : Blob 32} {m : Bytes}
    (hflight : w.flight = some (.relayed (p.downstreamFrom S creator Y m (k + 1))))
    (hk : k + 1 < p.hops.length) : w.step S (.deliver e) =
      { w with flight := some (.relayed (p.downstreamFrom S creator Y m k)) } := by
  rw [PathNetwork.step, hflight]
  exact PathNetwork.handle_downstream (h.laid hsep hval hd) hk

/-- A message on its way back comes to the creator. -/
lemma step_creator (h : Alive S p creator owner mine secrets frames ds w) (hsep : p.Separate)
    (hval : mine.val = p) (hd : p.hops.length ≤ ds.length) {Y : Blob 32} {m : Bytes}
    (hflight : w.flight = some (.relayed (p.downstreamFrom S creator Y m 0))) :
    w.step S (.deliver e) =
      { w with
        tests := Function.update w.tests creator (Function.update (w.tests creator) mine.address
          ((p.testAfter ds).step (e.arrival m)))
        flight := ((p.reply S e (p.testAfter ds) m).bind (Handled.packet creator)).map
          .relayed } := by
  subst hval
  rw [PathNetwork.step, hflight, ← h.test]
  exact PathNetwork.handle_creator (h.laid hsep rfl hd)

/-- The confirmation comes back; then the creator sends the test. -/
lemma confirm (h : Alive S p creator owner mine secrets frames ds w) (hsep : p.Separate)
    (hval : mine.val = p) (he : e.random ≠ -1 ∧ e.relay.created ≠ -1)
    (hd : p.hops.length ≤ ds.length) (hd' : ds.length < 2 * p.hops.length) :
    Alive S p creator owner mine secrets frames (ds ++ [e]) (w.step S (.deliver e)) := by
  have hpos := length_pos (p := p)
  set last := relayAt ds (p.hops.length - 1) with hlast
  have hlast' : relayAt (ds ++ [e]) (p.hops.length - 1) = last := relayAt_append (by omega)
  have hflight : w.flight = some (.relayed (p.downstreamFrom S creator last.nonce
      (confirmBytes last) (2 * p.hops.length - 1 - ds.length))) := by
    rw [h.flight, flightAfter]
    simp only [if_neg (Nat.not_lt.mpr hd), if_pos hd', hlast]
  have htest : p.testAfter ds = { status := .building } := by rw [testAfter, if_pos hd']
  -- on its way over the relays, or at the creator
  by_cases hnext : ds.length + 1 < 2 * p.hops.length
  · obtain ⟨k, hk⟩ : ∃ k, 2 * p.hops.length - 1 - ds.length = k + 1 :=
      ⟨2 * p.hops.length - 2 - ds.length, by omega⟩
    rw [hk] at hflight
    rw [h.step_down hsep hval hd hflight (by omega)]
    refine ⟨h.tables_append hd, ?_, ?_, h.plain_append he⟩
    · have hidx : 2 * p.hops.length - 1 - (ds.length + 1) = k := by omega
      rw [flightAfter, List.length_append, List.length_singleton]
      simp only [if_neg (show ¬ ds.length + 1 < p.hops.length by omega), if_pos hnext, hlast', hidx]
    · rw [testAfter, List.length_append, List.length_singleton, if_pos hnext, ← htest]
      exact h.test
  · have hzero : 2 * p.hops.length - 1 - ds.length = 0 := by omega
    have hsent : 2 * p.hops.length - 1 = ds.length := by omega
    rw [hzero] at hflight
    have hplain := h.plain (delivery ds (p.hops.length - 1)) (delivery_mem (by omega))
    -- the creator, whose test has not begun, takes the confirmation and sends the test
    obtain ⟨c, hmsg⟩ : ∃ c, (e.arrival (confirmBytes last)).message = some (.pathConfirm c) :=
      message_confirm hplain.2
    rw [h.step_creator hsep hval hd hflight, htest, reply_confirm hmsg rfl,
      PathTest.step_confirm hmsg rfl]
    refine ⟨h.tables_append hd, ?_, ?_, h.plain_append he⟩
    · have hsub : ds.length + 1 - 2 * p.hops.length = 0 := by omega
      rw [flightAfter, List.length_append, List.length_singleton]
      simp only [if_neg (show ¬ ds.length + 1 < p.hops.length by omega), if_neg hnext,
        if_pos (show ds.length + 1 < 3 * p.hops.length by omega), hsub, testSent, hsent,
        relayAt, delivery_length]
      rfl
    · rw [testAfter, List.length_append, List.length_singleton, if_neg hnext,
        if_pos (show ds.length + 1 < 4 * p.hops.length by omega), hsent, delivery_length]
      simp [Surroundings.arrival]

/-- The test of the path stays while others handle its messages. -/
lemma testAfter_append (hd : 2 * p.hops.length ≤ ds.length)
    (hd' : ds.length + 1 < 4 * p.hops.length) : p.testAfter (ds ++ [e]) = p.testAfter ds := by
  have hpos := length_pos (p := p)
  rw [testAfter, testAfter, List.length_append, List.length_singleton,
    if_neg (show ¬ ds.length + 1 < 2 * p.hops.length by omega), if_pos hd',
    if_neg (Nat.not_lt.mpr hd), if_pos (show ds.length < 4 * p.hops.length by omega),
    delivery_append (by omega)]

/-- The test goes to the last relay, which answers it. -/
lemma test_sent (h : Alive S p creator owner mine secrets frames ds w) (hsep : p.Separate)
    (hval : mine.val = p) (he : e.random ≠ -1 ∧ e.relay.created ≠ -1)
    (hd : 2 * p.hops.length ≤ ds.length) (hd' : ds.length < 3 * p.hops.length) :
    Alive S p creator owner mine secrets frames (ds ++ [e]) (w.step S (.deliver e)) := by
  have hpos := length_pos (p := p)
  have hlaid := h.laid hsep hval (show p.hops.length ≤ ds.length by omega)
  have hflight : w.flight = some (.relayed (p.upstreamTo S creator
      (relayAt ds (2 * p.hops.length - 1)).nonce (p.testSent ds).encoding
      (ds.length - 2 * p.hops.length))) := by
    rw [h.flight, flightAfter]
    simp only [if_neg (show ¬ ds.length < p.hops.length by omega),
      if_neg (show ¬ ds.length < 2 * p.hops.length by omega), if_pos hd']
  have hstep : w.step S (.deliver e) = w.handle S e (.relayed (p.upstreamTo S creator
      (relayAt ds (2 * p.hops.length - 1)).nonce (p.testSent ds).encoding
      (ds.length - 2 * p.hops.length))) := by
    rw [PathNetwork.step, hflight]
  have htest : w.tests creator mine.address = p.testAfter (ds ++ [e]) := by
    rw [testAfter_append hd (by omega)]
    exact h.test
  have hidx : ds.length + 1 - 2 * p.hops.length = ds.length - 2 * p.hops.length + 1 := by omega
  -- on its way over the relays, or at the last one, which answers
  by_cases hnext : ds.length + 1 < 3 * p.hops.length
  · rw [hstep, PathNetwork.handle_upstream hlaid (by omega)]
    refine ⟨h.tables_append (by omega), ?_, htest, h.plain_append he⟩
    rw [flightAfter, List.length_append, List.length_singleton]
    simp only [if_neg (show ¬ ds.length + 1 < p.hops.length by omega),
      if_neg (show ¬ ds.length + 1 < 2 * p.hops.length by omega), if_pos hnext, hidx,
      testSent_append hd, relayAt_append (show 2 * p.hops.length - 1 < ds.length by omega)]
  · have hk : ds.length - 2 * p.hops.length + 1 = p.hops.length := by omega
    have hplain := h.plain (delivery ds (2 * p.hops.length - 1)) (delivery_mem (by omega))
    rw [hstep, PathNetwork.handle_farthest hlaid hk, testSent,
      TransitHop.parseMessageBuffer_latency hplain.1, Option.bind_some,
      packet_farthest hlaid hk]
    refine ⟨h.tables_append (by omega), ?_, htest, h.plain_append he⟩
    have hlast : 3 * p.hops.length - 1 = ds.length := by omega
    have hdown : 4 * p.hops.length - 1 - (ds.length + 1) = ds.length - 2 * p.hops.length := by
      omega
    rw [flightAfter, List.length_append, List.length_singleton]
    simp only [if_neg (show ¬ ds.length + 1 < p.hops.length by omega),
      if_neg (show ¬ ds.length + 1 < 2 * p.hops.length by omega), if_neg hnext,
      if_pos (show ds.length + 1 < 4 * p.hops.length by omega), testSent_append hd, hlast, hdown,
      relayAt, delivery_length]
    rfl

/-- The answer comes back to the creator. -/
lemma answered (h : Alive S p creator owner mine secrets frames ds w) (hsep : p.Separate)
    (hval : mine.val = p) (he : e.random ≠ -1 ∧ e.relay.created ≠ -1)
    (hd : 3 * p.hops.length ≤ ds.length) (hd' : ds.length < 4 * p.hops.length) :
    Alive S p creator owner mine secrets frames (ds ++ [e]) (w.step S (.deliver e)) := by
  have hpos := length_pos (p := p)
  have hflight : w.flight = some (.relayed (p.downstreamFrom S creator
      (relayAt ds (3 * p.hops.length - 1)).nonce
      (TransitHop.latencyReply (p.testSent ds)).encoding (4 * p.hops.length - 1 - ds.length))) := by
    rw [h.flight, flightAfter]
    simp only [if_neg (show ¬ ds.length < p.hops.length by omega),
      if_neg (show ¬ ds.length < 2 * p.hops.length by omega), if_neg (Nat.not_lt.mpr hd),
      if_pos hd']
  have htables := h.tables_append (e := e) (show p.hops.length ≤ ds.length by omega)
  -- on its way over the relays, or at the creator
  by_cases hnext : ds.length + 1 < 4 * p.hops.length
  · obtain ⟨k, hk⟩ : ∃ k, 4 * p.hops.length - 1 - ds.length = k + 1 :=
      ⟨4 * p.hops.length - 2 - ds.length, by omega⟩
    rw [hk] at hflight
    rw [h.step_down hsep hval (by omega) hflight (by omega)]
    refine ⟨htables, ?_, ?_, h.plain_append he⟩
    · have hidx : 4 * p.hops.length - 1 - (ds.length + 1) = k := by omega
      rw [flightAfter, List.length_append, List.length_singleton]
      simp only [if_neg (show ¬ ds.length + 1 < p.hops.length by omega),
        if_neg (show ¬ ds.length + 1 < 2 * p.hops.length by omega),
        if_neg (show ¬ ds.length + 1 < 3 * p.hops.length by omega), if_pos hnext, hidx,
        testSent_append (show 2 * p.hops.length ≤ ds.length by omega),
        relayAt_append (show 3 * p.hops.length - 1 < ds.length by omega)]
    · rw [testAfter_append (by omega) hnext]
      exact h.test
  · have hzero : 4 * p.hops.length - 1 - ds.length = 0 := by omega
    have hlast : 4 * p.hops.length - 1 = ds.length := by omega
    rw [hzero] at hflight
    have hplain := h.plain (delivery ds (2 * p.hops.length - 1)) (delivery_mem (by omega))
    have hmsg : (e.arrival (TransitHop.latencyReply (p.testSent ds)).encoding).message =
        some (.pathLatency (TransitHop.latencyReply (p.testSent ds))) :=
      message_latency (T := 0) hplain.1 (by decide)
    -- the answer carries the number of the test, which is under way since the confirmation
    have hanswers : (e.arrival (TransitHop.latencyReply (p.testSent ds)).encoding).Answers
        (p.testAfter ds).lastLatencyTestID := by
      refine ⟨_, hmsg, ?_⟩
      rw [testAfter, if_neg (show ¬ ds.length < 2 * p.hops.length by omega), if_pos hd']
      rfl
    rw [h.step_creator hsep hval (by omega) hflight, reply_latency hmsg,
      PathTest.step_of_answers hanswers]
    refine ⟨htables, ?_, ?_, h.plain_append he⟩
    · rw [flightAfter, List.length_append, List.length_singleton]
      simp only [if_neg (show ¬ ds.length + 1 < p.hops.length by omega),
        if_neg (show ¬ ds.length + 1 < 2 * p.hops.length by omega),
        if_neg (show ¬ ds.length + 1 < 3 * p.hops.length by omega), if_neg hnext]
      rfl
    · rw [testAfter, testAfter, List.length_append, List.length_singleton,
        if_neg (show ¬ ds.length < 2 * p.hops.length by omega), if_pos hd',
        if_neg (show ¬ ds.length + 1 < 2 * p.hops.length by omega), if_neg hnext, hlast,
        delivery_length, delivery_append (by omega)]
      simp [Surroundings.arrival]

/-- Nothing is under way any more. -/
lemma done (h : Alive S p creator owner mine secrets frames ds w)
    (he : e.random ≠ -1 ∧ e.relay.created ≠ -1) (hd : 4 * p.hops.length ≤ ds.length) :
    Alive S p creator owner mine secrets frames (ds ++ [e]) (w.step S (.deliver e)) := by
  have hpos := length_pos (p := p)
  have hnone : ∀ l : List Surroundings, ds.length ≤ l.length →
      p.flightAfter S creator frames l = none := by
    intro l hl
    rw [flightAfter]
    simp only [if_neg (show ¬ l.length < p.hops.length by omega),
      if_neg (show ¬ l.length < 2 * p.hops.length by omega),
      if_neg (show ¬ l.length < 3 * p.hops.length by omega),
      if_neg (show ¬ l.length < 4 * p.hops.length by omega)]
  have hstep : w.step S (.deliver e) = w := by
    rw [PathNetwork.step, h.flight, hnone ds le_rfl]
  rw [hstep]
  refine ⟨h.tables_append (by omega), ?_, ?_, h.plain_append he⟩
  · rw [h.flight, hnone ds le_rfl, hnone _ (by simp)]
  · rw [h.test, testAfter, testAfter, List.length_append, List.length_singleton,
      if_neg (show ¬ ds.length < 2 * p.hops.length by omega), if_neg (Nat.not_lt.mpr hd),
      if_neg (show ¬ ds.length + 1 < 2 * p.hops.length by omega),
      if_neg (show ¬ ds.length + 1 < 4 * p.hops.length by omega),
      delivery_append (show 2 * p.hops.length - 1 < ds.length by omega),
      delivery_append (show 4 * p.hops.length - 1 < ds.length by omega)]

/-- A step for others. -/
lemma others (h : Alive S p creator owner mine secrets frames ds w) {i : NetworkStep}
    (hi : w.ForOthers S p.allIds i) (hnone : deliveries [i] = []) :
    Alive S p creator owner mine secrets frames (ds ++ deliveries [i]) (w.step S i) := by
  obtain ⟨hlike, htests, hflight⟩ := PathNetwork.step_alike hi hnone
  rw [hnone, List.append_nil]
  refine ⟨h.tables.alike hlike, hflight.trans h.flight, ?_, h.plain⟩
  rw [htests]
  exact h.test

/-- A delivery. -/
lemma deliver (h : Alive S p creator owner mine secrets frames ds w)
    (hmade : Made S secrets p₀ p frames) (hsep : p.Separate) (hval : mine.val = p)
    (he : e.random ≠ -1 ∧ e.relay.created ≠ -1) :
    Alive S p creator owner mine secrets frames (ds ++ [e]) (w.step S (.deliver e)) := by
  by_cases h₁ : ds.length < p.hops.length
  · exact h.commit hmade hsep hval he h₁
  by_cases h₂ : ds.length < 2 * p.hops.length
  · exact h.confirm hsep hval he (Nat.le_of_not_lt h₁) h₂
  by_cases h₃ : ds.length < 3 * p.hops.length
  · exact h.test_sent hsep hval he (Nat.le_of_not_lt h₂) h₃
  by_cases h₄ : ds.length < 4 * p.hops.length
  · exact h.answered hsep hval he (Nat.le_of_not_lt h₃) h₄
  · exact h.done he (Nat.le_of_not_lt h₄)

/-- A step, for the path or for others. -/
lemma step (h : Alive S p creator owner mine secrets frames ds w)
    (hmade : Made S secrets p₀ p frames) (hsep : p.Separate) (hval : mine.val = p)
    {i : NetworkStep} (hi : w.ForOthers S p.allIds i) :
    Alive S p creator owner mine secrets frames (ds ++ deliveries [i]) (w.step S i) := by
  cases i with
  | deliver e => exact h.deliver hmade hsep hval hi
  | commit r m => exact h.others hi rfl
  | addOwnPath r owner path => exact h.others hi rfl
  | expirePaths r now expired => exact h.others hi rfl

/-- A run. -/
lemma run (h : Alive S p creator owner mine secrets frames ds w)
    (hmade : Made S secrets p₀ p frames) (hsep : p.Separate) (hval : mine.val = p)
    (is : List NetworkStep)
    (his : Along (PathNetwork.step S) (PathNetwork.ForOthers S p.allIds) w is) :
    Alive S p creator owner mine secrets frames (ds ++ deliveries is)
      (is.foldl (PathNetwork.step S) w) := by
  induction is generalizing ds w with
  | nil => simpa [deliveries] using h
  | cons i is ih =>
      have hnext := ih (h.step hmade hsep hval his.1) his.2
      rwa [List.append_assoc, deliveries, ← List.filterMap_append] at hnext

end Alive

/-- The ids of a path are those that the constructor gave its hops. -/
lemma SameHops.ids_eq (h : SameHops p₀ p) (k : ℕ) : p.ids k = p₀.ids k := by
  rw [ids, ids, h.txID, h.rxID]

lemma SameHops.allIds_eq (h : SameHops p₀ p) : p.allIds = p₀.allIds := by
  rw [allIds, allIds, h.length]
  exact List.flatMap_congr fun k _ => h.ids_eq k

lemma SameHops.separate (h : SameHops p₀ p) (hsep : p₀.Separate) : p.Separate := by
  intro k hk k' hk' hr hne
  rw [h.length] at hk hk'
  rw [h.router, h.router] at hr
  rw [h.ids_eq, h.ids_eq]
  exact hsep k hk k' hk' hr hne

/-- The creator adds the path, whose ids nobody uses. -/
lemma tables_addOwnPath {routers : PubKey → PathContext} {relay : ℕ → RelayRandom}
    (hsame : SameHops p₀ mine.val) (hrouter : ∀ r, (routers r).ourRouterID = r)
    (hwilling : ∀ k < p₀.hops.length,
      p₀.Willing S (secrets k) k (routers (p₀.hop k).router.pubkey))
    (hunused : ∀ r, (routers r).Unused mine.val.allIds) :
    Tables S mine.val creator owner mine secrets relay 0
      (Function.update routers creator ((routers creator).addOwnPath owner mine)) := by
  set added := (routers creator).addOwnPath owner mine
  have hrx : mine.val.RXID ∈ mine.val.allIds := mem_allIds length_pos RXID_mem
  have hkey : (mine.val.Upstream, mine.val.RXID) ∉ ((routers creator).sets owner).paths := by
    rw [← AList.lookup_eq_none]
    exact (hunused creator).sets _ hrx owner _
  have hset : (added.sets owner).paths =
      ((routers creator).sets owner).paths.insert (mine.val.Upstream, mine.val.RXID) mine := by
    rw [PathContext.sets_addOwnPath, Function.update_self, PathSet.addPath_of_notMem hkey]
    rfl
  obtain ⟨hid, henc, hallow, htransit⟩ := (routers creator).addOwnPath_fields owner mine
  -- whatever the creator's tables change, its identity and its hops stay
  have hsplit : ∀ r, Function.update routers creator added r = routers r ∨
      r = creator ∧ Function.update routers creator added r = added := by
    intro r
    by_cases hr : r = creator
    · exact .inr ⟨hr, by rw [hr, Function.update_self]⟩
    · exact .inl (Function.update_of_ne hr ..)
  refine ⟨fun r => ?_, fun k hk => ?_, ?_, fun k hk id hkid hop => ?_, fun k hk id hkid s hs => ?_,
    fun k hk id hkid remote path hpath => ?_⟩
  · rcases hsplit r with heq | ⟨rfl, heq⟩
    · exact (congrArg _ heq).trans (hrouter r)
    · exact (congrArg _ heq).trans (hid.trans (hrouter r))
  · have hk₀ : k < p₀.hops.length := hsame.length ▸ hk
    have hwill := hwilling k hk₀
    rw [← hsame.router k] at hwill
    rcases hsplit (mine.val.hop k).router.pubkey with heq | ⟨hr, heq⟩
    · rw [heq]
      exact ⟨hwill.encryption, hwill.allowTransit⟩
    · rw [heq, henc, hallow, ← hr]
      exact ⟨hwill.encryption, hwill.allowTransit⟩
  · rw [Function.update_self, PathContext.lookup_addOwnPath, (hunused creator).ourPaths _ hrx,
      if_pos (.inr rfl), hset, AList.lookup_insert]
    exact ⟨rfl, rfl⟩
  -- no relay has a hop yet, since nobody uses the ids
  · have hnot : (id, hop) ∉ (Function.update routers creator added
        (mine.val.hop k).router.pubkey).transitPaths := by
      rcases hsplit (mine.val.hop k).router.pubkey with heq | ⟨hr, heq⟩
      · rw [heq]
        exact (hunused _).transitPaths id (mem_allIds hk hkid) hop
      · rw [heq, htransit]
        exact (hunused _).transitPaths id (mem_allIds hk hkid) hop
    exact iff_of_false hnot fun h => absurd h.1 (Nat.not_lt_zero k)
  · rcases hsplit (mine.val.hop k).router.pubkey with heq | ⟨hr, heq⟩
    · rw [heq, (hunused _).ourPaths id (mem_allIds hk hkid)] at hs
      cases hs
    · rw [heq, PathContext.lookup_addOwnPath, (hunused _).ourPaths id (mem_allIds hk hkid),
        Option.none_or] at hs
      split_ifs at hs
      exact ⟨hr, (Option.some.inj hs).symm⟩
  · rw [Function.update_self, hset] at hpath
    by_cases heq : (remote, id) = (mine.val.Upstream, mine.val.RXID)
    · rw [heq, AList.lookup_insert] at hpath
      obtain ⟨hremote, hrxid⟩ := Prod.mk.inj heq
      exact ⟨(Option.some.inj hpath).symm, hremote, hrxid⟩
    · rw [AList.lookup_insert_ne heq, (hunused _).sets id (mem_allIds hk hkid)] at hpath
      cases hpath

/-- The creator sends the frames. -/
lemma alive_build {routers : PubKey → PathContext} (tests : PubKey → ℕ → PathTest)
    (hsame : SameHops p₀ p) (hval : mine.val = p) (hrouter : ∀ r, (routers r).ourRouterID = r)
    (hwilling : ∀ k < p₀.hops.length,
      p₀.Willing S (secrets k) k (routers (p₀.hop k).router.pubkey))
    (hunused : ∀ r, (routers r).Unused p.allIds) :
    Alive S p creator owner mine secrets frames []
      (PathNetwork.build routers tests creator owner mine frames) := by
  subst hval
  refine ⟨tables_addOwnPath hsame hrouter hwilling hunused, ?_, ?_,
    fun _ h => absurd h List.not_mem_nil⟩
  · have hpos : ([] : List Surroundings).length < mine.val.hops.length := length_pos
    rw [flightAfter, if_pos hpos, commitTo, List.length_nil, hop_zero, framesAt_zero]
    rfl
  · have hpos : ([] : List Surroundings).length < 2 * mine.val.hops.length :=
      Nat.mul_pos zero_lt_two length_pos
    rw [testAfter, if_pos hpos]
    simp [PathNetwork.build]

end Phases

/-- A path that can be built, with ids that nobody uses: whatever the routers do for others between
the deliveries, the message under way is the one of `flightAfter`. The first deliveries lay the
path, the next ones confirm it, and after `4 * n` of them over `n` hops nothing is under way and the
creator knows the time from the test to its answer. -/
theorem path_comes_alive (S : Sodium) (p₀ : Path) (creator : PubKey) (owner address : ℕ)
    (secrets : ℕ → Blob 32) (random : ℕ → HopRandom) (junk : ℕ → Blob frameSize)
    (routers : PubKey → PathContext) (tests : PubKey → ℕ → PathTest)
    (h : p₀.Buildable S secrets random fun _ => routers) (hsep : p₀.Separate)
    (hrouter : ∀ r, (routers r).ourRouterID = r) (hunused : ∀ r, (routers r).Unused p₀.allIds) :
    ∃ p frames, p₀.generate S random junk = some (p, frames) ∧ SameHops p₀ p ∧
      ∀ is : List NetworkStep, Along (PathNetwork.step S) (PathNetwork.ForOthers S p₀.allIds)
        (.build routers tests creator owner ⟨address, p⟩ frames) is →
      let w := is.foldl (PathNetwork.step S)
        (.build routers tests creator owner ⟨address, p⟩ frames)
      let ds := deliveries is
      let n := p₀.hops.length
      let sent := delivery ds (2 * n - 1)
      w.flight = p.flightAfter S creator frames ds ∧
        (w.flight = none ↔ 4 * n ≤ ds.length) ∧
        (n ≤ ds.length → p.Laid creator owner ⟨address, p⟩
          (fun k => p.relayHop creator (relayAt ds k) k) w.routers) ∧
        ((w.tests creator address).status = .established ↔ 2 * n ≤ ds.length) ∧
        (4 * n ≤ ds.length →
          (w.tests creator address).latency = (delivery ds (4 * n - 1)).now - sent.now ∧
          (w.tests creator address).log = [.sent sent.random, .answered sent.random]) := by
  obtain ⟨p, frames, hgenerate, hsame, hcount, hsize, hgen⟩ := generate_spec junk h.length h.keyed
  refine ⟨p, frames, hgenerate, hsame, fun is his => ?_⟩
  have hmade : Made S secrets p₀ p frames := ⟨h.length, h.adjacent, hsame, hcount, hsize, hgen⟩
  rw [← hsame.allIds_eq] at his hunused
  have hstart : Alive S p creator owner ⟨address, p⟩ secrets frames []
      (PathNetwork.build routers tests creator owner ⟨address, p⟩ frames) :=
    alive_build tests hsame rfl hrouter h.willing hunused
  have hrun := hstart.run hmade (hsame.separate hsep) rfl is his
  rw [List.nil_append] at hrun
  rw [← hsame.length]
  have hpos := length_pos (p := p)
  refine ⟨hrun.flight, ?_, fun hn => hrun.laid (hsame.separate hsep) rfl hn, ?_, fun hn => ?_⟩
  · rw [hrun.flight, flightAfter]
    dsimp only
    split_ifs <;> simp <;> omega
  · rw [hrun.test, testAfter]
    dsimp only
    split_ifs <;> simp <;> omega
  · rw [hrun.test, testAfter, if_neg (show ¬ (deliveries is).length < 2 * p.hops.length by omega),
      if_neg (Nat.not_lt.mpr hn)]
    exact ⟨rfl, rfl⟩

/-- The clock shows 5 and the number that is drawn is 7. -/
def atFive : Surroundings := ⟨zeroRelay, 5, 7⟩

theorem path_comes_alive_two : ∃ p frames,
    overBobs.generate Handshake.twoKeys (fun _ => aliceHop) (fun _ => zeroBlob frameSize) =
      some (p, frames) ∧
    let w := (List.replicate 8 (NetworkStep.deliver atFive)).foldl
      (PathNetwork.step Handshake.twoKeys)
      (.build bobContext (fun _ _ => { status := .building }) (someRouter 9).pubkey 0 ⟨0, p⟩ frames)
    w.flight = p.flightAfter Handshake.twoKeys (someRouter 9).pubkey frames
        (List.replicate 8 atFive) ∧
      w.flight = none ∧ (w.tests (someRouter 9).pubkey 0).status = .established ∧
      (w.tests (someRouter 9).pubkey 0).log = [.sent 7, .answered 7] := by
  have hsep : overBobs.Separate := by
    intro k hk k' hk' hr hne
    obtain rfl | rfl := overBobs_lt hk <;> obtain rfl | rfl := overBobs_lt hk' <;>
      first | exact absurd rfl hne | exact absurd hr (by decide +kernel)
  obtain ⟨p, frames, hgenerate, -, hrun⟩ := path_comes_alive Handshake.twoKeys overBobs
    (someRouter 9).pubkey 0 0 (fun _ => Handshake.bobSeed) (fun _ => aliceHop)
    (fun _ => zeroBlob frameSize) bobContext (fun _ _ => { status := .building })
    (overBobs_buildable _ fun _ _ => ⟨rfl, rfl, rfl⟩) hsep (fun _ => rfl)
    (fun _ => ⟨fun _ _ _ h => (nomatch h), fun _ _ => rfl, fun _ _ _ _ => rfl⟩)
  refine ⟨p, frames, hgenerate, ?_⟩
  have hplain : atFive.random ≠ -1 ∧ atFive.relay.created ≠ -1 := by decide
  obtain ⟨hafter, hflight, -, hstatus, htested⟩ := hrun (List.replicate 8 (.deliver atFive))
    ⟨hplain, hplain, hplain, hplain, hplain, hplain, hplain, hplain, trivial⟩
  have htwo : overBobs.hops.length = 2 := by decide
  rw [htwo] at hflight hstatus htested
  exact ⟨hafter, hflight.mpr (by decide), hstatus.mpr (by decide), (htested (by decide)).2⟩

end Path

end Udap
