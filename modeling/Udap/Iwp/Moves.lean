import Udap.Iwp.Receive

/-!
What a session can do, said once.

Every handler of `session` and `frame_state` is a sequence of a few elementary moves: storing,
acking, handing over and dropping an inbound message, retiring and retransmitting an outbound
one, sending, changes of flags, and others that concern no message (`Idle`). `Stable` lists them,
relative to the ids of inbound and outbound messages the handler may touch. A property that the
moves keep is
kept by every handler: `Stable.process`, `Stable.handleFrameDecrypt`, `Stable.tick`,
`Stable.sendLIM`, `Stable.sendKeepalive`.

No assumption is made on the frames, which may be arbitrary bytes.
-/

namespace Udap.Iwp

open ByteMem TransitMessage

/-- The message id a `FRAG` or `ACKS` frame carries. -/
def bodyId (buf : Bytes) : UInt64 := UInt64.ofNat (leNat (hdrData buf 0 8))

namespace Session

variable {σ : Type}

/-- Nothing that concerns a message or a flag differs: the state, the contact data, the time of
the last event and the queued jobs may, and frames may have moved on to the network. -/
structure Idle (s s' : Session σ) : Prop where
  rx : s'.frame.rx = s.frame.rx
  tx : s'.frame.tx = s.frame.tx
  rxflags : s'.frame.rxflags = s.frame.rxflags
  txflags : s'.frame.txflags = s.frame.txflags
  handed : s'.handed = s.handed
  queued : s'.queued = s.queued
  frames : s'.outbound ++ s'.frame.sendqueue = s.outbound ++ s.frame.sendqueue
  outbound : s.outbound ⊆ s'.outbound

lemma Idle.enterState (s : Session σ) (now : UInt64) (st : State) : Idle s (s.enterState now st) :=
  ⟨rfl, rfl, rfl, rfl, rfl, rfl, rfl, List.Subset.refl _⟩

lemma Idle.peer (s : Session σ) (p : σ) : Idle s { s with peer := p } :=
  ⟨rfl, rfl, rfl, rfl, rfl, rfl, rfl, List.Subset.refl _⟩

lemma Idle.jobs (s : Session σ) (j : ℕ) : Idle s { s with keepaliveJobs := j } :=
  ⟨rfl, rfl, rfl, rfl, rfl, rfl, rfl, List.Subset.refl _⟩

lemma Idle.alive (s : Session σ) (now : UInt64) : Idle s { s with frame := s.frame.alive now } :=
  ⟨rfl, rfl, rfl, rfl, rfl, rfl, rfl, List.Subset.refl _⟩

lemma Idle.pump (s : Session σ) : Idle s s.pump :=
  ⟨rfl, rfl, rfl, rfl, rfl, rfl, List.append_nil _, List.subset_append_left _ _⟩

/-- What follows `process` in `handle_frame_decrypt` concerns no message. -/
lemma Idle.of_process {s : Session σ} {now : UInt64} {r : Session σ × Bool}
    (h : s = r.1 ∨ s = { r.1 with frame := r.1.frame.alive now }.pump) : Idle r.1 s := by
  obtain rfl | rfl := h
  · exact ⟨rfl, rfl, rfl, rfl, rfl, rfl, rfl, List.Subset.refl _⟩
  · exact ⟨rfl, rfl, rfl, rfl, rfl, rfl, List.append_nil _, List.subset_append_left _ _⟩

/-- The property `P` is kept by every elementary move that touches only inbound messages with an
id in `R` and acks only outbound messages with an id in `T`; `invalid` is what has to hold for
the peer's invalidation to be noted. -/
structure Stable (env : LinkEnv σ) (R T : UInt64 → Prop) (invalid : Prop)
    (P : Session σ → Prop) : Prop where
  send : ∀ s m, P s → P (s.sendto env m)
  idle : ∀ s s', Idle s s' → P s → P s'
  rxflag : ∀ s, invalid → P s → P s.flaggedRx
  txflag : ∀ s, P s → P s.flaggedTx
  aliv : ∀ s, P s → P s.keeping
  store : ∀ s id t, R id → P s → P (s.stored id t)
  ackfor : ∀ s id mask, R id → P s → P (s.acking id mask)
  hand : ∀ s id m, R id → P s → P (s.handing id m)
  forget : ∀ s id, R id → P s → P (s.eraseRx id)
  retire : ∀ s id, T id → P s → P (s.retired id)
  acked : ∀ s id t mask, T id → s.frame.tx.lookup id = some t → P s → P (s.noting id (t.ack mask))
  resend : ∀ s id t frames, s.frame.tx.lookup id = some t →
    t.retransmitFrags s.frame.txflags = .ok frames → P s → P (s.queueing frames)

/-- What a computation that did not fault has computed on the way. -/
lemma bind_eq_ok {α β : Type} {x : Except Fault α} {f : α → Except Fault β} {b : β}
    (h : x >>= f = .ok b) : ∃ a, x = .ok a ∧ f a = .ok b := by
  cases x with
  | error e => cases h
  | ok a => exact ⟨a, rfl, h⟩

section Inversion

variable {env : LinkEnv σ} {s : Session σ} {now : UInt64} {buf : Bytes} {sz : ℕ}
  {r : Session σ × Bool}

/-- `inbound_frame_complete` keeps the message, drops it, or hands it over. -/
lemma inboundFrameComplete_inv {id : UInt64} (hr : s.inboundFrameComplete env now id = .ok r) :
    r.1 = s ∨ r.1 = s.eraseRx id ∨
      ∃ msg, r.1 = (s.completeMessage env now id msg).1.eraseRx id := by
  rw [inboundFrameComplete] at hr
  split at hr
  · cases hr
  · obtain ⟨o, -, hr⟩ := bind_eq_ok hr
    cases o with
    | none =>
        obtain rfl := Except.ok.inj hr
        exact .inr (.inl rfl)
    | some msg =>
        simp only at hr
        split_ifs at hr
        · obtain rfl := Except.ok.inj hr
          exact .inl rfl
        · obtain rfl := Except.ok.inj hr
          exact .inr (.inr ⟨msg, rfl⟩)

/-- `got_xmit` refuses the frame, or makes a new entry which may be complete at once. -/
lemma gotXmit_inv (hr : s.gotXmit env now buf sz = .ok r) :
    let id := (Xmit.ofFrame buf).msgid
    r.1 = s ∨ (id ∉ s.frame.rx ∧ ∃ msg, r.1 = (s.stored id msg).acking id 0 ∨
      ((s.stored id msg).acking id 0).inboundFrameComplete env now id = .ok r) := by
  intro id
  simp only [gotXmit] at hr
  split_ifs at hr with _ _ _ hin
  · exact .inl (by rw [← Except.ok.inj hr])
  · exact .inl (by rw [← Except.ok.inj hr])
  · exact .inl (by rw [← Except.ok.inj hr])
  · exact .inl (by rw [← Except.ok.inj hr])
  · exact .inr ⟨hin, _, .inr hr⟩
  · exact .inr ⟨hin, _, .inl (by rw [← Except.ok.inj hr])⟩

/-- `got_frag` refuses the frame, or updates an entry, which may be acked and may be complete. -/
lemma gotFrag_inv (hr : s.gotFrag env now buf sz = .ok r) :
    let id := bodyId buf
    r.1 = s ∨ (id ∈ s.frame.rx ∧ ∃ msg, r.1 = s.stored id msg ∨
      r.1 = (s.stored id msg).acking id msg.getBitmask ∨
      ((s.stored id msg).acking id msg.getBitmask).inboundFrameComplete env now id = .ok r) := by
  intro id
  simp only [gotFrag] at hr
  split_ifs at hr
  · exact .inl (by rw [← Except.ok.inj hr])
  · exact .inl (by rw [← Except.ok.inj hr])
  · split at hr
    · exact .inl (by rw [← Except.ok.inj hr])
    · rename_i msg hl
      have hin : id ∈ s.frame.rx := AList.lookup_isSome.mp (Option.isSome_of_eq_some hl)
      split_ifs at hr
      · exact .inl (by rw [← Except.ok.inj hr])
      · obtain ⟨o, -, hr⟩ := bind_eq_ok hr
        cases o with
        | none => exact .inl (by rw [← Except.ok.inj hr])
        | some msg' =>
            obtain ⟨b, -, hr⟩ := bind_eq_ok hr
            split_ifs at hr
            · exact .inr ⟨hin, msg', .inr (.inr hr)⟩
            · exact .inr ⟨hin, msg', .inr (.inl (by rw [← Except.ok.inj hr]; rfl))⟩
            · exact .inr ⟨hin, msg', .inl (by rw [← Except.ok.inj hr]; rfl)⟩

/-- `got_acks` refuses or ignores the frame, retires the message, or notes what was acked and
queues what is missing. -/
lemma gotAcks_inv (hr : s.gotAcks buf sz = .ok r) :
    let id := bodyId buf
    r.1 = s ∨ r.1 = s.retired id ∨ ∃ t mask frames, s.frame.tx.lookup id = some t ∧
      (t.ack mask).retransmitFrags s.frame.txflags = .ok frames ∧
      r.1 = (s.noting id (t.ack mask)).queueing frames := by
  intro id
  simp only [gotAcks] at hr
  split_ifs at hr
  · exact .inl (by rw [← Except.ok.inj hr])
  · exact .inl (by rw [← Except.ok.inj hr])
  · split at hr
    · exact .inl (by rw [← Except.ok.inj hr])
    · rename_i msg hl
      obtain ⟨b, -, hr⟩ := bind_eq_ok hr
      split_ifs at hr
      · exact .inr (.inl (by rw [← Except.ok.inj hr]; rfl))
      · obtain ⟨frames, hf, hr⟩ := bind_eq_ok hr
        exact .inr (.inr ⟨msg, _, frames, hl, hf, by rw [← Except.ok.inj hr]; rfl⟩)

end Inversion

namespace Stable

variable {env : LinkEnv σ} {R T : UInt64 → Prop} {invalid : Prop} {P : Session σ → Prop}
  (h : Stable env R T invalid P) {s : Session σ} {now : UInt64} {buf : Bytes} {sz : ℕ}

include h

/-- `close` is a change of our flags and a queued job. -/
lemma close (hs : P s) : P s.close :=
  h.idle _ _ (.jobs _ _) (h.txflag _ hs)

lemma sendLIM (hs : P s) : P (s.sendLIM env now) := by
  rw [Session.sendLIM]
  split
  · exact h.idle _ _ (.enterState _ _ _) (h.send _ _ hs)
  · exact hs

lemma sessionEstablished (hs : P s) : P (s.sessionEstablished env now) :=
  h.idle _ _ (.peer _ _) (h.idle _ _ (.enterState _ _ _) hs)

lemma completeMessage {id : UInt64} (hid : R id) (msg : Bytes) (hs : P s) :
    P (s.completeMessage env now id msg).1 :=
  completeMessage_rule env now (fun s m => h.send s m)
    (fun s st => h.idle _ _ (.enterState s now st)) (fun s p => h.idle _ _ (.peer s p))
    (fun _ hs => h.close hs) (h.hand _ id msg hid hs)

lemma inboundFrameComplete {id : UInt64} (hid : R id) {r : Session σ × Bool}
    (hr : s.inboundFrameComplete env now id = .ok r) (hs : P s) : P r.1 := by
  obtain he | he | ⟨msg, he⟩ := inboundFrameComplete_inv hr
  · rw [he]
    exact hs
  · rw [he]
    exact h.forget _ _ hid hs
  · rw [he]
    exact h.forget _ _ hid (h.completeMessage hid msg hs)

lemma gotXmit (hid : R (Xmit.ofFrame buf).msgid) {r : Session σ × Bool}
    (hr : s.gotXmit env now buf sz = .ok r) (hs : P s) : P r.1 := by
  obtain he | ⟨-, msg, he | he⟩ := gotXmit_inv hr
  · rw [he]
    exact hs
  · rw [he]
    exact h.ackfor _ _ 0 hid (h.store _ _ msg hid hs)
  · exact h.inboundFrameComplete hid he (h.ackfor _ _ 0 hid (h.store _ _ msg hid hs))

lemma gotFrag (hid : R (bodyId buf)) {r : Session σ × Bool}
    (hr : s.gotFrag env now buf sz = .ok r) (hs : P s) : P r.1 := by
  obtain he | ⟨-, msg, he | he | he⟩ := gotFrag_inv hr
  · rw [he]
    exact hs
  · rw [he]
    exact h.store _ _ msg hid hs
  · rw [he]
    exact h.ackfor _ _ _ hid (h.store _ _ msg hid hs)
  · exact h.inboundFrameComplete hid he (h.ackfor _ _ _ hid (h.store _ _ msg hid hs))

lemma gotAcks (hid : T (bodyId buf)) {r : Session σ × Bool}
    (hr : s.gotAcks buf sz = .ok r) (hs : P s) : P r.1 := by
  obtain he | he | ⟨t, mask, frames, hl, hf, he⟩ := gotAcks_inv hr
  · rw [he]
    exact hs
  · rw [he]
    exact h.retire _ _ hid hs
  · rw [he]
    exact h.resend (s.noting (bodyId buf) _) (bodyId buf) _ frames (AList.lookup_insert _) hf
      (h.acked _ _ _ _ hid hl hs)

lemma noteFlags (hfl : hdrFlags buf &&& eSessionInvalidated ≠ 0 → invalid) (hs : P s) :
    P (s.noteFlags buf) := by
  rw [Session.noteFlags]
  split_ifs with hf
  · exact hs
  · exact h.rxflag _ (hfl hf) hs

/-- `process` on any bytes, given the ids they name. -/
lemma process (hx : MsgType.ofByte (hdrMsgtype buf) = some .eXMIT → R (Xmit.ofFrame buf).msgid)
    (hfr : MsgType.ofByte (hdrMsgtype buf) = some .eFRAG → R (bodyId buf))
    (ha : MsgType.ofByte (hdrMsgtype buf) = some .eACKS → T (bodyId buf))
    (hfl : hdrFlags buf &&& eSessionInvalidated ≠ 0 → invalid) {r : Session σ × Bool}
    (hr : s.process env now buf sz = .ok r) (hs : P s) : P r.1 := by
  have hn := h.noteFlags hfl hs
  rw [Session.process] at hr
  split at hr
  · obtain rfl := Except.ok.inj hr
    simp only [Session.gotAliv]
    split_ifs
    · exact hn
    · exact h.txflag _ hn
  · rename_i ht
    exact h.gotXmit (hx ht) hr hn
  · rename_i ht
    exact h.gotAcks (ha ht) hr hn
  · rename_i ht
    exact h.gotFrag (hfr ht) hr hn
  · obtain rfl := Except.ok.inj hr
    exact hn

omit h in
/-- `handle_frame_decrypt` is `process`, then on success a new time stamp and `pump`. -/
lemma handleFrameDecrypt_inv {s' : Session σ} (hr : s.handleFrameDecrypt env now buf = .ok s') :
    ∃ r, s.process env now buf buf.length = .ok r ∧
      (s' = r.1 ∨ s' = { r.1 with frame := r.1.frame.alive now }.pump) := by
  rw [Session.handleFrameDecrypt] at hr
  obtain ⟨r, hp, hr⟩ := bind_eq_ok hr
  refine ⟨r, hp, ?_⟩
  split_ifs at hr
  · exact .inr (Except.ok.inj hr).symm
  · exact .inl (Except.ok.inj hr).symm

lemma handleFrameDecrypt
    (hx : MsgType.ofByte (hdrMsgtype buf) = some .eXMIT → R (Xmit.ofFrame buf).msgid)
    (hfr : MsgType.ofByte (hdrMsgtype buf) = some .eFRAG → R (bodyId buf))
    (ha : MsgType.ofByte (hdrMsgtype buf) = some .eACKS → T (bodyId buf))
    (hfl : hdrFlags buf &&& eSessionInvalidated ≠ 0 → invalid) {s' : Session σ}
    (hr : s.handleFrameDecrypt env now buf = .ok s') (hs : P s) : P s' := by
  obtain ⟨r, hp, rfl | rfl⟩ := handleFrameDecrypt_inv hr
  · exact h.process hx hfr ha hfl hp hs
  · exact h.idle _ _ (.pump _) (h.idle _ _ (.alive _ _) (h.process hx hfr ha hfl hp hs))

lemma sendKeepalive (hs : P s) : P s.sendKeepalive := by
  rw [Session.sendKeepalive]
  split_ifs
  · exact hs
  · exact h.idle _ _ (.pump _) (h.aliv _ hs)

/-- The loop of `retransmit`: the frames of a suffix of the messages of `tx`. -/
lemma retransmitEntries {l : List (Sigma fun _ : UInt64 => TransitMessage)}
    (hl : ∀ e ∈ l, s.frame.tx.lookup e.1 = some e.2) {frames : List Bytes}
    (hr : FrameState.retransmitEntries s.frame.txflags l = .ok frames) (hs : P s) :
    P (s.queueing frames) := by
  induction l generalizing s frames with
  | nil =>
      obtain rfl := Except.ok.inj hr
      simpa [queueing] using hs
  | cons e l ih =>
      obtain ⟨id, msg⟩ := e
      rw [FrameState.retransmitEntries] at hr
      obtain ⟨fs, hf, hr⟩ := bind_eq_ok hr
      obtain ⟨more, hm, hr⟩ := bind_eq_ok hr
      obtain rfl := Except.ok.inj hr
      have h1 := h.resend s id msg fs (hl ⟨id, msg⟩ List.mem_cons_self) hf hs
      have h2 := ih (s := s.queueing fs) (fun e he => hl e (List.mem_cons_of_mem _ he)) hm h1
      simpa [queueing, List.append_assoc] using h2

lemma tickLive {s' : Session σ} (hr : s.tickLive = .ok s') (hs : P s) : P s' := by
  have hk : P (if s.state = .eEstablished ∨ s.state = .eLIMSent then s.sendKeepalive else s) := by
    split_ifs
    · exact h.sendKeepalive hs
    · exact hs
  rw [Session.tickLive] at hr
  generalize (if s.state = .eEstablished ∨ s.state = .eLIMSent then s.sendKeepalive else s) =
    s₁ at hr hk
  split_ifs at hr
  · obtain ⟨frame, hf, hr⟩ := bind_eq_ok hr
    obtain ⟨frames, hframes, hf⟩ := bind_eq_ok hf
    obtain rfl := Except.ok.inj hf
    obtain rfl := Except.ok.inj hr
    exact h.idle _ _ (.pump _)
      (h.retransmitEntries (fun e he => AList.mem_lookup_iff.mpr he) hframes hk)
  · obtain rfl := Except.ok.inj hr
    exact hk

lemma tick {working : Bool} {r : Session σ × Bool} (hr : s.tick now working = .ok r)
    (hs : P s) : P r.1 := by
  rw [Session.tick] at hr
  split_ifs at hr
  · obtain rfl := Except.ok.inj hr
    exact hs
  · obtain rfl := Except.ok.inj hr
    exact hs
  · obtain ⟨s₁, hl, hr⟩ := bind_eq_ok hr
    obtain rfl := Except.ok.inj hr
    exact h.tickLive hl hs

end Stable

end Session

end Udap.Iwp
