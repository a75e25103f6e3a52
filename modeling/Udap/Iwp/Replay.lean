import Udap.Iwp.Exchange

/-!
How often a message is handed over.

`got_xmit` recognises a second `XMIT` frame for an id only as long as the message is in `rx`. A
copy that arrives after the message was complete makes a new entry, and the message is handed
over again (`replayed_xmit_hands_twice`). An end that is never delivered an `XMIT` frame for an
id it has already been handed is handed each id at most once (`handed_at_most_once`).
-/

namespace Udap.Iwp

open ByteMem TransitMessage

/-- The event delivers no `XMIT` frame for `id` to an end `p` that has been handed `id`. -/
def NoReplay {σ : Type} (p : Side) (id : UInt64) (n : Net σ) (e : Event) : Prop :=
  ∀ f pad, e = .deliver p f pad → IsXmitFor id (f ++ pad.1) → timesHanded id (n.ends p) = 0

section Once

variable {σ : Type} {env : LinkEnv σ} {id : UInt64} {s s' : Session σ} {now : UInt64}

/-- Message `id` is being received, has been handed over, or neither, but not two of them. -/
def Once (id : UInt64) (s : Session σ) : Prop :=
  timesHanded id s = 0 ∨ timesHanded id s = 1 ∧ id ∉ s.frame.rx

/-- Moves that concern other inbound messages. -/
lemma once_stable (env : LinkEnv σ) (id : UInt64) :
    Session.Stable env (· ≠ id) (fun _ => True) True (Once (σ := σ) id) where
  send _ _ h := h
  idle _ _ hi h := by rwa [Once, timesHanded, hi.handed, hi.rx]
  rxflag _ _ h := h
  txflag _ h := h
  aliv _ h := h
  store s id' t hid h := h.imp_right fun ⟨h1, h2⟩ => ⟨h1, fun hin =>
    ((AList.mem_insert _).mp hin).elim (fun he => hid he.symm) h2⟩
  ackfor _ _ _ _ h := h
  hand s id' m hid h := by
    have hcount : timesHanded id (s.handing id' m) = timesHanded id s := by
      simp [timesHanded, Session.handing, hid]
    rw [Once, hcount]
    exact h
  forget s id' _ h := h.imp_right fun ⟨h1, h2⟩ => ⟨h1, fun hin => h2 (AList.mem_erase.mp hin).2⟩
  retire _ _ _ h := h
  acked _ _ _ _ _ _ h := h
  resend _ _ _ _ _ _ h := h

/-- Completing a message that has not been handed over. -/
lemma Once.inboundFrameComplete {r : Session σ × Bool} (h : timesHanded id s = 0)
    (hr : s.inboundFrameComplete env now id = .ok r) : Once id r.1 := by
  obtain he | he | ⟨msg, he⟩ := Session.inboundFrameComplete_inv hr
  · rw [he]
    exact .inl h
  · rw [he]
    exact .inl h
  · rw [he]
    refine .inr ⟨?_, fun hin => (AList.mem_erase.mp hin).1 rfl⟩
    have hh : ((s.completeMessage env now id msg).1.eraseRx id).handed = s.handed ++ [(id, msg)] :=
      Session.completeMessage_handed env now s id msg
    rw [timesHanded, hh, List.map_append, List.count_append, show (s.handed.map Prod.fst).count id =
      0 from h]
    simp

/-- `process` on an `XMIT` frame for a message that has not been handed over. -/
lemma Once.gotXmit {buf : Bytes} {sz : ℕ} {r : Session σ × Bool}
    (hid : (Xmit.ofFrame buf).msgid = id) (h : timesHanded id s = 0)
    (hr : s.gotXmit env now buf sz = .ok r) : Once id r.1 := by
  subst hid
  obtain he | ⟨-, msg, he | he⟩ := Session.gotXmit_inv hr
  · rw [he]
    exact .inl h
  · rw [he]
    exact .inl h
  · have h' : timesHanded (Xmit.ofFrame buf).msgid
        ((s.stored (Xmit.ofFrame buf).msgid msg).acking (Xmit.ofFrame buf).msgid 0) = 0 := h
    exact Once.inboundFrameComplete h' he

/-- `process` on a `FRAG` frame: an entry means that the message has not been handed over. -/
lemma Once.gotFrag {buf : Bytes} {sz : ℕ} {r : Session σ × Bool} (hid : bodyId buf = id)
    (h : Once id s) (hr : s.gotFrag env now buf sz = .ok r) : Once id r.1 := by
  subst hid
  obtain he | ⟨hin, msg, he⟩ := Session.gotFrag_inv hr
  · rw [he]
    exact h
  · have h0 : timesHanded (bodyId buf) s = 0 := h.resolve_right fun h1 => h1.2 hin
    obtain he | he | he := he
    · rw [he]
      exact .inl h0
    · rw [he]
      exact .inl h0
    · have h' : timesHanded (bodyId buf)
          ((s.stored (bodyId buf) msg).acking (bodyId buf) msg.getBitmask) = 0 := h0
      exact Once.inboundFrameComplete h' he

/-- A frame that is no replay. -/
lemma Once.handleFrameDecrypt {buf : Bytes} (h : Once id s)
    (hx : IsXmitFor id buf → timesHanded id s = 0)
    (hs : s.handleFrameDecrypt env now buf = .ok s') : Once id s' := by
  have hst := once_stable env id
  obtain ⟨r, hp, hs'⟩ := Session.Stable.handleFrameDecrypt_inv hs
  suffices hr : Once id r.1 by
    obtain rfl | rfl := hs'
    · exact hr
    · exact hr
  have hn : Once id (s.noteFlags buf) := hst.noteFlags (fun _ => trivial) h
  have hcount : timesHanded id (s.noteFlags buf) = timesHanded id s := by
    rw [timesHanded, Session.noteFlags_handed, timesHanded]
  by_cases hxm : IsXmitFor id buf
  · -- the message is new: its entry may be made and completed
    rw [Session.process, hxm.1] at hp
    exact Once.gotXmit hxm.2 (hcount.trans (hx hxm)) hp
  · by_cases hfr : MsgType.ofByte (hdrMsgtype buf) = some .eFRAG ∧ bodyId buf = id
    · rw [Session.process, hfr.1] at hp
      exact Once.gotFrag hfr.2 hn hp
    · exact hst.process (fun ht hid => hxm ⟨ht, hid⟩) (fun ht hid => hfr ⟨ht, hid⟩)
        (fun _ => trivial) (fun _ => trivial) hp h

end Once

section Runs

variable {σ : Type} {L : Link σ} {n n' : Net σ} {e : Event} {p : Side} {id : UInt64}

/-- A step without replay hands nothing over twice. -/
lemma Once.step (hstep : Step L n e n') (hC : NoReplay p id n e) (h : Once id (n.ends p)) :
    Once id (n'.ends p) := by
  have hst := once_stable (L.env p) id
  cases hstep with
  | act q ha =>
      obtain rfl | rfl := p.eq_or_eq_other q
      · rw [Net.set_ends_self]
        exact hst.act ha h
      · rwa [Net.set_other_ends]
  | @deliver q f pad s hf hs =>
      obtain rfl | rfl := p.eq_or_eq_other q
      · rw [Net.carry_ends_self, Net.set_ends_self]
        exact h.handleFrameDecrypt (hC f pad rfl) hs
      · rw [Net.carry_other_ends, Net.set_other_ends]
        exact h
  | drop q hf =>
      obtain rfl | rfl := p.eq_or_eq_other q
      · rwa [Net.carry_ends_self]
      · rw [Net.carry_other_ends]
        exact h
  | dup q hf =>
      obtain rfl | rfl := p.eq_or_eq_other q
      · rwa [Net.carry_ends_self]
      · rw [Net.carry_other_ends]
        exact h
  | wait now => exact h

/-- **At most once.** In every run in which no `XMIT` frame for `id` is delivered to an end that
has already been handed `id`, `HandleRecvLinkMessage` is called at most once for `id` there. -/
theorem handed_at_most_once (L : Link σ) (p : Side) (id : UInt64) {n : Net σ}
    (h : ReachableIf L (NoReplay p id) n) : timesHanded id (n.ends p) ≤ 1 := by
  have honce : Once id (n.ends p) := by
    refine h.rule (fun n h₀ => .inl ?_) fun n e n' _ hC hstep hn => Once.step hstep hC hn
    obtain ⟨-, -, -, -, -, -, hh, -⟩ := h₀ p
    rw [timesHanded, hh]
    rfl
  obtain h0 | ⟨h1, -⟩ := honce
  · omega
  · omega

end Runs

/-- The responder receives `shortMessage` once. -/
theorem handed_at_most_once_short : ∃ n : Net Unit,
    ReachableIf shortLink (NoReplay .responder 1) n ∧ timesHanded 1 (n.ends .responder) = 1 := by
  obtain ⟨s₁, hs₁, hh₁, -⟩ :=
    recv_shortXmit (sentNet.ends .responder) sentNet.clock (by decide)
  have hsend : NoReplay .responder 1 freshNet (.act .initiator (.send shortMessage)) := by
    intro f pad he
    cases he
  have hsent : ReachableIf shortLink (NoReplay .responder 1) sentNet :=
    (ReachableIf.initial freshNet_initial).step hsend (.act .initiator (.send shortMessage))
  have hreach := hsent.step (fun _ _ _ _ => rfl) (.deliver .responder ⟨[], by decide⟩
    (f := shortXmit) (by rw [sentNet_inflight]; simp) hs₁)
  have hone : timesHanded 1 s₁ = 1 := by
    rw [timesHanded, hh₁]
    rfl
  have hle := handed_at_most_once shortLink .responder 1 hreach
  refine ⟨_, hreach, le_antisymm hle ?_⟩
  rw [Net.carry_ends_self, Net.set_ends_self, hone]

/-- A copy of the `XMIT` frame of `shortMessage` arrives after the message is complete: the
message, queued once, is handed over twice. -/
theorem replayed_xmit_hands_twice : ∃ n : Net Unit, Reachable shortLink n ∧
    (n.ends .initiator).queued = [(1, shortMessage)] ∧ timesHanded 1 (n.ends .responder) = 2 := by
  have hmem : shortXmit ∈ sentNet.inflight .responder := by
    rw [sentNet_inflight]
    exact List.mem_singleton_self _
  -- the network copies the frame
  have hdup := ReachableIf.step sentNet_reachable trivial (.dup .responder hmem)
  set n₁ := sentNet.carry .responder (shortXmit :: sentNet.inflight .responder) with hn₁
  have hr₁ : n₁.ends .responder = freshNet.ends .responder := rfl
  obtain ⟨s₂, hs₂, hh₂, hrx₂, -⟩ := recv_shortXmit (n₁.ends .responder) n₁.clock (by decide)
  have hin₁ : n₁.inflight .responder = [shortXmit, shortXmit] := by
    have : n₁.inflight .responder = shortXmit :: sentNet.inflight .responder := rfl
    rw [this, sentNet_inflight]
  have hone := hdup.step trivial (.deliver .responder ⟨[], by decide⟩ (f := shortXmit)
    (by rw [hin₁]; simp) hs₂)
  set n₂ := (n₁.set .responder s₂).carry .responder ((n₁.inflight .responder).erase shortXmit)
    with hn₂
  have hr₂ : n₂.ends .responder = s₂ := rfl
  have hin₂ : shortXmit ∈ n₂.inflight .responder := by
    have : n₂.inflight .responder = (n₁.inflight .responder).erase shortXmit := rfl
    rw [this, hin₁, List.erase_cons_head]
    exact List.mem_singleton_self _
  obtain ⟨s₃, hs₃, hh₃, -⟩ := recv_shortXmit (n₂.ends .responder) n₂.clock (by rwa [hr₂])
  have htwo := hone.step trivial (.deliver .responder ⟨[], by decide⟩ hin₂ hs₃)
  refine ⟨_, htwo, rfl, ?_⟩
  rw [Net.carry_ends_self, Net.set_ends_self, timesHanded, hh₃, hr₂, hh₂, hr₁]
  rfl

end Udap.Iwp
