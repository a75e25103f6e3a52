import Udap.Iwp.Exchange

/-!
A message that its sender retires has been handed over.

The argument follows one message `m` queued under `id`. The receiver's entry for it holds pieces
of `m` and is not complete, and whatever a mask in flight or a status bit of the sender claims
to have arrived is in that entry, unless the message has been handed over (`Tracked`). Every
step keeps this (`Tracked.step`); a mask that completes the sender's bits would complete the
receiver's entry, so the message has been handed over (`retired_handed`).
-/

namespace Udap.Iwp

open ByteMem TransitMessage

/-! ### Frames about one message -/

/-- The frame is an `ACKS` frame for `id`. -/
def IsAckFor (id : UInt64) (f : Bytes) : Prop := hdrMsgtype f = MsgType.eACKS.code ∧ bodyId f = id

/-- The mask of an `ACKS` frame. -/
def ackMask (f : Bytes) : BitVec 32 := BitVec.ofNat 32 (leNat (hdrData f 8 4))

lemma bodyId_initSendbuf (t : MsgType) (sz : ℕ) (flags : UInt8) (id : UInt64)
    (body pad : Bytes) :
    bodyId (initSendbuf t sz flags (leBytes 8 id.toNat ++ body) ++ pad) = id :=
  Session.msgid_initSendbuf ..

lemma bodyId_ackFrame (id : UInt64) (mask : BitVec 32) (flags : UInt8) (pad : Bytes) :
    bodyId (ackFrame id mask flags ++ pad) = id := bodyId_initSendbuf ..

lemma bodyId_fragFrameOf (id : UInt64) (m : Bytes) (i : ℕ) (flags : UInt8) (pad : Bytes) :
    bodyId (fragFrameOf id m i flags ++ pad) = id := bodyId_initSendbuf ..

lemma isAckFor_ackFrame {id id' : UInt64} {mask : BitVec 32} {flags : UInt8} :
    IsAckFor id' (ackFrame id mask flags) ↔ id = id' := by
  have h := bodyId_ackFrame id mask flags []
  rw [List.append_nil] at h
  exact ⟨fun hf => h.symm.trans hf.2, fun he => ⟨rfl, h.trans he⟩⟩

lemma ackMask_ackFrame (id : UInt64) (mask : BitVec 32) (flags : UInt8) :
    ackMask (ackFrame id mask flags) = mask := by
  have h : hdrData (ackFrame id mask flags ++ []) 8 4 = leBytes 4 mask.toNat := by
    rw [ackFrame, hdrData_initSendbuf, List.append_assoc,
      slice_mid (leBytes_length _ _) (leBytes_length _ _)]
  rw [List.append_nil] at h
  rw [ackMask, h, leNat_leBytes_of_lt mask.isLt, BitVec.ofNat_toNat, BitVec.setWidth_eq]

/-- A frame of another type is no `ACKS` frame. -/
lemma not_isAckFor_initSendbuf {t : MsgType} (ht : t ≠ .eACKS) {sz : ℕ} {flags : UInt8}
    {body : Bytes} {id : UInt64} : ¬ IsAckFor id (initSendbuf t sz flags body) := by
  rintro ⟨h, -⟩
  have hc : t.code = MsgType.eACKS.code := h
  cases t <;> first | exact absurd hc (by decide) | exact ht rfl

/-- `retransmit_frags` writes the frames of fragments. -/
lemma exists_fragFrame {t : TransitMessage} {flags : UInt8} {frames : List Bytes}
    (h : t.retransmitFrags flags = .ok frames) {f : Bytes} (hf : f ∈ frames) :
    ∃ fragno frag, f = t.fragFrame flags fragno frag := by
  rw [retransmitFrags] at h
  generalize t.frags.entries = l at h
  induction l generalizing frames with
  | nil =>
      obtain rfl := Except.ok.inj h
      cases hf
  | cons e l ih =>
      obtain ⟨acked, -, h⟩ := Session.bind_eq_ok h
      obtain ⟨more, hmore, h⟩ := Session.bind_eq_ok h
      obtain rfl := Except.ok.inj h
      split_ifs at hf
      · exact ih hf hmore
      · obtain rfl | hf := List.mem_cons.mp hf
        · exact ⟨_, _, rfl⟩
        · exact ih hf hmore

/-- None of them is an `ACKS` frame. -/
lemma not_isAckFor_retransmitFrags {t : TransitMessage} {flags : UInt8} {frames : List Bytes}
    (h : t.retransmitFrags flags = .ok frames) {f : Bytes} (hf : f ∈ frames) (id : UInt64) :
    ¬ IsAckFor id f := by
  obtain ⟨fragno, frag, rfl⟩ := exists_fragFrame h hf
  exact not_isAckFor_initSendbuf (by decide)

/-- A frame that is not about message `id`, whatever is behind it. -/
structure Foreign (id : UInt64) (f : Bytes) : Prop where
  xmit : ∀ pad, MsgType.ofByte (hdrMsgtype (f ++ pad)) = some .eXMIT →
    (Xmit.ofFrame (f ++ pad)).msgid ≠ id
  frag : ∀ pad, MsgType.ofByte (hdrMsgtype (f ++ pad)) = some .eFRAG → bodyId (f ++ pad) ≠ id
  acks : ∀ pad, MsgType.ofByte (hdrMsgtype (f ++ pad)) = some .eACKS → bodyId (f ++ pad) ≠ id

/-- What a frame is about if its author has queued no other message than `m` under `id`. -/
inductive About (hash : Bytes → Blob 32) (id : UInt64) (m : LinkMessage)
    (Q : List (UInt64 × LinkMessage)) : Bytes → Prop
  | xmit (flags : UInt8) : (id, m) ∈ Q → About hash id m Q (xmitFrame (hash m.1) id m.1 flags)
  | frag {i : ℕ} (flags : UInt8) : (id, m) ∈ Q → i < numfragsOf m.1 →
      About hash id m Q (fragFrameOf id m.1 i flags)
  | acks (mask : BitVec 32) (flags : UInt8) : About hash id m Q (ackFrame id mask flags)
  | other {f : Bytes} : Foreign id f → About hash id m Q f

lemma Written.about {hash : Bytes → Blob 32} {Q : List (UInt64 × LinkMessage)} {f : Bytes}
    (h : Written hash Q f) {id : UInt64} {m : LinkMessage} (hq : ∀ m', (id, m') ∈ Q → m' = m) :
    About hash id m Q f := by
  cases h with
  | @xmit id' m' flags hmem =>
    by_cases hid : id' = id
    · subst hid
      obtain rfl := hq m' hmem
      exact .xmit flags hmem
    · refine .other ⟨fun pad _ => ?_, fun pad hc => (by cases hc), fun pad hc => (by cases hc)⟩
      rw [Session.ofFrame_xmitFrame, xmitOf_msgid]
      exact hid
  | @frag id' m' i flags hmem hi =>
    by_cases hid : id' = id
    · subst hid
      obtain rfl := hq m' hmem
      exact .frag flags hmem hi
    · refine .other ⟨fun pad hc => (by cases hc), fun pad _ => ?_, fun pad hc => (by cases hc)⟩
      rwa [bodyId_fragFrameOf]
  | acks id' mask flags =>
    by_cases hid : id' = id
    · subst hid
      exact .acks mask flags
    · refine .other ⟨fun pad hc => (by cases hc), fun pad hc => (by cases hc), fun pad _ => ?_⟩
      rwa [bodyId_ackFrame]
  | aliv flags =>
    exact .other ⟨fun pad hc => (by cases hc), fun pad hc => (by cases hc),
      fun pad hc => (by cases hc)⟩

/-- A frame acks message `id`, or it does not whatever is behind it. -/
lemma Written.acks_or {hash : Bytes → Blob 32} {Q : List (UInt64 × LinkMessage)} {f : Bytes}
    (h : Written hash Q f) (id : UInt64) :
    (∃ mask flags, f = ackFrame id mask flags) ∨ ¬ IsAckFor id f ∧
      ∀ pad, MsgType.ofByte (hdrMsgtype (f ++ pad)) = some .eACKS → bodyId (f ++ pad) ≠ id := by
  cases h with
  | xmit flags _ => exact .inr ⟨not_isAckFor_initSendbuf (by decide), fun pad hc => (by cases hc)⟩
  | frag flags _ _ =>
    exact .inr ⟨not_isAckFor_initSendbuf (by decide), fun pad hc => (by cases hc)⟩
  | aliv flags => exact .inr ⟨not_isAckFor_initSendbuf (by decide), fun pad hc => (by cases hc)⟩
  | acks id' mask flags =>
    by_cases hid : id' = id
    · subst hid
      exact .inl ⟨mask, flags, rfl⟩
    · refine .inr ⟨fun ha => hid (isAckFor_ackFrame.mp ha), fun pad _ => ?_⟩
      rwa [bodyId_ackFrame]

/-! ### What the moves of a receiver leave alone -/

section Quiet

variable {σ : Type}

/-- The receiver's state of message `id` in `r` is still that in `r'`, except that more may have
been handed over. -/
structure Quiet (id : UInt64) (r r' : Session σ) : Prop where
  rx : r'.frame.rx.lookup id = r.frame.rx.lookup id
  handed : r.handed ⊆ r'.handed
  acks : ∀ f ∈ r'.outbound ++ r'.frame.sendqueue, IsAckFor id f →
    f ∈ r.outbound ++ r.frame.sendqueue

namespace Quiet

variable {id : UInt64} {r s s' : Session σ}

lemma refl (id : UInt64) (r : Session σ) : Quiet id r r :=
  ⟨rfl, List.Subset.refl _, fun _ hf _ => hf⟩

/-- A change that writes no `ACKS` frame for `id` and leaves its entry alone. -/
lemma of_frames (h : Quiet id r s) (hrx : s'.frame.rx.lookup id = s.frame.rx.lookup id)
    (hh : s.handed ⊆ s'.handed)
    (hf : ∀ f ∈ s'.outbound ++ s'.frame.sendqueue, IsAckFor id f →
      f ∈ s.outbound ++ s.frame.sendqueue) : Quiet id r s' :=
  ⟨hrx.trans h.rx, List.Subset.trans h.handed hh, fun f hmem ha => h.acks f (hf f hmem ha) ha⟩

/-- Moves that touch other inbound messages. -/
lemma stable (env : LinkEnv σ) (id : UInt64) (r : Session σ) :
    Session.Stable env (· ≠ id) (fun _ => True) True (Quiet id r) where
  send s m h := by
    refine h.of_frames rfl (List.Subset.refl _) fun f hf ha => ?_
    simp only [Session.sendto, Session.addOutboundMessage, Session.pump, FrameState.queueTx,
      List.append_nil, ← List.append_assoc] at hf ⊢
    obtain hf | hf := List.mem_append.mp hf
    · exact hf
    · rw [List.mem_singleton.mp hf] at ha
      exact absurd ha (not_isAckFor_initSendbuf (by decide))
  idle s s' hi h := h.of_frames (by rw [hi.rx]) (by rw [hi.handed]; exact List.Subset.refl _)
    fun f hf _ => by rwa [hi.frames] at hf
  rxflag s _ h := h.of_frames rfl (List.Subset.refl _) fun f hf _ => hf
  txflag s h := h.of_frames rfl (List.Subset.refl _) fun f hf _ => hf
  aliv s h := h.of_frames rfl (List.Subset.refl _) fun f hf ha => by
    simp only [Session.keeping, List.mem_append, List.mem_singleton] at hf ⊢
    obtain (hf | rfl) | hf := hf
    · exact .inl hf
    · exact absurd ha (not_isAckFor_initSendbuf (by decide))
    · exact .inr hf
  store s id' t hid h :=
    h.of_frames (AList.lookup_insert_ne hid.symm) (List.Subset.refl _) fun f hf _ => hf
  ackfor s id' mask hid h := by
    refine h.of_frames rfl (List.Subset.refl _) fun f hf ha => ?_
    obtain hf | rfl := s.mem_acking id' hf
    · exact hf
    · exact absurd (isAckFor_ackFrame.mp ha) hid
  hand s id' m _ h := h.of_frames rfl (List.subset_append_left _ _) fun f hf _ => hf
  forget s id' hid h :=
    h.of_frames (AList.lookup_erase_ne hid.symm) (List.Subset.refl _) fun f hf _ => hf
  retire s id' _ h := h.of_frames rfl (List.Subset.refl _) fun f hf _ => hf
  acked s id' t mask _ _ h := h.of_frames rfl (List.Subset.refl _) fun f hf _ => hf
  resend s id' t frames _ hfr h := by
    refine h.of_frames rfl (List.Subset.refl _) fun f hf ha => ?_
    simp only [Session.queueing, ← List.append_assoc] at hf ⊢
    obtain hf | hf := List.mem_append.mp hf
    · exact hf
    · exact absurd ha (not_isAckFor_retransmitFrags hfr hf id)

end Quiet

end Quiet

/-! ### One message on its way -/

section Tracked

variable {σ : Type} {hash : Bytes → Blob 32} {id : UInt64} {m : LinkMessage} {s s' r r' : Session σ}

/-- The receiver has an entry for message `id` or has been handed `m`. -/
def Reached (id : UInt64) (m : LinkMessage) (r : Session σ) : Prop :=
  (id, m.1) ∈ r.handed ∨ id ∈ r.frame.rx

/-- The receiver has stored fragment `i` of message `id` or has been handed `m`. -/
def Kept (id : UInt64) (m : LinkMessage) (r : Session σ) (i : ℕ) : Prop :=
  (id, m.1) ∈ r.handed ∨ ∃ t, r.frame.rx.lookup id = some t ∧ t.status.getLsbD i = true

/-- Message `m` under `id` between its sender `s` and its receiver `r`. -/
structure Tracked (hash : Bytes → Blob 32) (id : UInt64) (m : LinkMessage) (s r : Session σ) :
    Prop where
  rx : ∀ t, r.frame.rx.lookup id = some t →
    IsPartial (hash m.1) id m.1 t ∧ ¬ Full (numfragsOf m.1) t.status
  reached : ∀ f ∈ r.outbound ++ r.frame.sendqueue, IsAckFor id f → Reached id m r
  acks : ∀ f ∈ r.outbound ++ r.frame.sendqueue, IsAckFor id f →
    ∀ i < numfragsOf m.1, (ackMask f).getLsbD i = true → Kept id m r i
  bits : ∀ t, s.frame.tx.lookup id = some t →
    ∀ i < numfragsOf m.1, t.status.getLsbD i = true → Kept id m r i

/-- Fragments that are all kept have been handed over. -/
lemma Tracked.handed (h : Tracked hash id m s r) (hr : Reached id m r)
    (hk : ∀ i < numfragsOf m.1, Kept id m r i) : (id, m.1) ∈ r.handed := by
  obtain hr | hr := hr
  · exact hr
  · obtain ⟨t, ht⟩ := Option.isSome_iff_exists.mp (AList.lookup_isSome.mpr hr)
    by_contra hnot
    refine (h.rx t ht).2 fun i hi => ?_
    obtain hk | ⟨t', ht', hb⟩ := hk i hi
    · exact absurd hk hnot
    · obtain rfl := Option.some.inj (ht.symm.trans ht')
      exact hb

/-- Moves of the receiver that concern other messages. -/
lemma Tracked.quiet (h : Tracked hash id m s r) (hq : Quiet id r r') : Tracked hash id m s r' := by
  have hkept : ∀ i, Kept id m r i → Kept id m r' i := by
    rintro i (hk | hk)
    · exact .inl (hq.handed hk)
    · exact .inr (by rwa [hq.rx])
  refine ⟨?_, fun f hf ha => ?_, fun f hf ha i hi hb => ?_, fun t ht i hi hb => ?_⟩
  · rw [hq.rx]
    exact h.rx
  · obtain hr | hr := h.reached f (hq.acks f hf ha) ha
    · exact .inl (hq.handed hr)
    · right
      rwa [← AList.lookup_isSome, hq.rx, AList.lookup_isSome]
  · exact hkept i (h.acks f (hq.acks f hf ha) ha i hi hb)
  · exact hkept i (h.bits t ht i hi hb)

/-- The receiver's entry is created or grows; a new ack claims at most what it holds. -/
lemma Tracked.advance (h : Tracked hash id m s r) {t : TransitMessage}
    (hl : r'.frame.rx.lookup id = some t) (ht : IsPartial (hash m.1) id m.1 t)
    (hfull : ¬ Full (numfragsOf m.1) t.status) (hh : r.handed ⊆ r'.handed)
    (hgrow : ∀ t₀, r.frame.rx.lookup id = some t₀ →
      ∀ i, t₀.status.getLsbD i = true → t.status.getLsbD i = true)
    (hacks : ∀ f ∈ r'.outbound ++ r'.frame.sendqueue, IsAckFor id f →
      f ∈ r.outbound ++ r.frame.sendqueue ∨
        ∀ i, (ackMask f).getLsbD i = true → t.status.getLsbD i = true) :
    Tracked hash id m s r' := by
  have hkept : ∀ i, Kept id m r i → Kept id m r' i := by
    rintro i (hk | ⟨t₀, ht₀, hb⟩)
    · exact .inl (hh hk)
    · exact .inr ⟨t, hl, hgrow t₀ ht₀ i hb⟩
  refine ⟨fun t' ht' => ?_, fun f hf ha => ?_, fun f hf ha i hi hb => ?_, fun t ht i hi hb => ?_⟩
  · obtain rfl := Option.some.inj (hl.symm.trans ht')
    exact ⟨ht, hfull⟩
  · exact .inr (AList.lookup_isSome.mp (by rw [hl]; rfl))
  · obtain hold | hnew := hacks f hf ha
    · exact hkept i (h.acks f hold ha i hi hb)
    · exact .inr ⟨t, hl, hnew i hb⟩
  · exact hkept i (h.bits t ht i hi hb)

/-- The message has been handed over and its entry is gone. -/
lemma Tracked.complete (hl : id ∉ r'.frame.rx) (hh : (id, m.1) ∈ r'.handed) :
    Tracked hash id m s r' := by
  refine ⟨fun t ht => ?_, fun f _ _ => .inl hh, fun f _ _ i _ _ => .inl hh,
    fun t _ i _ _ => .inl hh⟩
  rw [AList.lookup_eq_none.mpr hl] at ht
  cases ht

/-- Moves of the sender that do not concern the message. -/
lemma Tracked.stable_sender (env : LinkEnv σ) :
    Session.Stable env (fun _ => True) (· ≠ id) True (fun s' => Tracked hash id m s' r) where
  send s' msg h' := by
    refine ⟨h'.rx, h'.reached, h'.acks, fun t ht i hi hb => ?_⟩
    simp only [Session.sendto, Session.addOutboundMessage, Session.pump, FrameState.queueTx]
      at ht
    split_ifs at ht with hin
    · exact h'.bits t ht i hi hb
    · by_cases hid : id = s'.frame.txids
      · subst hid
        rw [AList.lookup_insert] at ht
        obtain rfl := Option.some.inj ht
        rw [(putMessage_isCut _ _ msg.2).2] at hb
        simp at hb
      · rw [AList.lookup_insert_ne hid] at ht
        exact h'.bits t ht i hi hb
  idle s₁ s₂ hi h' := ⟨h'.rx, h'.reached, h'.acks, by rw [hi.tx]; exact h'.bits⟩
  rxflag _ _ h' := ⟨h'.rx, h'.reached, h'.acks, h'.bits⟩
  txflag _ h' := ⟨h'.rx, h'.reached, h'.acks, h'.bits⟩
  aliv _ h' := ⟨h'.rx, h'.reached, h'.acks, h'.bits⟩
  store _ _ _ _ h' := ⟨h'.rx, h'.reached, h'.acks, h'.bits⟩
  ackfor _ _ _ _ h' := ⟨h'.rx, h'.reached, h'.acks, h'.bits⟩
  hand _ _ _ _ h' := ⟨h'.rx, h'.reached, h'.acks, h'.bits⟩
  forget _ _ _ h' := ⟨h'.rx, h'.reached, h'.acks, h'.bits⟩
  retire s' id' hid h' := by
    refine ⟨h'.rx, h'.reached, h'.acks, fun t ht => h'.bits t ?_⟩
    rwa [Session.retired, AList.lookup_erase_ne hid.symm] at ht
  acked s' id' t' mask hid _ h' := by
    refine ⟨h'.rx, h'.reached, h'.acks, fun t ht => h'.bits t ?_⟩
    rwa [Session.noting, AList.lookup_insert_ne hid.symm] at ht
  resend _ _ _ _ _ _ h' := ⟨h'.rx, h'.reached, h'.acks, h'.bits⟩

/-! ### Frames about the message -/

/-- An `XMIT` frame of the message reaches the receiver. -/
lemma Tracked.recv_xmit {env : LinkEnv σ} (henv : env.shorthash = hash) {now : UInt64}
    {flags : UInt8} {pad : Padding} (h : Tracked hash id m s r)
    (hr : r.handleFrameDecrypt env now (xmitFrame (hash m.1) id m.1 flags ++ pad.1) = .ok r') :
    Tracked hash id m s r' := by
  subst henv
  obtain ⟨q, hp, hq⟩ := Session.Stable.handleFrameDecrypt_inv hr
  have hst := Quiet.stable env id
  refine Tracked.quiet ?_ ((hst q.1).idle _ _ (Session.Idle.of_process hq) (Quiet.refl _ _))
  have hquiet : Quiet id r (r.noteFlags (xmitFrame (env.shorthash m.1) id m.1 flags ++ pad.1)) :=
    (hst r).noteFlags (fun _ => trivial) (Quiet.refl _ _)
  have hnote := h.quiet hquiet
  have heq := Session.process_xmitFrame env now m.2 id flags pad r
  simp only [hp] at heq
  split_ifs at heq with hin h0
  · obtain rfl := Except.ok.inj heq
    exact hnote
  · obtain rfl := Except.ok.inj heq
    exact Tracked.complete (by simp [AList.mem_erase]) (by simp)
  · obtain rfl := Except.ok.inj heq
    have hnone : (r.noteFlags (xmitFrame (env.shorthash m.1) id m.1 flags ++ pad.1)).frame.rx.lookup
        id = none := by
      rw [Session.noteFlags_rx]
      exact AList.lookup_eq_none.mpr hin
    refine hnote.advance (t := Session.announced env id m.1) (AList.lookup_insert _)
      (inbound_isPartial _ id m.2) (fun hf => ?_) (List.Subset.refl _) (fun t₀ ht₀ => ?_)
      fun f hf _ => ?_
    · have h0' : (0 : BitVec 32).getLsbD 0 = true := hf 0 (by omega)
      simp at h0'
    · rw [hnone] at ht₀
      cases ht₀
    · obtain hf | rfl := Session.mem_acking _ id hf
      · exact .inl hf
      · right
        intro i hi
        rw [ackMask_ackFrame] at hi
        simp at hi

/-- A `FRAG` frame of the message reaches the receiver. -/
lemma Tracked.recv_frag {env : LinkEnv σ} (henv : env.shorthash = hash) {now : UInt64} {i : ℕ}
    (hi : i < numfragsOf m.1) {flags : UInt8} {pad : Padding} (h : Tracked hash id m s r)
    (hr : r.handleFrameDecrypt env now (fragFrameOf id m.1 i flags ++ pad.1) = .ok r') :
    Tracked hash id m s r' := by
  subst henv
  obtain ⟨q, hp, hq⟩ := Session.Stable.handleFrameDecrypt_inv hr
  have hst := Quiet.stable env id
  refine Tracked.quiet ?_ ((hst q.1).idle _ _ (Session.Idle.of_process hq) (Quiet.refl _ _))
  have hquiet : Quiet id r (r.noteFlags (fragFrameOf id m.1 i flags ++ pad.1)) :=
    (hst r).noteFlags (fun _ => trivial) (Quiet.refl _ _)
  have hnote := h.quiet hquiet
  cases hl : r.frame.rx.lookup id with
  | none =>
      have heq := Session.process_fragFrame_none env now m.2 id hi flags pad
        (AList.lookup_eq_none.mp hl)
      obtain rfl := Except.ok.inj (hp.symm.trans heq)
      exact hnote
  | some t =>
      obtain ⟨t', ht', hst, heq⟩ :=
        Session.process_fragFrame env now m.2 id hi flags pad hl (h.rx t hl).1
      have hgrow : ∀ t₀, (r.noteFlags (fragFrameOf id m.1 i flags ++ pad.1)).frame.rx.lookup id =
          some t₀ → ∀ j, t₀.status.getLsbD j = true → t'.status.getLsbD j = true := by
        intro t₀ ht₀ j hj
        rw [Session.noteFlags_rx, hl] at ht₀
        obtain rfl := Option.some.inj ht₀
        rw [hst, BitVec.getLsbD_or, hj, Bool.true_or]
      rw [hp] at heq
      split_ifs at heq with hfull hsend
      · obtain rfl := Except.ok.inj heq
        exact Tracked.complete (by simp [AList.mem_erase]) (by simp)
      · obtain rfl := Except.ok.inj heq
        refine hnote.advance (AList.lookup_insert _) ht' hfull (List.Subset.refl _) hgrow
          fun f hf _ => ?_
        obtain hf | rfl := Session.mem_acking _ id hf
        · exact .inl hf
        · right
          intro j hj
          rwa [ackMask_ackFrame] at hj
      · obtain rfl := Except.ok.inj heq
        exact hnote.advance (AList.lookup_insert _) ht' hfull (List.Subset.refl _) hgrow
          fun f hf _ => .inl hf

/-- An `ACKS` frame for the message reaches the sender. -/
lemma Tracked.recv_ack {env : LinkEnv σ} {now : UInt64} {mask : BitVec 32} {flags : UInt8}
    {pad : Padding} (h : Tracked hash id m s r)
    (hcut : ∀ t, s.frame.tx.lookup id = some t → IsCut (hash m.1) id m.1 t)
    (hmem : ackFrame id mask flags ∈ r.outbound ++ r.frame.sendqueue)
    (hs : s.handleFrameDecrypt env now (ackFrame id mask flags ++ pad.1) = .ok s') :
    Tracked hash id m s' r ∧ (id ∈ s.frame.tx → id ∉ s'.frame.tx → (id, m.1) ∈ r.handed) := by
  obtain ⟨hnone, hsome⟩ := Session.handleFrameDecrypt_ackFrame_tx env now hs
  have hack : IsAckFor id (ackFrame id mask flags) := isAckFor_ackFrame.mpr rfl
  cases hl : s.frame.tx.lookup id with
  | none =>
      have hn := AList.lookup_eq_none.mp hl
      refine ⟨⟨h.rx, h.reached, h.acks, ?_⟩, fun hin => absurd hin hn⟩
      rw [hnone hn]
      exact h.bits
  | some t =>
      have htx := hsome _ _ t m.2 hl (hcut t hl)
      have hkept : ∀ i < numfragsOf m.1, (t.status ||| mask).getLsbD i = true →
          Kept id m r i := by
        intro i hi hb
        rw [BitVec.getLsbD_or, Bool.or_eq_true] at hb
        obtain hb | hb := hb
        · exact h.bits t hl i hi hb
        · exact h.acks _ hmem hack i hi (by rwa [ackMask_ackFrame])
      split_ifs at htx with hfull
      · have hdone := h.handed (h.reached _ hmem hack) fun i hi => hkept i hi (hfull i hi)
        exact ⟨⟨h.rx, h.reached, h.acks, fun _ _ _ _ _ => .inl hdone⟩, fun _ _ => hdone⟩
      · refine ⟨⟨h.rx, h.reached, h.acks, fun t' ht' i hi hb => ?_⟩, fun _ hnot => ?_⟩
        · rw [htx, AList.lookup_insert] at ht'
          obtain rfl := Option.some.inj ht'
          rw [ack_status] at hb
          exact hkept i hi hb
        · rw [htx, AList.mem_insert] at hnot
          exact absurd (.inl rfl) hnot

end Tracked

/-! ### Runs -/

section Runs

variable {σ : Type} {L : Link σ} {n n' : Net σ} {e : Event} {C : Net σ → Event → Prop}
  {p : Side} {id : UInt64} {m : LinkMessage}

/-- `m` is the only message that `p` has queued under `id`. -/
def OnlyQueued (n : Net σ) (p : Side) (id : UInt64) (m : LinkMessage) : Prop :=
  ∀ m', (id, m') ∈ (n.ends p).queued → m' = m

/-- Messages stay on record. -/
lemma Step.queued_sublist (h : Step L n e n') (p : Side) :
    (n.ends p).queued.Sublist (n'.ends p).queued := by
  refine h.rule (P := fun s => (n.ends p).queued.Sublist s.queued) ?_ (fun _ _ _ hs => hs)
    (List.Sublist.refl _)
  exact
    { send := fun s m hs => hs.trans (List.sublist_append_left _ _)
      idle := fun _ _ hi hs => by rwa [hi.queued]
      rxflag := fun _ _ hs => hs
      txflag := fun _ hs => hs
      aliv := fun _ hs => hs
      store := fun _ _ _ _ hs => hs
      ackfor := fun _ _ _ _ hs => hs
      hand := fun _ _ _ _ hs => hs
      forget := fun _ _ _ hs => hs
      retire := fun _ _ _ hs => hs
      acked := fun _ _ _ _ _ _ hs => hs
      resend := fun _ _ _ _ _ _ hs => hs }

lemma OnlyQueued.of_step (h : Step L n e n') (hq : OnlyQueued n' p id m) : OnlyQueued n p id m :=
  fun m' hm' => hq m' ((h.queued_sublist p).subset hm')

/-- A frame that reaches the receiver. -/
lemma Tracked.recv (hq : OnlyQueued n p id m) {f : Bytes}
    (hf : Written L.shorthash (n.ends p).queued f) {pad : Padding} {r' : Session σ}
    (hr : (n.ends p.other).handleFrameDecrypt (L.env p.other) n.clock (f ++ pad.1) = .ok r')
    (h : Tracked L.shorthash id m (n.ends p) (n.ends p.other)) :
    Tracked L.shorthash id m (n.ends p) r' := by
  have hst := Quiet.stable (L.env p.other) id (n.ends p.other)
  have hrefl := Quiet.refl id (n.ends p.other)
  cases hf.about hq with
  | xmit flags hmem => exact h.recv_xmit (L.shorthash_eq _) hr
  | frag flags hmem hi => exact h.recv_frag (L.shorthash_eq _) hi hr
  | acks mask flags =>
    exact h.quiet (hst.handleFrameDecrypt (fun hc => by cases hc) (fun hc => by cases hc)
      (fun _ => trivial) (fun _ => trivial) hr hrefl)
  | other hother =>
    exact h.quiet (hst.handleFrameDecrypt (hother.xmit _) (hother.frag _) (fun _ => trivial)
      (fun _ => trivial) hr hrefl)

/-- Losing frames of the receiver claims nothing new. -/
lemma Tracked.lose {s r : Session σ} (h : Tracked L.shorthash id m s r) {frames : List Bytes}
    (hsub : frames ⊆ r.outbound) : Tracked L.shorthash id m s { r with outbound := frames } := by
  refine h.quiet ((Quiet.refl id r).of_frames rfl (List.Subset.refl _) fun f hf _ => ?_)
  simp only [List.mem_append] at hf ⊢
  exact hf.imp (fun hf => hsub hf) fun hf => hf

/-- Only an `ACKS` frame for the message removes it from `tx`. -/
lemma mem_tx_stable (env : LinkEnv σ) (id : UInt64) :
    Session.Stable env (fun _ => True) (· ≠ id) True (fun s => id ∈ s.frame.tx) where
  send s m hs := by
    simp only [Session.sendto, Session.addOutboundMessage, Session.pump, FrameState.queueTx]
    split_ifs
    · exact hs
    · exact (AList.mem_insert _).mpr (.inr hs)
  idle _ _ hi hs := by rwa [hi.tx]
  rxflag _ _ hs := hs
  txflag _ hs := hs
  aliv _ hs := hs
  store _ _ _ _ hs := hs
  ackfor _ _ _ _ hs := hs
  hand _ _ _ _ hs := hs
  forget _ _ _ hs := hs
  retire _ _ hid hs := AList.mem_erase.mpr ⟨hid.symm, hs⟩
  acked _ _ _ _ _ _ hs := (AList.mem_insert _).mpr (.inr hs)
  resend _ _ _ _ _ _ hs := hs

/-- A frame that reaches the sender. -/
lemma Tracked.answer (hq : OnlyQueued n p id m) (hon : ∀ p, Honest L.shorthash (n.ends p))
    {f : Bytes} (hf : f ∈ n.inflight p) {pad : Padding} {s' : Session σ}
    (hs : (n.ends p).handleFrameDecrypt (L.env p) n.clock (f ++ pad.1) = .ok s')
    (h : Tracked L.shorthash id m (n.ends p) (n.ends p.other)) :
    Tracked L.shorthash id m s' (n.ends p.other) ∧
      (id ∈ (n.ends p).frame.tx → id ∉ s'.frame.tx → (id, m.1) ∈ (n.ends p.other).handed) := by
  have hmem : f ∈ (n.ends p.other).outbound ++ (n.ends p.other).frame.sendqueue :=
    List.mem_append_left _ hf
  obtain ⟨mask, flags, rfl⟩ | ⟨-, hne⟩ := ((hon p.other).written f hmem).acks_or id
  · refine h.recv_ack (fun t ht => ?_) hmem hs
    obtain ⟨m', hm', hc⟩ := (hon p).cut id t ht
    obtain rfl := hq m' hm'
    exact hc
  · refine ⟨(Tracked.stable_sender (L.env p)).handleFrameDecrypt (fun _ => trivial)
      (fun _ => trivial) (hne _) (fun _ => trivial) hs h, fun hin hnot => absurd ?_ hnot⟩
    exact (mem_tx_stable (L.env p) id).handleFrameDecrypt (fun _ => trivial)
      (fun _ => trivial) (hne _) (fun _ => trivial) hs hin

/-- Every step keeps track of the message, and the step that retires it finds it handed over. -/
lemma Tracked.step (hstep : Step L n e n') (hq : OnlyQueued n p id m)
    (hon : ∀ p, Honest L.shorthash (n.ends p))
    (h : Tracked L.shorthash id m (n.ends p) (n.ends p.other)) :
    Tracked L.shorthash id m (n'.ends p) (n'.ends p.other) ∧
      (id ∈ (n.ends p).frame.tx → id ∉ (n'.ends p).frame.tx →
        (id, m.1) ∈ (n.ends p.other).handed) := by
  cases hstep with
  | act q ha =>
      obtain rfl | rfl := p.eq_or_eq_other q
      · rw [Net.set_ends_self, Net.set_ends_other]
        refine ⟨(Tracked.stable_sender (L.env q)).act ha h, fun hin hnot => absurd ?_ hnot⟩
        exact (mem_tx_stable (L.env q) id).act ha hin
      · rw [Net.set_other_ends, Net.set_ends_self]
        refine ⟨h.quiet ?_, fun hin hnot => absurd hin hnot⟩
        -- an action of the receiver touches no inbound message at all
        exact (Quiet.stable (L.env p.other) id _).act ha (Quiet.refl _ _)
  | @deliver q f pad s hf hs =>
      obtain rfl | rfl := p.eq_or_eq_other q
      · obtain ⟨ht, hret⟩ := h.answer hq hon hf hs
        rw [Net.carry_ends_self, Net.carry_ends_other, Net.set_ends_self, Net.set_ends_other]
        exact ⟨ht.lose List.erase_subset, hret⟩
      · rw [Net.inflight_other] at hf
        have ht := Tracked.recv hq ((hon p).written f (List.mem_append_left _ hf)) hs h
        rw [Net.carry_other_ends, Net.carry_ends_self, Net.set_other_ends, Net.set_ends_self]
        exact ⟨⟨ht.rx, ht.reached, ht.acks, ht.bits⟩, fun hin hnot => absurd hin hnot⟩
  | @drop q f hf =>
      obtain rfl | rfl := p.eq_or_eq_other q
      · rw [Net.carry_ends_self, Net.carry_ends_other]
        exact ⟨h.lose List.erase_subset, fun hin hnot => absurd hin hnot⟩
      · rw [Net.carry_other_ends, Net.carry_ends_self]
        exact ⟨⟨h.rx, h.reached, h.acks, h.bits⟩, fun hin hnot => absurd hin hnot⟩
  | @dup q f hf =>
      obtain rfl | rfl := p.eq_or_eq_other q
      · rw [Net.carry_ends_self, Net.carry_ends_other]
        exact ⟨h.lose (List.cons_subset.mpr ⟨hf, List.Subset.refl _⟩),
          fun hin hnot => absurd hin hnot⟩
      · rw [Net.carry_other_ends, Net.carry_ends_self]
        exact ⟨⟨h.rx, h.reached, h.acks, h.bits⟩, fun hin hnot => absurd hin hnot⟩
  | wait now => exact ⟨h, fun hin hnot => absurd hin hnot⟩

/-- Before anything was sent there is nothing to track. -/
lemma Net.Initial.tracked (h : n.Initial) (p : Side) (id : UInt64) (m : LinkMessage) :
    Tracked L.shorthash id m (n.ends p) (n.ends p.other) := by
  obtain ⟨-, htx, -⟩ := h p
  obtain ⟨hrx, -, hsq, -, -, hout, -⟩ := h p.other
  refine ⟨fun t ht => ?_, fun f hf => ?_, fun f hf => ?_, fun t ht => ?_⟩
  · simp [hrx] at ht
  · simp [hsq, hout] at hf
  · simp [hsq, hout] at hf
  · simp [htx] at ht

/-- A message is tracked in every reachable state. -/
lemma tracked_of_reachable (h : ReachableIf L C n) (hq : OnlyQueued n p id m) :
    Tracked L.shorthash id m (n.ends p) (n.ends p.other) := by
  refine h.rule (P := fun n => OnlyQueued n p id m →
    Tracked L.shorthash id m (n.ends p) (n.ends p.other)) (fun _ h₀ _ => h₀.tracked p id m) ?_ hq
  intro n e n' hreach _ hstep ih hq
  have hq' := hq.of_step hstep
  exact (Tracked.step hstep hq' (honest_of_reachable hreach) (ih hq')).1

/-- **Retired means delivered.** In every run of two ends that exchange each other's frames over
a network that drops, duplicates and reorders them: when a step removes `id` from the sender's
`tx`, the sender has queued a message under `id`, and if that is `m`, then `m` has been given to
`HandleRecvLinkMessage` at the other end already. -/
theorem retired_handed (L : Link σ) {n n' : Net σ} {e : Event} (hreach : Reachable L n)
    (hstep : Step L n e n') (p : Side) (id : UInt64) (hin : id ∈ (n.ends p).frame.tx)
    (hout : id ∉ (n'.ends p).frame.tx) :
    (∃ m, (id, m) ∈ (n.ends p).queued) ∧
      ∀ m, OnlyQueued n p id m → (id, m.1) ∈ (n.ends p.other).handed := by
  have hon := honest_of_reachable hreach
  constructor
  · obtain ⟨t, ht⟩ := Option.isSome_iff_exists.mp (AList.lookup_isSome.mpr hin)
    obtain ⟨m, hm, -⟩ := (hon p).cut id t ht
    exact ⟨m, hm⟩
  · intro m hq
    exact (Tracked.step hstep hq hon (tracked_of_reachable hreach hq)).2 hin hout

end Runs

/-- `shortMessage` is sent, delivered and acked. -/
theorem retired_handed_short : ∃ (n n' : Net Unit) (e : Event), Reachable shortLink n ∧
    Step shortLink n e n' ∧
    1 ∈ (n.ends .initiator).frame.tx ∧ 1 ∉ (n'.ends .initiator).frame.tx ∧
    (1, shortMessage.1) ∈ (n.ends .responder).handed := by
  obtain ⟨s₁, hs₁, -, -, -, hout₁⟩ :=
    recv_shortXmit (sentNet.ends .responder) sentNet.clock (by decide)
  have hdel : Step shortLink sentNet _ _ := .deliver .responder ⟨[], by decide⟩
    (f := shortXmit) (by rw [sentNet_inflight]; simp) hs₁
  set n := (sentNet.set .responder s₁).carry .responder
    ((sentNet.inflight .responder).erase shortXmit) with hn
  have hreach : Reachable shortLink n := ReachableIf.step sentNet_reachable trivial hdel
  have hl : (n.ends .initiator).frame.tx.lookup 1 =
      some (putMessage shortMessage.1 shortHash 1) := rfl
  have hin : 1 ∈ (n.ends .initiator).frame.tx := AList.lookup_isSome.mp (by rw [hl]; rfl)
  have hcut := (putMessage_isCut shortHash 1 shortMessage.2).1
  have hack : ackFrame 1 0 0 ∈ n.inflight .initiator := by
    have : n.inflight .initiator = s₁.outbound := rfl
    rw [this, hout₁]
    exact List.mem_singleton_self _
  obtain ⟨s₂, hs₂⟩ := Session.handleFrameDecrypt_ackFrame_ok (shortLink.env .initiator) n.clock
    shortMessage.2 hl hcut 0 0 ⟨[], by decide⟩
  have htx := (Session.handleFrameDecrypt_ackFrame_tx _ _ hs₂).2 _ _ _ shortMessage.2 hl hcut
  rw [if_pos (by rw [numfragsOf_shortMessage]; exact fun i hi => absurd hi (Nat.not_lt_zero i))]
    at htx
  have hstep := Step.deliver (L := shortLink) .initiator _ hack hs₂
  refine ⟨n, _, _, hreach, hstep, hin, ?_, ?_⟩
  · rw [Net.carry_ends_self, Net.set_ends_self, htx]
    exact fun h => (AList.mem_erase.mp h).1 rfl
  · refine (retired_handed shortLink hreach hstep .initiator 1 hin ?_).2 shortMessage ?_
    · rw [Net.carry_ends_self, Net.set_ends_self, htx]
      exact fun h => (AList.mem_erase.mp h).1 rfl
    · have hqueued : (n.ends .initiator).queued = [(1, shortMessage)] := rfl
      intro m' hm'
      rw [hqueued, List.mem_singleton] at hm'
      exact (Prod.mk.inj hm').2

end Udap.Iwp
