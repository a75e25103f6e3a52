import Udap.Iwp.Retire

/-!
What is left of a message when the network loses frames.

Only `FRAG` frames are ever sent again, so a message survives as long as the network does not
lose the last copy of an `XMIT` frame the receiver still needs, nor the last copy of an `ACKS`
frame that would retire the message (`Careful`). Then the frame that is needed next is always
somewhere (`Recoverable`), in every reachable state (`recoverable_of_reachable`).

`recv_xmit_cases` and `recv_frag_cases` say what a genuine frame does to the receiver's state of
the message.
-/

namespace Udap.Iwp

open ByteMem TransitMessage

/-- The network does not lose the last copy of an `XMIT` frame for `id` that the receiver has
neither taken up nor been handed, nor the last copy of an `ACKS` frame that would make the sender
`p` retire `id`. -/
def Careful {σ : Type} (p : Side) (id : UInt64) (n : Net σ) : Event → Prop
  | .drop q f =>
      (q = p.other → IsXmitFor id f → id ∉ (n.ends p.other).frame.rx →
        (∀ b, (id, b) ∉ (n.ends p.other).handed) →
        ∃ f' ∈ (n.inflight p.other).erase f, IsXmitFor id f') ∧
      (q = p → IsAckFor id f → ∀ t, (n.ends p).frame.tx.lookup id = some t →
        Full t.msginfo.numfrags (t.status ||| ackMask f) →
        ∃ f' ∈ (n.inflight p).erase f,
          IsAckFor id f' ∧ Full t.msginfo.numfrags (t.status ||| ackMask f'))
  | _ => True

/-- The `XMIT` frame of a message is one for its id. -/
lemma isXmitFor_xmitFrame {h : Blob 32} {id id' : UInt64} {m : Bytes} {flags : UInt8} :
    IsXmitFor id' (xmitFrame h id m flags) ↔ id = id' := by
  have hx := Session.ofFrame_xmitFrame h id m flags []
  rw [List.append_nil] at hx
  constructor
  · rintro ⟨-, hid⟩
    rwa [hx, xmitOf_msgid] at hid
  · rintro rfl
    exact ⟨rfl, by rw [hx, xmitOf_msgid]⟩

/-- An `XMIT` frame for a message that an honest end has queued. -/
lemma Written.of_isXmitFor {hash : Bytes → Blob 32} {Q : List (UInt64 × LinkMessage)} {f : Bytes}
    {id : UInt64} (h : Written hash Q f) (hf : IsXmitFor id f) :
    ∃ (m : LinkMessage) (flags : UInt8), (id, m) ∈ Q ∧
      f = xmitFrame (hash m.1) id m.1 flags := by
  cases h with
  | @xmit id' m flags hm =>
      obtain rfl := isXmitFor_xmitFrame.mp hf
      exact ⟨m, flags, hm, rfl⟩
  | frag => cases hf.1
  | acks => cases hf.1
  | aliv => cases hf.1

/-! ### The receiver -/

section Receiver

variable {σ : Type} {id : UInt64} {m : LinkMessage} {r r' s : Session σ}

/-- The receiver's state of message `id` is the same in `r'` as in `r`, and no frame of `r` got
lost. -/
structure Still (id : UInt64) (r r' : Session σ) : Prop where
  rx : r'.frame.rx.lookup id = r.frame.rx.lookup id
  handed : ∀ b, (id, b) ∈ r'.handed ↔ (id, b) ∈ r.handed
  frames : r.outbound ++ r.frame.sendqueue ⊆ r'.outbound ++ r'.frame.sendqueue

/-- The receiver has an entry `t` for message `id`. -/
structure Advanced (id : UInt64) (t : TransitMessage) (r r' : Session σ) : Prop where
  rx : r'.frame.rx.lookup id = some t
  handed : ∀ b, (id, b) ∈ r'.handed ↔ (id, b) ∈ r.handed
  frames : r.outbound ++ r.frame.sendqueue ⊆ r'.outbound ++ r'.frame.sendqueue

/-- The receiver has been handed message `id`, and has acked all of it. -/
structure Completed (id : UInt64) (m : LinkMessage) (r r' : Session σ) : Prop where
  rx : id ∉ r'.frame.rx
  handed : ∀ b, (id, b) ∈ r'.handed ↔ (id, b) ∈ r.handed ∨ b = m.1
  frames : r.outbound ++ r.frame.sendqueue ⊆ r'.outbound ++ r'.frame.sendqueue
  ack : ∃ f ∈ r'.outbound ++ r'.frame.sendqueue, IsAckFor id f ∧ Full (numfragsOf m.1) (ackMask f)

/-- Acking loses no frame. -/
lemma acking_frames (s : Session σ) (id : UInt64) (mask : BitVec 32) :
    s.outbound ++ s.frame.sendqueue ⊆
      (s.acking id mask).outbound ++ (s.acking id mask).frame.sendqueue := by
  intro f hf
  simp only [Session.acking, FrameState.pushAckfor, ← List.append_assoc]
  exact List.mem_append_left _ hf

lemma Still.refl (id : UInt64) (r : Session σ) : Still id r r :=
  ⟨rfl, fun _ => Iff.rfl, List.Subset.refl _⟩

/-- Moves that concern other inbound messages. -/
lemma Still.stable (env : LinkEnv σ) (id : UInt64) (r : Session σ) :
    Session.Stable env (· ≠ id) (fun _ => True) True (Still id r) where
  send s m h := by
    refine ⟨h.rx, h.handed, List.Subset.trans h.frames fun f hf => ?_⟩
    simp only [Session.sendto, Session.addOutboundMessage, Session.pump, FrameState.queueTx,
      List.append_nil, ← List.append_assoc]
    exact List.mem_append_left _ hf
  idle s s' hi h := ⟨by rw [hi.rx, h.rx], fun b => by rw [hi.handed, h.handed],
    by rw [hi.frames]; exact h.frames⟩
  rxflag s _ h := ⟨h.rx, h.handed, h.frames⟩
  txflag s h := ⟨h.rx, h.handed, h.frames⟩
  aliv s h := by
    refine ⟨h.rx, h.handed, List.Subset.trans h.frames fun f hf => ?_⟩
    simp only [Session.keeping, List.mem_append] at hf ⊢
    exact hf.imp_left .inl
  store s id' t hid h :=
    ⟨by rw [← h.rx]; exact AList.lookup_insert_ne hid.symm, h.handed, h.frames⟩
  ackfor s id' mask _ h :=
    ⟨h.rx, h.handed, List.Subset.trans h.frames (acking_frames s id' mask)⟩
  hand s id' m hid h := by
    refine ⟨h.rx, fun b => ?_, h.frames⟩
    rw [← h.handed b, Session.handing, List.mem_append, List.mem_singleton, Prod.mk.injEq]
    exact ⟨fun hb => hb.resolve_right fun he => hid he.1.symm, .inl⟩
  forget s id' hid h :=
    ⟨by rw [← h.rx]; exact AList.lookup_erase_ne hid.symm, h.handed, h.frames⟩
  retire s id' _ h := ⟨h.rx, h.handed, h.frames⟩
  acked s id' t mask _ _ h := ⟨h.rx, h.handed, h.frames⟩
  resend s id' t frames _ _ h := by
    refine ⟨h.rx, h.handed, List.Subset.trans h.frames fun f hf => ?_⟩
    simp only [Session.queueing, ← List.append_assoc]
    exact List.mem_append_left _ hf

lemma Advanced.idle {t : TransitMessage} (h : Advanced id t r s) (hi : Session.Idle s r') :
    Advanced id t r r' :=
  ⟨by rw [hi.rx, h.rx], fun b => by rw [hi.handed, h.handed], by rw [hi.frames]; exact h.frames⟩

lemma Advanced.stored (h : Still id r s) (t : TransitMessage) : Advanced id t r (s.stored id t) :=
  ⟨AList.lookup_insert _, h.handed, h.frames⟩

lemma Advanced.acking {t : TransitMessage} (h : Advanced id t r s) (mask : BitVec 32) :
    Advanced id t r (s.acking id mask) :=
  ⟨h.rx, h.handed, List.Subset.trans h.frames (acking_frames s id mask)⟩

lemma Completed.idle (h : Completed id m r s) (hi : Session.Idle s r') : Completed id m r r' :=
  ⟨by rw [hi.rx]; exact h.rx, fun b => by rw [hi.handed, h.handed],
    by rw [hi.frames]; exact h.frames, by rw [hi.frames]; exact h.ack⟩

/-- The hand-over of a complete message loses no frame. -/
lemma finished_frames (env : LinkEnv σ) (now : UInt64) (s : Session σ) (id : UInt64) (b : Bytes) :
    s.outbound ++ s.frame.sendqueue ⊆ (s.finished env now id b).1.outbound ++
      (s.finished env now id b).1.frame.sendqueue := by
  refine Session.completeMessage_rule env now
    (P := fun s' => s.outbound ++ s.frame.sendqueue ⊆ s'.outbound ++ s'.frame.sendqueue)
    (fun s' m hs => List.Subset.trans hs fun f hf => ?_) (fun _ _ hs => hs) (fun _ _ hs => hs)
    (fun _ hs => hs) (List.Subset.refl _)
  simp only [Session.sendto, Session.addOutboundMessage, Session.pump, FrameState.queueTx,
    List.append_nil, ← List.append_assoc]
  exact List.mem_append_left _ hf

/-- A message that is complete after its bits `mask` were acked. -/
lemma Completed.of_acking (env : LinkEnv σ) (now : UInt64) {mask : BitVec 32}
    (hs : ∀ b, (id, b) ∈ s.handed ↔ (id, b) ∈ r.handed)
    (hf : r.outbound ++ r.frame.sendqueue ⊆ s.outbound ++ s.frame.sendqueue)
    (hfull : Full (numfragsOf m.1) mask) :
    Completed id m r ((s.acking id mask).finished env now id m.1).1 := by
  have hfin := finished_frames env now (s.acking id mask) id m.1
  have hsub := acking_frames s id mask
  refine ⟨?_, fun b => ?_, ?_, ackFrame id mask s.frame.txflags, hfin ?_, ?_, ?_⟩
  · rw [Session.finished_rx]
    exact fun hin => (AList.mem_erase.mp hin).1 rfl
  · rw [Session.finished_handed, Session.acking_handed, List.mem_append, hs b,
      List.mem_singleton, Prod.mk.injEq]
    simp
  · exact List.Subset.trans hf (List.Subset.trans hsub hfin)
  · simp [Session.acking, FrameState.pushAckfor, ackFrame]
  · exact isAckFor_ackFrame.mpr rfl
  · rwa [ackMask_ackFrame]

/-- What a genuine `XMIT` frame does to the receiver's state of its message. -/
lemma recv_xmit_cases {env : LinkEnv σ} {now : UInt64} {flags : UInt8} {pad : Padding}
    (hr : r.handleFrameDecrypt env now (xmitFrame (env.shorthash m.1) id m.1 flags ++ pad.1) =
      .ok r') :
    (id ∈ r.frame.rx ∧ Still id r r') ∨
      (id ∉ r.frame.rx ∧ ∃ t, Advanced id t r r') ∨ Completed id m r r' := by
  obtain ⟨q, hp, hq⟩ := Session.Stable.handleFrameDecrypt_inv hr
  have hi := Session.Idle.of_process hq
  have hst := Still.stable env id r
  set buf := xmitFrame (env.shorthash m.1) id m.1 flags ++ pad.1 with hbuf
  have hnote : Still id r (r.noteFlags buf) := hst.noteFlags (fun _ => trivial) (.refl _ _)
  have heq := Session.process_xmitFrame env now m.2 id flags pad r
  simp only [← hbuf, hp] at heq
  split_ifs at heq with hin h0
  · obtain rfl := Except.ok.inj heq
    exact .inl ⟨hin, hst.idle _ _ hi hnote⟩
  · obtain rfl := Except.ok.inj heq
    refine .inr (.inr (Completed.idle ?_ hi))
    refine Completed.of_acking env now (s := (r.noteFlags buf).stored id _) hnote.handed
      hnote.frames ?_
    rw [h0]
    exact fun i hi => absurd hi (Nat.not_lt_zero i)
  · obtain rfl := Except.ok.inj heq
    have hadv := (Advanced.stored hnote (Session.announced env id m.1)).acking 0
    exact .inr (.inl ⟨hin, _, hadv.idle hi⟩)

/-- What a genuine `FRAG` frame does to the receiver's state of its message. -/
lemma recv_frag_cases {env : LinkEnv σ} {now : UInt64} {i : ℕ} (hi : i < numfragsOf m.1)
    {flags : UInt8} {pad : Padding}
    (hrx : ∀ t, r.frame.rx.lookup id = some t → IsPartial (env.shorthash m.1) id m.1 t)
    (hr : r.handleFrameDecrypt env now (fragFrameOf id m.1 i flags ++ pad.1) = .ok r') :
    (id ∉ r.frame.rx ∧ Still id r r') ∨
      (∃ t t', r.frame.rx.lookup id = some t ∧ t'.status = t.status ||| BitVec.twoPow 32 i ∧
        Advanced id t' r r') ∨ Completed id m r r' := by
  obtain ⟨q, hp, hq⟩ := Session.Stable.handleFrameDecrypt_inv hr
  have hid := Session.Idle.of_process hq
  have hst := Still.stable env id r
  set buf := fragFrameOf id m.1 i flags ++ pad.1 with hbuf
  have hnote : Still id r (r.noteFlags buf) := hst.noteFlags (fun _ => trivial) (.refl _ _)
  cases hl : r.frame.rx.lookup id with
  | none =>
      have hn := AList.lookup_eq_none.mp hl
      have heq := Session.process_fragFrame_none env now m.2 id hi flags pad hn
      obtain rfl := Except.ok.inj (hp.symm.trans heq)
      exact .inl ⟨hn, hst.idle _ _ hid hnote⟩
  | some t =>
      obtain ⟨t', ht', hstat, heq⟩ :=
        Session.process_fragFrame env now m.2 id hi flags pad hl (hrx t hl)
      rw [← hbuf, hp] at heq
      right
      split_ifs at heq with hfull hsend
      · obtain rfl := Except.ok.inj heq
        exact .inr (Completed.idle (Completed.of_acking env now
          (s := (r.noteFlags buf).stored id t') hnote.handed hnote.frames hfull) hid)
      · obtain rfl := Except.ok.inj heq
        exact .inl ⟨t, t', rfl, hstat, ((Advanced.stored hnote t').acking t'.status).idle hid⟩
      · obtain rfl := Except.ok.inj heq
        exact .inl ⟨t, t', rfl, hstat, (Advanced.stored hnote t').idle hid⟩

end Receiver

/-! ### The frame that is needed next -/

section Recoverable

variable {σ : Type} {id : UInt64} {m : LinkMessage} {s s' r r' : Session σ}

/-- Message `m` under `id` can still get from `s` to `r` and be retired. -/
structure Recoverable (id : UInt64) (m : LinkMessage) (s r : Session σ) : Prop where
  handed : ∀ b, (id, b) ∈ r.handed → b = m.1
  unsent : (∀ m', (id, m') ∉ s.queued) → id ∉ r.frame.rx ∧ ∀ b, (id, b) ∉ r.handed
  pending : id ∈ s.frame.tx → id ∉ r.frame.rx → (∀ b, (id, b) ∉ r.handed) →
    ∃ f ∈ s.outbound, IsXmitFor id f
  final : ∀ t, s.frame.tx.lookup id = some t → (∃ b, (id, b) ∈ r.handed) →
    ∃ f ∈ r.outbound ++ r.frame.sendqueue,
      IsAckFor id f ∧ Full (numfragsOf m.1) (t.status ||| ackMask f)

/-- The id has been used at most once. -/
def UsedOnce (id : UInt64) (s : Session σ) : Prop := (s.queued.map Prod.fst).count id ≤ 1

/-- A change of the sender that keeps `tx` and loses no frame. -/
lemma Recoverable.sender (h : Recoverable id m s r)
    (htx : s'.frame.tx.lookup id = s.frame.tx.lookup id) (hq : s.queued ⊆ s'.queued)
    (hout : ∀ f ∈ s.outbound, IsXmitFor id f → f ∈ s'.outbound) : Recoverable id m s' r := by
  refine ⟨h.handed, fun hu => h.unsent fun m' hm' => hu m' (hq hm'), fun hin hrx hh => ?_, ?_⟩
  · rw [← AList.lookup_isSome, htx, AList.lookup_isSome] at hin
    obtain ⟨f, hf, hx⟩ := h.pending hin hrx hh
    exact ⟨f, hout f hf hx, hx⟩
  · rw [htx]
    exact h.final

/-- A change of the receiver that does not concern the message. -/
lemma Recoverable.still (h : Recoverable id m s r) (hs : Still id r r') :
    Recoverable id m s r' := by
  have hmem : id ∈ r'.frame.rx ↔ id ∈ r.frame.rx := by
    rw [← AList.lookup_isSome, hs.rx, AList.lookup_isSome]
  refine ⟨fun b hb => h.handed b ((hs.handed b).mp hb), fun hu => ?_, fun hin hrx hh => ?_,
    fun t ht hh => ?_⟩
  · obtain ⟨h1, h2⟩ := h.unsent hu
    exact ⟨fun hin => h1 (hmem.mp hin), fun b hb => h2 b ((hs.handed b).mp hb)⟩
  · exact h.pending hin (fun hr => hrx (hmem.mpr hr)) fun b hb => hh b ((hs.handed b).mpr hb)
  · obtain ⟨b, hb⟩ := hh
    obtain ⟨f, hf, ha⟩ := h.final t ht ⟨b, (hs.handed b).mp hb⟩
    exact ⟨f, hs.frames hf, ha⟩

/-- The receiver has an entry for the message. -/
lemma Recoverable.advanced (h : Recoverable id m s r) {t : TransitMessage}
    (hq : ∃ m', (id, m') ∈ s.queued) (ha : Advanced id t r r') : Recoverable id m s r' := by
  obtain ⟨m', hm'⟩ := hq
  refine ⟨fun b hb => h.handed b ((ha.handed b).mp hb), fun hu => absurd hm' (hu m'),
    fun _ hrx _ => absurd (AList.lookup_isSome.mp (Option.isSome_of_eq_some ha.rx)) hrx,
    fun t ht hh => ?_⟩
  obtain ⟨b, hb⟩ := hh
  obtain ⟨f, hf, hack⟩ := h.final t ht ⟨b, (ha.handed b).mp hb⟩
  exact ⟨f, ha.frames hf, hack⟩

/-- The receiver has been handed the message. -/
lemma Recoverable.completed (h : Recoverable id m s r) (hq : ∃ m', (id, m') ∈ s.queued)
    (hc : Completed id m r r') : Recoverable id m s r' := by
  obtain ⟨m', hm'⟩ := hq
  refine ⟨fun b hb => ?_, fun hu => absurd hm' (hu m'),
    fun _ _ hh => absurd ((hc.handed m.1).mpr (.inr rfl)) (hh m.1), fun t _ _ => ?_⟩
  · exact ((hc.handed b).mp hb).elim (h.handed b) fun hb => hb
  · obtain ⟨f, hf, ha, hfull⟩ := hc.ack
    refine ⟨f, hf, ha, fun i hi => ?_⟩
    rw [BitVec.getLsbD_or, hfull i hi, Bool.or_true]

/-- Moves of the sender that do not ack the message, as long as its id is used once. -/
lemma Recoverable.stable_sender (env : LinkEnv σ) (id : UInt64) (m : LinkMessage)
    (r : Session σ) : Session.Stable env (fun _ => True) (· ≠ id) True
      (fun s => UsedOnce id s → Recoverable id m s r) where
  send s msg h hu := by
    have hsub : s.outbound ⊆ (s.sendto env msg).outbound := fun f hf => by
      simp only [Session.sendto, Session.addOutboundMessage, Session.pump, FrameState.queueTx]
      exact List.mem_append_left _ hf
    have hq : s.queued ⊆ (s.sendto env msg).queued := List.subset_append_left _ _
    have hcount : (s.queued.map Prod.fst).count id +
        (if s.frame.txids = id then 1 else 0) ≤ 1 := by
      have hu' : ((s.queued ++ [(s.frame.txids, msg)]).map Prod.fst).count id ≤ 1 := hu
      rw [List.map_append, List.count_append, List.map_singleton, List.count_singleton] at hu'
      simpa using hu'
    by_cases hid : s.frame.txids = id
    · -- the message itself is being queued: nobody has heard of it
      rw [if_pos hid] at hcount
      have hnone : ∀ m', (id, m') ∉ s.queued := fun m' hm' => by
        have hpos : 0 < (s.queued.map Prod.fst).count id :=
          List.count_pos_iff.mpr (List.mem_map.mpr ⟨(id, m'), hm', rfl⟩)
        omega
      obtain ⟨hrx, hh⟩ := (h (by rw [UsedOnce]; omega)).unsent hnone
      have hcut := (putMessage_isCut (env.shorthash msg.1) s.frame.txids msg.2).1
      refine ⟨fun b hb => absurd hb (hh b), fun _ => ⟨hrx, hh⟩, fun _ _ _ =>
        ⟨xmitFrame (env.shorthash msg.1) s.frame.txids msg.1 s.frame.txflags, ?_,
          isXmitFor_xmitFrame.mpr hid⟩, fun _ _ hb => ?_⟩
      · simp [Session.sendto, Session.addOutboundMessage, Session.pump, FrameState.queueTx,
          hcut.generateXmit]
      · obtain ⟨b, hb⟩ := hb
        exact absurd hb (hh b)
    · refine (h (by rw [UsedOnce]; omega)).sender ?_ hq fun f hf _ => hsub hf
      simp only [Session.sendto, Session.addOutboundMessage, Session.pump, FrameState.queueTx]
      split_ifs
      · rfl
      · exact AList.lookup_insert_ne (Ne.symm hid)
  idle s s' hi h hu := by
    have hu' : UsedOnce id s := by rwa [UsedOnce, ← hi.queued]
    exact (h hu').sender (by rw [hi.tx]) (by rw [hi.queued]; exact List.Subset.refl _)
      fun f hf _ => hi.outbound hf
  rxflag s _ h hu := (h hu).sender rfl (List.Subset.refl _) fun f hf _ => hf
  txflag s h hu := (h hu).sender rfl (List.Subset.refl _) fun f hf _ => hf
  aliv s h hu := (h hu).sender rfl (List.Subset.refl _) fun f hf _ => List.mem_append_left _ hf
  store s _ _ _ h hu := (h hu).sender rfl (List.Subset.refl _) fun f hf _ => hf
  ackfor s _ _ _ h hu := (h hu).sender rfl (List.Subset.refl _) fun f hf _ => hf
  hand s _ _ _ h hu := (h hu).sender rfl (List.Subset.refl _) fun f hf _ => hf
  forget s _ _ h hu := (h hu).sender rfl (List.Subset.refl _) fun f hf _ => hf
  retire s id' hid h hu :=
    (h hu).sender (AList.lookup_erase_ne hid.symm) (List.Subset.refl _) fun f hf _ => hf
  acked s id' t mask hid _ h hu :=
    (h hu).sender (AList.lookup_insert_ne hid.symm) (List.Subset.refl _) fun f hf _ => hf
  resend s _ _ _ _ _ h hu := (h hu).sender rfl (List.Subset.refl _) fun f hf _ => hf

/-- Whatever an end does, the frames on their way stay there. -/
lemma outbound_stable (env : LinkEnv σ) (s₀ : Session σ) :
    Session.Stable env (fun _ => True) (fun _ => True) True
      (fun s => s₀.outbound ⊆ s.outbound ∧ s₀.queued ⊆ s.queued) where
  send s msg h := by
    refine ⟨List.Subset.trans h.1 fun f hf => ?_, List.Subset.trans h.2
      (List.subset_append_left _ _)⟩
    simp only [Session.sendto, Session.addOutboundMessage, Session.pump, FrameState.queueTx]
    exact List.mem_append_left _ hf
  idle s s' hi h := ⟨List.Subset.trans h.1 hi.outbound, by rw [hi.queued]; exact h.2⟩
  rxflag _ _ h := h
  txflag _ h := h
  aliv _ h := ⟨List.Subset.trans h.1 (List.subset_append_left _ _), h.2⟩
  store _ _ _ _ h := h
  ackfor _ _ _ _ h := h
  hand _ _ _ _ h := h
  forget _ _ _ h := h
  retire _ _ _ h := h
  acked _ _ _ _ _ _ h := h
  resend _ _ _ _ _ _ h := h

/-- A frame of the sender leaves the network; an `XMIT` frame that is needed has a copy. -/
lemma Recoverable.lose_sender (h : Recoverable id m s r) {f : Bytes}
    (hf : IsXmitFor id f → id ∉ r.frame.rx → (∀ b, (id, b) ∉ r.handed) →
      ∃ f' ∈ s.outbound.erase f, IsXmitFor id f') :
    Recoverable id m { s with outbound := s.outbound.erase f } r := by
  refine ⟨h.handed, h.unsent, fun hin hrx hh => ?_, h.final⟩
  obtain ⟨f', hf', hx⟩ := h.pending hin hrx hh
  by_cases he : f' = f
  · subst he
    exact hf hx hrx hh
  · exact ⟨f', (List.mem_erase_of_ne he).mpr hf', hx⟩

/-- A frame of the receiver leaves the network; an `ACKS` frame that would retire the message has
a copy. -/
lemma Recoverable.lose_receiver (h : Recoverable id m s r) {f : Bytes}
    (hf : ∀ t, s.frame.tx.lookup id = some t → IsAckFor id f →
      Full (numfragsOf m.1) (t.status ||| ackMask f) →
      ∃ f' ∈ r.outbound.erase f, IsAckFor id f' ∧
        Full (numfragsOf m.1) (t.status ||| ackMask f')) :
    Recoverable id m s { r with outbound := r.outbound.erase f } := by
  refine ⟨h.handed, h.unsent, h.pending, fun t ht hh => ?_⟩
  obtain ⟨f', hf', ha, hfull⟩ := h.final t ht hh
  obtain hf' | hf' := List.mem_append.mp hf'
  · by_cases he : f' = f
    · subst he
      obtain ⟨f'', hf'', hack⟩ := hf t ht ha hfull
      exact ⟨f'', List.mem_append_left _ hf'', hack⟩
    · exact ⟨f', List.mem_append_left _ ((List.mem_erase_of_ne he).mpr hf'), ha, hfull⟩
  · exact ⟨f', List.mem_append_right _ hf', ha, hfull⟩

/-- An `ACKS` frame for the message arrives: it retires the message, or another one still can. -/
lemma Recoverable.recv_ack {env : LinkEnv σ} {now : UInt64} {h : Blob 32} {mask : BitVec 32}
    {flags : UInt8} {pad : Padding} (hrec : Recoverable id m s r)
    (hcut : ∀ t, s.frame.tx.lookup id = some t → IsCut h id m.1 t)
    (hs : s.handleFrameDecrypt env now (ackFrame id mask flags ++ pad.1) = .ok s') :
    Recoverable id m s' { r with outbound := r.outbound.erase (ackFrame id mask flags) } := by
  obtain ⟨hout, hq⟩ := (outbound_stable env s).handleFrameDecrypt (fun _ => trivial)
    (fun _ => trivial) (fun _ => trivial) (fun _ => trivial) hs
    ⟨List.Subset.refl _, List.Subset.refl _⟩
  obtain ⟨hnone, hsome⟩ := Session.handleFrameDecrypt_ackFrame_tx env now hs
  cases hl : s.frame.tx.lookup id with
  | none =>
      have hn := AList.lookup_eq_none.mp hl
      refine Recoverable.lose_receiver (hrec.sender (by rw [hnone hn]) hq fun f hf _ => hout hf)
        fun t ht => ?_
      rw [hnone hn, hl] at ht
      cases ht
  | some t =>
      have htx := hsome _ _ t m.2 hl (hcut t hl)
      split_ifs at htx with hfull
      · -- retired
        have hgone : id ∉ s'.frame.tx := by
          rw [htx]
          exact fun hin => (AList.mem_erase.mp hin).1 rfl
        refine ⟨hrec.handed, fun hu => hrec.unsent fun m' hm' => hu m' (hq hm'),
          fun hin => absurd hin hgone, fun t' ht' => ?_⟩
        rw [AList.lookup_eq_none.mpr hgone] at ht'
        cases ht'
      · have hin : id ∈ s.frame.tx := AList.lookup_isSome.mp (Option.isSome_of_eq_some hl)
        refine ⟨hrec.handed, fun hu => hrec.unsent fun m' hm' => hu m' (hq hm'),
          fun _ hrx hh => ?_, fun t' ht' hh => ?_⟩
        · obtain ⟨f, hf, hx⟩ := hrec.pending hin hrx hh
          exact ⟨f, hout hf, hx⟩
        · rw [htx, AList.lookup_insert] at ht'
          obtain rfl := Option.some.inj ht'
          obtain ⟨f, hf, ha, hf'⟩ := hrec.final t hl hh
          -- the frame that would retire the message is still under way: this one did not
          have hne : f ≠ ackFrame id mask flags := by
            rintro rfl
            rw [ackMask_ackFrame] at hf'
            exact hfull hf'
          refine ⟨f, ?_, ha, fun i hi => ?_⟩
          · simp only [List.mem_append, List.mem_erase_of_ne hne] at hf ⊢
            exact hf
          · have hb := hf' i hi
            rw [BitVec.getLsbD_or, Bool.or_eq_true] at hb ⊢
            refine hb.imp_left fun hb => ?_
            rw [ack_status, BitVec.getLsbD_or, hb, Bool.true_or]

end Recoverable

/-! ### Runs -/

section Runs

variable {σ : Type} {L : Link σ} {n n' : Net σ} {e : Event} {p : Side} {id : UInt64}
  {m : LinkMessage}

/-- An id that is used once had not been used more often before. -/
lemma UsedOnce.of_step (h : Step L n e n') (hu : UsedOnce id (n'.ends p)) :
    UsedOnce id (n.ends p) :=
  le_trans (((h.queued_sublist p).map Prod.fst).count_le id) hu

/-- A frame that reaches the receiver and leaves the network. -/
lemma Recoverable.recv (hq : OnlyQueued n p id m) {f : Bytes} (hf : f ∈ (n.ends p).outbound)
    (hon : Honest L.shorthash (n.ends p)) {pad : Padding} {r' : Session σ}
    (hr : (n.ends p.other).handleFrameDecrypt (L.env p.other) n.clock (f ++ pad.1) = .ok r')
    (htr : Tracked L.shorthash id m (n.ends p) (n.ends p.other))
    (h : Recoverable id m (n.ends p) (n.ends p.other)) :
    Recoverable id m { n.ends p with outbound := (n.ends p).outbound.erase f } r' := by
  have hst := Still.stable (L.env p.other) id (n.ends p.other)
  have hrefl := Still.refl id (n.ends p.other)
  have hother : ¬ IsXmitFor id f → Still id (n.ends p.other) r' →
      Recoverable id m { n.ends p with outbound := (n.ends p).outbound.erase f } r' :=
    fun hx hs => (h.still hs).lose_sender fun hx' => absurd hx' hx
  cases (hon.written f (List.mem_append_left _ hf)).about hq with
  | xmit flags hmem =>
      rw [← L.shorthash_eq p.other] at hr
      obtain ⟨hin, hs⟩ | ⟨-, t, ha⟩ | hc := recv_xmit_cases hr
      · refine (h.still hs).lose_sender fun _ hrx => absurd hin fun hin' => hrx ?_
        rwa [← AList.lookup_isSome, hs.rx, AList.lookup_isSome]
      · refine (h.advanced ⟨_, hmem⟩ ha).lose_sender fun _ hrx => absurd ?_ hrx
        exact AList.lookup_isSome.mp (Option.isSome_of_eq_some ha.rx)
      · exact (h.completed ⟨_, hmem⟩ hc).lose_sender fun _ _ hh =>
          absurd ((hc.handed m.1).mpr (.inr rfl)) (hh m.1)
  | @frag i flags hmem hi =>
      have hx : ¬ IsXmitFor id (fragFrameOf id m.1 i flags) := fun hx => by cases hx.1
      have hrx : ∀ t, (n.ends p.other).frame.rx.lookup id = some t →
          IsPartial ((L.env p.other).shorthash m.1) id m.1 t := by
        rw [L.shorthash_eq]
        exact fun t ht => (htr.rx t ht).1
      obtain ⟨-, hs⟩ | ⟨t, t', -, -, ha⟩ | hc := recv_frag_cases hi hrx hr
      · exact hother hx hs
      · exact (h.advanced ⟨_, hmem⟩ ha).lose_sender fun hx' => absurd hx' hx
      · exact (h.completed ⟨_, hmem⟩ hc).lose_sender fun hx' => absurd hx' hx
  | acks mask flags =>
      exact hother (fun hx => by cases hx.1) (hst.handleFrameDecrypt (fun hc => by cases hc)
        (fun hc => by cases hc) (fun _ => trivial) (fun _ => trivial) hr hrefl)
  | other hforeign =>
      refine hother (fun hx => ?_) (hst.handleFrameDecrypt (hforeign.xmit _) (hforeign.frag _)
        (fun _ => trivial) (fun _ => trivial) hr hrefl)
      have hne := hforeign.xmit []
      rw [List.append_nil] at hne
      exact hne hx.1 hx.2

/-- A frame that reaches the sender and leaves the network. -/
lemma Recoverable.answer (hq : OnlyQueued n p id m) {f : Bytes} (hf : f ∈ n.inflight p)
    (hon : ∀ p, Honest L.shorthash (n.ends p)) {pad : Padding} {s' : Session σ}
    (hs : (n.ends p).handleFrameDecrypt (L.env p) n.clock (f ++ pad.1) = .ok s')
    (hu : UsedOnce id s') (h : Recoverable id m (n.ends p) (n.ends p.other)) :
    Recoverable id m s'
      { n.ends p.other with outbound := (n.ends p.other).outbound.erase f } := by
  obtain ⟨mask, flags, rfl⟩ | ⟨hack, hne⟩ :=
    ((hon p.other).written f (List.mem_append_left _ hf)).acks_or id
  · refine h.recv_ack (h := L.shorthash m.1) (fun t ht => ?_) hs
    obtain ⟨m', hm', hc⟩ := (hon p).cut id t ht
    obtain rfl := hq m' hm'
    exact hc
  · have hrec := (Recoverable.stable_sender (L.env p) id m (n.ends p.other)).handleFrameDecrypt
      (fun _ => trivial) (fun _ => trivial) (hne _) (fun _ => trivial) hs (fun _ => h) hu
    exact hrec.lose_receiver fun _ _ ha => absurd ha hack

/-- Every careful step keeps the message recoverable. -/
lemma Recoverable.step (hstep : Step L n e n') (hC : Careful p id n e)
    (hq : OnlyQueued n p id m) (hu : UsedOnce id (n'.ends p))
    (hon : ∀ p, Honest L.shorthash (n.ends p))
    (htr : Tracked L.shorthash id m (n.ends p) (n.ends p.other))
    (h : Recoverable id m (n.ends p) (n.ends p.other)) :
    Recoverable id m (n'.ends p) (n'.ends p.other) := by
  cases hstep with
  | act q ha =>
      obtain rfl | rfl := p.eq_or_eq_other q
      · rw [Net.set_ends_self] at hu ⊢
        rw [Net.set_ends_other]
        exact (Recoverable.stable_sender (L.env q) id m _).act ha (fun _ => h) hu
      · rw [Net.set_other_ends, Net.set_ends_self]
        exact h.still ((Still.stable (L.env p.other) id _).act ha (Still.refl _ _))
  | @deliver q f pad s hf hs =>
      obtain rfl | rfl := p.eq_or_eq_other q
      · rw [Net.carry_ends_self, Net.set_ends_self] at hu ⊢
        rw [Net.carry_ends_other, Net.set_ends_other]
        exact h.answer hq hf hon hs hu
      · rw [Net.inflight_other] at hf
        rw [Net.carry_other_ends, Net.carry_ends_self, Net.set_other_ends, Net.set_ends_self,
          Net.inflight_other]
        exact Recoverable.recv hq hf (hon p) hs htr h
  | @drop q f hf =>
      obtain rfl | rfl := p.eq_or_eq_other q
      · rw [Net.carry_ends_self, Net.carry_ends_other]
        -- an ack is lost: the condition says that it was not the last one that could retire
        refine h.lose_receiver fun t ht hack hfull => ?_
        have hnum : t.msginfo.numfrags = numfragsOf m.1 := by
          obtain ⟨m', hm', hc⟩ := (hon q).cut id t ht
          obtain rfl := hq m' hm'
          exact hc.numfrags m'.2
        rw [← hnum] at hfull ⊢
        exact hC.2 rfl hack t ht hfull
      · rw [Net.carry_other_ends, Net.carry_ends_self, Net.inflight_other]
        -- a frame of the sender is lost: not the last announcement of a message nobody knows
        refine h.lose_sender fun hx hrx hh => ?_
        have := hC.1 rfl hx hrx hh
        rwa [Net.inflight_other] at this
  | @dup q f hf =>
      obtain rfl | rfl := p.eq_or_eq_other q
      · rw [Net.carry_ends_self, Net.carry_ends_other]
        refine h.still ⟨rfl, fun _ => Iff.rfl, fun f' hf' => ?_⟩
        rw [List.cons_append]
        exact List.mem_cons_of_mem _ hf'
      · rw [Net.carry_other_ends, Net.carry_ends_self, Net.inflight_other]
        exact h.sender rfl (List.Subset.refl _) fun f' hf' _ => List.mem_cons_of_mem _ hf'
  | wait now => exact h

/-- Before anything was sent there is nothing to recover. -/
lemma Net.Initial.recoverable (h : n.Initial) (p : Side) (id : UInt64) (m : LinkMessage) :
    Recoverable id m (n.ends p) (n.ends p.other) := by
  obtain ⟨-, htx, -⟩ := h p
  obtain ⟨hrx, -, -, -, -, -, hh, -⟩ := h p.other
  refine ⟨fun b hb => ?_, fun _ => ⟨?_, fun b hb => ?_⟩, fun hin => ?_, fun t ht => ?_⟩
  · simp [hh] at hb
  · simp [hrx]
  · simp [hh] at hb
  · simp [htx] at hin
  · simp [htx] at ht

/-- In a run without careless losses every message is recoverable in every state. -/
lemma recoverable_of_reachable (h : ReachableIf L (Careful p id) n) (hq : OnlyQueued n p id m)
    (hu : UsedOnce id (n.ends p)) : Recoverable id m (n.ends p) (n.ends p.other) := by
  refine h.rule (P := fun n => OnlyQueued n p id m → UsedOnce id (n.ends p) →
    Recoverable id m (n.ends p) (n.ends p.other)) (fun _ h₀ _ _ => h₀.recoverable p id m) ?_ hq hu
  intro n e n' hreach hC hstep ih hq hu
  have hq' := hq.of_step hstep
  exact Recoverable.step hstep hC hq' hu (honest_of_reachable hreach)
    (tracked_of_reachable hreach hq') (ih hq' (hu.of_step hstep))

end Runs

end Udap.Iwp
