import Udap.Iwp.Retire

/-!
What is on record at the two ends of a session: the messages that an end has queued, and those that
the other end has given to the router.

* `Genuine`: what an end holds and what it has handed over has the hash of a message that was
  queued under its id. Every frame of the other end keeps it.
* `Accounted`: a message that was queued is still in `tx`, or it was handed over.
* `genuine_of_reachable`, `accounted_of_reachable`: both hold in all states of a run.
-/

namespace Udap.Iwp

open ByteMem TransitMessage

variable {σ : Type}

/-! ### What is handed over was queued -/

/-- The hash is that of a message which was queued under the id. -/
def IsHashOf (hash : Bytes → Blob 32) (Q : List (UInt64 × LinkMessage)) (id : UInt64)
    (digest : Blob 32) : Prop :=
  ∃ m : LinkMessage, (id, m) ∈ Q ∧ digest = hash m.1

/-- What an end holds of inbound messages, and what it has given to the router. -/
structure Genuine (hash : Bytes → Blob 32) (Q : List (UInt64 × LinkMessage)) (s : Session σ) :
    Prop where
  rx : ∀ id t, s.frame.rx.lookup id = some t → IsHashOf hash Q id t.msginfo.hash
  handed : ∀ id x, (id, x) ∈ s.handed → IsHashOf hash Q id (hash x)

/-- `put_frag` does not change what was announced. -/
lemma msginfo_putFrag {t t' : TransitMessage} {fragno : ℕ} {buf : Bytes}
    (h : t.putFrag fragno buf = .ok (some t')) : t'.msginfo = t.msginfo := by
  rw [putFrag] at h
  split at h
  · cases h
  · obtain ⟨status, -, h⟩ := Session.bind_eq_ok h
    rw [← Option.some.inj (Except.ok.inj h)]

namespace Genuine

variable {hash : Bytes → Blob 32} {Q Q' : List (UInt64 × LinkMessage)} {env : LinkEnv σ}
  {now : UInt64} {s s' : Session σ} {r : Session σ × Bool} {id : UInt64} {buf : Bytes} {sz : ℕ}

lemma congr (h : Genuine hash Q s) (hrx : s'.frame.rx = s.frame.rx)
    (hhanded : s'.handed = s.handed) : Genuine hash Q s' where
  rx := by
    rw [hrx]
    exact h.rx
  handed := by
    rw [hhanded]
    exact h.handed

lemma mono (h : Genuine hash Q s) (hQ : Q ⊆ Q') : Genuine hash Q' s where
  rx id t ht := (h.rx id t ht).imp fun _ hm => ⟨hQ hm.1, hm.2⟩
  handed id x hx := (h.handed id x hx).imp fun _ hm => ⟨hQ hm.1, hm.2⟩

lemma eraseRx (h : Genuine hash Q s) (id : UInt64) : Genuine hash Q (s.eraseRx id) where
  rx id' t ht := by
    rw [Session.eraseRx] at ht
    by_cases hid : id' = id
    · subst hid
      simp at ht
    · rw [AList.lookup_erase_ne hid] at ht
      exact h.rx id' t ht
  handed := h.handed

lemma stored (h : Genuine hash Q s) {t : TransitMessage} (ht : IsHashOf hash Q id t.msginfo.hash)
    (mask : BitVec 32) : Genuine hash Q ((s.stored id t).acking id mask) where
  rx id' t' ht' := by
    change (s.frame.rx.insert id t).lookup id' = some t' at ht'
    by_cases hid : id' = id
    · subst hid
      rw [AList.lookup_insert] at ht'
      obtain rfl := Option.some.inj ht'
      exact ht
    · rw [AList.lookup_insert_ne hid] at ht'
      exact h.rx id' t' ht'
  handed := h.handed

/-- What is handed over has the announced hash. -/
lemma inboundFrameComplete (h : Genuine hash Q s) (henv : env.shorthash = hash)
    (hr : s.inboundFrameComplete env now id = .ok r) : Genuine hash Q r.1 := by
  rw [Session.inboundFrameComplete] at hr
  split at hr
  · cases hr
  · rename_i t ht
    obtain ⟨o, -, hr⟩ := Session.bind_eq_ok hr
    cases o with
    | none =>
        obtain rfl := Except.ok.inj hr
        exact h.eraseRx id
    | some x =>
        simp only at hr
        split_ifs at hr with hhash
        · obtain rfl := Except.ok.inj hr
          exact h
        · obtain rfl := Except.ok.inj hr
          refine Genuine.eraseRx ⟨?_, fun id' x' hx' => ?_⟩ id
          · rw [Session.completeMessage_rx]
            exact h.rx
          · rw [Session.completeMessage_handed, List.mem_append, List.mem_singleton] at hx'
            rcases hx' with hx' | hx'
            · exact h.handed id' x' hx'
            · obtain ⟨rfl, rfl⟩ := Prod.mk.inj hx'
              obtain ⟨m, hm, hdigest⟩ := h.rx id' t ht
              exact ⟨m, hm, by rw [← hdigest, ← not_not.mp hhash, henv]⟩

/-- An `XMIT` frame announces a hash. -/
lemma gotXmit (h : Genuine hash Q s) (henv : env.shorthash = hash)
    (hx : IsHashOf hash Q (Xmit.ofFrame buf).msgid (Xmit.ofFrame buf).hash)
    (hr : s.gotXmit env now buf sz = .ok r) : Genuine hash Q r.1 := by
  have hstored := h.stored (t := (TransitMessage.inbound (Xmit.ofFrame buf)).putLastfrag
    (hdrData buf 48 (Xmit.ofFrame buf).lastfrag)) hx 0
  simp only [Session.gotXmit] at hr
  split_ifs at hr
  · rwa [← Except.ok.inj hr]
  · rwa [← Except.ok.inj hr]
  · rwa [← Except.ok.inj hr]
  · rwa [← Except.ok.inj hr]
  · exact hstored.inboundFrameComplete henv hr
  · rwa [← Except.ok.inj hr]

/-- A `FRAG` frame does not. -/
lemma gotFrag (h : Genuine hash Q s) (henv : env.shorthash = hash)
    (hr : s.gotFrag env now buf sz = .ok r) : Genuine hash Q r.1 := by
  simp only [Session.gotFrag] at hr
  split_ifs at hr
  · rwa [← Except.ok.inj hr]
  · rwa [← Except.ok.inj hr]
  · split at hr
    · rwa [← Except.ok.inj hr]
    · rename_i t ht
      split_ifs at hr
      · rwa [← Except.ok.inj hr]
      · obtain ⟨o, ho, hr⟩ := Session.bind_eq_ok hr
        cases o with
        | none => rwa [← Except.ok.inj hr]
        | some t' =>
            have ht' := h.rx _ t ht
            rw [← msginfo_putFrag ho] at ht'
            obtain ⟨b, -, hr⟩ := Session.bind_eq_ok hr
            split_ifs at hr
            · exact (h.stored ht' _).inboundFrameComplete henv hr
            · rw [← Except.ok.inj hr]
              exact h.stored ht' _
            · rw [← Except.ok.inj hr]
              exact (h.stored ht' 0).congr rfl rfl

/-- No other move concerns an inbound message. -/
lemma stable (env : LinkEnv σ) :
    Session.Stable env (fun _ => False) (fun _ => True) True (Genuine hash Q) where
  send _ _ h := h.congr rfl rfl
  idle _ _ hi h := h.congr hi.rx hi.handed
  rxflag _ _ h := h.congr rfl rfl
  txflag _ h := h.congr rfl rfl
  aliv _ h := h.congr rfl rfl
  store _ _ _ hid := hid.elim
  ackfor _ _ _ hid := hid.elim
  hand _ _ _ hid := hid.elim
  forget _ _ hid := hid.elim
  retire _ _ _ h := h.congr rfl rfl
  acked _ _ _ _ _ _ h := h.congr rfl rfl
  resend _ _ _ _ _ _ h := h.congr rfl rfl

/-- A frame whose announcements are true. -/
lemma handleFrameDecrypt (h : Genuine hash Q s) (henv : env.shorthash = hash)
    (hx : MsgType.ofByte (hdrMsgtype buf) = some .eXMIT →
      IsHashOf hash Q (Xmit.ofFrame buf).msgid (Xmit.ofFrame buf).hash)
    (hr : s.handleFrameDecrypt env now buf = .ok s') : Genuine hash Q s' := by
  obtain ⟨r, hp, hs'⟩ := Session.Stable.handleFrameDecrypt_inv hr
  have hnote : Genuine hash Q (s.noteFlags buf) := (stable env).noteFlags (fun _ => trivial) h
  have hprocess : Genuine hash Q r.1 := by
    rw [Session.process] at hp
    split at hp
    · obtain rfl := Except.ok.inj hp
      simp only [Session.gotAliv]
      split_ifs
      · exact hnote
      · exact hnote.congr rfl rfl
    · rename_i ht
      exact hnote.gotXmit henv (hx ht) hp
    · exact (stable env).gotAcks trivial hp hnote
    · exact hnote.gotFrag henv hp
    · obtain rfl := Except.ok.inj hp
      exact hnote
  rcases hs' with rfl | rfl
  · exact hprocess
  · exact hprocess.congr rfl rfl

end Genuine

/-- What a frame of the other end announces. -/
lemma Written.isHashOf {hash : Bytes → Blob 32} {Q : List (UInt64 × LinkMessage)} {f : Bytes}
    (h : Written hash Q f) (pad : Bytes)
    (hx : MsgType.ofByte (hdrMsgtype (f ++ pad)) = some .eXMIT) :
    IsHashOf hash Q (Xmit.ofFrame (f ++ pad)).msgid (Xmit.ofFrame (f ++ pad)).hash := by
  cases h with
  | @xmit id m flags hm =>
      rw [Session.ofFrame_xmitFrame, xmitOf_msgid, xmitOf_hash]
      exact ⟨m, hm, rfl⟩
  | frag flags _ _ => cases hx
  | acks id mask flags => cases hx
  | aliv flags => cases hx

section Runs

variable {L : Link σ} {C : Net σ → Event → Prop} {n n' : Net σ} {e : Event} {p : Side}

/-- A step of two honest ends. -/
lemma Step.genuine (hstep : Step L n e n') (hon : ∀ p, Honest L.shorthash (n.ends p))
    (h : Genuine L.shorthash (n.ends p.other).queued (n.ends p)) :
    Genuine L.shorthash (n'.ends p.other).queued (n'.ends p) := by
  refine Genuine.mono ?_ (hstep.queued_sublist p.other).subset
  obtain ⟨a, ha⟩ | ⟨f, pad, hf, hd⟩ | ⟨frames, -, he⟩ := hstep.ends_cases p
  · exact (Genuine.stable (L.env p)).act ha h
  · have hw := (hon p.other).written f (List.mem_append_left _ hf)
    exact h.handleFrameDecrypt (L.shorthash_eq p) (hw.isHashOf pad.1) hd
  · rw [he]
    exact h.congr rfl rfl

/-- What an end has handed over was queued at the other one. -/
lemma genuine_of_reachable (h : ReachableIf L C n) (p : Side) :
    Genuine L.shorthash (n.ends p.other).queued (n.ends p) := by
  refine h.rule (fun n h₀ => ?_) fun _ _ _ hreach _ hs hn =>
    hs.genuine (honest_of_reachable hreach) hn
  obtain ⟨hrx, -, -, -, -, -, hhanded, -⟩ := h₀ p
  constructor
  · intro id t ht
    simp [hrx] at ht
  · intro id x hx
    simp [hhanded] at hx

/-! ### What was queued is handed over -/

/-- Whatever is queued is in `tx` at first. -/
lemma queued_stable (env : LinkEnv σ) (Q : List (UInt64 × LinkMessage)) :
    Session.Stable env (fun _ => True) (fun _ => False) True
      (fun s => ∀ e ∈ s.queued, e ∈ Q ∨ e.1 ∈ s.frame.tx) where
  send s m h e he := by
    have htx : ∀ id, id ∈ s.frame.tx ∨ id = s.frame.txids → id ∈ (s.sendto env m).frame.tx := by
      intro id hid
      simp only [Session.sendto, Session.addOutboundMessage, Session.pump, FrameState.queueTx]
      split_ifs with hin
      · rcases hid with hid | rfl
        · exact hid
        · exact hin
      · exact (AList.mem_insert _).mpr hid.symm
    rcases List.mem_append.mp he with he | he
    · exact (h e he).imp_right fun hin => htx _ (.inl hin)
    · rw [List.mem_singleton.mp he]
      exact .inr (htx _ (.inr rfl))
  idle s s' hi h := by
    rw [hi.queued, hi.tx]
    exact h
  rxflag _ _ h := h
  txflag _ h := h
  aliv _ h := h
  store _ _ _ _ h := h
  ackfor _ _ _ _ h := h
  hand _ _ _ _ h := h
  forget _ _ _ h := h
  retire _ _ hid := hid.elim
  acked _ _ _ _ hid := hid.elim
  resend _ _ _ _ _ _ h := h

/-- An ack queues no message. -/
lemma queued_of_acks {env : LinkEnv σ} {now : UInt64} {buf : Bytes} {s s' : Session σ}
    (hacks : MsgType.ofByte (hdrMsgtype buf) = some .eACKS)
    (hd : s.handleFrameDecrypt env now buf = .ok s') : s'.queued = s.queued := by
  obtain ⟨r, hp, hs'⟩ := Session.Stable.handleFrameDecrypt_inv hd
  have hnote : (s.noteFlags buf).queued = s.queued := by rw [Session.noteFlags_eq]
  have hr : r.1.queued = (s.noteFlags buf).queued := by
    simp only [Session.process, hacks] at hp
    obtain he | he | ⟨t, mask, frames, -, -, he⟩ := Session.gotAcks_inv hp
    · rw [he]
    · rw [he]
      rfl
    · rw [he]
      rfl
  rcases hs' with rfl | rfl
  · exact hr.trans hnote
  · exact hr.trans hnote

/-- A step puts into `tx` what it queues. -/
lemma Step.queued_cases (hstep : Step L n e n') (p : Side) {entry : UInt64 × LinkMessage}
    (hentry : entry ∈ (n'.ends p).queued) :
    entry ∈ (n.ends p).queued ∨ entry.1 ∈ (n'.ends p).frame.tx := by
  have hold : ∀ e ∈ (n.ends p).queued, e ∈ (n.ends p).queued ∨ e.1 ∈ (n.ends p).frame.tx :=
    fun _ he => .inl he
  obtain ⟨a, ha⟩ | ⟨f, pad, -, hd⟩ | ⟨frames, -, he⟩ := hstep.ends_cases p
  · exact (queued_stable (L.env p) _).act ha hold entry hentry
  · by_cases hacks : MsgType.ofByte (hdrMsgtype (f ++ pad.1)) = some .eACKS
    · left
      rwa [queued_of_acks hacks hd] at hentry
    · exact (queued_stable (L.env p) _).handleFrameDecrypt (fun _ => trivial) (fun _ => trivial)
        (fun hc => hacks hc) (fun _ => trivial) hd hold entry hentry
  · left
    rwa [he] at hentry

/-- Messages that were handed over stay on record. -/
lemma Step.handed_subset (hstep : Step L n e n') (p : Side) :
    (n.ends p).handed ⊆ (n'.ends p).handed := by
  refine hstep.rule (P := fun s => (n.ends p).handed ⊆ s.handed) ?_ (fun _ _ _ hs => hs)
    (List.Subset.refl _)
  exact
    { send := fun _ _ hs => hs
      idle := fun _ _ hi hs => by rwa [hi.handed]
      rxflag := fun _ _ hs => hs
      txflag := fun _ hs => hs
      aliv := fun _ hs => hs
      store := fun _ _ _ _ hs => hs
      ackfor := fun _ _ _ _ hs => hs
      hand := fun _ _ _ _ hs => List.Subset.trans hs (List.subset_append_left _ _)
      forget := fun _ _ _ hs => hs
      retire := fun _ _ _ hs => hs
      acked := fun _ _ _ _ _ _ hs => hs
      resend := fun _ _ _ _ _ _ hs => hs }

/-- The message is still in `tx`, or the other end has given it to the router. -/
def Accounted (n : Net σ) (p : Side) (id : UInt64) (m : LinkMessage) : Prop :=
  id ∈ (n.ends p).frame.tx ∨ (id, m.1) ∈ (n.ends p.other).handed

/-- What was queued is accounted for. -/
lemma accounted_of_reachable (h : ReachableIf L C n) {id : UInt64} {m : LinkMessage}
    (hq : OnlyQueued n p id m) (hm : (id, m) ∈ (n.ends p).queued) : Accounted n p id m := by
  refine h.rule (P := fun n => OnlyQueued n p id m → (id, m) ∈ (n.ends p).queued →
    Accounted n p id m) (fun n h₀ _ hm => ?_) ?_ hq hm
  · obtain ⟨-, -, -, -, -, -, -, hqueued⟩ := h₀ p
    simp [hqueued] at hm
  · intro n e n' hreach _ hstep ih hq hm
    have hq' := hq.of_step hstep
    have htracked := tracked_of_reachable hreach hq'
    by_cases htx : id ∈ (n'.ends p).frame.tx
    · exact .inl htx
    · right
      have hold : (id, m) ∈ (n.ends p).queued := (hstep.queued_cases p hm).resolve_right htx
      rcases ih hq' hold with hin | hhanded
      · have hret := (Tracked.step hstep hq' (honest_of_reachable hreach) htracked).2 hin htx
        exact hstep.handed_subset p.other hret
      · exact hstep.handed_subset p.other hhanded

end Runs

end Udap.Iwp
