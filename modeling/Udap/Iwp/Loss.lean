import Udap.Iwp.Recover
import Mathlib.Data.Finset.Card

/-!
Losing frames.

`retransmit` sends `FRAG` frames only. A lost `XMIT` frame is never sent again, so the message it
announces is never handed over and never leaves `tx` (`lost_xmit_strands`). As long as the
network is careful (`Careful`), every message of an open session can still be handed over and
retired by ticks and deliveries alone (`no_message_stranded`).
-/

namespace Udap.Iwp

open ByteMem TransitMessage

/-! ### Flags -/

section Flags

variable {σ : Type}

/-- The end has invalidated the session. -/
def Closing (s : Session σ) : Prop := s.frame.txflags &&& eSessionInvalidated ≠ 0

/-- The frame tells that its author has invalidated the session. -/
def Flagged (f : Bytes) : Prop := hdrFlags f &&& eSessionInvalidated ≠ 0

/-- The bit is set once it was set. -/
lemma or_eSessionInvalidated (x : UInt8) :
    (x ||| eSessionInvalidated) &&& eSessionInvalidated ≠ 0 := by
  have h : (x ||| 1) &&& 1 = (1 : UInt8) := by
    apply UInt8.eq_of_toBitVec_eq
    simp only [UInt8.toBitVec_and, UInt8.toBitVec_or]
    ext i hi
    simp
    grind
  rw [eSessionInvalidated, h]
  decide

/-- `retransmit_frags` writes the flags it is given. -/
lemma hdrFlags_retransmitFrags {t : TransitMessage} {flags : UInt8} {frames : List Bytes}
    (h : t.retransmitFrags flags = .ok frames) {f : Bytes} (hf : f ∈ frames) :
    hdrFlags f = flags := by
  obtain ⟨fragno, frag, rfl⟩ := exists_fragFrame h hf
  rfl

/-- Frames carry the flag only if their author is closing. -/
def FlagsSent (s : Session σ) : Prop :=
  ∀ f ∈ s.outbound ++ s.frame.sendqueue, Flagged f → Closing s

/-- A new frame carries the current flags. -/
lemma FlagsSent.of_new {s s' : Session σ} (h : FlagsSent s)
    (htx : s'.frame.txflags = s.frame.txflags)
    (hf : ∀ f ∈ s'.outbound ++ s'.frame.sendqueue,
      f ∈ s.outbound ++ s.frame.sendqueue ∨ hdrFlags f = s.frame.txflags) : FlagsSent s' := by
  intro f hmem hfl
  rw [Closing, htx]
  obtain hold | hnew := hf f hmem
  · exact h f hold hfl
  · rwa [← hnew]

lemma flagsSent_stable (env : LinkEnv σ) :
    Session.Stable env (fun _ => True) (fun _ => True) True (FlagsSent (σ := σ)) where
  send s m h := h.of_new rfl fun f hf => by
    simp only [Session.sendto, Session.addOutboundMessage, Session.pump, FrameState.queueTx,
      List.append_nil, ← List.append_assoc] at hf
    obtain hf | hf := List.mem_append.mp hf
    · exact .inl hf
    · rw [List.mem_singleton.mp hf]
      exact .inr rfl
  idle s s' hi h := h.of_new hi.txflags fun f hf => .inl (by rwa [hi.frames] at hf)
  rxflag s _ h := h
  txflag s h := fun f _ _ => or_eSessionInvalidated _
  aliv s h := h.of_new rfl fun f hf => by
    simp only [Session.keeping, List.mem_append, List.mem_singleton] at hf ⊢
    obtain (hf | rfl) | hf := hf
    · exact .inl (.inl hf)
    · exact .inr rfl
    · exact .inl (.inr hf)
  store _ _ _ _ h := h
  ackfor s id mask _ h := h.of_new rfl fun f hf => by
    obtain hf | rfl := s.mem_acking id hf
    · exact .inl hf
    · exact .inr rfl
  hand _ _ _ _ h := h
  forget _ _ _ h := h
  retire _ _ _ h := h
  acked _ _ _ _ _ _ h := h
  resend s _ _ frames _ hfr h := h.of_new rfl fun f hf => by
    simp only [Session.queueing, ← List.append_assoc] at hf
    obtain hf | hf := List.mem_append.mp hf
    · exact .inl hf
    · exact .inr (hdrFlags_retransmitFrags hfr hf)

/-- An end that is closing stays so. -/
lemma closing_stable (env : LinkEnv σ) :
    Session.Stable env (fun _ => True) (fun _ => True) True (Closing (σ := σ)) where
  send _ _ h := h
  idle _ _ hi h := by rwa [Closing, hi.txflags]
  rxflag _ _ h := h
  txflag _ _ := or_eSessionInvalidated _
  aliv _ h := h
  store _ _ _ _ h := h
  ackfor _ _ _ _ h := h
  hand _ _ _ _ h := h
  forget _ _ _ h := h
  retire _ _ _ h := h
  acked _ _ _ _ _ _ h := h
  resend _ _ _ _ _ _ h := h

/-- The peer's invalidation is noted only if `C` holds. -/
def NotedIf (C : Prop) (s : Session σ) : Prop := s.frame.rxflags &&& eSessionInvalidated ≠ 0 → C

lemma notedIf_stable (env : LinkEnv σ) (C : Prop) :
    Session.Stable env (fun _ => True) (fun _ => True) C (NotedIf (σ := σ) C) where
  send _ _ h := h
  idle _ _ hi h := by rwa [NotedIf, hi.rxflags]
  rxflag _ hC _ := fun _ => hC
  txflag _ h := h
  aliv _ h := h
  store _ _ _ _ h := h
  ackfor _ _ _ _ h := h
  hand _ _ _ _ h := h
  forget _ _ _ h := h
  retire _ _ _ h := h
  acked _ _ _ _ _ _ h := h
  resend _ _ _ _ _ _ h := h

/-- Padding does not hide the flags of a frame. -/
lemma Written.hdrFlags_append {hash : Bytes → Blob 32} {Q : List (UInt64 × LinkMessage)}
    {f : Bytes} (h : Written hash Q f) (pad : Bytes) : hdrFlags (f ++ pad) = hdrFlags f := by
  cases h <;> rfl

variable {L : Link σ} {n n' : Net σ} {e : Event} {C : Net σ → Event → Prop} {p : Side}

lemma flagsSent_of_reachable (h : ReachableIf L C n) (p : Side) : FlagsSent (n.ends p) := by
  refine h.rule (P := fun n => FlagsSent (n.ends p)) (fun n h₀ f hf => ?_)
    fun n e n' _ _ hstep hn => ?_
  · obtain ⟨-, -, hsq, -, -, hout, -⟩ := h₀ p
    simp [hsq, hout] at hf
  · refine hstep.rule (flagsSent_stable (L.env p)) (fun s frames hsub hs f hf hfl => ?_) hn
    exact hs f (by
      simp only [List.mem_append] at hf ⊢
      exact hf.imp_left fun hf => hsub hf) hfl

/-- An end notes an invalidation only after the other end has closed. -/
lemma notedIf_of_reachable (h : ReachableIf L C n) (p : Side) :
    NotedIf (Closing (n.ends p)) (n.ends p.other) := by
  refine h.rule (P := fun n => NotedIf (Closing (n.ends p)) (n.ends p.other))
    (fun n h₀ hfl => ?_) fun n e n' hreach _ hstep hn => ?_
  · obtain ⟨-, -, -, hrf, -⟩ := h₀ p.other
    rw [hrf] at hfl
    exact absurd rfl hfl
  · have hclose : Closing (n.ends p) → Closing (n'.ends p) :=
      hstep.rule (closing_stable (L.env p)) fun _ _ _ hs => hs
    have hnoted : NotedIf (Closing (n.ends p)) (n'.ends p.other) := by
      have hst := notedIf_stable (L.env p.other) (Closing (n.ends p))
      obtain ⟨a, ha⟩ | ⟨f, pad, hf, hd⟩ | ⟨frames, -, he⟩ := hstep.ends_cases p.other
      · exact hst.act ha hn
      · rw [Net.inflight_other] at hf
        refine hst.handleFrameDecrypt (fun _ => trivial) (fun _ => trivial) (fun _ => trivial)
          (fun hfl => ?_) hd hn
        have hmem := List.mem_append_left (n.ends p).frame.sendqueue hf
        rw [((honest_of_reachable hreach p).written f hmem).hdrFlags_append] at hfl
        exact flagsSent_of_reachable hreach p f hmem hfl
      · rw [he]
        exact hn
    exact fun hfl => hclose (hnoted hfl)

end Flags

/-! ### Open sessions -/

section Open

variable {σ : Type} {env : LinkEnv σ} {now : UInt64} {s s' : Session σ}

/-- The session is established and has not timed out. -/
def Open (now : UInt64) (s : Session σ) : Prop :=
  s.state = .eEstablished ∧ s.timedout now = false

lemma Open.congr (h : Open now s) (hstate : s'.state = s.state)
    (hevent : s'.frame.lastEvent = s.frame.lastEvent) : Open now s' := by
  refine ⟨hstate.trans h.1, ?_⟩
  rw [Session.timedout, hevent]
  exact h.2

/-- A frame that is accepted restarts the time-out. -/
lemma timedout_alive (s : Session σ) :
    Session.timedout now { s with frame := s.frame.alive now }.pump = false := by
  have hzero : Session.timedout now { s with frame := s.frame.alive now }.pump =
      decide (now - now ≥ sessionTimeout) := rfl
  rw [hzero, UInt64.sub_self]
  decide

/-- Completing a message leaves an open session open. -/
lemma Open.completeMessage (h : Open now s) (id : UInt64) (msg : Bytes) :
    Open now (s.completeMessage env now id msg).1 := by
  have hfold : ∀ (l : List LinkMessage) (s : Session σ), Open now s →
      Open now (l.foldl (Session.sendto env) s) := by
    intro l
    induction l with
    | nil => exact fun s h => h
    | cons m l ih => exact fun s h => ih _ h
  have hover : Open now (s.handOver env id msg).1 := hfold _ _ h
  rw [Session.completeMessage]
  split
  rename_i s₁ success heq
  rw [heq] at hover
  split_ifs
  · have hest : s₁.isEstablished = true := by
      rw [Session.isEstablished, show s₁.state = .eEstablished from hover.1]
      rfl
    rw [Session.introduced]
    split
    · rw [Session.accepted]
      split_ifs with hest'
      · exact hover
      · exact absurd hest hest'
    · exact hover
  · exact hover

lemma Open.inboundFrameComplete (h : Open now s) {id : UInt64} {r : Session σ × Bool}
    (hr : s.inboundFrameComplete env now id = .ok r) : Open now r.1 := by
  obtain he | he | ⟨msg, he⟩ := Session.inboundFrameComplete_inv hr
  · rw [he]
    exact h.congr rfl rfl
  · rw [he]
    exact h.congr rfl rfl
  · rw [he]
    exact h.completeMessage id msg

/-- A frame leaves an open session open. -/
lemma Open.handleFrameDecrypt (h : Open now s) {buf : Bytes}
    (hs : s.handleFrameDecrypt env now buf = .ok s') : Open now s' := by
  obtain ⟨r, hp, hs'⟩ := Session.Stable.handleFrameDecrypt_inv hs
  have hn : Open now (s.noteFlags buf) := by
    rw [Session.noteFlags_eq]
    exact h.congr rfl rfl
  have hr : Open now r.1 := by
    rw [Session.process] at hp
    split at hp
    · obtain rfl := Except.ok.inj hp
      simp only [Session.gotAliv]
      split_ifs
      · exact hn.congr rfl rfl
      · exact hn
    · obtain he | ⟨-, msg, he | he⟩ := Session.gotXmit_inv hp
      · rwa [he]
      · rw [he]
        exact hn.congr rfl rfl
      · exact Open.inboundFrameComplete (s := (Session.stored _ msg _).acking _ 0)
          (hn.congr rfl rfl) he
    · obtain he | he | ⟨t, mask, frames, -, -, he⟩ := Session.gotAcks_inv hp
      · rwa [he]
      · rw [he]
        exact hn.congr rfl rfl
      · rw [he]
        exact hn.congr rfl rfl
    · obtain he | ⟨-, msg, he | he | he⟩ := Session.gotFrag_inv hp
      · rwa [he]
      · rw [he]
        exact hn.congr rfl rfl
      · rw [he]
        exact hn.congr rfl rfl
      · exact Open.inboundFrameComplete
          (s := (Session.stored _ msg _).acking _ msg.getBitmask) (hn.congr rfl rfl) he
    · obtain rfl := Except.ok.inj hp
      exact hn
  obtain rfl | rfl := hs'
  · exact hr
  · exact ⟨hr.1, timedout_alive r.1⟩

/-- The loop of `retransmit` over messages of an honest end. -/
lemma retransmitEntries_ok (flags : UInt8) (l : List (Sigma fun _ : UInt64 => TransitMessage))
    (hl : ∀ e ∈ l, ∃ fs, e.2.retransmitFrags flags = .ok fs) :
    ∃ frames, FrameState.retransmitEntries flags l = .ok frames ∧
      ∀ e ∈ l, ∀ fs, e.2.retransmitFrags flags = .ok fs → fs ⊆ frames := by
  induction l with
  | nil => exact ⟨[], rfl, fun e he => by cases he⟩
  | cons e l ih =>
      obtain ⟨id, msg⟩ := e
      obtain ⟨more, hmore, hsub⟩ := ih fun e he => hl e (List.mem_cons_of_mem _ he)
      obtain ⟨fs, hfs⟩ := hl ⟨id, msg⟩ List.mem_cons_self
      refine ⟨fs ++ more, ?_, fun e he fs' hfs' => ?_⟩
      · simp [FrameState.retransmitEntries, hfs, hmore, bind, Except.bind, pure, Except.pure]
      · obtain rfl | he := List.mem_cons.mp he
        · obtain rfl := Except.ok.inj (hfs.symm.trans hfs')
          exact List.subset_append_left _ _
        · exact List.Subset.trans (hsub e he fs' hfs') (List.subset_append_right _ _)

/-- `Tick` on an open session of an honest end sends what is queued and what is not acked. -/
lemma Open.tick {hash : Bytes → Blob 32} (h : Open now s) (hinv : s.isInvalidated = false)
    (hon : Honest hash s) :
    ∃ s', s.tick now false = .ok (s', false) ∧ Open now s' ∧ s'.frame.tx = s.frame.tx ∧
      s'.frame.rx = s.frame.rx ∧ s'.frame.txflags = s.frame.txflags ∧ s'.handed = s.handed ∧
      s'.queued = s.queued ∧ s.outbound ++ s.frame.sendqueue ⊆ s'.outbound ∧
      ∀ id t fs, s.frame.tx.lookup id = some t → t.retransmitFrags s.frame.txflags = .ok fs →
        fs ⊆ s'.outbound := by
  obtain ⟨frames, hframes, hsub⟩ := retransmitEntries_ok s.frame.txflags
    s.frame.tx.entries fun e he => by
      obtain ⟨m, -, hc⟩ := hon.cut e.1 e.2 (AList.mem_lookup_iff.mpr he)
      obtain ⟨fs, hfs, -⟩ := hc.retransmitFrags m.2 s.frame.txflags
      exact ⟨fs, hfs⟩
  have hkeep : s.sendKeepalive = s.keeping.pump := by
    rw [Session.sendKeepalive, hinv]
    rfl
  have hlive : s.tickLive = .ok (s.keeping.pump.queueing frames).pump := by
    rw [Session.tickLive,
      if_pos (Or.inl h.1 : s.state = .eEstablished ∨ s.state = .eLIMSent), hkeep,
      if_pos (show s.keeping.pump.state = _ from h.1), FrameState.retransmit]
    have : FrameState.retransmitEntries s.keeping.pump.frame.txflags
        s.keeping.pump.frame.tx.entries = .ok frames := hframes
    rw [this]
    rfl
  refine ⟨(s.keeping.pump.queueing frames).pump, ?_, h, rfl, rfl, rfl, rfl, rfl,
    fun f hf => ?_, fun id t fs hl hfs f hf => ?_⟩
  · rw [Session.tick, h.2, hinv, hlive]
    rfl
  · simp only [Session.pump, Session.queueing, Session.keeping, List.mem_append] at hf ⊢
    exact .inl (hf.imp_left .inl)
  · simp only [Session.pump, Session.queueing, List.mem_append]
    exact .inr (.inr (hsub ⟨id, t⟩ (AList.mem_lookup_iff.mp hl) fs hfs hf))

end Open

/-! ### Recovery -/

/-- A tick or a delivery. -/
def Calm {σ : Type} (_ : Net σ) : Event → Prop
  | .act _ (.tick _) => True
  | .deliver _ _ _ => True
  | _ => False

/-- Both ends are open at the current time, and the sender `p` has not closed the session. -/
def Live {σ : Type} (p : Side) (n : Net σ) : Prop :=
  Open n.clock (n.ends p) ∧ Open n.clock (n.ends p.other) ∧ ¬ Closing (n.ends p)

section Recovery

variable {σ : Type} {L : Link σ} {n n' : Net σ} {e : Event} {p : Side} {id : UInt64}
  {m : LinkMessage}

lemma Calm.careful (h : Calm n e) : Careful p id n e := by
  cases e with
  | drop q f => cases h
  | _ => trivial

/-- How many of the first `k` status bits are not set. -/
def missing (k : ℕ) (st : BitVec 32) : ℕ :=
  ((Finset.range k).filter fun i => st.getLsbD i = false).card

lemma missing_or_lt {k i : ℕ} {st : BitVec 32} (hi : i < k) (hi' : i < 32)
    (hb : st.getLsbD i = false) : missing k (st ||| BitVec.twoPow 32 i) < missing k st := by
  refine Finset.card_lt_card (Finset.ssubset_iff_of_subset ?_ |>.mpr ⟨i, ?_, ?_⟩)
  · intro j hj
    rw [Finset.mem_filter] at hj ⊢
    refine ⟨hj.1, ?_⟩
    have hor := hj.2
    rw [BitVec.getLsbD_or, Bool.or_eq_false_iff] at hor
    exact hor.1
  · simp [hi, hb]
  · simp [hi', BitVec.getLsbD_twoPow]

/-- A session end that has not noted an invalidation or has not sent one is not invalidated. -/
lemma not_isInvalidated {s : Session σ} (h : s.frame.rxflags &&& eSessionInvalidated = 0 ∨
    s.frame.txflags &&& eSessionInvalidated = 0) : s.isInvalidated = false := by
  rw [Session.isInvalidated, FrameState.flagsAgree]
  obtain h | h := h
  · rw [h]
    simp [eSessionInvalidated]
  · rw [h]
    simp [eSessionInvalidated]

/-- A careful run in which message `m` under `id` is on its way from the open end `p`. -/
structure Going (L : Link σ) (p : Side) (id : UInt64) (m : LinkMessage) (n : Net σ) : Prop where
  reach : ReachableIf L (Careful p id) n
  live : Live p n
  tx : id ∈ (n.ends p).frame.tx
  queued : (id, m) ∈ (n.ends p).queued
  once : UsedOnce id (n.ends p)

namespace Going

/-- An id that was used once names one message. -/
lemma onlyQueued (h : Going L p id m n) : OnlyQueued n p id m := by
  intro m' hm'
  by_contra hne
  obtain ⟨l, hperm, hsub⟩ : [(id, m), (id, m')].Subperm (n.ends p).queued := by
    refine List.subperm_of_subset ?_ ?_
    · simpa using Ne.symm hne
    · simp [h.queued, hm']
  have htwo : (l.map Prod.fst).count id = 2 := by
    rw [(hperm.map Prod.fst).count_eq]
    simp
  have hle := (hsub.map Prod.fst).count_le id
  have hone := h.once
  rw [UsedOnce] at hone
  omega

lemma tracked (h : Going L p id m n) :
    Tracked L.shorthash id m (n.ends p) (n.ends p.other) :=
  tracked_of_reachable h.reach h.onlyQueued

lemma recoverable (h : Going L p id m n) : Recoverable id m (n.ends p) (n.ends p.other) :=
  recoverable_of_reachable h.reach h.onlyQueued h.once

/-- The entry of `tx`. -/
lemma exists_cut (h : Going L p id m n) : ∃ t, (n.ends p).frame.tx.lookup id = some t ∧
    IsCut (L.shorthash m.1) id m.1 t := by
  obtain ⟨t, ht⟩ := Option.isSome_iff_exists.mp (AList.lookup_isSome.mpr h.tx)
  obtain ⟨m', hm', hc⟩ := (honest_of_reachable h.reach p).cut id t ht
  obtain rfl := h.onlyQueued m' hm'
  exact ⟨t, ht, hc⟩

/-- The sender runs `Tick`. -/
lemma tick_sender (h : Going L p id m n) : ∃ n', StepIf L Calm n n' ∧ Going L p id m n' ∧
    (n'.ends p).frame.tx = (n.ends p).frame.tx ∧ n'.ends p.other = n.ends p.other ∧
    ∀ t fs, (n.ends p).frame.tx.lookup id = some t →
      t.retransmitFrags (n.ends p).frame.txflags = .ok fs → fs ⊆ n'.inflight p.other := by
  obtain ⟨hp, hq, hclose⟩ := h.live
  have hinv := not_isInvalidated (.inr (not_not.mp hclose))
  obtain ⟨s, htick, hopen, htx, -, hfl, -, hqd, -, hfr⟩ :=
    hp.tick hinv (honest_of_reachable h.reach p)
  have hstep : Step L n (.act p (.tick false)) (n.set p s) := .act p (.tick false htick)
  have hcalm : Calm n (.act p (.tick false)) := trivial
  refine ⟨n.set p s, ⟨_, hcalm, hstep⟩, ⟨h.reach.step hcalm.careful hstep, ?_, ?_, ?_, ?_⟩,
    ?_, ?_, ?_⟩
  · rw [Live, Net.set_ends_self, Net.set_ends_other, Closing, hfl]
    exact ⟨hopen, hq, hclose⟩
  · rw [Net.set_ends_self, htx]
    exact h.tx
  · rw [Net.set_ends_self, hqd]
    exact h.queued
  · rw [Net.set_ends_self, UsedOnce, hqd]
    exact h.once
  · rw [Net.set_ends_self, htx]
  · rw [Net.set_ends_other]
  · intro t fs hl hfs
    rw [Net.inflight_other, Net.set_ends_self]
    exact hfr id t fs hl hfs

/-- The receiver runs `Tick`. -/
lemma tick_receiver (h : Going L p id m n) : ∃ n', StepIf L Calm n n' ∧ Going L p id m n' ∧
    n'.ends p = n.ends p ∧ (n'.ends p.other).handed = (n.ends p.other).handed ∧
    (n.ends p.other).outbound ++ (n.ends p.other).frame.sendqueue ⊆ n'.inflight p := by
  obtain ⟨hp, hq, hclose⟩ := h.live
  have hnote := notedIf_of_reachable h.reach p
  have hinv := not_isInvalidated (s := n.ends p.other)
    (.inl (not_not.mp fun hfl => hclose (hnote hfl)))
  obtain ⟨s, htick, hopen, -, -, -, hh, -, hfr, -⟩ :=
    hq.tick hinv (honest_of_reachable h.reach p.other)
  have hstep : Step L n (.act p.other (.tick false)) (n.set p.other s) :=
    .act p.other (.tick false htick)
  have hcalm : Calm n (.act p.other (.tick false)) := trivial
  have hself : (n.set p.other s).ends p = n.ends p := Net.set_other_ends ..
  have hother : (n.set p.other s).ends p.other = s := Net.set_ends_self ..
  refine ⟨n.set p.other s, ⟨_, hcalm, hstep⟩, ⟨h.reach.step hcalm.careful hstep, ?_, ?_, ?_, ?_⟩,
    hself, ?_, ?_⟩
  · rw [Live, hself, hother]
    exact ⟨hp, hopen, hclose⟩
  · rw [hself]
    exact h.tx
  · rw [hself]
    exact h.queued
  · rw [hself]
    exact h.once
  · rw [hother, hh]
  · rw [Net.inflight, hother]
    exact hfr

/-- A frame reaches the receiver. -/
lemma deliver (h : Going L p id m n) {f : Bytes} (hf : f ∈ n.inflight p.other) {r : Session σ}
    (hr : (n.ends p.other).handleFrameDecrypt (L.env p.other) n.clock (f ++ []) = .ok r) :
    ∃ n', StepIf L Calm n n' ∧ Going L p id m n' ∧
      (n'.ends p).frame.tx = (n.ends p).frame.tx ∧ n'.ends p.other = r := by
  obtain ⟨hp, hq, hclose⟩ := h.live
  have hstep : Step L n (.deliver p.other f ⟨[], by decide⟩) _ := .deliver p.other _ hf hr
  have hcalm : Calm n (.deliver p.other f ⟨[], by decide⟩) := trivial
  refine ⟨_, ⟨_, hcalm, hstep⟩, ⟨h.reach.step hcalm.careful hstep, ?_, ?_, ?_, ?_⟩, ?_, ?_⟩
  · rw [Live, Net.carry_other_ends, Net.carry_ends_self, Net.set_other_ends, Net.set_ends_self]
    exact ⟨hp, hq.handleFrameDecrypt hr, hclose⟩
  · rw [Net.carry_other_ends, Net.set_other_ends]
    exact h.tx
  · rw [Net.carry_other_ends, Net.set_other_ends]
    exact h.queued
  · rw [Net.carry_other_ends, Net.set_other_ends]
    exact h.once
  · rw [Net.carry_other_ends, Net.set_other_ends]
  · rw [Net.carry_ends_self, Net.set_ends_self]

/-- The receiver takes the message up. -/
lemma take_up (h : Going L p id m n) (hrx : id ∉ (n.ends p.other).frame.rx)
    (hh : ∀ b, (id, b) ∉ (n.ends p.other).handed) :
    ∃ n', StepIf L Calm n n' ∧ Going L p id m n' ∧
      ((id, m.1) ∈ (n'.ends p.other).handed ∨ id ∈ (n'.ends p.other).frame.rx) := by
  obtain ⟨f, hf, hx⟩ := h.recoverable.pending h.tx hrx hh
  obtain ⟨m', flags, hm', rfl⟩ := ((honest_of_reachable h.reach p).written f
    (List.mem_append_left _ hf)).of_isXmitFor hx
  obtain rfl := h.onlyQueued m' hm'
  rw [← Net.inflight_other] at hf
  rw [← L.shorthash_eq p.other] at hf
  obtain ⟨r, hr⟩ := Session.handleFrameDecrypt_xmitFrame_ok (L.env p.other) n.clock m'.2 id flags
    ⟨[], by decide⟩ (n.ends p.other)
  obtain ⟨n', hstep, hgo, -, hn'⟩ := h.deliver hf hr
  refine ⟨n', hstep, hgo, ?_⟩
  rw [hn']
  obtain ⟨hin, -⟩ | ⟨-, t, ha⟩ | hc := recv_xmit_cases hr
  · exact absurd hin hrx
  · exact .inr (AList.lookup_isSome.mp (Option.isSome_of_eq_some ha.rx))
  · exact .inl ((hc.handed m'.1).mpr (.inr rfl))

/-- One fragment that the receiver misses arrives. -/
lemma add_frag (h : Going L p id m n) {t : TransitMessage}
    (hl : (n.ends p.other).frame.rx.lookup id = some t)
    (hh : (id, m.1) ∉ (n.ends p.other).handed) :
    ∃ n', Relation.ReflTransGen (StepIf L Calm) n n' ∧ Going L p id m n' ∧
      ((id, m.1) ∈ (n'.ends p.other).handed ∨
        ∃ t', (n'.ends p.other).frame.rx.lookup id = some t' ∧
          missing (numfragsOf m.1) t'.status < missing (numfragsOf m.1) t.status) := by
  have htr := h.tracked
  obtain ⟨i, hi, hbit⟩ : ∃ i < numfragsOf m.1, t.status.getLsbD i = false := by
    have hnot := (htr.rx t hl).2
    rw [Full] at hnot
    push Not at hnot
    obtain ⟨i, hi, hb⟩ := hnot
    exact ⟨i, hi, by simpa using hb⟩
  -- the sender does not think that the fragment has arrived, so it sends it
  obtain ⟨tx, htx, hcut⟩ := h.exists_cut
  have hunacked : tx.status.getLsbD i = false := by
    by_contra hb
    obtain hk | ⟨t', ht', hb'⟩ := htr.bits tx htx i hi (by simpa using hb)
    · exact hh hk
    · obtain rfl := Option.some.inj (hl.symm.trans ht')
      rw [hbit] at hb'
      cases hb'
  obtain ⟨frames, hframes, hspec⟩ := hcut.retransmitFrags m.2 (n.ends p).frame.txflags
  obtain ⟨n₁, hstep₁, hgo₁, -, hr₁, hfr₁⟩ := h.tick_sender
  have hmem : fragFrameOf id m.1 i (n.ends p).frame.txflags ∈ n₁.inflight p.other :=
    hfr₁ tx frames htx hframes ((hspec _).mpr ⟨i, hi, hunacked, rfl⟩)
  have hpart : ∀ t, (n₁.ends p.other).frame.rx.lookup id = some t →
      IsPartial ((L.env p.other).shorthash m.1) id m.1 t := by
    rw [L.shorthash_eq]
    exact fun t ht => (hgo₁.tracked.rx t ht).1
  obtain ⟨r, hr⟩ := Session.handleFrameDecrypt_fragFrame_ok (L.env p.other) n₁.clock m.2 id hi
    (n.ends p).frame.txflags ⟨[], by decide⟩ hpart
  obtain ⟨n₂, hstep₂, hgo₂, -, hn₂⟩ := hgo₁.deliver hmem hr
  refine ⟨n₂, .head hstep₁ (.single hstep₂), hgo₂, ?_⟩
  rw [hn₂]
  obtain ⟨hno, -⟩ | ⟨t₀, t', ht₀, hst, ha⟩ | hc := recv_frag_cases hi hpart hr
  · rw [hr₁] at hno
    exact absurd (AList.lookup_isSome.mp (Option.isSome_of_eq_some hl)) hno
  · right
    rw [hr₁, hl] at ht₀
    obtain rfl := Option.some.inj ht₀
    refine ⟨t', ha.rx, ?_⟩
    rw [hst]
    have := numfragsOf_le m.2
    exact missing_or_lt hi (by omega) hbit
  · exact .inl ((hc.handed m.1).mpr (.inr rfl))

/-- Fragment by fragment the message is completed. -/
lemma complete (h : Going L p id m n) (hrx : id ∈ (n.ends p.other).frame.rx) :
    ∃ n', Relation.ReflTransGen (StepIf L Calm) n n' ∧ Going L p id m n' ∧
      (id, m.1) ∈ (n'.ends p.other).handed := by
  obtain ⟨t, ht⟩ := Option.isSome_iff_exists.mp (AList.lookup_isSome.mpr hrx)
  clear hrx
  induction hk : missing (numfragsOf m.1) t.status
    using Nat.strong_induction_on generalizing n t with
  | _ k ih =>
      by_cases hh : (id, m.1) ∈ (n.ends p.other).handed
      · exact ⟨n, .refl, h, hh⟩
      · obtain ⟨n₁, hrun, hgo, hdone | ⟨t', ht', hlt⟩⟩ := h.add_frag ht hh
        · exact ⟨n₁, hrun, hgo, hdone⟩
        · obtain ⟨n₂, hrun₂, hgo₂, hdone⟩ := ih _ (hk ▸ hlt) hgo t' ht' rfl
          exact ⟨n₂, hrun.trans hrun₂, hgo₂, hdone⟩

/-- A message that has been handed over is retired. -/
lemma retire (h : Going L p id m n) (hh : (id, m.1) ∈ (n.ends p.other).handed) :
    ∃ n', Relation.ReflTransGen (StepIf L Calm) n n' ∧
      (id, m.1) ∈ (n'.ends p.other).handed ∧ id ∉ (n'.ends p).frame.tx := by
  obtain ⟨t, ht, hcut⟩ := h.exists_cut
  obtain ⟨f, hf, hack, hfull⟩ := h.recoverable.final t ht ⟨_, hh⟩
  -- the receiver flushes its queue
  obtain ⟨n₁, hstep₁, hgo₁, hp₁, hh₁, hfr₁⟩ := h.tick_receiver
  have hmem := hfr₁ hf
  have hwr := (honest_of_reachable h.reach p.other).written f hf
  obtain ⟨mask, flags, rfl⟩ : ∃ mask flags, f = ackFrame id mask flags := by
    cases hwr with
    | xmit => exact absurd hack (not_isAckFor_initSendbuf (by decide))
    | frag => exact absurd hack (not_isAckFor_initSendbuf (by decide))
    | aliv => exact absurd hack (not_isAckFor_initSendbuf (by decide))
    | acks id' mask flags =>
        obtain rfl := isAckFor_ackFrame.mp hack
        exact ⟨mask, flags, rfl⟩
  rw [ackMask_ackFrame] at hfull
  rw [← hp₁] at ht
  obtain ⟨s, hs⟩ := Session.handleFrameDecrypt_ackFrame_ok (L.env p) n₁.clock m.2 ht hcut mask
    flags ⟨[], by decide⟩
  have htx := (Session.handleFrameDecrypt_ackFrame_tx _ _ hs).2 _ _ t m.2 ht hcut
  rw [if_pos hfull] at htx
  have hstep₂ : StepIf L Calm n₁ _ := ⟨.deliver p _ _, trivial, .deliver p _ hmem hs⟩
  refine ⟨_, .head hstep₁ (.single hstep₂), ?_, ?_⟩
  · rw [Net.carry_ends_other, Net.set_ends_other, hh₁]
    exact hh
  · rw [Net.carry_ends_self, Net.set_ends_self, htx]
    exact fun hin => (AList.mem_erase.mp hin).1 rfl

end Going

/-- **No message is stranded.** In every run in which the network loses neither the last copy of
an `XMIT` frame that the receiver needs nor the last copy of an `ACKS` frame that would retire the
message: from every state in which both ends are open, the sender has not closed the session and
its `tx` holds message `id`, ticks and deliveries alone lead to a state in which the receiver has
been handed the message and `tx` no longer holds it. -/
theorem no_message_stranded (L : Link σ) (p : Side) (id : UInt64) (m : LinkMessage) {n : Net σ}
    (hreach : ReachableIf L (Careful p id) n) (hlive : Live p n)
    (hin : id ∈ (n.ends p).frame.tx) (hqueued : (id, m) ∈ (n.ends p).queued)
    (honce : UsedOnce id (n.ends p)) :
    ∃ n', Relation.ReflTransGen (StepIf L Calm) n n' ∧
      (id, m.1) ∈ (n'.ends p.other).handed ∧ id ∉ (n'.ends p).frame.tx := by
  have hgo : Going L p id m n := ⟨hreach, hlive, hin, hqueued, honce⟩
  by_cases hh : (id, m.1) ∈ (n.ends p.other).handed
  · exact hgo.retire hh
  · have hstart : ∃ n₁, Relation.ReflTransGen (StepIf L Calm) n n₁ ∧ Going L p id m n₁ ∧
        ((id, m.1) ∈ (n₁.ends p.other).handed ∨ id ∈ (n₁.ends p.other).frame.rx) := by
      by_cases hrx : id ∈ (n.ends p.other).frame.rx
      · exact ⟨n, .refl, hgo, .inr hrx⟩
      · have hnone : ∀ b, (id, b) ∉ (n.ends p.other).handed := fun b hb => by
          obtain rfl := hgo.recoverable.handed b hb
          exact hh hb
        obtain ⟨n₁, hstep, hgo₁, hres⟩ := hgo.take_up hrx hnone
        exact ⟨n₁, .single hstep, hgo₁, hres⟩
    obtain ⟨n₁, hrun₁, hgo₁, hres⟩ := hstart
    obtain ⟨n₂, hrun₂, hgo₂, hh₂⟩ : ∃ n₂, Relation.ReflTransGen (StepIf L Calm) n₁ n₂ ∧
        Going L p id m n₂ ∧ (id, m.1) ∈ (n₂.ends p.other).handed := by
      obtain hh₁ | hrx := hres
      · exact ⟨n₁, .refl, hgo₁, hh₁⟩
      · exact hgo₁.complete hrx
    obtain ⟨n₃, hrun₃, hdone⟩ := hgo₂.retire hh₂
    exact ⟨n₃, hrun₁.trans (hrun₂.trans hrun₃), hdone⟩

end Recovery

/-- `shortMessage` has been sent and nothing has been lost yet. -/
theorem no_message_stranded_short : Live .initiator sentNet ∧
    ∃ n', Relation.ReflTransGen (StepIf shortLink Calm) sentNet n' ∧
      (1, shortMessage.1) ∈ (n'.ends .responder).handed ∧ 1 ∉ (n'.ends .initiator).frame.tx := by
  have hlive : Live .initiator sentNet :=
    ⟨⟨rfl, by decide⟩, ⟨rfl, by decide⟩, fun h => h rfl⟩
  have hreach : ReachableIf shortLink (Careful .initiator 1) sentNet :=
    (ReachableIf.initial freshNet_initial).step
      (show Careful .initiator 1 freshNet (.act .initiator (.send shortMessage)) from trivial)
      (.act .initiator (.send shortMessage))
  have hqueued : (sentNet.ends .initiator).queued = [(1, shortMessage)] := rfl
  refine ⟨hlive, no_message_stranded shortLink .initiator 1 shortMessage hreach hlive ?_ ?_ ?_⟩
  · exact (AList.mem_insert _).mpr (.inl rfl)
  · rw [hqueued]
    exact List.mem_singleton_self _
  · rw [UsedOnce, hqueued]
    decide

/-! ### A lost `XMIT` frame -/

section Lost

variable {σ : Type} {env : LinkEnv σ} {s s' : Session σ} {now : UInt64}

/-- The end receives nothing, has nothing to retransmit, and has written keepalives only. -/
structure Barren (s : Session σ) : Prop where
  rx : s.frame.rx = ∅
  tx : ∀ e ∈ s.frame.tx.entries, ∀ flags, e.2.retransmitFrags flags = .ok []
  frames : ∀ f ∈ s.outbound ++ s.frame.sendqueue, ∃ flags, f = alivFrame flags

/-- The end has the messages of `s`, as before. -/
def SameMessages (s s' : Session σ) : Prop := s'.frame.tx = s.frame.tx ∧ s'.handed = s.handed

/-- `Tick` writes a keepalive at most. -/
lemma Barren.tick (h : Barren s) {working : Bool} (ht : s.tick now working = .ok (s', false)) :
    Barren s' ∧ SameMessages s s' := by
  have hnone : ∀ l : List (Sigma fun _ : UInt64 => TransitMessage),
      (∀ e ∈ l, ∀ flags, e.2.retransmitFrags flags = .ok []) → ∀ flags,
      FrameState.retransmitEntries flags l = .ok [] := by
    intro l hl flags
    induction l with
    | nil => rfl
    | cons e l ih =>
        rw [FrameState.retransmitEntries, hl e List.mem_cons_self,
          ih fun e he => hl e (List.mem_cons_of_mem _ he)]
        rfl
  have hkeep : Barren s.sendKeepalive ∧ SameMessages s s.sendKeepalive := by
    rw [Session.sendKeepalive]
    split_ifs
    · exact ⟨h, rfl, rfl⟩
    · refine ⟨⟨h.rx, h.tx, fun f hf => ?_⟩, rfl, rfl⟩
      simp only [Session.pump, Session.keeping, List.mem_append, List.mem_singleton,
        List.not_mem_nil, or_false] at hf
      obtain (hf | rfl) | hf := hf
      · exact h.frames f (List.mem_append_left _ hf)
      · exact ⟨_, rfl⟩
      · exact h.frames f (List.mem_append_right _ hf)
  rw [Session.tick] at ht
  split_ifs at ht
  · rw [← (Prod.mk.inj (Except.ok.inj ht)).1]
    exact ⟨h, rfl, rfl⟩
  · rw [← (Prod.mk.inj (Except.ok.inj ht)).1]
    exact ⟨h, rfl, rfl⟩
  · obtain ⟨s₁, hl, ht⟩ := Session.bind_eq_ok ht
    obtain rfl := (Prod.mk.inj (Except.ok.inj ht)).1
    have hk : Barren
          (if s.state = .eEstablished ∨ s.state = .eLIMSent then s.sendKeepalive else s) ∧
        SameMessages s
          (if s.state = .eEstablished ∨ s.state = .eLIMSent then s.sendKeepalive else s) := by
      split_ifs
      · exact hkeep
      · exact ⟨h, rfl, rfl⟩
    rw [Session.tickLive] at hl
    generalize (if s.state = .eEstablished ∨ s.state = .eLIMSent then s.sendKeepalive else s) =
      s₀ at hl hk
    obtain ⟨hb, hsame⟩ := hk
    split_ifs at hl
    · rw [FrameState.retransmit, hnone _ hb.tx] at hl
      obtain rfl := Except.ok.inj hl
      refine ⟨⟨hb.rx, hb.tx, fun f hf => hb.frames f ?_⟩, hsame⟩
      simpa [Session.pump] using hf
    · obtain rfl := Except.ok.inj hl
      exact ⟨hb, hsame⟩

/-- A keepalive changes no message. -/
lemma Barren.deliver (h : Barren s) {flags : UInt8} {pad : Padding}
    (hs : s.handleFrameDecrypt env now (alivFrame flags ++ pad.1) = .ok s') :
    Barren s' ∧ SameMessages s s' := by
  rw [Session.handleFrameDecrypt_of_true (Session.process_alivFrame env now flags pad.1 s _) rfl]
    at hs
  obtain rfl := Except.ok.inj hs
  have hflags : ∃ rf tf, (s.noteFlags (alivFrame flags ++ pad.1)).gotAliv =
      { s with frame := { s.frame with rxflags := rf, txflags := tf } } := by
    rw [Session.gotAliv, Session.noteFlags_eq]
    split_ifs
    · exact ⟨_, _, rfl⟩
    · exact ⟨_, _, rfl⟩
  obtain ⟨rf, tf, he⟩ := hflags
  simp only [he]
  refine ⟨⟨h.rx, h.tx, fun f hf => h.frames f ?_⟩, rfl, rfl⟩
  simpa [Session.pump, FrameState.alive] using hf

/-- Two barren ends stay so under ticks and deliveries. -/
lemma Barren.calm {L : Link σ} {n n' : Net σ} (hstep : StepIf L Calm n n')
    (h : ∀ p, Barren (n.ends p)) :
    ∀ p, Barren (n'.ends p) ∧ SameMessages (n.ends p) (n'.ends p) := by
  obtain ⟨e, hcalm, hstep⟩ := hstep
  intro p
  cases hstep with
  | act q ha =>
      obtain rfl | rfl := p.eq_or_eq_other q
      · rw [Net.set_ends_self]
        cases ha with
        | tick working ht => exact (h q).tick ht
        | _ => cases hcalm
      · rw [Net.set_other_ends]
        exact ⟨h p, rfl, rfl⟩
  | @deliver q f pad s hf hs =>
      obtain rfl | rfl := p.eq_or_eq_other q
      · rw [Net.carry_ends_self, Net.set_ends_self]
        obtain ⟨flags, rfl⟩ := (h q.other).frames f (List.mem_append_left _ hf)
        exact (h q).deliver hs
      · rw [Net.carry_other_ends, Net.set_other_ends, Net.inflight_other]
        refine ⟨⟨(h p).rx, (h p).tx, fun f' hf' => (h p).frames f' ?_⟩, rfl, rfl⟩
        simp only [List.mem_append] at hf' ⊢
        exact hf'.imp_left fun hf' => List.erase_subset hf'
  | drop => cases hcalm
  | dup => cases hcalm
  | wait => cases hcalm

/-- Two barren ends never get rid of their messages by ticks and deliveries. -/
lemma Barren.run {L : Link σ} {n n' : Net σ}
    (hrun : Relation.ReflTransGen (StepIf L Calm) n n') (h : ∀ p, Barren (n.ends p)) :
    ∀ p, Barren (n'.ends p) ∧ SameMessages (n.ends p) (n'.ends p) := by
  induction hrun with
  | refl => exact fun p => ⟨h p, rfl, rfl⟩
  | tail _ hstep ih =>
      intro p
      obtain ⟨hb, htx, hh⟩ := Barren.calm hstep (fun p => (ih p).1) p
      exact ⟨hb, htx.trans (ih p).2.1, hh.trans (ih p).2.2⟩

end Lost

/-- The network loses the `XMIT` frame of `shortMessage`. Both ends are open and the message is in
`tx`, but no sequence of ticks and deliveries hands it over or retires it. -/
theorem lost_xmit_strands : ∃ n : Net Unit, Reachable shortLink n ∧ Live .initiator n ∧
    1 ∈ (n.ends .initiator).frame.tx ∧ (n.ends .initiator).queued = [(1, shortMessage)] ∧
    ∀ n', Relation.ReflTransGen (StepIf shortLink Calm) n n' →
      ¬ ((1, shortMessage.1) ∈ (n'.ends .responder).handed ∧
        1 ∉ (n'.ends .initiator).frame.tx) := by
  have hmem : shortXmit ∈ sentNet.inflight .responder := by
    rw [sentNet_inflight]
    exact List.mem_singleton_self _
  have hreach := ReachableIf.step sentNet_reachable trivial (.drop .responder hmem)
  set n := sentNet.carry .responder ((sentNet.inflight .responder).erase shortXmit) with hn
  have hout : (n.ends .initiator).outbound = [] := by
    have : (n.ends .initiator).outbound = (sentNet.inflight .responder).erase shortXmit := rfl
    rw [this, sentNet_inflight, List.erase_cons_head]
  have htx : (n.ends .initiator).frame.tx.entries =
      [⟨1, putMessage shortMessage.1 shortHash 1⟩] := rfl
  -- what is left is a message without full fragments, and no frame about it
  have hbarren : ∀ p, Barren (n.ends p) := by
    intro p
    cases p with
    | initiator =>
        refine ⟨rfl, fun e he flags => ?_, fun f hf => ?_⟩
        · rw [htx, List.mem_singleton] at he
          subst he
          obtain ⟨frames, hframes, hspec⟩ :=
            (putMessage_isCut shortHash 1 shortMessage.2).1.retransmitFrags shortMessage.2 flags
          have hnil : frames = [] := by
            rw [List.eq_nil_iff_forall_not_mem]
            intro f hf
            obtain ⟨i, hi, -⟩ := (hspec f).mp hf
            rw [numfragsOf_shortMessage] at hi
            exact absurd hi (Nat.not_lt_zero i)
          rw [hframes, hnil]
        · rw [hout] at hf
          cases hf
    | responder =>
        refine ⟨rfl, fun e he => ?_, fun f hf => ?_⟩
        · cases he
        · cases hf
  have hflags : (n.ends .initiator).frame.txflags &&& eSessionInvalidated = 0 := by decide
  refine ⟨n, hreach, ⟨⟨rfl, by decide⟩, ⟨rfl, by decide⟩, fun h => h hflags⟩,
    (AList.mem_insert _).mpr (.inl rfl), rfl, fun n' hrun hdone => ?_⟩
  rw [(Barren.run hrun hbarren .responder).2.2] at hdone
  exact absurd hdone.1 List.not_mem_nil

end Udap.Iwp
