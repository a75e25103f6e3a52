import Udap.Iwp.Moves

/-!
A session under arbitrary frames: every frame a peer with the session key can make, and everything
the session does of its own accord, in any order (`Call`).

* `gotFrag_fragFor`, `gotXmit_xmitFor`: what a fragment or an announcement does
  to the entry of its message.
* `Sized`: the entries of `rx` have one fragment for each index below their count, and those of `tx`
  are messages of the size the callers of `sendto` can make.
* `bitset_in_range`: when the status bitset throws.
* `no_finished_message`: when a complete message stays in `rx`.
-/

namespace Udap.Iwp

open ByteMem TransitMessage

/-! ### The status bitset -/

/-- With more than thirty-two fragments the loop of `completed` stops at a bit that is not set, or
throws at the thirty-third. -/
lemma completed_eq_of_gt {msg : TransitMessage} (h : 32 < msg.msginfo.numfrags) :
    msg.completed = if Full 32 msg.status then .error .outOfRange else .ok false := by
  have hrange : List.range msg.msginfo.numfrags =
      List.range 32 ++ (List.range (msg.msginfo.numfrags - 32)).map (32 + ·) := by
    rw [← List.range_add]
    congr 1
    omega
  have hthrow : testAll msg.status ((List.range (msg.msginfo.numfrags - 32)).map (32 + ·)) =
      .error .outOfRange := by
    obtain ⟨k, hk⟩ : ∃ k, msg.msginfo.numfrags - 32 = k + 1 :=
      ⟨msg.msginfo.numfrags - 33, by omega⟩
    rw [hk, List.range_succ_eq_map, List.map_cons]
    rfl
  have hfull : (List.range 32).all msg.status.getLsbD = true ↔ Full 32 msg.status := by
    rw [List.all_eq_true]
    exact ⟨fun H i hi => H i (List.mem_range.mpr hi), fun H i hi => H i (List.mem_range.mp hi)⟩
  rw [completed, hrange, testAll_append _ _ _ fun i hi => List.mem_range.mp hi, hthrow]
  exact if_congr hfull rfl rfl

/-- Fragments that are all there are copied. -/
lemma copyFrags_ok (msg : TransitMessage) {l : List ℕ} (buffer : Bytes) (ptr : ℕ)
    (h : ∀ i ∈ l, i < 32 ∧ msg.status.getLsbD i = true) :
    ∃ r, copyFrags msg l buffer ptr = .ok (some r) := by
  induction l generalizing buffer ptr with
  | nil => exact ⟨_, rfl⟩
  | cons i l ih =>
    obtain ⟨hi, hb⟩ := h i List.mem_cons_self
    obtain ⟨r, hr⟩ := ih (memcpy buffer ptr
      (slice ((msg.frags.lookup i).getD []) 0 msg.msginfo.fragsize)) (ptr + msg.msginfo.fragsize)
      fun j hj => h j (List.mem_cons_of_mem i hj)
    refine ⟨r, ?_⟩
    have htest : statusTest msg.status i = .ok true := by rw [statusTest, if_pos hi, hb]
    rw [copyFrags, htest]
    exact hr

/-- A complete message is put together. -/
lemma reassemble_ok {msg : TransitMessage} (hn : msg.msginfo.numfrags ≤ 32)
    (hfull : Full msg.msginfo.numfrags msg.status) : ∃ m, msg.reassemble = .ok (some m) := by
  obtain ⟨r, hr⟩ := copyFrags_ok msg (l := List.range msg.msginfo.numfrags)
    (List.replicate msg.msginfo.totalsize 0) 0 fun i hi => by
      have hi := List.mem_range.mp hi
      exact ⟨by omega, hfull i hi⟩
  refine ⟨memcpy r.1 r.2 msg.lastfrag, ?_⟩
  rw [reassemble, hr]
  rfl

/-! ### Calls -/

/-- What a session is called with. The bytes behind the first `sz` of a decrypted frame are what
the frame buffer happened to hold. -/
inductive Call (σ : Type) where
  | frame (now : UInt64) (buf : Bytes) (sz : ℕ)
  | send (m : LinkMessage)
  | introduce (now : UInt64)
  | close
  | keepalive
  | tick (now : UInt64) (working : Bool)
  /-- a job of the handshake ends -/
  | enter (now : UInt64) (st : State)
  /-- the router works for others -/
  | peer (p : σ)

namespace Session

variable {σ : Type}

/-- One call; a fault ends the program. -/
def call (env : LinkEnv σ) (s : Session σ) : Call σ → Except Fault (Session σ)
  | .frame now buf sz => do
      let done ← s.process env now buf sz
      if done.2 then return { done.1 with frame := done.1.frame.alive now }.pump
      else return done.1
  | .send m => .ok (s.sendto env m)
  | .introduce now => .ok (s.sendLIM env now)
  | .close => .ok s.close
  | .keepalive => .ok s.sendKeepalive
  | .tick now working => do
      let done ← s.tick now working
      return done.1
  | .enter now st => .ok (s.enterState now st)
  | .peer p => .ok { s with peer := p }

/-- A state in a run from a session without messages, whose calls meet `C`. -/
def ReachableBy (env : LinkEnv σ) (C : Session σ → Call σ → Prop) (s : Session σ) : Prop :=
  ∃ s₀ : Session σ, s₀.frame.rx = ∅ ∧ s₀.frame.tx = ∅ ∧
    Relation.ReflTransGen (fun s s' => ∃ c, C s c ∧ s.call env c = .ok s') s₀ s

/-- The `FRAG` frame is one that `put_frag` stores in the entry `msg`. -/
structure FragFor (s : Session σ) (buf : Bytes) (sz : ℕ) (msg : TransitMessage) : Prop where
  type : MsgType.ofByte (hdrMsgtype buf) = some .eFRAG
  size_le : hdrSize buf ≤ usub sz 6
  lt_size : 9 < hdrSize buf
  entry : s.frame.rx.lookup (bodyId buf) = some msg
  fragsize : msg.msginfo.fragsize = hdrSize buf - 9
  fragno : fragnoOf buf < msg.msginfo.numfrags

/-- The `XMIT` frame is one that `got_xmit` makes an entry for. -/
structure XmitFor (s : Session σ) (buf : Bytes) (sz : ℕ) : Prop where
  type : MsgType.ofByte (hdrMsgtype buf) = some .eXMIT
  size_le : hdrSize buf ≤ usub sz 6
  lastfrag : (Xmit.ofFrame buf).lastfrag ≤ usub (hdrSize buf) 48
  flags : (Xmit.ofFrame buf).flags &&& 0x01 ≠ 0
  fresh : (Xmit.ofFrame buf).msgid ∉ s.frame.rx

/-- The entry an `XMIT` frame makes. -/
def xmitEntry (buf : Bytes) : TransitMessage :=
  (TransitMessage.inbound (Xmit.ofFrame buf)).putLastfrag
    (hdrData buf 48 (Xmit.ofFrame buf).lastfrag)

/-- The entry of a message after `put_frag` stored the fragment of a `FRAG` frame. -/
def withFrag (buf : Bytes) (msg : TransitMessage) : TransitMessage :=
  { msg with
    status := msg.status ||| BitVec.twoPow 32 (fragnoOf buf)
    frags := msg.frags.insert (fragnoOf buf) (memcpy ((msg.frags.lookup (fragnoOf buf)).getD []) 0
      (slice (hdrData buf 9 msg.msginfo.fragsize) 0 msg.msginfo.fragsize)) }

/-- An entry of `rx` has one fragment for each index below its count. -/
def Allocated (t : TransitMessage) : Prop := ∀ i, i ∈ t.frags ↔ i < t.msginfo.numfrags

lemma allocated_xmitEntry (buf : Bytes) : Allocated (xmitEntry buf) := by
  intro i
  have hmem : ∀ (b : Bytes) (n : ℕ), i ∈ (List.range n).foldl
      (fun frags idx => AList.insert idx b frags) (∅ : AList fun _ : ℕ => Bytes) ↔ i < n := by
    intro b n
    induction n with
    | zero => simp
    | succ n ih =>
      rw [List.range_succ, List.foldl_append, List.foldl_cons, List.foldl_nil, AList.mem_insert, ih]
      omega
  exact hmem _ _

lemma Allocated.withFrag {t : TransitMessage} (h : Allocated t) (buf : Bytes)
    (hno : fragnoOf buf < t.msginfo.numfrags) : Allocated (withFrag buf t) := by
  intro i
  rw [Session.withFrag, AList.mem_insert, h i]
  constructor
  · rintro (rfl | hi)
    · exact hno
    · exact hi
  · exact .inr

section Handlers

variable {env : LinkEnv σ} {now : UInt64} {buf : Bytes} {sz : ℕ} {s : Session σ}
  {msg : TransitMessage}

lemma putFrag_eq (h : Allocated msg) (hno : fragnoOf buf < msg.msginfo.numfrags) :
    msg.putFrag (fragnoOf buf) (hdrData buf 9 msg.msginfo.fragsize) =
      if fragnoOf buf < 32 then .ok (some (withFrag buf msg)) else .error .outOfRange := by
  obtain ⟨b, hb⟩ := Option.isSome_iff_exists.mp (AList.lookup_isSome.mpr ((h _).mpr hno))
  rw [putFrag, hb, statusSet]
  split_ifs
  · simp [withFrag, hb, bind, Except.bind, pure, Except.pure]
  · rfl

/-- A `FRAG` frame that fits no entry changes nothing. -/
lemma gotFrag_of_not (env : LinkEnv σ) (now : UInt64)
    (halloc : ∀ id t, s.frame.rx.lookup id = some t → Allocated t)
    (htype : MsgType.ofByte (hdrMsgtype buf) = some .eFRAG)
    (h : ∀ msg, ¬ FragFor s buf sz msg) : ∃ b, s.gotFrag env now buf (usub sz 6) = .ok (s, b) := by
  rw [gotFrag]
  by_cases hle : hdrSize buf > usub sz 6
  · exact ⟨false, if_pos hle⟩
  by_cases hlt : hdrSize buf ≤ 9
  · exact ⟨false, by rw [if_neg hle, if_pos hlt]⟩
  rw [if_neg hle, if_neg hlt]
  cases hentry : s.frame.rx.lookup (UInt64.ofNat (leNat (hdrData buf 0 8))) with
  | none => exact ⟨true, rfl⟩
  | some msg =>
    by_cases hsize : msg.msginfo.fragsize ≠ hdrSize buf - 9
    · exact ⟨false, if_pos hsize⟩
    · have hno : ¬ fragnoOf buf < msg.msginfo.numfrags := fun hno =>
        h msg ⟨htype, by omega, by omega, hentry, by omega, hno⟩
      have hnone : msg.frags.lookup (fragnoOf buf) = none := by
        rw [AList.lookup_eq_none, halloc _ _ hentry]
        exact hno
      refine ⟨false, ?_⟩
      simp only [if_neg hsize]
      rw [← fragnoOf, putFrag, hnone]
      rfl

/-- What `got_frag` does with a fragment that fits the entry `msg`. -/
lemma gotFrag_fragFor (h : FragFor s buf sz msg) (halloc : Allocated msg) :
    s.gotFrag env now buf (usub sz 6) =
      if fragnoOf buf < 32 then do
        let stored := s.stored (bodyId buf) (withFrag buf msg)
        let acked := stored.acking (bodyId buf) (withFrag buf msg).getBitmask
        if ← (withFrag buf msg).completed then acked.inboundFrameComplete env now (bodyId buf)
        else if (withFrag buf msg).shouldSendAck then return (acked, true)
        else return (stored, true)
      else .error .outOfRange := by
  have hle := h.size_le
  have hlt := h.lt_size
  have hentry : s.frame.rx.lookup (UInt64.ofNat (leNat (hdrData buf 0 8))) = some msg := h.entry
  rw [gotFrag, if_neg (by omega), if_neg (by omega), hentry]
  simp only
  rw [if_neg (by simp [h.fragsize]), ← fragnoOf, putFrag_eq halloc h.fragno]
  by_cases hno : fragnoOf buf < 32
  · rw [if_pos hno, if_pos hno]
    rfl
  · rw [if_neg hno, if_neg hno]
    rfl

/-- What `got_xmit` does with an announcement it takes. -/
lemma gotXmit_xmitFor (h : XmitFor s buf sz) :
    s.gotXmit env now buf (usub sz 6) =
      let acked := (s.stored (Xmit.ofFrame buf).msgid (xmitEntry buf)).acking
        (Xmit.ofFrame buf).msgid 0
      if (Xmit.ofFrame buf).numfrags = 0 then
        acked.inboundFrameComplete env now (Xmit.ofFrame buf).msgid
      else .ok (acked, true) := by
  have hle := h.size_le
  have hlast := h.lastfrag
  rw [gotXmit, if_neg (by omega), if_neg (by omega), if_neg h.flags, if_neg h.fresh]
  rfl

/-- Any other `XMIT` frame changes nothing. -/
lemma gotXmit_of_not (htype : MsgType.ofByte (hdrMsgtype buf) = some .eXMIT)
    (h : ¬ XmitFor s buf sz) : s.gotXmit env now buf (usub sz 6) = .ok (s, false) := by
  simp only [gotXmit]
  split_ifs with hle hlast hflags hfresh
  · rfl
  · rfl
  · rfl
  · rfl
  · exact absurd ⟨htype, by omega, by omega, hflags, hfresh⟩ h
  · exact absurd ⟨htype, by omega, by omega, hflags, hfresh⟩ h

/-- `inbound_frame_complete` on a message that is all there: with a wrong hash it stays in `rx`. -/
lemma inboundFrameComplete_eq {id : UInt64} {m : Bytes} (hentry : s.frame.rx.lookup id = some msg)
    (hm : msg.reassemble = .ok (some m)) :
    s.inboundFrameComplete env now id =
      if env.shorthash m = msg.msginfo.hash then .ok (s.finished env now id m)
      else .ok (s, false) := by
  rw [inboundFrameComplete, hentry]
  simp only [hm]
  by_cases hhash : env.shorthash m = msg.msginfo.hash
  · rw [if_pos hhash]
    simp [hhash, bind, Except.bind, pure, Except.pure, finished]
  · rw [if_neg hhash]
    simp [hhash, bind, Except.bind, pure, Except.pure]

end Handlers

/-! ### The sizes of the entries -/

/-- The entries of `rx` are allocated, and those of `tx` are messages that were cut up. -/
structure Sized (s : Session σ) : Prop where
  rx : ∀ id t, s.frame.rx.lookup id = some t → Allocated t
  tx : ∀ id t, s.frame.tx.lookup id = some t →
    ∃ h id m, m.length ≤ maxLinkMsgSize ∧ IsCut h id m t

/-- What happens to `tx` keeps its entries cut up. -/
lemma stable_cut (env : LinkEnv σ) : Stable env (fun _ => True) (fun _ => True) True
    fun s => ∀ id t, s.frame.tx.lookup id = some t →
      ∃ h id m, m.length ≤ maxLinkMsgSize ∧ IsCut h id m t where
  send s m hs id t ht := by
    have htx : (s.sendto env m).frame.tx = if s.frame.txids ∈ s.frame.tx then s.frame.tx else
        s.frame.tx.insert s.frame.txids (putMessage m.1 (env.shorthash m.1) s.frame.txids) := rfl
    rw [htx] at ht
    split_ifs at ht
    · exact hs id t ht
    · by_cases hid : id = s.frame.txids
      · subst hid
        rw [AList.lookup_insert, Option.some.injEq] at ht
        subst ht
        exact ⟨_, _, m.1, m.2, (putMessage_isCut _ _ m.2).1⟩
      · rw [AList.lookup_insert_ne hid] at ht
        exact hs id t ht
  idle s s' h hs := by rwa [h.tx]
  rxflag s _ hs := hs
  txflag s hs := hs
  aliv s hs := hs
  store s id t _ hs := hs
  ackfor s id mask _ hs := hs
  hand s id m _ hs := hs
  forget s id _ hs := hs
  retire s id _ hs id' t ht := by
    by_cases heq : id' = id
    · subst heq
      simp [retired] at ht
    · rw [retired, AList.lookup_erase_ne heq] at ht
      exact hs id' t ht
  acked s id t mask _ hl hs id' t' ht := by
    by_cases heq : id' = id
    · subst heq
      rw [noting, AList.lookup_insert, Option.some.injEq] at ht
      subst ht
      obtain ⟨h, i, m, hm, hcut⟩ := hs id' t hl
      exact ⟨h, i, m, hm, hcut.ack mask⟩
    · rw [noting, AList.lookup_insert_ne heq] at ht
      exact hs id' t' ht
  resend s id t frames _ _ hs := hs

/-! ### What a frame does to `rx` -/

/-- A fragment that the count announces and the bitset can hold is missing. -/
def Incomplete (t : TransitMessage) : Prop :=
  ∃ i < t.msginfo.numfrags, i < 32 ∧ t.status.getLsbD i = false

lemma incomplete_or_full (t : TransitMessage) : Incomplete t ∨
    (t.msginfo.numfrags ≤ 32 ∧ Full t.msginfo.numfrags t.status) ∨
    (32 < t.msginfo.numfrags ∧ Full 32 t.status) := by
  by_cases h : Incomplete t
  · exact .inl h
  · have hall : ∀ i < t.msginfo.numfrags, i < 32 → t.status.getLsbD i = true := by
      intro i hi hi'
      by_contra hb
      exact h ⟨i, hi, hi', by simpa using hb⟩
    rcases Nat.lt_or_ge 32 t.msginfo.numfrags with hn | hn
    · exact .inr (.inr ⟨hn, fun i hi => hall i (by omega) hi⟩)
    · exact .inr (.inl ⟨hn, fun i hi => hall i hi (by omega)⟩)

lemma Incomplete.completed {t : TransitMessage} (h : Incomplete t) : t.completed = .ok false := by
  obtain ⟨i, hi, hi', hb⟩ := h
  have hnot : ∀ n, i < n → ¬ Full n t.status := by
    intro n hn hfull
    rw [hfull i hn] at hb
    cases hb
  rcases Nat.lt_or_ge 32 t.msginfo.numfrags with hn | hn
  · rw [completed_eq_of_gt hn, if_neg (hnot 32 hi')]
  · rw [completed_eq hn, decide_eq_false (hnot _ hi)]

/-- The frame makes or updates the entry `e` under `id`. -/
def Touches (s : Session σ) (buf : Bytes) (sz : ℕ) (id : UInt64) (e : TransitMessage) : Prop :=
  (XmitFor s buf sz ∧ id = (Xmit.ofFrame buf).msgid ∧ e = xmitEntry buf) ∨
    ∃ msg, FragFor s buf sz msg ∧ fragnoOf buf < 32 ∧ id = bodyId buf ∧ e = withFrag buf msg

/-- What becomes of an entry that was made or updated. -/
inductive Settled (env : LinkEnv σ) (s : Session σ) (id : UInt64) (e : TransitMessage) :
    AList (fun _ : UInt64 => TransitMessage) → Prop
  | waits : Incomplete e → Settled env s id e (s.frame.rx.insert id e)
  | stays (m : Bytes) : e.msginfo.numfrags ≤ 32 → Full e.msginfo.numfrags e.status →
      e.reassemble = .ok (some m) → env.shorthash m ≠ e.msginfo.hash →
      Settled env s id e (s.frame.rx.insert id e)
  | leaves (m : Bytes) : e.msginfo.numfrags ≤ 32 → Full e.msginfo.numfrags e.status →
      e.reassemble = .ok (some m) → env.shorthash m = e.msginfo.hash →
      Settled env s id e ((s.frame.rx.insert id e).erase id)

section Frame

variable {env : LinkEnv σ} {now : UInt64} {buf : Bytes} {sz : ℕ} {s : Session σ}
  {msg e : TransitMessage} {id : UInt64}

lemma settled_complete (env : LinkEnv σ) (now : UInt64) (s : Session σ) (id : UInt64)
    (mask : BitVec 32) (hn : e.msginfo.numfrags ≤ 32)
    (hfull : Full e.msginfo.numfrags e.status) :
    ∃ r, ((s.stored id e).acking id mask).inboundFrameComplete env now id = .ok r ∧
      Settled env s id e r.1.frame.rx := by
  obtain ⟨m, hm⟩ := reassemble_ok hn hfull
  have hentry : ((s.stored id e).acking id mask).frame.rx.lookup id = some e := by
    exact AList.lookup_insert _
  rw [inboundFrameComplete_eq hentry hm]
  by_cases hhash : env.shorthash m = e.msginfo.hash
  · rw [if_pos hhash]
    refine ⟨_, rfl, ?_⟩
    have hrx : (((s.stored id e).acking id mask).finished env now id m).1.frame.rx =
        (s.frame.rx.insert id e).erase id := by
      rw [finished, eraseRx, completeMessage_rx]
      rfl
    rw [hrx]
    exact .leaves m hn hfull hm hhash
  · rw [if_neg hhash]
    exact ⟨_, rfl, .stays m hn hfull hm hhash⟩

lemma sized_noteFlags (buf : Bytes) (hs : Sized s) : Sized (s.noteFlags buf) := by
  refine ⟨?_, ?_⟩
  · rw [noteFlags_rx]
    exact hs.rx
  · rw [noteFlags_tx]
    exact hs.tx

lemma fragFor_noteFlags : FragFor (s.noteFlags buf) buf sz msg ↔ FragFor s buf sz msg := by
  constructor
  · rintro ⟨h₁, h₂, h₃, h₄, h₅, h₆⟩
    rw [noteFlags_rx] at h₄
    exact ⟨h₁, h₂, h₃, h₄, h₅, h₆⟩
  · rintro ⟨h₁, h₂, h₃, h₄, h₅, h₆⟩
    refine ⟨h₁, h₂, h₃, ?_, h₅, h₆⟩
    rwa [noteFlags_rx]

lemma xmitFor_noteFlags {b : Bytes} : XmitFor (s.noteFlags b) buf sz ↔ XmitFor s buf sz := by
  constructor
  · rintro ⟨h₁, h₂, h₃, h₄, h₅⟩
    rw [noteFlags_rx] at h₅
    exact ⟨h₁, h₂, h₃, h₄, h₅⟩
  · rintro ⟨h₁, h₂, h₃, h₄, h₅⟩
    refine ⟨h₁, h₂, h₃, h₄, ?_⟩
    rwa [noteFlags_rx]

/-- The outbound side never tests a bit past the thirty-second. -/
lemma gotAcks_ok (buf : Bytes) (sz : ℕ) (hs : Sized s) :
    ∃ r, s.gotAcks buf sz = .ok r ∧ r.1.frame.rx = s.frame.rx := by
  rw [gotAcks]
  split_ifs
  · exact ⟨_, rfl, rfl⟩
  · exact ⟨_, rfl, rfl⟩
  · split
    · exact ⟨_, rfl, rfl⟩
    · rename_i t ht
      obtain ⟨h, id, m, hm, hcut⟩ := hs.tx _ t ht
      have hack := hcut.ack (BitVec.ofNat 32 (leNat (hdrData buf 8 4)))
      have hn : (t.ack (BitVec.ofNat 32 (leNat (hdrData buf 8 4)))).msginfo.numfrags ≤ 32 := by
        rw [hack.numfrags hm]
        have := numfragsOf_le hm
        omega
      obtain ⟨frames, hframes, -⟩ := hack.retransmitFrags hm s.frame.txflags
      simp only [completed_eq hn, hframes, bind, Except.bind, pure, Except.pure]
      split_ifs
      · exact ⟨_, rfl, rfl⟩
      · exact ⟨_, rfl, rfl⟩

lemma Touches.unique {id' : UInt64} {e' : TransitMessage} (h : Touches s buf sz id e)
    (h' : Touches s buf sz id' e') : id' = id ∧ e' = e := by
  rcases h with ⟨hx, rfl, rfl⟩ | ⟨msg, hf, -, rfl, rfl⟩ <;>
    rcases h' with ⟨hx', rfl, rfl⟩ | ⟨msg', hf', -, rfl, rfl⟩
  · exact ⟨rfl, rfl⟩
  · have := hx.type.symm.trans hf'.type
    cases this
  · have := hf.type.symm.trans hx'.type
    cases this
  · obtain rfl : msg' = msg := Option.some.inj (hf'.entry.symm.trans hf.entry)
    exact ⟨rfl, rfl⟩

end Frame

/-- The fragment is one of the first thirty-two, and it is not the one after which the thirty-third
would be tested. -/
def InRange (s : Session σ) : Call σ → Prop
  | .frame _ buf sz => ∀ msg, FragFor s buf sz msg → fragnoOf buf < 32 ∧
      (msg.msginfo.numfrags ≤ 32 ∨ ∃ i < 32, i ≠ fragnoOf buf ∧ msg.status.getLsbD i = false)
  | _ => True

section Frame

variable {env : LinkEnv σ} {now : UInt64} {buf : Bytes} {sz : ℕ} {s : Session σ}
  {msg e : TransitMessage} {id : UInt64}

lemma full_withFrag_iff : Full 32 (withFrag buf msg).status ↔
    ¬ ∃ i < 32, i ≠ fragnoOf buf ∧ msg.status.getLsbD i = false := by
  have hbit : ∀ i < 32, (withFrag buf msg).status.getLsbD i =
      (msg.status.getLsbD i || decide (fragnoOf buf = i)) := by
    intro i hi
    simp [withFrag, hi, eq_comm]
  constructor
  · rintro hfull ⟨i, hi, hne, hb⟩
    have := hfull i hi
    rw [hbit i hi, hb] at this
    simp [Ne.symm hne] at this
  · intro hnot i hi
    rw [hbit i hi]
    by_cases hne : i = fragnoOf buf
    · simp [hne]
    · by_contra hb
      rw [Bool.not_eq_true, Bool.or_eq_false_iff] at hb
      exact hnot ⟨i, hi, hne, hb.1⟩

/-- What a `FRAG` frame does. -/
lemma gotFrag_cases (env : LinkEnv σ) (now : UInt64) (sz : ℕ) (hs : Sized s)
    (htype : MsgType.ofByte (hdrMsgtype buf) = some .eFRAG) :
    (InRange s (.frame now buf sz) → ∃ r, s.gotFrag env now buf (usub sz 6) = .ok r ∧
      ((∀ id e, ¬ Touches s buf sz id e) ∧ r.1.frame.rx = s.frame.rx ∨
        ∃ id e, Touches s buf sz id e ∧ Settled env s id e r.1.frame.rx)) ∧
    (¬ InRange s (.frame now buf sz) →
      s.gotFrag env now buf (usub sz 6) = .error .outOfRange) := by
  by_cases hfor : ∃ msg, FragFor s buf sz msg
  · obtain ⟨msg, hmsg⟩ := hfor
    have halloc := hs.rx _ _ hmsg.entry
    have hiff : InRange s (.frame now buf sz) ↔ fragnoOf buf < 32 ∧
        ¬ (32 < msg.msginfo.numfrags ∧ Full 32 (withFrag buf msg).status) := by
      constructor
      · intro h
        obtain ⟨hno, hfew⟩ := h msg hmsg
        refine ⟨hno, fun ⟨hmany, hfull⟩ => ?_⟩
        rcases hfew with hfew | hfew
        · omega
        · exact full_withFrag_iff.mp hfull hfew
      · rintro ⟨hno, hnot⟩ msg' hmsg'
        obtain rfl : msg' = msg := Option.some.inj (hmsg'.entry.symm.trans hmsg.entry)
        refine ⟨hno, ?_⟩
        by_contra hcon
        rw [not_or, ← full_withFrag_iff] at hcon
        exact hnot ⟨by omega, hcon.2⟩
    rw [hiff, gotFrag_fragFor hmsg halloc]
    by_cases hno : fragnoOf buf < 32
    · rw [if_pos hno]
      have htouch : Touches s buf sz (bodyId buf) (withFrag buf msg) :=
        .inr ⟨msg, hmsg, hno, rfl, rfl⟩
      -- `completed` finds a missing bit, has seen all, or reads beyond the bitset
      rcases incomplete_or_full (withFrag buf msg) with hinc | ⟨hfew, hfull⟩ | ⟨hmany, hfull⟩
      · refine ⟨fun _ => ?_, fun hnot => absurd ⟨hno, ?_⟩ hnot⟩
        · simp only [hinc.completed, bind, Except.bind, pure, Except.pure, Bool.false_eq_true,
            if_false]
          split_ifs
          · exact ⟨_, rfl, .inr ⟨_, _, htouch, .waits hinc⟩⟩
          · exact ⟨_, rfl, .inr ⟨_, _, htouch, .waits hinc⟩⟩
        · rintro ⟨hmany, hfull⟩
          obtain ⟨i, -, hi, hb⟩ := hinc
          rw [hfull i hi] at hb
          cases hb
      · refine ⟨fun _ => ?_, fun hnot => absurd ⟨hno, fun h => ?_⟩ hnot⟩
        · obtain ⟨r, hr, hsettled⟩ := settled_complete env now s (bodyId buf)
            (withFrag buf msg).getBitmask hfew hfull
          refine ⟨r, ?_, .inr ⟨_, _, htouch, hsettled⟩⟩
          simp only [completed_eq hfew, decide_eq_true hfull, bind, Except.bind, if_true]
          exact hr
        · have := h.1
          have hfew : msg.msginfo.numfrags ≤ 32 := hfew
          omega
      · refine ⟨fun h => absurd ⟨hmany, hfull⟩ h.2, fun _ => ?_⟩
        simp only [completed_eq_of_gt hmany, if_pos hfull, bind, Except.bind]
    · rw [if_neg hno]
      exact ⟨fun h => absurd h.1 hno, fun _ => rfl⟩
  · have hnot : ∀ msg, ¬ FragFor s buf sz msg := fun msg hmsg => hfor ⟨msg, hmsg⟩
    obtain ⟨b, hb⟩ := gotFrag_of_not env now hs.rx htype hnot
    refine ⟨fun _ => ⟨_, hb, .inl ⟨?_, rfl⟩⟩, fun h => absurd (fun msg hmsg => ?_) h⟩
    · rintro id e (⟨hx, -⟩ | ⟨msg, hf, -⟩)
      · have := hx.type.symm.trans htype
        cases this
      · exact hnot msg hf
    · exact absurd hmsg (hnot msg)

/-- What an `XMIT` frame does. -/
lemma gotXmit_cases (env : LinkEnv σ) (now : UInt64) (sz : ℕ)
    (htype : MsgType.ofByte (hdrMsgtype buf) = some .eXMIT) :
    ∃ r, s.gotXmit env now buf (usub sz 6) = .ok r ∧
      ((∀ id e, ¬ Touches s buf sz id e) ∧ r.1.frame.rx = s.frame.rx ∨
        ∃ id e, Touches s buf sz id e ∧ Settled env s id e r.1.frame.rx) := by
  by_cases hx : XmitFor s buf sz
  · have htouch : Touches s buf sz (Xmit.ofFrame buf).msgid (xmitEntry buf) := .inl ⟨hx, rfl, rfl⟩
    rw [gotXmit_xmitFor hx]
    simp only
    split_ifs with hzero
    · have hzero : (xmitEntry buf).msginfo.numfrags = 0 := hzero
      obtain ⟨r, hr, hsettled⟩ := settled_complete env now s (Xmit.ofFrame buf).msgid 0
        (e := xmitEntry buf) (by omega) (by rw [hzero]; exact fun i hi => absurd hi (by omega))
      exact ⟨r, hr, .inr ⟨_, _, htouch, hsettled⟩⟩
    · have hinc : Incomplete (xmitEntry buf) := by
        refine ⟨0, Nat.pos_of_ne_zero hzero, by omega, ?_⟩
        simp [xmitEntry, putLastfrag, inbound]
      exact ⟨_, rfl, .inr ⟨_, _, htouch, .waits hinc⟩⟩
  · refine ⟨_, gotXmit_of_not htype hx, .inl ⟨?_, rfl⟩⟩
    rintro id e (⟨hx', -⟩ | ⟨msg, hf, -⟩)
    · exact hx hx'
    · have := hf.type.symm.trans htype
      cases this

/-- What a frame does to `rx`, and when it throws. -/
lemma process_cases (env : LinkEnv σ) (now : UInt64) (buf : Bytes) (sz : ℕ) (hs : Sized s) :
    (InRange s (.frame now buf sz) → ∃ r, s.process env now buf sz = .ok r ∧
      ((∀ id e, ¬ Touches s buf sz id e) ∧ r.1.frame.rx = s.frame.rx ∨
        ∃ id e, Touches s buf sz id e ∧ Settled env s id e r.1.frame.rx)) ∧
    (¬ InRange s (.frame now buf sz) → s.process env now buf sz = .error .outOfRange) := by
  -- the flags of the header are noted first, which changes nothing of `rx`
  have hs' := sized_noteFlags buf hs
  have hrange : InRange (s.noteFlags buf) (.frame now buf sz) ↔ InRange s (.frame now buf sz) :=
    forall_congr' fun msg => by rw [fragFor_noteFlags]
  have htouch : ∀ id e, Touches (s.noteFlags buf) buf sz id e ↔ Touches s buf sz id e := by
    intro id e
    simp only [Touches, fragFor_noteFlags, xmitFor_noteFlags]
  have hsettled : ∀ id e rx, Settled env (s.noteFlags buf) id e rx → Settled env s id e rx := by
    rintro id e rx (h | ⟨m, h₁, h₂, h₃, h₄⟩ | ⟨m, h₁, h₂, h₃, h₄⟩)
    · rw [noteFlags_rx]
      exact .waits h
    · rw [noteFlags_rx]
      exact .stays m h₁ h₂ h₃ h₄
    · rw [noteFlags_rx]
      exact .leaves m h₁ h₂ h₃ h₄
  -- what the other types of frames have in common
  have hother : (∀ t, MsgType.ofByte (hdrMsgtype buf) = some t → t ≠ .eXMIT ∧ t ≠ .eFRAG) →
      InRange s (.frame now buf sz) ∧ ∀ id e, ¬ Touches s buf sz id e := by
    intro htype
    refine ⟨fun msg hmsg => absurd rfl (htype _ hmsg.type).2, ?_⟩
    rintro id e (⟨hx, -⟩ | ⟨msg, hf, -⟩)
    · exact (htype _ hx.type).1 rfl
    · exact (htype _ hf.type).2 rfl
  rw [Session.process]
  split
  · rename_i htype
    obtain ⟨hin, hnone⟩ := hother fun t ht => by
      rw [htype] at ht
      cases ht
      exact ⟨by simp, by simp⟩
    refine ⟨fun _ => ⟨_, rfl, .inl ⟨hnone, ?_⟩⟩, fun h => absurd hin h⟩
    rw [gotAliv]
    split_ifs
    · exact noteFlags_rx s buf
    · exact noteFlags_rx s buf
  · rename_i htype
    have hin : InRange s (.frame now buf sz) := fun msg hmsg => by
      have := hmsg.type.symm.trans htype
      cases this
    obtain ⟨r, hr, hcases⟩ := gotXmit_cases env now (s := s.noteFlags buf) sz htype
    refine ⟨fun _ => ⟨r, hr, ?_⟩, fun h => absurd hin h⟩
    rcases hcases with ⟨hnone, hrx⟩ | ⟨id, e, ht, hset⟩
    · exact .inl ⟨fun id e h => hnone id e ((htouch id e).mpr h), hrx.trans (noteFlags_rx s buf)⟩
    · exact .inr ⟨id, e, (htouch id e).mp ht, hsettled id e _ hset⟩
  · rename_i htype
    obtain ⟨hin, hnone⟩ := hother fun t ht => by
      rw [htype] at ht
      cases ht
      exact ⟨by simp, by simp⟩
    obtain ⟨r, hr, hrx⟩ := gotAcks_ok buf (usub sz 6) hs'
    exact ⟨fun _ => ⟨r, hr, .inl ⟨hnone, hrx.trans (noteFlags_rx s buf)⟩⟩, fun h => absurd hin h⟩
  · rename_i htype
    obtain ⟨hok, herr⟩ := gotFrag_cases env now sz hs' htype
    rw [hrange] at hok herr
    refine ⟨fun hin => ?_, herr⟩
    obtain ⟨r, hr, hcases⟩ := hok hin
    refine ⟨r, hr, ?_⟩
    rcases hcases with ⟨hnone, hrx⟩ | ⟨id, e, ht, hset⟩
    · exact .inl ⟨fun id e h => hnone id e ((htouch id e).mpr h), hrx.trans (noteFlags_rx s buf)⟩
    · exact .inr ⟨id, e, (htouch id e).mp ht, hsettled id e _ hset⟩
  · rename_i htype
    obtain ⟨hin, hnone⟩ := hother fun t ht => by
      rw [htype] at ht
      cases ht
    exact ⟨fun _ => ⟨_, rfl, .inl ⟨hnone, noteFlags_rx s buf⟩⟩, fun h => absurd hin h⟩

end Frame

/-! ### The other calls -/

section Calls

variable {env : LinkEnv σ} {s s' : Session σ} {c : Call σ}

lemma sendKeepalive_frame (s : Session σ) :
    s.sendKeepalive.frame.rx = s.frame.rx ∧ s.sendKeepalive.frame.tx = s.frame.tx ∧
      s.sendKeepalive.frame.txflags = s.frame.txflags := by
  rw [sendKeepalive]
  split_ifs
  · exact ⟨rfl, rfl, rfl⟩
  · exact ⟨rfl, rfl, rfl⟩

lemma retransmitEntries_ok (flags : UInt8) {l : List (Sigma fun _ : UInt64 => TransitMessage)}
    (hl : ∀ e ∈ l, ∃ h id m, m.length ≤ maxLinkMsgSize ∧ IsCut h id m e.2) :
    ∃ frames, FrameState.retransmitEntries flags l = .ok frames := by
  induction l with
  | nil => exact ⟨[], rfl⟩
  | cons e l ih =>
    obtain ⟨h, id, m, hm, hcut⟩ := hl e List.mem_cons_self
    obtain ⟨frames, hframes, -⟩ := hcut.retransmitFrags hm flags
    obtain ⟨more, hmore⟩ := ih fun e he => hl e (List.mem_cons_of_mem _ he)
    refine ⟨frames ++ more, ?_⟩
    rw [FrameState.retransmitEntries, hframes, hmore]
    rfl

lemma tick_ok (now : UInt64) (working : Bool) (hs : Sized s) :
    ∃ r, s.tick now working = .ok r ∧ r.1.frame.rx = s.frame.rx := by
  rw [tick]
  split_ifs
  · exact ⟨_, rfl, rfl⟩
  · exact ⟨_, rfl, rfl⟩
  · obtain ⟨hrx, htx, -⟩ := sendKeepalive_frame s
    have hlive : ∃ s₁, s.tickLive = .ok s₁ ∧ s₁.frame.rx = s.frame.rx := by
      have hk : ∀ s₁ : Session σ, s₁.frame.rx = s.frame.rx → s₁.frame.tx = s.frame.tx →
          ∃ s₂, (if s₁.state = .eEstablished then do
            let frame ← s₁.frame.retransmit
            return { s₁ with frame := frame }.pump
          else .ok s₁) = .ok s₂ ∧ s₂.frame.rx = s.frame.rx := by
        intro s₁ hrx₁ htx₁
        split_ifs
        · obtain ⟨frames, hframes⟩ := retransmitEntries_ok s₁.frame.txflags
            (l := s₁.frame.tx.entries) fun e he => hs.tx e.1 e.2 (by
              rw [← htx₁]
              exact AList.mem_lookup_iff.mpr he)
          refine ⟨(s₁.queueing frames).pump, ?_, hrx₁⟩
          rw [FrameState.retransmit, hframes]
          rfl
        · exact ⟨s₁, rfl, hrx₁⟩
      rw [tickLive]
      refine hk _ ?_ ?_
      · split_ifs <;> [exact hrx; rfl]
      · split_ifs <;> [exact htx; rfl]
    obtain ⟨s₁, hs₁, hrx₁⟩ := hlive
    exact ⟨_, by rw [hs₁]; rfl, hrx₁⟩

/-- A call that is not a frame does not throw and leaves `rx`. -/
lemma call_other (env : LinkEnv σ) (hs : Sized s) (hc : ∀ now buf sz, c ≠ .frame now buf sz) :
    ∃ s', s.call env c = .ok s' ∧ s'.frame.rx = s.frame.rx := by
  cases c with
  | frame now buf sz => exact absurd rfl (hc now buf sz)
  | send m => exact ⟨_, rfl, rfl⟩
  | introduce now =>
    refine ⟨_, rfl, ?_⟩
    rw [sendLIM]
    split <;> rfl
  | close => exact ⟨_, rfl, rfl⟩
  | keepalive => exact ⟨_, rfl, (sendKeepalive_frame s).1⟩
  | tick now working =>
    obtain ⟨r, hr, hrx⟩ := tick_ok now working hs
    exact ⟨r.1, by rw [call, hr]; rfl, hrx⟩
  | enter now st => exact ⟨_, rfl, rfl⟩
  | peer p => exact ⟨_, rfl, rfl⟩

lemma call_frame (env : LinkEnv σ) (s : Session σ) (now : UInt64) (buf : Bytes) (sz : ℕ) :
    s.call env (.frame now buf sz) = (s.process env now buf sz).map fun r =>
      if r.2 then { r.1 with frame := r.1.frame.alive now }.pump else r.1 := by
  rw [call]
  cases s.process env now buf sz with
  | error e => rfl
  | ok r =>
    obtain ⟨s', b⟩ := r
    cases b <;> rfl

/-- What a call does to `rx`. -/
lemma call_rx (hs : Sized s) (h : s.call env c = .ok s') :
    s'.frame.rx = s.frame.rx ∧ (∀ now buf sz, c = .frame now buf sz →
        ∀ id e, ¬ Touches s buf sz id e) ∨
      ∃ now buf sz id e, c = .frame now buf sz ∧ Touches s buf sz id e ∧
        Settled env s id e s'.frame.rx := by
  by_cases hc : ∃ now buf sz, c = .frame now buf sz
  · obtain ⟨now, buf, sz, rfl⟩ := hc
    rw [call_frame] at h
    obtain ⟨hok, herr⟩ := process_cases env now buf sz hs
    by_cases hin : InRange s (.frame now buf sz)
    · obtain ⟨r, hr, hcases⟩ := hok hin
      have hrx : s'.frame.rx = r.1.frame.rx := by
        rw [hr] at h
        rw [← Except.ok.inj h]
        dsimp only
        split_ifs <;> rfl
      rcases hcases with ⟨hnone, hsame⟩ | ⟨id, e, ht, hset⟩
      · refine .inl ⟨hrx.trans hsame, fun now' buf' sz' heq => ?_⟩
        cases heq
        exact hnone
      · exact .inr ⟨now, buf, sz, id, e, rfl, ht, hrx ▸ hset⟩
    · rw [herr hin] at h
      cases h
  · obtain ⟨s'', hs'', hrx⟩ := call_other env hs fun now buf sz heq =>
      hc ⟨now, buf, sz, heq⟩
    obtain rfl : s'' = s' := Except.ok.inj (hs''.symm.trans h)
    exact .inl ⟨hrx, fun now buf sz heq => absurd ⟨now, buf, sz, heq⟩ hc⟩

lemma Settled.lookup {id id' : UInt64} {e t : TransitMessage}
    {rx : AList fun _ : UInt64 => TransitMessage} (h : Settled env s id e rx)
    (ht : rx.lookup id' = some t) : id' = id ∧ t = e ∨ s.frame.rx.lookup id' = some t := by
  by_cases heq : id' = id
  · subst heq
    refine .inl ⟨rfl, ?_⟩
    cases h with
    | waits _ => exact (Option.some.inj ((AList.lookup_insert _).symm.trans ht)).symm
    | stays m => exact (Option.some.inj ((AList.lookup_insert _).symm.trans ht)).symm
    | leaves m =>
      rw [AList.lookup_erase] at ht
      cases ht
  · refine .inr ?_
    cases h with
    | waits _ => rwa [AList.lookup_insert_ne heq] at ht
    | stays m => rwa [AList.lookup_insert_ne heq] at ht
    | leaves m => rwa [AList.lookup_erase_ne heq, AList.lookup_insert_ne heq] at ht

lemma Touches.allocated {buf : Bytes} {sz : ℕ} {id : UInt64} {e : TransitMessage} (hs : Sized s)
    (h : Touches s buf sz id e) : Allocated e := by
  rcases h with ⟨-, -, rfl⟩ | ⟨msg, hf, -, -, rfl⟩
  · exact allocated_xmitEntry buf
  · exact (hs.rx _ _ hf.entry).withFrag buf hf.fragno

/-- The moves cover the calls. -/
lemma Stable.call {P : Session σ → Prop}
    (hP : Stable env (fun _ => True) (fun _ => True) True P) (h : s.call env c = .ok s')
    (hs : P s) : P s' := by
  cases c with
  | frame now buf sz =>
    rw [call_frame] at h
    cases hr : s.process env now buf sz with
    | error e =>
      rw [hr] at h
      cases h
    | ok r =>
      rw [hr] at h
      have hr := hP.process (fun _ => trivial) (fun _ => trivial) (fun _ => trivial)
        (fun _ => trivial) hr hs
      have hafter : s' = r.1 ∨ s' = { r.1 with frame := r.1.frame.alive now }.pump := by
        rw [← Except.ok.inj h]
        dsimp only
        split_ifs
        · exact .inr rfl
        · exact .inl rfl
      exact hP.idle _ _ (.of_process hafter) hr
  | send m =>
    obtain rfl := Except.ok.inj h
    exact hP.send _ m hs
  | introduce now =>
    obtain rfl := Except.ok.inj h
    exact hP.sendLIM hs
  | close =>
    obtain rfl := Except.ok.inj h
    exact hP.close hs
  | keepalive =>
    obtain rfl := Except.ok.inj h
    exact hP.sendKeepalive hs
  | tick now working =>
    obtain ⟨r, hr, h⟩ := bind_eq_ok h
    obtain rfl := Except.ok.inj h
    exact hP.tick hr hs
  | enter now st =>
    obtain rfl := Except.ok.inj h
    exact hP.idle _ _ (.enterState _ _ _) hs
  | peer p =>
    obtain rfl := Except.ok.inj h
    exact hP.idle _ _ (.peer _ _) hs

lemma sized_call (hs : Sized s) (h : s.call env c = .ok s') : Sized s' := by
  refine ⟨fun id t ht => ?_, (stable_cut env).call h hs.tx⟩
  rcases call_rx hs h with ⟨hrx, -⟩ | ⟨now, buf, sz, id', e, -, htouch, hset⟩
  · rw [hrx] at ht
    exact hs.rx id t ht
  · rcases hset.lookup ht with ⟨-, rfl⟩ | ht
    · exact htouch.allocated hs
    · exact hs.rx id t ht

/-- The rule for runs. -/
lemma ReachableBy.rule {C : Session σ → Call σ → Prop} {P : Session σ → Prop}
    (h : ReachableBy env C s) (h₀ : ∀ s : Session σ, s.frame.rx = ∅ → s.frame.tx = ∅ → P s)
    (hstep : ∀ s c s', C s c → s.call env c = .ok s' → P s → P s') : P s := by
  obtain ⟨s₀, hrx, htx, hrun⟩ := h
  induction hrun with
  | refl => exact h₀ s₀ hrx htx
  | tail _ hcall ih =>
    obtain ⟨c, hC, hcall⟩ := hcall
    exact hstep _ c _ hC hcall ih

lemma sized_of_reachable {C : Session σ → Call σ → Prop} (h : ReachableBy env C s) : Sized s := by
  refine h.rule (fun s hrx htx => ⟨?_, ?_⟩) fun s c s' _ hcall hs => sized_call hs hcall
  · intro id t ht
    rw [hrx] at ht
    cases ht
  · intro id t ht
    rw [htx] at ht
    cases ht

end Calls

/-! ### When the bitset throws -/

/-- In every run no status bit past the thirty-second is tested or set, up to the first call that
is a fragment out of range; that call throws. -/
theorem bitset_in_range (env : LinkEnv σ) :
    (∀ s, ReachableBy env InRange s → ∀ c, InRange s c → ∃ s', s.call env c = .ok s') ∧
    ∀ s, ReachableBy env (fun _ _ => True) s → ∀ c,
      ((∃ s', s.call env c = .ok s') ↔ InRange s c) ∧
      (s.call env c = .error .outOfRange ↔ ¬ InRange s c) := by
  have hcall : ∀ (s : Session σ) (c : Call σ), Sized s →
      (InRange s c → ∃ s', s.call env c = .ok s') ∧
      (¬ InRange s c → s.call env c = .error .outOfRange) := by
    intro s c hs
    by_cases hc : ∃ now buf sz, c = .frame now buf sz
    · obtain ⟨now, buf, sz, rfl⟩ := hc
      obtain ⟨hok, herr⟩ := process_cases env now buf sz hs
      rw [call_frame]
      refine ⟨fun hin => ?_, fun hnot => by rw [herr hnot]; rfl⟩
      obtain ⟨r, hr, -⟩ := hok hin
      exact ⟨_, by rw [hr]; rfl⟩
    · obtain ⟨s', hs', -⟩ := call_other env hs fun now buf sz heq => hc ⟨now, buf, sz, heq⟩
      refine ⟨fun _ => ⟨s', hs'⟩, fun hnot => absurd ?_ hnot⟩
      cases c with
      | frame now buf sz => exact absurd ⟨now, buf, sz, rfl⟩ hc
      | _ => trivial
  refine ⟨fun s h c => (hcall s c (sized_of_reachable h)).1, fun s h c => ?_⟩
  obtain ⟨hok, herr⟩ := hcall s c (sized_of_reachable h)
  by_cases hin : InRange s c
  · obtain ⟨s', hs'⟩ := hok hin
    refine ⟨iff_of_true ⟨s', hs'⟩ hin, iff_of_false ?_ (not_not.mpr hin)⟩
    rw [hs']
    exact fun h => by cases h
  · have herr := herr hin
    refine ⟨iff_of_false ?_ hin, iff_of_true herr hin⟩
    rintro ⟨s', hs'⟩
    rw [hs'] at herr
    cases herr

lemma eq_ok_of_toOption {α : Type} {x : Except Fault α} {a : α} (h : x.toOption = some a) :
    x = .ok a := by
  cases x with
  | error f => cases h
  | ok b => rw [Option.some.inj h]

/-- A session without messages. -/
def quietSession : Session Unit where
  frame := {}
  state := .eEstablished
  peer := ()

/-- The announcement of a message of thirty-three fragments of one byte. -/
def manyXmit : Bytes :=
  initSendbuf .eXMIT 48 0 (Xmit.setInfo (List.Vector.replicate 32 0) 1 1 0 33).buffer.1

/-- The last of the fragments. -/
def lateFrag : Bytes := initSendbuf .eFRAG 10 0 (leBytes 8 1 ++ [32, 0])

theorem late_frag_throws : ¬ ∀ (env : LinkEnv Unit) (s : Session Unit) (c : Call Unit),
    ReachableBy env (fun _ _ => True) s → ∃ s', s.call env c = .ok s' := by
  intro h
  let env := LinkEnv.discarding (List.Vector.replicate 32 0)
  have hrun : ((quietSession.call env (.frame 0 manyXmit manyXmit.length)).toOption.map fun s =>
      (s.call env (.frame 0 lateFrag lateFrag.length)).toOption.isSome) = some false := by
    decide +kernel
  obtain ⟨s, hs, hnone⟩ := Option.map_eq_some_iff.mp hrun
  have hs := eq_ok_of_toOption hs
  obtain ⟨s', hs'⟩ := h env s (.frame 0 lateFrag lateFrag.length)
    ⟨quietSession, rfl, rfl, .single ⟨_, trivial, hs⟩⟩
  rw [hs'] at hnone
  cases hnone

/-! ### When a complete message stays -/

/-- Every message that a frame completes has the hash it was announced with. -/
def HashesMatch (env : LinkEnv σ) (s : Session σ) : Call σ → Prop
  | .frame _ buf sz => ∀ id e m, Touches s buf sz id e → Full e.msginfo.numfrags e.status →
      e.reassemble = .ok (some m) → env.shorthash m = e.msginfo.hash
  | _ => True

/-- No message in `rx` is complete. -/
def AllIncomplete (s : Session σ) : Prop := ∀ id t, s.frame.rx.lookup id = some t → Incomplete t

lemma Incomplete.not_full {t : TransitMessage} (h : Incomplete t) :
    ¬ Full t.msginfo.numfrags t.status := by
  obtain ⟨i, hi, -, hb⟩ := h
  intro hfull
  rw [hfull i hi] at hb
  cases hb

lemma allIncomplete_call_iff {env : LinkEnv σ} {s s' : Session σ} {c : Call σ} (hs : Sized s)
    (hall : AllIncomplete s) (h : s.call env c = .ok s') :
    AllIncomplete s' ↔ HashesMatch env s c := by
  rcases call_rx hs h with ⟨hrx, hnone⟩ | ⟨now, buf, sz, id, e, rfl, htouch, hset⟩
  · refine iff_of_true (fun id t ht => hall id t (hrx ▸ ht)) ?_
    cases c with
    | frame now buf sz => exact fun id e m ht => absurd ht (hnone now buf sz rfl id e)
    | _ => trivial
  · constructor
    · intro hall' id' e' m ht hfull hm
      obtain ⟨rfl, rfl⟩ := htouch.unique ht
      by_contra hhash
      have hentry : s'.frame.rx.lookup id' = some e' := by
        generalize hrx : s'.frame.rx = rx at hset
        cases hset with
        | waits _ => exact AList.lookup_insert _
        | stays m' => exact AList.lookup_insert _
        | leaves m' _ _ hm' hhash' =>
          obtain rfl : m = m' := Option.some.inj (Except.ok.inj (hm.symm.trans hm'))
          exact absurd hhash' hhash
      exact (hall' id' e' hentry).not_full hfull
    · intro hmatch id' t ht
      rcases hset.lookup ht with ⟨rfl, rfl⟩ | ht
      · generalize s'.frame.rx = rx at hset ht
        cases hset with
        | waits hinc => exact hinc
        | stays m hn hfull hm hhash => exact absurd (hmatch id' t m htouch hfull hm) hhash
        | leaves m =>
          rw [AList.lookup_erase] at ht
          cases ht
      · exact hall id' t ht

/-- In every run whose frames complete only messages with the hash they were announced with, no
message in `rx` is complete, and `inbound_frame_complete` removes the message it is called for
exactly when the hash is right or a fragment is missing. A frame that completes a message with
another hash leaves it in `rx`. -/
theorem no_finished_message (env : LinkEnv σ) :
    (∀ s, ReachableBy env (HashesMatch env) s → AllIncomplete s) ∧
    (∀ s c s', ReachableBy env (fun _ _ => True) s → AllIncomplete s → s.call env c = .ok s' →
      (AllIncomplete s' ↔ HashesMatch env s c)) ∧
    ∀ (s : Session σ) now id t r, s.frame.rx.lookup id = some t →
      s.inboundFrameComplete env now id = .ok r →
      (id ∉ r.1.frame.rx ↔
        ∀ m, t.reassemble = .ok (some m) → env.shorthash m = t.msginfo.hash) := by
  refine ⟨fun s h => ?_, fun s c s' h hall hcall =>
    allIncomplete_call_iff (sized_of_reachable h) hall hcall, fun s now id t r ht hr => ?_⟩
  · obtain ⟨s₀, hrx, htx, hrun⟩ := h
    induction hrun with
    | refl =>
      intro id t ht
      rw [hrx] at ht
      cases ht
    | tail hrun hcall ih =>
      obtain ⟨c, hC, hcall⟩ := hcall
      exact (allIncomplete_call_iff (sized_of_reachable ⟨s₀, hrx, htx, hrun⟩) ih hcall).mpr hC
  · have hmem : id ∈ s.frame.rx := AList.lookup_isSome.mp (by rw [ht]; rfl)
    cases hre : t.reassemble with
    | error f =>
      rw [inboundFrameComplete, ht] at hr
      simp only [hre] at hr
      cases hr
    | ok o =>
      cases o with
      | none =>
        rw [inboundFrameComplete, ht] at hr
        simp only [hre] at hr
        obtain rfl := Except.ok.inj hr
        exact iff_of_true (by simp [eraseRx]) (by simp)
      | some m =>
        rw [inboundFrameComplete_eq ht hre] at hr
        by_cases hhash : env.shorthash m = t.msginfo.hash
        · rw [if_pos hhash] at hr
          obtain rfl := Except.ok.inj hr
          refine iff_of_true (by simp [finished, eraseRx]) fun m' hm' => ?_
          rw [← Option.some.inj (Except.ok.inj hm')]
          exact hhash
        · rw [if_neg hhash] at hr
          obtain rfl := Except.ok.inj hr
          exact iff_of_false (not_not.mpr hmem) fun h => hhash (h m rfl)

/-- An empty message that was announced with another hash than it has. -/
def wrongXmit : Bytes :=
  initSendbuf .eXMIT 48 0 (Xmit.setInfo (List.Vector.replicate 32 1) 1 1024 0 0).buffer.1

theorem wrong_hash_stays : ¬ ∀ (env : LinkEnv Unit) (s : Session Unit),
    ReachableBy env (fun _ _ => True) s → AllIncomplete s := by
  intro h
  let env := LinkEnv.discarding (List.Vector.replicate 32 0)
  have hrun : ((quietSession.call env (.frame 0 wrongXmit wrongXmit.length)).toOption.map fun s =>
      (s.frame.rx.lookup 1).map fun t => t.msginfo.numfrags) = some (some 0) := by
    decide +kernel
  obtain ⟨s, hs, hentry⟩ := Option.map_eq_some_iff.mp hrun
  have hs := eq_ok_of_toOption hs
  obtain ⟨t, ht, hzero⟩ := Option.map_eq_some_iff.mp hentry
  obtain ⟨i, hi, -⟩ := h env s ⟨quietSession, rfl, rfl, .single ⟨_, trivial, hs⟩⟩ 1 t ht
  omega

end Session

end Udap.Iwp
