import Udap.Iwp.Session
import Udap.Iwp.Fragments

/-!
What a session does with the frames its peer produces for a message of at most
`MAX_LINK_MSG_SIZE` bytes, whatever padding follows them.

* `completeMessage_rule`: a property that `sendto`, `EnterState`, `close` and a change of the
  contact data keep is kept by the hand-over of a complete message; `completeMessage_rx` and
  its companions are the frame conditions.
* `process_xmitFrame`, `process_fragFrame`, `gotAcks_ackFrame`, `process_alivFrame`: one
  equation for each kind of frame.
-/

namespace Udap.Iwp

open ByteMem TransitMessage

/-- `MAX_PAD`: a frame is sent with fewer than this many random bytes behind it. -/
def maxPad : ℕ := 128

/-- The random bytes `encrypt_frame_async_send` puts behind a frame. -/
abbrev Padding := { p : Bytes // p.length < maxPad }

/-- The `ACKS` frame of `push_ackfor`. -/
def ackFrame (id : UInt64) (mask : BitVec 32) (flags : UInt8) : Bytes :=
  initSendbuf .eACKS 12 flags (leBytes 8 id.toNat ++ leBytes 4 mask.toNat)

/-- The frame of `send_keepalive`. -/
def alivFrame (flags : UInt8) : Bytes := initSendbuf .eALIV 0 flags [0, 0]

namespace Session

variable {σ : Type} (env : LinkEnv σ) (now : UInt64)

/-! ### Frame conditions -/

section Frame

variable (s : Session σ) (msg : LinkMessage) (st : State) (id : UInt64) (buf : Bytes)

@[simp] lemma pump_rx : s.pump.frame.rx = s.frame.rx := rfl
@[simp] lemma pump_tx : s.pump.frame.tx = s.frame.tx := rfl
@[simp] lemma pump_handed : s.pump.handed = s.handed := rfl
@[simp] lemma pump_rxflags : s.pump.frame.rxflags = s.frame.rxflags := rfl
@[simp] lemma pump_txflags : s.pump.frame.txflags = s.frame.txflags := rfl
@[simp] lemma sendto_rx : (s.sendto env msg).frame.rx = s.frame.rx := rfl
@[simp] lemma sendto_handed : (s.sendto env msg).handed = s.handed := rfl
@[simp] lemma sendto_rxflags : (s.sendto env msg).frame.rxflags = s.frame.rxflags := rfl
@[simp] lemma sendto_txflags : (s.sendto env msg).frame.txflags = s.frame.txflags := rfl
@[simp] lemma enterState_rx : (s.enterState now st).frame.rx = s.frame.rx := rfl
@[simp] lemma enterState_handed : (s.enterState now st).handed = s.handed := rfl
@[simp] lemma close_rx : s.close.frame.rx = s.frame.rx := rfl
@[simp] lemma close_handed : s.close.handed = s.handed := rfl
@[simp] lemma eraseRx_handed : (s.eraseRx id).handed = s.handed := rfl
@[simp] lemma stored_handed (t : TransitMessage) : (s.stored id t).handed = s.handed := rfl
@[simp] lemma acking_handed (mask : BitVec 32) : (s.acking id mask).handed = s.handed := rfl

/-- Acking writes one frame. -/
lemma mem_acking {mask : BitVec 32} {f : Bytes}
    (hf : f ∈ (s.acking id mask).outbound ++ (s.acking id mask).frame.sendqueue) :
    f ∈ s.outbound ++ s.frame.sendqueue ∨ f = ackFrame id mask s.frame.txflags := by
  simp only [acking, FrameState.pushAckfor, ← List.append_assoc] at hf
  obtain hf | hf := List.mem_append.mp hf
  · exact .inl hf
  · exact .inr (List.mem_singleton.mp hf)

lemma noteFlags_eq : s.noteFlags buf =
    { s with frame := { s.frame with rxflags := (s.noteFlags buf).frame.rxflags } } := by
  rw [noteFlags]
  split <;> rfl

@[simp] lemma noteFlags_rx : (s.noteFlags buf).frame.rx = s.frame.rx := by rw [noteFlags_eq]
@[simp] lemma noteFlags_tx : (s.noteFlags buf).frame.tx = s.frame.tx := by rw [noteFlags_eq]
@[simp] lemma noteFlags_handed : (s.noteFlags buf).handed = s.handed := by rw [noteFlags_eq]

end Frame

/-- The rule for what `inbound_frame_complete` does between the hash check and the removal of
the message: a property of the session that the router's sends, the state changes, the closing
and the contact data cannot break, and that the record of the call satisfies. -/
lemma completeMessage_rule {P : Session σ → Prop} {s : Session σ} {id : UInt64} {msg : Bytes}
    (hsend : ∀ s m, P s → P (s.sendto env m)) (henter : ∀ s st, P s → P (s.enterState now st))
    (hpeer : ∀ s p, P s → P { s with peer := p }) (hclose : ∀ s, P s → P s.close)
    (hs : P (s.handing id msg)) :
    P (s.completeMessage env now id msg).1 := by
  have hfold : ∀ (l : List LinkMessage) (s : Session σ), P s → P (l.foldl (sendto env) s) := by
    intro l
    induction l with
    | nil => exact fun s h => h
    | cons m l ih => exact fun s h => ih _ (hsend s m h)
  have hover : P (s.handOver env id msg).1 := hfold _ _ (hpeer _ _ hs)
  rw [completeMessage]
  split
  rename_i s' success heq
  rw [heq] at hover
  split_ifs
  · rw [introduced]
    split
    · rename_i peer hcheck
      rw [accepted]
      split_ifs
      · exact hpeer s' peer hover
      · refine hpeer _ _ (henter _ _ ?_)
        rw [sendLIM]
        split
        · exact henter _ _ (hsend _ _ (hpeer s' peer hover))
        · exact hpeer s' peer hover
    · rename_i peer hcheck
      exact hclose _ (hpeer s' peer hover)
  · exact hover

lemma completeMessage_rx (s : Session σ) (id : UInt64) (msg : Bytes) :
    (s.completeMessage env now id msg).1.frame.rx = s.frame.rx :=
  completeMessage_rule env now (P := fun s' => s'.frame.rx = s.frame.rx)
    (fun _ _ h => h) (fun _ _ h => h) (fun _ _ h => h) (fun _ h => h) rfl

lemma completeMessage_handed (s : Session σ) (id : UInt64) (msg : Bytes) :
    (s.completeMessage env now id msg).1.handed = s.handed ++ [(id, msg)] :=
  completeMessage_rule env now (P := fun s' => s'.handed = s.handed ++ [(id, msg)])
    (fun _ _ h => h) (fun _ _ h => h) (fun _ _ h => h) (fun _ h => h) rfl

/-- The state in which a complete message leaves the session. -/
def finished (id : UInt64) (m : Bytes) (s : Session σ) : Session σ × Bool :=
  ((s.completeMessage env now id m).1.eraseRx id, (s.completeMessage env now id m).2)

@[simp] lemma finished_handed (s : Session σ) (id : UInt64) (m : Bytes) :
    (s.finished env now id m).1.handed = s.handed ++ [(id, m)] :=
  completeMessage_handed env now s id m

@[simp] lemma finished_rx (s : Session σ) (id : UInt64) (m : Bytes) :
    (s.finished env now id m).1.frame.rx = s.frame.rx.erase id := by
  rw [finished, eraseRx]
  simp only [completeMessage_rx]

/-- A message all of whose fragments are there is handed over. -/
lemma inboundFrameComplete_of_full {s : Session σ} {id : UInt64} {m : Bytes}
    {t : TransitMessage} (hm : m.length ≤ 32768) (hl : s.frame.rx.lookup id = some t)
    (ht : IsPartial (env.shorthash m) id m t) (hfull : Full (numfragsOf m) t.status) :
    s.inboundFrameComplete env now id = .ok (s.finished env now id m) := by
  simp [inboundFrameComplete, hl, ht.reassemble hm hfull, ht.msginfo, bind, Except.bind, pure,
    Except.pure, finished]

/-- A frame that is accepted refreshes the session and flushes its queue. -/
lemma handleFrameDecrypt_of_true {env : LinkEnv σ} {now : UInt64} {buf : Bytes} {s : Session σ}
    {r : Session σ × Bool} (h : s.process env now buf buf.length = .ok r) (hr : r.2 = true) :
    s.handleFrameDecrypt env now buf = .ok { r.1 with frame := r.1.frame.alive now }.pump := by
  simp only [handleFrameDecrypt, h, bind, Except.bind, hr, if_true]
  rfl

/-- What follows `process` changes neither `rx` nor the record of handed messages. -/
lemma handleFrameDecrypt_of {buf : Bytes} {s : Session σ} {r : Session σ × Bool}
    (h : s.process env now buf buf.length = .ok r) :
    ∃ s', s.handleFrameDecrypt env now buf = .ok s' ∧ s'.frame.rx = r.1.frame.rx ∧
      s'.handed = r.1.handed := by
  obtain ⟨s₁, b⟩ := r
  simp only [handleFrameDecrypt, h, bind, Except.bind]
  cases b with
  | true => exact ⟨_, rfl, rfl, rfl⟩
  | false => exact ⟨_, rfl, rfl, rfl⟩

lemma handleFrameDecrypt_ok {buf : Bytes} {s : Session σ}
    (h : ∃ r, s.process env now buf buf.length = .ok r) :
    ∃ s', s.handleFrameDecrypt env now buf = .ok s' := by
  obtain ⟨r, hr⟩ := h
  obtain ⟨s', hs', -⟩ := handleFrameDecrypt_of env now hr
  exact ⟨s', hs'⟩

/-! ### Genuine frames -/

/-- The message id that is read from a frame is the one that was written. -/
lemma msgid_initSendbuf (t : MsgType) (sz : ℕ) (flags : UInt8) (id : UInt64) (body pad : Bytes) :
    UInt64.ofNat (leNat (hdrData
      (initSendbuf t sz flags (leBytes 8 id.toNat ++ body) ++ pad) 0 8)) = id := by
  rw [hdrData_initSendbuf, List.append_assoc, slice_head (leBytes_length _ _),
    leNat_leBytes_of_lt id.toNat_lt, UInt64.ofNat_toNat]

/-- What the size in the header of a frame is checked against. -/
lemma usub_initSendbuf {t : MsgType} {sz : ℕ} {flags : UInt8} {body : Bytes}
    (hbody : body.length < 2 ^ 63) (pad : Padding) :
    usub (initSendbuf t sz flags body ++ pad.1).length 6 = body.length + pad.1.length := by
  have hpad : pad.1.length < 128 := pad.2
  have hlen : (initSendbuf t sz flags body ++ pad.1).length = 6 + body.length + pad.1.length := by
    rw [List.length_append, initSendbuf_length]
  rw [hlen, usub_eq (by omega) (by omega)]
  omega

/-! ### The `XMIT` frame -/

/-- The inbound message a genuine `XMIT` frame creates. -/
def announced (id : UInt64) (m : Bytes) : TransitMessage :=
  (inbound (xmitOf (env.shorthash m) id m)).putLastfrag (lastfragOf m)

/-- The session after a genuine `XMIT` frame for a new message. -/
def taken (id : UInt64) (m : Bytes) (s : Session σ) : Session σ :=
  (s.stored id (announced env id m)).acking id 0

@[simp] lemma taken_handed (id : UInt64) (m : Bytes) (s : Session σ) :
    (s.taken env id m).handed = s.handed := rfl

lemma xmitFrame_length (h : Blob 32) (id : UInt64) (m : Bytes) (flags : UInt8) :
    (xmitFrame h id m flags).length = 54 + (lastfragOf m).length := by
  rw [xmitFrame, initSendbuf_length, List.length_append, (xmitOf h id m).buffer.2]
  omega

lemma ofFrame_xmitFrame (h : Blob 32) (id : UInt64) (m : Bytes) (flags : UInt8)
    (pad : Bytes) : Xmit.ofFrame (xmitFrame h id m flags ++ pad) = xmitOf h id m := by
  have hx : hdrData (xmitFrame h id m flags ++ pad) 0 48 = (xmitOf h id m).buffer.1 := by
    rw [xmitFrame, hdrData_initSendbuf, List.append_assoc, slice_head (xmitOf h id m).buffer.2]
  exact congrArg Xmit.mk (Subtype.ext hx)

lemma lastfrag_xmitFrame (h : Blob 32) (id : UInt64) (m : Bytes) (flags : UInt8)
    (pad : Bytes) : hdrData (xmitFrame h id m flags ++ pad) 48 (lastfragOf m).length =
      lastfragOf m := by
  rw [xmitFrame, hdrData_initSendbuf, List.append_assoc,
    slice_mid (xmitOf h id m).buffer.2 rfl]

/-- `got_xmit` on a genuine frame: a known message is left alone, a new one is allocated and
announced, and one without full fragments is complete at once. -/
lemma gotXmit_xmitFrame {m : Bytes} (hm : m.length ≤ 32768) (id : UInt64) (flags : UInt8)
    (pad : Padding) (s : Session σ) :
    let buf := xmitFrame (env.shorthash m) id m flags ++ pad.1
    s.gotXmit env now buf (usub buf.length 6) =
      if id ∈ s.frame.rx then .ok (s, false)
      else if numfragsOf m = 0 then .ok ((s.taken env id m).finished env now id m)
      else .ok (s.taken env id m, true) := by
  intro buf
  have hlast := lastfragOf_length_le m
  have hlen : ((xmitOf (env.shorthash m) id m).buffer.1 ++ lastfragOf m).length =
      48 + (lastfragOf m).length := by
    rw [List.length_append, (xmitOf (env.shorthash m) id m).buffer.2]
  have hsize : hdrSize buf = (lastfragOf m).length + 48 := by
    rw [show hdrSize buf = ((lastfragOf m).length + 48) % 65536 from hdrSize_initSendbuf ..]
    omega
  have husub : usub buf.length 6 = 48 + (lastfragOf m).length + pad.1.length := by
    rw [← hlen]
    exact usub_initSendbuf (by omega) pad
  have husub' : usub ((lastfragOf m).length + 48) 48 = (lastfragOf m).length := by
    rw [usub_eq (by omega) (by omega)]
    omega
  have hx : Xmit.ofFrame buf = xmitOf (env.shorthash m) id m := ofFrame_xmitFrame ..
  have hl : hdrData buf 48 (lastfragOf m).length = lastfragOf m := lastfrag_xmitFrame ..
  rw [gotXmit, hx, hsize, husub]
  simp only [xmitOf_lastfrag, xmitOf_flags, xmitOf_msgid, husub', xmitOf_numfrags _ _ hm, hl]
  rw [if_neg (by omega), if_neg (by omega), if_neg (by decide)]
  split_ifs with hin h0
  · rfl
  · have hl : (s.taken env id m).frame.rx.lookup id = some (announced env id m) :=
      AList.lookup_insert _
    have hfull : Full (numfragsOf m) (announced env id m).status := by
      rw [h0]
      exact fun i hi => absurd hi (Nat.not_lt_zero i)
    exact inboundFrameComplete_of_full env now hm hl (inbound_isPartial _ id hm) hfull
  · rfl

/-- A genuine `XMIT` frame in `process`. -/
lemma process_xmitFrame {m : Bytes} (hm : m.length ≤ 32768) (id : UInt64) (flags : UInt8)
    (pad : Padding) (s : Session σ) :
    let buf := xmitFrame (env.shorthash m) id m flags ++ pad.1
    s.process env now buf buf.length =
      if id ∈ s.frame.rx then .ok (s.noteFlags buf, false)
      else if numfragsOf m = 0 then
        .ok (((s.noteFlags buf).taken env id m).finished env now id m)
      else .ok ((s.noteFlags buf).taken env id m, true) := by
  intro buf
  have h := gotXmit_xmitFrame env now hm id flags pad (s.noteFlags buf)
  rw [noteFlags_rx] at h
  exact h

/-- A genuine `XMIT` frame causes no fault. -/
lemma handleFrameDecrypt_xmitFrame_ok {m : Bytes} (hm : m.length ≤ 32768) (id : UInt64)
    (flags : UInt8) (pad : Padding) (s : Session σ) :
    ∃ s', s.handleFrameDecrypt env now (xmitFrame (env.shorthash m) id m flags ++ pad.1) =
      .ok s' := by
  apply handleFrameDecrypt_ok
  rw [process_xmitFrame env now hm id flags pad s]
  split_ifs
  · exact ⟨_, rfl⟩
  · exact ⟨_, rfl⟩
  · exact ⟨_, rfl⟩

/-! ### The `FRAG` frame -/

lemma fragFrameOf_length {m : Bytes} {i : ℕ} (hi : i < numfragsOf m) (id : UInt64)
    (flags : UInt8) : (fragFrameOf id m i flags).length = 1039 := by
  rw [fragFrameOf, initSendbuf_length, List.length_append, List.length_cons, leBytes_length,
    fragOf_length hi]

/-- The fragment number `got_frag` reads. -/
def fragnoOf (buf : Bytes) : ℕ := leNat (hdrData buf 8 1)

lemma fragnoOf_fragFrameOf {m : Bytes} (hm : m.length ≤ 32768) {i : ℕ} (hi : i < numfragsOf m)
    (id : UInt64) (flags : UInt8) (pad : Bytes) :
    fragnoOf (fragFrameOf id m i flags ++ pad) = i := by
  have hn := numfragsOf_le hm
  have hd : hdrData (fragFrameOf id m i flags ++ pad) 8 1 = [UInt8.ofNat i] := by
    have := slice_mid (a := leBytes 8 id.toNat) (b := [UInt8.ofNat i]) (c := fragOf m i ++ pad)
      (leBytes_length _ _) rfl
    rw [fragFrameOf, hdrData_initSendbuf, List.append_assoc]
    exact this
  rw [fragnoOf, hd, leNat, leNat, UInt8.toNat_ofNat']
  omega

/-- The part of `got_frag` after the size checks, on a genuine frame. -/
lemma gotFrag_fragFrameOf {m : Bytes} (hm : m.length ≤ 32768) (id : UInt64) {i : ℕ}
    (hi : i < numfragsOf m) (flags : UInt8) (pad : Padding) (s : Session σ) :
    let buf := fragFrameOf id m i flags ++ pad.1
    (id ∉ s.frame.rx → s.gotFrag env now buf (usub buf.length 6) = .ok (s, true)) ∧
    ∀ t, s.frame.rx.lookup id = some t → IsPartial (env.shorthash m) id m t →
      ∃ t', IsPartial (env.shorthash m) id m t' ∧
        t'.status = t.status ||| BitVec.twoPow 32 i ∧
        s.gotFrag env now buf (usub buf.length 6) =
          if Full (numfragsOf m) t'.status then
            .ok (((s.stored id t').acking id t'.status).finished env now id m)
          else if t'.shouldSendAck then .ok ((s.stored id t').acking id t'.status, true)
          else .ok (s.stored id t', true) := by
  intro buf
  have hn := numfragsOf_le hm
  have hlen : (leBytes 8 id.toNat ++ (UInt8.ofNat i :: fragOf m i)).length = 1033 := by
    rw [List.length_append, List.length_cons, leBytes_length, fragOf_length hi]
  have hsize : hdrSize buf = 1033 := hdrSize_initSendbuf ..
  have husub : usub buf.length 6 = 1033 + pad.1.length := by
    rw [← hlen]
    exact usub_initSendbuf (by omega) pad
  have hid : UInt64.ofNat (leNat (hdrData buf 0 8)) = id := msgid_initSendbuf ..
  have hno : leNat (hdrData buf 8 1) = i := fragnoOf_fragFrameOf hm hi id flags pad.1
  have hfrag : hdrData buf 9 1024 = fragOf m i := by
    refine (hdrData_initSendbuf ..).trans ?_
    rw [List.append_assoc, List.cons_append, ← List.singleton_append,
      ← List.append_assoc]
    exact slice_mid (by simp) (fragOf_length hi)
  rw [gotFrag, hid, hno, hsize, husub]
  rw [if_neg (by omega), if_neg (by omega)]
  refine ⟨fun hnot => by rw [AList.lookup_eq_none.mpr hnot], fun t hl ht => ?_⟩
  obtain ⟨t', hput, ht', hst⟩ := ht.putFrag hm hi
  refine ⟨t', ht', hst, ?_⟩
  have hcomp : t'.completed = .ok (decide (Full (numfragsOf m) t'.status)) := by
    rw [← ht'.numfrags hm]
    exact completed_eq (by rw [ht'.numfrags hm]; omega)
  have hrx : ((s.stored id t').acking id t'.status).frame.rx.lookup id = some t' :=
    AList.lookup_insert _
  have hfs : t.msginfo.fragsize = 1024 := by rw [ht.msginfo, xmitOf_fragsize]
  simp only [hl, hfs, hfrag, hput, hcomp, getBitmask_eq, bind, Except.bind]
  rw [if_neg (by omega)]
  by_cases hfull : Full (numfragsOf m) t'.status
  · simp only [hfull, decide_true, if_true]
    exact inboundFrameComplete_of_full env now hm hrx ht' hfull
  · simp only [hfull, decide_false, if_false, Bool.false_eq_true]
    split <;> rfl

/-- A genuine `FRAG` frame of an unknown message is ignored. -/
lemma process_fragFrame_none {m : Bytes} (hm : m.length ≤ 32768) (id : UInt64) {i : ℕ}
    (hi : i < numfragsOf m) (flags : UInt8) (pad : Padding) {s : Session σ}
    (hl : id ∉ s.frame.rx) :
    let buf := fragFrameOf id m i flags ++ pad.1
    s.process env now buf buf.length = .ok (s.noteFlags buf, true) := by
  intro buf
  exact (gotFrag_fragFrameOf env now hm id hi flags pad (s.noteFlags buf)).1
    (by rw [noteFlags_rx]; exact hl)

/-- A genuine `FRAG` frame of a message in progress: the fragment is stored; the last missing
one completes the message, another may be acked. -/
lemma process_fragFrame {m : Bytes} (hm : m.length ≤ 32768) (id : UInt64) {i : ℕ}
    (hi : i < numfragsOf m) (flags : UInt8) (pad : Padding) {s : Session σ}
    {t : TransitMessage} (hl : s.frame.rx.lookup id = some t)
    (ht : IsPartial (env.shorthash m) id m t) :
    let buf := fragFrameOf id m i flags ++ pad.1
    let s' := s.noteFlags buf
    ∃ t', IsPartial (env.shorthash m) id m t' ∧ t'.status = t.status ||| BitVec.twoPow 32 i ∧
      s.process env now buf buf.length =
        if Full (numfragsOf m) t'.status then
          .ok (((s'.stored id t').acking id t'.status).finished env now id m)
        else if t'.shouldSendAck then .ok ((s'.stored id t').acking id t'.status, true)
        else .ok (s'.stored id t', true) := by
  intro buf s'
  exact (gotFrag_fragFrameOf env now hm id hi flags pad s').2 t
    (by rw [noteFlags_rx]; exact hl) ht

/-- A genuine `FRAG` frame of a message that is unknown or in progress causes no fault. -/
lemma handleFrameDecrypt_fragFrame_ok {m : Bytes} (hm : m.length ≤ 32768) (id : UInt64) {i : ℕ}
    (hi : i < numfragsOf m) (flags : UInt8) (pad : Padding) {s : Session σ}
    (hrx : ∀ t, s.frame.rx.lookup id = some t → IsPartial (env.shorthash m) id m t) :
    ∃ s', s.handleFrameDecrypt env now (fragFrameOf id m i flags ++ pad.1) = .ok s' := by
  apply handleFrameDecrypt_ok
  cases hl : s.frame.rx.lookup id with
  | none =>
      exact ⟨_, process_fragFrame_none env now hm id hi flags pad (AList.lookup_eq_none.mp hl)⟩
  | some t =>
      obtain ⟨t', -, -, hproc⟩ := process_fragFrame env now hm id hi flags pad hl (hrx t hl)
      rw [hproc]
      split_ifs
      · exact ⟨_, rfl⟩
      · exact ⟨_, rfl⟩
      · exact ⟨_, rfl⟩

/-! ### The `ACKS` and `ALIV` frames -/

/-- `got_acks` on a genuine frame: an unknown message is ignored, one whose fragments are now
all acked is retired, and of any other the fragments not acked are queued again. -/
lemma gotAcks_ackFrame (id : UInt64) (mask : BitVec 32) (flags : UInt8) (pad : Padding)
    (s : Session σ) :
    let buf := ackFrame id mask flags ++ pad.1
    (id ∉ s.frame.tx → s.gotAcks buf (usub buf.length 6) = .ok (s, true)) ∧
    ∀ h m t, m.length ≤ 32768 → s.frame.tx.lookup id = some t → IsCut h id m t →
      if Full (numfragsOf m) (t.status ||| mask) then
        s.gotAcks buf (usub buf.length 6) = .ok (s.retired id, true)
      else ∃ frames, (t.ack mask).retransmitFrags s.frame.txflags = .ok frames ∧
        s.gotAcks buf (usub buf.length 6) =
          .ok ((s.noting id (t.ack mask)).queueing frames, true) := by
  intro buf
  have hlen : (leBytes 8 id.toNat ++ leBytes 4 mask.toNat).length = 12 := by
    rw [List.length_append, leBytes_length, leBytes_length]
  have hsize : hdrSize buf = 12 := hdrSize_initSendbuf ..
  have husub : usub buf.length 6 = 12 + pad.1.length := by
    rw [← hlen]
    exact usub_initSendbuf (by omega) pad
  have hid : UInt64.ofNat (leNat (hdrData buf 0 8)) = id := msgid_initSendbuf ..
  have hdata : hdrData buf 8 4 = slice (leBytes 8 id.toNat ++ leBytes 4 mask.toNat ++ pad.1) 8 4 :=
    hdrData_initSendbuf ..
  have hmask : BitVec.ofNat 32 (leNat (hdrData buf 8 4)) = mask := by
    rw [hdata, List.append_assoc, slice_mid (leBytes_length _ _) (leBytes_length _ _),
      leNat_leBytes_of_lt mask.isLt, BitVec.ofNat_toNat, BitVec.setWidth_eq]
  rw [gotAcks, hid, hmask, hsize, husub]
  rw [if_neg (by omega), if_neg (by omega)]
  refine ⟨fun hnot => by rw [AList.lookup_eq_none.mpr hnot], fun h m t hm hl ht => ?_⟩
  have hcut := ht.ack mask
  have hn := numfragsOf_le hm
  have hcomp : (t.ack mask).completed =
      .ok (decide (Full (numfragsOf m) (t.status ||| mask))) := by
    rw [← hcut.numfrags hm, ← ack_status]
    exact completed_eq (by rw [hcut.numfrags hm]; omega)
  obtain ⟨frames, hframes, _⟩ := hcut.retransmitFrags hm s.frame.txflags
  split_ifs with hfull
  · simp only [hl, hcomp, hfull, decide_true, bind, Except.bind, if_true]
    rfl
  · refine ⟨frames, hframes, ?_⟩
    simp only [hl, hcomp, hfull, decide_false, bind, Except.bind, hframes, Bool.false_eq_true,
      if_false]
    rfl

/-- The outbound messages after a genuine `ACKS` frame. -/
lemma handleFrameDecrypt_ackFrame_tx {id : UInt64} {mask : BitVec 32} {flags : UInt8}
    {pad : Padding} {s s' : Session σ}
    (hs : s.handleFrameDecrypt env now (ackFrame id mask flags ++ pad.1) = .ok s') :
    (id ∉ s.frame.tx → s'.frame.tx = s.frame.tx) ∧
    ∀ h m t, m.length ≤ 32768 → s.frame.tx.lookup id = some t → IsCut h id m t →
      s'.frame.tx = if Full (numfragsOf m) (t.status ||| mask) then s.frame.tx.erase id
        else s.frame.tx.insert id (t.ack mask) := by
  set buf := ackFrame id mask flags ++ pad.1 with hbuf
  have htx : ∀ r, s.process env now buf buf.length = .ok r → s'.frame.tx = r.1.frame.tx := by
    intro r hr
    rw [handleFrameDecrypt, hr] at hs
    simp only [bind, Except.bind, pure, Except.pure] at hs
    split_ifs at hs
    · rw [← Except.ok.inj hs]
      rfl
    · rw [← Except.ok.inj hs]
  have hproc : s.process env now buf buf.length =
      (s.noteFlags buf).gotAcks buf (usub buf.length 6) := rfl
  obtain ⟨hnone, hsome⟩ := gotAcks_ackFrame id mask flags pad (s.noteFlags buf)
  rw [noteFlags_tx] at hnone hsome
  rw [hproc] at htx
  refine ⟨fun hn => ?_, fun h m t hm hl hc => ?_⟩
  · rw [htx _ (hnone hn), noteFlags_tx]
  · have hres := hsome h m t hm hl hc
    split_ifs at hres ⊢
    · rw [htx _ hres, retired, noteFlags_tx]
    · obtain ⟨frames, -, hres⟩ := hres
      rw [htx _ hres, queueing, noting, noteFlags_tx]

/-- A genuine `ACKS` frame for a message of `tx` causes no fault. -/
lemma handleFrameDecrypt_ackFrame_ok {h : Blob 32} {id : UInt64} {m : Bytes} {t : TransitMessage}
    {s : Session σ} (hm : m.length ≤ 32768) (hl : s.frame.tx.lookup id = some t)
    (hc : IsCut h id m t) (mask : BitVec 32) (flags : UInt8) (pad : Padding) :
    ∃ s', s.handleFrameDecrypt env now (ackFrame id mask flags ++ pad.1) = .ok s' := by
  set buf := ackFrame id mask flags ++ pad.1 with hbuf
  have hproc : s.process env now buf buf.length =
      (s.noteFlags buf).gotAcks buf (usub buf.length 6) := rfl
  obtain ⟨-, hsome⟩ := gotAcks_ackFrame id mask flags pad (s.noteFlags buf)
  rw [noteFlags_tx] at hsome
  have hres := hsome h m t hm hl hc
  split_ifs at hres
  · exact handleFrameDecrypt_ok env now ⟨_, hproc.trans hres⟩
  · obtain ⟨frames, -, hres⟩ := hres
    exact handleFrameDecrypt_ok env now ⟨_, hproc.trans hres⟩

/-- A keepalive only moves flags. -/
lemma process_alivFrame (flags : UInt8) (pad : Bytes) (s : Session σ) (sz : ℕ) :
    s.process env now (alivFrame flags ++ pad) sz =
      .ok ((s.noteFlags (alivFrame flags ++ pad)).gotAliv, true) := rfl

end Session

end Udap.Iwp
