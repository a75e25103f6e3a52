import Udap.Iwp.Intake

/-!
Which bytes of a frame decide what `frame_state::process` does with it.

The received bytes `p` lie in a buffer in which other bytes `q` follow them. The size checks compare
the size field with `sz - 6`, which underflows for a frame shorter than its header, and the size
of an announcement with the forty-eight bytes of its header by a subtraction that underflows too.

* `Decided`: what follows the received bytes makes no difference.
* `Contained`: the condition on the session and the received bytes for that.
* `decided_iff_contained`: it is enough, and with room for one more id in the tables it is needed.
-/

namespace Udap.Iwp

open ByteMem TransitMessage

/-! ### Reading in front of what follows -/

section Reads

variable {p : Bytes}

lemma slice_append_left (q : Bytes) {off len : ℕ} (h : off + len ≤ p.length) :
    slice (p ++ q) off len = slice p off len := by
  rw [slice_eq_take (by rw [List.length_append]; omega), slice_eq_take h,
    List.drop_append_of_le_length (by omega), List.take_append_of_le_length]
  rw [List.length_drop]
  omega

lemma getD_append_left (q : Bytes) {i : ℕ} (h : i < p.length) :
    (p ++ q).getD i 0 = p.getD i 0 := by
  rw [List.getD_eq_getElem?_getD, List.getD_eq_getElem?_getD, List.getElem?_append_left h]

lemma hdrMsgtype_append (q : Bytes) (h : 2 ≤ p.length) : hdrMsgtype (p ++ q) = hdrMsgtype p :=
  getD_append_left q (by omega)

lemma hdrSize_append (q : Bytes) (h : 4 ≤ p.length) : hdrSize (p ++ q) = hdrSize p := by
  rw [hdrSize, hdrSize, slice_append_left q (by omega)]

lemma hdrFlags_append (q : Bytes) (h : 6 ≤ p.length) : hdrFlags (p ++ q) = hdrFlags p :=
  getD_append_left q (by omega)

lemma hdrData_append (q : Bytes) {off len : ℕ} (h : 6 + off + len ≤ p.length) :
    hdrData (p ++ q) off len = hdrData p off len :=
  slice_append_left q (by rw [headerSize]; omega)

lemma ofFrame_append (q : Bytes) (h : 54 ≤ p.length) : Xmit.ofFrame (p ++ q) = Xmit.ofFrame p := by
  have hdata : hdrData (p ++ q) 0 48 = hdrData p 0 48 := hdrData_append q (by omega)
  rw [Xmit.ofFrame, Xmit.ofFrame]
  simp only [hdata]

lemma hdrSize_lt (buf : Bytes) : hdrSize buf < 65536 := by
  have h := leNat_lt (slice buf 2 2)
  rw [slice_length] at h
  exact h

end Reads

namespace Session

variable {σ : Type}

/-- What follows the received bytes makes no difference to what `process` does with them. -/
def Decided (env : LinkEnv σ) (now : UInt64) (s : Session σ) (p : Bytes) : Prop :=
  ∀ q q', s.process env now (p ++ q) p.length = s.process env now (p ++ q') p.length

/-- What decides over the frame lies in the received bytes. The header does, or only its flags do
not and the session is invalidated by the peer already; the last fragment of an announcement that
would be taken does; and without the whole header an ack or a fragment is refused for its size
whatever follows, or its size is right whatever follows and the table it is looked up in is
empty. -/
def Contained (s : Session σ) (p : Bytes) : Prop :=
  (6 ≤ p.length ∨ 2 ≤ p.length ∧ s.frame.rxflags &&& eSessionInvalidated ≠ 0) ∧
    match MsgType.ofByte (hdrMsgtype p) with
    | some .eXMIT => ∀ q, XmitFor s (p ++ q) p.length →
        54 + (Xmit.ofFrame (p ++ q)).lastfrag ≤ p.length
    | some .eACKS => 6 ≤ p.length ∨ (∀ q, hdrSize (p ++ q) < 12) ∨
        s.frame.tx = ∅ ∧ ∀ q, 12 ≤ hdrSize (p ++ q)
    | some .eFRAG => 6 ≤ p.length ∨ (∀ q, hdrSize (p ++ q) ≤ 9) ∨
        s.frame.rx = ∅ ∧ ∀ q, 9 < hdrSize (p ++ q)
    | _ => True

section Enough

variable {env : LinkEnv σ} {now : UInt64} {s : Session σ} {p : Bytes}

/-- The flags are among the received bytes, or they say nothing new. -/
lemma noteFlags_append (h : 6 ≤ p.length ∨ s.frame.rxflags &&& eSessionInvalidated ≠ 0)
    (q q' : Bytes) : s.noteFlags (p ++ q) = s.noteFlags (p ++ q') := by
  rcases h with h | h
  · rw [noteFlags, noteFlags, hdrFlags_append q h, hdrFlags_append q' h]
  · have hall : ∀ x : UInt8, x &&& eSessionInvalidated ≠ 0 → x ||| eSessionInvalidated = x := by
      rintro ⟨x⟩
      revert x
      decide
    have hor := hall s.frame.rxflags h
    have hsame : ∀ buf, s.noteFlags buf = s := by
      intro buf
      rw [noteFlags, flaggedRx, hor]
      split <;> rfl
    rw [hsame, hsame]

/-- The size check of a frame that is shorter than its header is passed by every size. -/
lemma hdrSize_le_of_short (buf : Bytes) {n : ℕ} (h : n < 6) : ¬ hdrSize buf > usub n 6 := by
  have := hdrSize_lt buf
  rw [usub]
  omega

/-- Whether an announcement with its header among the received bytes is taken does not depend on
what follows them. -/
lemma XmitFor.append {q q' : Bytes} {n : ℕ} (h : XmitFor s (p ++ q) n) (hlen : 54 ≤ p.length)
    (htype : MsgType.ofByte (hdrMsgtype (p ++ q')) = some .eXMIT) : XmitFor s (p ++ q') n := by
  obtain ⟨-, h₂, h₃, h₄, h₅⟩ := h
  rw [ofFrame_append q hlen] at h₃ h₄ h₅
  rw [hdrSize_append q (by omega)] at h₂ h₃
  rw [← ofFrame_append q' hlen] at h₃ h₄ h₅
  rw [← hdrSize_append q' (by omega)] at h₂ h₃
  exact ⟨htype, h₂, h₃, h₄, h₅⟩

lemma gotXmit_append {n : ℕ} (hn : n = p.length)
    (h : ∀ q, XmitFor s (p ++ q) n → 54 + (Xmit.ofFrame (p ++ q)).lastfrag ≤ n)
    (htype : ∀ q, MsgType.ofByte (hdrMsgtype (p ++ q)) = some .eXMIT) (q q' : Bytes) :
    s.gotXmit env now (p ++ q) (usub n 6) = s.gotXmit env now (p ++ q') (usub n 6) := by
  subst hn
  by_cases hlen : 54 ≤ p.length
  · -- the header of the announcement is the same, and so is its last fragment when it is taken
    have hiff : XmitFor s (p ++ q) p.length ↔ XmitFor s (p ++ q') p.length :=
      ⟨fun hx => hx.append hlen (htype q'), fun hx => hx.append hlen (htype q)⟩
    by_cases hx : XmitFor s (p ++ q) p.length
    · have hin := h q hx
      rw [ofFrame_append q hlen] at hin
      have hentry : xmitEntry (p ++ q) = xmitEntry (p ++ q') := by
        rw [xmitEntry, xmitEntry, ofFrame_append q hlen, ofFrame_append q' hlen,
          hdrData_append q (by omega), hdrData_append q' (by omega)]
      rw [gotXmit_xmitFor hx, gotXmit_xmitFor (hiff.mp hx), hentry, ofFrame_append q hlen,
        ofFrame_append q' hlen]
    · rw [gotXmit_of_not (htype q) hx, gotXmit_of_not (htype q') (mt hiff.mpr hx)]
  · have hnot : ∀ q, ¬ XmitFor s (p ++ q) p.length := fun q hx => by
      have := h q hx
      omega
    rw [gotXmit_of_not (htype q) (hnot q), gotXmit_of_not (htype q') (hnot q')]

/-- A handler that checks the size first looks at what follows only if it is large enough, and then
all of it was received. -/
lemma sizeChecked_append {β : Type} {F g : Bytes → β} {x y : β} (small : ℕ → Prop)
    [DecidablePred small]
    (hF : ∀ buf, F buf =
      if hdrSize buf > usub p.length 6 then x else if small (hdrSize buf) then y else g buf)
    (h : 6 ≤ p.length ∨ (∀ q, small (hdrSize (p ++ q))) ∨
      (∀ q, ¬ small (hdrSize (p ++ q))) ∧ ∀ q q', g (p ++ q) = g (p ++ q'))
    (hg : 6 ≤ p.length → ¬ hdrSize p > usub p.length 6 → ¬ small (hdrSize p) →
      ∀ q q', g (p ++ q) = g (p ++ q')) (q q' : Bytes) : F (p ++ q) = F (p ++ q') := by
  rw [hF, hF]
  by_cases h6 : 6 ≤ p.length
  · rw [hdrSize_append q (by omega), hdrSize_append q' (by omega)]
    split_ifs with hbig hsmall
    · rfl
    · rfl
    · exact hg h6 hbig hsmall q q'
  · have hbig : ∀ q, ¬ hdrSize (p ++ q) > usub p.length 6 := fun q =>
      hdrSize_le_of_short _ (by omega)
    rw [if_neg (hbig q), if_neg (hbig q')]
    rcases h.resolve_left h6 with hsmall | ⟨hlarge, hsame⟩
    · rw [if_pos (hsmall q), if_pos (hsmall q')]
    · rw [if_neg (hlarge q), if_neg (hlarge q')]
      exact hsame q q'

lemma gotAcks_append (hlen : p.length < 2 ^ 64)
    (h : 6 ≤ p.length ∨ (∀ q, hdrSize (p ++ q) < 12) ∨
      s.frame.tx = ∅ ∧ ∀ q, 12 ≤ hdrSize (p ++ q)) (q q' : Bytes) :
    s.gotAcks (p ++ q) (usub p.length 6) = s.gotAcks (p ++ q') (usub p.length 6) := by
  refine sizeChecked_append (F := fun buf => s.gotAcks buf (usub p.length 6)) (· < 12)
    (fun _ => rfl) (h.imp_right (Or.imp_right ?_)) ?_ q q'
  · rintro ⟨hnone, hsize⟩
    refine ⟨fun q => not_lt.mpr (hsize q), fun q q' => ?_⟩
    rw [hnone]
    rfl
  · intro h6 hbig hsmall q q'
    rw [usub_eq h6 hlen] at hbig
    rw [hdrData_append q (by omega), hdrData_append q' (by omega),
      hdrData_append q (by omega), hdrData_append q' (by omega)]

lemma gotFrag_append (hlen : p.length < 2 ^ 64)
    (h : 6 ≤ p.length ∨ (∀ q, hdrSize (p ++ q) ≤ 9) ∨
      s.frame.rx = ∅ ∧ ∀ q, 9 < hdrSize (p ++ q)) (q q' : Bytes) :
    s.gotFrag env now (p ++ q) (usub p.length 6) =
      s.gotFrag env now (p ++ q') (usub p.length 6) := by
  refine sizeChecked_append (F := fun buf => s.gotFrag env now buf (usub p.length 6)) (· ≤ 9)
    (fun _ => rfl) (h.imp_right (Or.imp_right ?_)) ?_ q q'
  · rintro ⟨hnone, hsize⟩
    refine ⟨fun q => not_le.mpr (hsize q), fun q q' => ?_⟩
    rw [hnone]
    rfl
  · intro h6 hbig hsmall q q'
    rw [usub_eq h6 hlen] at hbig
    rw [hdrData_append q (by omega), hdrData_append q' (by omega),
      hdrData_append q (by omega), hdrData_append q' (by omega),
      hdrSize_append q (by omega), hdrSize_append q' (by omega)]
    split
    · rfl
    · rename_i msg hmsg
      by_cases hsize : msg.msginfo.fragsize = hdrSize p - 9
      · rw [hdrData_append q (by omega), hdrData_append q' (by omega)]
      · rw [if_pos hsize, if_pos hsize]

/-- The condition is enough. -/
lemma decided_of_contained (hlen : p.length < 2 ^ 64) (h : Contained s p) :
    Decided env now s p := by
  intro q q'
  obtain ⟨hheader, hbody⟩ := h
  have h2 : 2 ≤ p.length := by omega
  have hflags : s.noteFlags (p ++ q) = s.noteFlags (p ++ q') :=
    noteFlags_append (hheader.imp id And.right) q q'
  rw [process, process, hflags, hdrMsgtype_append q h2, hdrMsgtype_append q' h2]
  cases htype : MsgType.ofByte (hdrMsgtype p) with
  | none => rfl
  | some t =>
    rw [htype] at hbody
    cases t with
    | eALIV => rfl
    | eXMIT =>
      refine gotXmit_append rfl (fun q'' hx => hbody q'' ?_) (fun q'' => ?_) q q'
      · exact xmitFor_noteFlags.mp hx
      · rw [hdrMsgtype_append q'' h2, htype]
    | eACKS =>
      refine gotAcks_append hlen ?_ q q'
      rw [noteFlags_tx]
      exact hbody
    | eFRAG =>
      refine gotFrag_append hlen ?_ q q'
      rw [noteFlags_rx]
      exact hbody

end Enough

/-! ### Frames that are told apart -/

section Needed

variable {env : LinkEnv σ} {now : UInt64} {s : Session σ} {buf : Bytes} {sz : ℕ}

/-- An announcement that is taken is not refused. -/
lemma gotXmit_ne (h : XmitFor s buf sz) : s.gotXmit env now buf (usub sz 6) ≠ .ok (s, false) := by
  rw [gotXmit_xmitFor h]
  simp only
  split_ifs with hzero
  · have hn : (xmitEntry buf).msginfo.numfrags = 0 := hzero
    have hfull : Full (xmitEntry buf).msginfo.numfrags (xmitEntry buf).status := by
      rw [hn]
      exact fun i hi => absurd hi (by omega)
    obtain ⟨m, hm⟩ := reassemble_ok (by omega) hfull
    rw [inboundFrameComplete_eq (AList.lookup_insert _) hm]
    split_ifs with hhash
    · intro heq
      have hhanded := congrArg (fun r : Session σ × Bool => r.1.handed) (Except.ok.inj heq)
      simp at hhanded
    · intro heq
      have hrx := congrArg (fun r : Session σ × Bool => r.1.frame.rx) (Except.ok.inj heq)
      have hmem : (Xmit.ofFrame buf).msgid ∈
          s.frame.rx.insert (Xmit.ofFrame buf).msgid (xmitEntry buf) := by simp
      exact h.fresh (hrx ▸ hmem)
  · intro heq
    have := congrArg Prod.snd (Except.ok.inj heq)
    cases this

/-- A message without full fragments is its last fragment. -/
lemma reassemble_xmitEntry (h : (Xmit.ofFrame buf).numfrags = 0) :
    (xmitEntry buf).reassemble = .ok (some (hdrData buf 48 (Xmit.ofFrame buf).lastfrag)) := by
  have hn : (xmitEntry buf).msginfo.numfrags = 0 := h
  have htotal : (xmitEntry buf).msginfo.totalsize = (Xmit.ofFrame buf).lastfrag := by
    show (Xmit.ofFrame buf).fragsize * (Xmit.ofFrame buf).numfrags + _ = _
    rw [h, Nat.mul_zero, Nat.zero_add]
    rfl
  rw [reassemble, hn, htotal]
  simp [copyFrags, bind, Except.bind, pure, Except.pure, memcpy, xmitEntry, putLastfrag, hdrData]

/-- Announcements with the same header and different last fragments are told apart. -/
lemma gotXmit_lastfrag {buf' : Bytes} (h : XmitFor s buf sz) (h' : XmitFor s buf' sz)
    (hx : Xmit.ofFrame buf' = Xmit.ofFrame buf)
    (heq : s.gotXmit env now buf (usub sz 6) = s.gotXmit env now buf' (usub sz 6)) :
    hdrData buf 48 (Xmit.ofFrame buf).lastfrag = hdrData buf' 48 (Xmit.ofFrame buf).lastfrag := by
  rw [gotXmit_xmitFor h, gotXmit_xmitFor h', hx] at heq
  simp only at heq
  -- the entry and what was handed over tell the last fragment
  have hlast : s.frame.rx.insert (Xmit.ofFrame buf).msgid (xmitEntry buf) =
      s.frame.rx.insert (Xmit.ofFrame buf).msgid (xmitEntry buf') →
      hdrData buf 48 (Xmit.ofFrame buf).lastfrag = hdrData buf' 48 (Xmit.ofFrame buf).lastfrag := by
    intro hins
    have hlook := congrArg (AList.lookup (Xmit.ofFrame buf).msgid) hins
    rw [AList.lookup_insert, AList.lookup_insert] at hlook
    have hsame := congrArg TransitMessage.lastfrag (Option.some.inj hlook)
    simp only [xmitEntry, putLastfrag, hx] at hsame
    exact hsame
  split_ifs at heq with hzero
  -- a message that is complete is handed over, unless its hash is wrong: then it stays
  · have hm := reassemble_xmitEntry hzero
    have hzero' : (Xmit.ofFrame buf').numfrags = 0 := by rw [hx]; exact hzero
    have hm' := reassemble_xmitEntry hzero'
    rw [hx] at hm'
    have hhash : (xmitEntry buf').msginfo.hash = (xmitEntry buf).msginfo.hash := by
      show (Xmit.ofFrame buf').hash = (Xmit.ofFrame buf).hash
      rw [hx]
    rw [inboundFrameComplete_eq (AList.lookup_insert _) hm,
      inboundFrameComplete_eq (AList.lookup_insert _) hm', hhash] at heq
    split_ifs at heq
    · have hhanded := congrArg (fun r : Session σ × Bool => r.1.handed) (Except.ok.inj heq)
      simp at hhanded
      exact hhanded
    · have hhanded := congrArg (fun r : Session σ × Bool => r.1.handed) (Except.ok.inj heq)
      simp at hhanded
    · have hhanded := congrArg (fun r : Session σ × Bool => r.1.handed) (Except.ok.inj heq)
      simp at hhanded
    · exact hlast (congrArg (fun r : Session σ × Bool => r.1.frame.rx) (Except.ok.inj heq))
  · exact hlast (congrArg (fun r : Session σ × Bool => r.1.frame.rx) (Except.ok.inj heq))

/-- An ack or a fragment for an unknown message, and an announcement without its flag, change
nothing but the flags. -/
lemma process_quiet (env : LinkEnv σ) (now : UInt64) (sz : ℕ)
    (hx : MsgType.ofByte (hdrMsgtype buf) = some .eXMIT → (Xmit.ofFrame buf).flags &&& 0x01 = 0)
    (ha : MsgType.ofByte (hdrMsgtype buf) = some .eACKS → bodyId buf ∉ s.frame.tx)
    (hf : MsgType.ofByte (hdrMsgtype buf) = some .eFRAG → bodyId buf ∉ s.frame.rx) :
    ∃ r, s.process env now buf sz = .ok r ∧
      r.1.frame.rxflags = (s.noteFlags buf).frame.rxflags := by
  rw [process]
  split
  · refine ⟨_, rfl, ?_⟩
    rw [gotAliv]
    split_ifs <;> rfl
  · rename_i htype
    exact ⟨_, gotXmit_of_not htype fun h => h.flags (hx htype), rfl⟩
  · rename_i htype
    rw [gotAcks, noteFlags_tx]
    split_ifs
    · exact ⟨_, rfl, rfl⟩
    · exact ⟨_, rfl, rfl⟩
    · have hnone : s.frame.tx.lookup (UInt64.ofNat (leNat (hdrData buf 0 8))) = none :=
        AList.lookup_eq_none.mpr (ha htype)
      rw [hnone]
      exact ⟨_, rfl, rfl⟩
  · rename_i htype
    rw [gotFrag, noteFlags_rx]
    split_ifs
    · exact ⟨_, rfl, rfl⟩
    · exact ⟨_, rfl, rfl⟩
    · have hnone : s.frame.rx.lookup (UInt64.ofNat (leNat (hdrData buf 0 8))) = none :=
        AList.lookup_eq_none.mpr (hf htype)
      rw [hnone]
      exact ⟨_, rfl, rfl⟩
  · exact ⟨_, rfl, rfl⟩

lemma flags_ofFrame (buf : Bytes) : (Xmit.ofFrame buf).flags = buf.getD 53 0 :=
  getD_slice buf 6 (show 47 < 48 by omega)

end Needed

/-! ### Frames shorter than their header -/

/-- A frame with a header of six bytes, an id behind it and then `tail`. -/
def shortFrame (h : Bytes) (id : UInt64) (tail : Bytes) : Bytes := h ++ (leBytes 8 id.toNat ++ tail)

section Short

variable {env : LinkEnv σ} {now : UInt64} {s : Session σ} {p h : Bytes} {id : UInt64} {tail : Bytes}
  {sz : ℕ}

lemma Decided.process_eq (hd : Decided env now s p) {buf buf' : Bytes} (h : p <+: buf)
    (h' : p <+: buf') : s.process env now buf p.length = s.process env now buf' p.length := by
  obtain ⟨q, rfl⟩ := h
  obtain ⟨q', rfl⟩ := h'
  exact hd q q'

lemma prefix_shortFrame (hp : p <+: h) : p <+: shortFrame h id tail :=
  hp.trans (List.prefix_append _ _)

lemma hdrMsgtype_shortFrame (hh : h.length = 6) :
    hdrMsgtype (shortFrame h id tail) = hdrMsgtype h := hdrMsgtype_append _ (by omega)

lemma hdrSize_shortFrame (hh : h.length = 6) : hdrSize (shortFrame h id tail) = hdrSize h :=
  hdrSize_append _ (by omega)

lemma hdrFlags_shortFrame (hh : h.length = 6) : hdrFlags (shortFrame h id tail) = hdrFlags h :=
  hdrFlags_append _ (by omega)

lemma hdrData_shortFrame (hh : h.length = 6) :
    hdrData (shortFrame h id tail) 0 8 = leBytes 8 id.toNat :=
  slice_mid hh (leBytes_length _ _)

lemma bodyId_shortFrame (hh : h.length = 6) : bodyId (shortFrame h id tail) = id := by
  have hlt : id.toNat < 256 ^ 8 := id.toNat_lt
  rw [bodyId, hdrData_shortFrame hh, leNat_leBytes_of_lt hlt]
  exact UInt64.ofNat_toNat

lemma lookup_shortFrame (hh : h.length = 6) {table : AList fun _ : UInt64 => TransitMessage}
    (hid : id ∉ table) :
    table.lookup (UInt64.ofNat (leNat (hdrData (shortFrame h id tail) 0 8))) = none := by
  rw [AList.lookup_eq_none, ← bodyId, bodyId_shortFrame hh]
  exact hid

/-- What stands behind the id. -/
lemma hdrData_shortFrame_tail (hh : h.length = 6) {n : ℕ} (hlen : tail.length = n) :
    hdrData (shortFrame h id tail) 8 n = tail := by
  rw [hdrData, shortFrame, ← List.append_assoc]
  exact slice_last (by simp [hh, headerSize]) hlen

/-- The first six bytes of a buffer, whatever was behind them. -/
lemma slice_header (buf : Bytes) :
    hdrSize (slice buf 0 6) = hdrSize buf ∧ hdrMsgtype (slice buf 0 6) = hdrMsgtype buf := by
  refine ⟨?_, ?_⟩
  · rw [hdrSize, slice_slice buf 0 (by omega)]
    rfl
  · rw [hdrMsgtype, getD_slice buf 0 (by omega)]
    rfl

/-- Without the flags among the received bytes the session must be invalidated. -/
lemma rxflags_of_decided (hrx : ∃ id, id ∉ s.frame.rx) (htx : ∃ id, id ∉ s.frame.tx)
    (hd : Decided env now s p) (hlen : p.length < 6) :
    s.frame.rxflags &&& eSessionInvalidated ≠ 0 := by
  intro hno
  -- the two frames differ in the flags
  let header : UInt8 → Bytes := fun f => slice p 0 5 ++ [f]
  have hhead : ∀ f, (header f).length = 6 := fun f => by simp [header]
  have hstart : ∀ f, p <+: header f := by
    intro f
    have hp := prefix_slice p [] (show p.length ≤ 5 by omega)
    rw [List.append_nil] at hp
    exact hp.trans (List.prefix_append _ _)
  have htype : ∀ f, hdrMsgtype (header f) = hdrMsgtype (slice p 0 5) := fun f =>
    hdrMsgtype_append _ (by simp)
  have hflags : ∀ f, hdrFlags (header f) = f := by
    intro f
    rw [hdrFlags, List.getD_eq_getElem?_getD, List.getElem?_append_right (by simp)]
    simp
  obtain ⟨id, hid, hid'⟩ : ∃ id,
      (MsgType.ofByte (hdrMsgtype (slice p 0 5)) = some .eACKS → id ∉ s.frame.tx) ∧
      (MsgType.ofByte (hdrMsgtype (slice p 0 5)) = some .eFRAG → id ∉ s.frame.rx) := by
    by_cases hacks : MsgType.ofByte (hdrMsgtype (slice p 0 5)) = some .eACKS
    · obtain ⟨id, hid⟩ := htx
      refine ⟨id, fun _ => hid, fun hfrag => ?_⟩
      rw [hacks] at hfrag
      cases hfrag
    · obtain ⟨id, hid⟩ := hrx
      exact ⟨id, fun h => absurd h hacks, fun _ => hid⟩
  -- a frame for an unknown message changes the flags only
  have hquiet : ∀ f, ∃ r, s.process env now (shortFrame (header f) id []) p.length = .ok r ∧
      r.1.frame.rxflags = (s.noteFlags (shortFrame (header f) id [])).frame.rxflags := by
    intro f
    refine process_quiet env now p.length (fun _ => ?_) ?_ ?_
    · rw [flags_ofFrame, List.getD_eq_getElem?_getD, List.getElem?_eq_none]
      · rfl
      · simp [shortFrame, header]
    · rw [hdrMsgtype_shortFrame (hhead f), htype, bodyId_shortFrame (hhead f)]
      exact hid
    · rw [hdrMsgtype_shortFrame (hhead f), htype, bodyId_shortFrame (hhead f)]
      exact hid'
  obtain ⟨r, hr, hrflags⟩ := hquiet 0
  obtain ⟨r', hr', hrflags'⟩ := hquiet 1
  have heq : r = r' := by
    have hsame : s.process env now (shortFrame (header 0) id []) p.length =
        s.process env now (shortFrame (header 1) id []) p.length :=
      hd.process_eq (prefix_shortFrame (hstart 0)) (prefix_shortFrame (hstart 1))
    rw [hr, hr'] at hsame
    exact Except.ok.inj hsame
  rw [heq, hrflags', noteFlags, noteFlags, hdrFlags_shortFrame (hhead 0),
    hdrFlags_shortFrame (hhead 1), hflags, hflags, if_neg (by decide),
    if_pos (by decide)] at hrflags
  have hall : ∀ x : UInt8, x &&& eSessionInvalidated = 0 → x ||| eSessionInvalidated ≠ x := by
    rintro ⟨x⟩
    revert x
    decide
  exact hall _ hno hrflags

/-- The type of the frame is among the received bytes. -/
lemma two_le_of_decided (hd : Decided env now s p) (hp : p ≠ []) : 2 ≤ p.length := by
  by_contra hlen
  have hlen : p.length = 1 := by
    have := List.length_pos_of_ne_nil hp
    omega
  have hhead : ∀ t : UInt8, p <+: p ++ [t, 0, 0, 0, 0] := fun t => List.prefix_append _ _
  have htype : ∀ t : UInt8, hdrMsgtype (p ++ [t, 0, 0, 0, 0]) = t := by
    intro t
    rw [hdrMsgtype, List.getD_eq_getElem?_getD, List.getElem?_append_right (by omega), hlen]
    rfl
  -- as a keep alive it is taken, and as a frame of unknown type it is refused
  have hsame := hd.process_eq (hhead 0) (hhead 4)
  rw [process, process, htype, htype] at hsame
  have hverdict := congrArg (fun r : Except Fault (Session σ × Bool) => r.map Prod.snd) hsame
  cases hverdict

lemma noteFlags_of_invalidated (h : s.frame.rxflags &&& eSessionInvalidated ≠ 0) (buf : Bytes) :
    s.noteFlags buf = s := by
  have hall : ∀ x : UInt8, x &&& eSessionInvalidated ≠ 0 → x ||| eSessionInvalidated = x := by
    rintro ⟨x⟩
    revert x
    decide
  rw [noteFlags, flaggedRx, hall _ h]
  split <;> rfl

/-- The announcements that would be taken lie in the received bytes. -/
lemma xmit_of_decided (hd : Decided env now s p) (h2 : 2 ≤ p.length)
    (hflags : 6 ≤ p.length ∨ s.frame.rxflags &&& eSessionInvalidated ≠ 0)
    (htype : MsgType.ofByte (hdrMsgtype p) = some .eXMIT) (q : Bytes)
    (hx : XmitFor s (p ++ q) p.length) : 54 + (Xmit.ofFrame (p ++ q)).lastfrag ≤ p.length := by
  by_contra hout
  have htype' : ∀ q, MsgType.ofByte (hdrMsgtype (p ++ q)) = some .eXMIT := fun q => by
    rw [hdrMsgtype_append q h2, htype]
  have hprocess : ∀ q, s.process env now (p ++ q) p.length =
      (s.noteFlags (p ++ q)).gotXmit env now (p ++ q) (usub p.length 6) := fun q => by
    rw [process, htype' q]
  by_cases hlen : 54 ≤ p.length
  · -- the last fragment can be continued in two ways
    have hx' : ∀ b : UInt8, XmitFor (s.noteFlags (p ++ [0])) (p ++ [b]) p.length := by
      intro b
      rw [xmitFor_noteFlags]
      obtain ⟨-, h₂, h₃, h₄, h₅⟩ := hx
      rw [ofFrame_append q hlen] at h₃ h₄ h₅
      rw [hdrSize_append q (by omega)] at h₂ h₃
      rw [← ofFrame_append [b] hlen] at h₃ h₄ h₅
      rw [← hdrSize_append [b] (by omega)] at h₂ h₃
      exact ⟨htype' [b], h₂, h₃, h₄, h₅⟩
    have heq := hd [0] [1]
    rw [hprocess, hprocess, noteFlags_append hflags [1] [0]] at heq
    have hlast := gotXmit_lastfrag (hx' 0) (hx' 1)
      (by rw [ofFrame_append _ hlen, ofFrame_append _ hlen]) heq
    rw [ofFrame_append q hlen] at hout
    rw [ofFrame_append [0] hlen] at hlast
    have hbyte : ∀ b : UInt8, (hdrData (p ++ [b]) 48 (Xmit.ofFrame p).lastfrag).getD
        (p.length - 54) 0 = b := by
      intro b
      rw [hdrData, getD_slice _ _ (by omega), headerSize,
        show 6 + 48 + (p.length - 54) = p.length by omega]
      simp [List.getD_eq_getElem?_getD]
    have hzero := hbyte 0
    rw [hlast, hbyte 1] at hzero
    cases hzero
  · -- the flag of the announcement can be taken away
    have hlong : 53 < (p ++ q).length := by
      by_contra hshort
      have hf := hx.flags
      rw [flags_ofFrame, List.getD_eq_getElem?_getD, List.getElem?_eq_none (by omega)] at hf
      exact hf rfl
    have hcut : p ++ q.take (53 - p.length) = (p ++ q).take 53 := by
      rw [List.take_append, List.take_of_length_le (show p.length ≤ 53 by omega)]
    have hnot : ¬ XmitFor (s.noteFlags (p ++ q)) (p ++ q.take (53 - p.length)) p.length := by
      intro h
      have hf := h.flags
      rw [flags_ofFrame, hcut, List.getD_eq_getElem?_getD, List.getElem?_eq_none (by simp)] at hf
      exact hf rfl
    have heq := hd q (q.take (53 - p.length))
    rw [hprocess, hprocess, noteFlags_append hflags (q.take (53 - p.length)) q,
      gotXmit_of_not (htype' _) hnot] at heq
    exact gotXmit_ne (xmitFor_noteFlags.mpr hx) heq

/-- Every way to go on after the received bytes gives a header. -/
lemma header_of_short (h2 : 2 ≤ p.length) (hlen : p.length < 6) (q : Bytes) :
    p <+: slice (p ++ q) 0 6 ∧ hdrSize (slice (p ++ q) 0 6) = hdrSize (p ++ q) ∧
      hdrMsgtype (slice (p ++ q) 0 6) = hdrMsgtype p := by
  refine ⟨prefix_slice p q (by omega), (slice_header _).1, ?_⟩
  rw [(slice_header _).2, hdrMsgtype_append q h2]

lemma exists_mem_of_ne_empty {β : UInt64 → Type} {l : AList β} (h : l ≠ ∅) : ∃ id, id ∈ l := by
  by_contra hnone
  have hnil : l.entries = [] := List.eq_nil_iff_forall_not_mem.mpr fun e he =>
    hnone ⟨e.1, List.mem_map_of_mem he⟩
  exact h (AList.ext hnil)

/-- An ack of everything is not ignored. -/
lemma gotAcks_all_ne (hh : h.length = 6) (hsize : ¬ hdrSize h > sz) (hbig : ¬ hdrSize h < 12)
    (hid : id ∈ s.frame.tx) :
    s.gotAcks (shortFrame h id (leBytes 4 (2 ^ 32 - 1))) sz ≠ .ok (s, true) := by
  obtain ⟨t, ht⟩ := Option.isSome_iff_exists.mp (AList.lookup_isSome.mpr hid)
  have hlook : s.frame.tx.lookup (UInt64.ofNat (leNat (hdrData
      (shortFrame h id (leBytes 4 (2 ^ 32 - 1))) 0 8))) = some t := by
    rw [← bodyId, bodyId_shortFrame hh, ht]
  have hfull : ∀ n ≤ 32, Full n (t.ack (BitVec.ofNat 32 (2 ^ 32 - 1))).status := by
    intro n hn i hi
    have hall : (BitVec.ofNat 32 (2 ^ 32 - 1)).getLsbD i = true := by
      have h32 : ∀ i < 32, (BitVec.ofNat 32 (2 ^ 32 - 1)).getLsbD i = true := by decide
      exact h32 i (by omega)
    rw [ack_status, BitVec.getLsbD_or, hall, Bool.or_true]
  rw [gotAcks, hdrSize_shortFrame hh, if_neg hsize, if_neg hbig, hlook]
  simp only
  rw [hdrData_shortFrame_tail hh (leBytes_length _ _), leNat_leBytes_of_lt (by decide)]
  rcases Nat.lt_or_ge 32 (t.ack (BitVec.ofNat 32 (2 ^ 32 - 1))).msginfo.numfrags with hn | hn
  · rw [completed_eq_of_gt hn, if_pos (hfull 32 le_rfl)]
    exact fun heq => by cases heq
  · rw [completed_eq hn, decide_eq_true (hfull _ hn)]
    intro heq
    have htx := congrArg (fun r : Session σ × Bool => r.1.frame.tx) (Except.ok.inj heq)
    have hgone : id ∉ s.frame.tx.erase id := by simp
    have hsame : s.frame.tx.erase (UInt64.ofNat (leNat (hdrData
      (shortFrame h id (leBytes 4 (2 ^ 32 - 1))) 0 8))) = s.frame.tx := htx
    rw [← bodyId, bodyId_shortFrame hh] at hsame
    rw [hsame] at hgone
    exact hgone hid

/-- A fragment past the thirty-second for a known message is not ignored. -/
lemma gotFrag_late_ne (hh : h.length = 6) (hsize : ¬ hdrSize h > sz) (hbig : ¬ hdrSize h ≤ 9)
    (hid : id ∈ s.frame.rx) : s.gotFrag env now (shortFrame h id [255]) sz ≠ .ok (s, true) := by
  obtain ⟨t, ht⟩ := Option.isSome_iff_exists.mp (AList.lookup_isSome.mpr hid)
  have hlook : s.frame.rx.lookup (UInt64.ofNat (leNat (hdrData (shortFrame h id [255]) 0 8))) =
      some t := by
    rw [← bodyId, bodyId_shortFrame hh, ht]
  have hno : leNat (hdrData (shortFrame h id [255]) 8 1) = 255 := by
    rw [hdrData_shortFrame_tail hh (show ([255] : Bytes).length = 1 from rfl)]
    rfl
  rw [gotFrag, hdrSize_shortFrame hh, if_neg hsize, if_neg hbig, hlook]
  simp only
  rw [hno]
  split_ifs with hfrag
  · intro heq
    have := congrArg Prod.snd (Except.ok.inj heq)
    cases this
  · rw [putFrag]
    split
    · intro heq
      have := congrArg Prod.snd (Except.ok.inj heq)
      cases this
    · intro heq
      cases heq

/-- An ack for an unknown message is ignored, or refused for its size. -/
lemma gotAcks_unknown (hh : h.length = 6) (hsize : ¬ hdrSize h > sz) (hid : id ∉ s.frame.tx) :
    s.gotAcks (shortFrame h id []) sz = .ok (s, !decide (hdrSize h < 12)) := by
  rw [gotAcks, hdrSize_shortFrame hh, if_neg hsize, lookup_shortFrame hh hid]
  split_ifs with hsmall
  · rw [decide_eq_true hsmall, Bool.not_true]
  · rw [decide_eq_false hsmall, Bool.not_false]

/-- So is a fragment of an unknown message. -/
lemma gotFrag_unknown (hh : h.length = 6) (hsize : ¬ hdrSize h > sz) (hid : id ∉ s.frame.rx) :
    s.gotFrag env now (shortFrame h id []) sz = .ok (s, !decide (hdrSize h ≤ 9)) := by
  rw [gotFrag, hdrSize_shortFrame hh, if_neg hsize, lookup_shortFrame hh hid]
  split_ifs with hsmall
  · rw [decide_eq_true hsmall, Bool.not_true]
  · rw [decide_eq_false hsmall, Bool.not_false]

/-- Without the whole header a frame is refused for its size whatever follows, or it looks into an
empty table whatever follows. -/
lemma small_or_empty_of_decided (small : ℕ → Prop) [DecidablePred small]
    {β : UInt64 → Type} {table : AList β} {handle : Bytes → Except Fault (Session σ × Bool)}
    {tail : Bytes}
    (hd : Decided env now s p) (h2 : 2 ≤ p.length) (hlen : p.length < 6)
    (hprocess : ∀ buf, hdrMsgtype buf = hdrMsgtype p →
      s.process env now buf p.length = handle buf)
    (hroom : ∃ id, id ∉ table)
    (hunknown : ∀ h id, h.length = 6 → id ∉ table →
      handle (shortFrame h id []) = .ok (s, !decide (small (hdrSize h))))
    (hknown : ∀ h id, h.length = 6 → id ∈ table → ¬ small (hdrSize h) →
      handle (shortFrame h id tail) ≠ .ok (s, true)) :
    (∀ q, small (hdrSize (p ++ q))) ∨ table = ∅ ∧ ∀ q, ¬ small (hdrSize (p ++ q)) := by
  obtain ⟨id, hid⟩ := hroom
  have hheader : ∀ q, (slice (p ++ q) 0 6).length = 6 := fun q => slice_length _ _ _
  have hhandle : ∀ q id tail, s.process env now (shortFrame (slice (p ++ q) 0 6) id tail) p.length =
      handle (shortFrame (slice (p ++ q) 0 6) id tail) := fun q id tail =>
    hprocess _ ((hdrMsgtype_shortFrame (hheader q)).trans (header_of_short h2 hlen q).2.2)
  have hignored : ∀ q, s.process env now (shortFrame (slice (p ++ q) 0 6) id []) p.length =
      .ok (s, !decide (small (hdrSize (p ++ q)))) := by
    intro q
    rw [hhandle, hunknown _ id (hheader q) hid]
    simp only [(header_of_short h2 hlen q).2.1]
  have hshort : ∀ q id tail, p <+: shortFrame (slice (p ++ q) 0 6) id tail := fun q id tail =>
    prefix_shortFrame (header_of_short h2 hlen q).1
  by_contra hcon
  rw [not_or, not_and_or, not_forall, not_forall] at hcon
  obtain ⟨⟨q, hq⟩, hne | ⟨q', hq'⟩⟩ := hcon
  · -- a frame for a message of the table against one for another message
    obtain ⟨id', hid'⟩ := exists_mem_of_ne_empty hne
    have heq := hd.process_eq (hshort q id' tail) (hshort q id [])
    rw [hhandle, hignored, decide_eq_false hq] at heq
    refine hknown _ id' (hheader q) hid' ?_ heq
    rwa [(header_of_short h2 hlen q).2.1]
  · -- a size that is large enough against one that is not
    have heq := hd.process_eq (hshort q id []) (hshort q' id [])
    rw [hignored, hignored, decide_eq_false hq, decide_eq_true (not_not.mp hq')] at heq
    have hverdict := congrArg Prod.snd (Except.ok.inj heq)
    cases hverdict

/-- Without the whole header an ack is refused for its size, or it finds an empty table. -/
lemma acks_of_decided (htx : ∃ id, id ∉ s.frame.tx) (hd : Decided env now s p) (h2 : 2 ≤ p.length)
    (hlen : p.length < 6) (hflags : s.frame.rxflags &&& eSessionInvalidated ≠ 0)
    (htype : MsgType.ofByte (hdrMsgtype p) = some .eACKS) :
    (∀ q, hdrSize (p ++ q) < 12) ∨ s.frame.tx = ∅ ∧ ∀ q, 12 ≤ hdrSize (p ++ q) := by
  have hprocess : ∀ buf, hdrMsgtype buf = hdrMsgtype p →
      s.process env now buf p.length = s.gotAcks buf (usub p.length 6) := by
    intro buf hbuf
    rw [process, noteFlags_of_invalidated hflags, hbuf, htype]
  have hor := small_or_empty_of_decided (· < 12) hd h2 hlen hprocess htx
    (fun h id hh hid => gotAcks_unknown hh (hdrSize_le_of_short h hlen) hid)
    fun h id hh hid hsmall => gotAcks_all_ne hh (hdrSize_le_of_short h hlen) hsmall hid
  exact hor.imp id (And.imp id fun hall q => Nat.le_of_not_lt (hall q))

/-- Without the whole header a fragment is refused for its size, or it finds an empty table. -/
lemma frag_of_decided (hrx : ∃ id, id ∉ s.frame.rx) (hd : Decided env now s p) (h2 : 2 ≤ p.length)
    (hlen : p.length < 6) (hflags : s.frame.rxflags &&& eSessionInvalidated ≠ 0)
    (htype : MsgType.ofByte (hdrMsgtype p) = some .eFRAG) :
    (∀ q, hdrSize (p ++ q) ≤ 9) ∨ s.frame.rx = ∅ ∧ ∀ q, 9 < hdrSize (p ++ q) := by
  have hprocess : ∀ buf, hdrMsgtype buf = hdrMsgtype p →
      s.process env now buf p.length = s.gotFrag env now buf (usub p.length 6) := by
    intro buf hbuf
    rw [process, noteFlags_of_invalidated hflags, hbuf, htype]
  have hor := small_or_empty_of_decided (· ≤ 9) hd h2 hlen hprocess hrx
    (fun h id hh hid => gotFrag_unknown hh (hdrSize_le_of_short h hlen) hid)
    fun h id hh hid hsmall => gotFrag_late_ne hh (hdrSize_le_of_short h hlen) hsmall hid
  exact hor.imp id (And.imp id fun hall q => Nat.lt_of_not_le (hall q))

/-- The condition is needed, as long as there is an id that neither table holds. -/
lemma contained_of_decided (hrx : ∃ id, id ∉ s.frame.rx) (htx : ∃ id, id ∉ s.frame.tx)
    (hp : p ≠ []) (hd : Decided env now s p) : Contained s p := by
  have h2 := two_le_of_decided hd hp
  have hflags : 6 ≤ p.length ∨ s.frame.rxflags &&& eSessionInvalidated ≠ 0 := by
    rcases Nat.lt_or_ge p.length 6 with hlen | hlen
    · exact .inr (rxflags_of_decided hrx htx hd hlen)
    · exact .inl hlen
  refine ⟨hflags.imp id fun h => ⟨h2, h⟩, ?_⟩
  cases htype : MsgType.ofByte (hdrMsgtype p) with
  | none => trivial
  | some t =>
    cases t with
    | eALIV => trivial
    | eXMIT => exact xmit_of_decided hd h2 hflags htype
    | eACKS =>
      rcases Nat.lt_or_ge p.length 6 with hlen | hlen
      · exact .inr (acks_of_decided htx hd h2 hlen (rxflags_of_decided hrx htx hd hlen) htype)
      · exact .inl hlen
    | eFRAG =>
      rcases Nat.lt_or_ge p.length 6 with hlen | hlen
      · exact .inr (frag_of_decided hrx hd h2 hlen (rxflags_of_decided hrx htx hd hlen) htype)
      · exact .inl hlen

/-- A frame is decided by its received bytes when what decides over it lies in them, and only
then as long as the tables do not hold every id. -/
theorem decided_iff_contained (env : LinkEnv σ) (now : UInt64) (s : Session σ) (p : Bytes)
    (hp : p ≠ []) (hlen : p.length < 2 ^ 64) :
    (Contained s p → Decided env now s p) ∧
      ((∃ id, id ∉ s.frame.rx) → (∃ id, id ∉ s.frame.tx) → Decided env now s p → Contained s p) :=
  ⟨decided_of_contained hlen, fun hrx htx hd => contained_of_decided hrx htx hp hd⟩

end Short

/-- The announcement of a message with a last fragment of one byte, and the fragment. -/
def wholeXmit : Bytes :=
  initSendbuf .eXMIT 49 0 ((Xmit.setInfo (List.Vector.replicate 32 0) 1 1 1 1).buffer.1 ++ [7])

theorem decided_iff_contained_wholeXmit :
    Decided (LinkEnv.discarding (List.Vector.replicate 32 0)) 0 quietSession wholeXmit ∧
      Contained quietSession wholeXmit := by
  obtain ⟨henough, hneeded⟩ := decided_iff_contained
    (LinkEnv.discarding (List.Vector.replicate 32 0)) 0 quietSession wholeXmit (by decide)
    (by decide)
  have hcontained : Contained quietSession wholeXmit := by
    have htype : MsgType.ofByte (hdrMsgtype wholeXmit) = some .eXMIT := by decide
    refine ⟨.inl (by decide), ?_⟩
    rw [htype]
    intro q _
    rw [ofFrame_append q (by decide)]
    decide
  have hdecided := henough hcontained
  exact ⟨hdecided, hneeded ⟨0, by decide⟩ ⟨0, by decide⟩ hdecided⟩

/-- The announcement of a message with a last fragment of one byte, with the size field zero and
cut off in front of the fragment. -/
def cutXmit : Bytes :=
  initSendbuf .eXMIT 0 0 (Xmit.setInfo (List.Vector.replicate 32 0) 1 1 1 1).buffer.1

theorem cut_xmit_reads_on : ¬ ∀ (env : LinkEnv Unit) (now : UInt64) (s : Session Unit) (sz : ℕ)
    (buf buf' : Bytes), 1 ≤ sz → sz ≤ buf.length → sz ≤ buf'.length → buf.take sz = buf'.take sz →
    s.process env now buf sz = s.process env now buf' sz := by
  intro h
  have hd : Decided (LinkEnv.discarding (List.Vector.replicate 32 0)) 0 quietSession cutXmit := by
    intro q q'
    refine h _ _ _ _ _ _ (by decide) (by simp) (by simp) ?_
    rw [List.take_left, List.take_left]
  have hx : XmitFor quietSession (cutXmit ++ []) cutXmit.length :=
    ⟨by decide, by decide, by decide, by decide, by decide⟩
  have hin := xmit_of_decided hd (by decide) (.inl (by decide)) (by decide) [] hx
  revert hin
  decide

end Session

end Udap.Iwp
