import Udap.Iwp.Datagram
import Udap.Iwp.FrameBytes

/-!
The frames a session sends: their sizes, and what padding and encryption do to them.

* `putMessage_sizes`: how `put_message` cuts a message that the callers of `sendto` can make, with
  `cutFrags_enough`, that its loop ends.
* `Built`: the frames that `generate_xmit`, `retransmit_frags`, `push_ackfor` and `send_keepalive`
  make of such messages.
* `outbound_sizes`: no size of such a frame overflows, and it fits the buffer of `alloc_frame`.
* `decrypt_encrypted`: the other end decrypts the frame and its padding.
* `process_append_padding`: `frame_state::process` does not see the padding.
-/

namespace Udap.Iwp

open ByteMem TransitMessage Chunk

/-! ### Cutting a message -/

/-- The loop of `put_message` is over as soon as no full fragment is left, whatever the bound on
its rounds. -/
lemma cutFrags_enough {k : ℕ} (hk : 0 < k) {fuel : ℕ} {rest : Bytes} (fragid : ℕ)
    (frags : AList fun _ : ℕ => Bytes) (h : numFull k rest.length ≤ fuel) :
    cutFrags k fuel rest fragid frags =
      cutFrags k (numFull k rest.length) rest fragid frags := by
  induction fuel generalizing rest fragid frags with
  | zero => rw [Nat.le_zero.mp h]
  | succ fuel ih =>
      by_cases hlen : rest.length > k
      · have hs : numFull k rest.length = numFull k (rest.drop k).length + 1 := by
          rw [List.length_drop, numFull_eq_succ hk hlen]
        rw [hs, cutFrags, if_pos hlen, cutFrags, if_pos hlen]
        exact ih _ _ (by omega)
      · have h0 : numFull k rest.length = 0 := numFull_eq_zero hk (by omega)
        rw [h0, cutFrags, cutFrags, if_neg hlen]

/-- The message `m` under `id`, with the acks `status`. -/
def outboundOf (hash : Blob 32) (id : UInt64) (m : LinkMessage) (status : BitVec 32) :
    TransitMessage :=
  { putMessage m.1 hash id with status := status }

lemma isCut_outboundOf (hash : Blob 32) (id : UInt64) (m : LinkMessage) (status : BitVec 32) :
    IsCut hash id m.1 (outboundOf hash id m status) := by
  obtain ⟨hinfo, hfrags, hlast⟩ := (putMessage_isCut hash id m.2).1
  exact ⟨hinfo, hfrags, hlast⟩

/-- What `put_message` makes of a message. -/
structure CutUp (m : Bytes) (t : TransitMessage) : Prop where
  /-- the loop ends with as many rounds as the byte counts, and with no full fragment left -/
  rounds : ∀ fuel ≥ t.msginfo.numfrags, cutFrags mtu fuel m 0 ∅ =
    (t.lastfrag, t.msginfo.numfrags, t.frags)
  numfrags : t.msginfo.numfrags ≤ 31
  keys : ∀ i, i ∈ t.frags ↔ i < t.msginfo.numfrags
  fragsize : ∀ i b, t.frags.lookup i = some b → b.length = mtu
  announced : t.msginfo.fragsize = mtu ∧ t.msginfo.lastfrag = t.lastfrag.length
  lastfrag : t.lastfrag.length ≤ 1024 ∧ (m ≠ [] → 0 < t.lastfrag.length)
  total : mtu * t.msginfo.numfrags + t.lastfrag.length = m.length

lemma lastfragOf_pos {m : Bytes} (h : m ≠ []) : 0 < (lastfragOf m).length := by
  have hpos := List.length_pos_of_ne_nil h
  have hlt : mtu * numfragsOf m ≤ m.length - 1 := Nat.mul_div_le _ _
  rw [lastfragOf, List.length_drop]
  omega

lemma putMessage_sizes (hash : Blob 32) (id : UInt64) (m : LinkMessage) :
    CutUp m.1 (putMessage m.1 hash id) := by
  have hcut := (putMessage_isCut hash id m.2).1
  have hnum : (putMessage m.1 hash id).msginfo.numfrags = numfragsOf m.1 := hcut.numfrags m.2
  have hn := numfragsOf_le m.2
  have hk : 0 < mtu := by decide
  have hput : cutFrags mtu m.1.length m.1 0 ∅ =
      ((putMessage m.1 hash id).lastfrag, numfragsOf m.1, (putMessage m.1 hash id).frags) := by
    obtain ⟨frags, heq, -⟩ := cutFrags_spec hk m.1.length m.1 0 ∅ le_rfl
      (by rw [numfragsOf] at hn; omega)
    have heq' : cutFrags 1024 m.1.length m.1 0 ∅ =
        (lastfragOf m.1, 0 + numfragsOf m.1, frags) := heq
    rw [putMessage, heq', ← Nat.zero_add (numfragsOf m.1)]
    exact heq
  refine ⟨fun fuel hfuel => ?_, hnum ▸ hn, fun i => ?_, fun i b hb => ?_, ?_, ?_, ?_⟩
  · have hle : numfragsOf m.1 ≤ m.1.length := (Nat.div_le_self _ _).trans (Nat.sub_le _ _)
    rw [hnum] at hfuel ⊢
    rw [← hput, cutFrags_enough hk _ _ hfuel, cutFrags_enough hk _ _ hle]
  · rw [← AList.lookup_isSome, hcut.frags, hnum]
    split_ifs with hi
    · simpa using hi
    · simpa using hi
  · rw [hcut.frags] at hb
    split_ifs at hb with hi
    rw [← Option.some.inj hb]
    exact fragOf_length hi
  · rw [hcut.msginfo, xmitOf_fragsize, xmitOf_lastfrag, hcut.lastfrag]
    exact ⟨rfl, rfl⟩
  · rw [hcut.lastfrag]
    exact ⟨lastfragOf_length_le m.1, lastfragOf_pos⟩
  · have hle : mtu * numfragsOf m.1 ≤ m.1.length := mul_numFull_le mtu m.1.length
    rw [hcut.lastfrag, hnum, lastfragOf, List.length_drop]
    omega

/-! ### The frames -/

/-- The frames that a session builds; the kind says which of the size fields it has. -/
inductive Built : MsgType → Bytes → Prop
  | xmit (hash : Blob 32) (id : UInt64) (m : LinkMessage) (status : BitVec 32) (flags : UInt8) :
      Built .eXMIT ((outboundOf hash id m status).generateXmit flags)
  | frag {hash : Blob 32} {id : UInt64} {m : LinkMessage} {status : BitVec 32} {flags : UInt8}
      {frames : List Bytes} {f : Bytes} :
      (outboundOf hash id m status).retransmitFrags flags = .ok frames → f ∈ frames →
      Built .eFRAG f
  | acks (id : UInt64) (mask : BitVec 32) (flags : UInt8) : Built .eACKS (ackFrame id mask flags)
  | aliv (flags : UInt8) : Built .eALIV (alivFrame flags)

/-- `retransmit_frags` tests no bit that the status has not. -/
lemma retransmitFrags_ok (hash : Blob 32) (id : UInt64) (m : LinkMessage) (status : BitVec 32)
    (flags : UInt8) :
    ∃ frames, (outboundOf hash id m status).retransmitFrags flags = .ok frames := by
  obtain ⟨frames, hframes, -⟩ := (isCut_outboundOf hash id m status).retransmitFrags m.2 flags
  exact ⟨frames, hframes⟩

variable {t : MsgType} {f : Bytes}

lemma Built.type (h : Built t f) : MsgType.ofByte (hdrMsgtype f) = some t := by
  cases h with
  | xmit hash id m status flags => rfl
  | @frag hash id m status flags frames f hframes hmem =>
      obtain ⟨fs, hfs, hspec⟩ := (isCut_outboundOf hash id m status).retransmitFrags m.2 flags
      obtain rfl : fs = frames := Except.ok.inj (hfs.symm.trans hframes)
      obtain ⟨i, -, -, rfl⟩ := (hspec f).mp hmem
      rfl
  | acks id mask flags => rfl
  | aliv flags => rfl

/-- The size field holds the true size, except that the one of a keepalive is `0`; no frame is
larger than one with a last fragment of 1024 bytes. -/
lemma Built.size (h : Built t f) :
    (t ≠ .eALIV → hdrSize f + 6 = f.length) ∧ hdrSize f + 6 ≤ f.length ∧ f.length ≤ 1078 ∧
      (t = .eXMIT → 54 ≤ f.length) := by
  have hinit : ∀ (t : MsgType) (sz : ℕ) (flags : UInt8) (body : Bytes),
      hdrSize (initSendbuf t sz flags body) = sz % 65536 := fun t sz flags body => by
    simpa using hdrSize_initSendbuf t sz flags body []
  cases h with
  | xmit hash id m status flags =>
      have hlast := lastfragOf_length_le m.1
      rw [(isCut_outboundOf hash id m status).generateXmit, Session.xmitFrame_length, xmitFrame,
        hinit]
      exact ⟨fun _ => by omega, by omega, by omega, fun _ => by omega⟩
  | @frag hash id m status flags frames f hframes hmem =>
      obtain ⟨fs, hfs, hspec⟩ := (isCut_outboundOf hash id m status).retransmitFrags m.2 flags
      obtain rfl : fs = frames := Except.ok.inj (hfs.symm.trans hframes)
      obtain ⟨i, hi, -, rfl⟩ := (hspec f).mp hmem
      rw [Session.fragFrameOf_length hi, fragFrameOf, hinit]
      exact ⟨fun _ => rfl, by omega, by omega, fun h => by cases h⟩
  | acks id mask flags =>
      rw [ackFrame, hinit, initSendbuf_length, List.length_append, leBytes_length, leBytes_length]
      exact ⟨fun _ => rfl, by omega, by omega, fun h => by cases h⟩
  | aliv flags =>
      rw [alivFrame, hinit, initSendbuf_length]
      exact ⟨fun hne => absurd rfl hne, by simp, by simp, fun h => by cases h⟩

/-! ### The buffer of a frame -/

/-- `alloc_frame` without bytes to copy: the memory of the new frame is as it is. -/
def allocEmpty (fresh : Blob 1500) (sz : ℕ) : Option AsyncFrame :=
  if sz > 1500 then none else some ⟨fresh, sz⟩

/-- `encrypt_frame_async_send` up to the queue; `none` is the use of a null pointer. -/
def asyncFrame (fresh : Blob 1500) (buf : Bytes) (pad : Padding) : Option AsyncFrame :=
  (allocEmpty fresh (buf.length + 64)).map fun frame =>
    { buf := writeAt (writeAt frame.buf 64 buf) (64 + buf.length) pad.1
      sz := frame.sz + pad.1.length }

/-- **Outbound sizing never overflows.** For every message that the callers of `sendto` can make:
`put_message` ends after at most thirty-one full fragments, and cuts the message up; no bit past
the thirty-second is tested for its fragments; and every frame that is built for messages and
acks has its true size in its size field and fits, with what `encrypt_frame_async_send` adds, a
buffer that `alloc_frame` gives. -/
theorem outbound_sizes (hash : Blob 32) (id : UInt64) (m : LinkMessage) :
    CutUp m.1 (putMessage m.1 hash id) ∧
      (∀ status flags, ∃ frames,
        (outboundOf hash id m status).retransmitFrags flags = .ok frames) ∧
      ∀ t f, Built t f → (t ≠ .eALIV → hdrSize f + 6 = f.length) ∧
        f.length + 64 + 127 ≤ 1500 ∧ ∀ fresh pad, asyncFrame fresh f pad ≠ none := by
  refine ⟨putMessage_sizes hash id m, retransmitFrags_ok hash id m, fun t f h => ?_⟩
  obtain ⟨hsize, -, hle, -⟩ := h.size
  refine ⟨hsize, by omega, fun fresh pad => ?_⟩
  rw [asyncFrame, allocEmpty, if_neg (by omega)]
  exact Option.some_ne_none _

/-! ### Encryption -/

/-- `iwp_encrypt_frame` with the nonce that `randbytes` draws. -/
def encryptFrame (S : Sodium) (sessionkey nonce : Blob 32) (f : AsyncFrame) : AsyncFrame :=
  let buf := writeAt f.buf 32 nonce.1
  let buf := writeAt buf 64 (S.xchacha20 (slice buf.1 64 (usub f.sz 64)) sessionkey nonce.1)
  { f with buf := writeAt buf 0 (S.hmac (slice buf.1 32 (usub f.sz 32)) sessionkey).1 }

/-- The bytes of a frame that are sent, in the memory of the frame that `alloc_frame` makes of them
at the other end. -/
def received (fresh : Blob 1500) (f : AsyncFrame) : AsyncFrame :=
  ⟨writeAt fresh 0 (slice f.buf.1 0 f.sz), f.sz⟩

section Encrypt

variable {S : Sodium} {key nonce : Blob 32} {fresh fresh' : Blob 1500} {body : Bytes}

/-- The buffer holds a MAC and a nonce in front of a body. -/
def FrameHolds (buf : Blob 1500) (mac nonce : Blob 32) (body : Bytes) : Prop :=
  ∃ rest, buf.1 = mac.1 ++ (nonce.1 ++ (body ++ rest))

lemma FrameHolds.received {f : AsyncFrame} {mac : Blob 32} (h : FrameHolds f.buf mac nonce body)
    (hsz : f.sz = 64 + body.length) :
    FrameHolds (received fresh' f).buf mac nonce body := by
  obtain ⟨rest, h⟩ := h
  have hlen : 64 + body.length ≤ 1500 := by
    have hbuf := congrArg List.length h
    simp only [List.length_append, List.Vector.length_val] at hbuf
    omega
  have hsent : slice f.buf.1 0 f.sz = mac.1 ++ (nonce.1 ++ body) := by
    rw [h, ← List.append_assoc nonce.1, ← List.append_assoc mac.1, slice_head]
    simp only [List.length_append, List.Vector.length_val]
    omega
  refine ⟨fresh'.1.drop (0 + (mac.1 ++ (nonce.1 ++ body)).length), ?_⟩
  rw [Iwp.received, hsent, Handshake.writeAt_val, memcpy]
  · simp
  · simp only [List.length_append, List.Vector.length_val]
    omega

/-- What `iwp_decrypt_frame` makes of it. -/
lemma FrameHolds.decrypt {f : AsyncFrame} {mac : Blob 32} (h : FrameHolds f.buf mac nonce body)
    (hsz : f.sz = 64 + body.length) :
    (Handshake.decryptFrameJob S key f).val =
      (S.xchacha20 body key nonce.1, decide (S.hmac (nonce.1 ++ body) key = mac)) := by
  obtain ⟨rest, h⟩ := h
  have hlen : f.sz ≤ 1500 := by
    have hbuf := congrArg List.length h
    simp only [List.length_append, List.Vector.length_val] at hbuf
    omega
  have hcovered : slice f.buf.1 32 (usub f.sz 32) = nonce.1 ++ body := by
    rw [usub_eq (by omega) (by omega), h, ← List.append_assoc nonce.1, slice_mid mac.2]
    simp only [List.length_append, List.Vector.length_val]
    omega
  have hbody : slice f.buf.1 64 (usub f.sz 64) = body := by
    rw [usub_eq (by omega) (by omega), h, ← List.append_assoc, slice_mid (by simp)]
    omega
  have hmac : field f.buf 0 = mac := Subtype.ext (by rw [sliceBlob_val, h, slice_head mac.2])
  have hnonce : sliceBlob (slice f.buf.1 32 24) 0 24 = sliceBlob nonce.1 0 24 := by
    have hfield : slice f.buf.1 32 32 = nonce.1 := by rw [h, slice_mid mac.2 nonce.2]
    refine Subtype.ext ?_
    rw [sliceBlob_val, sliceBlob_val, ← hfield, slice_slice _ _ (by omega),
      slice_slice _ _ (by omega)]
  simp only [Handshake.decryptFrameJob, Logged.val_bind, Logged.val_pure, readAt_val,
    readField_val, minus_val, hcovered, hbody, hmac, Sodium.xchacha20, hnonce]

/-- `iwp_encrypt_frame` on a frame with a body behind 64 bytes of any content. -/
lemma encryptFrame_holds {f : AsyncFrame} {a b : Blob 32} (h : FrameHolds f.buf a b body)
    (hsz : f.sz = 64 + body.length) :
    let cipher := S.xchacha20 body key nonce.1
    FrameHolds (encryptFrame S key nonce f).buf (S.hmac (nonce.1 ++ cipher) key) nonce cipher := by
  intro cipher
  obtain ⟨rest, h⟩ := h
  have hlen : 64 + body.length ≤ 1500 := by
    have hbuf := congrArg List.length h
    simp only [List.length_append, List.Vector.length_val] at hbuf
    omega
  have hcipher : cipher.length = body.length := S.xchacha20_length _ _ _
  refine ⟨rest, ?_⟩
  -- the nonce
  have hnonce : (writeAt f.buf 32 nonce.1).1 = a.1 ++ (nonce.1 ++ (body ++ rest)) := by
    rw [Handshake.writeAt_val (by simp), h, memcpy_at a.2 (by simp)]
  -- the body
  have hslice : slice (writeAt f.buf 32 nonce.1).1 64 (usub f.sz 64) = body := by
    rw [usub_eq (by omega) (by omega), hnonce, ← List.append_assoc, slice_mid (by simp)]
    omega
  have hbody : (writeAt (writeAt f.buf 32 nonce.1) 64 cipher).1 =
      a.1 ++ (nonce.1 ++ (cipher ++ rest)) := by
    rw [Handshake.writeAt_val (by omega), hnonce, ← List.append_assoc,
      memcpy_at (by simp) hcipher.symm, List.append_assoc]
  have hcovered : slice (writeAt (writeAt f.buf 32 nonce.1) 64 cipher).1 32 (usub f.sz 32) =
      nonce.1 ++ cipher := by
    rw [usub_eq (by omega) (by omega), hbody, ← List.append_assoc nonce.1, slice_mid a.2]
    simp only [List.length_append, List.Vector.length_val]
    omega
  -- the MAC
  simp only [encryptFrame, hslice]
  rw [hcovered, Handshake.writeAt_val (by simp), hbody]
  exact memcpy_at (a := []) rfl (by simp)

/-- The frame that `encrypt_frame_async_send` fills. -/
lemma asyncFrame_holds {f : Bytes} {pad : Padding} {frame : AsyncFrame}
    (hframe : asyncFrame fresh f pad = some frame) (hlen : f.length + 64 + 127 ≤ 1500) :
    FrameHolds frame.buf (field fresh 0) (field fresh 32) (f ++ pad.1) ∧
      frame.sz = 64 + (f ++ pad.1).length := by
  have hpad : pad.1.length < 128 := pad.2
  have hfresh : fresh.1.length = 1500 := fresh.2
  rw [asyncFrame, allocEmpty, if_neg (by omega)] at hframe
  obtain rfl := Option.some.inj hframe
  constructor
  · have hhead : fresh.1.take 64 = (field fresh 0).1 ++ (field fresh 32).1 := by
      rw [sliceBlob_val, sliceBlob_val, slice_eq_take (by omega), slice_eq_take (by omega),
        List.drop_zero, ← List.take_add]
    have hf : (writeAt fresh 64 f).1 = fresh.1.take 64 ++ (f ++ fresh.1.drop (64 + f.length)) := by
      rw [Handshake.writeAt_val (by omega), memcpy, List.append_assoc]
    refine ⟨(fresh.1.drop (64 + f.length)).drop pad.1.length, ?_⟩
    have htake : (fresh.1.take 64 ++ f).length = 64 + f.length := by
      rw [List.length_append, List.length_take]
      omega
    rw [Handshake.writeAt_val (by omega), memcpy, hf, ← List.append_assoc, List.take_left' htake,
      ← List.drop_drop, List.drop_left' htake, hhead]
    simp only [List.append_assoc]
  · rw [List.length_append]
    change f.length + 64 + pad.1.length = _
    omega

/-- The other end decrypts the frame and its padding. -/
lemma decrypt_encrypted {f : Bytes} {pad : Padding} {frame : AsyncFrame}
    (hframe : asyncFrame fresh f pad = some frame) (hlen : f.length + 64 + 127 ≤ 1500) :
    (Handshake.decryptFrameJob S key (received fresh' (encryptFrame S key nonce frame))).val =
      (f ++ pad.1, true) := by
  obtain ⟨hholds, hsz⟩ := asyncFrame_holds hframe hlen
  have hcipher : (encryptFrame S key nonce frame).sz =
      64 + (S.xchacha20 (f ++ pad.1) key nonce.1).length := by
    rw [S.xchacha20_length]
    exact hsz
  have hcrypt : FrameHolds (encryptFrame S key nonce frame).buf _ nonce _ :=
    encryptFrame_holds hholds hsz
  have hsent : FrameHolds (received fresh' (encryptFrame S key nonce frame)).buf _ nonce _ :=
    hcrypt.received hcipher
  rw [hsent.decrypt hcipher, S.xchacha20_xchacha20, decide_eq_true rfl]

end Encrypt

/-! ### Padding -/

namespace Session

variable {σ : Type} {env : LinkEnv σ} {now : UInt64} {s : Session σ}

/-- The size of the decrypted bytes matters only as a bound on the size of the frame. -/
lemma process_size {buf : Bytes} {n m : ℕ} (hn : hdrSize buf ≤ usub n 6)
    (hm : hdrSize buf ≤ usub m 6) : s.process env now buf n = s.process env now buf m := by
  have hn : ¬ hdrSize buf > usub n 6 := not_lt.mpr hn
  have hm : ¬ hdrSize buf > usub m 6 := not_lt.mpr hm
  simp only [process, gotXmit, gotAcks, gotFrag, if_neg hn, if_neg hm]

/-- A frame that the other end built is all there. -/
lemma contained_of_built {t : MsgType} {f : Bytes} (h : Built t f) (s : Session σ) :
    Contained s f := by
  obtain ⟨htrue, hsize, hle, hxmit⟩ := h.size
  have h6 : 6 ≤ f.length := by omega
  refine ⟨.inl h6, ?_⟩
  rw [h.type]
  cases t with
  | eALIV => trivial
  | eACKS => exact .inl h6
  | eFRAG => exact .inl h6
  | eXMIT =>
      intro q hx
      have h54 := hxmit rfl
      have htrue := htrue nofun
      have hlast := hx.lastfrag
      rw [hdrSize_append q (by omega), usub_eq (by omega) (by omega)] at hlast
      omega

/-- `frame_state::process` makes the same of a frame with padding and without. -/
lemma process_append_padding {t : MsgType} {f : Bytes} (h : Built t f) (pad : Padding) :
    s.process env now (f ++ pad.1) (f ++ pad.1).length = s.process env now f f.length := by
  obtain ⟨-, hsize, hle, -⟩ := h.size
  have hpad : pad.1.length < 128 := pad.2
  have hlen : (f ++ pad.1).length = f.length + pad.1.length := List.length_append
  have hhdr : hdrSize (f ++ pad.1) = hdrSize f := hdrSize_append _ (by omega)
  have hcontained : Decided env now s f := decided_of_contained (by omega) (contained_of_built h s)
  have hdecided := hcontained pad.1 []
  rw [List.append_nil] at hdecided
  rw [← hdecided]
  refine process_size ?_ ?_
  · rw [hlen, hhdr, usub_eq (by omega) (by omega)]
    omega
  · rw [hhdr, usub_eq (by omega) (by omega)]
    omega

/-- **Padding and encryption are transparent.** For every frame that a session builds, every
session key, nonce and padding, and whatever the buffers of both ends held before: the other end
decrypts the frame with its padding, and `frame_state::process` does with these bytes what it does
with the frame, in every state of the receiver. -/
theorem padding_transparent (env : LinkEnv σ) (S : Sodium) (now : UInt64) (s : Session σ)
    (key nonce : Blob 32) (fresh fresh' : Blob 1500) (pad : Padding) (t : MsgType) (f : Bytes)
    (h : Built t f) : ∃ frame, asyncFrame fresh f pad = some frame ∧
      ∃ body, (Handshake.decryptFrameJob S key
          (received fresh' (encryptFrame S key nonce frame))).val = (body, true) ∧
        s.process env now body body.length = s.process env now f f.length := by
  obtain ⟨-, -, hle, -⟩ := h.size
  have hroom : f.length + 64 + 127 ≤ 1500 := by omega
  have hsome : asyncFrame fresh f pad ≠ none := by
    rw [asyncFrame, allocEmpty, if_neg (by omega)]
    exact Option.some_ne_none _
  obtain ⟨frame, hframe⟩ := Option.ne_none_iff_exists'.mp hsome
  exact ⟨frame, hframe, f ++ pad.1, decrypt_encrypted hframe hroom, process_append_padding h pad⟩

/-- The announcement of a message of three bytes. -/
def threeXmit : Bytes :=
  (outboundOf (List.Vector.replicate 32 0) 1 ⟨[1, 2, 3], by decide⟩ 0).generateXmit 0

theorem padding_transparent_xmit : ∃ frame,
    asyncFrame (List.Vector.replicate 1500 0) threeXmit ⟨[7], by decide⟩ = some frame ∧
      ∃ body, (Handshake.decryptFrameJob Handshake.twoKeys Handshake.aliceSeed
          (received (List.Vector.replicate 1500 1)
            (encryptFrame Handshake.twoKeys Handshake.aliceSeed Handshake.bobSeed frame))).val =
          (body, true) ∧
        quietSession.process (.discarding Handshake.aliceSeed) 0 body body.length =
          quietSession.process (.discarding Handshake.aliceSeed) 0 threeXmit threeXmit.length :=
  padding_transparent (.discarding Handshake.aliceSeed) Handshake.twoKeys 0 quietSession
    Handshake.aliceSeed Handshake.bobSeed (List.Vector.replicate 1500 0)
    (List.Vector.replicate 1500 1) ⟨[7], by decide⟩ .eXMIT threeXmit (.xmit _ 1 _ 0 0)

end Session

end Udap.Iwp
