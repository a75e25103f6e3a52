import Udap.Lib.Logged
import Udap.Iwp.Handshake

/-!
The lengths of datagrams: `session::recv` and the verification and decryption jobs it queues, with
a log of what depends on a length.

The handlers copy a datagram of `n` bytes to the front of a buffer of fixed size and queue a job
that reads the buffer, so that a read behind the first `n` bytes finds what an earlier packet left
there. The jobs are those of the handshake with their reads written out; `verifyIntroJob_val` and
its companions say so.

`recv_safe_iff`: for which datagrams nothing underflows, nothing is read that was not received and
no missing frame is used.
-/

namespace Udap.Iwp

open ByteMem Logged

/-- What a job does that a length decides over. -/
inductive Access where
  /-- an unsigned subtraction `n - k` -/
  | sub (n k : ℕ)
  /-- a read of `len` bytes of the copied datagram from `off` on -/
  | read (off len : ℕ)
  /-- a use of what `alloc_frame` returned -/
  | frame (null : Bool)

/-- The access is in order for a datagram of `n` bytes. -/
def Access.Safe (n : ℕ) : Access → Prop
  | .sub m k => k ≤ m
  | .read off len => ∀ i < len, off + i < n
  | .frame null => null = false

/-- A job with a log of its accesses. -/
abbrev Job := Logged Access

/-- A read from a buffer. -/
def readAt {k : ℕ} (buf : Blob k) (off len : ℕ) : Job Bytes :=
  ⟨slice buf.1 off len, [.read off len]⟩

/-- A read of 32 bytes. -/
def readField {k : ℕ} (buf : Blob k) (off : ℕ) : Job (Blob 32) := ⟨field buf off, [.read off 32]⟩

/-- An unsigned subtraction. -/
def minus (n k : ℕ) : Job ℕ := ⟨usub n k, [.sub n k]⟩

@[simp] lemma readAt_val {k : ℕ} (buf : Blob k) (off len : ℕ) :
    (readAt buf off len).val = slice buf.1 off len := rfl

@[simp] lemma readField_val {k : ℕ} (buf : Blob k) (off : ℕ) :
    (readField buf off).val = field buf off := rfl

@[simp] lemma minus_val (n k : ℕ) : (minus n k).val = usub n k := rfl

/-- A packet in a buffer of 1500 bytes, as `alloc_frame` fills it. -/
structure AsyncFrame where
  buf : Blob 1500
  sz : ℕ

namespace Handshake

variable (S : Sodium) (junk : Blob 32)

/-- `dh_client` with the nonce of a packet, which is read only after the key agreement. -/
def dhClientAt (buf : Blob 256) (pk : Blob 32) (sk : SecretKey) : Job (Option (Blob 32)) :=
  match S.dh sk.toPublic pk pk sk with
  | none => return none
  | some r => do
      let n ← readField buf 32
      return some (S.generichash n.1 r.1)

/-- `dh_server` with the nonce of a packet. -/
def dhServerAt (buf : Blob 256) (pk : Blob 32) (sk : SecretKey) : Job (Option (Blob 32)) :=
  match S.dh pk sk.toPublic pk sk with
  | none => return none
  | some r => do
      let n ← readField buf 32
      return some (S.generichash n.1 r.1)

/-- The MAC over a packet of `sz` bytes. -/
def macAt (buf : Blob 256) (sz : ℕ) (key : Blob 32) : Job (Blob 32) := do
  let bodysz ← minus sz 32
  let body ← readAt buf 32 bodysz
  return S.hmac body key

/-- `verify_intro`. -/
def verifyIntroJob (sz : ℕ) (e : Handshake) : Job (Handshake × Bool) := do
  let nonce ← readField e.workbuf 32
  let e_K := S.shorthash (e.secretkey.toPublic.1 ++ nonce.1)
  -- the copy of the nonce for the cipher
  emit (.read 32 24)
  let x ← readField e.workbuf 64
  let remote := cipherOf S x e_K nonce
  let sharedkey ← dhServerAt S e.workbuf remote e.secretkey
  let h ← macAt S e.workbuf sz (sharedkey.getD junk)
  let mac ← readField e.workbuf 0
  return ({ e with remote := remote }, h = mac)

/-- `xchacha20` on the encrypted field of a packet. -/
def cipherJob (buf : Blob 256) (key : Blob 32) : Job (Blob 256) := do
  emit (.read 64 32)
  emit (.read 32 24)
  return cipherAt S buf 64 key (field buf 32)

/-- The end of `verify_introack`, with the MAC that was computed and the one that was sent. -/
def takeToken (e : Handshake) (key digest hmac : Blob 32) : Job (Handshake × Bool) :=
  if digest ≠ hmac then return (e, false)
  else do
    let buf ← cipherJob S e.workbuf key
    let token ← readField buf 64
    return ({ e with workbuf := buf, token := token }, true)

/-- `verify_introack`. -/
def verifyIntroackJob (sz : ℕ) (e : Handshake) : Job (Handshake × Bool) := do
  let bodysz ← minus sz 32
  let sharedkey ← dhClientAt S e.workbuf e.remote e.secretkey
  let body ← readAt e.workbuf 32 bodysz
  let hmac ← readField e.workbuf 0
  takeToken S e (sharedkey.getD junk) (S.hmac body (sharedkey.getD junk)) hmac

/-- `verify_session_start` after the token was decrypted. -/
def takeSessionkey (e : Handshake) (buf : Blob 256) (token : Blob 32) : Job (Handshake × Bool) :=
  if token = e.token then do
    let N ← readField buf 32
    let T := S.shorthash (e.token.1 ++ N.1)
    let K := (S.dhServer e.remote e.secretkey T).getD e.sessionkey
    return ({ e with workbuf := buf, sessionkey := K }, true)
  else return ({ e with workbuf := buf }, false)

/-- The end of `verify_session_start`, with both MACs. -/
def checkToken (e : Handshake) (key h mac : Blob 32) : Job (Handshake × Bool) :=
  if h = mac then do
    let buf ← cipherJob S e.workbuf key
    let token ← readField buf 64
    takeSessionkey S e buf token
  else return (e, false)

/-- `verify_session_start`. -/
def verifySessionStartJob (sz : ℕ) (e : Handshake) : Job (Handshake × Bool) := do
  let e_K ← dhServerAt S e.workbuf e.remote e.secretkey
  let h ← macAt S e.workbuf sz (e_K.getD junk)
  let mac ← readField e.workbuf 0
  checkToken S e (e_K.getD junk) h mac

/-- `iwp_decrypt_frame`: the body of the frame and whether its MAC was right. -/
def decryptFrameJob (sessionkey : Blob 32) (f : AsyncFrame) : Job (Bytes × Bool) := do
  let n ← minus f.sz 32
  let covered ← readAt f.buf 32 n
  let digest := S.hmac covered sessionkey
  let hmac ← readField f.buf 0
  let bodysz ← minus f.sz 64
  let body ← readAt f.buf 64 bodysz
  let nonce ← readAt f.buf 32 24
  return (S.xchacha20 body sessionkey nonce, digest = hmac)

/-! ### The session -/

/-- What becomes of a datagram. -/
inductive Received where
  | ignored
  /-- the session is deleted -/
  | removed
  /-- a verification job ended -/
  | verified (e : Handshake) (ok : Bool)
  /-- a decryption job ended -/
  | decrypted (body : Bytes) (ok : Bool)
  /-- a null pointer is used -/
  | crashed

/-- The copy of a datagram into the work buffer. -/
def ownBuffer (buf : Bytes) (e : Handshake) : Job Handshake :=
  ⟨{ e with workbuf := writeAt e.workbuf 0 buf }, [.read 0 buf.length]⟩

/-- `on_intro` and the job it queues. -/
def recvIntro (e : Handshake) (buf : Bytes) : Job Received :=
  if buf.length ≥ 256 then return .removed
  else do
    let e ← ownBuffer buf e
    let r ← verifyIntroJob S junk buf.length e
    return .verified r.1 r.2

/-- `on_intro_ack` and the job it queues. -/
def recvIntroAck (e : Handshake) (buf : Bytes) : Job Received :=
  if buf.length ≥ 256 then return .removed
  else do
    let e ← ownBuffer buf e
    let r ← verifyIntroackJob S junk buf.length e
    return .verified r.1 r.2

/-- `on_session_start` and the job it queues. -/
def recvSessionStart (e : Handshake) (buf : Bytes) : Job Received :=
  if buf.length > 256 then return .ignored
  else do
    let e ← ownBuffer buf e
    let r ← verifySessionStartJob S junk buf.length e
    return .verified r.1 r.2

/-- `alloc_frame` for a datagram, with the memory of the new frame. -/
def allocFrame (fresh : Blob 1500) (buf : Bytes) : Job (Option AsyncFrame) :=
  if buf.length > 1500 then return none
  else do
    emit (.read 0 buf.length)
    return some ⟨writeAt fresh 0 buf, buf.length⟩

/-- `decrypt_frame` and the job it queues. -/
def decryptFrame (fresh : Blob 1500) (e : Handshake) (buf : Bytes) : Job Received :=
  if buf.length > 64 then do
    let f ← allocFrame fresh buf
    -- the hook of the frame is set
    emit (.frame f.isNone)
    match f with
    | none => return .crashed
    | some f => do
        let r ← decryptFrameJob S e.sessionkey f
        return .decrypted r.1 r.2
  else return .ignored

/-- `recv` in each state, with the job it queues. -/
def recv (fresh : Blob 1500) (state : State) (e : Handshake) (buf : Bytes) : Job Received :=
  match state with
  | .eInitial => recvIntro S junk e buf
  | .eIntroSent => recvIntroAck S junk e buf
  | .eIntroAckSent => recvSessionStart S junk e buf
  | .eSessionStartSent | .eLIMSent | .eEstablished => decryptFrame S fresh e buf
  | .eIntroRecv | .eIntroAckRecv | .eTimeout => return .ignored

/-! ### The jobs are those of the handshake -/

section Values

variable {S junk} {e : Handshake} {buf : Blob 256}

lemma dhClientAt_val (pk : Blob 32) (sk : SecretKey) :
    (dhClientAt S buf pk sk).val = S.dhClient pk sk (field buf 32) := by
  rw [dhClientAt, Sodium.dhClient]
  cases S.dh sk.toPublic pk pk sk with
  | none => rfl
  | some r => rfl

lemma dhServerAt_val (pk : Blob 32) (sk : SecretKey) :
    (dhServerAt S buf pk sk).val = S.dhServer pk sk (field buf 32) := by
  rw [dhServerAt, Sodium.dhServer]
  cases S.dh pk sk.toPublic pk sk with
  | none => rfl
  | some r => rfl

lemma macAt_val (sz : ℕ) (key : Blob 32) : (macAt S buf sz key).val = macOf S buf sz key := by
  simp only [macAt, macOf, val_bind, val_pure, readAt_val, minus_val]

lemma verifyIntroJob_val (sz : ℕ) : (verifyIntroJob S junk sz e).val = verifyIntro S junk sz e := by
  simp only [verifyIntroJob, verifyIntro, val_bind, val_pure, dhServerAt_val, macAt_val,
    readField_val]
  congr!

@[simp] lemma cipherJob_val (key : Blob 32) :
    (cipherJob S buf key).val = cipherAt S buf 64 key (field buf 32) := rfl

lemma takeToken_val (key digest hmac : Blob 32) : (takeToken S e key digest hmac).val =
    if digest ≠ hmac then (e, false)
    else ({ e with
      workbuf := cipherAt S e.workbuf 64 key (field e.workbuf 32)
      token := field (cipherAt S e.workbuf 64 key (field e.workbuf 32)) 64 }, true) := by
  rw [takeToken]
  split_ifs with h
  · rfl
  · rfl

lemma verifyIntroackJob_val (sz : ℕ) :
    (verifyIntroackJob S junk sz e).val = verifyIntroack S junk sz e := by
  have hmac : ∀ key, S.hmac (slice e.workbuf.1 32 (usub sz 32)) key = macOf S e.workbuf sz key :=
    fun _ => by rw [macOf]
  simp only [verifyIntroackJob, verifyIntroack, val_bind, dhClientAt_val, readField_val,
    readAt_val, minus_val, hmac, takeToken_val]

/-- The cipher leaves the nonce as it is. -/
lemma field_cipherAt (key nonce : Blob 32) :
    field (cipherAt S buf 64 key nonce) 32 = field buf 32 :=
  ((holds_self buf).cipherAt S key nonce).nonce

lemma takeSessionkey_val (token : Blob 32) : (takeSessionkey S e buf token).val =
    if token = e.token then ({ e with
      workbuf := buf
      sessionkey := (S.dhServer e.remote e.secretkey
        (S.shorthash (e.token.1 ++ (field buf 32).1))).getD e.sessionkey }, true)
    else ({ e with workbuf := buf }, false) := by
  rw [takeSessionkey]
  split_ifs with h
  · rfl
  · rfl

lemma checkToken_val (key h mac : Blob 32) : (checkToken S e key h mac).val =
    if h = mac then (takeSessionkey S e (cipherAt S e.workbuf 64 key (field e.workbuf 32))
      (field (cipherAt S e.workbuf 64 key (field e.workbuf 32)) 64)).val
    else (e, false) := by
  rw [checkToken]
  split_ifs with hmac
  · rfl
  · rfl

lemma verifySessionStartJob_val (sz : ℕ) :
    (verifySessionStartJob S junk sz e).val = verifySessionStart S junk sz e := by
  simp only [verifySessionStartJob, verifySessionStart, val_bind, dhServerAt_val, readField_val,
    macAt_val, checkToken_val, takeSessionkey_val, field_cipherAt]

end Values

/-! ### Which lengths are in order -/

section Lengths

variable {S junk} {e : Handshake} {n : ℕ}

lemma safe_readAt {k : ℕ} (buf : Blob k) (off len : ℕ) :
    All (Access.Safe n) (readAt buf off len) ↔ ∀ i < len, off + i < n :=
  List.forall_mem_singleton

lemma safe_minus (m k : ℕ) : All (Access.Safe n) (minus m k) ↔ k ≤ m := List.forall_mem_singleton

/-- A read of `len` bytes. -/
lemma safe_read {off len : ℕ} (h : 0 < len) : Access.Safe n (.read off len) ↔ off + len ≤ n := by
  refine ⟨fun hall => ?_, fun hle i hi => ?_⟩
  · have := hall (len - 1) (by omega)
    omega
  · omega

lemma safe_readField {k : ℕ} (buf : Blob k) (off : ℕ) :
    All (Access.Safe n) (readField buf off) ↔ off + 32 ≤ n :=
  List.forall_mem_singleton.trans (safe_read (by omega))

/-- A subtraction that does not underflow leaves what lies behind `k`. -/
lemma safe_rest {k : ℕ} (hk : k ≤ n) (hn : n < 2 ^ 64) (i : ℕ) (hi : i < usub n k) : k + i < n := by
  rw [usub_eq hk hn] at hi
  omega

lemma safe_dhClientAt (buf : Blob 256) (pk : Blob 32) (sk : SecretKey) :
    All (Access.Safe n) (dhClientAt S buf pk sk) ↔
      ((S.scalarmult sk.secret pk).isSome → 64 ≤ n) := by
  rw [dhClientAt, Sodium.dh]
  cases S.scalarmult sk.secret pk with
  | none => simp
  | some r => simp [safe_readField]

lemma safe_dhServerAt (buf : Blob 256) (pk : Blob 32) (sk : SecretKey) :
    All (Access.Safe n) (dhServerAt S buf pk sk) ↔
      ((S.scalarmult sk.secret pk).isSome → 64 ≤ n) := by
  rw [dhServerAt, Sodium.dh]
  cases S.scalarmult sk.secret pk with
  | none => simp
  | some r => simp [safe_readField]

lemma safe_macAt (buf : Blob 256) (key : Blob 32) (hn : n < 2 ^ 64) :
    All (Access.Safe n) (macAt S buf n key) ↔ 32 ≤ n := by
  simp only [macAt, all_bind, all_pure, safe_minus, safe_readAt, and_true, minus_val]
  exact ⟨fun h => h.1, fun h => ⟨h, safe_rest h hn⟩⟩

lemma safe_cipherJob (buf : Blob 256) (key : Blob 32) :
    All (Access.Safe n) (cipherJob S buf key) ↔ 96 ≤ n := by
  simp only [cipherJob, all_bind, all_emit, all_pure, and_true, safe_read (show 0 < 32 by omega),
    safe_read (show 0 < 24 by omega)]
  omega

lemma safe_verifyIntroJob (hn : n < 2 ^ 64) :
    All (Access.Safe n) (verifyIntroJob S junk n e) ↔ 96 ≤ n := by
  simp only [verifyIntroJob, all_bind, all_emit, all_pure, safe_readField, safe_dhServerAt,
    safe_macAt _ _ hn, safe_read (show 0 < 24 by omega), and_true]
  refine ⟨fun h => h.2.2.1, fun h => ⟨?_, ?_, h, fun _ => ?_, ?_, ?_⟩⟩
  all_goals omega

lemma safe_takeToken (key digest hmac : Blob 32) :
    All (Access.Safe n) (takeToken S e key digest hmac) ↔ (digest = hmac → 96 ≤ n) := by
  rw [takeToken]
  split_ifs with h
  · simp [h]
  · rw [not_not] at h
    simp only [all_bind, all_pure, safe_cipherJob, safe_readField, h, and_true, true_imp_iff]
    omega

lemma safe_takeSessionkey (buf : Blob 256) (token : Blob 32) (h : 96 ≤ n) :
    All (Access.Safe n) (takeSessionkey S e buf token) := by
  rw [takeSessionkey]
  split_ifs
  · simp only [all_bind, all_pure, safe_readField, and_true]
    omega
  · simp

lemma safe_checkToken (key h mac : Blob 32) :
    All (Access.Safe n) (checkToken S e key h mac) ↔ (h = mac → 96 ≤ n) := by
  rw [checkToken]
  split_ifs with hmac
  · simp only [all_bind, safe_cipherJob, safe_readField, hmac, true_imp_iff]
    exact ⟨fun hs => hs.1, fun hs => ⟨hs, hs, safe_takeSessionkey _ _ hs⟩⟩
  · simp [hmac]

lemma safe_verifyIntroackJob (hn : n < 2 ^ 64) :
    All (Access.Safe n) (verifyIntroackJob S junk n e) ↔
      32 ≤ n ∧ ((S.scalarmult e.secretkey.secret e.remote).isSome → 64 ≤ n) ∧
        (macOf S e.workbuf n ((S.dhClient e.remote e.secretkey (field e.workbuf 32)).getD junk) =
          field e.workbuf 0 → 96 ≤ n) := by
  simp only [verifyIntroackJob, all_bind, safe_minus, safe_dhClientAt, safe_readAt, safe_readField,
    safe_takeToken, dhClientAt_val, readAt_val, readField_val, minus_val]
  rw [macOf]
  constructor
  · rintro ⟨h₁, h₂, -, -, h₃⟩
    exact ⟨h₁, h₂, h₃⟩
  · rintro ⟨h₁, h₂, h₃⟩
    exact ⟨h₁, h₂, safe_rest h₁ hn, by omega, h₃⟩

lemma safe_verifySessionStartJob (hn : n < 2 ^ 64) :
    All (Access.Safe n) (verifySessionStartJob S junk n e) ↔
      32 ≤ n ∧ ((S.scalarmult e.secretkey.secret e.remote).isSome → 64 ≤ n) ∧
        (macOf S e.workbuf n ((S.dhServer e.remote e.secretkey (field e.workbuf 32)).getD junk) =
          field e.workbuf 0 → 96 ≤ n) := by
  simp only [verifySessionStartJob, all_bind, safe_dhServerAt, safe_macAt _ _ hn, safe_readField,
    safe_checkToken, dhServerAt_val, macAt_val, readField_val]
  constructor
  · rintro ⟨h₁, h₂, -, h₃⟩
    exact ⟨h₂, h₁, h₃⟩
  · rintro ⟨h₁, h₂, h₃⟩
    exact ⟨h₂, h₁, by omega, h₃⟩

lemma safe_decryptFrameJob (sessionkey : Blob 32) (f : AsyncFrame) (h : 64 ≤ f.sz)
    (hn : f.sz < 2 ^ 64) : All (Access.Safe f.sz) (decryptFrameJob S sessionkey f) := by
  simp only [decryptFrameJob, all_bind, all_pure, safe_minus, safe_readAt, safe_readField,
    minus_val, and_true]
  refine ⟨by omega, safe_rest (by omega) hn, by omega, h, safe_rest h hn, fun i hi => by omega⟩

end Lengths

/-- A packet of `n` bytes is long enough for a verification job: for its MAC, for its nonce if the
key agreement succeeds, and for its encrypted field if the MAC is right. -/
def PacketFits (dh : Blob 32 → Option (Blob 32)) (e : Handshake) (n : ℕ) : Prop :=
  32 ≤ n ∧ ((S.scalarmult e.secretkey.secret e.remote).isSome → 64 ≤ n) ∧
    (macOf S e.workbuf n ((dh (field e.workbuf 32)).getD junk) = field e.workbuf 0 → 96 ≤ n)

/-- The datagrams whose length is in order, in each state. -/
def LengthFits (state : State) (e : Handshake) (buf : Bytes) : Prop :=
  match state with
  | .eInitial => 96 ≤ buf.length
  | .eIntroSent => 256 ≤ buf.length ∨ PacketFits S junk (S.dhClient e.remote e.secretkey)
      { e with workbuf := writeAt e.workbuf 0 buf } buf.length
  | .eIntroAckSent => 256 < buf.length ∨ PacketFits S junk (S.dhServer e.remote e.secretkey)
      { e with workbuf := writeAt e.workbuf 0 buf } buf.length
  | .eSessionStartSent | .eLIMSent | .eEstablished => buf.length ≤ 1500
  | .eIntroRecv | .eIntroAckRecv | .eTimeout => True

section Receive

variable {S junk} {e : Handshake} {buf : Bytes}

lemma safe_ownBuffer : All (Access.Safe buf.length) (ownBuffer buf e) :=
  List.forall_mem_singleton.mpr fun i hi => by omega

lemma safe_recvIntro :
    All (Access.Safe buf.length) (recvIntro S junk e buf) ↔ 96 ≤ buf.length := by
  rw [recvIntro]
  split_ifs with hbig
  · simp only [all_pure, true_iff]
    omega
  · simp only [all_bind, all_pure, safe_ownBuffer, true_and, and_true,
      safe_verifyIntroJob (show buf.length < 2 ^ 64 by omega)]

lemma safe_recvIntroAck : All (Access.Safe buf.length) (recvIntroAck S junk e buf) ↔
    256 ≤ buf.length ∨ PacketFits S junk (S.dhClient e.remote e.secretkey)
      { e with workbuf := writeAt e.workbuf 0 buf } buf.length := by
  rw [recvIntroAck]
  split_ifs with hbig
  · simp [hbig]
  · simp only [all_bind, all_pure, safe_ownBuffer, true_and, and_true, hbig, false_or,
      safe_verifyIntroackJob (show buf.length < 2 ^ 64 by omega)]
    rfl

lemma safe_recvSessionStart : All (Access.Safe buf.length) (recvSessionStart S junk e buf) ↔
    256 < buf.length ∨ PacketFits S junk (S.dhServer e.remote e.secretkey)
      { e with workbuf := writeAt e.workbuf 0 buf } buf.length := by
  rw [recvSessionStart]
  split_ifs with hbig
  · simp [hbig]
  · simp only [all_bind, all_pure, safe_ownBuffer, true_and, and_true, hbig, false_or,
      safe_verifySessionStartJob (show buf.length < 2 ^ 64 by omega)]
    rfl

lemma safe_decryptFrame (fresh : Blob 1500) :
    All (Access.Safe buf.length) (decryptFrame S fresh e buf) ↔ buf.length ≤ 1500 := by
  rw [decryptFrame]
  split_ifs with hshort
  · rw [allocFrame]
    by_cases hbig : buf.length > 1500
    · simp only [if_pos hbig, all_bind, all_pure, all_emit, val_pure, Option.isNone_none, true_and,
        and_true]
      refine iff_of_false (fun h => ?_) (by omega)
      cases h
    · have hjob := safe_decryptFrameJob (S := S) e.sessionkey ⟨writeAt fresh 0 buf, buf.length⟩
        (le_of_lt hshort) (show buf.length < 2 ^ 64 by omega)
      simp only [if_neg hbig, all_bind, all_pure, all_emit, val_bind, val_pure, Option.isNone_some,
        and_true]
      refine iff_of_true ⟨fun i hi => by omega, rfl, hjob⟩ (by omega)
  · simp only [all_pure, true_iff]
    omega

end Receive

/-- What `recv` and the job it queues do with a datagram is in order exactly for the lengths that
the state allows. -/
theorem recv_safe_iff (fresh : Blob 1500) (state : State) (e : Handshake) (buf : Bytes) :
    All (Access.Safe buf.length) (recv S junk fresh state e buf) ↔
      LengthFits S junk state e buf := by
  cases state with
  | eInitial => exact safe_recvIntro
  | eIntroSent => exact safe_recvIntroAck
  | eIntroAckSent => exact safe_recvSessionStart
  | eSessionStartSent => exact safe_decryptFrame fresh
  | eLIMSent => exact safe_decryptFrame fresh
  | eEstablished => exact safe_decryptFrame fresh
  | eIntroRecv => exact all_pure _
  | eIntroAckRecv => exact all_pure _
  | eTimeout => exact all_pure _

/-- An empty datagram from a new address. -/
theorem empty_intro_underflows : ¬ ∀ (S : Sodium) (junk : Blob 32) (fresh : Blob 1500)
    (state : State) (e : Handshake) (buf : Bytes), buf.length ≤ 2048 →
    All (Access.Safe buf.length) (recv S junk fresh state e buf) := by
  intro h
  let zero {n : ℕ} : Blob n := List.Vector.replicate n 0
  let S : Sodium := ⟨fun _ _ => some zero, fun _ => zero, fun _ _ => zero, fun _ _ _ => 0⟩
  have hsafe := h S zero zero .eInitial ⟨zero, zero, zero, zero, zero⟩ [] (Nat.zero_le _)
  exact absurd (safe_recvIntro.mp hsafe) (by decide)

end Handshake

end Udap.Iwp
