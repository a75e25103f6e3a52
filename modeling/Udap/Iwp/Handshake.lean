import Udap.Crypto
import Udap.Iwp.Receive

/-!
The handshake of a session: the six crypto jobs of `crypto_async.cpp` and the session functions
that fill the work buffer for them and hand over what arrives.

A packet is a MAC of 32 bytes, a nonce of 32 bytes, 32 encrypted bytes and padding. The jobs work
in place on the work buffer of the session. A key exchange that fails leaves its target as it is;
for the local variables of the jobs that is memory nobody wrote (`junk`).

`handshake_agreement`: for all keys, nonces, tokens and paddings the three packets are accepted,
and both ends have the same session key.
-/

namespace Udap.Iwp

open ByteMem

/-- What the handshake uses of `struct session`. -/
structure Handshake where
  /-- `eph_seckey` -/
  secretkey : SecretKey
  remote : Blob 32
  token : Blob 32
  sessionkey : Blob 32
  workbuf : Blob 256

/-- A copy into a buffer of fixed size. -/
def writeAt {n : ℕ} (dst : Blob n) (off : ℕ) (src : Bytes) : Blob n :=
  sliceBlob (memcpy dst.1 off src) 0 n

/-- The padding of a packet fits the work buffer behind the three fields. -/
lemma Padding.fits (w : Padding) : w.1.length ≤ 160 := by
  have hw : w.1.length < 128 := w.2
  omega

/-- The 32 bytes of a field. -/
abbrev field {n : ℕ} (buf : Blob n) (off : ℕ) : Blob 32 := sliceBlob buf.1 off 32

namespace Handshake

variable (S : Sodium) (junk : Blob 32)

/-- `xchacha20` on 32 bytes. -/
def cipherOf (plain key nonce : Blob 32) : Blob 32 := ⟨S.xchacha20 plain.1 key nonce.1, by simp⟩

/-- `xchacha20` on a field of the work buffer. -/
def cipherAt (buf : Blob 256) (off : ℕ) (key nonce : Blob 32) : Blob 256 :=
  writeAt buf off (cipherOf S (field buf off) key nonce).1

/-- The MAC over everything in a packet of `sz` bytes behind the MAC. -/
def macOf (buf : Blob 256) (sz : ℕ) (key : Blob 32) : Blob 32 :=
  S.hmac (slice buf.1 32 (usub sz 32)) key

/-! ### The crypto jobs -/

/-- `gen_intro`. -/
def genIntro (sz : ℕ) (e : Handshake) : Handshake :=
  let nonce := field e.workbuf 32
  let sharedkey := (S.dhClient e.remote e.secretkey nonce).getD junk
  let e_k := S.shorthash (e.remote.1 ++ nonce.1)
  let buf := cipherAt S (writeAt e.workbuf 64 e.secretkey.toPublic.1) 64 e_k nonce
  { e with workbuf := writeAt buf 0 (macOf S buf sz sharedkey).1 }

/-- `verify_intro`; the key it finds is written to `remote` in any case. -/
def verifyIntro (sz : ℕ) (e : Handshake) : Handshake × Bool :=
  let nonce := field e.workbuf 32
  let e_K := S.shorthash (e.secretkey.toPublic.1 ++ nonce.1)
  let remote := cipherOf S (field e.workbuf 64) e_K nonce
  let sharedkey := (S.dhServer remote e.secretkey nonce).getD junk
  ({ e with remote := remote }, macOf S e.workbuf sz sharedkey = field e.workbuf 0)

/-- `gen_introack`. -/
def genIntroack (sz : ℕ) (e : Handshake) : Handshake :=
  let nonce := field e.workbuf 32
  let sharedkey := (S.dhServer e.remote e.secretkey nonce).getD junk
  let buf := cipherAt S (writeAt e.workbuf 64 e.token.1) 64 sharedkey nonce
  { e with workbuf := writeAt buf 0 (macOf S buf sz sharedkey).1 }

/-- `verify_introack`. -/
def verifyIntroack (sz : ℕ) (e : Handshake) : Handshake × Bool :=
  let nonce := field e.workbuf 32
  let sharedkey := (S.dhClient e.remote e.secretkey nonce).getD junk
  if macOf S e.workbuf sz sharedkey ≠ field e.workbuf 0 then (e, false)
  else
    let buf := cipherAt S e.workbuf 64 sharedkey nonce
    ({ e with workbuf := buf, token := field buf 64 }, true)

/-- `gen_session_start`. -/
def genSessionStart (sz : ℕ) (e : Handshake) : Handshake :=
  let N := field e.workbuf 32
  let T := S.shorthash (e.token.1 ++ N.1)
  let e_K := (S.dhClient e.remote e.secretkey N).getD junk
  let K := (S.dhClient e.remote e.secretkey T).getD e.sessionkey
  let buf := cipherAt S (writeAt e.workbuf 64 e.token.1) 64 e_K N
  { e with workbuf := writeAt buf 0 (macOf S buf sz e_K).1, sessionkey := K }

/-- `verify_session_start`. -/
def verifySessionStart (sz : ℕ) (e : Handshake) : Handshake × Bool :=
  let N := field e.workbuf 32
  let e_K := (S.dhServer e.remote e.secretkey N).getD junk
  if macOf S e.workbuf sz e_K = field e.workbuf 0 then
    let buf := cipherAt S e.workbuf 64 e_K N
    if field buf 64 = e.token then
      let T := S.shorthash (e.token.1 ++ N.1)
      let K := (S.dhServer e.remote e.secretkey T).getD e.sessionkey
      ({ e with workbuf := buf, sessionkey := K }, true)
    else ({ e with workbuf := buf }, false)
  else (e, false)

/-! ### The session -/

/-- The first `sz` bytes of the work buffer, as they are sent. -/
def packet (sz : ℕ) (e : Handshake) : Bytes := slice e.workbuf.1 0 sz

/-- `introduce` with random bytes `w0` and `nonce`, up to the packet that is sent. -/
def introduce (pub : Blob 32) (w0 : Padding) (nonce : Blob 32) (e : Handshake) :
    Handshake × Bytes :=
  let sz := 96 + w0.1.length
  let e := genIntro S junk sz
    { e with remote := pub, workbuf := writeAt (writeAt e.workbuf 96 w0.1) 32 nonce.1 }
  (e, e.packet sz)

/-- `on_intro`; `none` is a packet that is too big. -/
def onIntro (buf : Bytes) (e : Handshake) : Option (Handshake × Bool) :=
  if buf.length ≥ 256 then none
  else some (verifyIntro S junk buf.length { e with workbuf := writeAt e.workbuf 0 buf })

/-- `intro_ack`. -/
def introAck (w1 : Padding) (nonce : Blob 32) (e : Handshake) : Handshake × Bytes :=
  let sz := 96 + w1.1.length
  let e := genIntroack S junk sz
    { e with workbuf := writeAt (writeAt e.workbuf 96 w1.1) 32 nonce.1 }
  (e, e.packet sz)

/-- `on_intro_ack`. -/
def onIntroAck (buf : Bytes) (e : Handshake) : Option (Handshake × Bool) :=
  if buf.length ≥ 256 then none
  else some (verifyIntroack S junk buf.length { e with workbuf := writeAt e.workbuf 0 buf })

/-- `session_start`. -/
def sessionStart (nonce : Blob 32) (w2 : Padding) (e : Handshake) : Handshake × Bytes :=
  let sz := 96 + w2.1.length
  let e := genSessionStart S junk sz
    { e with workbuf :=
        writeAt (writeAt (writeAt e.workbuf 32 nonce.1) 64 e.token.1) 96 w2.1 }
  (e, e.packet sz)

/-- `on_session_start`. -/
def onSessionStart (buf : Bytes) (e : Handshake) : Option (Handshake × Bool) :=
  if buf.length > 256 then none
  else some (verifySessionStart S junk buf.length { e with workbuf := writeAt e.workbuf 0 buf })

/-! ### The work buffer -/

/-- The work buffer starts with a packet of a MAC, a nonce, an encrypted field and padding. -/
def Holds (buf : Blob 256) (h n x : Blob 32) (w : Bytes) : Prop :=
  ∃ rest, buf.1 = h.1 ++ (n.1 ++ (x.1 ++ (w ++ rest)))

section Layout

variable {buf : Blob 256} {h n x y : Blob 32} {w : Bytes}

lemma writeAt_val {k : ℕ} {dst : Blob k} {off : ℕ} {src : Bytes} (hlen : off + src.length ≤ k) :
    (writeAt dst off src).1 = memcpy dst.1 off src := by
  have hmem : (memcpy dst.1 off src).length = k := by
    rw [memcpy_length (by rw [dst.2]; exact hlen), dst.2]
  rw [writeAt, sliceBlob_val, slice_eq_take (by omega), List.drop_zero,
    List.take_of_length_le (by omega)]

lemma Holds.mac (hb : Holds buf h n x w) : field buf 0 = h := by
  obtain ⟨rest, hb⟩ := hb
  refine Subtype.ext ?_
  rw [sliceBlob_val, hb]
  exact slice_head h.2

lemma Holds.nonce (hb : Holds buf h n x w) : field buf 32 = n := by
  obtain ⟨rest, hb⟩ := hb
  refine Subtype.ext ?_
  rw [sliceBlob_val, hb]
  exact slice_mid h.2 n.2

lemma Holds.cipher (hb : Holds buf h n x w) : field buf 64 = x := by
  obtain ⟨rest, hb⟩ := hb
  refine Subtype.ext ?_
  rw [sliceBlob_val, hb, ← List.append_assoc]
  exact slice_mid (by simp) x.2

/-- What the MAC covers. -/
lemma Holds.macOf (hb : Holds buf h n x w) (hw : w.length ≤ 160) (S : Sodium) (key : Blob 32) :
    macOf S buf (96 + w.length) key = S.hmac (n.1 ++ (x.1 ++ w)) key := by
  obtain ⟨rest, hb⟩ := hb
  have hassoc : h.1 ++ (n.1 ++ (x.1 ++ (w ++ rest))) = h.1 ++ ((n.1 ++ (x.1 ++ w)) ++ rest) := by
    simp
  rw [Handshake.macOf, usub_eq (by omega) (by omega), hb, hassoc, slice_mid h.2]
  simp
  omega

lemma Holds.packet {e : Handshake} (hb : Holds e.workbuf h n x w) :
    e.packet (96 + w.length) = h.1 ++ (n.1 ++ (x.1 ++ w)) := by
  obtain ⟨rest, hb⟩ := hb
  have hassoc : h.1 ++ (n.1 ++ (x.1 ++ (w ++ rest))) = (h.1 ++ (n.1 ++ (x.1 ++ w))) ++ rest := by
    simp
  rw [Handshake.packet, hb, hassoc, slice_head]
  simp
  omega

lemma Holds.writeMac (hb : Holds buf h n x w) (y : Blob 32) :
    Holds (writeAt buf 0 y.1) y n x w := by
  obtain ⟨rest, hb⟩ := hb
  refine ⟨rest, ?_⟩
  rw [writeAt_val (by simp), hb]
  exact memcpy_at (a := []) rfl (by simp)

lemma Holds.writeNonce (hb : Holds buf h n x w) (y : Blob 32) :
    Holds (writeAt buf 32 y.1) h y x w := by
  obtain ⟨rest, hb⟩ := hb
  refine ⟨rest, ?_⟩
  rw [writeAt_val (by simp), hb]
  exact memcpy_at h.2 (by simp)

lemma Holds.writeCipher (hb : Holds buf h n x w) (y : Blob 32) :
    Holds (writeAt buf 64 y.1) h n y w := by
  obtain ⟨rest, hb⟩ := hb
  refine ⟨rest, ?_⟩
  rw [writeAt_val (by simp), hb, ← List.append_assoc, memcpy_at (by simp) (by simp),
    List.append_assoc]

/-- The cipher on the encrypted field. -/
lemma Holds.cipherAt (hb : Holds buf h n x w) (S : Sodium) (key nonce : Blob 32) :
    Holds (cipherAt S buf 64 key nonce) h n (cipherOf S x key nonce) w := by
  rw [Handshake.cipherAt, hb.cipher]
  exact hb.writeCipher _

/-- Any work buffer, without padding. -/
lemma holds_self (buf : Blob 256) :
    Holds buf (field buf 0) (field buf 32) (field buf 64) [] := by
  refine ⟨buf.1.drop 96, ?_⟩
  have hlen : buf.1.length = 256 := buf.2
  simp only [sliceBlob_val, List.nil_append]
  rw [slice_eq_take (by omega), slice_eq_take (by omega), slice_eq_take (by omega), List.drop_zero]
  have hcut : ∀ k, buf.1.drop k = (buf.1.drop k).take 32 ++ buf.1.drop (k + 32) := fun k => by
    rw [← List.drop_drop, List.take_append_drop]
  calc buf.1
      = buf.1.take 32 ++ buf.1.drop 32 := hcut 0
    _ = buf.1.take 32 ++ ((buf.1.drop 32).take 32 ++ buf.1.drop 64) := congrArg _ (hcut 32)
    _ = buf.1.take 32 ++ ((buf.1.drop 32).take 32 ++ ((buf.1.drop 64).take 32 ++
          buf.1.drop 96)) := congrArg (fun r => _ ++ (_ ++ r)) (hcut 64)

lemma Holds.writePad (hb : Holds buf h n x w) {w' : Bytes} (hw : w'.length ≤ 160) :
    Holds (writeAt buf 96 w') h n x w' := by
  obtain ⟨rest, hb⟩ := hb
  have hassoc : h.1 ++ (n.1 ++ (x.1 ++ (w ++ rest))) =
      (h.1 ++ (n.1 ++ x.1)) ++ (w ++ rest) := by simp
  refine ⟨(h.1 ++ (n.1 ++ (x.1 ++ (w ++ rest)))).drop (96 + w'.length), ?_⟩
  rw [writeAt_val (by omega), memcpy, hb]
  conv_lhs => rw [hassoc, List.take_left' (by simp)]
  simp only [List.append_assoc]

/-- A packet that was received. -/
lemma holds_received (buf : Blob 256) (hw : w.length ≤ 160) :
    Holds (writeAt buf 0 (h.1 ++ (n.1 ++ (x.1 ++ w)))) h n x w := by
  refine ⟨buf.1.drop (0 + (h.1 ++ (n.1 ++ (x.1 ++ w))).length), ?_⟩
  rw [writeAt_val (by simp; omega), memcpy]
  simp

end Layout

/-! ### What the jobs compute -/

section Jobs

variable {S : Sodium} (junk : Blob 32) {e : Handshake} {h n x key : Blob 32} {w : Bytes}

lemma cipherOf_cipherOf (plain key nonce : Blob 32) :
    cipherOf S (cipherOf S plain key nonce) key nonce = plain :=
  Subtype.ext (S.xchacha20_xchacha20 plain.1 key nonce.1)

/-- The MAC of a packet. -/
def macOver (S : Sodium) (key n x : Blob 32) (w : Bytes) : Blob 32 :=
  S.hmac (n.1 ++ (x.1 ++ w)) key

/-- What the three generating jobs do: they encrypt a field and put the MAC in front. -/
lemma Holds.sealed (hb : Holds e.workbuf h n x w) (hw : w.length ≤ 160) (plain k : Blob 32) :
    let buf := Handshake.cipherAt S (writeAt e.workbuf 64 plain.1) 64 k n
    let c := cipherOf S plain k n
    Holds (writeAt buf 0 (Handshake.macOf S buf (96 + w.length) key).1) (macOver S key n c w) n c
      w := by
  intro buf c
  have hc : Holds buf h n c w := (hb.writeCipher plain).cipherAt S k n
  rw [hc.macOf hw]
  exact hc.writeMac _

/-- `gen_intro` sends our key under the key of the responder. -/
lemma genIntro_holds (hb : Holds e.workbuf h n x w) (hw : w.length ≤ 160)
    (hk : S.dhClient e.remote e.secretkey n = some key) :
    let c := cipherOf S e.secretkey.toPublic (S.shorthash (e.remote.1 ++ n.1)) n
    Holds (genIntro S junk (96 + w.length) e).workbuf (macOver S key n c w) n c w := by
  intro c
  simp only [genIntro, hb.nonce, hk, Option.getD_some]
  exact hb.sealed hw e.secretkey.toPublic (S.shorthash (e.remote.1 ++ n.1))

/-- `verify_intro` accepts what carries the MAC of the key it finds. -/
lemma verifyIntro_eq (hb : Holds e.workbuf (macOver S key n x w) n x w) (hw : w.length ≤ 160) :
    let remote := cipherOf S x (S.shorthash (e.secretkey.toPublic.1 ++ n.1)) n
    S.dhServer remote e.secretkey n = some key →
    verifyIntro S junk (96 + w.length) e = ({ e with remote := remote }, true) := by
  intro remote hk
  simp only [verifyIntro, hb.nonce, hb.cipher, hb.mac]
  rw [hk, Option.getD_some, hb.macOf hw, decide_eq_true (by rfl)]

/-- `gen_introack` sends the token under the shared key. -/
lemma genIntroack_holds (hb : Holds e.workbuf h n x w) (hw : w.length ≤ 160)
    (hk : S.dhServer e.remote e.secretkey n = some key) :
    let c := cipherOf S e.token key n
    Holds (genIntroack S junk (96 + w.length) e).workbuf (macOver S key n c w) n c w := by
  intro c
  simp only [genIntroack, hb.nonce, hk, Option.getD_some]
  exact hb.sealed hw e.token key

/-- `verify_introack` takes the token from a packet with the right MAC. -/
lemma verifyIntroack_eq (hb : Holds e.workbuf (macOver S key n x w) n x w) (hw : w.length ≤ 160)
    (hk : S.dhClient e.remote e.secretkey n = some key) :
    verifyIntroack S junk (96 + w.length) e =
      ({ e with workbuf := cipherAt S e.workbuf 64 key n, token := cipherOf S x key n },
        true) := by
  have hc := hb.cipherAt S key n
  simp only [verifyIntroack, hb.nonce, hb.mac, hk, Option.getD_some]
  rw [hb.macOf hw, if_neg (by simp [macOver]), hc.cipher]

/-- `gen_session_start` sends the token back and derives the session key. -/
lemma genSessionStart_holds (hb : Holds e.workbuf h n x w) (hw : w.length ≤ 160)
    (hk : S.dhClient e.remote e.secretkey n = some key) :
    let c := cipherOf S e.token key n
    Holds (genSessionStart S junk (96 + w.length) e).workbuf (macOver S key n c w) n c w := by
  intro c
  simp only [genSessionStart, hb.nonce, hk, Option.getD_some]
  exact hb.sealed hw e.token key

/-- `verify_session_start` on a packet, with the key of a successful exchange. -/
lemma verifySessionStart_of_holds (hb : Holds e.workbuf h n x w) (hw : w.length ≤ 160)
    (hk : S.dhServer e.remote e.secretkey n = some key) :
    verifySessionStart S junk (96 + w.length) e =
      if macOver S key n x w = h then
        if cipherOf S x key n = e.token then
          ({ e with
              workbuf := cipherAt S e.workbuf 64 key n
              sessionkey := (S.dhServer e.remote e.secretkey
                (S.shorthash (e.token.1 ++ n.1))).getD e.sessionkey }, true)
        else ({ e with workbuf := cipherAt S e.workbuf 64 key n }, false)
      else (e, false) := by
  have hc := hb.cipherAt S key n
  simp only [verifySessionStart, hb.nonce, hb.mac, hk, Option.getD_some]
  rw [hb.macOf hw, hc.cipher]
  rfl

/-- `verify_session_start` accepts a packet with the right MAC that carries our token. -/
lemma verifySessionStart_eq (hb : Holds e.workbuf (macOver S key n x w) n x w)
    (hw : w.length ≤ 160) (hk : S.dhServer e.remote e.secretkey n = some key)
    (hx : cipherOf S x key n = e.token) :
    verifySessionStart S junk (96 + w.length) e =
      ({ e with
          workbuf := cipherAt S e.workbuf 64 key n
          sessionkey := (S.dhServer e.remote e.secretkey
            (S.shorthash (e.token.1 ++ n.1))).getD e.sessionkey }, true) := by
  rw [verifySessionStart_of_holds junk hb hw hk, if_pos (by rfl), if_pos hx]

end Jobs

/-! ### The packets -/

section Packets

variable {S : Sodium} (junk : Blob 32) {e : Handshake} {key : Blob 32}

/-- The packet of `introduce`, and what stays of the session. -/
lemma introduce_eq (pub : Blob 32) (w0 : Padding) (nonce : Blob 32)
    (hk : S.dhClient pub e.secretkey nonce = some key) :
    let c := cipherOf S e.secretkey.toPublic (S.shorthash (pub.1 ++ nonce.1)) nonce
    (introduce S junk pub w0 nonce e).2 =
        (macOver S key nonce c w0.1).1 ++ (nonce.1 ++ (c.1 ++ w0.1)) ∧
      (introduce S junk pub w0 nonce e).1.secretkey = e.secretkey ∧
      (introduce S junk pub w0 nonce e).1.remote = pub := by
  intro c
  have hb := ((holds_self e.workbuf).writePad w0.fits).writeNonce nonce
  have hsent := genIntro_holds junk (e := { e with
    remote := pub, workbuf := writeAt (writeAt e.workbuf 96 w0.1) 32 nonce.1 }) hb w0.fits hk
  exact ⟨hsent.packet, rfl, rfl⟩

/-- The packet of `intro_ack`, and what stays of the session. -/
lemma introAck_eq (w1 : Padding) (nonce : Blob 32)
    (hk : S.dhServer e.remote e.secretkey nonce = some key) :
    let c := cipherOf S e.token key nonce
    (introAck S junk w1 nonce e).2 =
        (macOver S key nonce c w1.1).1 ++ (nonce.1 ++ (c.1 ++ w1.1)) ∧
      (introAck S junk w1 nonce e).1.secretkey = e.secretkey ∧
      (introAck S junk w1 nonce e).1.remote = e.remote ∧
      (introAck S junk w1 nonce e).1.token = e.token := by
  intro c
  have hb := ((holds_self e.workbuf).writePad w1.fits).writeNonce nonce
  have hsent := genIntroack_holds junk (e := { e with
    workbuf := writeAt (writeAt e.workbuf 96 w1.1) 32 nonce.1 }) hb w1.fits hk
  exact ⟨hsent.packet, rfl, rfl, rfl⟩

/-- The packet of `session_start`, and the session key. -/
lemma sessionStart_eq (nonce : Blob 32) (w2 : Padding)
    (hk : S.dhClient e.remote e.secretkey nonce = some key) :
    let c := cipherOf S e.token key nonce
    (sessionStart S junk nonce w2 e).2 =
        (macOver S key nonce c w2.1).1 ++ (nonce.1 ++ (c.1 ++ w2.1)) ∧
      (sessionStart S junk nonce w2 e).1.sessionkey =
        (S.dhClient e.remote e.secretkey (S.shorthash (e.token.1 ++ nonce.1))).getD
          e.sessionkey := by
  intro c
  have hb := (((holds_self e.workbuf).writeNonce nonce).writeCipher e.token).writePad w2.fits
  have hsent := genSessionStart_holds junk (e := { e with
    workbuf := writeAt (writeAt (writeAt e.workbuf 32 nonce.1) 64 e.token.1) 96 w2.1 })
    hb w2.fits hk
  refine ⟨hsent.packet, ?_⟩
  simp only [sessionStart, genSessionStart, hb.nonce]

/-- A packet is never too big for the work buffer. -/
lemma packet_length (h n x : Blob 32) (w : Padding) :
    (h.1 ++ (n.1 ++ (x.1 ++ w.1))).length = 96 + w.1.length ∧
      (h.1 ++ (n.1 ++ (x.1 ++ w.1))).length < 256 := by
  have hw : w.1.length < 128 := w.2
  simp only [List.length_append, List.Vector.length_val]
  omega

/-- The responder accepts an introduction and learns the key in it. -/
lemma onIntro_accepts (n : Blob 32) (w : Padding) (pub : Blob 32)
    (hk : S.dhServer pub e.secretkey n = some key) :
    let x := cipherOf S pub (S.shorthash (e.secretkey.toPublic.1 ++ n.1)) n
    ∃ e', onIntro S junk ((macOver S key n x w.1).1 ++ (n.1 ++ (x.1 ++ w.1))) e =
        some (e', true) ∧
      e'.secretkey = e.secretkey ∧ e'.token = e.token ∧ e'.remote = pub := by
  intro x
  obtain ⟨hlen, hlt⟩ := packet_length (macOver S key n x w.1) n x w
  have hb := holds_received (h := macOver S key n x w.1) (n := n) (x := x) e.workbuf w.fits
  have hpub : cipherOf S x (S.shorthash (e.secretkey.toPublic.1 ++ n.1)) n = pub :=
    cipherOf_cipherOf _ _ _
  have hv := verifyIntro_eq junk (e := { e with workbuf := writeAt e.workbuf 0 _ }) hb w.fits
    (by rw [hpub]; exact hk)
  rw [onIntro, if_neg (by omega), hlen, hv]
  exact ⟨_, rfl, rfl, rfl, hpub⟩

/-- The initiator accepts an acknowledgement and learns the token in it. -/
lemma onIntroAck_accepts (n : Blob 32) (w : Padding) (token : Blob 32)
    (hk : S.dhClient e.remote e.secretkey n = some key) :
    let x := cipherOf S token key n
    ∃ e', onIntroAck S junk ((macOver S key n x w.1).1 ++ (n.1 ++ (x.1 ++ w.1))) e =
        some (e', true) ∧
      e'.secretkey = e.secretkey ∧ e'.remote = e.remote ∧ e'.token = token := by
  intro x
  obtain ⟨hlen, hlt⟩ := packet_length (macOver S key n x w.1) n x w
  have hb := holds_received (h := macOver S key n x w.1) (n := n) (x := x) e.workbuf w.fits
  have hv := verifyIntroack_eq junk (e := { e with workbuf := writeAt e.workbuf 0 _ }) hb w.fits hk
  rw [onIntroAck, if_neg (by omega), hlen, hv]
  exact ⟨_, rfl, rfl, rfl, cipherOf_cipherOf _ _ _⟩

/-- The responder accepts a session start that carries its token. -/
lemma onSessionStart_accepts (n : Blob 32) (w : Padding)
    (hk : S.dhServer e.remote e.secretkey n = some key) :
    let x := cipherOf S e.token key n
    ∃ e', onSessionStart S junk ((macOver S key n x w.1).1 ++ (n.1 ++ (x.1 ++ w.1))) e =
        some (e', true) ∧
      e'.remote = e.remote ∧
      e'.sessionkey = (S.dhServer e.remote e.secretkey
        (S.shorthash (e.token.1 ++ n.1))).getD e.sessionkey := by
  intro x
  obtain ⟨hlen, hlt⟩ := packet_length (macOver S key n x w.1) n x w
  have hb := holds_received (h := macOver S key n x w.1) (n := n) (x := x) e.workbuf w.fits
  have hv := verifySessionStart_eq junk (e := { e with workbuf := writeAt e.workbuf 0 _ }) hb w.fits
    hk (cipherOf_cipherOf _ _ _)
  rw [onSessionStart, if_neg (by omega), hlen, hv]
  exact ⟨_, rfl, rfl, rfl⟩

end Packets

/-- **Handshake agreement**: the three packets are accepted, the responder has the transport key
of the initiator, the initiator has the token of the responder, and both have the same session
key. -/
theorem handshake_agreement (S : Sodium) (a b : Blob 32) (hdh : S.Agree a b) (A B : Handshake)
    (hA : A.secretkey = S.enckeygen a) (hB : B.secretkey = S.enckeygen b) (n0 n1 n2 : Blob 32)
    (w0 w1 w2 : Padding) (junk : Fin 6 → Blob 32) :
    let A₁ := A.introduce S (junk 0) B.secretkey.toPublic w0 n0
    ∃ B₁, B.onIntro S (junk 1) A₁.2 = some (B₁, true) ∧
      let B₂ := B₁.introAck S (junk 2) w1 n1
      ∃ A₂, A₁.1.onIntroAck S (junk 3) B₂.2 = some (A₂, true) ∧
        let A₃ := A₂.sessionStart S (junk 4) n2 w2
        ∃ B₃, B₂.1.onSessionStart S (junk 5) A₃.2 = some (B₃, true) ∧
          B₃.remote = A.secretkey.toPublic ∧ A₃.1.token = B.token ∧
          A₃.1.sessionkey = B₃.sessionkey := by
  intro A₁
  obtain ⟨key, hclient, hserver⟩ := S.dhClient_eq_dhServer hdh
  have hpubA : A.secretkey.toPublic = S.scalarmultBase a := by rw [hA, S.enckeygen_toPublic]
  have hpubB : B.secretkey.toPublic = S.scalarmultBase b := by rw [hB, S.enckeygen_toPublic]
  -- the introduction
  obtain ⟨hp₁, hsk₁, hrem₁⟩ := introduce_eq (junk 0) (e := A) B.secretkey.toPublic w0 n0
    (by rw [hpubB, hA]; exact hclient n0)
  obtain ⟨B₁, hB₁, hskB, htokB, hremB⟩ := onIntro_accepts (junk 1) (e := B) n0 w0
    A.secretkey.toPublic (by rw [hpubA, hB]; exact hserver n0)
  refine ⟨B₁, by rw [hp₁]; exact hB₁, ?_⟩
  intro B₂
  -- the acknowledgement
  obtain ⟨hp₂, hskB₂, hremB₂, htokB₂⟩ := introAck_eq (junk 2) (e := B₁) w1 n1
    (by rw [hremB, hskB, hpubA, hB]; exact hserver n1)
  obtain ⟨A₂, hA₂, hskA₂, hremA₂, htokA₂⟩ := onIntroAck_accepts (junk 3) (e := A₁.1) n1 w1
    B₁.token (by rw [hsk₁, hrem₁, hpubB, hA]; exact hclient n1)
  refine ⟨A₂, by rw [hp₂]; exact hA₂, ?_⟩
  intro A₃
  -- the session start
  have hremA : A₂.remote = S.scalarmultBase b := by rw [hremA₂, hrem₁, hpubB]
  have hskA : A₂.secretkey = S.enckeygen a := by rw [hskA₂, hsk₁, hA]
  have hremB' : B₂.1.remote = S.scalarmultBase a := by rw [hremB₂, hremB, hpubA]
  have hskB' : B₂.1.secretkey = S.enckeygen b := by rw [hskB₂, hskB, hB]
  have htok : A₂.token = B₂.1.token := by rw [htokA₂, htokB₂]
  obtain ⟨hp₃, hkeyA⟩ := sessionStart_eq (junk 4) (e := A₂) n2 w2
    (by rw [hremA, hskA]; exact hclient n2)
  obtain ⟨B₃, hB₃, hremB₃, hkeyB⟩ := onSessionStart_accepts (junk 5) (e := B₂.1) n2 w2
    (by rw [hremB', hskB']; exact hserver n2)
  refine ⟨B₃, by rw [hp₃, htok]; exact hB₃, by rw [hremB₃, hremB', hpubA], ?_, ?_⟩
  · change A₂.token = B.token
    rw [htok, htokB₂, htokB]
  · rw [hkeyA, hkeyB, htok, hremA, hskA, hremB', hskB', hclient, hserver]
    rfl

/-! ### Two keys -/

section Keys

/-- The secrets of two ends. -/
def aliceSeed : Blob 32 := ⟨(List.range 32).map UInt8.ofNat, rfl⟩
def bobSeed : Blob 32 := ⟨(List.range 32).map fun i => UInt8.ofNat (32 + i), rfl⟩

/-- Their public keys on curve25519. -/
def alicePub : Blob 32 :=
  ⟨[0x8f, 0x40, 0xc5, 0xad, 0xb6, 0x8f, 0x25, 0x62, 0x4a, 0xe5, 0xb2, 0x14, 0xea, 0x76, 0x7a,
    0x6e, 0xc9, 0x4d, 0x82, 0x9d, 0x3d, 0x7b, 0x5e, 0x1a, 0xd1, 0xba, 0x6f, 0x3e, 0x21, 0x38,
    0x28, 0x5f], rfl⟩
def bobPub : Blob 32 :=
  ⟨[0x35, 0x80, 0x72, 0xd6, 0x36, 0x58, 0x80, 0xd1, 0xae, 0xea, 0x32, 0x9a, 0xdf, 0x91, 0x21,
    0x38, 0x38, 0x51, 0xed, 0x21, 0xa2, 0x8e, 0x3b, 0x75, 0xe9, 0x65, 0xd0, 0xd2, 0xcd, 0x16,
    0x62, 0x54], rfl⟩

/-- The point they agree on. -/
def sharedPoint : Blob 32 :=
  ⟨[0x96, 0x63, 0xaa, 0x1d, 0xa9, 0x7e, 0x84, 0x8a, 0x91, 0x4a, 0x43, 0x6d, 0x04, 0x16, 0x3d,
    0xfb, 0xb8, 0x91, 0x78, 0xf1, 0x07, 0xf1, 0xb5, 0xb7, 0x7e, 0xd3, 0x85, 0x42, 0x03, 0x38,
    0x28, 0x54], rfl⟩

/-- The scalar multiplication on these keys; the hash and the key stream do not matter here. -/
def twoKeys : Sodium where
  scalarmult s p :=
    if s = aliceSeed ∧ p = bobPub ∨ s = bobSeed ∧ p = alicePub then some sharedPoint else none
  scalarmultBase s := if s = aliceSeed then alicePub else bobPub
  generichash _ _ := List.Vector.replicate 32 0
  stream _ _ _ := 0

lemma twoKeys_agree : twoKeys.Agree aliceSeed bobSeed := ⟨sharedPoint, by decide, by decide⟩

/-- An end before the handshake. -/
def freshEnd (seed : Blob 32) (token : UInt8) : Handshake where
  secretkey := twoKeys.enckeygen seed
  remote := List.Vector.replicate 32 0
  token := List.Vector.replicate 32 token
  sessionkey := List.Vector.replicate 32 0
  workbuf := List.Vector.replicate 256 0

/-- A handshake without padding. -/
theorem handshake_agreement_twoKeys :
    let A := freshEnd aliceSeed 1
    let B := freshEnd bobSeed 2
    let nonce : Blob 32 := List.Vector.replicate 32 7
    let A₁ := A.introduce twoKeys nonce B.secretkey.toPublic ⟨[], by decide⟩ nonce
    ∃ B₁, B.onIntro twoKeys nonce A₁.2 = some (B₁, true) ∧
      let B₂ := B₁.introAck twoKeys nonce ⟨[], by decide⟩ nonce
      ∃ A₂, A₁.1.onIntroAck twoKeys nonce B₂.2 = some (A₂, true) ∧
        let A₃ := A₂.sessionStart twoKeys nonce nonce ⟨[], by decide⟩
        ∃ B₃, B₂.1.onSessionStart twoKeys nonce A₃.2 = some (B₃, true) ∧
          B₃.remote = A.secretkey.toPublic ∧ A₃.1.token = B.token ∧
          A₃.1.sessionkey = B₃.sessionkey :=
  handshake_agreement twoKeys aliceSeed bobSeed twoKeys_agree (freshEnd aliceSeed 1)
    (freshEnd bobSeed 2) rfl rfl _ _ _ ⟨[], by decide⟩ ⟨[], by decide⟩ ⟨[], by decide⟩
    fun _ => List.Vector.replicate 32 7

end Keys

end Handshake

end Udap.Iwp
