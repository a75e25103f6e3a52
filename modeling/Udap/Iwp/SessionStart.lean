import Udap.Iwp.Handshake

/-!
Which session starts are genuine, and what a failed key exchange does to the verification jobs.

* `exists_packet`: a packet that fits the work buffer, cut into its fields.
* `sessionStart_genuine_iff`: with a successful key exchange a session start is accepted exactly if
  the owner of the stored key could have generated it, and then both have the same session key.
* `rejecting_iff`: with a failed one the jobs go on with memory that nobody wrote, so that they
  reject exactly the packets that no key makes acceptable.
-/

namespace Udap.Iwp

open ByteMem

namespace Handshake

/-! ### Genuine packets -/

section Genuine

variable {S : Sodium} {e g : Handshake} {h n x key : Blob 32} {w p : Bytes}

/-- A packet of a MAC, a nonce and an encrypted field, with padding. -/
lemma exists_packet (hmin : 96 ≤ p.length) : ∃ h n x : Blob 32,
    p = h.1 ++ (n.1 ++ (x.1 ++ p.drop 96)) ∧ n = sliceBlob p 32 32 := by
  have hfield : ∀ k, k + 32 ≤ p.length →
      slice p k 32 ++ p.drop (k + 32) = p.drop k := fun k hk => by
    rw [slice_eq_take hk, ← List.drop_drop, List.take_append_drop]
  refine ⟨sliceBlob p 0 32, sliceBlob p 32 32, sliceBlob p 64 32, ?_, rfl⟩
  simp only [sliceBlob_val]
  rw [hfield 64 (by omega), hfield 32 (by omega), hfield 0 (by omega), List.drop_zero]

/-- The state in which the owner of `sk` generates a session start for the responder `e` with the
nonce and the padding of `p`. -/
def starting (sk : SecretKey) (e : Handshake) (p : Bytes) (g : Handshake) : Handshake :=
  { g with
    secretkey := sk
    remote := e.secretkey.toPublic
    token := e.token
    workbuf := writeAt (writeAt (writeAt g.workbuf 32 (sliceBlob p 32 32).1) 64 e.token.1) 96
      (p.drop 96) }

/-- What `gen_session_start` makes of it: the packet, and the session key. -/
lemma genSessionStart_starting (junk : Blob 32) {sk : SecretKey} (g : Handshake)
    (hw : (p.drop 96).length ≤ 160) {key : Blob 32 → Blob 32}
    (hk : ∀ n, S.dhClient e.secretkey.toPublic sk n = some (key n)) :
    let n := sliceBlob p 32 32
    let c := cipherOf S e.token (key n) n
    (genSessionStart S junk (96 + (p.drop 96).length) (starting sk e p g)).packet
        (96 + (p.drop 96).length) =
        (macOver S (key n) n c (p.drop 96)).1 ++ (n.1 ++ (c.1 ++ p.drop 96)) ∧
      (genSessionStart S junk (96 + (p.drop 96).length) (starting sk e p g)).sessionkey =
        key (S.shorthash (e.token.1 ++ n.1)) := by
  intro n c
  have hb : Holds (starting sk e p g).workbuf (field g.workbuf 0) n e.token (p.drop 96) :=
    (((holds_self g.workbuf).writeNonce n).writeCipher e.token).writePad hw
  refine ⟨(genSessionStart_holds junk hb hw (hk n)).packet, ?_⟩
  simp only [genSessionStart, hb.nonce]
  rw [show (starting sk e p g).remote = e.secretkey.toPublic from rfl,
    show (starting sk e p g).secretkey = sk from rfl, hk, Option.getD_some]
  rfl

/-- **A session start is accepted exactly if it is genuine.** For every packet that fits the work
buffer and every state of the responder whose key exchange with the owner of the stored key
succeeds: `verify_session_start` accepts the packet if and only if it is what `gen_session_start`
produces for that owner from the nonce and the padding of the packet and the token of the
responder. Both have the same session key then, and otherwise the responder keeps what it had. -/
theorem sessionStart_genuine_iff (S : Sodium) (junk junk' : Blob 32) (sk : SecretKey)
    (e g : Handshake) (p : Bytes) (hmin : 96 ≤ p.length) (hmax : p.length ≤ 256)
    (hpub : sk.toPublic = e.remote) (hdh : S.AgreeOn sk e.secretkey) :
    let sent := genSessionStart S junk' p.length (starting sk e p g)
    ∃ e' ok, onSessionStart S junk p e = some (e', ok) ∧
      (ok = true ↔ p = sent.packet p.length) ∧
      (ok = true → e'.sessionkey = sent.sessionkey) ∧
      (ok = false → e'.sessionkey = e.sessionkey ∧ e'.token = e.token) := by
  obtain ⟨key, hclient, hserver⟩ := hdh.dhClient_eq_dhServer
  rw [hpub] at hserver
  obtain ⟨h, n, x, hp, hn⟩ := exists_packet hmin
  have hlen : p.length = 96 + (p.drop 96).length := by
    rw [List.length_drop]
    omega
  have hw : (p.drop 96).length ≤ 160 := by omega
  obtain ⟨hpacket, hkey⟩ := @genSessionStart_starting S e p junk' sk g hw _ hclient
  rw [← hn, ← hlen] at hpacket hkey
  -- what the responder makes of the packet
  have hb : Holds (writeAt e.workbuf 0 p) h n x (p.drop 96) := by
    have hb := holds_received (h := h) (n := n) (x := x) e.workbuf hw
    rwa [← hp] at hb
  have hv := verifySessionStart_of_holds junk (e := { e with workbuf := writeAt e.workbuf 0 p }) hb
    hw (hserver n)
  rw [← hlen] at hv
  intro sent
  have hgenuine : p = sent.packet p.length ↔
      macOver S (key n) n x (p.drop 96) = h ∧ cipherOf S x (key n) n = e.token := by
    rw [hpacket]
    constructor
    · intro heq
      have hfields := hp.symm.trans heq
      obtain ⟨hmac, hrest⟩ := List.append_inj hfields (by simp)
      obtain ⟨-, hrest⟩ := List.append_inj hrest (by simp)
      obtain ⟨hx, -⟩ := List.append_inj hrest (by simp)
      obtain rfl := Subtype.ext hx
      exact ⟨(Subtype.ext hmac).symm, cipherOf_cipherOf _ _ _⟩
    · rintro ⟨hmac, hx⟩
      rw [← hx, cipherOf_cipherOf, hmac]
      exact hp
  refine ⟨_, _, by rw [onSessionStart, if_neg (by omega)], ?_⟩
  rw [hv, hgenuine, hkey]
  split_ifs with hmac hx
  · simp [hmac, hx, hserver]
  · simp [hx]
  · simp [hmac]

end Genuine

/-- A packet of the other end without padding. -/
theorem sessionStart_genuine_iff_twoKeys :
    let e : Handshake := { freshEnd bobSeed 2 with remote := alicePub }
    let p : Bytes := List.replicate 96 7
    let sent := genSessionStart twoKeys aliceSeed p.length
      (starting (twoKeys.enckeygen aliceSeed) e p (freshEnd aliceSeed 1))
    ∃ e' ok, onSessionStart twoKeys bobSeed p e = some (e', ok) ∧
      (ok = true ↔ p = sent.packet p.length) ∧
      (ok = true → e'.sessionkey = sent.sessionkey) ∧
      (ok = false → e'.sessionkey = e.sessionkey ∧ e'.token = e.token) :=
  sessionStart_genuine_iff twoKeys bobSeed aliceSeed (twoKeys.enckeygen aliceSeed)
    { freshEnd bobSeed 2 with remote := alicePub } (freshEnd aliceSeed 1) (List.replicate 96 7)
    (by decide) (by decide) (by rw [Sodium.enckeygen_toPublic]; rfl) twoKeys_agree.agreeOn

/-! ### Failed key exchanges -/

/-- Memory for shared secrets that nobody has written: the local variable of a job, and the session
key of a session that has none yet. -/
structure Unwritten where
  sharedkey : Blob 32
  sessionkey : Blob 32

/-- A failed key exchange rejects, and the memory that nobody has written changes neither the
verdict nor the key that an accepted packet leaves. -/
def Rejecting (exchange : Option (Blob 32)) (job : Unwritten → Handshake × Bool)
    (derived : Handshake → Blob 32) : Prop :=
  (exchange = none → ∀ m, (job m).2 = false) ∧
    ∀ m m', (job m).2 = (job m').2 ∧ ((job m).2 = true → derived (job m).1 = derived (job m').1)

/-- A job that goes on with the memory for the key where the exchange fails. -/
lemma rejecting_iff_of_getD {exchange : Option (Blob 32)} {job : Unwritten → Handshake × Bool}
    {derived : Handshake → Blob 32} {Accepts : Blob 32 → Prop}
    (hjob : ∀ m, (job m).2 = true ↔ Accepts (exchange.getD m.sharedkey))
    (hderived : ∀ key, exchange = some key → ∀ m m', (job m).2 = true →
      derived (job m).1 = derived (job m').1) :
    Rejecting exchange job derived ↔ exchange ≠ none ∨ ∀ key, ¬ Accepts key := by
  constructor
  · rintro ⟨hfail, -⟩
    refine or_iff_not_imp_left.mpr fun hnone key hacc => ?_
    have hnone := not_not.mp hnone
    have hrej := hfail hnone ⟨key, key⟩
    rw [← Bool.not_eq_true, hjob, hnone] at hrej
    exact hrej hacc
  · intro h
    cases hex : exchange with
    | none =>
        have hno : ∀ m, (job m).2 = false := fun m => by
          rw [← Bool.not_eq_true, hjob]
          exact h.resolve_left (not_not.mpr hex) _
        exact ⟨fun _ => hno, fun m m' => ⟨by rw [hno, hno], fun hacc => by simp [hno] at hacc⟩⟩
    | some key =>
        have hsame : ∀ m m', (job m).2 = (job m').2 := fun m m' => by
          rw [Bool.eq_iff_iff, hjob, hjob, hex]
          rfl
        exact ⟨nofun, fun m m' => ⟨hsame m m', hderived key hex m m'⟩⟩

section Failed

variable (S : Sodium) (sz : ℕ) (e : Handshake)

/-- The key that an intro carries. -/
def introKey : Blob 32 :=
  let nonce := field e.workbuf 32
  cipherOf S (field e.workbuf 64) (S.shorthash (e.secretkey.toPublic.1 ++ nonce.1)) nonce

/-- The key exchange of `verify_intro`. -/
def introExchange : Option (Blob 32) :=
  S.dhServer (introKey S e) e.secretkey (field e.workbuf 32)

/-- The key exchange of `verify_introack`. -/
def introackExchange : Option (Blob 32) := S.dhClient e.remote e.secretkey (field e.workbuf 32)

/-- The key exchange of `verify_session_start` for the MAC. -/
def sessionStartExchange : Option (Blob 32) := S.dhServer e.remote e.secretkey (field e.workbuf 32)

/-- The key makes the MAC of the packet right. -/
def MacRight (key : Blob 32) : Prop := macOf S e.workbuf sz key = field e.workbuf 0

/-- The key makes the MAC of the packet right, and the token of the session is what it decrypts. -/
def TokenRight (key : Blob 32) : Prop :=
  MacRight S sz e key ∧ cipherOf S (field e.workbuf 64) key (field e.workbuf 32) = e.token

/-- `verify_intro` with memory that nobody has written. -/
def introJob (m : Unwritten) : Handshake × Bool :=
  verifyIntro S m.sharedkey sz { e with sessionkey := m.sessionkey }

/-- `verify_introack` with memory that nobody has written. -/
def introackJob (m : Unwritten) : Handshake × Bool :=
  verifyIntroack S m.sharedkey sz { e with sessionkey := m.sessionkey }

/-- `verify_session_start` with memory that nobody has written. -/
def sessionStartJob (m : Unwritten) : Handshake × Bool :=
  verifySessionStart S m.sharedkey sz { e with sessionkey := m.sessionkey }

variable {S sz e}

lemma introJob_accepts (m : Unwritten) :
    (introJob S sz e m).2 = true ↔ MacRight S sz e ((introExchange S e).getD m.sharedkey) :=
  decide_eq_true_iff

lemma introackJob_eq (m : Unwritten) :
    introackJob S sz e m =
      let key := (introackExchange S e).getD m.sharedkey
      let buf := cipherAt S e.workbuf 64 key (field e.workbuf 32)
      if macOf S e.workbuf sz key ≠ field e.workbuf 0 then
        ({ e with sessionkey := m.sessionkey }, false)
      else ({ e with sessionkey := m.sessionkey, workbuf := buf, token := field buf 64 }, true) :=
  rfl

lemma introackJob_accepts (m : Unwritten) :
    (introackJob S sz e m).2 = true ↔
      MacRight S sz e ((introackExchange S e).getD m.sharedkey) := by
  rw [introackJob_eq, MacRight]
  dsimp only
  split_ifs with hmac
  · simpa using hmac
  · simpa using hmac

/-- The field that the cipher is run on. -/
lemma field_cipherAt_self (buf : Blob 256) (key nonce : Blob 32) :
    field (cipherAt S buf 64 key nonce) 64 = cipherOf S (field buf 64) key nonce :=
  ((holds_self buf).cipherAt S key nonce).cipher

lemma sessionStartJob_eq (m : Unwritten) :
    sessionStartJob S sz e m =
      let key := (sessionStartExchange S e).getD m.sharedkey
      let buf := cipherAt S e.workbuf 64 key (field e.workbuf 32)
      if macOf S e.workbuf sz key = field e.workbuf 0 then
        if cipherOf S (field e.workbuf 64) key (field e.workbuf 32) = e.token then
          ({ e with
              workbuf := buf
              sessionkey := (S.dhServer e.remote e.secretkey
                (S.shorthash (e.token.1 ++ (field e.workbuf 32).1))).getD m.sessionkey }, true)
        else ({ e with sessionkey := m.sessionkey, workbuf := buf }, false)
      else ({ e with sessionkey := m.sessionkey }, false) := by
  simp only [sessionStartJob, verifySessionStart, field_cipherAt_self]
  rfl

lemma sessionStartJob_accepts (m : Unwritten) : (sessionStartJob S sz e m).2 = true ↔
    TokenRight S sz e ((sessionStartExchange S e).getD m.sharedkey) := by
  rw [sessionStartJob_eq, TokenRight, MacRight]
  dsimp only
  split_ifs with hmac htoken
  · simp [hmac, htoken]
  · simp [htoken]
  · simp [hmac]

/-- An exchange fails for every nonce or for none. -/
lemma dhServer_of_some {pk key : Blob 32} {sk : SecretKey} {n : Blob 32}
    (h : S.dhServer pk sk n = some key) (n' : Blob 32) :
    ∃ key', S.dhServer pk sk n' = some key' := by
  obtain ⟨r, hr, -⟩ := Option.map_eq_some_iff.mp h
  exact ⟨_, Option.map_eq_some_iff.mpr ⟨r, hr, rfl⟩⟩

end Failed

/-- **A failed key exchange rejects only what no key makes acceptable.** For each of the three
verification jobs and every packet in the work buffer: a failed exchange makes the job reject the
packet, and what is in memory that nobody has written makes no difference to the verdict and the
derived key, if and only if the exchange succeeds or no key at all makes the MAC right (and, for a
session start, decrypts the token of the session). -/
theorem rejecting_iff (S : Sodium) (sz : ℕ) (e : Handshake) :
    (Rejecting (introExchange S e) (introJob S sz e) (·.remote) ↔
      introExchange S e ≠ none ∨ ∀ key, ¬ MacRight S sz e key) ∧
    (Rejecting (introackExchange S e) (introackJob S sz e) (·.token) ↔
      introackExchange S e ≠ none ∨ ∀ key, ¬ MacRight S sz e key) ∧
    (Rejecting (sessionStartExchange S e) (sessionStartJob S sz e) (·.sessionkey) ↔
      sessionStartExchange S e ≠ none ∨ ∀ key, ¬ TokenRight S sz e key) := by
  refine ⟨rejecting_iff_of_getD introJob_accepts fun _ _ _ _ _ => rfl,
    rejecting_iff_of_getD introackJob_accepts fun key hkey m m' hm => ?_,
    rejecting_iff_of_getD sessionStartJob_accepts fun key hkey m m' hm => ?_⟩
  · have hmac := (introackJob_accepts m).mp hm
    rw [hkey, Option.getD_some, MacRight] at hmac
    rw [introackJob_eq, introackJob_eq]
    simp [hkey, hmac]
  · -- the exchange for the session key succeeds too
    obtain ⟨K, hK⟩ := dhServer_of_some hkey (S.shorthash (e.token.1 ++ (field e.workbuf 32).1))
    obtain ⟨hmac, htoken⟩ := (sessionStartJob_accepts m).mp hm
    rw [hkey, Option.getD_some] at hmac htoken
    rw [MacRight] at hmac
    rw [sessionStartJob_eq, sessionStartJob_eq]
    simp only [hkey, Option.getD_some, hmac, htoken, hK, if_true]

/-! ### A low order key -/

section LowOrder

/-- The MAC of 64 bytes of zeros under a key of zeros. -/
def zeroMac : Blob 32 :=
  ⟨[0x14, 0xa7, 0xcf, 0x66, 0x1b, 0xae, 0x90, 0x65, 0xe3, 0xee, 0x20, 0x9e, 0xb5, 0x7f, 0xca,
    0x64, 0x64, 0x60, 0xeb, 0x72, 0xb4, 0xea, 0xcd, 0x9a, 0x15, 0x10, 0x8c, 0x2c, 0x5c, 0xd2,
    0x15, 0x4b], rfl⟩

/-- A scalar multiplication that fails for the point zero, and a hash that gives this MAC; the
other values do not matter here. -/
def lowOrder : Sodium where
  scalarmult _ p := if p = List.Vector.replicate 32 0 then none else some p
  scalarmultBase s := s
  generichash m k :=
    if m = List.replicate 64 0 ∧ k = List.replicate 32 0 then zeroMac
    else List.Vector.replicate 32 0
  stream _ _ _ := 0

/-- A session that has dialed the key zero, with an acknowledgement of zeros behind this MAC. -/
def dialedZero : Handshake where
  secretkey := List.Vector.replicate 64 1
  remote := List.Vector.replicate 32 0
  token := List.Vector.replicate 32 2
  sessionkey := List.Vector.replicate 32 0
  workbuf := ⟨zeroMac.1 ++ List.replicate 224 0, by
    rw [List.length_append, List.length_replicate]
    rfl⟩

/-- On a stack of zeros it is accepted. -/
theorem failed_exchange_accepted : ¬ ∀ (S : Sodium) (sz : ℕ) (e : Handshake),
    Rejecting (introExchange S e) (introJob S sz e) (·.remote) ∧
      Rejecting (introackExchange S e) (introackJob S sz e) (·.token) ∧
      Rejecting (sessionStartExchange S e) (sessionStartJob S sz e) (·.sessionkey) := by
  intro h
  have hfail : introackExchange lowOrder dialedZero = none := by decide
  have hrej := (h lowOrder 96 dialedZero).2.1.1 hfail
    ⟨List.Vector.replicate 32 0, List.Vector.replicate 32 0⟩
  have hacc : (introackJob lowOrder 96 dialedZero
      ⟨List.Vector.replicate 32 0, List.Vector.replicate 32 0⟩).2 = true := by
    rw [introackJob_accepts, hfail, MacRight]
    decide
  rw [hacc] at hrej
  cases hrej

end LowOrder

end Handshake

end Udap.Iwp
