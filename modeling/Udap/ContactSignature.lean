import Udap.ContactCodec

/-!
Signatures of router contacts: `udap_rc_sign` and `udap_rc_verify_sig`.

The signature covers the encoding of the contact with a signature of zeros, so a contact that is
sent and decoded verifies if its encoding is the same as before.

* `verifySigInPlace_eq`: the check leaves the contact as it was, and fails if it does not fit.
* `signed_verifies`: a signed contact verifies, and so does the contact that another router
  decodes from it, unless it has the time `2 ^ 64 - 1`, which the decoder takes for an error.
-/

namespace Udap.RouterContact

open ByteMem

/-- `udap::StackBuffer` over an array with the content `tmp`. -/
def stackBuffer (tmp : ℕ → UInt8) (n : ℕ) : Buffer := { mem := tmp, cur := 0, sz := n }

/-- `udap_rc_set_pubsigkey`. -/
def setPubsigkey (pubsigkey : PubKey) (rc : RouterContact) : RouterContact :=
  { rc with pubkey := pubsigkey }

/-- `udap_rc_sign`; `crypto` is `crypto_sign_detached` on the secret key and the message. -/
def sign (lib : HostLib) (crypto : Blob 64 → Bytes → Blob 64) (tmp : ℕ → UInt8)
    (seckey : Blob 64) (rc : RouterContact) : RouterContact :=
  let rc := { rc with signature := zeroBlob 64 }
  match rc.bencode lib (stackBuffer tmp maxRCSize) with
  | (signbuf, true) => { rc with signature := crypto seckey signbuf.written }
  | (_, false) => rc

/-- `udap_rc_verify_sig` on the contact itself. -/
def verifySigInPlace (lib : HostLib) (tmp : ℕ → UInt8) (rc : RouterContact) :
    RouterContact × Bool :=
  let sig := rc.signature
  let rc := { rc with signature := zeroBlob 64 }
  let result :=
    match rc.bencode lib (stackBuffer tmp maxRCSize) with
    | (buf, true) => lib.verify rc.pubkey buf.written sig
    | (_, false) => false
  ({ rc with signature := sig }, result)

variable {lib : HostLib} {tmp : ℕ → UInt8} {rc rc' : RouterContact}

/-- The bytes a signature covers. -/
def signedBytes (lib : HostLib) (rc : RouterContact) : Bytes :=
  { rc with signature := zeroBlob 64 }.encoding lib

/-- `udap_rc_bencode` into an array. -/
lemma bencode_stackBuffer (h : lib.Lawful) (rc : RouterContact) (tmp : ℕ → UInt8) (n : ℕ) :
    ((rc.bencode lib (stackBuffer tmp n)).2 = true ↔ (rc.encoding lib).length ≤ n) ∧
      ((rc.bencode lib (stackBuffer tmp n)).2 = true →
        (rc.bencode lib (stackBuffer tmp n)).1.written = rc.encoding lib) := by
  have hsure := sure_bencode h rc
  have hin : (stackBuffer tmp n).Inside := Nat.zero_le n
  refine ⟨hsure.fits_iff _ hin, fun hw => ?_⟩
  rw [(hsure.wrote _ hin hw).written]
  rfl

/-- Keys and signatures have fixed lengths. -/
lemma encoding_length (rc : RouterContact) (key : PubKey) (sig : Blob 64) :
    ({ rc with pubkey := key, signature := sig }.encoding lib).length =
      (rc.encoding lib).length := by
  have hstr : ∀ {n : ℕ} (x y : Blob n), (strBytes x.1).length = (strBytes y.1).length := by
    intro n x y
    simp only [strBytes, List.length_append, x.2, y.2]
  simp only [encoding, entryBytes, List.length_append, hstr key rc.pubkey, hstr sig rc.signature]

/-- What is done with the encoding in an array. -/
lemma match_bencode {α : Type} (h : lib.Lawful) (rc : RouterContact) (tmp : ℕ → UInt8) (n : ℕ)
    (f : Bytes → α) (x : α) :
    (match rc.bencode lib (stackBuffer tmp n) with
      | (buf, true) => f buf.written
      | (_, false) => x) = if (rc.encoding lib).length ≤ n then f (rc.encoding lib) else x := by
  obtain ⟨hiff, hwritten⟩ := bencode_stackBuffer h rc tmp n
  split
  · rename_i buf heq
    rw [heq] at hiff hwritten
    rw [if_pos (hiff.mp rfl), ← hwritten rfl]
  · rename_i buf heq
    rw [heq] at hiff
    exact (if_neg fun hle => Bool.false_ne_true (hiff.mpr hle)).symm

/-- The check leaves the contact as it was. -/
lemma verifySigInPlace_eq (h : lib.Lawful) (tmp : ℕ → UInt8) (rc : RouterContact) :
    rc.verifySigInPlace lib tmp = (rc, if (rc.encoding lib).length ≤ maxRCSize then
      lib.verify rc.pubkey (rc.signedBytes lib) rc.signature else false) := by
  have hlen : (rc.signedBytes lib).length = (rc.encoding lib).length :=
    encoding_length rc rc.pubkey (zeroBlob 64)
  have hmatch := match_bencode h { rc with signature := zeroBlob 64 } tmp maxRCSize
    (fun x => lib.verify rc.pubkey x rc.signature) false
  rw [← hlen]
  exact Prod.ext rfl hmatch

/-- A contact that fits is signed. -/
lemma sign_eq (h : lib.Lawful) (crypto : Blob 64 → Bytes → Blob 64) (tmp : ℕ → UInt8)
    (seckey : Blob 64) (hfits : (rc.encoding lib).length ≤ maxRCSize) :
    rc.sign lib crypto tmp seckey =
      { rc with signature := crypto seckey (rc.signedBytes lib) } := by
  have hlen : (rc.signedBytes lib).length = (rc.encoding lib).length :=
    encoding_length rc rc.pubkey (zeroBlob 64)
  have hmatch := match_bencode h { rc with signature := zeroBlob 64 } tmp maxRCSize
    (fun x => { rc with signature := crypto seckey x }) { rc with signature := zeroBlob 64 }
  rw [← hlen] at hfits
  exact hmatch.trans (if_pos hfits)

/-- Contacts that are the same have one encoding. -/
lemma encoding_congr (h : rc.Same rc') : rc'.encoding lib = rc.encoding lib := by
  have hlist : ∀ {l l' : List AddressInfo}, List.Forall₂ AddressInfo.Same l l' →
      l'.map (AddressInfo.encoding lib) = l.map (AddressInfo.encoding lib) := by
    intro l l' hl
    induction hl with
    | nil => rfl
    | cons hai _ ih => rw [List.map_cons, List.map_cons, AddressInfo.encoding_congr hai, ih]
  have haddrs : optionalBytes 'a' (AddressInfo.encoding lib) rc'.addrs =
      optionalBytes 'a' (AddressInfo.encoding lib) rc.addrs := by
    obtain ⟨hrel, -⟩ := h
    revert hrel
    generalize rc.addrs = o
    generalize rc'.addrs = o'
    intro hrel
    cases hrel with
    | none => rfl
    | some hl => rw [optionalBytes, optionalBytes, hlist hl]
  rw [encoding, encoding, haddrs, h.pubkey, h.enckey, h.lastUpdated, h.exits, h.signature]

lemma Same.verifySigInPlace (h : lib.Lawful) (hsame : rc.Same rc') (tmp tmp' : ℕ → UInt8) :
    (rc'.verifySigInPlace lib tmp').2 = (rc.verifySigInPlace lib tmp).2 := by
  have hbytes : rc'.signedBytes lib = rc.signedBytes lib :=
    encoding_congr ⟨hsame.addrs, hsame.enckey, hsame.pubkey, hsame.exits, rfl, hsame.lastUpdated⟩
  rw [verifySigInPlace_eq h, verifySigInPlace_eq h, encoding_congr hsame, hbytes, hsame.pubkey,
    hsame.signature]

/-- The check with an array of zeros. -/
lemma verifySig_eq (rc : RouterContact) :
    rc.verifySig lib = (rc.verifySigInPlace lib fun _ => 0).2 := rfl

/-- What a router decodes from an encoded contact. -/
lemma bdecode_bencode (h : lib.Lawful) (u : Uninit) (hrc : rc.WellFormed)
    (htime : rc.lastUpdated ≠ -1) {b b' : Buffer} (hb : b.cur = 0)
    (hw : (rc.bencode lib b).2 = true) (hholds : b'.Holds (rc.bencode lib b).1.written) :
    ∃ rc', bdecode lib u {} b' =
      (rc', some (b'.skip (rc.bencode lib b).1.written.length)) ∧ rc.Same rc' := by
  have hin : b.Inside := hb.le.trans (Nat.zero_le _)
  have hwritten : (rc.bencode lib b).1.written = rc.encoding lib := by
    have hempty : b.written = [] := List.eq_nil_of_length_eq_zero ((b.written_length).trans hb)
    rw [((sure_bencode h rc).wrote b hin hw).written, hempty, List.nil_append]
  rw [hwritten] at hholds ⊢
  obtain ⟨rc', hr, hsame⟩ := reads_bdecode h hrc htime {} b' hholds
  rw [decodedOver_empty] at hsame
  exact ⟨rc', hr, hsame⟩

/-- A signed contact verifies, here and where it was sent to. -/
theorem signed_verifies (h : lib.Lawful) (u : Uninit) (crypto : Blob 64 → Bytes → Blob 64)
    (seckey : Blob 64) (pubkey : PubKey)
    (hpair : ∀ x, lib.verify pubkey x (crypto seckey x) = true) (tmp tmp' : ℕ → UInt8) :
    (∀ rc : RouterContact, (rc.bencode lib (stackBuffer tmp maxRCSize)).2 = true →
      rc.WellFormed →
      let signed := (rc.setPubsigkey pubkey).sign lib crypto tmp seckey
      signed.verifySigInPlace lib tmp' = (signed, true) ∧
      (rc.lastUpdated ≠ -1 → ∀ b b' : Buffer, b.cur = 0 → (signed.bencode lib b).2 = true →
        b'.Holds (signed.bencode lib b).1.written →
        ∃ rc', bdecode lib u {} b' =
            (rc', some (b'.skip (signed.bencode lib b).1.written.length)) ∧
          (rc'.verifySigInPlace lib tmp').2 = true)) ∧
    ∀ rc : RouterContact, (rc.verifySigInPlace lib tmp').1 = rc ∧
      ((rc.bencode lib (stackBuffer tmp' maxRCSize)).2 = false →
        (rc.verifySigInPlace lib tmp').2 = false) := by
  refine ⟨fun rc hfits hrc => ?_, fun rc => ?_⟩
  · have hlen := (bencode_stackBuffer h rc tmp maxRCSize).1.mp hfits
    have hkeyed : ((rc.setPubsigkey pubkey).encoding lib).length ≤ maxRCSize := by
      rwa [show (rc.setPubsigkey pubkey) = { rc with pubkey := pubkey, signature := rc.signature }
        from rfl, encoding_length]
    have hsigned := sign_eq h crypto tmp seckey hkeyed
    have hverify : ((rc.setPubsigkey pubkey).sign lib crypto tmp seckey).verifySigInPlace lib tmp' =
        ((rc.setPubsigkey pubkey).sign lib crypto tmp seckey, true) := by
      rw [hsigned, verifySigInPlace_eq h, if_pos ?_]
      · exact Prod.ext rfl (hpair _)
      · exact (encoding_length (rc.setPubsigkey pubkey) pubkey _).trans_le hkeyed
    refine ⟨hverify, fun htime b b' hb hw hholds => ?_⟩
    have hwf : ((rc.setPubsigkey pubkey).sign lib crypto tmp seckey).WellFormed := by
      rw [hsigned]
      exact hrc
    have htime' : ((rc.setPubsigkey pubkey).sign lib crypto tmp seckey).lastUpdated ≠ -1 := by
      rw [hsigned]
      exact htime
    obtain ⟨rc', hr, hsame⟩ := bdecode_bencode h u hwf htime' hb hw hholds
    refine ⟨rc', hr, ?_⟩
    rw [hsame.verifySigInPlace h tmp', hverify]
  · rw [verifySigInPlace_eq h]
    refine ⟨rfl, fun hw => if_neg fun hle => ?_⟩
    rw [(bencode_stackBuffer h rc tmp' maxRCSize).1.mpr hle] at hw
    cases hw

/-! ### Contacts of a host of letters -/

/-- Two letters for every byte. -/
def letters (ip : Bytes) : Bytes := ip.flatMap fun c => [97 + c / 16, 97 + c % 16]

/-- The bytes of pairs of letters. -/
def ofLetters : Bytes → Bytes
  | a :: b :: text => ((a - 97) * 16 + (b - 97)) :: ofLetters text
  | _ => []

lemma ofLetters_letters (ip : Bytes) : ofLetters (letters ip) = ip := by
  induction ip with
  | nil => rfl
  | cons c ip ih =>
      have hbyte : (97 + c / 16 - 97) * 16 + (97 + c % 16 - 97) = c := by
        obtain ⟨x⟩ := c
        revert x
        decide
      change ((97 + c / 16 - 97) * 16 + (97 + c % 16 - 97)) :: ofLetters (letters ip) = c :: ip
      rw [hbyte, ih]

/-- A host with addresses of 32 letters, and with the head of a message as its signature. -/
def plainHost : HostLib where
  inetPton text := some (sliceBlob (ofLetters text) 0 16)
  inetNtop ip := some (letters ip.1)
  verify _ x sig := sig == sliceBlob x 0 64

lemma plainHost_lawful : plainHost.Lawful := by
  refine ⟨fun ip => ⟨letters ip.1, rfl, ?_, ?_, ?_⟩⟩
  · have hlen : (letters ip.1).length = ip.1.length * 2 := by
      rw [letters, List.length_flatMap]
      simp
    rw [hlen, ip.2]
    norm_num
  · intro hmem
    obtain ⟨c, -, hc⟩ := List.mem_flatMap.mp hmem
    revert hc
    obtain ⟨x⟩ := c
    revert x
    decide
  · have hslice := slice_head (c := []) ip.2
    rw [List.append_nil] at hslice
    change some (sliceBlob (ofLetters (letters ip.1)) 0 16) = some ip
    rw [ofLetters_letters]
    exact congrArg some (Subtype.ext hslice)

/-- Memory of zeros. -/
def zeroMemory : Uninit where
  ai _ := ⟨0, zeroBlob 6, zeroBlob 32, zeroBlob 16, 0⟩
  key _ := zeroBlob 32
  pathid := zeroBlob 16
  nonce := zeroBlob 32

/-- A contact without addresses and exits. -/
def bare (time : UInt64) : RouterContact := { lastUpdated := time }

/-- The head of a message as its signature. -/
def headSign (_ : Blob 64) (x : Bytes) : Blob 64 := sliceBlob x 0 64

lemma verify_headSign (x : Bytes) :
    plainHost.verify (zeroBlob 32) x (headSign (zeroBlob 64) x) = true := beq_self_eq_true _

lemma bare_fits (time : UInt64) (h : ((bare time).encoding plainHost).length ≤ maxRCSize) :
    ((bare time).bencode plainHost (stackBuffer (fun _ => 0) maxRCSize)).2 = true :=
  (bencode_stackBuffer plainHost_lawful _ _ _).1.mpr h

lemma bare_wellFormed (time : UInt64) : (bare time).WellFormed := fun _ hl => by cases hl

/-- A contact with an address and an exit. -/
def reachable : RouterContact where
  addrs := some [⟨1, zeroBlob 6, zeroBlob 32, zeroBlob 16, 1⟩]
  exits := some [{}]

lemma reachable_wellFormed : reachable.WellFormed := by
  intro l hl ai hai
  obtain rfl := Option.some.inj hl
  obtain rfl := List.mem_singleton.mp hai
  exact ⟨by decide, by decide, by decide⟩

theorem signed_verifies_reachable :
    let signed := (reachable.setPubsigkey (zeroBlob 32)).sign plainHost headSign (fun _ => 0)
      (zeroBlob 64)
    let sent := (signed.bencode plainHost (stackBuffer (fun _ => 0) maxRCSize)).1.written
    (signed.verifySigInPlace plainHost (fun _ => 0) = (signed, true) ∧
      ∃ rc', bdecode plainHost zeroMemory {} (.ofBytes sent fun _ => 0) =
          (rc', some ((Buffer.ofBytes sent fun _ => 0).skip sent.length)) ∧
        (rc'.verifySigInPlace plainHost (fun _ => 0)).2 = true) ∧
      (reachable.verifySigInPlace plainHost fun _ => 0).1 = reachable := by
  intro signed sent
  obtain ⟨hsign, hkept⟩ := signed_verifies plainHost_lawful zeroMemory headSign (zeroBlob 64)
    (zeroBlob 32) verify_headSign (fun _ => 0) (fun _ => 0)
  obtain ⟨hverify, hsent⟩ := hsign reachable
    ((bencode_stackBuffer plainHost_lawful _ _ _).1.mpr (by decide +kernel)) reachable_wellFormed
  have hfits : (signed.bencode plainHost (stackBuffer (fun _ => 0) maxRCSize)).2 = true :=
    (bencode_stackBuffer plainHost_lawful _ _ _).1.mpr (by decide +kernel)
  exact ⟨⟨hverify, hsent (by decide) _ _ rfl hfits (Buffer.holds_ofBytes sent _)⟩,
    (hkept reachable).1⟩

/-- The decoder takes the time `2 ^ 64 - 1` for an error. -/
theorem last_time_not_decoded : ¬ ∀ (lib : HostLib) (u : Uninit)
    (crypto : Blob 64 → Bytes → Blob 64) (seckey : Blob 64) (pubkey : PubKey)
    (tmp tmp' : ℕ → UInt8), lib.Lawful → (∀ x, lib.verify pubkey x (crypto seckey x) = true) →
    ∀ rc : RouterContact, (rc.bencode lib (stackBuffer tmp maxRCSize)).2 = true →
      rc.WellFormed →
      let signed := (rc.setPubsigkey pubkey).sign lib crypto tmp seckey
      signed.verifySigInPlace lib tmp' = (signed, true) ∧
      ∀ b b' : Buffer, b.cur = 0 → (signed.bencode lib b).2 = true →
        b'.Holds (signed.bencode lib b).1.written →
        ∃ rc', bdecode lib u {} b' =
            (rc', some (b'.skip (signed.bencode lib b).1.written.length)) ∧
          (rc'.verifySigInPlace lib tmp').2 = true := by
  intro h
  let signed := ((bare (-1)).setPubsigkey (zeroBlob 32)).sign plainHost headSign (fun _ => 0)
    (zeroBlob 64)
  let sent := signed.encoding plainHost
  have hfits := bencode_stackBuffer plainHost_lawful signed (fun _ => 0) maxRCSize
  have hsuccess := hfits.1.mpr (by decide +kernel)
  have hsent : (signed.bencode plainHost (stackBuffer (fun _ => 0) maxRCSize)).1.written = sent :=
    hfits.2 hsuccess
  obtain ⟨rc', hr, -⟩ := (h plainHost zeroMemory headSign (zeroBlob 64) (zeroBlob 32) (fun _ => 0)
    (fun _ => 0) plainHost_lawful verify_headSign (bare (-1)) (bare_fits (-1) (by decide +kernel))
    (bare_wellFormed (-1))).2 (stackBuffer (fun _ => 0) maxRCSize) (.ofBytes sent fun _ => 0) rfl
    hsuccess (by rw [hsent]; exact Buffer.holds_ofBytes sent _)
  have hnone : (bdecode plainHost zeroMemory {} (.ofBytes sent fun _ => 0)).2.isNone = true := by
    decide +kernel
  rw [hr] at hnone
  cases hnone

end Udap.RouterContact
