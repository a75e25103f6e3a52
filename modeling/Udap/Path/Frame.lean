import Udap.Crypto

/-!
`EncryptedFrame`, a byte string of

* 32 bytes with a keyed hash of what follows,
* 32 bytes of nonce,
* 32 bytes with an ephemeral public key of the sender,
* the encrypted body.

`decrypt_encrypt`: the owner of the key that a frame was encrypted for gets the body back.
-/

namespace Udap

open ByteMem

/-- `EncryptedFrame::OverheadSize`. -/
def overheadSize : ℕ := 96

namespace EncryptedFrame

variable (S : Sodium)

/-- `EncryptInPlace` with the nonce that `randbytes` draws. -/
def encryptInPlace (nonce : Blob 32) (ourSecretKey : SecretKey) (otherPubkey : Blob 32)
    (frame : Bytes) : Bytes × Bool :=
  let frame := memcpy (memcpy frame 64 ourSecretKey.toPublic.1) 32 nonce.1
  match S.dhClient otherPubkey ourSecretKey nonce with
  | none => (frame, false)
  | some shared =>
      let body := S.xchacha20 (frame.drop overheadSize) shared nonce.1
      let frame := memcpy frame overheadSize body
      (memcpy frame 0 (S.hmac (frame.drop 32) shared).1, true)

/-- `DecryptInPlace`. -/
def decryptInPlace (ourSecretKey : SecretKey) (frame : Bytes) : Bytes × Bool :=
  if frame.length ≤ overheadSize then (frame, false)
  else
    let nonce := sliceBlob frame 32 32
    match S.dhServer (sliceBlob frame 64 32) ourSecretKey nonce with
    | none => (frame, false)
    | some shared =>
        if (S.hmac (frame.drop 32) shared).1 ≠ slice frame 0 32 then (frame, false)
        else
          let body := S.xchacha20 (frame.drop overheadSize) shared nonce.1
          (memcpy frame overheadSize body, true)

lemma decryptInPlace_length (sk : SecretKey) (frame : Bytes) :
    (decryptInPlace S sk frame).1.length = frame.length := by
  unfold decryptInPlace
  by_cases h : frame.length ≤ overheadSize
  · rw [if_pos h]
  · rw [if_neg h]
    dsimp only
    split
    · rfl
    · split_ifs
      · rfl
      · refine memcpy_length ?_
        rw [S.xchacha20_length, List.length_drop]
        omega

/-- The three fields in front of a body. -/
lemma exists_fields {frame : Bytes} (h : overheadSize < frame.length) :
    ∃ hash nonce pubkey body : Bytes, frame = hash ++ (nonce ++ (pubkey ++ body)) ∧
      hash.length = 32 ∧ nonce.length = 32 ∧ pubkey.length = 32 ∧
      body = frame.drop overheadSize := by
  rw [overheadSize] at h
  refine ⟨frame.take 32, (frame.drop 32).take 32, (frame.drop 64).take 32, frame.drop 96, ?_,
    ?_, ?_, ?_, rfl⟩
  · have hlast := List.take_append_drop 32 (frame.drop 64)
    have hmid := List.take_append_drop 32 (frame.drop 32)
    rw [List.drop_drop] at hlast hmid
    rw [hlast, hmid, List.take_append_drop]
  · rw [List.length_take]
    omega
  · rw [List.length_take, List.length_drop]
    omega
  · rw [List.length_take, List.length_drop]
    omega

section Fields

variable {S} {nonce pubkey : Blob 32} {hash body body' : Bytes}

lemma drop_fields (hhash : hash.length = 32) :
    (hash ++ (nonce.1 ++ (pubkey.1 ++ body))).drop overheadSize = body := by
  rw [← List.append_assoc, ← List.append_assoc]
  exact List.drop_left' (by simp [hhash, overheadSize])

lemma memcpy_body (hhash : hash.length = 32) (hlen : body.length = body'.length) :
    memcpy (hash ++ (nonce.1 ++ (pubkey.1 ++ body))) overheadSize body' =
      hash ++ (nonce.1 ++ (pubkey.1 ++ body')) := by
  have hwrite := memcpy_at (a := hash ++ (nonce.1 ++ pubkey.1)) (b := body) (s := body') (c := [])
    (o := overheadSize) (by simp [hhash, overheadSize]) hlen
  simpa using hwrite

/-- What a frame looks like after the encryption. -/
lemma encryptInPlace_eq {sk : SecretKey} {pk shared : Blob 32}
    (h : S.dhClient pk sk nonce = some shared)
    {oldNonce oldKey : Bytes} (hhash : hash.length = 32) (hnonce : oldNonce.length = 32)
    (hkey : oldKey.length = 32) :
    encryptInPlace S nonce sk pk (hash ++ (oldNonce ++ (oldKey ++ body))) =
      ((S.hmac (nonce.1 ++ (sk.toPublic.1 ++ S.xchacha20 body shared nonce.1)) shared).1 ++
        (nonce.1 ++ (sk.toPublic.1 ++ S.xchacha20 body shared nonce.1)), true) := by
  have hwriteKey : memcpy (hash ++ (oldNonce ++ (oldKey ++ body))) 64 sk.toPublic.1 =
      hash ++ (oldNonce ++ (sk.toPublic.1 ++ body)) := by
    rw [← List.append_assoc, memcpy_at (by simp [hhash, hnonce]) (by simp [hkey]),
      List.append_assoc]
  have hwriteNonce : memcpy (hash ++ (oldNonce ++ (sk.toPublic.1 ++ body))) 32 nonce.1 =
      hash ++ (nonce.1 ++ (sk.toPublic.1 ++ body)) := memcpy_at hhash (by simp [hnonce])
  have hwriteHash (hash' : Blob 32) (rest : Bytes) :
      memcpy (hash ++ rest) 0 hash'.1 = hash'.1 ++ rest :=
    memcpy_at (a := []) rfl (by simp [hhash])
  rw [encryptInPlace, hwriteKey, hwriteNonce, h]
  dsimp only
  rw [drop_fields hhash, memcpy_body hhash (by simp), hwriteHash, List.drop_left' hhash]

/-- The check of a frame and what it is decrypted to. -/
lemma decryptInPlace_eq {sk : SecretKey} {shared : Blob 32}
    (h : S.dhServer pubkey sk nonce = some shared) (hbody : body ≠ [])
    (hhash : hash = (S.hmac (nonce.1 ++ (pubkey.1 ++ body)) shared).1) :
    decryptInPlace S sk (hash ++ (nonce.1 ++ (pubkey.1 ++ body))) =
      (hash ++ (nonce.1 ++ (pubkey.1 ++ S.xchacha20 body shared nonce.1)), true) := by
  have hlen : hash.length = 32 := by simp [hhash]
  have hsize : ¬ (hash ++ (nonce.1 ++ (pubkey.1 ++ body))).length ≤ overheadSize := by
    have hpos := List.length_pos_of_ne_nil hbody
    simp only [List.length_append, hlen, overheadSize]
    simp
    omega
  have hslice : sliceBlob (hash ++ (nonce.1 ++ (pubkey.1 ++ body))) 32 32 = nonce :=
    Subtype.ext (slice_mid hlen nonce.2)
  have hsliceKey : sliceBlob (hash ++ (nonce.1 ++ (pubkey.1 ++ body))) 64 32 = pubkey := by
    refine Subtype.ext ?_
    rw [sliceBlob_val, ← List.append_assoc]
    exact slice_mid (by simp [hlen]) pubkey.2
  rw [decryptInPlace, if_neg hsize]
  dsimp only
  rw [hslice, hsliceKey, h]
  dsimp only
  rw [slice_head hlen, List.drop_left' hlen, if_neg (not_not.mpr hhash.symm), drop_fields hlen,
    memcpy_body hlen (by simp)]

end Fields

/-- A frame that was encrypted for a key decrypts with its secret. -/
lemma decrypt_encrypt_of_agreeOn {client server : SecretKey} (h : S.AgreeOn client server)
    (nonce : Blob 32) {frame : Bytes} (hlen : overheadSize < frame.length) : ∃ frame' head,
      encryptInPlace S nonce client server.toPublic frame = (frame', true) ∧
      frame'.length = frame.length ∧ head.length = overheadSize ∧
      decryptInPlace S server frame' = (head ++ frame.drop overheadSize, true) := by
  obtain ⟨key, hclient, hserver⟩ := h.dhClient_eq_dhServer
  obtain ⟨hash, oldNonce, oldKey, body, hframe, hhash, hnonce, hkey, hbody⟩ := exists_fields hlen
  have hne : S.xchacha20 body (key nonce) nonce.1 ≠ [] := by
    refine List.ne_nil_of_length_pos ?_
    rw [S.xchacha20_length, hbody, List.length_drop]
    omega
  let sealed := nonce.1 ++ (client.toPublic.1 ++ S.xchacha20 body (key nonce) nonce.1)
  let mac := S.hmac sealed (key nonce)
  have hencrypt : encryptInPlace S nonce client server.toPublic frame =
      (mac.1 ++ sealed, true) := by
    rw [hframe, encryptInPlace_eq (hclient nonce) hhash hnonce hkey]
  have hdecrypt := decryptInPlace_eq (hserver nonce) hne rfl
  rw [S.xchacha20_xchacha20] at hdecrypt
  refine ⟨mac.1 ++ sealed, mac.1 ++ (nonce.1 ++ client.toPublic.1), hencrypt, ?_, ?_, ?_⟩
  · rw [hframe]
    simp [sealed, hhash, hnonce, hkey]
  · simp [overheadSize]
  · rw [hdecrypt, ← hbody, List.append_assoc, List.append_assoc]

lemma decrypt_encrypt {a b : Blob 32} (h : S.Agree a b) (nonce : Blob 32) {frame : Bytes}
    (hlen : overheadSize < frame.length) : ∃ frame' head,
      encryptInPlace S nonce (S.enckeygen a) (S.scalarmultBase b) frame = (frame', true) ∧
      frame'.length = frame.length ∧ head.length = overheadSize ∧
      decryptInPlace S (S.enckeygen b) frame' = (head ++ frame.drop overheadSize, true) := by
  simpa using decrypt_encrypt_of_agreeOn S h.agreeOn nonce hlen

end EncryptedFrame

end Udap
