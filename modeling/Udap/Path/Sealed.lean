import Udap.Path.Build

/-!
Encrypted frames as a channel.

* `restores_body`: what is encrypted to a key comes back with its secret.
* `decryptInPlace_unchanged`: a frame that does not decrypt stays as it is.
* `VersionedRecord.reads_bdecode`: the codec of a record, its version with it.
* `round_trips_and_fails_closed`: a record goes through a frame of the default size.
-/

namespace Udap

open ByteMem

namespace EncryptedFrame

variable {S : Sodium}

/-- The body of a frame, which is what the frame is there for. -/
def body (frame : Bytes) : Bytes := frame.drop overheadSize

/-- What is encrypted to a key comes back with its secret. -/
lemma restores_body {client server : SecretKey} (h : S.AgreeOn client server) (nonce : Blob 32)
    {frame : Bytes} (hlen : overheadSize < frame.length) : ∃ frame' frame'',
      encryptInPlace S nonce client server.toPublic frame = (frame', true) ∧
      decryptInPlace S server frame' = (frame'', true) ∧
      frame''.length = frame.length ∧ body frame'' = body frame := by
  obtain ⟨frame', head, hencrypt, hsame, hhead, hdecrypt⟩ :=
    decrypt_encrypt_of_agreeOn S h nonce hlen
  refine ⟨frame', head ++ frame.drop overheadSize, hencrypt, hdecrypt, ?_, ?_⟩
  · rw [List.length_append, hhead, List.length_drop]
    omega
  · rw [body, List.drop_left' hhead, body]

/-- A frame that does not decrypt stays as it is. -/
lemma decryptInPlace_unchanged {sk : SecretKey} {frame : Bytes}
    (h : (decryptInPlace S sk frame).2 = false) : (decryptInPlace S sk frame).1 = frame := by
  unfold decryptInPlace at h ⊢
  by_cases hsize : frame.length ≤ overheadSize
  · rw [if_pos hsize]
  · rw [if_neg hsize] at h ⊢
    cases hdh : S.dhServer (sliceBlob frame 64 32) sk (sliceBlob frame 32 32) with
    | none => simp only [hdh]
    | some shared =>
        simp only [hdh] at h ⊢
        by_cases hmac : (S.hmac (frame.drop 32) shared).1 ≠ slice frame 0 32
        · rw [if_pos hmac]
        · rw [if_neg hmac] at h
          cases h

end EncryptedFrame

/-! ### Records with their version -/

/-- `LR_CommitRecord` with its version. -/
structure VersionedRecord extends LRCommitRecord where
  version : UInt64 := 0
  deriving DecidableEq

namespace VersionedRecord

/-- `LR_CommitRecord::BEncode`; the version of the record is not looked at. -/
def bencode (r : VersionedRecord) : Writer := r.toLRCommitRecord.bencode

/-- `BEncodeMaybeReadVersion` into the version of the record. -/
def readVersion : Reader VersionedRecord := fun r b =>
  match b.readInteger r.version with
  | (v, none) => ({ r with version := v }, none)
  | (v, some b) => ({ r with version := v }, if v = protoVersion then some b else none)

/-- `LR_CommitRecord::OnKey`. -/
def onKey : Option Bytes → Reader VersionedRecord
  | none => fun r b => (r, some b)
  | some key =>
      if isKey key 'v' then readVersion
      else .part toLRCommitRecord (fun r x => { r with toLRCommitRecord := x })
        (LRCommitRecord.onKey (some key))

/-- `LR_CommitRecord::BDecode`. -/
def bdecode : Reader VersionedRecord := readDict onKey

lemma reads_readVersion (r : VersionedRecord) :
    Reads readVersion r (intBytes 0) (· = { r with version := protoVersion }) := by
  intro b hb
  refine ⟨{ r with version := protoVersion }, ?_, rfl⟩
  have hread : b.readInteger r.version = (protoVersion, some (b.skip (intBytes 0).length)) :=
    hb.readInteger_natCast (n := 0) (by norm_num) r.version
  simp only [readVersion, hread, if_true]

/-- Every other entry is one of the record. -/
lemma reads_onKey {c : Char} (hc : isKey [ascii c] 'v' = false) {r : VersionedRecord} {s : Bytes}
    {x : LRCommitRecord}
    (h : Reads (LRCommitRecord.onKey (some [ascii c])) r.toLRCommitRecord s (· = x)) :
    Reads (onKey (some [ascii c])) r s (· = { r with toLRCommitRecord := x }) := by
  rw [onKey, if_neg (by rw [hc]; exact Bool.false_ne_true)]
  exact Reads.part_eq (g := toLRCommitRecord)
    (f := fun (r : VersionedRecord) x => { r with toLRCommitRecord := x }) h

/-- The decoder makes the same record of these bytes, with the version of the protocol. -/
lemma reads_bdecode {r r₀ : VersionedRecord} (h : r.work = false)
    (hversion : r.version = protoVersion) (h₀ : r₀.work = false) :
    Reads bdecode r₀ r.encoding (· = r) := by
  obtain ⟨r, v⟩ := r
  obtain ⟨r₀, v₀⟩ := r₀
  obtain rfl : v = protoVersion := hversion
  have hdone : { r with work := r₀.work } = r := by rw [h₀, ← h]
  exact reads_readDict <|
    .entry (reads_onKey rfl (LRCommitRecord.reads_commkey _ r)) <|
    .entry (reads_onKey rfl (LRCommitRecord.reads_nextHop _ r)) <|
    .entry (reads_onKey rfl (LRCommitRecord.reads_tunnelNonce _ r)) <|
    .entry (reads_onKey rfl (LRCommitRecord.reads_rxid _ r)) <|
    .entry (reads_onKey rfl (LRCommitRecord.reads_txid _ r)) <|
    .entry (reads_readVersion _) <|
    .nil <| ends_nil (fun _ => rfl) (congrArg (VersionedRecord.mk · protoVersion) hdone)

end VersionedRecord

/-! ### Frames -/

namespace EncryptedFrame

variable {S : Sodium} {client server : SecretKey}

/-- A record that is written into a frame of the default size is what the owner of the key reads
from it, whatever is in memory behind the frame. -/
lemma frame_round_trip (h : S.AgreeOn client server) (nonce : Blob 32) {r r₀ : VersionedRecord}
    (hwork : r.work = false) (hversion : r.version = protoVersion) (h₀ : r₀.work = false)
    {frame : Bytes} (hlen : frame.length = frameSize) (after after' : ℕ → UInt8) :
    ∃ buf frame' frame'' rest,
      r.bencode (frameBody frame after) = (buf, true) ∧
      encryptInPlace S nonce client server.toPublic ({ buf with cur := 0 }.bytes buf.sz) =
        (frame', true) ∧
      decryptInPlace S server frame' = (frame'', true) ∧
      VersionedRecord.bdecode r₀ (frameBody frame'' after') = (r, some rest) := by
  obtain ⟨buf, head, rest, hbencode, hhead, hbytes, hsz⟩ :=
    bencode_frameBody r.toLRCommitRecord hwork hlen after
  have hlarge : overheadSize < ({ buf with cur := 0 }.bytes buf.sz).length := by
    rw [Buffer.bytes_length, hsz]
    decide
  obtain ⟨frame', head', hencrypt, -, hhead', hdecrypt⟩ :=
    decrypt_encrypt_of_agreeOn S h nonce hlarge
  have hbody : ({ buf with cur := 0 }.bytes buf.sz).drop overheadSize = r.encoding ++ rest := by
    rw [hbytes, List.drop_left' hhead]
  rw [hbody] at hdecrypt
  obtain ⟨r', hread, rfl⟩ := VersionedRecord.reads_bdecode hwork hversion h₀ _
    (holds_frameBody hhead' after')
  exact ⟨buf, frame', _, _, hbencode, hencrypt, hdecrypt, hread⟩

/-- **Encrypted frames round trip and fail closed.** For key pairs whose key agreement succeeds:
every frame larger than `OverheadSize` decrypts to the body it had; every record without a proof of
work fits a frame of the default size, and the receiver decodes the same record, field by field,
into any record without one; and a frame that does not decrypt stays as it is. -/
theorem round_trips_and_fails_closed (S : Sodium) (client server : SecretKey) (nonce : Blob 32)
    (r r₀ : VersionedRecord) (frame frame₀ : Bytes) (after after' : ℕ → UInt8) (sk : SecretKey)
    (received : Bytes) (h : S.AgreeOn client server) (hlen : overheadSize < frame.length)
    (hwork : r.work = false) (hversion : r.version = protoVersion) (h₀ : r₀.work = false)
    (hlen₀ : frame₀.length = frameSize) :
    (∃ frame' frame'', encryptInPlace S nonce client server.toPublic frame = (frame', true) ∧
      decryptInPlace S server frame' = (frame'', true) ∧
      frame''.length = frame.length ∧ body frame'' = body frame) ∧
    (∃ buf frame' frame'' rest,
      r.bencode (frameBody frame₀ after) = (buf, true) ∧
      encryptInPlace S nonce client server.toPublic ({ buf with cur := 0 }.bytes buf.sz) =
        (frame', true) ∧
      decryptInPlace S server frame' = (frame'', true) ∧
      VersionedRecord.bdecode r₀ (frameBody frame'' after') = (r, some rest)) ∧
    ((decryptInPlace S sk received).2 = false → (decryptInPlace S sk received).1 = received) :=
  ⟨restores_body h nonce hlen, frame_round_trip h nonce hwork hversion h₀ hlen₀ after after',
    decryptInPlace_unchanged⟩

/-- A record whose fields differ. -/
def someRecord : VersionedRecord where
  commkey := List.Vector.replicate 32 1
  nextHop := List.Vector.replicate 32 2
  tunnelNonce := List.Vector.replicate 32 3
  txid := List.Vector.replicate 16 4
  rxid := List.Vector.replicate 16 5
  work := false

/-- A frame and a record between two keys, which is decoded into another record, and a frame that is
too small. -/
theorem round_trips_and_fails_closed_twoKeys :
    let client := Iwp.Handshake.twoKeys.enckeygen Iwp.Handshake.aliceSeed
    let server := Iwp.Handshake.twoKeys.enckeygen Iwp.Handshake.bobSeed
    let encrypt := encryptInPlace Iwp.Handshake.twoKeys (zeroBlob 32) client server.toPublic
    let decrypt := decryptInPlace Iwp.Handshake.twoKeys server
    (∃ frame' frame'', encrypt (List.replicate 100 7) = (frame', true) ∧
      decrypt frame' = (frame'', true) ∧
      frame''.length = (List.replicate 100 (7 : UInt8)).length ∧
      body frame'' = body (List.replicate 100 7)) ∧
    (∃ buf frame' frame'' rest,
      someRecord.bencode (frameBody (List.replicate frameSize 6) fun _ => 7) = (buf, true) ∧
      encrypt ({ buf with cur := 0 }.bytes buf.sz) = (frame', true) ∧
      decrypt frame' = (frame'', true) ∧
      VersionedRecord.bdecode ⟨Path.zeroRelay.record, 1⟩ (frameBody frame'' fun _ => 8) =
        (someRecord, some rest)) ∧
    (decrypt [7]).1 = [7] := by
  obtain ⟨hbody, hrecord, hclosed⟩ := round_trips_and_fails_closed _ _ _ (zeroBlob 32) someRecord
    ⟨Path.zeroRelay.record, 1⟩ (List.replicate 100 7) (List.replicate frameSize 6) (fun _ => 7)
    (fun _ => 8) (Iwp.Handshake.twoKeys.enckeygen Iwp.Handshake.bobSeed) [7]
    Iwp.Handshake.twoKeys_agree.agreeOn (by simp [overheadSize]) rfl rfl rfl
    (List.length_replicate ..)
  exact ⟨hbody, hrecord, hclosed rfl⟩

end EncryptedFrame

end Udap
