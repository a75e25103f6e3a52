import Udap.Lib.Bytes

/-!
The crypto functions of `crypto_libsodium.cpp` over libsodium.

libsodium is a parameter: `crypto_scalarmult_curve25519`, which may fail,
`crypto_scalarmult_base`, `crypto_generichash` with and without a key, and the key stream that
`crypto_stream_xchacha20_xor` adds to a message.

`dhClient_eq_dhServer`: where the scalar multiplication agrees, both sides of a key exchange
compute the same key.
-/

namespace Udap

open ByteMem

/-- What is used of libsodium. -/
structure Sodium where
  /-- `crypto_scalarmult_curve25519` of a secret and a point -/
  scalarmult : Blob 32 → Blob 32 → Option (Blob 32)
  /-- `crypto_scalarmult_base` -/
  scalarmultBase : Blob 32 → Blob 32
  /-- `crypto_generichash` of a message under a key; without a key the key is empty -/
  generichash : Bytes → Bytes → Blob 32
  /-- the key stream of `crypto_stream_xchacha20_xor` -/
  stream : Blob 32 → Blob 24 → ℕ → UInt8

/-- `udap::SecretKey`: the secret and the public half. -/
abbrev SecretKey := Blob 64

/-- The secret half of a key. -/
def SecretKey.secret (sk : SecretKey) : Blob 32 := sliceBlob sk.1 0 32

/-- `seckey_topublic`. -/
def SecretKey.toPublic (sk : SecretKey) : Blob 32 := sliceBlob sk.1 32 32

namespace Sodium

variable (S : Sodium)

/-- `enckeygen` with the random bytes that `crypto_box_keypair` draws. -/
def enckeygen (seed : Blob 32) : SecretKey :=
  ⟨seed.1 ++ (S.scalarmultBase seed).1, by simp⟩

@[simp] lemma enckeygen_secret (seed : Blob 32) : (S.enckeygen seed).secret = seed :=
  Subtype.ext (slice_head seed.2)

@[simp] lemma enckeygen_toPublic (seed : Blob 32) :
    (S.enckeygen seed).toPublic = S.scalarmultBase seed :=
  Subtype.ext (slice_last seed.2 (S.scalarmultBase seed).2)

/-- `shorthash`. -/
def shorthash (m : Bytes) : Blob 32 := S.generichash m []

/-- `hmac`. -/
def hmac (m : Bytes) (secret : Blob 32) : Blob 32 := S.generichash m secret.1

/-- `xchacha20` on the bytes of a buffer; the nonce is the first 24 bytes at the pointer. -/
def xchacha20 (data : Bytes) (key : Blob 32) (nonce : Bytes) : Bytes :=
  data.mapIdx fun i x => x ^^^ S.stream key (sliceBlob nonce 0 24) i

@[simp] lemma xchacha20_length (data : Bytes) (key : Blob 32) (nonce : Bytes) :
    (S.xchacha20 data key nonce).length = data.length := List.length_mapIdx

/-- Adding the key stream twice. -/
@[simp] lemma xchacha20_xchacha20 (data : Bytes) (key : Blob 32) (nonce : Bytes) :
    S.xchacha20 (S.xchacha20 data key nonce) key nonce = data := by
  refine List.ext_getElem (by simp) fun i h₁ h₂ => ?_
  simp only [xchacha20, List.getElem_mapIdx, UInt8.xor_assoc, UInt8.xor_self, UInt8.xor_zero]

/-- Key streams are added in any order. -/
lemma xchacha20_comm (data : Bytes) (key key' : Blob 32) (nonce nonce' : Bytes) :
    S.xchacha20 (S.xchacha20 data key nonce) key' nonce' =
      S.xchacha20 (S.xchacha20 data key' nonce') key nonce := by
  refine List.ext_getElem (by simp) fun i h₁ h₂ => ?_
  simp only [xchacha20, List.getElem_mapIdx, UInt8.xor_assoc]
  rw [UInt8.xor_comm (S.stream key _ i)]

/-- `dh`. -/
def dh (clientPk serverPk themPub : Blob 32) (usSec : SecretKey) : Option (Blob 32) :=
  (S.scalarmult usSec.secret themPub).map fun shared =>
    S.generichash (clientPk.1 ++ serverPk.1 ++ shared.1) []

/-- `dh_client`; without a result the target is left as it is. -/
def dhClient (pk : Blob 32) (sk : SecretKey) (n : Blob 32) : Option (Blob 32) :=
  (S.dh sk.toPublic pk pk sk).map fun r => S.generichash n.1 r.1

/-- `dh_server`. -/
def dhServer (pk : Blob 32) (sk : SecretKey) (n : Blob 32) : Option (Blob 32) :=
  (S.dh pk sk.toPublic pk sk).map fun r => S.generichash n.1 r.1

/-- The key agreement between the owners of two key pairs is symmetric and does not fail. -/
def AgreeOn (client server : SecretKey) : Prop :=
  ∃ z, S.scalarmult client.secret server.toPublic = some z ∧
    S.scalarmult server.secret client.toPublic = some z

/-- Both sides of a key exchange compute the same key. -/
lemma AgreeOn.dhClient_eq_dhServer {S : Sodium} {client server : SecretKey}
    (h : S.AgreeOn client server) : ∃ key : Blob 32 → Blob 32,
      (∀ n, S.dhClient server.toPublic client n = some (key n)) ∧
        ∀ n, S.dhServer client.toPublic server n = some (key n) := by
  obtain ⟨z, hclient, hserver⟩ := h
  refine ⟨fun n => S.generichash n.1 (S.generichash (client.toPublic.1 ++
    server.toPublic.1 ++ z.1) []).1, fun n => ?_, fun n => ?_⟩
  · simp [dhClient, dh, hclient]
  · simp [dhServer, dh, hserver]

/-- The key agreement between the owners of two keys is symmetric and does not fail. -/
def Agree (a b : Blob 32) : Prop :=
  ∃ z, S.scalarmult a (S.scalarmultBase b) = some z ∧ S.scalarmult b (S.scalarmultBase a) = some z

lemma Agree.agreeOn {S : Sodium} {a b : Blob 32} (h : S.Agree a b) :
    S.AgreeOn (S.enckeygen a) (S.enckeygen b) := by
  simpa [AgreeOn, Agree] using h

/-- Both sides of a key exchange compute the same key. -/
lemma dhClient_eq_dhServer {a b : Blob 32} (h : S.Agree a b) : ∃ key : Blob 32 → Blob 32,
    (∀ n, S.dhClient (S.scalarmultBase b) (S.enckeygen a) n = some (key n)) ∧
      ∀ n, S.dhServer (S.scalarmultBase a) (S.enckeygen b) n = some (key n) := by
  simpa using h.agreeOn.dhClient_eq_dhServer

end Sodium

end Udap
