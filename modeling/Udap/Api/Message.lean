import Udap.Bencode.Reads
import Udap.Crypto
import Udap.LinkMessage

/-!
The messages of the control API, `api::IMessage`, and how they are authenticated.

`CreateSessionMessage` is the only kind that can be built; the others leave `FunctionName`,
`GetParams` and `DecodeParams` to be written. The hash of a message is the HMAC of its encoding with
a hash of zeros, under the hash of the password.

* `sure_bencode`: what `BEncode` writes.
* `isWellFormed_calculateHash`: a message with the hash of `CalculateHash` is well formed under the
  same password, and the check leaves it as it was.
-/

namespace Udap.Api

open ByteMem

/-- `BEncodeWriteDictString`. -/
def writeDictString (k : Char) (str : Bytes) : Writer := .all [writeKey k, writeBytestring str]

/-- `BEncodeWriteDictBEncodeList`. -/
def writeDictBEncodeList (k : Char) (l : List Writer) : Writer :=
  .all ([writeKey k, startList] ++ l ++ [bencodeEnd])

/-- The kinds of messages. -/
inductive Function where
  | createSession
  deriving DecidableEq, Repr

/-- `FunctionName`. -/
def Function.name : Function → Bytes
  | createSession => "CreateSession".toList.map ascii

/-- `GetParams`, as far as they can be encoded. -/
def Function.getParams : Function → List Writer
  | createSession => []

/-- `IMessage`; its `version` is not encoded. -/
structure IMessage where
  function : Function
  sessionID : UInt64 := 0
  msgID : UInt64 := 0
  hash : Blob 32
  deriving DecidableEq

namespace IMessage

/-- `BEncode`. -/
def bencode (m : IMessage) : Writer :=
  .all [startDict, writeDictString 'F' m.function.name,
    writeDictInt 'I' m.sessionID, writeDictInt 'M' m.msgID,
    writeDictBEncodeList 'P' m.function.getParams,
    writeDictEntry 'Z' (writeBytestring m.hash.1), bencodeEnd]

/-- `DecodeParams` of `CreateSessionMessage`: the list is read and dropped. -/
def decodeParams : Reader IMessage := fun m b =>
  (m, (bencodeReadList [] encryptedBdecode [] b).2)

/-- `DecodeKey`. -/
def decodeKey (key : Bytes) : Reader IMessage :=
  if isKey key 'P' then decodeParams
  else if isKey key 'I' then
    .part (·.sessionID) (fun m i => { m with sessionID := i }) fun i b => b.readInteger i
  else if isKey key 'M' then
    .part (·.msgID) (fun m i => { m with msgID := i }) fun i b => b.readInteger i
  else if isKey key 'Z' then .blob 32 fun m z => { m with hash := z }
  else .bad

/-- The array on the stack that the message is encoded in, with what it held before. -/
def tmpBuffer (tmp : ℕ → UInt8) : Buffer := { mem := tmp, cur := 0, sz := 1500 }

/-- The hash is set to zeros. -/
def zeroed (m : IMessage) : IMessage := { m with hash := zeroBlob 32 }

/-- `IsWellFormed`. -/
def isWellFormed (S : Sodium) (tmp : ℕ → UInt8) (password : Bytes) (m : IMessage) :
    IMessage × Bool :=
  let secret := S.shorthash password
  let tmpHash := m.hash
  let done := m.zeroed.bencode (tmpBuffer tmp)
  if done.2 then
    let digest := S.hmac done.1.written secret
    ({ m.zeroed with hash := tmpHash }, tmpHash == digest)
  else (m.zeroed, false)

/-- `CalculateHash`. -/
def calculateHash (S : Sodium) (tmp : ℕ → UInt8) (password : Bytes) (m : IMessage) : IMessage :=
  let secret := S.shorthash password
  let done := m.zeroed.bencode (tmpBuffer tmp)
  if done.2 then { m.zeroed with hash := S.hmac done.1.written secret } else m.zeroed

/-! ### Encoding -/

/-- What the encoding goes on with behind the name of the function. -/
def encodingTail (m : IMessage) : Bytes :=
  entryBytes 'I' (intBytes m.sessionID.toInt64.toInt) ++
    (entryBytes 'M' (intBytes m.msgID.toInt64.toInt) ++
      (entryBytes 'P' (listBytes []) ++ (entryBytes 'Z' (strBytes m.hash.1) ++ [ascii 'e'])))

/-- `BEncode` in full. -/
def encoding (m : IMessage) : Bytes :=
  [ascii 'd'] ++ (entryBytes 'F' (strBytes m.function.name) ++ m.encodingTail)

lemma emits_writeDictBEncodeList_nil (k : Char) :
    Emits 0 (writeDictBEncodeList k []) (entryBytes k (listBytes [])) :=
  Emits.cons (emits_writeKey k) <| .cons (emits_bufferWrite [ascii 'l']) sure_bencodeEnd.emits

lemma sure_bencode (m : IMessage) : Sure m.bencode m.encoding := by
  have hname : Emits 0 (writeDictString 'F' m.function.name)
      (entryBytes 'F' (strBytes m.function.name)) :=
    emits_writeDictEntry 'F' (emits_writeBytestring _)
  have hparams : Emits 0 (writeDictBEncodeList 'P' m.function.getParams)
      (entryBytes 'P' (listBytes [])) := by
    cases m.function
    exact emits_writeDictBEncodeList_nil 'P'
  rw [bencode, encoding, encodingTail]
  exact .cons (emits_bufferWrite _) <| .cons hname <| .cons (emits_writeDictInt 'I' _) <|
    .cons (emits_writeDictInt 'M' _) <| .cons hparams <|
    .cons (emits_writeDictEntry 'Z' (emits_writeBytestring _)) sure_bencodeEnd

/-- The array has room for every message. -/
lemma encoding_length_le (m : IMessage) : m.encoding.length ≤ 1500 := by
  have hsession := intBytes_length_le m.sessionID
  have hmsg := intBytes_length_le m.msgID
  have hname : (strBytes m.function.name).length = 16 := by
    cases m.function
    decide
  have hhash : (strBytes m.hash.1).length = 35 := by
    have h32 : decimal 32 = [51, 50] := by decide
    rw [strBytes, m.hash.2, h32]
    simp [m.hash.2]
  have hlist : (listBytes []).length = 2 := rfl
  simp only [encoding, encodingTail, entryBytes, List.length_append, List.length_singleton,
    keyBytes_length, hname, hhash, hlist]
  omega

lemma bencode_tmpBuffer (m : IMessage) (tmp : ℕ → UInt8) :
    ∃ buf, m.bencode (tmpBuffer tmp) = (buf, true) ∧ buf.written = m.encoding := by
  have hin : (tmpBuffer tmp).Inside := Nat.zero_le _
  have hdone := (m.sure_bencode.fits_iff _ hin).mpr m.encoding_length_le
  have hwritten := (m.sure_bencode.wrote _ hin hdone).written
  generalize m.bencode (tmpBuffer tmp) = r at hdone hwritten
  obtain ⟨buf, ok⟩ := r
  obtain rfl : ok = true := hdone
  exact ⟨buf, rfl, hwritten⟩

/-! ### Authentication -/

/-- The digest that a message is checked against. -/
def digest (S : Sodium) (password : Bytes) (m : IMessage) : Blob 32 :=
  S.hmac m.zeroed.encoding (S.shorthash password)

/-- The check leaves the message as it was. -/
lemma isWellFormed_eq (S : Sodium) (tmp : ℕ → UInt8) (password : Bytes) (m : IMessage) :
    m.isWellFormed S tmp password = (m, m.hash == m.digest S password) := by
  obtain ⟨buf, hbuf, hwritten⟩ := m.zeroed.bencode_tmpBuffer tmp
  simp only [isWellFormed, hbuf, digest, hwritten, if_true]
  rfl

lemma calculateHash_eq (S : Sodium) (tmp : ℕ → UInt8) (password : Bytes) (m : IMessage) :
    m.calculateHash S tmp password = { m with hash := m.digest S password } := by
  obtain ⟨buf, hbuf, hwritten⟩ := m.zeroed.bencode_tmpBuffer tmp
  simp only [calculateHash, hbuf, digest, hwritten, if_true]
  rfl

/-- A message with the hash of `CalculateHash` is well formed under the same password. -/
lemma isWellFormed_calculateHash (S : Sodium) (tmp tmp' : ℕ → UInt8) (password : Bytes)
    (m : IMessage) : (m.calculateHash S tmp password).isWellFormed S tmp' password =
      (m.calculateHash S tmp password, true) := by
  rw [isWellFormed_eq, calculateHash_eq]
  exact Prod.ext rfl (beq_self_eq_true _)

end IMessage

end Udap.Api
