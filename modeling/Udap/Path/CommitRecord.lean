import Udap.RouterContact
import Udap.Bencode.Reads

/-!
`LR_CommitRecord`, what a relay is told of its hop, and its codec.

A proof of work neither encodes nor decodes, so of `work` only its presence matters.
-/

namespace Udap

open ByteMem

/-- `LR_CommitRecord`. -/
structure LRCommitRecord where
  commkey : PubKey
  nextHop : PubKey
  tunnelNonce : Blob 32
  txid : Blob 16
  rxid : Blob 16
  work : Bool := false
  deriving DecidableEq

namespace LRCommitRecord

/-- `LR_CommitRecord::BEncode`. -/
def bencode (r : LRCommitRecord) : Writer :=
  .all ([startDict,
    writeDictEntry 'c' (writeBytestring r.commkey.1),
    writeDictEntry 'i' (writeBytestring r.nextHop.1),
    writeDictEntry 'n' (writeBytestring r.tunnelNonce.1),
    writeDictEntry 'r' (writeBytestring r.rxid.1),
    writeDictEntry 't' (writeBytestring r.txid.1),
    writeVersionEntry] ++
    (if r.work then [writeDictEntry 'w' fun b => (b, false)] else []) ++ [bencodeEnd])

/-- `LR_CommitRecord::OnKey`. -/
def onKey : Option Bytes → Reader LRCommitRecord
  | none => fun r b => (r, some b)
  | some key =>
      if isKey key 'c' then .blob 32 fun r x => { r with commkey := x }
      else if isKey key 'i' then .blob 32 fun r x => { r with nextHop := x }
      else if isKey key 'n' then .blob 32 fun r x => { r with tunnelNonce := x }
      else if isKey key 'r' then .blob 16 fun r x => { r with rxid := x }
      else if isKey key 't' then .blob 16 fun r x => { r with txid := x }
      else if isKey key 'v' then .version
      else if isKey key 'w' then fun r _ => (if r.work then r else { r with work := true }, none)
      else .bad

/-- `LR_CommitRecord::BDecode`. -/
def bdecode : Reader LRCommitRecord := readDict onKey

/-- A record without a proof of work in full. -/
def encoding (r : LRCommitRecord) : Bytes :=
  [ascii 'd'] ++ (entryBytes 'c' (strBytes r.commkey.1) ++
    (entryBytes 'i' (strBytes r.nextHop.1) ++ (entryBytes 'n' (strBytes r.tunnelNonce.1) ++
      (entryBytes 'r' (strBytes r.rxid.1) ++ (entryBytes 't' (strBytes r.txid.1) ++
        (versionBytes ++ [ascii 'e']))))))

variable {r : LRCommitRecord}

lemma sure_bencode (h : r.work = false) : Sure r.bencode r.encoding := by
  have hsure : Sure (.all [startDict, writeDictEntry 'c' (writeBytestring r.commkey.1),
      writeDictEntry 'i' (writeBytestring r.nextHop.1),
      writeDictEntry 'n' (writeBytestring r.tunnelNonce.1),
      writeDictEntry 'r' (writeBytestring r.rxid.1),
      writeDictEntry 't' (writeBytestring r.txid.1), writeVersionEntry, bencodeEnd]) r.encoding :=
    .cons (emits_bufferWrite _) <| .cons (emits_writeDictEntry 'c' (emits_writeBytestring _)) <|
      .cons (emits_writeDictEntry 'i' (emits_writeBytestring _)) <|
      .cons (emits_writeDictEntry 'n' (emits_writeBytestring _)) <|
      .cons (emits_writeDictEntry 'r' (emits_writeBytestring _)) <|
      .cons (emits_writeDictEntry 't' (emits_writeBytestring _)) <|
      .cons emits_writeVersionEntry sure_bencodeEnd
  rw [bencode, h]
  exact hsure

lemma encoding_length (r : LRCommitRecord) : r.encoding.length = 166 := by
  have hone : (decimal 1).length = 1 := by decide
  have h16 : (decimal 16).length = 2 := by decide
  have h32 : (decimal 32).length = 2 := by decide
  have hversion : versionBytes.length = 6 := by decide
  simp [encoding, entryBytes, keyBytes, strBytes, hone, h16, h32, hversion]

section Keys

variable (x r : LRCommitRecord)

lemma reads_commkey : Reads (onKey (some [ascii 'c'])) x (strBytes r.commkey.1)
    (· = { x with commkey := r.commkey }) :=
  reads_blob (f := fun (x : LRCommitRecord) (k : PubKey) => { x with commkey := k }) r.commkey
    (by norm_num)

lemma reads_nextHop : Reads (onKey (some [ascii 'i'])) x (strBytes r.nextHop.1)
    (· = { x with nextHop := r.nextHop }) :=
  reads_blob (f := fun (x : LRCommitRecord) (k : PubKey) => { x with nextHop := k }) r.nextHop
    (by norm_num)

lemma reads_tunnelNonce : Reads (onKey (some [ascii 'n'])) x (strBytes r.tunnelNonce.1)
    (· = { x with tunnelNonce := r.tunnelNonce }) :=
  reads_blob (f := fun (x : LRCommitRecord) (n : Blob 32) => { x with tunnelNonce := n })
    r.tunnelNonce (by norm_num)

lemma reads_rxid : Reads (onKey (some [ascii 'r'])) x (strBytes r.rxid.1)
    (· = { x with rxid := r.rxid }) :=
  reads_blob (f := fun (x : LRCommitRecord) (i : Blob 16) => { x with rxid := i }) r.rxid
    (by norm_num)

lemma reads_txid : Reads (onKey (some [ascii 't'])) x (strBytes r.txid.1)
    (· = { x with txid := r.txid }) :=
  reads_blob (f := fun (x : LRCommitRecord) (i : Blob 16) => { x with txid := i }) r.txid
    (by norm_num)

end Keys

/-- Of these bytes the decoder makes the same record. -/
lemma reads_bdecode (h : r.work = false) {r₀ : LRCommitRecord} (h₀ : r₀.work = false) :
    Reads bdecode r₀ r.encoding (· = r) := by
  have hdone : { r with work := r₀.work } = r := by rw [h₀, ← h]
  exact reads_readDict <| .entry (reads_commkey _ r) <| .entry (reads_nextHop _ r) <|
    .entry (reads_tunnelNonce _ r) <| .entry (reads_rxid _ r) <| .entry (reads_txid _ r) <|
    .entry reads_version <| .nil <| ends_nil (fun _ => rfl) hdone

end LRCommitRecord

end Udap
