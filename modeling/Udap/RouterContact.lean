import Udap.Bencode.Codec

/-!
Router contacts and the address and exit entries in them: `udap_rc`, `udap_ai` and `udap_xi`
with their codecs, and `udap_rc_verify_sig`.

`inet_pton`, `inet_ntop` and the signature check are parameters (`HostLib`). Memory that a
constructor leaves as it is (`Uninit`) is a parameter too; an object that is built while a
buffer is decoded takes its initial bytes from the position it is built at.
-/

namespace Udap

open ByteMem

/-- `udap::PubKey`, `udap::RouterID` and `udap::dht::Key_t`. -/
abbrev PubKey := Blob 32

/-- A blob of zeros. -/
def zeroBlob (n : ℕ) : Blob n := List.Vector.replicate n 0

/-- The C string at the start of a character array. -/
def cString (s : Bytes) : Bytes := s.takeWhile (· != 0)

/-- Functions of the host's libraries. -/
structure HostLib where
  /-- `inet_pton` for `AF_INET6`; a text that is no address leaves the target alone -/
  inetPton : Bytes → Option (Blob 16)
  /-- `inet_ntop` for `AF_INET6` -/
  inetNtop : Blob 16 → Option Bytes
  /-- `crypto_sign_verify_detached` on the public key, the message and the signature -/
  verify : PubKey → Bytes → Blob 64 → Bool

/-- An address as a text entry. -/
def writeAddress (lib : HostLib) (key : Char) (ip : Blob 16) : Writer :=
  match lib.inetNtop ip with
  | none => fun b => (b, false)
  | some text => .all [writeKey key, writeBytestring (cString text)]

/-! ### Address entries -/

/-- `udap_ai`. -/
structure AddressInfo where
  rank : UInt16
  dialect : Blob 6
  encKey : PubKey
  ip : Blob 16
  port : UInt16
  deriving DecidableEq

/-- What is in memory that is not initialised, by position. -/
structure Uninit where
  ai : ℕ → AddressInfo
  key : ℕ → PubKey
  pathid : Blob 16
  nonce : Blob 32

namespace AddressInfo

/-- The check of a rank or port, and its conversion to `uint16_t`. -/
def checkedPort (i : UInt64) : Option UInt16 :=
  if i > 65536 ∨ i ≤ 0 then none else some i.toUInt16

/-- `udap_ai_decode_key`. -/
def decodeKey (lib : HostLib) : Option Bytes → Reader AddressInfo
  | none => fun ai b => (ai, some b)
  | some key =>
      if isKey key 'c' then
        .integer fun ai i => (checkedPort i).map fun rank => { ai with rank := rank }
      else if isKey key 'd' then
        .string fun ai str =>
          if str.length ≥ 6 then none
          else some { ai with dialect := sliceBlob (memcpy ai.dialect.1 0 (str ++ [0])) 0 6 }
      else if isKey key 'e' then .blob 32 fun ai k => { ai with encKey := k }
      else if isKey key 'i' then
        .string fun ai str =>
          if str.length ≥ 128 then none
          else (lib.inetPton (cString str)).map fun ip => { ai with ip := ip }
      else if isKey key 'p' then
        .integer fun ai i => (checkedPort i).map fun port => { ai with port := port }
      else if isKey key 'v' then .version
      else .bad

/-- `udap_ai_bdecode`. -/
def bdecode (lib : HostLib) : Reader AddressInfo := readDict (decodeKey lib)

/-- `udap_ai_bencode`. -/
def bencode (lib : HostLib) (ai : AddressInfo) : Writer :=
  .all [startDict,
    writeKey 'c', writeUint16 ai.rank,
    writeKey 'd', writeBytestring (cString ai.dialect.1),
    writeKey 'e', writeBytestring ai.encKey.1,
    writeAddress lib 'i' ai.ip,
    writeKey 'p', writeUint16 ai.port,
    writeVersionEntry, bencodeEnd]

end AddressInfo

/-- `udap_ai_list_bdecode`; each entry is decoded in a local variable. -/
def aiListBdecode (lib : HostLib) (u : Uninit) : Reader (List AddressInfo) :=
  readList fun more l b =>
    if more then
      match AddressInfo.bdecode lib (u.ai b.cur) b with
      | (_, none) => (l, none)
      | (ai, some b) => (l ++ [ai], some b)
    else (l, some b)

/-- `udap_ai_list_iterate` and `udap_xi_list_iterate` with an encoder: they end at the first
entry that fails and do not report it. -/
def iterateBencode {α : Type} (encode : α → Writer) (l : List α) : Writer := fun b =>
  ((Writer.all (l.map encode) b).1, true)

/-- `udap_ai_list_bencode`. -/
def aiListBencode (lib : HostLib) (l : List AddressInfo) : Writer :=
  .all [startList, iterateBencode (AddressInfo.bencode lib) l, bencodeEnd]

/-! ### Exit entries -/

/-- `udap_xi`. -/
structure ExitInfo where
  address : Blob 16 := zeroBlob 16
  netmask : Blob 16 := zeroBlob 16
  pubkey : PubKey := zeroBlob 32
  deriving DecidableEq

namespace ExitInfo

/-- `udap_xi_decode_dict`. -/
def decodeDict (lib : HostLib) : Option Bytes → Reader ExitInfo
  | none => fun xi b => (xi, some b)
  | some key =>
      if isKey key 'a' then
        .string fun xi str =>
          if str.length ≥ 128 then none
          else (lib.inetPton (cString str)).map fun ip => { xi with address := ip }
      else if isKey key 'b' then
        .string fun xi str =>
          if str.length ≥ 128 then none
          else (lib.inetPton (cString str)).map fun ip => { xi with netmask := ip }
      else if isKey key 'k' then .blob 32 fun xi k => { xi with pubkey := k }
      else if isKey key 'v' then .version
      else .bad

/-- `udap_xi_bdecode`. -/
def bdecode (lib : HostLib) : Reader ExitInfo := readDict (decodeDict lib)

/-- `udap_xi_bencode`. -/
def bencode (lib : HostLib) (xi : ExitInfo) : Writer :=
  .all [startDict, writeAddress lib 'a' xi.address, writeAddress lib 'b' xi.netmask,
    writeKey 'k', writeBytestring xi.pubkey.1, writeVersionEntry, bencodeEnd]

end ExitInfo

/-- `udap_xi_list_bdecode`; each entry is decoded in the place it gets in the list, where
`emplace_back` has cleared it. -/
def xiListBdecode (lib : HostLib) : Reader (List ExitInfo) :=
  bencodeReadList {} (ExitInfo.bdecode lib)

/-- `udap_xi_list_bencode`. -/
def xiListBencode (lib : HostLib) (l : List ExitInfo) : Writer :=
  .all [startList, iterateBencode (ExitInfo.bencode lib) l, bencodeEnd]

/-! ### Router contacts -/

/-- `udap_rc`; a null list is `none`. -/
structure RouterContact where
  addrs : Option (List AddressInfo) := none
  enckey : PubKey := zeroBlob 32
  pubkey : PubKey := zeroBlob 32
  exits : Option (List ExitInfo) := none
  signature : Blob 64 := zeroBlob 64
  lastUpdated : UInt64 := 0
  deriving DecidableEq

/-- `MAX_RC_SIZE`. -/
def maxRCSize : ℕ := 1024

namespace RouterContact

/-- `udap_rc_decode_dict`. -/
def decodeDict (lib : HostLib) (u : Uninit) : Option Bytes → Reader RouterContact
  | none => fun rc b => (rc, some b)
  | some key =>
      if isKey key 'a' then
        .part (fun _ => []) (fun rc l => { rc with addrs := some l }) (aiListBdecode lib u)
      else if isKey key 'k' then .blob 32 fun rc k => { rc with pubkey := k }
      else if isKey key 'p' then .blob 32 fun rc k => { rc with enckey := k }
      else if isKey key 'u' then
        .part (·.lastUpdated) (fun rc t => { rc with lastUpdated := t }) fun t b =>
          b.readInteger t
      else if isKey key 'v' then .version
      else if isKey key 'x' then
        .part (fun _ => []) (fun rc l => { rc with exits := some l }) (xiListBdecode lib)
      else if isKey key 'z' then .blob 64 fun rc sig => { rc with signature := sig }
      else .bad

/-- `udap_rc_bdecode`. -/
def bdecode (lib : HostLib) (u : Uninit) : Reader RouterContact := readDict (decodeDict lib u)

/-- A list of a contact that may be absent. -/
def writeOptional {α : Type} (key : Char) (encode : List α → Writer) :
    Option (List α) → List Writer
  | none => []
  | some l => [writeKey key, encode l]

/-- `udap_rc_bencode`. -/
def bencode (lib : HostLib) (rc : RouterContact) : Writer :=
  .all ([startDict] ++ writeOptional 'a' (aiListBencode lib) rc.addrs ++
    [writeKey 'k', writeBytestring rc.pubkey.1,
      writeKey 'p', writeBytestring rc.enckey.1,
      writeKey 'u', writeUint64 rc.lastUpdated,
      writeVersionEntry] ++ writeOptional 'x' (xiListBencode lib) rc.exits ++
    [writeKey 'z', writeBytestring rc.signature.1, bencodeEnd])

/-- `udap_rc_verify_sig`; the signature is cleared for the time of the call. -/
def verifySig (lib : HostLib) (rc : RouterContact) : Bool :=
  let tmp : Buffer := { mem := fun _ => 0, cur := 0, sz := maxRCSize }
  match bencode lib { rc with signature := zeroBlob 64 } tmp with
  | (buf, true) => lib.verify rc.pubkey buf.written rc.signature
  | (_, false) => false

end RouterContact

end Udap
