import Udap.Lib.Bytes

/-!
The plaintext frames of the link protocol: the six byte frame header and the `XMIT`
header, as the bytes they occupy.

* `initSendbuf` lays out a frame; `hdrSize_initSendbuf` and its companions read the header
  back whatever follows the frame, and `slice_initSendbuf` reads the body.
* `Xmit.setInfo` lays out the `XMIT` header; `Xmit.msgid_setInfo` and its companions read
  each field back.

Integers travel in the byte order of the host, which both ends are assumed to share.
-/

namespace Udap.Iwp

open ByteMem

/-! ### The frame header -/

/-- The frame types, `enum msgtype`. -/
inductive MsgType where
  | eALIV | eXMIT | eACKS | eFRAG
  deriving DecidableEq, Repr

/-- The byte a frame type travels as. -/
def MsgType.code : MsgType → UInt8
  | .eALIV => 0x00
  | .eXMIT => 0x01
  | .eACKS => 0x02
  | .eFRAG => 0x03

/-- The `switch` of `frame_state::process`: any other byte is an invalid header. -/
def MsgType.ofByte (b : UInt8) : Option MsgType :=
  if b = 0x00 then some .eALIV
  else if b = 0x01 then some .eXMIT
  else if b = 0x02 then some .eACKS
  else if b = 0x03 then some .eFRAG
  else none

@[simp] lemma MsgType.ofByte_code (t : MsgType) : MsgType.ofByte t.code = some t := by
  cases t <;> rfl

/-- The flag bit of `header_flag` that the code reads and sets. -/
def eSessionInvalidated : UInt8 := 1

/-- Size of the frame header, the offset `frame_header::data` adds. -/
def headerSize : ℕ := 6

/-- `frame_header::msgtype`. -/
def hdrMsgtype (buf : Bytes) : UInt8 := buf.getD 1 0

/-- `frame_header::size`. -/
def hdrSize (buf : Bytes) : ℕ := leNat (slice buf 2 2)

/-- `frame_header::flags`. -/
def hdrFlags (buf : Bytes) : UInt8 := buf.getD 5 0

/-- `len` bytes at offset `off` of `frame_header::data`. -/
def hdrData (buf : Bytes) (off len : ℕ) : Bytes := slice buf (headerSize + off) len

/-- The six header bytes `init_sendbuf` writes. -/
def headerBytes (t : MsgType) (sz : ℕ) (flags : UInt8) : Bytes :=
  [0, t.code] ++ (leBytes 2 sz ++ [0, flags])

@[simp] lemma headerBytes_length (t : MsgType) (sz : ℕ) (flags : UInt8) :
    (headerBytes t sz flags).length = headerSize := by
  simp [headerBytes, headerSize]

/-- `init_sendbuf` together with the copy of the body behind the header. -/
def initSendbuf (t : MsgType) (sz : ℕ) (flags : UInt8) (body : Bytes) : Bytes :=
  headerBytes t sz flags ++ body

@[simp] lemma initSendbuf_length (t : MsgType) (sz : ℕ) (flags : UInt8) (body : Bytes) :
    (initSendbuf t sz flags body).length = 6 + body.length := by
  simp [initSendbuf, headerSize]

section Header

variable (t : MsgType) (sz : ℕ) (flags : UInt8) (body pad : Bytes)

@[simp] lemma hdrMsgtype_initSendbuf :
    hdrMsgtype (initSendbuf t sz flags body ++ pad) = t.code := rfl

@[simp] lemma hdrFlags_initSendbuf :
    hdrFlags (initSendbuf t sz flags body ++ pad) = flags := rfl

/-- The size field is sixteen bits wide. -/
@[simp] lemma hdrSize_initSendbuf :
    hdrSize (initSendbuf t sz flags body ++ pad) = sz % 65536 := by
  have h : initSendbuf t sz flags body ++ pad =
      [0, t.code] ++ (leBytes 2 sz ++ ([0, flags] ++ (body ++ pad))) := by
    simp [initSendbuf, headerBytes]
  rw [hdrSize, h, slice_mid (show [0, t.code].length = 2 from rfl) (leBytes_length 2 sz),
    leNat_leBytes_two]

/-- What follows the header is the body and the bytes after it. -/
lemma hdrData_initSendbuf (off len : ℕ) :
    hdrData (initSendbuf t sz flags body ++ pad) off len = slice (body ++ pad) off len := by
  have hl := headerBytes_length t sz flags
  rw [hdrData, initSendbuf, List.append_assoc, slice, slice, ← List.drop_drop, ← hl,
    List.drop_left]

end Header

/-! ### The `XMIT` header -/

/-- `struct xmit`: forty-eight bytes. -/
structure Xmit where
  buffer : Blob 48
  deriving DecidableEq

namespace Xmit

/-- The constructor from a pointer into a frame. -/
def ofFrame (buf : Bytes) : Xmit := ⟨⟨hdrData buf 0 48, slice_length _ _ _⟩⟩

/-- `xmit::hash`. -/
def hash (x : Xmit) : Blob 32 := sliceBlob x.buffer.1 0 32

/-- `xmit::msgid`. -/
def msgid (x : Xmit) : UInt64 := UInt64.ofNat (leNat (slice x.buffer.1 32 8))

/-- `xmit::fragsize`: size of each full fragment. -/
def fragsize (x : Xmit) : ℕ := leNat (slice x.buffer.1 40 2)

/-- `xmit::lastfrag`: size of the last fragment. -/
def lastfrag (x : Xmit) : ℕ := leNat (slice x.buffer.1 42 2)

/-- `xmit::numfrags`: number of full fragments. -/
def numfrags (x : Xmit) : ℕ := (x.buffer.1.getD 46 0).toNat

/-- `xmit::flags`. -/
def flags (x : Xmit) : UInt8 := x.buffer.1.getD 47 0

/-- `xmit::totalsize`: size of the entire message. -/
def totalsize (x : Xmit) : ℕ := x.fragsize * x.numfrags + x.lastfrag

/-- The bytes `xmit::set_info` writes. -/
def infoBytes (hash : Blob 32) (id : UInt64) (fragsz lastsz : ℕ) (numfrags flags : UInt8) :
    Bytes :=
  hash.1 ++ (leBytes 8 id.toNat ++ (leBytes 2 fragsz ++ (leBytes 2 lastsz ++
    [0, 0, numfrags, flags])))

lemma infoBytes_length (hash : Blob 32) (id : UInt64) (fragsz lastsz : ℕ)
    (numfrags flags : UInt8) : (infoBytes hash id fragsz lastsz numfrags flags).length = 48 := by
  simp [infoBytes, hash.2]

/-- `xmit::set_info`. -/
def setInfo (hash : Blob 32) (id : UInt64) (fragsz lastsz : ℕ) (numfrags : UInt8)
    (flags : UInt8 := 0x01) : Xmit :=
  ⟨⟨infoBytes hash id fragsz lastsz numfrags flags, infoBytes_length _ _ _ _ _ _⟩⟩

section SetInfo

variable (h : Blob 32) (id : UInt64) (fragsz lastsz : ℕ) (n f : UInt8)

lemma buffer_setInfo : (setInfo h id fragsz lastsz n f).buffer.1 =
    h.1 ++ (leBytes 8 id.toNat ++ (leBytes 2 fragsz ++ (leBytes 2 lastsz ++ [0, 0, n, f]))) :=
  rfl

@[simp] lemma hash_setInfo : (setInfo h id fragsz lastsz n f).hash = h := by
  apply Subtype.ext
  exact slice_head h.2

@[simp] lemma msgid_setInfo : (setInfo h id fragsz lastsz n f).msgid = id := by
  have hlt : id.toNat < 256 ^ 8 := id.toNat_lt
  rw [msgid, buffer_setInfo, slice_mid h.2 (leBytes_length _ _), leNat_leBytes_of_lt hlt]
  exact UInt64.ofNat_toNat

@[simp] lemma fragsize_setInfo : (setInfo h id fragsz lastsz n f).fragsize = fragsz % 65536 := by
  rw [fragsize, buffer_setInfo, ← List.append_assoc h.1,
    slice_mid (by simp [h.2]) (leBytes_length _ _), leNat_leBytes_two]

@[simp] lemma lastfrag_setInfo : (setInfo h id fragsz lastsz n f).lastfrag = lastsz % 65536 := by
  rw [lastfrag, buffer_setInfo, ← List.append_assoc h.1, ← List.append_assoc (h.1 ++ _),
    slice_mid (by simp [h.2]) (leBytes_length _ _), leNat_leBytes_two]

/-- The four trailing bytes of the header. -/
lemma getD_setInfo (i : ℕ) :
    (setInfo h id fragsz lastsz n f).buffer.1.getD (44 + i) 0 = [0, 0, n, f].getD i 0 := by
  have hlen : (h.1 ++ (leBytes 8 id.toNat ++ (leBytes 2 fragsz ++ leBytes 2 lastsz))).length
      = 44 := by simp [h.2]
  have hsplit : (setInfo h id fragsz lastsz n f).buffer.1 =
      (h.1 ++ (leBytes 8 id.toNat ++ (leBytes 2 fragsz ++ leBytes 2 lastsz))) ++
        [0, 0, n, f] := by
    simp [buffer_setInfo]
  rw [hsplit, List.getD_eq_getElem?_getD, List.getElem?_append_right (by omega), hlen,
    Nat.add_sub_cancel_left, List.getD_eq_getElem?_getD]

@[simp] lemma numfrags_setInfo : (setInfo h id fragsz lastsz n f).numfrags = n.toNat :=
  congrArg UInt8.toNat (getD_setInfo h id fragsz lastsz n f 2)

@[simp] lemma flags_setInfo : (setInfo h id fragsz lastsz n f).flags = f :=
  getD_setInfo h id fragsz lastsz n f 3

end SetInfo

end Xmit

end Udap.Iwp
