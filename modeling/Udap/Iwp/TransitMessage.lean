import Udap.Iwp.Wire
import Mathlib.Data.List.AList

/-!
`struct transit_message`: a link message cut into fragments, on its way out or being put
together.

* `putMessage` cuts a message, `generateXmit` and `retransmitFrags` write its frames.
* `inbound` allocates the message an `XMIT` announces, `putLastfrag` and `putFrag` fill it,
  `completed` and `reassemble` read it back.

Maps iterate in the order of their association lists; the order in which
`std::unordered_map` iterates is unspecified and nothing below depends on it. A test or a set
of a bit past the thirty-second throws, which is the fault `outOfRange`.
-/

namespace Udap.Iwp

open ByteMem

/-- Ways in which the program leaves its specified behaviour: `std::out_of_range` thrown by
the status bitset, and a null pointer dereference. -/
inductive Fault where
  | outOfRange | nullDeref
  deriving DecidableEq, Repr

/-- `struct transit_message`. Fragment numbers are the values of a byte. -/
structure TransitMessage where
  msginfo : Xmit
  status : BitVec 32
  frags : AList (fun _ : ℕ => Bytes)
  lastfrag : Bytes

namespace TransitMessage

/-! ### The status bitset -/

/-- `std::bitset::test`. -/
def statusTest (st : BitVec 32) (idx : ℕ) : Except Fault Bool :=
  if idx < 32 then .ok (st.getLsbD idx) else .error .outOfRange

/-- `std::bitset::set`. -/
def statusSet (st : BitVec 32) (idx : ℕ) : Except Fault (BitVec 32) :=
  if idx < 32 then .ok (st ||| BitVec.twoPow 32 idx) else .error .outOfRange

/-- `std::bitset::count`. -/
def statusCount (st : BitVec 32) : ℕ := (List.range 32).countP st.getLsbD

/-- `get_bitmask`: the loop over the thirty-two indices. -/
def getBitmask (msg : TransitMessage) : BitVec 32 :=
  (List.range 32).foldl
    (fun bitmask idx => bitmask ||| if msg.status.getLsbD idx then BitVec.twoPow 32 idx else 0) 0

/-- `ack`: sets every status bit of the mask. -/
def ack (bitmask : BitVec 32) (msg : TransitMessage) : TransitMessage :=
  let step := fun (st : BitVec 32) (idx : ℕ) =>
    if bitmask.getLsbD idx then st ||| BitVec.twoPow 32 idx else st
  { msg with status := (List.range 32).foldl step msg.status }

/-- `should_send_ack`. -/
def shouldSendAck (msg : TransitMessage) : Bool :=
  msg.msginfo.numfrags == 0 ||
    statusCount msg.status % (1 + msg.msginfo.numfrags / 2) == 0

/-- The loop of `completed` over the indices still to test. -/
def testAll (st : BitVec 32) : List ℕ → Except Fault Bool
  | [] => .ok true
  | idx :: rest => do
      if ← statusTest st idx then testAll st rest else return false

/-- `completed`. -/
def completed (msg : TransitMessage) : Except Fault Bool :=
  testAll msg.status (List.range msg.msginfo.numfrags)

/-! ### Sending -/

/-- The loop of `put_message`: `rest` is the message from `buf.cur` on, so its length is
`left`. The first argument bounds the iterations; each one consumes `fragsize` bytes. -/
def cutFrags (fragsize : ℕ) :
    ℕ → Bytes → ℕ → AList (fun _ : ℕ => Bytes) → Bytes × ℕ × AList (fun _ : ℕ => Bytes)
  | 0, rest, fragid, frags => (rest, fragid, frags)
  | fuel + 1, rest, fragid, frags =>
      if rest.length > fragsize then
        cutFrags fragsize fuel (rest.drop fragsize) ((fragid + 1) % 256)
          (frags.insert fragid (rest.take fragsize))
      else (rest, fragid, frags)

/-- The outbound constructor, `put_message` on a buffer with `cur = base`. The iteration bound
is the message length, enough for every `mtu` but `0`. -/
def putMessage (buf : Bytes) (hash : Blob 32) (id : UInt64) (mtu : ℕ := 1024) :
    TransitMessage :=
  match cutFrags mtu buf.length buf 0 ∅ with
  | (rest, fragid, frags) =>
      { msginfo := Xmit.setInfo hash id mtu rest.length (UInt8.ofNat fragid)
        status := 0
        frags := frags
        lastfrag := rest }

/-- `generate_xmit`: the frame it queues. -/
def generateXmit (msg : TransitMessage) (flags : UInt8) : Bytes :=
  initSendbuf .eXMIT (msg.lastfrag.length + 48) flags (msg.msginfo.buffer.1 ++ msg.lastfrag)

/-- The frame `retransmit_frags` queues for one fragment. -/
def fragFrame (msg : TransitMessage) (flags : UInt8) (fragno : ℕ) (frag : Bytes) : Bytes :=
  initSendbuf .eFRAG (9 + msg.msginfo.fragsize) flags
    (leBytes 8 msg.msginfo.msgid.toNat ++ (UInt8.ofNat fragno :: slice frag 0 msg.msginfo.fragsize))

/-- The loop of `retransmit_frags`. -/
def retransmitLoop (msg : TransitMessage) (flags : UInt8) :
    List (Sigma fun _ : ℕ => Bytes) → Except Fault (List Bytes)
  | [] => .ok []
  | ⟨fragno, frag⟩ :: rest => do
      let acked ← statusTest msg.status fragno
      let frames ← retransmitLoop msg flags rest
      return if acked then frames else fragFrame msg flags fragno frag :: frames

/-- `retransmit_frags`: the frames it queues, one for each fragment not acked. -/
def retransmitFrags (msg : TransitMessage) (flags : UInt8) : Except Fault (List Bytes) :=
  retransmitLoop msg flags msg.frags.entries

/-! ### Receiving -/

/-- The inbound constructor: every full fragment is allocated, none has arrived. -/
def inbound (x : Xmit) : TransitMessage where
  msginfo := x
  status := 0
  frags := (List.range x.numfrags).foldl
    (fun frags idx => frags.insert idx (List.replicate x.fragsize 0)) ∅
  lastfrag := []

/-- `put_lastfrag`. -/
def putLastfrag (buf : Bytes) (msg : TransitMessage) : TransitMessage :=
  { msg with lastfrag := buf }

/-- `put_frag`: `none` when the message has no such fragment. -/
def putFrag (fragno : ℕ) (buf : Bytes) (msg : TransitMessage) :
    Except Fault (Option TransitMessage) :=
  match msg.frags.lookup fragno with
  | none => .ok none
  | some frag => do
      let frag := memcpy frag 0 (slice buf 0 msg.msginfo.fragsize)
      let status ← statusSet msg.status fragno
      return some { msg with status := status, frags := msg.frags.insert fragno frag }

/-- The loop of `reassemble`: `ptr` is the offset of the next fragment in `buffer`. -/
def copyFrags (msg : TransitMessage) :
    List ℕ → Bytes → ℕ → Except Fault (Option (Bytes × ℕ))
  | [], buffer, ptr => .ok (some (buffer, ptr))
  | idx :: rest, buffer, ptr => do
      if ← statusTest msg.status idx then
        copyFrags msg rest
          (memcpy buffer ptr (slice ((msg.frags.lookup idx).getD []) 0 msg.msginfo.fragsize))
          (ptr + msg.msginfo.fragsize)
      else return none

/-- `reassemble`: `none` when a fragment is missing. -/
def reassemble (msg : TransitMessage) : Except Fault (Option Bytes) := do
  let buffer := List.replicate msg.msginfo.totalsize 0
  match ← copyFrags msg (List.range msg.msginfo.numfrags) buffer 0 with
  | none => return none
  | some (buffer, ptr) => return some (memcpy buffer ptr msg.lastfrag)

end TransitMessage

end Udap.Iwp
