import Udap.Api.Message

/-!
`api::MessageParser`, and what it makes of the messages `IMessage::BEncode` writes.

The encoder writes the name of the function under the key `F`, and the parser expects it under `f`.
Moreover the parser never lets go of the message it has read, and takes the next one for more
entries of it.

* `parseMessage_encoding`: the parser refuses every message that was encoded, in whatever state.
* `all_returned_iff`: only the empty sequence of messages comes back.
-/

namespace Udap.Api

open ByteMem

/-- `MessageParser`. -/
structure MessageParser where
  msg : Option IMessage := none

namespace MessageParser

/-- `funcmap`. -/
def funcmap (funcname : Bytes) : Option Function :=
  if funcname = Function.createSession.name then some .createSession else none

/-- `OnKey`; `u` is the hash of a new message, which its constructor does not set. -/
def onKey (u : Blob 32) : Option Bytes → Reader MessageParser
  | none => fun p b => (p, if p.msg.isSome then some b else none)
  | some key => fun p b =>
      match p.msg with
      | none =>
          if isKey key 'f' then
            Reader.string (fun _ funcname => (funcmap funcname).map fun function =>
              ⟨some { function := function, hash := u }⟩) p b
          else (p, none)
      | some m =>
          Reader.part (fun _ => m) (fun _ m => ⟨some m⟩)
            (IMessage.decodeKey key) p b

/-- `ParseMessage`. -/
def parseMessage (u : Blob 32) (p : MessageParser) (b : Buffer) :
    MessageParser × Option IMessage :=
  match readDict (onKey u) p b with
  | (p, some _) => (p, p.msg)
  | (p, none) => (p, none)

variable {u : Blob 32} {p : MessageParser} {b : Buffer} {m : IMessage}

/-- `ParseMessage` on a dictionary whose first entry is refused. -/
lemma parseMessage_refused {c : Char} {s t : Bytes}
    (h : ∀ b, onKey u (some [ascii c]) p b = (p, none))
    (hb : b.Holds ([ascii 'd'] ++ (entryBytes c s ++ t))) : p.parseMessage u b = (p, none) := by
  have hends : Ends (readDict (onKey u)) p ([ascii 'd'] ++ (entryBytes c s ++ t))
      fun p' ok => p' = p ∧ ok = false := ends_readDict (.refused (fun b _ => h b) ⟨rfl, rfl⟩)
  obtain ⟨p', ok, hr, rfl, rfl⟩ := hends b hb
  rw [parseMessage, hr]
  rfl

/-- The parser refuses every message that was encoded, and is left as it was. -/
lemma parseMessage_encoding (hb : b.Holds m.encoding) : p.parseMessage u b = (p, none) := by
  refine parseMessage_refused (fun b => ?_) hb
  obtain ⟨_ | m'⟩ := p
  · rfl
  · rfl

end MessageParser

/-! ### A sequence of messages -/

/-- A message to create a session, before it is encoded; `memory` is the hash that its constructor
leaves, and `tmp` what is on the stack of `CalculateHash`. -/
structure Draft where
  sessionID : UInt64
  msgID : UInt64
  password : Bytes
  memory : Blob 32
  tmp : ℕ → UInt8

/-- The message with its hash. -/
def Draft.message (S : Sodium) (d : Draft) : IMessage :=
  IMessage.calculateHash S d.tmp d.password
    { function := .createSession, sessionID := d.sessionID, msgID := d.msgID, hash := d.memory }

/-- The message encoded to a buffer, and the buffer it arrives in. -/
structure Sending (S : Sodium) extends Draft where
  outbound : Buffer
  rewound : outbound.cur = 0
  encoded : ((toDraft.message S).bencode outbound).2 = true
  inbound : Buffer
  received : inbound.Holds ((toDraft.message S).bencode outbound).1.written
  /-- the hash that the constructor of the message leaves which the parser makes -/
  fresh : Blob 32

namespace Sending

variable {S : Sodium}

/-- The message is given to the parser. -/
def deliver (s : Sending S) (p : MessageParser) : MessageParser × Option IMessage :=
  p.parseMessage s.fresh s.inbound

/-- `ParseMessage` has returned the message that was sent, and it is well formed under the same
password and left as it was. -/
def Returned (s : Sending S) (r : Option IMessage) : Prop :=
  ∃ m, r = some m ∧ m.function = .createSession ∧ m.sessionID = s.sessionID ∧
    m.msgID = s.msgID ∧ m.hash = (s.message S).hash ∧
    ∀ tmp, m.isWellFormed S tmp s.password = (m, true)

/-- Every message of a sequence is returned by the one parser they are given to. -/
def AllReturned : List (Sending S) → MessageParser → Prop
  | [], _ => True
  | s :: l, p => s.Returned (s.deliver p).2 ∧ AllReturned l (s.deliver p).1

/-- No message is returned. -/
lemma deliver_eq (s : Sending S) (p : MessageParser) : s.deliver p = (p, none) := by
  have hsure := (s.message S).sure_bencode
  have hin : s.outbound.Inside := by
    rw [Buffer.Inside, s.rewound]
    exact Nat.zero_le _
  have hwritten := (hsure.wrote _ hin s.encoded).written
  have hnone : s.outbound.written = [] := by
    rw [Buffer.written_eq, s.rewound]
    rfl
  have hheld := s.received
  rw [hwritten, hnone, List.nil_append] at hheld
  exact MessageParser.parseMessage_encoding hheld

/-- **No encoded message parses back.** For every sequence of messages, each with any ids and
password and with the hash of `CalculateHash`, encoded by `BEncode` and given to one parser: all of
them are returned, with their ids and their hash, and are well formed under their passwords, if and
only if there are none. -/
theorem all_returned_iff (S : Sodium) (l : List (Sending S)) : AllReturned l {} ↔ l = [] := by
  constructor
  · intro h
    cases l with
    | nil => rfl
    | cons s l =>
        obtain ⟨m, hm, -⟩ := h.1
        rw [deliver_eq] at hm
        cases hm
  · rintro rfl
    trivial

/-- The message of the unit test, with other hash functions. -/
def sessionDraft : Draft := ⟨12345, 0, "password".toList.map ascii, zeroBlob 32, fun _ => 0⟩

/-- Hash functions that give zeros. -/
def zeroHashes : Sodium := ⟨fun _ _ => none, fun _ => zeroBlob 32, fun _ _ => zeroBlob 32,
  fun _ _ _ => 0⟩

/-- One message is not returned, though its integers are other than `2 ^ 64 - 1`. -/
theorem not_all_returned : ∃ s : Sending zeroHashes, s.sessionID ≠ -1 ∧ s.msgID ≠ -1 ∧
    ¬ AllReturned [s] {} := by
  obtain ⟨buf, hbuf, -⟩ := (sessionDraft.message zeroHashes).bencode_tmpBuffer fun _ => 0
  let s : Sending zeroHashes :=
    { sessionDraft with
      outbound := IMessage.tmpBuffer fun _ => 0
      rewound := rfl
      encoded := by rw [hbuf]
      inbound := .ofBytes _ fun _ => 0
      received := Buffer.holds_ofBytes _ _
      fresh := zeroBlob 32 }
  have hI : sessionDraft.sessionID ≠ -1 := by decide
  have hM : sessionDraft.msgID ≠ -1 := by decide
  refine ⟨s, hI, hM, fun h => ?_⟩
  obtain ⟨m, hm, -⟩ := h.1
  rw [deliver_eq] at hm
  cases hm

end Sending

end Udap.Api
