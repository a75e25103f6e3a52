import Udap.Iwp.TransitMessage

/-!
`struct frame_state` and the part of `struct session` that drives it: the handlers of the
four frame types, queueing and retransmission, and the periodic `Tick`.

The router behind a session is a parameter (`LinkEnv`): what `HandleRecvLinkMessage` does with
a message, what it sends back over the same session meanwhile, whether `CheckRCValid` accepts
the remote contact, and the encoded link introduction. Reads of the clock are arguments.

`Session.outbound` holds the plaintext frames given to `encrypt_frame_async_send`,
`Session.handed` records the calls of `HandleRecvLinkMessage` and `Session.queued` those of
`sendto`, oldest first.
-/

namespace Udap.Iwp

open ByteMem

/-- `MAX_LINK_MSG_SIZE`. -/
def maxLinkMsgSize : ℕ := 32768

/-- A message for `session::sendto`: every caller encodes into a buffer of
`MAX_LINK_MSG_SIZE` bytes, or of `MAX_RC_SIZE + 64` for a link introduction. -/
abbrev LinkMessage := { m : Bytes // m.length ≤ maxLinkMsgSize }

/-- `SESSION_TIMEOUT`, in milliseconds. -/
def sessionTimeout : UInt64 := 10000

/-- `session::State`. -/
inductive State where
  | eInitial | eIntroRecv | eIntroSent | eIntroAckSent | eIntroAckRecv | eSessionStartSent
  | eLIMSent | eEstablished | eTimeout
  deriving DecidableEq, Repr

/-- What a session uses of the router and of its own contact data, of type `σ`. -/
structure LinkEnv (σ : Type) where
  /-- `crypto->shorthash` -/
  shorthash : Bytes → Blob 32
  /-- `router->HandleRecvLinkMessage`: the verdict, and the messages its handlers pass to
  `sendto` of this session on the way -/
  handleRecvLinkMessage : σ → Bytes → σ × Bool × List LinkMessage
  /-- `session::CheckRCValid` on the remote contact: the verdict, and what it leaves behind -/
  checkRCValid : σ → σ × Bool
  /-- `EncodeLIM` on our own contact -/
  encodeLIM : σ → Option LinkMessage
  /-- `server::MapAddr` of this session's address to the remote contact's identity -/
  mapAddr : σ → σ

/-- A router that accepts and drops every message, seen from a link on which only messages with
the hash `digest` travel. -/
def LinkEnv.discarding (digest : Blob 32) : LinkEnv Unit where
  shorthash _ := digest
  handleRecvLinkMessage _ _ := ((), true, [])
  checkRCValid _ := ((), true)
  encodeLIM _ := none
  mapAddr _ := ()

/-- `struct frame_state`; its counter `rxids` is never read. -/
structure FrameState where
  rxflags : UInt8 := 0
  txflags : UInt8 := 0
  txids : UInt64 := 0
  lastEvent : UInt64 := 0
  rx : AList (fun _ : UInt64 => TransitMessage) := ∅
  tx : AList (fun _ : UInt64 => TransitMessage) := ∅
  sendqueue : List Bytes := []

/-- The link protocol part of `struct session`. -/
structure Session (σ : Type) where
  frame : FrameState
  state : State
  peer : σ
  /-- queued calls of `send_keepalive` -/
  keepaliveJobs : ℕ := 0
  outbound : List Bytes := []
  handed : List (UInt64 × Bytes) := []
  queued : List (UInt64 × LinkMessage) := []

namespace FrameState

/-- `flags_agree`. -/
def flagsAgree (flags : UInt8) (f : FrameState) : Bool :=
  ((f.rxflags &&& flags) &&& (f.txflags &&& flags)) == flags

/-- `push_ackfor`. -/
def pushAckfor (id : UInt64) (bitmask : BitVec 32) (f : FrameState) : FrameState :=
  { f with sendqueue := f.sendqueue ++
      [initSendbuf .eACKS 12 f.txflags (leBytes 8 id.toNat ++ leBytes 4 bitmask.toNat)] }

/-- `queue_tx`: an id that is in use keeps its message. -/
def queueTx (id : UInt64) (msg : TransitMessage) (f : FrameState) : FrameState :=
  { f with
    tx := if id ∈ f.tx then f.tx else f.tx.insert id msg
    sendqueue := f.sendqueue ++ [msg.generateXmit f.txflags] }

/-- The loop of `retransmit` over the messages of `tx`. -/
def retransmitEntries (flags : UInt8) :
    List (Sigma fun _ : UInt64 => TransitMessage) → Except Fault (List Bytes)
  | [] => .ok []
  | ⟨_, msg⟩ :: rest => do
      let frames ← msg.retransmitFrags flags
      let more ← retransmitEntries flags rest
      return frames ++ more

/-- `retransmit`. -/
def retransmit (f : FrameState) : Except Fault FrameState := do
  let frames ← retransmitEntries f.txflags f.tx.entries
  return { f with sendqueue := f.sendqueue ++ frames }

/-- `alive`. -/
def alive (now : UInt64) (f : FrameState) : FrameState := { f with lastEvent := now }

end FrameState

namespace Session

variable {σ : Type} (env : LinkEnv σ)

/-! ### Elementary updates -/

/-- An inbound message is put into `rx`. -/
def stored (id : UInt64) (t : TransitMessage) (s : Session σ) : Session σ :=
  { s with frame := { s.frame with rx := s.frame.rx.insert id t } }

/-- An inbound message is acked. -/
def acking (id : UInt64) (mask : BitVec 32) (s : Session σ) : Session σ :=
  { s with frame := s.frame.pushAckfor id mask }

/-- An inbound message is removed from `rx`. -/
def eraseRx (id : UInt64) (s : Session σ) : Session σ :=
  { s with frame := { s.frame with rx := s.frame.rx.erase id } }

/-- A message is given to `HandleRecvLinkMessage`. -/
def handing (id : UInt64) (msg : Bytes) (s : Session σ) : Session σ :=
  { s with handed := s.handed ++ [(id, msg)] }

/-- The bits of an outbound message are updated in `tx`. -/
def noting (id : UInt64) (t : TransitMessage) (s : Session σ) : Session σ :=
  { s with frame := { s.frame with tx := s.frame.tx.insert id t } }

/-- An outbound message is removed from `tx`. -/
def retired (id : UInt64) (s : Session σ) : Session σ :=
  { s with frame := { s.frame with tx := s.frame.tx.erase id } }

/-- Frames are put into the send queue. -/
def queueing (frames : List Bytes) (s : Session σ) : Session σ :=
  { s with frame := { s.frame with sendqueue := s.frame.sendqueue ++ frames } }

/-- The peer invalidated the session. -/
def flaggedRx (s : Session σ) : Session σ :=
  { s with frame := { s.frame with rxflags := s.frame.rxflags ||| eSessionInvalidated } }

/-- We invalidated the session. -/
def flaggedTx (s : Session σ) : Session σ :=
  { s with frame := { s.frame with txflags := s.frame.txflags ||| eSessionInvalidated } }

/-- A keepalive frame, eight bytes that are all zero but the flags, is given to
`encrypt_frame_async_send`. -/
def keeping (s : Session σ) : Session σ :=
  { s with outbound := s.outbound ++ [initSendbuf .eALIV 0 s.frame.txflags [0, 0]] }

/-! ### Sending and states -/

/-- `pump`: every queued frame is given to `encrypt_frame_async_send`. -/
def pump (s : Session σ) : Session σ :=
  { s with
    frame := { s.frame with sendqueue := [] }
    outbound := s.outbound ++ s.frame.sendqueue }

/-- `add_outbound_message`. -/
def addOutboundMessage (id : UInt64) (msg : TransitMessage) (s : Session σ) : Session σ :=
  { s with frame := s.frame.queueTx id msg }.pump

/-- `sendto`. -/
def sendto (s : Session σ) (msg : LinkMessage) : Session σ :=
  { s with
    frame := { s.frame with txids := s.frame.txids + 1 }
    queued := s.queued ++ [(s.frame.txids, msg)] }.addOutboundMessage
    s.frame.txids (.putMessage msg.1 (env.shorthash msg.1) s.frame.txids)

/-- `EnterState`; starting the encryption worker has no counterpart here. -/
def enterState (now : UInt64) (st : State) (s : Session σ) : Session σ :=
  { s with frame := s.frame.alive now, state := st }

/-- `send_LIM`. -/
def sendLIM (now : UInt64) (s : Session σ) : Session σ :=
  match env.encodeLIM s.peer with
  | some msg => (s.sendto env msg).enterState now .eLIMSent
  | none => s

/-- `IsEstablished`. -/
def isEstablished (s : Session σ) : Bool := s.state == .eEstablished

/-- `session_established`. -/
def sessionEstablished (now : UInt64) (s : Session σ) : Session σ :=
  { s.enterState now .eEstablished with peer := env.mapAddr s.peer }

/-- `close`. -/
def close (s : Session σ) : Session σ :=
  { s.flaggedTx with keepaliveJobs := s.keepaliveJobs + 1 }

/-- `is_invalidated`. -/
def isInvalidated (s : Session σ) : Bool := s.frame.flagsAgree eSessionInvalidated

/-- `timedout`, in unsigned arithmetic. -/
def timedout (now : UInt64) (s : Session σ) : Bool := now - s.frame.lastEvent ≥ sessionTimeout

/-! ### Receiving -/

/-- The call of `HandleRecvLinkMessage` and of what its handlers send over this session. -/
def handOver (id : UInt64) (msg : Bytes) (s : Session σ) : Session σ × Bool :=
  match env.handleRecvLinkMessage s.peer msg with
  | (peer, success, sends) =>
      (sends.foldl (sendto env) { s.handing id msg with peer := peer }, success)

/-- What a valid contact in message `0` leads to, unless the session is established. -/
def accepted (now : UInt64) (s : Session σ) : Session σ :=
  if s.isEstablished then s else (s.sendLIM env now).sessionEstablished env now

/-- The treatment of message `0` after it was handled: it carries the link introduction. -/
def introduced (now : UInt64) (s : Session σ) : Session σ × Bool :=
  match env.checkRCValid s.peer with
  | (peer, true) => ({ s with peer := peer }.accepted env now, true)
  | (peer, false) => ({ s with peer := peer }.close, false)

/-- The body of `inbound_frame_complete` for a reassembled message with the right hash. -/
def completeMessage (now : UInt64) (id : UInt64) (msg : Bytes) (s : Session σ) :
    Session σ × Bool :=
  match s.handOver env id msg with
  | (s, success) => if success && id == 0 then s.introduced env now else (s, success)

/-- `inbound_frame_complete`. A message whose hash does not match stays in `rx`. -/
def inboundFrameComplete (now : UInt64) (id : UInt64) (s : Session σ) :
    Except Fault (Session σ × Bool) :=
  match s.frame.rx.lookup id with
  | none => .error .nullDeref
  | some rxmsg => do
      match ← rxmsg.reassemble with
      | none => return (s.eraseRx id, false)
      | some msg =>
          if env.shorthash msg ≠ rxmsg.msginfo.hash then return (s, false)
          else
            let done := s.completeMessage env now id msg
            return (done.1.eraseRx id, done.2)

/-- `got_xmit`; `sz` is the number of bytes after the frame header. -/
def gotXmit (now : UInt64) (buf : Bytes) (sz : ℕ) (s : Session σ) :
    Except Fault (Session σ × Bool) :=
  let x := Xmit.ofFrame buf
  let id := x.msgid
  if hdrSize buf > sz then .ok (s, false)
  else if usub (hdrSize buf) 48 < x.lastfrag then .ok (s, false)
  else if x.flags &&& 0x01 = 0 then .ok (s, false)
  else if id ∈ s.frame.rx then .ok (s, false)
  else
    let msg := (TransitMessage.inbound x).putLastfrag (hdrData buf 48 x.lastfrag)
    let s := (s.stored id msg).acking id 0
    if x.numfrags = 0 then s.inboundFrameComplete env now id else .ok (s, true)

/-- `got_frag`. -/
def gotFrag (now : UInt64) (buf : Bytes) (sz : ℕ) (s : Session σ) :
    Except Fault (Session σ × Bool) :=
  let msgid := UInt64.ofNat (leNat (hdrData buf 0 8))
  let fragno := leNat (hdrData buf 8 1)
  if hdrSize buf > sz then .ok (s, false)
  else if hdrSize buf ≤ 9 then .ok (s, false)
  else
    match s.frame.rx.lookup msgid with
    | none => .ok (s, true)
    | some msg =>
        if msg.msginfo.fragsize ≠ hdrSize buf - 9 then .ok (s, false)
        else do
          match ← msg.putFrag fragno (hdrData buf 9 msg.msginfo.fragsize) with
          | none => return (s, false)
          | some msg =>
              let s := s.stored msgid msg
              let acked := s.acking msgid msg.getBitmask
              if ← msg.completed then acked.inboundFrameComplete env now msgid
              else if msg.shouldSendAck then return (acked, true)
              else return (s, true)

/-- `got_acks`. -/
def gotAcks (buf : Bytes) (sz : ℕ) (s : Session σ) : Except Fault (Session σ × Bool) :=
  let msgid := UInt64.ofNat (leNat (hdrData buf 0 8))
  let bitmask := BitVec.ofNat 32 (leNat (hdrData buf 8 4))
  if hdrSize buf > sz then .ok (s, false)
  else if hdrSize buf < 12 then .ok (s, false)
  else
    match s.frame.tx.lookup msgid with
    | none => .ok (s, true)
    | some msg => do
        let msg := msg.ack bitmask
        if ← msg.completed then return (s.retired msgid, true)
        else
          let frames ← msg.retransmitFrags s.frame.txflags
          return ((s.noting msgid msg).queueing frames, true)

/-- The flag handling at the head of `process`. -/
def noteFlags (buf : Bytes) (s : Session σ) : Session σ :=
  if hdrFlags buf &&& eSessionInvalidated = 0 then s else s.flaggedRx

/-- The `eALIV` branch of `process`. -/
def gotAliv (s : Session σ) : Session σ :=
  if s.frame.rxflags &&& eSessionInvalidated = 0 then s else s.flaggedTx

/-- `frame_state::process`: `buf` is the decrypted frame and `sz` its size. -/
def process (now : UInt64) (buf : Bytes) (sz : ℕ) (s : Session σ) :
    Except Fault (Session σ × Bool) :=
  let s := s.noteFlags buf
  match MsgType.ofByte (hdrMsgtype buf) with
  | some .eALIV => .ok (s.gotAliv, true)
  | some .eXMIT => s.gotXmit env now buf (usub sz 6)
  | some .eACKS => s.gotAcks buf (usub sz 6)
  | some .eFRAG => s.gotFrag env now buf (usub sz 6)
  | none => .ok (s, false)

/-- `handle_frame_decrypt` on a frame that decrypted. -/
def handleFrameDecrypt (now : UInt64) (buf : Bytes) (s : Session σ) :
    Except Fault (Session σ) := do
  let done ← s.process env now buf buf.length
  if done.2 then return { done.1 with frame := done.1.frame.alive now }.pump
  else return done.1

/-! ### Timers -/

/-- `send_keepalive`. -/
def sendKeepalive (s : Session σ) : Session σ :=
  if s.isInvalidated then s else s.keeping.pump

/-- What `Tick` does to a session that stays. -/
def tickLive (s : Session σ) : Except Fault (Session σ) :=
  let s := if s.state = .eEstablished ∨ s.state = .eLIMSent then s.sendKeepalive else s
  if s.state = .eEstablished then do
    let frame ← s.frame.retransmit
    return { s with frame := frame }.pump
  else .ok s

/-- `Tick`: `true` asks the server to remove the session; `working` is the flag of a running
handshake job. -/
def tick (now : UInt64) (working : Bool) (s : Session σ) : Except Fault (Session σ × Bool) :=
  if s.timedout now then .ok (s, !working)
  else if s.isInvalidated then .ok (s, !working)
  else do
    let s ← s.tickLive
    return (s, false)

end Session

end Udap.Iwp
