import Udap.Dht.Message
import Udap.Iwp.Session

/-!
Link messages and `InboundMessageParser`.

The parser works for one session at a time. A link introduction is decoded in place into the
contact of the remote router that the session keeps, also where the decode fails half way; every
other message takes the public key of that contact as its sender when its first key is read.

What the router does with the messages it handles is a parameter; `HandleMessage` of a link
introduction and of a discard message does nothing.
-/

namespace Udap

open ByteMem Iwp

/-- `RelayUpstreamMessage` and `RelayDownstreamMessage`. -/
structure RelayMessage where
  remote : PubKey
  pathid : Blob 16
  X : Bytes := []
  Y : Blob 32
  deriving DecidableEq

/-- `ILinkMessage` by kind; the `remote` of a link introduction is only logged. -/
inductive LinkMsg where
  | intro
  | relayDownstream (m : RelayMessage)
  | relayUpstream (m : RelayMessage)
  | dhtImmediate (remote : PubKey) (msgs : List Dht.Message)
  | lrAck (remote : PubKey)
  | lrCommit (remote : PubKey) (frames : List Bytes)
  | discard (remote : PubKey) (pad : Bytes)
  deriving DecidableEq

namespace LinkMsg

/-- `ILinkMessage::remote` of a message other than a link introduction. -/
def remote : LinkMsg → Option PubKey
  | intro => none
  | relayDownstream m => some m.remote
  | relayUpstream m => some m.remote
  | dhtImmediate remote _ => some remote
  | lrAck remote => some remote
  | lrCommit remote _ => some remote
  | discard remote _ => some remote

end LinkMsg

/-- `MAX_DISCARD_SIZE`. -/
def maxDiscardSize : ℕ := 10000

/-- `Encrypted::BDecode`. -/
def encryptedBdecode : Reader Bytes := .string fun _ str => if str = [] then none else some str

/-- `RelayUpstreamMessage::DecodeKey` and `RelayDownstreamMessage::DecodeKey`. -/
def RelayMessage.decodeKey (key : Bytes) : Reader RelayMessage :=
  if isKey key 'p' then .blob 16 fun m p => { m with pathid := p }
  else if isKey key 'v' then .version
  else if isKey key 'x' then .part (·.X) (fun m x => { m with X := x }) encryptedBdecode
  else if isKey key 'y' then .blob 32 fun m y => { m with Y := y }
  else .bad

/-- What `OnKey` works on: the message being read, the remote contact of the session and the
router, with the messages handled so far and what their handlers sent over the session. -/
structure InboundMessageParser (ρ : Type) where
  firstkey : Bool
  msg : Option LinkMsg
  remoteRouter : RouterContact
  router : ρ
  dispatched : List LinkMsg := []
  sends : List LinkMessage := []

namespace InboundMessageParser

variable {ρ : Type}

/-- What a message handler of the router may do: its verdict and its sends over the session. -/
abbrev Handler (ρ : Type) := ρ → LinkMsg → ρ × Bool × List LinkMessage

/-- `HandleMessage`. -/
def handleMessage (handle : Handler ρ) (router : ρ) : LinkMsg → ρ × Bool × List LinkMessage
  | .intro => (router, true, [])
  | .discard _ _ => (router, true, [])
  | msg => handle router msg

/-- `GetCurrentFrom`. -/
def getCurrentFrom (p : InboundMessageParser ρ) : PubKey := p.remoteRouter.pubkey

/-- The message that the type in the first entry asks for. -/
def newMessage (u : Uninit) (p : InboundMessageParser ρ) (type : Bytes) : Option LinkMsg :=
  let relay : RelayMessage :=
    { remote := p.getCurrentFrom, pathid := u.pathid, Y := u.nonce }
  if type = [ascii 'i'] then some .intro
  else if type = [ascii 'd'] then some (.relayDownstream relay)
  else if type = [ascii 'u'] then some (.relayUpstream relay)
  else if type = [ascii 'm'] then some (.dhtImmediate p.getCurrentFrom [])
  else if type = [ascii 'a'] then some (.lrAck p.getCurrentFrom)
  else if type = [ascii 'c'] then some (.lrCommit p.getCurrentFrom [])
  else if type = [ascii 'z'] then some (.discard p.getCurrentFrom [])
  else none

/-- `LinkIntroMessage::DecodeKey`. -/
def introDecodeKey (lib : HostLib) (u : Uninit) (key : Bytes) : Reader RouterContact :=
  if isKey key 'r' then RouterContact.bdecode lib u
  else if isKey key 'v' then .version
  else .bad

/-- `DecodeKey` of the message being read. -/
def decodeKey (lib : HostLib) (u : Uninit) (key : Bytes) : LinkMsg →
    Reader (InboundMessageParser ρ)
  | .intro => .part (·.remoteRouter) (fun p rc => { p with remoteRouter := rc })
      (introDecodeKey lib u key)
  | .relayDownstream m =>
      .part (fun _ => m) (fun p m => { p with msg := some (.relayDownstream m) })
        (RelayMessage.decodeKey key)
  | .relayUpstream m => .part (fun _ => m) (fun p m => { p with msg := some (.relayUpstream m) })
      (RelayMessage.decodeKey key)
  | .dhtImmediate remote msgs =>
      .part (fun _ => msgs) (fun p msgs => { p with msg := some (.dhtImmediate remote msgs) })
        (if isKey key 'm' then Dht.decodeMesssageList lib u remote
          else if isKey key 'v' then .version else .bad)
  | .lrAck _ => .bad
  | .lrCommit remote frames =>
      .part (fun _ => frames) (fun p frames => { p with msg := some (.lrCommit remote frames) })
        (if isKey key 'c' then bencodeReadList (List.replicate 352 0) encryptedBdecode
          else if isKey key 'v' then .version else .bad)
  | .discard remote pad =>
      .part (fun _ => pad) (fun p pad => { p with msg := some (.discard remote pad) })
        (if isKey key 'v' then .version
          else if isKey key 'z' then
            .string fun _ str => if str.length > maxDiscardSize then none else some str
          else .bad)

/-- `MessageDone`. -/
def messageDone (handle : Handler ρ) (p : InboundMessageParser ρ) :
    InboundMessageParser ρ × Bool :=
  match p.msg with
  | none => (p, false)
  | some msg =>
      match handleMessage handle p.router msg with
      | (router, result, sends) =>
          ({ p with
              msg := none
              router := router
              dispatched := p.dispatched ++ [msg]
              sends := p.sends ++ sends }, result)

/-- `OnKey`. -/
def onKey (lib : HostLib) (u : Uninit) (handle : Handler ρ) :
    Option Bytes → Reader (InboundMessageParser ρ)
  | none => fun p b =>
      if p.firstkey then (p, none)
      else
        match p.messageDone handle with
        | (p, result) => (p, if result then some b else none)
  | some key => fun p b =>
      if p.firstkey then
        if isKey key 'a' then
          Reader.string (fun p type => (newMessage u p type).map fun msg =>
            { p with firstkey := false, msg := some msg }) p b
        else (p, none)
      else
        match p.msg with
        | none => (p, none)
        | some msg => decodeKey lib u key msg p b

/-- `ProcessFrom`: `after` is the memory behind the message. -/
def processFrom (lib : HostLib) (u : Uninit) (handle : Handler ρ) (after : ℕ → UInt8)
    (msg : Bytes) (p : InboundMessageParser ρ) : InboundMessageParser ρ × Bool :=
  match readDict (onKey lib u handle) { p with firstkey := true } (.ofBytes msg after) with
  | (p, b) => (p, b.isSome)

/-! ### Who a message is from -/

/-- The value of the first entry of a message, which names its type. -/
def messageType (b : Buffer) : Option Bytes :=
  match (b.skip 1).readString with
  | none => none
  | some (_, b) => b.readString.map Prod.fst

/-- The message is a link introduction or carries the sender `k`. -/
def From (k : PubKey) (msg : LinkMsg) : Prop := msg = .intro ∨ msg.remote = some k

/-- While a message is read it carries the sender `k`, and it is handled at most once. -/
inductive Tagged (k : PubKey) (D : List LinkMsg) (p : InboundMessageParser ρ) : Prop
  | start : p.firstkey = true → p.remoteRouter.pubkey = k → p.dispatched = D → Tagged k D p
  | reading : p.firstkey = false → (∀ msg, p.msg = some msg → From k msg) → p.dispatched = D →
      Tagged k D p
  | done (msg : LinkMsg) : p.firstkey = false → p.msg = none → From k msg →
      p.dispatched = D ++ [msg] → Tagged k D p

section Sender

variable {lib : HostLib} {u : Uninit} {handle : Handler ρ} {p : InboundMessageParser ρ}
  {k : PubKey} {D : List LinkMsg} {b : Buffer}

/-- A new message carries the current sender. -/
lemma from_newMessage {type : Bytes} {msg : LinkMsg} (h : newMessage u p type = some msg) :
    From p.remoteRouter.pubkey msg := by
  simp only [newMessage] at h
  split_ifs at h <;> obtain rfl := Option.some.inj h <;>
    first | exact .inl rfl | exact .inr rfl

/-- Only a message of the type of a link introduction is one. -/
lemma newMessage_ne_intro {type : Bytes} {msg : LinkMsg} (h : newMessage u p type = some msg)
    (ht : type ≠ [ascii 'i']) : msg ≠ .intro := by
  simp only [newMessage, if_neg ht] at h
  split_ifs at h <;> obtain rfl := Option.some.inj h <;> simp

lemma remote_decodeKey_relay (key : Bytes) (m : RelayMessage) :
    (RelayMessage.decodeKey key m b).1.remote = m.remote := by
  rw [RelayMessage.decodeKey]
  split_ifs
  · exact Reader.blob_rule (P := fun m' : RelayMessage => m'.remote = m.remote) (fun _ => rfl) rfl
  · exact Reader.version_rule (P := fun m' : RelayMessage => m'.remote = m.remote) rfl
  · rfl
  · exact Reader.blob_rule (P := fun m' : RelayMessage => m'.remote = m.remote) (fun _ => rfl) rfl
  · rfl

/-- The decoders of the messages keep the sender, and change the contact for a link introduction
only. -/
lemma decodeKey_rule {P : InboundMessageParser ρ → Prop} (key : Bytes) (msg : LinkMsg)
    (hp : P p) (hrc : msg = .intro → ∀ rc, P { p with remoteRouter := rc })
    (hmsg : ∀ msg' r, msg.remote = some r → msg'.remote = some r → P { p with msg := some msg' }) :
    P (decodeKey lib u key msg p b).1 := by
  cases msg with
  | intro => exact hrc rfl _
  | relayDownstream m =>
      exact hmsg (.relayDownstream _) m.remote rfl (congrArg some (remote_decodeKey_relay key m))
  | relayUpstream m =>
      exact hmsg (.relayUpstream _) m.remote rfl (congrArg some (remote_decodeKey_relay key m))
  | dhtImmediate remote msgs => exact hmsg (.dhtImmediate remote _) remote rfl rfl
  | lrAck remote => exact hp
  | lrCommit remote frames => exact hmsg (.lrCommit remote _) remote rfl rfl
  | discard remote pad => exact hmsg (.discard remote _) remote rfl rfl

lemma ne_intro_of_remote {msg : LinkMsg} {r : PubKey} (h : msg.remote = some r) :
    msg ≠ .intro := by
  rintro rfl
  cases h

/-- `MessageDone` handles the message that was read. -/
lemma Tagged.messageDone (hf : p.firstkey = false) (h : Tagged k D p) :
    Tagged k D (p.messageDone handle).1 := by
  cases h with
  | start hf' => rw [hf] at hf'; cases hf'
  | reading _ hmsg hD =>
      rw [InboundMessageParser.messageDone]
      split
      · exact .reading hf hmsg hD
      · rename_i msg heq
        exact .done msg hf rfl (hmsg msg heq) (by rw [hD])
  | done msg _ hnone hfrom hD =>
      rw [InboundMessageParser.messageDone, hnone]
      exact .done msg hf hnone hfrom hD

/-- The message is handled with the sender it was given at its first key. -/
lemma Tagged.onKey (key : Option Bytes) (b : Buffer) (h : Tagged k D p) :
    Tagged k D (onKey lib u handle key p b).1 := by
  cases key with
  | none =>
      simp only [InboundMessageParser.onKey]
      split
      · exact h
      · rename_i hf
        exact h.messageDone (Bool.eq_false_iff.mpr hf)
  | some key =>
      simp only [InboundMessageParser.onKey]
      split_ifs with hf ha
      · cases h with
        | start hf' hk hD =>
            refine Reader.string_rule (fun type p' heq => ?_) (.start hf' hk hD)
            obtain ⟨msg, hnew, rfl⟩ := Option.map_eq_some_iff.mp heq
            refine .reading rfl (fun m hm => ?_) hD
            obtain rfl := Option.some.inj hm
            rw [← hk]
            exact from_newMessage hnew
        | reading hf' => rw [hf] at hf'; cases hf'
        | done _ hf' => rw [hf] at hf'; cases hf'
      · exact h
      · split
        · exact h
        · rename_i msg heq
          cases h with
          | start hf' => exact absurd hf' hf
          | reading hf' hmsg hD =>
              refine decodeKey_rule key msg (.reading hf' hmsg hD)
                (fun _ rc => .reading hf' hmsg hD) (fun msg' r hr hr' => .reading hf' ?_ hD)
              intro m hm
              obtain rfl := Option.some.inj hm
              obtain hi | hk := hmsg msg heq
              · exact absurd hi (ne_intro_of_remote hr)
              · exact .inr (hr'.trans (hr.symm.trans hk))
          | done _ _ hnone => rw [hnone] at heq; cases heq

/-- A message that is no link introduction is being read, and the contact is `rc`. -/
structure Keeps (rc : RouterContact) (p : InboundMessageParser ρ) : Prop where
  firstkey : p.firstkey = false
  msg : p.msg ≠ some .intro
  contact : p.remoteRouter = rc

/-- Such a message leaves the contact alone. -/
lemma Keeps.onKey {rc : RouterContact} (key : Option Bytes) (b : Buffer) (h : Keeps rc p) :
    Keeps rc (onKey lib u handle key p b).1 := by
  cases key with
  | none =>
      have hdone : Keeps rc (p.messageDone handle).1 := by
        rw [messageDone]
        split
        · exact h
        · exact ⟨h.firstkey, nofun, h.contact⟩
      simp only [InboundMessageParser.onKey]
      split
      · exact h
      · exact hdone
  | some key =>
      simp only [InboundMessageParser.onKey, h.firstkey]
      cases hm : p.msg with
      | none => exact h
      | some msg =>
          have hmsg : msg ≠ .intro := fun hi => h.msg (hm.trans (congrArg some hi))
          refine decodeKey_rule (P := Keeps rc) key msg h (fun hi => absurd hi hmsg)
            (fun msg' r _ hr => ⟨h.firstkey, fun hi => ?_, h.contact⟩)
          exact ne_intro_of_remote hr (Option.some.inj hi)

variable {after : ℕ → UInt8} {msg : Bytes}

/-- The messages that `ProcessFrom` hands to `HandleMessage` carry the key of the contact the
session has at that time. -/
lemma processFrom_dispatched : ∃ new : List LinkMsg,
    (processFrom lib u handle after msg p).1.dispatched = p.dispatched ++ new ∧
      ∀ m ∈ new, From p.remoteRouter.pubkey m := by
  have h : Tagged p.remoteRouter.pubkey p.dispatched (processFrom lib u handle after msg p).1 :=
    readDict_rule (fun key _ b => Tagged.onKey key b) (.start rfl rfl rfl)
  cases h with
  | start _ _ hD => exact ⟨[], by simpa using hD, nofun⟩
  | reading _ _ hD => exact ⟨[], by simpa using hD, nofun⟩
  | done m _ _ hfrom hD =>
      refine ⟨[m], hD, fun m' hm' => ?_⟩
      rw [List.mem_singleton.mp hm']
      exact hfrom

/-- The first key of a message of another type than a link introduction. -/
lemma onKey_first (hf : p.firstkey = true) (key : Bytes)
    (ht : b.readString.map Prod.fst ≠ some [ascii 'i']) :
    (onKey lib u handle (some key) p b).1.remoteRouter = p.remoteRouter ∧
      ((onKey lib u handle (some key) p b).2 ≠ none →
        Keeps p.remoteRouter (onKey lib u handle (some key) p b).1) := by
  simp only [onKey, if_pos hf]
  split
  · rw [Reader.string]
    cases hs : b.readString with
    | none => exact ⟨rfl, fun h => absurd rfl h⟩
    | some r =>
        obtain ⟨type, b'⟩ := r
        have htype : type ≠ [ascii 'i'] := by
          rintro rfl
          exact ht (by rw [hs]; rfl)
        cases hn : newMessage u p type with
        | none =>
            simp only [hn, Option.map_none]
            exact ⟨trivial, fun h => absurd rfl h⟩
        | some m =>
            simp only [hn, Option.map_some]
            refine ⟨trivial, fun _ => ⟨rfl, fun hm => ?_, rfl⟩⟩
            exact newMessage_ne_intro hn htype (Option.some.inj hm)
  · exact ⟨rfl, fun h => absurd rfl h⟩

/-- Only a message of the type of a link introduction changes the contact. -/
lemma processFrom_remoteRouter
    (ht : messageType (.ofBytes msg after) ≠ some [ascii 'i']) :
    (processFrom lib u handle after msg p).1.remoteRouter = p.remoteRouter := by
  change (readDict (InboundMessageParser.onKey lib u handle) { p with firstkey := true }
    (.ofBytes msg after)).1.remoteRouter = p.remoteRouter
  revert ht
  generalize Buffer.ofBytes msg after = b
  intro ht
  rw [readDict]
  split_ifs
  · rfl
  · rw [dictLoop]
    split_ifs
    · cases hkey : (b.skip 1).readString with
      | none => rfl
      | some r =>
          obtain ⟨key, b₁⟩ := r
          rw [messageType, hkey] at ht
          obtain ⟨hrc, hkeeps⟩ :=
            @onKey_first ρ lib u handle { p with firstkey := true } b₁ rfl key ht
          revert hrc hkeeps
          simp only
          generalize onKey lib u handle (some key) { p with firstkey := true } b₁ = r
          obtain ⟨p₁, ob⟩ := r
          cases ob with
          | none => exact fun hrc _ => hrc
          | some b₂ =>
              intro _ hkeeps
              exact (dictLoop_rule (fun key _ b => Keeps.onKey key b) _
                (hkeeps (Option.some_ne_none b₂))).contact
    · rfl
    · rfl

end Sender

end InboundMessageParser

end Udap
