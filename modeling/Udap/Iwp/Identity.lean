import Udap.LinkMessage
import Udap.Iwp.Exchange

/-!
Who the messages of a session are attributed to.

The router behind the session is the link message parser over the contact the session keeps of
its peer (`RouterEnv.linkEnv`). The peer may send any frames. `Peer.validated` records the
contacts on which `CheckRCValid` returned true, and `Peer.mapped` the identity that `MapAddr`
recorded for the address of the session.

* `attributed_of_ordered`: in a run in which the established session gets no link introduction
  that brings another contact and other messages are handled only once it is established, every
  handled message carries the key of a validated contact, and an established session keeps the
  contact it was established with.
* `early_discard_unattributed`: a message that arrives before the link introduction is handled
  with the key of a contact nobody has validated.
-/

namespace Udap.Iwp

open ByteMem TransitMessage

/-- `session::CheckRCValid`; `none` stands for the access through a null list of addresses. -/
def checkRCValid (lib : HostLib) (remote : PubKey) (rc : RouterContact) : Option Bool :=
  if rc.verifySig lib = false then some false
  else
    match rc.addrs with
    | none => none
    | some [] => some true
    | some list => some (list.any fun ai => ai.encKey == remote)

/-- `EncodeLIM`. -/
def encodeLIM (lib : HostLib) (router : RouterContact) : Writer :=
  .all [startDict, writeKey 'a', writeBytestring [ascii 'i'], writeKey 'r', router.bencode lib,
    writeVersionEntry, bencodeEnd]

/-- What one call of `HandleRecvLinkMessage` finds in memory that the message does not
determine. -/
structure Memory where
  uninit : Uninit
  /-- the bytes behind the reassembled message -/
  after : ℕ → UInt8

/-- The router of type `ρ` behind a session, and what the session has from the handshake. -/
structure RouterEnv (ρ : Type) where
  shorthash : Bytes → Blob 32
  lib : HostLib
  handle : InboundMessageParser.Handler ρ
  ourRouter : RouterContact
  /-- `session::remote`, the transport key of the peer -/
  remote : PubKey
  memory : ℕ → Memory

/-- What a session knows of its peer, and the parser its messages go through. -/
structure Peer (ρ : Type) where
  parser : InboundMessageParser ρ
  calls : ℕ := 0
  mapped : Option PubKey := none
  validated : List RouterContact := []

namespace RouterEnv

variable {ρ : Type} (R : RouterEnv ρ)

/-- `HandleRecvLinkMessage` with the parser of the router. -/
def handleRecvLinkMessage (p : Peer ρ) (msg : Bytes) : Peer ρ × Bool × List LinkMessage :=
  match InboundMessageParser.processFrom R.lib (R.memory p.calls).uninit R.handle
      (R.memory p.calls).after msg { p.parser with sends := [] } with
  | (parser, success) =>
      ({ p with parser := parser, calls := p.calls + 1 }, success, parser.sends)

/-- The encoded link introduction: `send_LIM` gives it `MAX_RC_SIZE + 64` bytes, so that the
bound of a link message always holds. -/
def lim : Option LinkMessage :=
  match encodeLIM R.lib R.ourRouter { mem := fun _ => 0, cur := 0, sz := maxRCSize + 64 } with
  | (buf, true) => if h : buf.written.length ≤ maxLinkMsgSize then some ⟨buf.written, h⟩ else none
  | (_, false) => none

/-- The environment of the session. A check that reads through a null list counts as failed; the
code does not get past it. -/
def linkEnv : LinkEnv (Peer ρ) where
  shorthash := R.shorthash
  handleRecvLinkMessage := R.handleRecvLinkMessage
  checkRCValid p :=
    if checkRCValid R.lib R.remote p.parser.remoteRouter = some true then
      ({ p with validated := p.validated ++ [p.parser.remoteRouter] }, true)
    else (p, false)
  encodeLIM _ := R.lim
  mapAddr p := { p with mapped := some p.parser.remoteRouter.pubkey }

end RouterEnv

/-! ### Runs of one session -/

/-- An event in the life of a session. -/
inductive SessionEvent (ρ : Type) where
  /-- a frame from the peer decrypts to `buf` -/
  | recv (now : UInt64) (buf : Bytes)
  | act (now : UInt64) (a : Action)
  /-- the router works for others: its state and what is left in its parser change -/
  | elsewhere (firstkey : Bool) (msg : Option LinkMsg) (router : ρ)

/-- One step of a session. -/
inductive SessionStep {ρ : Type} (R : RouterEnv ρ) (s : Session (Peer ρ)) :
    SessionEvent ρ → Session (Peer ρ) → Prop
  | recv (now : UInt64) (buf : Bytes) {s' : Session (Peer ρ)} :
      s.handleFrameDecrypt R.linkEnv now buf = .ok s' → SessionStep R s (.recv now buf) s'
  | act (now : UInt64) (a : Action) {s' : Session (Peer ρ)} :
      Act R.linkEnv now s a s' → SessionStep R s (.act now a) s'
  | elsewhere (firstkey : Bool) (msg : Option LinkMsg) (router : ρ) :
      SessionStep R s (.elsewhere firstkey msg router)
        { s with peer := { s.peer with parser := { s.peer.parser with
            firstkey := firstkey, msg := msg, router := router } } }

/-- A session that has received no message: its contact of the peer is cleared. -/
structure Session.Fresh {ρ : Type} (s : Session (Peer ρ)) : Prop where
  rx : s.frame.rx = ∅
  handed : s.handed = []
  state : s.state ≠ .eEstablished
  remoteRouter : s.peer.parser.remoteRouter = {}
  dispatched : s.peer.parser.dispatched = []
  mapped : s.peer.mapped = none
  validated : s.peer.validated = []

/-- A state of a run that starts with a fresh session and whose events all meet `C`. -/
def SessionReachableIf {ρ : Type} (R : RouterEnv ρ)
    (C : Session (Peer ρ) → SessionEvent ρ → Prop) (s : Session (Peer ρ)) : Prop :=
  ∃ s₀ : Session (Peer ρ), s₀.Fresh ∧
    Relation.ReflTransGen (fun s s' => ∃ e, C s e ∧ SessionStep R s e s') s₀ s

/-- The messages that the parser gives to `HandleMessage`. -/
def RouterEnv.handles {ρ : Type} (R : RouterEnv ρ) (p : Peer ρ) (msg : Bytes) : List LinkMsg :=
  (R.handleRecvLinkMessage p msg).1.parser.dispatched.drop p.parser.dispatched.length

/-- The message has the type of a link introduction. -/
def RouterEnv.IsIntro {ρ : Type} (R : RouterEnv ρ) (p : Peer ρ) (msg : Bytes) : Prop :=
  InboundMessageParser.messageType (.ofBytes msg (R.memory p.calls).after) = some [ascii 'i']

/-- The message brings the contact that the session holds: decoding it over that contact changes
nothing. -/
def RouterEnv.Repeats {ρ : Type} (R : RouterEnv ρ) (p : Peer ρ) (msg : Bytes) : Prop :=
  (R.handleRecvLinkMessage p msg).1.parser.remoteRouter = p.parser.remoteRouter

/-- The message comes in its time: once the session is established a link introduction repeats
the contact, and before that only link introductions are handled. -/
def RouterEnv.InTime {ρ : Type} (R : RouterEnv ρ) (p : Peer ρ) (st : State) (msg : Bytes) : Prop :=
  if st = .eEstablished then R.IsIntro p msg → R.Repeats p msg
  else ∀ m ∈ R.handles p msg, m = .intro

/-- A message that the event completes comes in its time. -/
def Ordered {ρ : Type} (R : RouterEnv ρ) (s : Session (Peer ρ)) (e : SessionEvent ρ) : Prop :=
  ∀ id msg s', SessionStep R s e s' → s'.handed = s.handed ++ [(id, msg)] →
    R.InTime s.peer s.state msg

/-- Every handled message is attributed to a validated contact, and an established session keeps
a validated contact with the identity that was recorded. -/
structure Attributed {ρ : Type} (p : Peer ρ) (st : State) : Prop where
  dispatched : ∀ m ∈ p.parser.dispatched, ∀ r, m.remote = some r →
    ∃ rc ∈ p.validated, rc.pubkey = r
  established : st = .eEstablished → p.parser.remoteRouter ∈ p.validated ∧
    p.mapped = some p.parser.remoteRouter.pubkey

/-! ### What the steps do to the contact data -/

namespace Session

variable {σ : Type} {env : LinkEnv σ} {s s' : Session σ} {now : UInt64}

/-- The contact data, the state, and the messages handed over. -/
def core (s : Session σ) : σ × State × List (UInt64 × Bytes) := (s.peer, s.state, s.handed)

section Updates

variable (s : Session σ) (id : UInt64) (t : TransitMessage) (mask : BitVec 32)

@[simp] lemma core_stored : (s.stored id t).core = s.core := rfl
@[simp] lemma core_acking : (s.acking id mask).core = s.core := rfl
@[simp] lemma core_eraseRx : (s.eraseRx id).core = s.core := rfl
@[simp] lemma core_noting : (s.noting id t).core = s.core := rfl
@[simp] lemma core_retired : (s.retired id).core = s.core := rfl
@[simp] lemma core_flaggedTx : s.flaggedTx.core = s.core := rfl
@[simp] lemma core_queueing (frames : List Bytes) : (s.queueing frames).core = s.core := rfl

end Updates

lemma core_foldl_sendto (l : List LinkMessage) (s : Session σ) :
    (l.foldl (sendto env) s).core = s.core := by
  induction l generalizing s with
  | nil => rfl
  | cons m l ih => rw [List.foldl_cons, ih]; rfl

/-- The hand-over of a message to the router. -/
lemma core_handOver (env : LinkEnv σ) (s : Session σ) (id : UInt64) (msg : Bytes) :
    (s.handOver env id msg).1.core =
      ((env.handleRecvLinkMessage s.peer msg).1, s.state, s.handed ++ [(id, msg)]) :=
  core_foldl_sendto _ _

lemma core_noteFlags (s : Session σ) (buf : Bytes) : (s.noteFlags buf).core = s.core := by
  rw [noteFlags]
  split_ifs <;> rfl

/-- `send_LIM` does not touch the contact data. -/
lemma core_sendLIM (env : LinkEnv σ) (now : UInt64) (s : Session σ) :
    (s.sendLIM env now).core = s.core ∨
      (s.sendLIM env now).core = (s.peer, .eLIMSent, s.handed) := by
  rw [sendLIM]
  split
  · exact .inr rfl
  · exact .inl rfl

lemma sendLIM_peer : (s.sendLIM env now).peer = s.peer := by
  obtain h | h := core_sendLIM env now s
  · exact congrArg Prod.fst h
  · exact congrArg Prod.fst h

/-- The check of the contact in message `0` may establish the session. -/
lemma introduced_core :
    ((s.introduced env now).1.peer = (env.checkRCValid s.peer).1 ∧
      (s.introduced env now).1.state = s.state ∧
      ((env.checkRCValid s.peer).2 = true → s.state = .eEstablished)) ∨
    ((env.checkRCValid s.peer).2 = true ∧
      (s.introduced env now).1.peer = env.mapAddr (env.checkRCValid s.peer).1 ∧
      (s.introduced env now).1.state = .eEstablished) := by
  rw [introduced]
  split
  · rename_i p heq
    rw [heq, accepted]
    split_ifs with hest
    · exact .inl ⟨rfl, rfl, fun _ => eq_of_beq hest⟩
    · refine .inr ⟨rfl, ?_, rfl⟩
      exact congrArg env.mapAddr sendLIM_peer
  · rename_i p heq
    rw [heq]
    exact .inl ⟨rfl, rfl, fun h => absurd h Bool.false_ne_true⟩

/-- What a complete message does to the contact data and the state: the router sees it, and for
message `0` the contact is checked. -/
lemma completeMessage_core (env : LinkEnv σ) (now : UInt64) (s : Session σ) (id : UInt64)
    (msg : Bytes) :
    ∃ p, p = (env.handleRecvLinkMessage s.peer msg).1 ∧
      (((s.completeMessage env now id msg).1.peer = p ∧
          (s.completeMessage env now id msg).1.state = s.state) ∨
        ((s.completeMessage env now id msg).1.peer = (env.checkRCValid p).1 ∧
          (s.completeMessage env now id msg).1.state = s.state ∧
          ((env.checkRCValid p).2 = true → s.state = .eEstablished)) ∨
        ((env.checkRCValid p).2 = true ∧
          (s.completeMessage env now id msg).1.peer = env.mapAddr (env.checkRCValid p).1 ∧
          (s.completeMessage env now id msg).1.state = .eEstablished)) := by
  have hover := core_handOver env s id msg
  refine ⟨_, rfl, ?_⟩
  rw [completeMessage]
  split
  rename_i s₁ success heq
  rw [heq] at hover
  have hp : s₁.peer = (env.handleRecvLinkMessage s.peer msg).1 := congrArg Prod.fst hover
  have hst : s₁.state = s.state := congrArg (fun c => c.2.1) hover
  rw [← hp, ← hst]
  split_ifs
  · exact .inr introduced_core
  · exact .inl ⟨rfl, rfl⟩

/-- Message `0` establishes a session when it is handled and brings a valid contact. -/
lemma completeMessage_established (now : UInt64) {msg : Bytes} {p p' : σ}
    {sends : List LinkMessage}
    (hp : env.handleRecvLinkMessage s.peer msg = (p, true, sends))
    (hv : env.checkRCValid p = (p', true)) (hst : s.state ≠ .eEstablished) :
    (s.completeMessage env now 0 msg).1.peer = env.mapAddr p' ∧
      (s.completeMessage env now 0 msg).1.state = .eEstablished := by
  have hover := core_handOver env s 0 msg
  have hsucc : (s.handOver env 0 msg).2 = true := by rw [handOver, hp]
  rw [hp] at hover
  generalize hs₁ : s.handOver env 0 msg = r at hover hsucc
  obtain ⟨s₁, success⟩ := r
  have hp₁ : s₁.peer = p := congrArg Prod.fst hover
  have hst₁ : s₁.state = s.state := congrArg (fun c => c.2.1) hover
  have hest : ¬ ({ s₁ with peer := p' } : Session σ).isEstablished = true := by
    intro he
    exact hst (hst₁ ▸ eq_of_beq he)
  simp only [completeMessage, hs₁]
  rw [if_pos (by simpa using hsucc), introduced, hp₁, hv]
  simp only [accepted]
  rw [if_neg hest]
  exact ⟨congrArg env.mapAddr sendLIM_peer, rfl⟩

/-- A message that fits its `XMIT` frame is completed by it, and nothing of it stays in `rx`. -/
lemma recv_single (env : LinkEnv σ) (now : UInt64) (s : Session σ) (m : LinkMessage) (id : UInt64)
    (hm : numfragsOf m.1 = 0) (hid : id ∉ s.frame.rx) :
    ∃ s' s₁ : Session σ,
      s.handleFrameDecrypt env now (xmitFrame (env.shorthash m.1) id m.1 0) = .ok s' ∧
        s₁.core = s.core ∧ s'.core = (s₁.completeMessage env now id m.1).1.core ∧
        ∀ i ∈ s'.frame.rx, i ∈ s.frame.rx := by
  have hproc := process_xmitFrame env now m.2 id 0 ⟨[], by decide⟩ s
  simp only [if_neg hid, hm, if_true, List.append_nil] at hproc
  obtain ⟨s', hs', -⟩ := handleFrameDecrypt_of env now hproc
  obtain ⟨r, hr, hs⟩ := Stable.handleFrameDecrypt_inv hs'
  rw [hproc] at hr
  obtain rfl := Except.ok.inj hr
  generalize ht : (s.noteFlags (xmitFrame (env.shorthash m.1) id m.1 0)).taken env id m.1 = t at hs
  have hcore : t.core = s.core := by
    rw [← ht, taken, core_acking, core_stored, core_noteFlags]
  have hdone : s'.core = (t.completeMessage env now id m.1).1.core ∧
      s'.frame.rx = t.frame.rx.erase id := by
    obtain rfl | rfl := hs
    · exact ⟨rfl, finished_rx env now t id m.1⟩
    · exact ⟨rfl, finished_rx env now t id m.1⟩
  refine ⟨s', t, hs', hcore, hdone.1, fun i hi => ?_⟩
  -- the entry made for the message is erased when it is complete
  rw [hdone.2, AList.mem_erase, ← ht] at hi
  obtain hne | hold := (AList.mem_insert _).mp hi.2
  · exact absurd hne hi.1
  · rwa [noteFlags_rx] at hold

/-- The messages handed over when such a message is completed. -/
lemma handed_of_core {s₁ : Session σ} {id : UInt64} {msg : Bytes} (h₁ : s₁.core = s.core)
    (hc : s'.core = (s₁.completeMessage env now id msg).1.core) :
    s'.handed = s.handed ++ [(id, msg)] := by
  have hh := completeMessage_handed env now s₁ id msg
  rw [show s₁.handed = s.handed from congrArg (fun c => c.2.2) h₁] at hh
  exact (congrArg (fun c => c.2.2) hc).trans hh

/-- `process` changes the contact data and the state by completing a message, or not at all. -/
lemma process_core {buf : Bytes} {sz : ℕ} {r : Session σ × Bool}
    (hp : s.process env now buf sz = .ok r) :
    r.1.core = s.core ∨ ∃ (s₁ : Session σ) (id : UInt64) (msg : Bytes), s₁.core = s.core ∧
      r.1.core = (s₁.completeMessage env now id msg).1.core := by
  have hn := core_noteFlags s buf
  have hdone : ∀ s₁ : Session σ, ∀ id, s₁.core = s.core →
      s₁.inboundFrameComplete env now id = .ok r → r.1.core = s.core ∨
        ∃ (s₁ : Session σ) (id : UInt64) (msg : Bytes), s₁.core = s.core ∧
          r.1.core = (s₁.completeMessage env now id msg).1.core := by
    intro s₁ id h₁ hr
    obtain he | he | ⟨msg, he⟩ := inboundFrameComplete_inv hr
    · exact .inl (by rw [he, h₁])
    · exact .inl (by rw [he, core_eraseRx, h₁])
    · exact .inr ⟨s₁, id, msg, h₁, by rw [he, core_eraseRx]⟩
  rw [process] at hp
  split at hp
  · obtain rfl := Except.ok.inj hp
    refine .inl ?_
    simp only [gotAliv]
    split_ifs
    · exact hn
    · rw [core_flaggedTx, hn]
  · obtain he | ⟨-, t, he | he⟩ := gotXmit_inv hp
    · exact .inl (by rw [he, hn])
    · exact .inl (by rw [he, core_acking, core_stored, hn])
    · exact hdone _ _ (by rw [core_acking, core_stored, hn]) he
  · obtain he | he | ⟨t, mask, frames, -, -, he⟩ := gotAcks_inv hp
    · exact .inl (by rw [he, hn])
    · exact .inl (by rw [he, core_retired, hn])
    · exact .inl (by rw [he, core_queueing, core_noting, hn])
  · obtain he | ⟨-, t, he | he | he⟩ := gotFrag_inv hp
    · exact .inl (by rw [he, hn])
    · exact .inl (by rw [he, core_stored, hn])
    · exact .inl (by rw [he, core_acking, core_stored, hn])
    · exact hdone _ _ (by rw [core_acking, core_stored, hn]) he
  · obtain rfl := Except.ok.inj hp
    exact .inl hn

/-- A frame from the peer changes the contact data and the state by completing a message, or not
at all. -/
lemma handleFrameDecrypt_core {buf : Bytes} (h : s.handleFrameDecrypt env now buf = .ok s') :
    s'.core = s.core ∨ ∃ (s₁ : Session σ) (id : UInt64) (msg : Bytes), s₁.core = s.core ∧
      s'.core = (s₁.completeMessage env now id msg).1.core := by
  obtain ⟨r, hp, hs'⟩ := Stable.handleFrameDecrypt_inv h
  have hcore : s'.core = r.1.core := by
    obtain rfl | rfl := hs' <;> rfl
  rw [hcore]
  exact process_core hp

lemma core_sendKeepalive : s.sendKeepalive.core = s.core := by
  rw [sendKeepalive]
  split_ifs <;> rfl

lemma core_tickLive (h : s.tickLive = .ok s') : s'.core = s.core := by
  have hk : (if s.state = .eEstablished ∨ s.state = .eLIMSent then s.sendKeepalive else s).core =
      s.core := by
    split_ifs
    · exact core_sendKeepalive
    · rfl
  rw [tickLive] at h
  generalize (if s.state = .eEstablished ∨ s.state = .eLIMSent then s.sendKeepalive else s) =
    s₁ at h hk
  split_ifs at h
  · obtain ⟨frame, -, h⟩ := bind_eq_ok h
    obtain rfl := Except.ok.inj h
    exact hk
  · obtain rfl := Except.ok.inj h
    exact hk

/-- An action of the session leaves the contact data alone, and does not establish it. -/
lemma core_act {a : Action} (h : Act env now s a s') :
    s'.core = s.core ∨ s'.core = (s.peer, .eLIMSent, s.handed) := by
  cases h with
  | send m => exact .inl rfl
  | introduce => exact core_sendLIM _ _ _
  | close => exact .inl rfl
  | keepalive _ => exact .inl core_sendKeepalive
  | tick working ht =>
      rw [tick] at ht
      split_ifs at ht
      · exact .inl (by rw [(Prod.mk.inj (Except.ok.inj ht)).1])
      · exact .inl (by rw [(Prod.mk.inj (Except.ok.inj ht)).1])
      · obtain ⟨s₁, hl, ht⟩ := bind_eq_ok ht
        obtain rfl := (Prod.mk.inj (Except.ok.inj ht)).1
        exact .inl (core_tickLive hl)

end Session

/-! ### Attribution -/

section Attribution

variable {ρ : Type} {R : RouterEnv ρ} {p : Peer ρ} {st : State} {msg : Bytes}

/-- A message that comes in its time is attributed to a validated contact, and leaves an
established session its contact. -/
lemma Attributed.handled (h : Attributed p st) (ht : R.InTime p st msg) :
    Attributed (R.handleRecvLinkMessage p msg).1 st := by
  obtain ⟨new, hnew, hfrom⟩ : ∃ new : List LinkMsg,
      (R.handleRecvLinkMessage p msg).1.parser.dispatched = p.parser.dispatched ++ new ∧
        ∀ m ∈ new, InboundMessageParser.From p.parser.remoteRouter.pubkey m :=
    InboundMessageParser.processFrom_dispatched
  have hhandles : R.handles p msg = new := by
    rw [RouterEnv.handles, hnew, List.drop_left]
  rw [RouterEnv.InTime, hhandles] at ht
  have hold : ∀ m ∈ p.parser.dispatched, ∀ r, m.remote = some r →
      ∃ rc ∈ p.validated, rc.pubkey = r := h.dispatched
  split_ifs at ht with hst
  · obtain ⟨hvalid, hmapped⟩ := h.established hst
    -- of the messages only a link introduction writes to the contact, and it repeats it
    have hrc : R.Repeats p msg := by
      by_cases hi : R.IsIntro p msg
      · exact ht hi
      · exact InboundMessageParser.processFrom_remoteRouter hi
    refine ⟨fun m hm r hr => ?_, fun _ => ?_⟩
    · rw [hnew] at hm
      obtain hm | hm := List.mem_append.mp hm
      · exact hold m hm r hr
      · refine ⟨_, hvalid, ?_⟩
        obtain hi | hk := hfrom m hm
        · exact absurd hi (InboundMessageParser.ne_intro_of_remote hr)
        · exact Option.some.inj (hk.symm.trans hr)
    · rw [show _ = p.parser.remoteRouter from hrc]
      exact ⟨hvalid, hmapped⟩
  · refine ⟨fun m hm r hr => ?_, fun hest => absurd hest hst⟩
    rw [hnew] at hm
    obtain hm | hm := List.mem_append.mp hm
    · exact hold m hm r hr
    · exact absurd (ht m hm) (InboundMessageParser.ne_intro_of_remote hr)

/-- A successful check only adds to the validated contacts. -/
lemma Attributed.checked (h : Attributed p st) : Attributed (R.linkEnv.checkRCValid p).1 st := by
  simp only [RouterEnv.linkEnv]
  split_ifs
  · refine ⟨fun m hm r hr => ?_, fun hest => ?_⟩
    · obtain ⟨rc, hrc, hk⟩ := h.dispatched m hm r hr
      exact ⟨rc, List.mem_append_left _ hrc, hk⟩
    · obtain ⟨hvalid, hmapped⟩ := h.established hest
      exact ⟨List.mem_append_left _ hvalid, hmapped⟩
  · exact h

/-- A session is established with the contact that was checked. -/
lemma Attributed.mapped (h : Attributed p st) (hv : (R.linkEnv.checkRCValid p).2 = true) :
    Attributed (R.linkEnv.mapAddr (R.linkEnv.checkRCValid p).1) .eEstablished := by
  have hdisp := (h.checked (R := R)).dispatched
  refine ⟨hdisp, fun _ => ⟨?_, rfl⟩⟩
  simp only [RouterEnv.linkEnv] at hv ⊢
  split_ifs at hv ⊢
  exact List.mem_append_right _ List.mem_cons_self

/-- What holds of the contact data holds of sessions that agree on them. -/
lemma Attributed.of_core {s s' : Session (Peer ρ)} (hcore : s'.core = s.core)
    (h : Attributed s.peer s.state) : Attributed s'.peer s'.state := by
  have hp : s'.peer = s.peer := congrArg Prod.fst hcore
  have hst : s'.state = s.state := congrArg (fun c => c.2.1) hcore
  rw [hp, hst]
  exact h

/-- Completing a message that comes in its time. -/
lemma Attributed.completeMessage {s : Session (Peer ρ)} {now : UInt64} {id : UInt64}
    (h : Attributed s.peer s.state) (ht : R.InTime s.peer s.state msg) :
    Attributed (s.completeMessage R.linkEnv now id msg).1.peer
      (s.completeMessage R.linkEnv now id msg).1.state := by
  have hhandled := h.handled ht
  obtain ⟨p, hp, ⟨hpeer, hst⟩ | ⟨hpeer, hst, -⟩ | ⟨hv, hpeer, hst⟩⟩ :=
    s.completeMessage_core R.linkEnv now id msg
  · rw [hpeer, hst, hp]
    exact hhandled
  · rw [hpeer, hst, hp]
    exact hhandled.checked
  · rw [hpeer, hst]
    subst hp
    exact hhandled.mapped hv

/-- One step of a run in which messages come in their time. -/
lemma Attributed.step {s s' : Session (Peer ρ)} {e : SessionEvent ρ}
    (h : Attributed s.peer s.state) (ho : Ordered R s e) (hs : SessionStep R s e s') :
    Attributed s'.peer s'.state := by
  have hmsg : ∀ id msg, s'.handed = s.handed ++ [(id, msg)] → R.InTime s.peer s.state msg :=
    fun id msg => ho id msg s' hs
  cases hs with
  | recv now buf hr =>
      obtain hc | ⟨s₁, id, msg, h₁, hc⟩ := Session.handleFrameDecrypt_core hr
      · exact h.of_core hc
      · have hhanded : s'.handed = s₁.handed ++ [(id, msg)] := by
          have := Session.completeMessage_handed R.linkEnv now s₁ id msg
          rw [← this]
          exact congrArg (fun c => c.2.2) hc
        have hp : s₁.peer = s.peer := congrArg Prod.fst h₁
        have hst : s₁.state = s.state := congrArg (fun c => c.2.1) h₁
        have hh : s₁.handed = s.handed := congrArg (fun c => c.2.2) h₁
        have ht := hmsg id msg (by rw [hhanded, hh])
        rw [← hp, ← hst] at ht h
        exact (h.completeMessage ht).of_core hc
  | act now a ha =>
      obtain hc | hc := Session.core_act ha
      · exact h.of_core hc
      · have hp : s'.peer = s.peer := congrArg Prod.fst hc
        have hst : s'.state = .eLIMSent := congrArg (fun c => c.2.1) hc
        rw [hp, hst]
        exact ⟨h.dispatched, nofun⟩
  | elsewhere firstkey msg router => exact ⟨h.dispatched, h.established⟩

/-- In a run in which an established session gets no link introduction with another contact, and
other messages are handled only after that, every handled message is attributed to a validated
contact and the session keeps the contact it was established with. -/
theorem attributed_of_ordered (R : RouterEnv ρ) (s : Session (Peer ρ))
    (h : SessionReachableIf R (Ordered R) s) : Attributed s.peer s.state := by
  obtain ⟨s₀, hfresh, hrun⟩ := h
  induction hrun with
  | refl =>
      refine ⟨?_, fun hest => absurd hest hfresh.state⟩
      rw [hfresh.dispatched]
      exact nofun
  | tail _ hs ih =>
      obtain ⟨e, ho, hs⟩ := hs
      exact ih.step ho hs

/-- A frame that completes a message in its time is in order. -/
lemma ordered_recv {s s' : Session (Peer ρ)} {now : UInt64} {buf : Bytes} {id : UInt64}
    (hs' : s.handleFrameDecrypt R.linkEnv now buf = .ok s')
    (hh : s'.handed = s.handed ++ [(id, msg)]) (ht : R.InTime s.peer s.state msg) :
    Ordered R s (.recv now buf) := by
  intro id' msg' s'' hstep hh'
  cases hstep with
  | recv _ _ hs'' =>
      obtain rfl := Except.ok.inj (hs'.symm.trans hs'')
      obtain rfl : msg = msg' := by
        have hlast := List.append_cancel_left (hh.symm.trans hh')
        exact (Prod.mk.inj (List.cons.inj hlast).1).2
      exact ht

/-- A link introduction under the id 0 that is handled and brings a valid contact establishes a
fresh session. -/
lemma Session.Fresh.introduced {s : Session (Peer ρ)} {m : LinkMessage} {rc : RouterContact}
    (hfresh : s.Fresh) (hm : numfragsOf m.1 = 0)
    (hrc : (R.handleRecvLinkMessage s.peer m.1).1.parser.remoteRouter = rc)
    (hdisp : (R.handleRecvLinkMessage s.peer m.1).1.parser.dispatched = [.intro])
    (hok : (R.handleRecvLinkMessage s.peer m.1).2.1 = true)
    (hv : checkRCValid R.lib R.remote rc = some true) :
    ∃ s', SessionReachableIf R (Ordered R) s' ∧ s'.state = .eEstablished ∧
      s'.handed = [(0, m.1)] ∧ s'.frame.rx = ∅ ∧
      s'.peer = { (R.handleRecvLinkMessage s.peer m.1).1 with
        validated := [rc], mapped := some rc.pubkey } := by
  obtain ⟨s', s₁, hs', h₁, hc, hrx⟩ := s.recv_single R.linkEnv 0 m 0 hm (by simp [hfresh.rx])
  have hp₁ : s₁.peer = s.peer := congrArg Prod.fst h₁
  have hst₁ : s₁.state = s.state := congrArg (fun c => c.2.1) h₁
  have hhanded : s'.handed = s.handed ++ [(0, m.1)] := Session.handed_of_core h₁ hc
  have hvalid : (R.handleRecvLinkMessage s.peer m.1).1.validated = [] := hfresh.validated
  have hhandles : R.handles s.peer m.1 = [.intro] := by
    rw [RouterEnv.handles, hdisp, hfresh.dispatched]
    rfl
  have hord : Ordered R s (.recv 0 (xmitFrame (R.shorthash m.1) 0 m.1 0)) := by
    refine ordered_recv hs' hhanded ?_
    rw [RouterEnv.InTime, if_neg hfresh.state, hhandles]
    exact fun _ hm => List.mem_singleton.mp hm
  generalize hr : R.handleRecvLinkMessage s.peer m.1 = r at hrc hdisp hok hvalid
  obtain ⟨p, ok, sends⟩ := r
  obtain rfl : ok = true := hok
  have hcheck : R.linkEnv.checkRCValid p = ({ p with validated := [rc] }, true) := by
    simp only [RouterEnv.linkEnv, show p.parser.remoteRouter = rc from hrc, hv, if_true,
      show p.validated = [] from hvalid, List.nil_append]
  have hdone := s₁.completeMessage_established 0 (by rw [hp₁]; exact hr) hcheck
    (by rw [hst₁]; exact hfresh.state)
  refine ⟨s', ⟨s, hfresh, .single ⟨_, hord, .recv _ _ hs'⟩⟩,
    (congrArg (fun c => c.2.1) hc).trans hdone.2, ?_, ?_, ?_⟩
  · rw [hhanded, hfresh.handed, List.nil_append]
  · refine AList.ext (List.eq_nil_iff_forall_not_mem.mpr fun e he => ?_)
    have hin := hrx e.1 (AList.mem_keys.mpr (List.mem_map_of_mem he))
    rw [hfresh.rx] at hin
    exact AList.notMem_empty _ hin
  · rw [show s'.peer = _ from (congrArg Prod.fst hc).trans hdone.1]
    obtain rfl := hrc
    rfl

/-- An established session takes the contact it holds once more, under another id. -/
lemma SessionReachableIf.repeated {s : Session (Peer ρ)} {m : LinkMessage} {id : UInt64}
    (h : SessionReachableIf R (Ordered R) s) (hst : s.state = .eEstablished) (hid : id ≠ 0)
    (hrx : s.frame.rx = ∅) (hm : numfragsOf m.1 = 0) (hrep : R.Repeats s.peer m.1) :
    ∃ s', SessionReachableIf R (Ordered R) s' ∧ s'.state = .eEstablished ∧
      s'.handed = s.handed ++ [(id, m.1)] ∧ s'.peer.validated = s.peer.validated := by
  obtain ⟨s₀, hfresh, hrun⟩ := h
  obtain ⟨s', s₁, hs', h₁, hc, -⟩ := s.recv_single R.linkEnv 0 m id hm (by simp [hrx])
  have hhanded : s'.handed = s.handed ++ [(id, m.1)] := Session.handed_of_core h₁ hc
  have hord : Ordered R s (.recv 0 (xmitFrame (R.shorthash m.1) id m.1 0)) := by
    refine ordered_recv hs' hhanded ?_
    rw [RouterEnv.InTime, if_pos hst]
    exact fun _ => hrep
  have hdone : (s₁.completeMessage R.linkEnv 0 id m.1).1.core =
      (s₁.handOver R.linkEnv id m.1).1.core := by
    simp [Session.completeMessage, hid]
  rw [hdone, Session.core_handOver] at hc
  have hp₁ : s₁.peer = s.peer := congrArg Prod.fst h₁
  refine ⟨s', ⟨s₀, hfresh, hrun.tail ⟨_, hord, .recv _ _ hs'⟩⟩, ?_, hhanded, ?_⟩
  · exact (congrArg (fun c => c.2.1) hc).trans ((congrArg (fun c => c.2.1) h₁).trans hst)
  · rw [show s'.peer = _ from congrArg Prod.fst hc, hp₁]
    rfl

end Attribution

/-! ### A client introduces itself -/

section Client

/-- The signing key of a client. -/
def clientKey : PubKey :=
  ⟨[0x03, 0xa1, 0x07, 0xbf, 0xf3, 0xce, 0x10, 0xbe, 0x1d, 0x70, 0xdd, 0x18, 0xe7, 0x4b, 0xc0,
    0x99, 0x67, 0xe4, 0xd6, 0x30, 0x9b, 0xa5, 0x0d, 0x5f, 0x1d, 0xdc, 0x86, 0x64, 0x12, 0x55,
    0x31, 0xb8], rfl⟩

/-- Its signature of its contact. -/
def clientSig : Blob 64 :=
  ⟨[0xad, 0x66, 0x9b, 0x6a, 0x37, 0xe4, 0x56, 0x1f, 0x99, 0x46, 0x71, 0x49, 0xe6, 0xdf, 0x52,
    0x78, 0x31, 0x07, 0x97, 0x20, 0x26, 0x8f, 0xce, 0x28, 0x3a, 0xaf, 0x1d, 0x62, 0xc5, 0xd1,
    0xc6, 0xd6, 0x15, 0x58, 0xd2, 0xfd, 0x47, 0x13, 0x53, 0x44, 0x99, 0x4c, 0xda, 0x0a, 0xea,
    0x24, 0x41, 0x8f, 0x8d, 0x83, 0xef, 0xdf, 0xe7, 0x9a, 0x30, 0x08, 0x7a, 0x40, 0xf7, 0x94,
    0x04, 0xa0, 0x64, 0x0a], rfl⟩

/-- The contact of the client, which has no address, around a signature. -/
def clientBytes (sig : Blob 64) : Bytes :=
  [100, 49, 58, 97, 108, 101, 49, 58, 107, 51, 50, 58] ++ clientKey.1 ++
    [49, 58, 112, 51, 50, 58] ++ (9 :: List.replicate 31 0) ++
    [49, 58, 117, 105, 48, 101, 49, 58, 118, 105, 48, 101, 49, 58, 122, 54, 52, 58] ++ sig.1 ++
    [101]

/-- The link introduction of the client. -/
def clientLIM : LinkMessage :=
  ⟨[100, 49, 58, 97, 49, 58, 105, 49, 58, 114] ++ clientBytes clientSig ++
    [49, 58, 118, 105, 48, 101, 101], by decide +kernel⟩

/-- The digest `crypto_generichash` gives of `clientLIM`. -/
def clientHash : Blob 32 :=
  ⟨[0xa3, 0x77, 0x10, 0x76, 0x18, 0xe6, 0x23, 0xa2, 0x92, 0x4d, 0x79, 0xde, 0x29, 0xb7, 0x57,
    0x7f, 0xf8, 0xab, 0x39, 0x1a, 0x8c, 0x71, 0xea, 0xbe, 0xea, 0x75, 0x09, 0x84, 0xc3, 0x78,
    0x04, 0x5a], rfl⟩

/-- The contact that the link introduction carries. -/
def clientRC : RouterContact where
  addrs := some []
  enckey := ⟨9 :: List.replicate 31 0, rfl⟩
  pubkey := clientKey
  signature := clientSig

/-- A router that drops every message it handles, seen from a link on which one signature
travels and messages with the hash `digest`. -/
def clientEnv (digest : Blob 32) : RouterEnv Unit where
  shorthash _ := digest
  lib :=
    { inetPton := fun _ => none
      inetNtop := fun _ => none
      verify := fun k m sig =>
        decide (k = clientKey ∧ m = clientBytes (zeroBlob 64) ∧ sig = clientSig) }
  handle _ _ := ((), true, [])
  ourRouter := {}
  remote := zeroBlob 32
  memory _ :=
    { uninit :=
        { ai := fun _ => ⟨0, zeroBlob 6, zeroBlob 32, zeroBlob 16, 0⟩
          key := fun _ => zeroBlob 32
          pathid := zeroBlob 16
          nonce := zeroBlob 32 }
      after := fun _ => 0 }

/-- A session whose handshake is over and that has received nothing. -/
def clientSession : Session (Peer Unit) where
  frame := {}
  state := .eSessionStartSent
  peer := { parser := { firstkey := true, msg := none, remoteRouter := {}, router := () } }

lemma clientSession_fresh : clientSession.Fresh :=
  ⟨rfl, rfl, nofun, rfl, rfl, rfl, rfl⟩

/-- The parser takes the contact from the link introduction. -/
lemma processed_clientLIM :
    let r := (clientEnv clientHash).handleRecvLinkMessage clientSession.peer clientLIM.1
    r.1.parser.remoteRouter = clientRC ∧ r.1.parser.dispatched = [.intro] ∧ r.2.1 = true := by
  decide +kernel

/-- The contact is signed by its own key. -/
lemma checkRCValid_clientRC :
    checkRCValid (clientEnv clientHash).lib (clientEnv clientHash).remote clientRC = some true := by
  decide +kernel

/-- Read once more, the introduction leaves the contact as it is. -/
lemma repeats_clientLIM :
    (clientEnv clientHash).Repeats
      { ((clientEnv clientHash).handleRecvLinkMessage clientSession.peer clientLIM.1).1 with
        validated := [clientRC], mapped := some clientRC.pubkey } clientLIM.1 := by
  unfold RouterEnv.Repeats
  decide +kernel

/-- The introduction of the client establishes the session, and comes a second time under the
id 1. -/
theorem attributed_of_ordered_client :
    ∃ s, SessionReachableIf (clientEnv clientHash) (Ordered (clientEnv clientHash)) s ∧
      s.state = .eEstablished ∧ s.handed = [(0, clientLIM.1), (1, clientLIM.1)] ∧
      s.peer.validated = [clientRC] ∧ Attributed s.peer s.state := by
  obtain ⟨hrc, hdisp, hok⟩ := processed_clientLIM
  have hm : numfragsOf clientLIM.1 = 0 := by decide +kernel
  obtain ⟨s₁, hreach, hest, hhanded, hrx, hpeer⟩ :=
    clientSession_fresh.introduced hm hrc hdisp hok checkRCValid_clientRC
  have hid : (1 : UInt64) ≠ 0 := by decide
  have hrep : (clientEnv clientHash).Repeats s₁.peer clientLIM.1 := by
    rw [hpeer]
    exact repeats_clientLIM
  obtain ⟨s, hreach, hest, hhanded', hvalid⟩ := hreach.repeated hest hid hrx hm hrep
  rw [hhanded] at hhanded'
  rw [hpeer] at hvalid
  exact ⟨s, hreach, hest, hhanded', hvalid, attributed_of_ordered _ _ hreach⟩

/-- The parser handles a discard message whatever the contact is. -/
lemma processed_shortMessage :
    let r := (clientEnv shortHash).handleRecvLinkMessage clientSession.peer shortMessage.1
    r.1.parser.dispatched = [.discard (zeroBlob 32) []] ∧ r.2.1 = true := by
  decide +kernel

/-- An empty discard message is the first to arrive, under the id 1. It is handled with the key
of the cleared contact. -/
theorem early_discard_unattributed :
    ¬ ∀ (R : RouterEnv Unit) (s : Session (Peer Unit)),
      SessionReachableIf R (fun _ _ => True) s → Attributed s.peer s.state := by
  intro h
  obtain ⟨hdisp, -⟩ := processed_shortMessage
  obtain ⟨s', s₁, hs', h₁, hc, -⟩ := clientSession.recv_single (clientEnv shortHash).linkEnv 0
    shortMessage 1 numfragsOf_shortMessage (by simp [clientSession])
  have hp₁ : s₁.peer = clientSession.peer := congrArg Prod.fst h₁
  have hpeer : s'.peer =
      ((clientEnv shortHash).handleRecvLinkMessage clientSession.peer shortMessage.1).1 := by
    have hdone : (s₁.completeMessage (clientEnv shortHash).linkEnv 0 1 shortMessage.1).1.core =
        (s₁.handOver (clientEnv shortHash).linkEnv 1 shortMessage.1).1.core := by
      simp [Session.completeMessage]
    rw [hdone, Session.core_handOver, hp₁] at hc
    exact congrArg Prod.fst hc
  have hatt := h (clientEnv shortHash) s'
    ⟨clientSession, clientSession_fresh, .single ⟨_, trivial, .recv _ _ hs'⟩⟩
  obtain ⟨rc, hrc, -⟩ := hatt.dispatched (.discard (zeroBlob 32) [])
    (by rw [hpeer, hdisp]; exact List.mem_cons_self) (zeroBlob 32) rfl
  rw [hpeer] at hrc
  cases hrc

end Client

end Udap.Iwp
