import Udap.Iwp.Ledger
import Udap.Iwp.Outgoing

/-!
Two ends of a session that exchange encrypted datagrams, over a network in which others send
datagrams, too.

A frame is encrypted when the queue of its end is processed, decrypted by a worker of the other
end, and handled later. On the way it may be dropped by the queue, lost, copied and overtaken.

* `CipherNet`, `CipherStep`: the ends, the datagrams and the jobs between them.
* `CipherNet.Shows`: a state of the exchange of plain frames looks like this one.
* `shows_step`: every step is a step of that exchange, or none.
* `ciphered_refines`: whatever others send, as long as its MAC is wrong, the two ends are in a state
  that they may reach by exchanging plain frames.
* `ciphered_delivery`: so only what was queued is handed over, and nothing is forgotten.
-/

namespace Udap.Iwp

open ByteMem TransitMessage

/-! ### The frames that were written before -/

namespace Session

variable {σ : Type} {env : LinkEnv σ} {now : UInt64} {out : List Bytes} {s s' : Session σ}
  {buf : Bytes} {sz : ℕ} {id : UInt64}

/-- The session, with other frames written before. -/
def after (out : List Bytes) (s : Session σ) : Session σ :=
  { s with outbound := out ++ s.outbound }

/-- The result, with other frames written before. -/
def afterBoth (out : List Bytes) (r : Session σ × Bool) : Session σ × Bool := (r.1.after out, r.2)

lemma sendto_after (m : LinkMessage) : (s.after out).sendto env m = (s.sendto env m).after out := by
  simp [sendto, addOutboundMessage, pump, after]

lemma foldl_sendto_after (ms : List LinkMessage) :
    ms.foldl (sendto env) (s.after out) = (ms.foldl (sendto env) s).after out := by
  induction ms generalizing s with
  | nil => rfl
  | cons m ms ih => rw [List.foldl_cons, sendto_after, ih, List.foldl_cons]

lemma sendLIM_after : (s.after out).sendLIM env now = (s.sendLIM env now).after out := by
  have hpeer : (s.after out).peer = s.peer := rfl
  rw [sendLIM, sendLIM, hpeer]
  cases env.encodeLIM s.peer with
  | none => rfl
  | some m =>
    simp only [sendto_after]
    rfl

lemma handOver_after (msg : Bytes) :
    (s.after out).handOver env id msg = afterBoth out (s.handOver env id msg) := by
  have hpeer : (s.after out).peer = s.peer := rfl
  rw [handOver, handOver, hpeer]
  obtain ⟨peer, success, sends⟩ := env.handleRecvLinkMessage s.peer msg
  exact congrArg (·, success)
    (foldl_sendto_after (s := { s.handing id msg with peer := peer }) sends)

lemma introduced_after :
    (s.after out).introduced env now = afterBoth out (s.introduced env now) := by
  have hpeer : (s.after out).peer = s.peer := rfl
  rw [introduced, introduced, hpeer]
  obtain ⟨peer, valid⟩ := env.checkRCValid s.peer
  cases valid with
  | false => rfl
  | true =>
    have hacc : ∀ s : Session σ,
        (s.after out).accepted env now = (s.accepted env now).after out := by
      intro s
      rw [accepted, accepted, sendLIM_after]
      change (if s.isEstablished then _ else _) = _
      split_ifs <;> rfl
    exact congrArg (·, true) (hacc { s with peer := peer })

lemma completeMessage_after (msg : Bytes) :
    (s.after out).completeMessage env now id msg =
      afterBoth out (s.completeMessage env now id msg) := by
  rw [completeMessage, completeMessage, handOver_after]
  obtain ⟨s', success⟩ := s.handOver env id msg
  simp only [afterBoth, introduced_after]
  split_ifs <;> rfl

lemma inboundFrameComplete_after : (s.after out).inboundFrameComplete env now id =
    (s.inboundFrameComplete env now id).map (afterBoth out) := by
  have hframe : (s.after out).frame = s.frame := rfl
  rw [inboundFrameComplete, inboundFrameComplete, hframe]
  cases s.frame.rx.lookup id with
  | none => rfl
  | some t =>
    simp only
    cases t.reassemble with
    | error e => rfl
    | ok o =>
      cases o with
      | none => rfl
      | some msg =>
        simp only [completeMessage_after]
        change (if _ then _ else _) = Except.map _ (if _ then _ else _)
        split_ifs <;> rfl

lemma stored_after (t : TransitMessage) (mask : BitVec 32) :
    ((s.after out).stored id t).acking id mask = ((s.stored id t).acking id mask).after out := rfl

lemma gotXmit_after : (s.after out).gotXmit env now buf sz =
    (s.gotXmit env now buf sz).map (afterBoth out) := by
  have hframe : (s.after out).frame = s.frame := rfl
  simp only [gotXmit, hframe, stored_after, inboundFrameComplete_after]
  split_ifs <;> rfl

lemma gotFrag_after : (s.after out).gotFrag env now buf sz =
    (s.gotFrag env now buf sz).map (afterBoth out) := by
  have hframe : (s.after out).frame = s.frame := rfl
  simp only [gotFrag, hframe]
  split_ifs
  · rfl
  · rfl
  · cases s.frame.rx.lookup (UInt64.ofNat (leNat (hdrData buf 0 8))) with
    | none => rfl
    | some t =>
      simp only
      split_ifs
      · rfl
      · cases t.putFrag (leNat (hdrData buf 8 1)) (hdrData buf 9 t.msginfo.fragsize) with
        | error e => rfl
        | ok o =>
          cases o with
          | none => rfl
          | some t' =>
            simp only [bind, Except.bind, stored_after, inboundFrameComplete_after]
            cases t'.completed with
            | error e => rfl
            | ok b =>
              simp only
              split_ifs <;> rfl

lemma gotAcks_after : (s.after out).gotAcks buf sz =
    (s.gotAcks buf sz).map (afterBoth out) := by
  have hframe : (s.after out).frame = s.frame := rfl
  simp only [gotAcks, hframe]
  split_ifs
  · rfl
  · rfl
  · cases s.frame.tx.lookup (UInt64.ofNat (leNat (hdrData buf 0 8))) with
    | none => rfl
    | some t =>
      simp only [bind, Except.bind]
      cases (t.ack (BitVec.ofNat 32 (leNat (hdrData buf 8 4)))).completed with
      | error e => rfl
      | ok b =>
        simp only
        split_ifs
        · rfl
        · cases (t.ack (BitVec.ofNat 32 (leNat (hdrData buf 8 4)))).retransmitFrags
            s.frame.txflags with
          | error e => rfl
          | ok frames => rfl

lemma process_after : (s.after out).process env now buf sz =
    (s.process env now buf sz).map (afterBoth out) := by
  have hnote : (s.after out).noteFlags buf = (s.noteFlags buf).after out := by
    rw [noteFlags, noteFlags]
    split_ifs <;> rfl
  rw [process, process, hnote]
  cases MsgType.ofByte (hdrMsgtype buf) with
  | none => rfl
  | some t =>
    cases t with
    | eALIV =>
      have haliv : ((s.noteFlags buf).after out).gotAliv = (s.noteFlags buf).gotAliv.after out := by
        rw [gotAliv, gotAliv]
        change (if (s.noteFlags buf).frame.rxflags &&& eSessionInvalidated = 0 then _ else _) = _
        split_ifs <;> rfl
      simp only [haliv]
      rfl
    | eXMIT => exact gotXmit_after
    | eACKS => exact gotAcks_after
    | eFRAG => exact gotFrag_after

/-- What was written before plays no part. -/
lemma handleFrameDecrypt_after : (s.after out).handleFrameDecrypt env now buf =
    (s.handleFrameDecrypt env now buf).map (after out) := by
  have hpump : ∀ s : Session σ, (s.after out).pump = s.pump.after out := by
    intro s
    simp [pump, after]
  rw [handleFrameDecrypt, handleFrameDecrypt, process_after]
  cases s.process env now buf buf.length with
  | error e => rfl
  | ok r =>
    obtain ⟨s', b⟩ := r
    cases b with
    | false => rfl
    | true => exact congrArg Except.ok (hpump { s' with frame := s'.frame.alive now })

lemma sendKeepalive_after : (s.after out).sendKeepalive = s.sendKeepalive.after out := by
  rw [sendKeepalive, sendKeepalive]
  change (if s.isInvalidated then _ else _) = _
  split_ifs
  · rfl
  · simp [keeping, pump, after]

lemma tickLive_after : (s.after out).tickLive = s.tickLive.map (after out) := by
  have halive : (if (s.after out).state = .eEstablished ∨ (s.after out).state = .eLIMSent then
      (s.after out).sendKeepalive else s.after out) =
        (if s.state = .eEstablished ∨ s.state = .eLIMSent then s.sendKeepalive else s).after
          out := by
    change (if s.state = .eEstablished ∨ s.state = .eLIMSent then _ else _) = _
    split_ifs
    · exact sendKeepalive_after
    · rfl
  rw [tickLive, tickLive]
  rw [halive]
  generalize (if s.state = .eEstablished ∨ s.state = .eLIMSent then s.sendKeepalive else s) = s₁
  change (if s₁.state = .eEstablished then _ else _) = _
  split_ifs
  · change (s₁.frame.retransmit >>= fun frame => _) = _
    cases s₁.frame.retransmit with
    | error e => rfl
    | ok frame => simp [bind, Except.bind, pure, Except.pure, Except.map, pump, after]
  · rfl

lemma tick_after {working : Bool} :
    (s.after out).tick now working = (s.tick now working).map (afterBoth out) := by
  have htimedout : (s.after out).timedout now = s.timedout now := rfl
  have hinvalid : (s.after out).isInvalidated = s.isInvalidated := rfl
  simp only [tick, htimedout, hinvalid, tickLive_after]
  split_ifs
  · rfl
  · rfl
  · cases s.tickLive with
    | error e => rfl
    | ok s' => rfl

/-- The session, with these frames written. -/
def withOutbound (out : List Bytes) (s : Session σ) : Session σ := { s with outbound := out }

lemma after_withOutbound (out : List Bytes) (s : Session σ) :
    (s.withOutbound []).after out = s.withOutbound out := by
  simp [after, withOutbound]

/-- A move that the frames play no part in writes the same frames behind any others. -/
lemma moved {F : Session σ → Except Fault (Session σ)}
    (hF : ∀ out s, F (s.after out) = (F s).map (after out)) (h : F s = .ok s')
    (out : List Bytes) : ∃ new, s'.outbound = s.outbound ++ new ∧
      F (s.withOutbound out) = .ok (s'.withOutbound (out ++ new)) := by
  have hs : (s.withOutbound []).after s.outbound = s := after_withOutbound s.outbound s
  rw [← hs, hF] at h
  cases hbare : F (s.withOutbound []) with
  | error e =>
    rw [hbare] at h
    cases h
  | ok t =>
    rw [hbare] at h
    obtain rfl : t.after s.outbound = s' := Except.ok.inj h
    refine ⟨t.outbound, rfl, ?_⟩
    rw [← after_withOutbound, hF, hbare]
    rfl

end Session

/-- An action, with other frames written before. -/
lemma Act.moved {σ : Type} {env : LinkEnv σ} {now : UInt64} {s s' : Session σ} {a : Action}
    (h : Act env now s a s') (out : List Bytes) : ∃ new, s'.outbound = s.outbound ++ new ∧
      Act env now (s.withOutbound out) a (s'.withOutbound (out ++ new)) := by
  have hpure : ∀ {f : Session σ → Session σ}, (∀ out s, f (s.after out) = (f s).after out) →
      ∃ new, (f s).outbound = s.outbound ++ new ∧
        f (s.withOutbound out) = (f s).withOutbound (out ++ new) := by
    intro f hf
    obtain ⟨new, hnew, hmoved⟩ := Session.moved (F := fun s => .ok (f s))
      (fun out s => congrArg Except.ok (hf out s)) (s := s) rfl out
    exact ⟨new, hnew, Except.ok.inj hmoved⟩
  cases h with
  | send m =>
    obtain ⟨new, hnew, hmoved⟩ := hpure (f := fun s => s.sendto env m)
      fun out s => Session.sendto_after m
    exact ⟨new, hnew, hmoved ▸ .send m⟩
  | introduce =>
    obtain ⟨new, hnew, hmoved⟩ := hpure (f := fun s => s.sendLIM env now)
      fun out s => Session.sendLIM_after
    exact ⟨new, hnew, hmoved ▸ .introduce⟩
  | close => exact ⟨[], (List.append_nil _).symm, (List.append_nil out).symm ▸ .close⟩
  | keepalive hjobs =>
    obtain ⟨new, hnew, hmoved⟩ := hpure
      (f := fun s => { s with keepaliveJobs := s.keepaliveJobs - 1 }.sendKeepalive)
      fun out s => Session.sendKeepalive_after
        (s := { s with keepaliveJobs := s.keepaliveJobs - 1 })
    exact ⟨new, hnew, hmoved ▸ .keepalive (s := s.withOutbound out) hjobs⟩
  | tick working ht =>
    -- a session that is removed takes no further part
    let F : Session σ → Except Fault (Session σ) := fun s =>
      s.tick now working >>= fun r => if r.2 then .error .nullDeref else .ok r.1
    have hF : ∀ out s, F (s.after out) = (F s).map (Session.after out) := by
      intro out s
      simp only [F]
      rw [Session.tick_after]
      cases s.tick now working with
      | error e => rfl
      | ok r =>
        obtain ⟨t, removed⟩ := r
        cases removed <;> rfl
    have hFs : F s = .ok s' := by
      simp only [F]
      rw [ht]
      rfl
    obtain ⟨new, hnew, hmoved⟩ := Session.moved hF hFs out
    obtain ⟨⟨t, removed⟩, ht', hr⟩ := Session.bind_eq_ok hmoved
    cases removed with
    | true => cases hr
    | false =>
      obtain rfl := Except.ok.inj hr
      exact ⟨new, hnew, .tick working ht'⟩

/-! ### Datagrams -/

/-- A datagram on its way. The frame that it was made of is not in it; there is none if somebody
else sent the datagram. -/
structure Datagram where
  bytes : Bytes
  frame : Option Bytes

/-- What a worker made of a datagram, for `handle_frame_decrypt`. -/
structure DecryptJob where
  body : Bytes
  success : Bool
  frame : Option Bytes

/-- The bytes of a frame that `handle_frame_encrypt` sends. -/
def datagramOf (S : Sodium) (key nonce : Blob 32) (f : AsyncFrame) : Bytes :=
  slice (encryptFrame S key nonce f).buf.1 0 f.sz

/-- Two ends, and what is between them. The frames in `outbound` are those in `outboundFrames`; the
datagrams and the jobs of an end are those on their way to it. -/
structure CipherNet (σ : Type) where
  ends : Side → Session σ
  keys : Side → Handshake
  clock : UInt64
  datagrams : Side → List Datagram
  jobs : Side → List DecryptJob

namespace CipherNet

variable {σ : Type}

/-- The state of one end is replaced. -/
def set (p : Side) (s : Session σ) (c : CipherNet σ) : CipherNet σ :=
  { c with ends := Function.update c.ends p s }

/-- A frame is taken out of the queue of an end. -/
def unqueue (p : Side) (f : Bytes) (c : CipherNet σ) : CipherNet σ :=
  c.set p ((c.ends p).withOutbound ((c.ends p).outbound.erase f))

/-- The datagrams on their way to an end are replaced. -/
def carry (p : Side) (ds : List Datagram) (c : CipherNet σ) : CipherNet σ :=
  { c with datagrams := Function.update c.datagrams p ds }

/-- The jobs of an end are replaced. -/
def work (p : Side) (js : List DecryptJob) (c : CipherNet σ) : CipherNet σ :=
  { c with jobs := Function.update c.jobs p js }

section

variable (c : CipherNet σ) (p : Side) (s : Session σ) (ds : List Datagram) (js : List DecryptJob)

@[simp] lemma set_ends_self : (c.set p s).ends p = s := Function.update_self ..

@[simp] lemma set_ends_other : (c.set p s).ends p.other = c.ends p.other :=
  Function.update_of_ne p.other_ne ..

@[simp] lemma carry_datagrams_self : (c.carry p ds).datagrams p = ds := Function.update_self ..

@[simp] lemma carry_datagrams_other : (c.carry p ds).datagrams p.other = c.datagrams p.other :=
  Function.update_of_ne p.other_ne ..

@[simp] lemma carry_other_datagrams : (c.carry p.other ds).datagrams p = c.datagrams p :=
  Function.update_of_ne p.ne_other ..

@[simp] lemma work_jobs_self : (c.work p js).jobs p = js := Function.update_self ..

@[simp] lemma work_jobs_other : (c.work p js).jobs p.other = c.jobs p.other :=
  Function.update_of_ne p.other_ne ..

end

/-- No message has been sent or received yet, and the ends have agreed on a key. -/
def Initial (c : CipherNet σ) : Prop :=
  (⟨c.ends, c.clock⟩ : Net σ).Initial ∧ (∀ p, c.datagrams p = [] ∧ c.jobs p = []) ∧
    ∀ p, (c.keys p).sessionkey = (c.keys p.other).sessionkey

end CipherNet

/-- An event of the exchange. -/
inductive CipherEvent
  | act (p : Side) (a : Action)
  /-- `EncryptOutboundFrames` sends a frame, or drops it -/
  | encrypt (p : Side) (f : Bytes) (fresh : Blob 1500) (pad : Padding) (nonce : Blob 32)
  | codel (p : Side) (f : Bytes)
  /-- the network loses or copies a datagram on its way to `p` -/
  | drop (p : Side) (d : Datagram)
  | dup (p : Side) (d : Datagram)
  /-- somebody sends a datagram to `p` -/
  | inject (p : Side) (bytes : Bytes)
  /-- a datagram comes to `p`, which copies it to a frame -/
  | recv (p : Side) (d : Datagram) (fresh : Blob 1500)
  /-- `handle_frame_decrypt` -/
  | decrypted (p : Side) (job : DecryptJob)
  /-- time passes -/
  | wait (now : UInt64)

/-- One step. An end that is removed, or whose program is gone, takes part in no further event. -/
inductive CipherStep {σ : Type} (L : Link σ) (S : Sodium) (junk : Blob 32) (c : CipherNet σ) :
    CipherEvent → CipherNet σ → Prop
  | act (p : Side) {a : Action} {s : Session σ} : Act (L.env p) c.clock (c.ends p) a s →
      CipherStep L S junk c (.act p a) (c.set p s)
  | encrypt (p : Side) {f : Bytes} {fresh : Blob 1500} {pad : Padding} (nonce : Blob 32)
      {frame : AsyncFrame} : f ∈ (c.ends p).outbound → asyncFrame fresh f pad = some frame →
      CipherStep L S junk c (.encrypt p f fresh pad nonce) ((c.unqueue p f).carry p.other
        (⟨datagramOf S (c.keys p).sessionkey nonce frame, some f⟩ :: c.datagrams p.other))
  | codel (p : Side) {f : Bytes} : f ∈ (c.ends p).outbound →
      CipherStep L S junk c (.codel p f) (c.unqueue p f)
  | drop (p : Side) (before after : List Datagram) {d : Datagram} :
      c.datagrams p = before ++ d :: after →
      CipherStep L S junk c (.drop p d) (c.carry p (before ++ after))
  | dup (p : Side) {d : Datagram} : d ∈ c.datagrams p →
      CipherStep L S junk c (.dup p d) (c.carry p (d :: c.datagrams p))
  | inject (p : Side) (bytes : Bytes) :
      CipherStep L S junk c (.inject p bytes) (c.carry p (⟨bytes, none⟩ :: c.datagrams p))
  | recv (p : Side) (before after : List Datagram) {d : Datagram} (fresh : Blob 1500)
      {body : Bytes} {success : Bool} : c.datagrams p = before ++ d :: after →
      (Handshake.recv S junk fresh (c.ends p).state (c.keys p) d.bytes).val =
        .decrypted body success →
      CipherStep L S junk c (.recv p d fresh)
        ((c.carry p (before ++ after)).work p (⟨body, success, d.frame⟩ :: c.jobs p))
  | ignore (p : Side) (before after : List Datagram) {d : Datagram} (fresh : Blob 1500) :
      c.datagrams p = before ++ d :: after →
      (Handshake.recv S junk fresh (c.ends p).state (c.keys p) d.bytes).val = .ignored →
      CipherStep L S junk c (.recv p d fresh) (c.carry p (before ++ after))
  | accept (p : Side) (before after : List DecryptJob) {job : DecryptJob} {s : Session σ} :
      c.jobs p = before ++ job :: after → job.success = true →
      (c.ends p).handleFrameDecrypt (L.env p) c.clock job.body = .ok s →
      CipherStep L S junk c (.decrypted p job) ((c.set p s).work p (before ++ after))
  | refuse (p : Side) (before after : List DecryptJob) {job : DecryptJob} :
      c.jobs p = before ++ job :: after → job.success = false →
      CipherStep L S junk c (.decrypted p job) (c.work p (before ++ after))
  | wait (now : UInt64) : CipherStep L S junk c (.wait now) { c with clock := now }

namespace CipherNet

variable {σ : Type}

/-- Whoever else sends a datagram does not know the key: its MAC is wrong. -/
def Unforged (S : Sodium) (c : CipherNet σ) : CipherEvent → Prop
  | .inject p bytes => ∀ fresh body,
      (Handshake.decryptFrame S fresh (c.keys p) bytes).val ≠ .decrypted body true
  | _ => True

/-- The states of the runs in which nobody else knows the key. -/
def Reachable (L : Link σ) (S : Sodium) (junk : Blob 32) (c : CipherNet σ) : Prop :=
  ∃ c₀ : CipherNet σ, c₀.Initial ∧ Relation.ReflTransGen
    (fun c c' => ∃ e, c.Unforged S e ∧ CipherStep L S junk c e c') c₀ c

end CipherNet

/-! ### What is behind a datagram -/

/-- The datagram was made of its frame, or its MAC is wrong. -/
def Datagram.Sealed (S : Sodium) (e : Handshake) (d : Datagram) : Prop :=
  match d.frame with
  | some f => 0 < f.length ∧ f.length + 64 + 127 ≤ 1500 ∧ ∃ fresh pad nonce frame,
      asyncFrame fresh f pad = some frame ∧ d.bytes = datagramOf S e.sessionkey nonce frame
  | none => ∀ fresh body, (Handshake.decryptFrame S fresh e d.bytes).val ≠ .decrypted body true

/-- The job has its frame, with some padding, or it failed. -/
def DecryptJob.Sealed (job : DecryptJob) : Prop :=
  match job.frame with
  | some f => job.success = true ∧ ∃ pad : Padding, job.body = f ++ pad.1
  | none => job.success = false

section Datagrams

variable {S : Sodium} {junk : Blob 32} {fresh : Blob 1500} {e : Handshake} {buf body : Bytes}
  {success : Bool}

/-- What `recv` gives to the workers is decrypted. -/
lemma recv_decrypted {st : State}
    (h : (Handshake.recv S junk fresh st e buf).val = .decrypted body success) :
    (Handshake.decryptFrame S fresh e buf).val = .decrypted body success := by
  cases st with
  | eSessionStartSent => exact h
  | eLIMSent => exact h
  | eEstablished => exact h
  | eInitial =>
    simp only [Handshake.recv, Handshake.recvIntro] at h
    split_ifs at h
  | eIntroSent =>
    simp only [Handshake.recv, Handshake.recvIntroAck] at h
    split_ifs at h
  | eIntroAckSent =>
    simp only [Handshake.recv, Handshake.recvSessionStart] at h
    split_ifs at h
  | eIntroRecv => cases h
  | eIntroAckRecv => cases h
  | eTimeout => cases h

/-- The datagram of a frame is decrypted. -/
lemma decryptFrame_datagramOf {f : Bytes} {pad : Padding} {fresh' : Blob 1500} {nonce : Blob 32}
    {frame : AsyncFrame} (hframe : asyncFrame fresh' f pad = some frame)
    (hlen : f.length + 64 + 127 ≤ 1500) (hpos : 0 < f.length) :
    (Handshake.decryptFrame S fresh e (datagramOf S e.sessionkey nonce frame)).val =
      .decrypted (f ++ pad.1) true := by
  have hpad : pad.1.length < 128 := pad.2
  obtain ⟨-, hsz⟩ := asyncFrame_holds hframe hlen
  rw [List.length_append] at hsz
  have hlength : (datagramOf S e.sessionkey nonce frame).length = frame.sz := slice_length _ _ _
  have hreceived : received fresh (encryptFrame S e.sessionkey nonce frame) =
      ⟨writeAt fresh 0 (datagramOf S e.sessionkey nonce frame),
        (datagramOf S e.sessionkey nonce frame).length⟩ := by
    rw [hlength]
    rfl
  have hjob : (Handshake.decryptFrameJob S e.sessionkey
      (received fresh (encryptFrame S e.sessionkey nonce frame))).val = (f ++ pad.1, true) :=
    decrypt_encrypted hframe hlen
  rw [hreceived] at hjob
  simp only [Handshake.decryptFrame, Handshake.allocFrame]
  rw [if_pos (by omega), if_neg (by omega)]
  simp only [Logged.val_bind, Logged.val_pure, hjob]

/-- What a worker makes of a datagram. -/
lemma Datagram.Sealed.job {d : Datagram} (h : d.Sealed S e)
    (hd : (Handshake.decryptFrame S fresh e d.bytes).val = .decrypted body success) :
    DecryptJob.Sealed ⟨body, success, d.frame⟩ := by
  obtain ⟨bytes, frame⟩ := d
  cases frame with
  | none =>
    cases success with
    | false => rfl
    | true => exact absurd hd (h fresh body)
  | some f =>
    obtain ⟨hpos, hlen, fresh', pad, nonce, frame, hframe, hbytes⟩ := h
    rw [hbytes, decryptFrame_datagramOf hframe hlen hpos] at hd
    obtain ⟨rfl, rfl⟩ := Handshake.Received.decrypted.inj hd
    exact ⟨rfl, pad, rfl⟩

end Datagrams

/-- A frame of an end has room in a datagram. -/
lemma Written.length_le {hash : Bytes → Blob 32} {Q : List (UInt64 × LinkMessage)} {f : Bytes}
    (h : Written hash Q f) : 0 < f.length ∧ f.length + 64 + 127 ≤ 1500 := by
  cases h with
  | @xmit id m flags hm =>
    have hlast := lastfragOf_length_le m.1
    rw [Session.xmitFrame_length]
    omega
  | @frag id m i flags hm hi =>
    rw [Session.fragFrameOf_length hi]
    omega
  | acks id mask flags =>
    rw [ackFrame, initSendbuf_length, List.length_append, leBytes_length, leBytes_length]
    omega
  | aliv flags =>
    rw [alivFrame, initSendbuf_length]
    simp

/-! ### The plain frames -/

namespace CipherNet

variable {σ : Type} {L : Link σ} {S : Sodium} {junk : Blob 32} {c c' : CipherNet σ} {n n' : Net σ}
  {p : Side}

/-- The frames on their way to an end, wherever they are. -/
def underway (c : CipherNet σ) (p : Side) : List Bytes :=
  (c.ends p.other).outbound ++
    ((c.datagrams p).filterMap Datagram.frame ++ (c.jobs p).filterMap DecryptJob.frame)

/-- A state of the exchange of plain frames in which the ends are as they are here, and the same
frames are on their way. -/
structure Shows (c : CipherNet σ) (n : Net σ) : Prop where
  clock : n.clock = c.clock
  ends : ∀ p, n.ends p = (c.ends p).withOutbound (n.ends p).outbound
  inflight : ∀ p, (n.inflight p).Perm (c.underway p)

/-- What is behind the datagrams and the jobs of both ends, and that they have one key. -/
structure Sealed (S : Sodium) (c : CipherNet σ) : Prop where
  keys : ∀ p, (c.keys p).sessionkey = (c.keys p.other).sessionkey
  datagrams : ∀ p, ∀ d ∈ c.datagrams p, d.Sealed S (c.keys p)
  jobs : ∀ p, ∀ job ∈ c.jobs p, job.Sealed

/-- Two states of an end that differ in the frames that were written. -/
lemma withOutbound_eq {s s' : Session σ} (h : s'.withOutbound [] = s.withOutbound [])
    (out : List Bytes) : s'.withOutbound out = s.withOutbound out := by
  have hout := congrArg (Session.withOutbound out) h
  exact hout

/-- Nothing has happened but that frames went on. -/
lemma Shows.stay (h : c.Shows n) (hclock : c'.clock = c.clock)
    (hends : ∀ p, (c'.ends p).withOutbound [] = (c.ends p).withOutbound [])
    (hunder : ∀ p, (c.underway p).Perm (c'.underway p)) : c'.Shows n where
  clock := h.clock.trans hclock.symm
  ends p := (h.ends p).trans (withOutbound_eq (hends p) _).symm
  inflight p := (h.inflight p).trans (hunder p)

/-- Frames to one end were lost or copied. -/
lemma Shows.carry (h : c.Shows n) (p : Side) {frames : List Bytes} (hclock : c'.clock = c.clock)
    (hends : ∀ p, (c'.ends p).withOutbound [] = (c.ends p).withOutbound [])
    (hunder : frames.Perm (c'.underway p))
    (hother : (c.underway p.other).Perm (c'.underway p.other)) :
    c'.Shows (n.carry p frames) where
  clock := h.clock.trans hclock.symm
  ends q := by
    rw [withOutbound_eq (hends q)]
    obtain rfl | rfl := p.eq_or_eq_other q
    · rw [Net.carry_ends_self]
      exact h.ends q
    · rw [Net.carry_ends_other]
      have hframes := congrArg (Session.withOutbound frames) (h.ends p.other)
      exact hframes
  inflight q := by
    obtain rfl | rfl := p.eq_or_eq_other q
    · rw [Net.inflight, Net.carry_ends_other]
      exact hunder
    · rw [Net.inflight_other, Net.carry_ends_self, ← Net.inflight_other]
      exact (h.inflight p.other).trans hother

/-- One end has moved, and has written the same frames in both. -/
lemma Shows.set (h : c.Shows n) (p : Side) {s : Session σ} {new : List Bytes}
    (hs : s.outbound = (c.ends p).outbound ++ new) :
    (c.set p s).Shows (n.set p (s.withOutbound ((n.ends p).outbound ++ new))) where
  clock := h.clock
  ends q := by
    obtain rfl | rfl := p.eq_or_eq_other q
    · rw [Net.set_ends_self, set_ends_self]
      rfl
    · rw [Net.set_ends_other, set_ends_other]
      exact h.ends p.other
  inflight q := by
    obtain rfl | rfl := p.eq_or_eq_other q
    · rw [Net.inflight, Net.set_ends_other, underway, set_ends_other]
      exact h.inflight q
    · rw [Net.inflight_other, Net.set_ends_self, underway, Side.other_other, set_ends_self, hs]
      have hperm := h.inflight p.other
      rw [Net.inflight_other, underway, Side.other_other] at hperm
      have hback := hperm.append_right new
      rw [List.append_assoc] at hback ⊢
      exact hback.trans (List.perm_append_comm.append_left _)

/-- At most one frame to an end is gone. -/
lemma Shows.lose (h : c.Shows n) (hreach : Iwp.Reachable L n) (p : Side) (o : Option Bytes)
    (hclock : c'.clock = c.clock)
    (hends : ∀ p, (c'.ends p).withOutbound [] = (c.ends p).withOutbound [])
    (hunder : (c.underway p).Perm (o.toList ++ c'.underway p))
    (hother : (c.underway p.other).Perm (c'.underway p.other)) :
    ∃ n', Iwp.Reachable L n' ∧ c'.Shows n' := by
  cases o with
  | none =>
    refine ⟨n, hreach, h.stay hclock hends fun q => ?_⟩
    obtain rfl | rfl := p.eq_or_eq_other q
    · exact hunder
    · exact hother
  | some f =>
    have hinflight : (n.inflight p).Perm (f :: c'.underway p) := (h.inflight p).trans hunder
    have hf : f ∈ n.inflight p := hinflight.mem_iff.mpr List.mem_cons_self
    have herase : ((n.inflight p).erase f).Perm (c'.underway p) := by
      simpa using hinflight.erase f
    exact ⟨_, ReachableIf.step hreach trivial (.drop p hf), h.carry p hclock hends herase hother⟩

/-- At most one frame to an end is there once more. -/
lemma Shows.copy (h : c.Shows n) (hreach : Iwp.Reachable L n) (p : Side) (o : Option Bytes)
    (hclock : c'.clock = c.clock)
    (hends : ∀ p, (c'.ends p).withOutbound [] = (c.ends p).withOutbound [])
    (hmem : ∀ f ∈ o, f ∈ c.underway p)
    (hunder : (o.toList ++ c.underway p).Perm (c'.underway p))
    (hother : (c.underway p.other).Perm (c'.underway p.other)) :
    ∃ n', Iwp.Reachable L n' ∧ c'.Shows n' := by
  cases o with
  | none =>
    refine ⟨n, hreach, h.stay hclock hends fun q => ?_⟩
    obtain rfl | rfl := p.eq_or_eq_other q
    · exact hunder
    · exact hother
  | some f =>
    have hf : f ∈ n.inflight p := (h.inflight p).mem_iff.mpr (hmem f rfl)
    have hcopy : (f :: n.inflight p).Perm (c'.underway p) := ((h.inflight p).cons f).trans hunder
    exact ⟨_, ReachableIf.step hreach trivial (.dup p hf), h.carry p hclock hends hcopy hother⟩

/-! ### The steps -/

lemma filterMap_cons_toList {α β : Type} (g : α → Option β) (a : α) (l : List α) :
    (a :: l).filterMap g = (g a).toList ++ l.filterMap g := by
  cases h : g a <;> simp [h]

/-- What is on its way when a datagram is gone. -/
lemma underway_gone {before after : List Datagram} {d : Datagram}
    (hd : c.datagrams p = before ++ d :: after) : (c.underway p).Perm
      (d.frame.toList ++ (c.carry p (before ++ after)).underway p) := by
  have hends : (c.carry p (before ++ after)).ends = c.ends := rfl
  have hjobs : (c.carry p (before ++ after)).jobs = c.jobs := rfl
  rw [underway, underway, carry_datagrams_self, hd, List.filterMap_append, filterMap_cons_toList,
    List.filterMap_append, hends, hjobs, List.perm_iff_count]
  intro f
  simp only [List.count_append]
  omega

/-- What is on its way when a job is over. -/
lemma underway_over {before after : List DecryptJob} {job : DecryptJob}
    (hjob : c.jobs p = before ++ job :: after) : (c.underway p).Perm
      (job.frame.toList ++ (c.work p (before ++ after)).underway p) := by
  have hends : (c.work p (before ++ after)).ends = c.ends := rfl
  have hdatagrams : (c.work p (before ++ after)).datagrams = c.datagrams := rfl
  rw [underway, underway, work_jobs_self, hjob, List.filterMap_append, filterMap_cons_toList,
    List.filterMap_append, hends, hdatagrams, List.perm_iff_count]
  intro f
  simp only [List.count_append]
  omega

/-- What is on its way when a frame left the queue. -/
lemma underway_unqueue {f : Bytes} (hf : f ∈ (c.ends p).outbound) :
    (c.underway p.other).Perm (f :: (c.unqueue p f).underway p.other) := by
  have hdatagrams : (c.unqueue p f).datagrams = c.datagrams := rfl
  have hjobs : (c.unqueue p f).jobs = c.jobs := rfl
  rw [underway, underway, hdatagrams, hjobs, Side.other_other, unqueue, set_ends_self]
  exact (List.perm_cons_erase hf).append_right _

lemma underway_unqueue_self {f : Bytes} : (c.unqueue p f).underway p = c.underway p := by
  have hdatagrams : (c.unqueue p f).datagrams = c.datagrams := rfl
  have hjobs : (c.unqueue p f).jobs = c.jobs := rfl
  rw [underway, underway, hdatagrams, hjobs, unqueue, set_ends_other]

lemma withOutbound_unqueue {f : Bytes} (q : Side) :
    ((c.unqueue p f).ends q).withOutbound [] = (c.ends q).withOutbound [] := by
  obtain rfl | rfl := p.eq_or_eq_other q
  · rw [unqueue, set_ends_self]
    rfl
  · rw [unqueue, set_ends_other]

/-- What is on its way when a datagram is added. -/
lemma underway_cons (d : Datagram) :
    (d.frame.toList ++ c.underway p).Perm ((c.carry p (d :: c.datagrams p)).underway p) := by
  have hends : (c.carry p (d :: c.datagrams p)).ends = c.ends := rfl
  have hjobs : (c.carry p (d :: c.datagrams p)).jobs = c.jobs := rfl
  rw [underway, underway, carry_datagrams_self, filterMap_cons_toList, hends, hjobs,
    List.perm_iff_count]
  intro f
  simp only [List.count_append]
  omega

/-- What is on its way when a job is added. -/
lemma underway_work_cons (job : DecryptJob) :
    (job.frame.toList ++ c.underway p).Perm ((c.work p (job :: c.jobs p)).underway p) := by
  have hends : (c.work p (job :: c.jobs p)).ends = c.ends := rfl
  have hdatagrams : (c.work p (job :: c.jobs p)).datagrams = c.datagrams := rfl
  rw [underway, underway, work_jobs_self, filterMap_cons_toList, hends, hdatagrams,
    List.perm_iff_count]
  intro f
  simp only [List.count_append]
  omega

lemma underway_carry_of_ne {q : Side} (hq : q ≠ p) (ds : List Datagram) :
    (c.carry p ds).underway q = c.underway q := by
  simp only [underway, carry, Function.update_of_ne hq]

lemma underway_work_of_ne {q : Side} (hq : q ≠ p) (js : List DecryptJob) :
    (c.work p js).underway q = c.underway q := by
  simp only [underway, work, Function.update_of_ne hq]

lemma Sealed.carry (h : c.Sealed S) (p : Side) {ds : List Datagram}
    (hds : ∀ d ∈ ds, d.Sealed S (c.keys p)) : (c.carry p ds).Sealed S where
  keys := h.keys
  datagrams q := by
    obtain rfl | rfl := p.eq_or_eq_other q
    · rw [carry_datagrams_self]
      exact hds
    · rw [carry_datagrams_other]
      exact h.datagrams p.other
  jobs := h.jobs

lemma Sealed.work (h : c.Sealed S) (p : Side) {js : List DecryptJob}
    (hjs : ∀ job ∈ js, job.Sealed) : (c.work p js).Sealed S where
  keys := h.keys
  datagrams := h.datagrams
  jobs q := by
    obtain rfl | rfl := p.eq_or_eq_other q
    · rw [work_jobs_self]
      exact hjs
    · rw [work_jobs_other]
      exact h.jobs p.other

/-- A datagram that is on its way, and the others. -/
lemma Sealed.of_datagrams (h : c.Sealed S) {before after : List Datagram} {d : Datagram}
    (hd : c.datagrams p = before ++ d :: after) :
    d.Sealed S (c.keys p) ∧ ∀ d ∈ before ++ after, d.Sealed S (c.keys p) := by
  have hall := h.datagrams p
  rw [hd] at hall
  refine ⟨hall d (by simp), fun d' hd' => hall d' ?_⟩
  rcases List.mem_append.mp hd' with hd' | hd'
  · exact List.mem_append_left _ hd'
  · exact List.mem_append_right _ (List.mem_cons_of_mem _ hd')

lemma Sealed.of_jobs (h : c.Sealed S) {before after : List DecryptJob} {job : DecryptJob}
    (hjob : c.jobs p = before ++ job :: after) :
    job.Sealed ∧ ∀ job ∈ before ++ after, job.Sealed := by
  have hall := h.jobs p
  rw [hjob] at hall
  refine ⟨hall job (by simp), fun job' hjob' => hall job' ?_⟩
  rcases List.mem_append.mp hjob' with hjob' | hjob'
  · exact List.mem_append_left _ hjob'
  · exact List.mem_append_right _ (List.mem_cons_of_mem _ hjob')

/-- The frames in the queue of an end. -/
lemma Shows.length_le (h : c.Shows n) (hreach : Iwp.Reachable L n) {f : Bytes}
    (hf : f ∈ (c.ends p).outbound) : 0 < f.length ∧ f.length + 64 + 127 ≤ 1500 := by
  have hunder : f ∈ c.underway p.other := by
    rw [underway, Side.other_other]
    exact List.mem_append_left _ hf
  have hout : f ∈ (n.ends p).outbound := by
    rw [← Net.inflight_other]
    exact (h.inflight p.other).mem_iff.mpr hunder
  have hhonest := honest_of_reachable hreach p
  exact (hhonest.written f (List.mem_append_left _ hout)).length_le

/-- Every step of the ends and of the network is matched. -/
lemma shows_step {e : CipherEvent} (hstep : CipherStep L S junk c e c') (he : c.Unforged S e)
    (hsealed : c.Sealed S) (h : c.Shows n) (hreach : Iwp.Reachable L n) :
    c'.Sealed S ∧ ∃ n', Iwp.Reachable L n' ∧ c'.Shows n' := by
  cases hstep with
  | @act p a s ha =>
    -- the plain end takes the same step, over the queue that it has
    obtain ⟨new, hnew, hact⟩ := ha.moved (n.ends p).outbound
    rw [← h.ends p, ← h.clock] at hact
    exact ⟨⟨hsealed.keys, hsealed.datagrams, hsealed.jobs⟩, _,
      ReachableIf.step hreach trivial (.act p hact), h.set p hnew⟩
  | @encrypt p f fresh pad nonce frame hf hframe =>
    -- the frame only moves from the queue to the wire, so the plain network stays where it is
    obtain ⟨hpos, hlen⟩ := h.length_le hreach hf
    have hunqueue : (c.unqueue p f).Sealed S := ⟨hsealed.keys, hsealed.datagrams, hsealed.jobs⟩
    refine ⟨hunqueue.carry p.other fun d hd => ?_, n, hreach, h.stay rfl withOutbound_unqueue ?_⟩
    · rcases List.mem_cons.mp hd with rfl | hd
      · exact ⟨hpos, hlen, fresh, pad, nonce, frame, hframe, by rw [hsealed.keys p]; rfl⟩
      · exact hsealed.datagrams p.other d hd
    · intro q
      obtain rfl | rfl := p.eq_or_eq_other q
      · rw [underway_carry_of_ne q.ne_other, underway_unqueue_self]
      · exact (underway_unqueue hf).trans (underway_cons (c := c.unqueue p f)
          ⟨datagramOf S (c.keys p).sessionkey nonce frame, some f⟩)
  | @codel p f hf =>
    refine ⟨⟨hsealed.keys, hsealed.datagrams, hsealed.jobs⟩, ?_⟩
    refine h.lose hreach p.other (some f) rfl withOutbound_unqueue (underway_unqueue hf) ?_
    rw [Side.other_other, underway_unqueue_self]
  | @drop p before after d hd =>
    refine ⟨hsealed.carry p (hsealed.of_datagrams hd).2, ?_⟩
    refine h.lose hreach p d.frame rfl (fun _ => rfl) (underway_gone hd) ?_
    rw [underway_carry_of_ne p.other_ne]
  | @dup p d hd =>
    refine ⟨hsealed.carry p fun d' hd' => ?_, ?_⟩
    · rcases List.mem_cons.mp hd' with rfl | hd'
      · exact hsealed.datagrams p d' hd
      · exact hsealed.datagrams p d' hd'
    · refine h.copy hreach p d.frame rfl (fun _ => rfl) (fun f hf => ?_) (underway_cons d) ?_
      · have hmem : f ∈ (c.datagrams p).filterMap Datagram.frame :=
          List.mem_filterMap.mpr ⟨d, hd, hf⟩
        exact List.mem_append_right _ (List.mem_append_left _ hmem)
      · rw [underway_carry_of_ne p.other_ne]
  | inject p bytes =>
    refine ⟨hsealed.carry p fun d hd => ?_, n, hreach, h.stay rfl (fun _ => rfl) fun q => ?_⟩
    -- a datagram from outside stands for no frame, and nobody can decrypt it
    · rcases List.mem_cons.mp hd with rfl | hd
      · exact he
      · exact hsealed.datagrams p d hd
    · obtain rfl | rfl := p.eq_or_eq_other q
      · exact underway_cons ⟨bytes, none⟩
      · rw [underway_carry_of_ne p.other_ne]
  | @recv p before after d fresh body success hd hbody =>
    -- decryption brings the frame back with its padding, since the datagram was sealed
    obtain ⟨hsealed_d, hrest⟩ := hsealed.of_datagrams hd
    refine ⟨(hsealed.carry p hrest).work p fun job hjob => ?_, n, hreach,
      h.stay rfl (fun _ => rfl) fun q => ?_⟩
    · rcases List.mem_cons.mp hjob with rfl | hjob
      · exact hsealed_d.job (recv_decrypted hbody)
      · exact hsealed.jobs p job hjob
    · obtain rfl | rfl := p.eq_or_eq_other q
      · exact (underway_gone hd).trans
          (underway_work_cons (c := c.carry q (before ++ after)) ⟨body, success, d.frame⟩)
      · rw [underway_work_of_ne p.other_ne, underway_carry_of_ne p.other_ne]
  | @ignore p before after d fresh hd hbody =>
    refine ⟨hsealed.carry p (hsealed.of_datagrams hd).2, ?_⟩
    refine h.lose hreach p d.frame rfl (fun _ => rfl) (underway_gone hd) ?_
    rw [underway_carry_of_ne p.other_ne]
  | @accept p before after job s hjob hsuccess hs =>
    -- the only step that the plain network follows with a delivery
    obtain ⟨hsealed_job, hrest⟩ := hsealed.of_jobs hjob
    have hset : (c.set p s).Sealed S := ⟨hsealed.keys, hsealed.datagrams, hsealed.jobs⟩
    refine ⟨hset.work p hrest, ?_⟩
    obtain ⟨body, success, frame⟩ := job
    cases frame with
    | none => cases hsuccess.symm.trans hsealed_job
    | some f =>
      obtain ⟨-, pad, rfl : body = f ++ pad.1⟩ := hsealed_job
      obtain ⟨new, hnew, hmoved⟩ := Session.moved
        (F := fun s => s.handleFrameDecrypt (L.env p) c.clock (f ++ pad.1))
        (fun out s => Session.handleFrameDecrypt_after) hs (n.ends p).outbound
      rw [← h.ends p, ← h.clock] at hmoved
      have hunder := underway_over hjob
      have hinflight : (n.inflight p).Perm (f :: (c.work p (before ++ after)).underway p) :=
        (h.inflight p).trans hunder
      have hf : f ∈ n.inflight p := hinflight.mem_iff.mpr List.mem_cons_self
      have herase : ((n.inflight p).erase f).Perm ((c.work p (before ++ after)).underway p) := by
        simpa using hinflight.erase f
      refine ⟨_, ReachableIf.step hreach trivial (.deliver p pad hf hmoved), ?_⟩
      refine (h.set p hnew).carry p rfl (fun _ => rfl) ?_ ?_
      · have hsame : ((c.set p s).work p (before ++ after)).underway p =
            (c.work p (before ++ after)).underway p := by
          change ((c.set p s).ends p.other).outbound ++ _ = _
          rw [set_ends_other]
          rfl
        rwa [hsame]
      · rw [underway_work_of_ne p.other_ne]
  | @refuse p before after job hjob hsuccess =>
    obtain ⟨hsealed_job, hrest⟩ := hsealed.of_jobs hjob
    refine ⟨hsealed.work p hrest, h.lose hreach p job.frame rfl (fun _ => rfl)
      (underway_over hjob) ?_⟩
    rw [underway_work_of_ne p.other_ne]
  | wait now =>
    refine ⟨⟨hsealed.keys, hsealed.datagrams, hsealed.jobs⟩, _,
      ReachableIf.step hreach trivial (.wait now), ⟨rfl, h.ends, h.inflight⟩⟩

lemma Reachable.step {e : CipherEvent} (h : c.Reachable L S junk)
    (hstep : CipherStep L S junk c e c') (he : c.Unforged S e) : c'.Reachable L S junk := by
  obtain ⟨c₀, hinitial, hrun⟩ := h
  exact ⟨c₀, hinitial, hrun.tail ⟨e, he, hstep⟩⟩

/-- Every state is matched. -/
lemma exists_shown (h : c.Reachable L S junk) :
    c.Sealed S ∧ ∃ n : Net σ, Iwp.Reachable L n ∧ c.Shows n := by
  obtain ⟨c₀, ⟨hinitial, hempty, hkeys⟩, hrun⟩ := h
  induction hrun with
  | refl =>
    refine ⟨⟨hkeys, fun p d hd => ?_, fun p job hjob => ?_⟩, ⟨c₀.ends, c₀.clock⟩,
      ReachableIf.initial hinitial, rfl, fun p => rfl, fun p => ?_⟩
    · simp [(hempty p).1] at hd
    · simp [(hempty p).2] at hjob
    · simp [Net.inflight, underway, (hempty p).1, (hempty p).2]
  | tail _ hstep ih =>
    obtain ⟨e, he, hstep⟩ := hstep
    obtain ⟨hsealed, n, hreach, hshows⟩ := ih
    exact shows_step hstep he hsealed hshows hreach

/-- **Others are not heard.** In every run in which nobody else knows the key, the two ends are in
states that they also reach when they exchange plain frames over a network that loses, copies and
reorders them; and no frame in a queue is too big to be encrypted. -/
theorem ciphered_refines (L : Link σ) (S : Sodium) (junk : Blob 32) {c : CipherNet σ}
    (h : c.Reachable L S junk) :
    (∃ n : Net σ, Iwp.Reachable L n ∧ c.Shows n) ∧
      ∀ p, ∀ f ∈ (c.ends p).outbound, ∀ fresh pad, asyncFrame fresh f pad ≠ none := by
  obtain ⟨-, n, hreach, hshows⟩ := exists_shown h
  refine ⟨⟨n, hreach, hshows⟩, fun p f hf fresh pad => ?_⟩
  obtain ⟨-, hlen⟩ := hshows.length_le hreach hf
  rw [asyncFrame, allocEmpty, if_neg (by omega)]
  exact Option.some_ne_none _

/-- What an end has on record is what it has on record in the state that matches. -/
lemma Shows.record (h : c.Shows n) (p : Side) :
    (n.ends p).handed = (c.ends p).handed ∧ (n.ends p).queued = (c.ends p).queued ∧
      (n.ends p).frame = (c.ends p).frame := by
  rw [h.ends p]
  exact ⟨rfl, rfl, rfl⟩

/-- **What is handed over was sent, and what was sent is not forgotten.** In every run in which
nobody else knows the key: a message that an end gives to the router has the hash of one that the
other end queued under its id; and a message that an end has queued, under an id of its own, is
still in its `tx`, or the other end has given it to the router. -/
theorem ciphered_delivery (L : Link σ) (S : Sodium) (junk : Blob 32) {c : CipherNet σ}
    (h : c.Reachable L S junk) (p : Side) :
    (∀ id x, (id, x) ∈ (c.ends p.other).handed →
      ∃ m : LinkMessage, (id, m) ∈ (c.ends p).queued ∧ L.shorthash x = L.shorthash m.1) ∧
    ∀ id m, (id, m) ∈ (c.ends p).queued → (∀ m', (id, m') ∈ (c.ends p).queued → m' = m) →
      id ∈ (c.ends p).frame.tx ∨ (id, m.1) ∈ (c.ends p.other).handed := by
  obtain ⟨-, n, hreach, hshows⟩ := exists_shown h
  obtain ⟨-, hqueued, hframe⟩ := hshows.record p
  obtain ⟨hhanded, -⟩ := hshows.record p.other
  constructor
  · intro id x hx
    have hgenuine := genuine_of_reachable hreach p.other
    rw [Side.other_other, hqueued] at hgenuine
    exact hgenuine.handed id x (hhanded ▸ hx)
  · intro id m hm honly
    have haccounted : Accounted n p id m :=
      accounted_of_reachable hreach (fun m' hm' => honly m' (hqueued ▸ hm')) (hqueued ▸ hm)
    rwa [Accounted, hframe, hhanded] at haccounted

/-! ### One message -/

/-- A message is sent and heard, while somebody else sends a byte. -/
lemma short_heard : ∃ c : CipherNet Unit,
    c.Reachable shortLink Handshake.twoKeys Handshake.aliceSeed ∧
      (1, shortMessage.1) ∈ (c.ends .responder).handed ∧
      (c.ends .initiator).queued = [(1, shortMessage)] := by
  let c₀ : CipherNet Unit :=
    { ends := freshNet.ends, keys := fun _ => Handshake.freshEnd Handshake.aliceSeed 1, clock := 0,
      datagrams := fun _ => [], jobs := fun _ => [] }
  have h₀ : c₀.Reachable shortLink Handshake.twoKeys Handshake.aliceSeed :=
    ⟨c₀, ⟨freshNet_initial, fun _ => ⟨rfl, rfl⟩, fun _ => rfl⟩, .refl⟩
  have h₁ := h₀.step (.act .initiator (.send shortMessage)) trivial
  set c₁ := c₀.set .initiator ((c₀.ends .initiator).sendto (shortLink.env .initiator) shortMessage)
    with hc₁
  have hout : (c₁.ends .initiator).outbound = [shortXmit] := sentNet_inflight
  have hwritten : Written (fun _ => shortHash) [(1, shortMessage)] shortXmit :=
    .xmit 0 (List.mem_singleton_self _)
  obtain ⟨hpos, hlen⟩ := hwritten.length_le
  let fresh : Blob 1500 := List.Vector.replicate 1500 0
  obtain ⟨frame, hframe⟩ : ∃ frame, asyncFrame fresh shortXmit ⟨[], by decide⟩ = some frame := by
    rw [asyncFrame, allocEmpty, if_neg (by omega)]
    exact ⟨_, rfl⟩
  have h₂ := h₁.step (.encrypt .initiator Handshake.bobSeed
    (by rw [hout]; exact List.mem_singleton_self _) hframe) trivial
  -- the byte from outside is too short to be decrypted
  have h₃ := h₂.step (.inject .responder [0]) fun fresh body h => by cases h
  let e := Handshake.freshEnd Handshake.aliceSeed 1
  have hbody : (Handshake.decryptFrame Handshake.twoKeys fresh e
      (datagramOf Handshake.twoKeys e.sessionkey Handshake.bobSeed frame)).val =
        .decrypted (shortXmit ++ []) true := decryptFrame_datagramOf hframe hlen hpos
  have h₄ := h₃.step (.recv .responder [⟨[0], none⟩] [] fresh rfl hbody) trivial
  obtain ⟨s, hs, hhanded, -⟩ := recv_shortXmit (freshNet.ends .responder) 0 (by decide)
  have h₅ := h₄.step (.accept .responder [] [] rfl rfl hs) trivial
  refine ⟨_, h₅, ?_, rfl⟩
  change (1, shortMessage.1) ∈ s.handed
  rw [hhanded]
  exact List.mem_append_right _ (List.mem_singleton_self _)

theorem ciphered_refines_short : ∃ c : CipherNet Unit,
    (1, shortMessage.1) ∈ (c.ends .responder).handed ∧
      ∃ n : Net Unit, Iwp.Reachable shortLink n ∧ c.Shows n := by
  obtain ⟨c, hreach, hhanded, -⟩ := short_heard
  exact ⟨c, hhanded, (ciphered_refines shortLink _ _ hreach).1⟩

theorem ciphered_delivery_short : ∃ c : CipherNet Unit,
    (∃ m : LinkMessage, (1, m) ∈ (c.ends .initiator).queued ∧
      shortLink.shorthash shortMessage.1 = shortLink.shorthash m.1) ∧
    ((1 : UInt64) ∈ (c.ends .initiator).frame.tx ∨
      (1, shortMessage.1) ∈ (c.ends .responder).handed) := by
  obtain ⟨c, hreach, hhanded, hqueued⟩ := short_heard
  obtain ⟨hsent, hkept⟩ := ciphered_delivery shortLink _ _ hreach .initiator
  refine ⟨c, hsent 1 _ hhanded, hkept 1 shortMessage ?_ fun m' hm' => ?_⟩
  · rw [hqueued]
    exact List.mem_singleton_self _
  · rw [hqueued, List.mem_singleton] at hm'
    exact congrArg Prod.snd hm'

end CipherNet

end Udap.Iwp
