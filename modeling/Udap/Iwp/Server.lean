import Udap.Iwp.Intake

/-!
`struct server` with its sessions, the crypto jobs they have at the workers, and the
timers of their establish jobs.

Sessions are objects on a heap, and `m_sessions` maps addresses to them. A new inbound session is
put into the map when its intro ack was generated, an outbound one at once. Two functions delete a
session and leave it in the map: `on_intro` for a packet that is too big, and
`handle_introack_generated` for a session that is in the map already.

A crypto job calls the hook that its structure has when the job ends, which need not be the one it
was queued with: the jobs that make and that verify a packet share a structure.

The outcomes of the jobs and of `sendto` are arguments of the events, and so are reads of the
clock. An event has no next state where the program uses memory that is gone, or throws.
-/

namespace Udap.Iwp

open ByteMem

/-- A crypto job. -/
inductive CryptoJob where
  | genIntro | verifyIntro | genIntroack | verifyIntroack | genSessionStart | verifySessionStart
  | decryptFrame
  deriving DecidableEq, Repr

/-- The job verifies a packet. -/
def CryptoJob.verifying : CryptoJob → Bool
  | .verifyIntro | .verifyIntroack | .verifySessionStart => true
  | _ => false

/-- What the handlers read of `iwp_async_intro`, `iwp_async_introack` and
`iwp_async_session_start`: whether `buf` is set, and whether the hook is that of a verification. -/
structure Async where
  buf : Bool := false
  verifies : Bool := false

/-- `buf` after a job: a verification that fails clears it. -/
def Async.after (a : Async) (job : CryptoJob) (ok : Bool) : Async :=
  { a with buf := a.buf && (!job.verifying || ok) }

/-- `struct session` with what the link uses of it. Establish jobs are numbered in the order of
their attempts. -/
structure LinkSession (σ ι : Type) where
  addr : ι
  core : Session σ
  working : Bool := false
  intro : Async := {}
  introack : Async := {}
  start : Async := {}
  /-- the jobs at the workers -/
  jobs : List CryptoJob := []
  establishJob : Option ℕ := none
  establishJobId : ℕ := 0

/-- A timer with the handler `handle_establish_timeout`. -/
structure Timer where
  id : ℕ
  user : ℕ
  started : UInt64
  canceled : Bool := false
  deriving DecidableEq

/-- A timer is called when its time is over or when it was canceled. -/
def Timer.due (now : UInt64) (t : Timer) : Bool := now - t.started ≥ 5000 || t.canceled

/-- `struct server` and the timers of its sessions. -/
structure Server (σ ι : Type) where
  heap : ℕ → Option (LinkSession σ ι) := fun _ => none
  /-- the number of sessions made so far -/
  made : ℕ := 0
  sessions : ι → Option ℕ := fun _ => none
  timers : List Timer := []
  /-- the number of timers started so far, by anyone -/
  ids : ℕ := 0
  /-- the number of calls of `link_try_establish` so far -/
  attempts : ℕ := 0
  /-- the calls of `job->result`: the attempt, and whether it has a session -/
  answers : List (ℕ × Bool) := []

/-! ### Sessions -/

namespace LinkSession

variable {σ ι : Type} (env : LinkEnv σ)

/-- The constructor. -/
def new (p₀ : σ) (addr : ι) : LinkSession σ ι where
  addr := addr
  core := { frame := {}, state := .eInitial, peer := p₀ }

/-- `EnterState`. -/
def enterState (now : UInt64) (st : State) (s : LinkSession σ ι) : LinkSession σ ι :=
  { s with core := s.core.enterState now st }

/-- `frame.alive()`. -/
def alive (now : UInt64) (s : LinkSession σ ι) : LinkSession σ ι :=
  { s with core := { s.core with frame := s.core.frame.alive now } }

/-- A job is given to the workers. -/
def queue (job : CryptoJob) (s : LinkSession σ ι) : LinkSession σ ι :=
  { s with jobs := s.jobs ++ [job] }

/-- `introduce`, up to its timer. -/
def introduce (s : LinkSession σ ι) : LinkSession σ ι :=
  { s with intro := ⟨true, false⟩, working := true }.queue .genIntro

/-- What `link_try_establish` does to a session: it takes the job, and its timer gets the id. -/
def establish (now : UInt64) (job id : ℕ) (s : LinkSession σ ι) : LinkSession σ ι :=
  { s.alive now with establishJob := some job, establishJobId := id }.introduce

/-- `on_intro` for a packet that is not too big. -/
def onIntro (now : UInt64) (s : LinkSession σ ι) : LinkSession σ ι :=
  ({ s with intro := ⟨true, true⟩, working := true }.enterState now .eIntroRecv).queue .verifyIntro

/-- `on_intro_ack` for a packet that is not too big. -/
def onIntroAck (s : LinkSession σ ι) : LinkSession σ ι :=
  { s with introack := ⟨true, true⟩, working := true }.queue .verifyIntroack

/-- `on_session_start` for a packet that is not too big. -/
def onSessionStart (s : LinkSession σ ι) : LinkSession σ ι :=
  { s with start := ⟨true, true⟩, working := true }.queue .verifySessionStart

/-- `intro_ack`. -/
def introAck (s : LinkSession σ ι) : LinkSession σ ι :=
  { s with introack := ⟨true, false⟩, working := true }.queue .genIntroack

/-- `session_start`. -/
def sessionStart (s : LinkSession σ ι) : LinkSession σ ι :=
  { s with start := ⟨true, false⟩, working := true }.queue .genSessionStart

/-- `handle_generated_intro`. -/
def handleGeneratedIntro (now : UInt64) (sent : Bool) (s : LinkSession σ ι) : LinkSession σ ι :=
  if s.intro.buf && sent then { s with working := false }.enterState now .eIntroSent
  else { s with working := false }

/-- `handle_verify_intro`. -/
def handleVerifyIntro (s : LinkSession σ ι) : LinkSession σ ι :=
  if s.intro.buf then { s with working := false }.introAck else { s with working := false }

/-- `handle_verify_introack`. -/
def handleVerifyIntroack (now : UInt64) (s : LinkSession σ ι) : LinkSession σ ι :=
  if s.introack.buf then ({ s with working := false }.enterState now .eIntroAckRecv).sessionStart
  else { s with working := false }

/-- `handle_generated_session_start`; the packet need not be sent. -/
def handleGeneratedSessionStart (now : UInt64) (s : LinkSession σ ι) : LinkSession σ ι :=
  { s with working := false }.enterState now .eSessionStartSent

/-- `handle_verify_session_start`. -/
def handleVerifySessionStart (now : UInt64) (s : LinkSession σ ι) : LinkSession σ ι :=
  if s.start.buf then { s with working := false, core := s.core.sendLIM env now }
  else { s with working := false }

end LinkSession

/-! ### The link -/

/-- What happens to a link. -/
inductive LinkEvent (σ ι : Type) where
  | tryEstablish (now : UInt64) (dst : ι)
  | recvfrom (now : UInt64) (src : ι) (sz : ℕ)
  /-- a job of the handshake ends; `ok` is the outcome of a verification, `sent` that of `sendto` -/
  | complete (now : UInt64) (p : ℕ) (job : CryptoJob) (ok sent : Bool)
  /-- a decryption job ends: the frame, unless it failed, and its size -/
  | decrypted (now : UInt64) (p : ℕ) (frame : Option (Bytes × ℕ))
  | timer (now : UInt64) (t : Timer)
  /-- someone else starts a timer -/
  | otherTimer
  | tick (now : UInt64) (p : ℕ)
  | send (p : ℕ) (m : LinkMessage)
  | close (p : ℕ)
  | keepalive (p : ℕ)
  /-- the router works on the contact of a session -/
  | peer (p : ℕ) (x : σ)
  /-- `clear_sessions` comes to a session -/
  | clear (p : ℕ)

namespace Server

variable {σ ι : Type} (env : LinkEnv σ) (p₀ : σ)

/-- An object is written. -/
def put (p : ℕ) (s : LinkSession σ ι) (l : Server σ ι) : Server σ ι :=
  { l with heap := Function.update l.heap p (some s) }

/-- An object is deleted. -/
def delete (p : ℕ) (l : Server σ ι) : Server σ ι := { l with heap := Function.update l.heap p none }

@[simp] lemma put_heap_self (p : ℕ) (s : LinkSession σ ι) (l : Server σ ι) :
    (l.put p s).heap p = some s := Function.update_self ..

lemma put_heap_of_ne {p q : ℕ} (h : q ≠ p) (s : LinkSession σ ι) (l : Server σ ι) :
    (l.put p s).heap q = l.heap q := Function.update_of_ne h ..

@[simp] lemma delete_heap_self (p : ℕ) (l : Server σ ι) : (l.delete p).heap p = none :=
  Function.update_self ..

lemma delete_heap_of_ne {p q : ℕ} (h : q ≠ p) (l : Server σ ι) : (l.delete p).heap q = l.heap q :=
  Function.update_of_ne h ..

/-- One object of the heap is written or deleted. -/
lemma heap_update_cases {l : Server σ ι} {p q : ℕ} {x : Option (LinkSession σ ι)}
    {r : LinkSession σ ι} (h : Function.update l.heap p x q = some r) :
    q = p ∧ x = some r ∨ q ≠ p ∧ l.heap q = some r := by
  rcases eq_or_ne q p with rfl | hne
  · rw [Function.update_self] at h
    exact .inl ⟨rfl, h⟩
  · rw [Function.update_of_ne hne] at h
    exact .inr ⟨hne, h⟩

/-- `create_session`. -/
def createSession (addr : ι) (l : Server σ ι) : Server σ ι :=
  { l.put l.made (.new p₀ addr) with made := l.made + 1 }

variable [DecidableEq ι]

/-- `put_session`: an address that is in the map keeps its session. -/
def putSession (addr : ι) (p : ℕ) (l : Server σ ι) : Server σ ι :=
  { l with sessions := Function.update l.sessions addr (some ((l.sessions addr).getD p)) }

/-- `udap_logic_call_later` for the establish timer of a session. -/
def callLater (now : UInt64) (p : ℕ) (l : Server σ ι) : Server σ ι :=
  { l with
    ids := l.ids + 1
    timers := l.timers.filter (·.id ≠ (l.ids + 1) % 2 ^ 32) ++
      [{ id := (l.ids + 1) % 2 ^ 32, user := p, started := now }] }

/-- `udap_logic_remove_call`. -/
def removeCall (id : ℕ) (l : Server σ ι) : Server σ ι :=
  { l with timers := l.timers.filter (·.id ≠ id) }

/-- `udap_logic_cancel_call`. -/
def cancelCall (id : ℕ) (l : Server σ ι) : Server σ ι :=
  { l with timers := l.timers.map fun t => if t.id = id then { t with canceled := true } else t }

/-- `link_try_establish` from the session it found or made on. -/
def attach (now : UInt64) (p : ℕ) (s : LinkSession σ ι) (l : Server σ ι) : Server σ ι :=
  { (l.put p (s.establish now l.attempts ((l.ids + 1) % 2 ^ 32))).callLater now p with
    attempts := l.attempts + 1 }

/-- `link_try_establish`. -/
def tryEstablish (now : UInt64) (dst : ι) (l : Server σ ι) : Option (Server σ ι) :=
  match l.sessions dst with
  | some p => (l.heap p).map fun s => l.attach now p s
  | none => some (((l.createSession p₀ dst).putSession dst l.made).attach now l.made (.new p₀ dst))

/-- `done`: the handler is called with the original time `0`, for which it does nothing. -/
def done (s : LinkSession σ ι) (l : Server σ ι) : Server σ ι :=
  if s.establishJobId = 0 then l else l.removeCall s.establishJobId

/-- `RemoveSessionByAddr`. -/
def removeSessionByAddr (addr : ι) (l : Server σ ι) : Option (Server σ ι) :=
  match l.sessions addr with
  | none => some l
  | some p => (l.heap p).map fun s =>
      { (l.done s).delete p with sessions := Function.update l.sessions addr none }

/-- `recv`. -/
def recv (now : UInt64) (p : ℕ) (s : LinkSession σ ι) (sz : ℕ) (l : Server σ ι) :
    Option (Server σ ι) :=
  match s.core.state with
  | .eInitial => if sz ≥ 256 then some (l.delete p) else some (l.put p (s.onIntro now))
  | .eIntroSent => if sz ≥ 256 then l.removeSessionByAddr s.addr else some (l.put p s.onIntroAck)
  | .eIntroAckSent => if sz > 256 then some l else some (l.put p s.onSessionStart)
  | .eSessionStartSent | .eLIMSent | .eEstablished =>
      if sz ≤ 64 then some l
      -- the frame is null
      else if sz > 1500 then none
      else some (l.put p (s.queue .decryptFrame))
  | .eIntroRecv | .eIntroAckRecv | .eTimeout => some l

/-- `handle_recvfrom`. -/
def recvfrom (now : UInt64) (src : ι) (sz : ℕ) (l : Server σ ι) : Option (Server σ ι) :=
  match l.sessions src with
  | some p => (l.heap p).bind fun s => l.recv now p s sz
  | none => (l.createSession p₀ src).recv now l.made (.new p₀ src) sz

/-- `handle_introack_generated`. -/
def handleIntroackGenerated (now : UInt64) (p : ℕ) (sent : Bool) (s : LinkSession σ ι)
    (l : Server σ ι) : Server σ ι :=
  if s.introack.buf then
    if (l.sessions s.addr).isSome then l.delete p
    else if sent then (l.putSession s.addr p).put p ((s.alive now).enterState now .eIntroAckSent)
    else (l.putSession s.addr p).put p (s.alive now)
  else l.delete p

/-- The end of `gen_intro` or `verify_intro`, which work on a buffer that must be there, and then
the hook. -/
def completeIntro (now : UInt64) (p : ℕ) (job : CryptoJob) (ok sent : Bool) (s : LinkSession σ ι)
    (l : Server σ ι) : Option (Server σ ι) :=
  let s' := { s with jobs := s.jobs.erase job, intro := s.intro.after job ok }
  if s.intro.buf = false then none
  else if s.intro.verifies then some (l.put p s'.handleVerifyIntro)
  else some (l.put p (s'.handleGeneratedIntro now sent))

/-- The end of `gen_introack` or `verify_introack`. -/
def completeIntroack (now : UInt64) (p : ℕ) (job : CryptoJob) (ok sent : Bool)
    (s : LinkSession σ ι) (l : Server σ ι) : Option (Server σ ι) :=
  let s' := { s with jobs := s.jobs.erase job, introack := s.introack.after job ok }
  if s.introack.buf = false then none
  else if s.introack.verifies then some (l.put p (s'.handleVerifyIntroack now))
  else some (l.handleIntroackGenerated now p sent s')

/-- The end of `gen_session_start` or `verify_session_start`. -/
def completeSessionStart (now : UInt64) (p : ℕ) (job : CryptoJob) (ok : Bool)
    (s : LinkSession σ ι) (l : Server σ ι) : Option (Server σ ι) :=
  let s' := { s with jobs := s.jobs.erase job, start := s.start.after job ok }
  if s.start.buf = false then none
  else if s.start.verifies then some (l.put p (s'.handleVerifySessionStart env now))
  else some (l.put p (s'.handleGeneratedSessionStart now))

/-- The end of a job of the handshake. -/
def complete (now : UInt64) (p : ℕ) (job : CryptoJob) (ok sent : Bool) (s : LinkSession σ ι)
    (l : Server σ ι) : Option (Server σ ι) :=
  match job with
  | .genIntro => l.completeIntro now p .genIntro ok sent s
  | .verifyIntro => l.completeIntro now p .verifyIntro ok sent s
  | .genIntroack => l.completeIntroack now p .genIntroack ok sent s
  | .verifyIntroack => l.completeIntroack now p .verifyIntroack ok sent s
  | .genSessionStart => l.completeSessionStart env now p .genSessionStart ok s
  | .verifySessionStart => l.completeSessionStart env now p .verifySessionStart ok s
  | .decryptFrame => none

/-- A session processed a frame: `session_established` cancels the establish timer. -/
def processed (p : ℕ) (s : LinkSession σ ι) (core : Session σ) (l : Server σ ι) : Server σ ι :=
  if core.state = .eEstablished ∧ s.core.state ≠ .eEstablished then
    (l.put p { s with core := core }).cancelCall s.establishJobId
  else l.put p { s with core := core }

/-- `handle_frame_decrypt`. -/
def decrypted (now : UInt64) (p : ℕ) (frame : Option (Bytes × ℕ)) (s : LinkSession σ ι)
    (l : Server σ ι) : Option (Server σ ι) :=
  let s := { s with jobs := s.jobs.erase .decryptFrame }
  match frame with
  | none => some (l.put p s)
  | some (buf, sz) => (s.core.call env (.frame now buf sz)).toOption.map fun core =>
      l.processed p s core

/-- `handle_establish_timeout` as the timers call it, with their original time. -/
def handleEstablishTimeout (p : ℕ) (s : LinkSession σ ι) (l : Server σ ι) : Server σ ι :=
  match s.establishJob with
  | none => l.put p { s with establishJobId := 0 }
  | some job =>
      { l.put p { s with establishJobId := 0, establishJob := none } with
        answers := l.answers ++ [(job, s.core.isEstablished)] }

/-- `Tick` in `TickSessions`. -/
def tick (now : UInt64) (p : ℕ) (s : LinkSession σ ι) (l : Server σ ι) : Option (Server σ ι) :=
  (s.core.tick now s.working).toOption.bind fun done =>
    if done.2 then (l.put p { s with core := done.1 }).removeSessionByAddr s.addr
    else some (l.put p { s with core := done.1 })

/-- A call that works on the frame state of a session. -/
def onCore (p : ℕ) (f : Session σ → Session σ) (l : Server σ ι) : Option (Server σ ι) :=
  (l.heap p).map fun s => l.put p { s with core := f s.core }

/-- What happens next, if it can happen. -/
def step (l : Server σ ι) : LinkEvent σ ι → Option (Server σ ι)
  | .tryEstablish now dst => l.tryEstablish p₀ now dst
  | .recvfrom now src sz => l.recvfrom p₀ now src sz
  | .complete now p job ok sent => (l.heap p).bind fun s =>
      if job ∈ s.jobs then l.complete env now p job ok sent s else none
  | .decrypted now p frame => (l.heap p).bind fun s =>
      if .decryptFrame ∈ s.jobs then l.decrypted env now p frame s else none
  | .timer now t => (l.heap t.user).bind fun s =>
      if t ∈ l.timers ∧ t.due now then
        some ((l.removeCall t.id).handleEstablishTimeout t.user s)
      else none
  | .otherTimer => some { l.removeCall ((l.ids + 1) % 2 ^ 32) with ids := l.ids + 1 }
  | .tick now p => (l.heap p).bind fun s =>
      if l.sessions s.addr = some p then l.tick now p s else none
  | .send p m => l.onCore p fun s => s.sendto env m
  | .close p => l.onCore p Session.close
  | .keepalive p => l.onCore p Session.sendKeepalive
  | .peer p x => l.onCore p fun s => { s with peer := x }
  | .clear p => (l.heap p).bind fun s =>
      if l.sessions s.addr = some p then
        some { l.delete p with sessions := Function.update l.sessions s.addr none }
      else none

end Server

end Udap.Iwp
