import Udap.Iwp.Forward
import Udap.Iwp.ServerMoves
import Udap.RouterContact

/-!
The rest of `struct server`: the jobs that encrypt what its sessions send, and `m_Connected`,
which has an address for every identity that a session was established with.

`PumpCryptoOutbound` queues a job for the session at the workers. It is called with every message
that is sent, with a keepalive, and when a session enters `eSessionStartSent` or `eIntroAckSent`.

`m_Connected` is written by `session_established` and searched for an address by `UnmapAddr`. The
search takes the first entry it finds, and the order of an unordered map may change at any time.
-/

namespace Udap.Iwp

open ByteMem

/-- `struct server` in full. -/
structure Endpoint (σ ι : Type) where
  server : Server σ ι := {}
  /-- the jobs with `handle_crypto_outbound` at the workers, by session -/
  outbound : ℕ → ℕ := fun _ => 0
  connected : AList (fun _ : PubKey => ι) := ∅
  /-- the identity that a session had when it was established last -/
  identity : ℕ → Option PubKey := fun _ => none
  /-- the calls of `SessionClosed` of the router -/
  closed : List PubKey := []

/-- What happens to a link and its workers. -/
inductive WorkEvent (σ ι : Type) where
  | link (e : LinkEvent σ ι)
  /-- a job with `handle_crypto_outbound` ends -/
  | encrypted (p : ℕ)
  /-- the entries of `m_Connected` get another order -/
  | rehash (m : AList (fun _ : PubKey => ι))

namespace Server

variable {σ ι : Type}

/-- The number of messages that the session at `p` was given to send. -/
def queuedBy (l : Server σ ι) (p : ℕ) : ℕ := ((l.heap p).map fun s => s.core.queued.length).getD 0

/-- The calls of `PumpCryptoOutbound` by the event for the session `s` at `p`, but for those that
come with a message. -/
def pumps (s : LinkSession σ ι) (p : ℕ) : LinkEvent σ ι → ℕ
  | .complete _ q job ok sent =>
      if q ≠ p then 0
      else
        match job with
        | .genIntroack | .verifyIntroack =>
            if s.introack.verifies = false ∧ (s.introack.after job ok).buf = true ∧
              sent = true then 1
            else 0
        | .genSessionStart | .verifySessionStart => if s.start.verifies = false then 1 else 0
        | _ => 0
  | .keepalive q => if q = p ∧ s.core.isInvalidated = false then 1 else 0
  | .tick now q =>
      if q = p ∧ s.core.timedout now = false ∧ s.core.isInvalidated = false then
        (if s.core.state = .eEstablished ∨ s.core.state = .eLIMSent then 1 else 0) +
          if s.core.state = .eEstablished then 1 else 0
      else 0
  | _ => 0

/-- The jobs that a step from `l` to `l'` queues for the session at `p`. -/
def encryptions (l l' : Server σ ι) (e : LinkEvent σ ι) (p : ℕ) : ℕ :=
  (l'.queuedBy p - l.queuedBy p) + ((l.heap p).map fun s => pumps s p e).getD 0

/-- The session that the event may establish, with its identity. -/
def newlyEstablished (pubkey : σ → PubKey) (l l' : Server σ ι) :
    LinkEvent σ ι → Option (ℕ × ι × PubKey)
  | .decrypted _ p _ =>
      (l.heap p).bind fun s => (l'.heap p).bind fun s' =>
        if s.core.isEstablished = false ∧ s'.core.isEstablished = true then
          some (p, s'.addr, pubkey s'.core.peer)
        else none
  | _ => none

/-- The session that the event reaches, if it may call `RemoveSessionByAddr` for it. -/
def removable (l : Server σ ι) : LinkEvent σ ι → Option ℕ
  | .recvfrom _ src _ => l.sessions src
  | .tick _ p => some p
  | _ => none

/-- The address for which `RemoveSessionByAddr` found a session. -/
def removedAddr (l l' : Server σ ι) (e : LinkEvent σ ι) : Option ι :=
  (l.removable e).bind fun p => (l.heap p).bind fun s =>
    if (l.sessions s.addr).isSome = true ∧ l'.sessions s.addr = none then some s.addr else none

end Server

namespace Endpoint

variable {σ ι : Type}

/-- `HasSessionToRouter`. -/
def hasSessionToRouter (pk : PubKey) (l : Endpoint σ ι) : Bool := (l.connected.lookup pk).isSome

/-- `MapAddr`, as `session_established` calls it. -/
def mapAddr (established : Option (ℕ × ι × PubKey)) (l : Endpoint σ ι) : Endpoint σ ι :=
  match established with
  | none => l
  | some (p, src, pk) =>
      { l with
        connected := l.connected.insert pk src
        identity := Function.update l.identity p (some pk) }

@[simp] lemma mapAddr_server (established : Option (ℕ × ι × PubKey)) (l : Endpoint σ ι) :
    (l.mapAddr established).server = l.server := by cases established <;> rfl

@[simp] lemma mapAddr_outbound (established : Option (ℕ × ι × PubKey)) (l : Endpoint σ ι) :
    (l.mapAddr established).outbound = l.outbound := by cases established <;> rfl

variable [DecidableEq ι]

/-- `UnmapAddr`, as `RemoveSessionByAddr` calls it. -/
def unmapAddr (removed : Option ι) (l : Endpoint σ ι) : Endpoint σ ι :=
  match removed with
  | none => l
  | some src =>
      match l.connected.entries.find? fun item => item.2 = src with
      | none => l
      | some item =>
          { l with connected := l.connected.erase item.1, closed := l.closed ++ [item.1] }

@[simp] lemma unmapAddr_server (removed : Option ι) (l : Endpoint σ ι) :
    (l.unmapAddr removed).server = l.server := by
  cases removed with
  | none => rfl
  | some src =>
      simp only [unmapAddr]
      split <;> rfl

@[simp] lemma unmapAddr_outbound (removed : Option ι) (l : Endpoint σ ι) :
    (l.unmapAddr removed).outbound = l.outbound := by
  cases removed with
  | none => rfl
  | some src =>
      simp only [unmapAddr]
      split <;> rfl

variable (env : LinkEnv σ) (p₀ : σ) (pubkey : σ → PubKey)

/-- What happens next, if it can happen. -/
def step (l : Endpoint σ ι) : WorkEvent σ ι → Option (Endpoint σ ι)
  | .link e => (l.server.step env p₀ e).map fun server =>
      ({ l with
          server := server
          outbound := fun p => l.outbound p + l.server.encryptions server e p }.mapAddr
        (l.server.newlyEstablished pubkey server e)).unmapAddr (l.server.removedAddr server e)
  | .encrypted p =>
      if l.outbound p = 0 then none
      else some { l with outbound := Function.update l.outbound p (l.outbound p - 1) }
  | .rehash m => if m.entries.Perm l.connected.entries then some { l with connected := m } else none

/-- A link in a run from one without sessions, whose events meet `C`. -/
def ReachableBy (C : Endpoint σ ι → WorkEvent σ ι → Prop) (l : Endpoint σ ι) : Prop :=
  Relation.ReflTransGen (fun l l' => ∃ e, C l e ∧ l.step env p₀ pubkey e = some l') {} l

variable {env p₀ pubkey} {l l' : Endpoint σ ι} {e : LinkEvent σ ι}

/-- A step of the sessions, and the jobs it queues. -/
lemma step_link (h : l.step env p₀ pubkey (.link e) = some l') :
    l.server.step env p₀ e = some l'.server ∧
      ∀ p, l'.outbound p = l.outbound p + l.server.encryptions l'.server e p := by
  obtain ⟨server, hserver, rfl⟩ := Option.map_eq_some_iff.mp h
  simp only [unmapAddr_server, mapAddr_server, unmapAddr_outbound, mapAddr_outbound]
  exact ⟨hserver, fun _ => trivial⟩

/-- What the sessions can do the link can do. -/
lemma exists_step_link (pubkey : σ → PubKey) {server : Server σ ι}
    (h : l.server.step env p₀ e = some server) :
    ∃ l', l.step env p₀ pubkey (.link e) = some l' ∧ l'.server = server := by
  refine ⟨_, by rw [step, h, Option.map_some], ?_⟩
  simp only [unmapAddr_server, mapAddr_server]

/-- Only `session_established` gives a session an identity. -/
lemma step_identity (h : l.step env p₀ pubkey (.link e) = some l')
    (hest : l.server.newlyEstablished pubkey l'.server e = none) : l'.identity = l.identity := by
  obtain ⟨server, hserver, rfl⟩ := Option.map_eq_some_iff.mp h
  simp only [unmapAddr_server, mapAddr_server] at hest
  rw [hest]
  simp only [mapAddr, unmapAddr]
  split
  · rfl
  · split <;> rfl

/-- A step that no session gets established or removed by. -/
lemma step_connected_same (h : l.step env p₀ pubkey (.link e) = some l')
    (hest : l.server.newlyEstablished pubkey l'.server e = none)
    (hrem : l.server.removedAddr l'.server e = none) :
    l'.connected = l.connected ∧ l'.identity = l.identity := by
  obtain ⟨server, hserver, rfl⟩ := Option.map_eq_some_iff.mp h
  simp only [unmapAddr_server, mapAddr_server] at hest hrem
  rw [hest, hrem]
  exact ⟨rfl, rfl⟩

/-- A step that establishes a session. -/
lemma step_connected_map {p : ℕ} {a : ι} {pk : PubKey}
    (h : l.step env p₀ pubkey (.link e) = some l')
    (hest : l.server.newlyEstablished pubkey l'.server e = some (p, a, pk))
    (hrem : l.server.removedAddr l'.server e = none) :
    l'.connected = l.connected.insert pk a ∧
      l'.identity = Function.update l.identity p (some pk) := by
  obtain ⟨server, hserver, rfl⟩ := Option.map_eq_some_iff.mp h
  simp only [unmapAddr_server, mapAddr_server] at hest hrem
  rw [hest, hrem]
  exact ⟨rfl, rfl⟩

/-- A step that removes a session. -/
lemma step_connected_unmap {a : ι} (h : l.step env p₀ pubkey (.link e) = some l')
    (hest : l.server.newlyEstablished pubkey l'.server e = none)
    (hrem : l.server.removedAddr l'.server e = some a) :
    l'.connected = (l.unmapAddr (some a)).connected ∧ l'.identity = l.identity := by
  obtain ⟨server, hserver, rfl⟩ := Option.map_eq_some_iff.mp h
  simp only [unmapAddr_server, mapAddr_server] at hest hrem
  rw [hest, hrem]
  simp only [mapAddr, unmapAddr]
  split
  · exact ⟨rfl, rfl⟩
  · exact ⟨rfl, rfl⟩

lemma ReachableBy.any {C : Endpoint σ ι → WorkEvent σ ι → Prop}
    (h : l.ReachableBy env p₀ pubkey C) :
    l.ReachableBy env p₀ pubkey fun _ _ => True := by
  induction h with
  | refl => exact .refl
  | tail _ hstep ih =>
      obtain ⟨e, -, hl⟩ := hstep
      exact .tail ih ⟨e, trivial, hl⟩

/-- A run given by its events. -/
lemma reachableBy_of_foldlM {es : List (WorkEvent σ ι)} {l₀ : Endpoint σ ι}
    (h₀ : l₀.ReachableBy env p₀ pubkey fun _ _ => True)
    (h : es.foldlM (fun l e => l.step env p₀ pubkey e) l₀ = some l) :
    l.ReachableBy env p₀ pubkey fun _ _ => True := by
  induction es generalizing l₀ with
  | nil =>
      rw [← Option.some.inj h]
      exact h₀
  | cons e es ih =>
      obtain ⟨l₁, hl₁, h⟩ := Option.bind_eq_some_iff.mp h
      exact ih (.tail h₀ ⟨e, trivial, hl₁⟩) h

end Endpoint

end Udap.Iwp
