import Udap.Iwp.Establish

/-!
What the events of a link do, read off once.

* `Change`: what an event makes of the session it reaches, where that session stays.
* `Moved`: what an event does to the sessions on the heap and to `m_sessions`. A session is made,
  changes, goes into the map or out of it, or is deleted and left there.
* `step_moved`: every step is one of these.
-/

namespace Udap.Iwp

open ByteMem

/-- The job works on the structure of the intro. -/
def CryptoJob.OnIntro (job : CryptoJob) : Prop := job = .genIntro ∨ job = .verifyIntro

/-- The job works on the structure of the intro ack. -/
def CryptoJob.OnIntroack (job : CryptoJob) : Prop := job = .genIntroack ∨ job = .verifyIntroack

/-- The job works on the structure of the session start. -/
def CryptoJob.OnSessionStart (job : CryptoJob) : Prop :=
  job = .genSessionStart ∨ job = .verifySessionStart

instance : DecidablePred CryptoJob.OnIntro := fun _ => inferInstanceAs (Decidable (_ ∨ _))

instance : DecidablePred CryptoJob.OnIntroack := fun _ => inferInstanceAs (Decidable (_ ∨ _))

instance : DecidablePred CryptoJob.OnSessionStart := fun _ => inferInstanceAs (Decidable (_ ∨ _))

namespace LinkSession

variable {σ ι : Type}

/-- A job on the intro came to its end, and the hook is next. -/
def introEnded (job : CryptoJob) (ok : Bool) (s : LinkSession σ ι) : LinkSession σ ι :=
  { s with jobs := s.jobs.erase job, intro := s.intro.after job ok }

/-- A job on the intro ack came to its end, and the hook is next. -/
def introackEnded (job : CryptoJob) (ok : Bool) (s : LinkSession σ ι) : LinkSession σ ι :=
  { s with jobs := s.jobs.erase job, introack := s.introack.after job ok }

/-- A job on the session start came to its end, and the hook is next. -/
def startEnded (job : CryptoJob) (ok : Bool) (s : LinkSession σ ι) : LinkSession σ ι :=
  { s with jobs := s.jobs.erase job, start := s.start.after job ok }

/-- The decryption of a frame came to its end. -/
def frameEnded (s : LinkSession σ ι) : LinkSession σ ι :=
  { s with jobs := s.jobs.erase .decryptFrame }

/-- A session with another frame state. -/
def setCore (c : Session σ) (s : LinkSession σ ι) : LinkSession σ ι := { s with core := c }

/-- The establish job is answered. -/
def answered (s : LinkSession σ ι) : LinkSession σ ι :=
  { s with establishJobId := 0, establishJob := none }

/-- The intro ack was generated for a new session, which was put into the map. -/
def introackSent (now : UInt64) (sent : Bool) (s : LinkSession σ ι) : LinkSession σ ι :=
  if sent then (s.alive now).enterState now .eIntroAckSent else s.alive now

end LinkSession

namespace Server

variable {σ ι : Type}

/-- The map has every session under its own address. -/
def Addressed (l : Server σ ι) : Prop :=
  ∀ a p s, l.sessions a = some p → l.heap p = some s → s.addr = a

/-- What an event makes of the session `s` at `p`, where it stays. -/
inductive Change (env : LinkEnv σ) (l : Server σ ι) (p : ℕ) (s : LinkSession σ ι) :
    LinkEvent σ ι → LinkSession σ ι → Prop
  | establish (now : UInt64) (dst : ι) (k id : ℕ) : l.sessions dst = some p →
      Change env l p s (.tryEstablish now dst) (s.establish now k id)
  | intro (now : UInt64) (src : ι) (sz : ℕ) : l.sessions src = some p →
      s.core.state = .eInitial → sz < 256 → Change env l p s (.recvfrom now src sz) (s.onIntro now)
  | introAck (now : UInt64) (src : ι) (sz : ℕ) : l.sessions src = some p →
      s.core.state = .eIntroSent → sz < 256 → Change env l p s (.recvfrom now src sz) s.onIntroAck
  | sessionStart (now : UInt64) (src : ι) (sz : ℕ) : l.sessions src = some p →
      s.core.state = .eIntroAckSent → Change env l p s (.recvfrom now src sz) s.onSessionStart
  | frame (now : UInt64) (src : ι) (sz : ℕ) : l.sessions src = some p →
      s.core.state = .eSessionStartSent ∨ s.core.state = .eLIMSent ∨
        s.core.state = .eEstablished → 64 < sz → sz ≤ 1500 →
      Change env l p s (.recvfrom now src sz) (s.queue .decryptFrame)
  | generatedIntro (now : UInt64) (job : CryptoJob) (ok sent : Bool) : job ∈ s.jobs →
      job.OnIntro → s.intro.buf = true → s.intro.verifies = false →
      Change env l p s (.complete now p job ok sent)
        ((s.introEnded job ok).handleGeneratedIntro now sent)
  | verifiedIntro (now : UInt64) (job : CryptoJob) (ok sent : Bool) : job ∈ s.jobs →
      job.OnIntro → s.intro.buf = true → s.intro.verifies = true →
      Change env l p s (.complete now p job ok sent) (s.introEnded job ok).handleVerifyIntro
  | verifiedIntroack (now : UInt64) (job : CryptoJob) (ok sent : Bool) : job ∈ s.jobs →
      job.OnIntroack → s.introack.buf = true → s.introack.verifies = true →
      Change env l p s (.complete now p job ok sent)
        ((s.introackEnded job ok).handleVerifyIntroack now)
  | generatedSessionStart (now : UInt64) (job : CryptoJob) (ok sent : Bool) : job ∈ s.jobs →
      job.OnSessionStart → s.start.buf = true → s.start.verifies = false →
      Change env l p s (.complete now p job ok sent)
        ((s.startEnded job ok).handleGeneratedSessionStart now)
  | verifiedSessionStart (now : UInt64) (job : CryptoJob) (ok sent : Bool) : job ∈ s.jobs →
      job.OnSessionStart → s.start.buf = true → s.start.verifies = true →
      Change env l p s (.complete now p job ok sent)
        ((s.startEnded job ok).handleVerifySessionStart env now)
  | frameLost (now : UInt64) : .decryptFrame ∈ s.jobs →
      Change env l p s (.decrypted now p none) s.frameEnded
  | frameRead (now : UInt64) (buf : Bytes) (sz : ℕ) (c : Session σ) : .decryptFrame ∈ s.jobs →
      s.core.call env (.frame now buf sz) = .ok c →
      Change env l p s (.decrypted now p (some (buf, sz))) (s.frameEnded.setCore c)
  | timeout (now : UInt64) (t : Timer) : t ∈ l.timers → t.user = p →
      Change env l p s (.timer now t) s.answered
  | tick (now : UInt64) (c : Session σ) : l.sessions s.addr = some p →
      s.core.tick now s.working = .ok (c, false) → Change env l p s (.tick now p) (s.setCore c)
  | send (m : LinkMessage) : Change env l p s (.send p m) (s.setCore (s.core.sendto env m))
  | close : Change env l p s (.close p) (s.setCore s.core.close)
  | keepalive : Change env l p s (.keepalive p) (s.setCore s.core.sendKeepalive)
  | peer (x : σ) : Change env l p s (.peer p x) (s.setCore { s.core with peer := x })

/-- The event deletes the session `s` at `p` and leaves the map as it is. -/
inductive Drops (l : Server σ ι) (p : ℕ) (s : LinkSession σ ι) : LinkEvent σ ι → Prop
  | big (now : UInt64) (src : ι) (sz : ℕ) : l.sessions src = some p → s.core.state = .eInitial →
      256 ≤ sz → Drops l p s (.recvfrom now src sz)
  | introack (now : UInt64) (job : CryptoJob) (ok sent : Bool) : job ∈ s.jobs → job.OnIntroack →
      s.introack.verifies = false →
      (s.introack.after job ok).buf = false ∨ (l.sessions s.addr).isSome = true →
      Drops l p s (.complete now p job ok sent)

/-- The event deletes the session `s` at `p`, which is in the map, and takes it out. -/
inductive Removes (l : Server σ ι) (p : ℕ) (s : LinkSession σ ι) : LinkEvent σ ι → Prop
  | big (now : UInt64) (src : ι) (sz : ℕ) : l.sessions src = some p → s.core.state = .eIntroSent →
      256 ≤ sz → Removes l p s (.recvfrom now src sz)
  | tick (now : UInt64) : s.core.timedout now = true ∨ s.core.isInvalidated = true →
      s.working = false → Removes l p s (.tick now p)
  | clear : Removes l p s (.clear p)

/-! ### Sessions outside of the map -/

/-- A session that the map does not have is a new inbound one: its intro is verified, or its intro
ack is generated, or its intro did not verify and nobody works for it any more. -/
inductive Newcomer (s : LinkSession σ ι) : Prop
  | verifying : s.core.state = .eIntroRecv → s.jobs = [.verifyIntro] → s.intro = ⟨true, true⟩ →
      Newcomer s
  | acking : s.core.state = .eIntroRecv → s.jobs = [.genIntroack] → s.introack = ⟨true, false⟩ →
      Newcomer s
  | forgotten : s.core.state = .eIntroRecv → s.jobs = [] → Newcomer s

/-- The invariant of all runs. -/
structure Formed (l : Server σ ι) : Prop where
  fresh : ∀ p, l.made ≤ p → l.heap p = none
  addressed : l.Addressed
  made : ∀ a p, l.sessions a = some p → p < l.made
  inbound : ∀ p s, l.heap p = some s → l.sessions s.addr = some p ∨ Newcomer s

lemma formed_init : Formed ({} : Server σ ι) where
  fresh _ _ := rfl
  addressed _ _ _ h := by cases h
  made _ _ h := by cases h
  inbound _ _ h := by cases h

section Newcomer

variable {env : LinkEnv σ} {l l' : Server σ ι} {p : ℕ} {s s' : LinkSession σ ι} {e : LinkEvent σ ι}

lemma Formed.lt_made (h : Formed l) (hs : l.heap p = some s) : p < l.made := by
  by_contra hge
  rw [h.fresh p (not_lt.mp hge)] at hs
  cases hs

lemma Newcomer.state (h : Newcomer s) : s.core.state = .eIntroRecv := by
  cases h with
  | verifying hst => exact hst
  | acking hst => exact hst
  | forgotten hst => exact hst

/-- The one job of a new session. -/
lemma Newcomer.job {job : CryptoJob} (h : Newcomer s) (hjob : job ∈ s.jobs) :
    s.jobs = [job] ∧ (job = .verifyIntro ∧ s.intro = ⟨true, true⟩ ∨
      job = .genIntroack ∧ s.introack = ⟨true, false⟩) := by
  cases h with
  | verifying _ hj hi =>
      rw [hj, List.mem_singleton] at hjob
      exact ⟨hjob ▸ hj, .inl ⟨hjob, hi⟩⟩
  | acking _ hj hi =>
      rw [hj, List.mem_singleton] at hjob
      exact ⟨hjob ▸ hj, .inr ⟨hjob, hi⟩⟩
  | forgotten _ hj =>
      rw [hj] at hjob
      cases hjob

lemma Newcomer.congr (h : Newcomer s) (hstate : s'.core.state = s.core.state)
    (hjobs : s'.jobs = s.jobs) (hintro : s'.intro = s.intro)
    (hintroack : s'.introack = s.introack) : Newcomer s' := by
  cases h with
  | verifying hst hj hi => exact .verifying (hstate.trans hst) (hjobs.trans hj) (hintro.trans hi)
  | acking hst hj hi => exact .acking (hstate.trans hst) (hjobs.trans hj) (hintroack.trans hi)
  | forgotten hst hj => exact .forgotten (hstate.trans hst) (hjobs.trans hj)

/-- No event gives a session another address. -/
lemma Change.addr (h : Change env l p s e s') : s'.addr = s.addr := by
  cases h with
  | generatedIntro now job ok sent =>
      rw [LinkSession.handleGeneratedIntro]
      split_ifs <;> rfl
  | verifiedIntro now job ok sent =>
      rw [LinkSession.handleVerifyIntro]
      split_ifs <;> rfl
  | verifiedIntroack now job ok sent =>
      rw [LinkSession.handleVerifyIntroack]
      split_ifs <;> rfl
  | verifiedSessionStart now job ok sent =>
      rw [LinkSession.handleVerifySessionStart]
      split_ifs <;> rfl
  | _ => rfl

/-- A new session stays one while it stays outside of the map, and it keeps a job unless its intro
does not verify. -/
lemma Change.newcomer (h : Change env l p s e s') (hout : ∀ a, l.sessions a ≠ some p)
    (hnew : Newcomer s) : Newcomer s' ∧ (s.jobs ≠ [] →
      (∀ now ok sent, e = .complete now p .verifyIntro ok sent → ok = true) → s'.jobs ≠ []) := by
  -- what most steps leave alone; the packets and `Tick` go through the map
  have hsame (hstate : s'.core.state = s.core.state) (hjobs : s'.jobs = s.jobs)
      (hintro : s'.intro = s.intro) (hintroack : s'.introack = s.introack) :
      Newcomer s' ∧ (s.jobs ≠ [] →
        (∀ now ok sent, e = .complete now p .verifyIntro ok sent → ok = true) → s'.jobs ≠ []) :=
    ⟨hnew.congr hstate hjobs hintro hintroack, fun hne _ => hjobs ▸ hne⟩
  cases h with
  | establish now dst k id ha => exact absurd ha (hout dst)
  | intro now src sz ha => exact absurd ha (hout src)
  | introAck now src sz ha => exact absurd ha (hout src)
  | sessionStart now src sz ha => exact absurd ha (hout src)
  | frame now src sz ha => exact absurd ha (hout src)
  | generatedIntro now job ok sent hjob hon _ hhook =>
      rcases hnew.job hjob with ⟨-, ⟨rfl, hi⟩ | ⟨rfl, -⟩⟩
      · rw [hi] at hhook
        cases hhook
      · exact absurd hon (by decide)
  | verifiedIntro now job ok sent hjob hon =>
      rcases hnew.job hjob with ⟨hj, ⟨rfl, hi⟩ | ⟨rfl, -⟩⟩
      -- the intro was the only job: it is answered, or the session is forgotten
      · have hrest : s.jobs.erase .verifyIntro = [] := by rw [hj, List.erase_cons_head]
        have hafter : (s.introEnded .verifyIntro ok).intro.buf = ok := by
          rw [LinkSession.introEnded, hi]
          exact Bool.false_or ok
        rw [LinkSession.handleVerifyIntro, hafter]
        split_ifs with hok
        · have hacks : s.jobs.erase .verifyIntro ++ [CryptoJob.genIntroack] = [.genIntroack] := by
            rw [hrest, List.nil_append]
          refine ⟨.acking hnew.state hacks rfl, fun _ _ hnil => ?_⟩
          exact List.cons_ne_nil _ _ (hacks.symm.trans hnil)
        · exact ⟨.forgotten hnew.state hrest, fun _ hgood => absurd (hgood now ok sent rfl) hok⟩
      · exact absurd hon (by decide)
  | verifiedIntroack now job ok sent hjob hon _ hhook =>
      rcases hnew.job hjob with ⟨-, ⟨rfl, -⟩ | ⟨rfl, hi⟩⟩
      · exact absurd hon (by decide)
      · rw [hi] at hhook
        cases hhook
  | generatedSessionStart now job ok sent hjob hon =>
      rcases hnew.job hjob with ⟨-, ⟨rfl, -⟩ | ⟨rfl, -⟩⟩
      · exact absurd hon (by decide)
      · exact absurd hon (by decide)
  | verifiedSessionStart now job ok sent hjob hon =>
      rcases hnew.job hjob with ⟨-, ⟨rfl, -⟩ | ⟨rfl, -⟩⟩
      · exact absurd hon (by decide)
      · exact absurd hon (by decide)
  | frameLost now hjob => rcases hnew.job hjob with ⟨-, ⟨hkind, -⟩ | ⟨hkind, -⟩⟩ <;> cases hkind
  | frameRead now buf sz c hjob =>
      rcases hnew.job hjob with ⟨-, ⟨hkind, -⟩ | ⟨hkind, -⟩⟩ <;> cases hkind
  | timeout now t => exact hsame rfl rfl rfl rfl
  | tick now c ha => exact absurd ha (hout s.addr)
  | send m => exact hsame rfl rfl rfl rfl
  | close => exact hsame rfl rfl rfl rfl
  | keepalive =>
      refine hsame ?_ rfl rfl rfl
      change s.core.sendKeepalive.state = s.core.state
      rw [Session.sendKeepalive]
      split_ifs <;> rfl
  | peer x => exact hsame rfl rfl rfl rfl

lemma introackSent_addr (now : UInt64) (sent : Bool) (job : CryptoJob) (ok : Bool) :
    ((s.introackEnded job ok).introackSent now sent).addr = s.addr := by
  rw [LinkSession.introackSent]
  split_ifs <;> rfl

/-- A session outside of the map. -/
lemma Formed.out (h : Formed l) (hs : l.heap p = some s) (hmap : l.sessions s.addr ≠ some p)
    (a : ι) : l.sessions a ≠ some p := by
  intro ha
  rw [← h.addressed a p s ha hs] at ha
  exact hmap ha

/-- A session is written or deleted, which keeps its address, and the map keeps what it says of
the others. -/
lemma Formed.move (h : Formed l) {x : Option (LinkSession σ ι)}
    (hheap : l'.heap = Function.update l.heap p x) (hmade : l.made ≤ l'.made) (hlt : p < l'.made)
    (hsessions : ∀ a q, q ≠ p → (l'.sessions a = some q ↔ l.sessions a = some q))
    (haddr : ∀ a r, x = some r → l'.sessions a = some p → r.addr = a)
    (hin : ∀ r, x = some r → l'.sessions r.addr = some p ∨ Newcomer r) : Formed l' where
  fresh q hq := by
    rw [hheap, Function.update_of_ne (by omega)]
    exact h.fresh q (hmade.trans hq)
  addressed a q r ha hr := by
    rw [hheap] at hr
    rcases heap_update_cases hr with ⟨rfl, heq⟩ | ⟨hne, hr⟩
    · exact haddr a r heq ha
    · exact h.addressed a q r ((hsessions a q hne).mp ha) hr
  made a q ha := by
    rcases eq_or_ne q p with rfl | hne
    · exact hlt
    · exact (h.made a q ((hsessions a q hne).mp ha)).trans_le hmade
  inbound q r hr := by
    rw [hheap] at hr
    rcases heap_update_cases hr with ⟨rfl, heq⟩ | ⟨hne, hr⟩
    · exact hin r heq
    · exact (h.inbound q r hr).imp_left fun ha => (hsessions _ q hne).mpr ha

end Newcomer

variable [DecidableEq ι]

/-- What an event does to the heap and the map. -/
inductive Moved (env : LinkEnv σ) (p₀ : σ) (l : Server σ ι) (e : LinkEvent σ ι) (l' : Server σ ι) :
    Prop
  | quiet : (e = .otherTimer ∨ ∃ now src sz, e = .recvfrom now src sz) → l'.heap = l.heap →
      l'.sessions = l.sessions → l'.made = l.made → Moved env p₀ l e l'
  | change (p : ℕ) (s s' : LinkSession σ ι) : l.heap p = some s → Change env l p s e s' →
      l'.heap = Function.update l.heap p (some s') → l'.sessions = l.sessions →
      l'.made = l.made → Moved env p₀ l e l'
  | arrived (now : UInt64) (src : ι) (sz : ℕ) : e = .recvfrom now src sz → l.sessions src = none →
      sz < 256 →
      l'.heap = Function.update l.heap l.made (some ((LinkSession.new p₀ src).onIntro now)) →
      l'.sessions = l.sessions → l'.made = l.made + 1 → Moved env p₀ l e l'
  | refused (now : UInt64) (src : ι) (sz : ℕ) : e = .recvfrom now src sz → l.sessions src = none →
      256 ≤ sz → l'.heap = Function.update l.heap l.made none → l'.sessions = l.sessions →
      l'.made = l.made + 1 → Moved env p₀ l e l'
  | attempted (now : UInt64) (dst : ι) (k id : ℕ) : e = .tryEstablish now dst →
      l.sessions dst = none →
      l'.heap = Function.update l.heap l.made (some ((LinkSession.new p₀ dst).establish now k id)) →
      l'.sessions = Function.update l.sessions dst (some l.made) → l'.made = l.made + 1 →
      Moved env p₀ l e l'
  | dropped (p : ℕ) (s : LinkSession σ ι) : l.heap p = some s → Drops l p s e →
      l'.heap = Function.update l.heap p none → l'.sessions = l.sessions → l'.made = l.made →
      Moved env p₀ l e l'
  | removed (p : ℕ) (s : LinkSession σ ι) : l.heap p = some s → l.sessions s.addr = some p →
      Removes l p s e → l'.heap = Function.update l.heap p none →
      l'.sessions = Function.update l.sessions s.addr none → l'.made = l.made → Moved env p₀ l e l'
  | tracked (now : UInt64) (p : ℕ) (s : LinkSession σ ι) (job : CryptoJob) (ok sent : Bool) :
      e = .complete now p job ok sent → l.heap p = some s → job ∈ s.jobs → job.OnIntroack →
      s.introack.verifies = false → (s.introack.after job ok).buf = true →
      l.sessions s.addr = none →
      l'.heap = Function.update l.heap p (some ((s.introackEnded job ok).introackSent now sent)) →
      l'.sessions = Function.update l.sessions s.addr (some p) → l'.made = l.made →
      Moved env p₀ l e l'

section Inversion

variable {env : LinkEnv σ} {p₀ : σ} {l l' : Server σ ι} {p : ℕ} {s : LinkSession σ ι}
  {e : LinkEvent σ ι}

/-- `emplace` at an address that the map does not have. -/
lemma emplace_of_none {a : ι} (h : l.sessions a = none) (q : ℕ) :
    Function.update l.sessions a (some ((l.sessions a).getD q)) =
      Function.update l.sessions a (some q) := by
  rw [h, Option.getD_none]

/-- An object is written, and the map stays. -/
lemma moved_put {s' : LinkSession σ ι} (hs : l.heap p = some s) (h : Change env l p s e s') :
    Moved env p₀ l e (l.put p s') := .change p s s' hs h rfl rfl rfl

lemma moved_onCore {f : Session σ → Session σ}
    (h : ∀ s, Change env l p s e (s.setCore (f s.core))) (hl : l.onCore p f = some l') :
    Moved env p₀ l e l' := by
  obtain ⟨s, hs, rfl⟩ := Option.map_eq_some_iff.mp hl
  exact moved_put hs (h s)

lemma moved_removeSessionByAddr (hs : l.heap p = some s) (hmap : l.sessions s.addr = some p)
    (h : Removes l p s e) (hl : l.removeSessionByAddr s.addr = some l') : Moved env p₀ l e l' := by
  rw [removeSessionByAddr, hmap] at hl
  simp only [hs, Option.map_some, Option.some.injEq] at hl
  rw [← hl]
  refine .removed p s hs hmap h ?_ rfl ?_
  · rw [done]
    split_ifs <;> rfl
  · rw [done]
    split_ifs <;> rfl

lemma moved_tryEstablish {now : UInt64} {dst : ι} (hl : l.tryEstablish p₀ now dst = some l') :
    Moved env p₀ l (.tryEstablish now dst) l' := by
  rw [tryEstablish] at hl
  split at hl
  · rename_i p hmap
    obtain ⟨s, hs, rfl⟩ := Option.map_eq_some_iff.mp hl
    exact .change p s _ hs (.establish now dst _ _ hmap) rfl rfl rfl
  · rename_i hmap
    obtain rfl := Option.some.inj hl
    refine .attempted now dst l.attempts ((l.ids + 1) % 2 ^ 32) rfl hmap ?_ ?_ rfl
    · exact Function.update_idem ..
    · exact emplace_of_none hmap l.made

/-- What `recv` does on a session that is in the map. -/
lemma moved_recv {now : UInt64} {src : ι} {sz : ℕ} (hs : l.heap p = some s)
    (hmap : l.sessions src = some p) (haddr : s.addr = src) (hl : l.recv now p s sz = some l') :
    Moved env p₀ l (.recvfrom now src sz) l' := by
  have hquiet : some l = some l' → Moved env p₀ l (.recvfrom now src sz) l' := by
    intro hl
    obtain rfl := Option.some.inj hl
    exact .quiet (.inr ⟨now, src, sz, rfl⟩) rfl rfl rfl
  have hframe (hstate : s.core.state = .eSessionStartSent ∨ s.core.state = .eLIMSent ∨
      s.core.state = .eEstablished) (hl : (if sz ≤ 64 then some l else if sz > 1500 then none
        else some (l.put p (s.queue .decryptFrame))) = some l') :
      Moved env p₀ l (.recvfrom now src sz) l' := by
    split_ifs at hl with hshort hlong
    · exact hquiet hl
    · obtain rfl := Option.some.inj hl
      exact moved_put hs (.frame now src sz hmap hstate (by omega) (by omega))
  rw [recv] at hl
  split at hl
  · rename_i hstate
    split_ifs at hl with hsz
    · obtain rfl := Option.some.inj hl
      exact .dropped p s hs (.big now src sz hmap hstate hsz) rfl rfl rfl
    · obtain rfl := Option.some.inj hl
      exact moved_put hs (.intro now src sz hmap hstate (by omega))
  · rename_i hstate
    split_ifs at hl with hsz
    · exact moved_removeSessionByAddr hs (haddr ▸ hmap) (.big now src sz hmap hstate hsz) hl
    · obtain rfl := Option.some.inj hl
      exact moved_put hs (.introAck now src sz hmap hstate (by omega))
  · rename_i hstate
    split_ifs at hl
    · exact hquiet hl
    · obtain rfl := Option.some.inj hl
      exact moved_put hs (.sessionStart now src sz hmap hstate)
  · exact hframe (.inl ‹_›) hl
  · exact hframe (.inr (.inl ‹_›)) hl
  · exact hframe (.inr (.inr ‹_›)) hl
  · exact hquiet hl
  · exact hquiet hl
  · exact hquiet hl

lemma moved_recvfrom (haddr : l.Addressed) {now : UInt64} {src : ι} {sz : ℕ}
    (hl : l.recvfrom p₀ now src sz = some l') : Moved env p₀ l (.recvfrom now src sz) l' := by
  rw [recvfrom] at hl
  split at hl
  · rename_i p hmap
    obtain ⟨s, hs, hl⟩ := Option.bind_eq_some_iff.mp hl
    exact moved_recv hs hmap (haddr src p s hmap hs) hl
  · rename_i hmap
    change (if sz ≥ 256 then some _ else some _) = some l' at hl
    split_ifs at hl with hsz
    · obtain rfl := Option.some.inj hl
      exact .refused now src sz rfl hmap hsz (Function.update_idem ..) rfl rfl
    · obtain rfl := Option.some.inj hl
      exact .arrived now src sz rfl hmap (by omega) (Function.update_idem ..) rfl rfl

lemma moved_completeIntro {now : UInt64} {job : CryptoJob} {ok sent : Bool}
    (hs : l.heap p = some s) (hjob : job ∈ s.jobs) (hon : job.OnIntro)
    (hl : l.completeIntro now p job ok sent s = some l') :
    Moved env p₀ l (.complete now p job ok sent) l' := by
  rw [completeIntro] at hl
  split_ifs at hl with hbuf hverifies
  · obtain rfl := Option.some.inj hl
    exact moved_put hs (.verifiedIntro now job ok sent hjob hon (Bool.eq_true_of_not_eq_false hbuf)
      hverifies)
  · obtain rfl := Option.some.inj hl
    exact moved_put hs (.generatedIntro now job ok sent hjob hon (Bool.eq_true_of_not_eq_false hbuf)
      (Bool.eq_false_of_not_eq_true hverifies))

lemma moved_completeSessionStart {now : UInt64} {job : CryptoJob} {ok sent : Bool}
    (hs : l.heap p = some s) (hjob : job ∈ s.jobs) (hon : job.OnSessionStart)
    (hl : l.completeSessionStart env now p job ok s = some l') :
    Moved env p₀ l (.complete now p job ok sent) l' := by
  rw [completeSessionStart] at hl
  split_ifs at hl with hbuf hverifies
  · obtain rfl := Option.some.inj hl
    exact moved_put hs (.verifiedSessionStart now job ok sent hjob hon
      (Bool.eq_true_of_not_eq_false hbuf) hverifies)
  · obtain rfl := Option.some.inj hl
    exact moved_put hs (.generatedSessionStart now job ok sent hjob hon
      (Bool.eq_true_of_not_eq_false hbuf) (Bool.eq_false_of_not_eq_true hverifies))

lemma moved_completeIntroack {now : UInt64} {job : CryptoJob} {ok sent : Bool}
    (hs : l.heap p = some s) (hjob : job ∈ s.jobs) (hon : job.OnIntroack)
    (hl : l.completeIntroack now p job ok sent s = some l') :
    Moved env p₀ l (.complete now p job ok sent) l' := by
  rw [completeIntroack] at hl
  split_ifs at hl with hbuf hverifies
  · obtain rfl := Option.some.inj hl
    exact moved_put hs (.verifiedIntroack now job ok sent hjob hon
      (Bool.eq_true_of_not_eq_false hbuf) hverifies)
  · have hhook := Bool.eq_false_of_not_eq_true hverifies
    obtain rfl := Option.some.inj hl
    rw [handleIntroackGenerated]
    simp only
    split_ifs with hafter hdup hsent
    · exact .dropped p s hs (.introack now job ok sent hjob hon hhook (.inr hdup)) rfl rfl rfl
    · have hmap : l.sessions s.addr = none := Option.not_isSome_iff_eq_none.mp hdup
      refine .tracked now p s job ok sent rfl hs hjob hon hhook hafter hmap ?_ ?_ rfl
      · rw [LinkSession.introackSent, if_pos hsent]
        rfl
      · exact emplace_of_none hmap p
    · have hmap : l.sessions s.addr = none := Option.not_isSome_iff_eq_none.mp hdup
      refine .tracked now p s job ok sent rfl hs hjob hon hhook hafter hmap ?_ ?_ rfl
      · rw [LinkSession.introackSent, if_neg hsent]
        rfl
      · exact emplace_of_none hmap p
    · exact .dropped p s hs (.introack now job ok sent hjob hon hhook
        (.inl (Bool.eq_false_of_not_eq_true hafter))) rfl rfl rfl

lemma moved_decrypted {now : UInt64} {frame : Option (Bytes × ℕ)} (hs : l.heap p = some s)
    (hjob : .decryptFrame ∈ s.jobs) (hl : l.decrypted env now p frame s = some l') :
    Moved env p₀ l (.decrypted now p frame) l' := by
  cases frame with
  | none =>
      obtain rfl := Option.some.inj hl
      exact moved_put hs (.frameLost now hjob)
  | some frame =>
    obtain ⟨buf, sz⟩ := frame
    obtain ⟨c, hc, rfl⟩ := Option.map_eq_some_iff.mp hl
    have hcall := Session.eq_ok_of_toOption hc
    have hchange : Change env l p s (.decrypted now p (some (buf, sz))) (s.frameEnded.setCore c) :=
      .frameRead now buf sz c hjob hcall
    rw [processed]
    split_ifs
    · exact .change p s _ hs hchange rfl rfl rfl
    · exact moved_put hs hchange

lemma moved_timer {now : UInt64} {t : Timer} (hs : l.heap t.user = some s) (ht : t ∈ l.timers) :
    Moved env p₀ l (.timer now t) ((l.removeCall t.id).handleEstablishTimeout t.user s) := by
  rw [handleEstablishTimeout]
  split
  · rename_i hnone
    have hs' : s.answered = { s with establishJobId := 0 } := by
      rw [LinkSession.answered, ← hnone]
    refine .change t.user s s.answered hs (.timeout now t ht rfl) ?_ rfl rfl
    rw [hs']
    rfl
  · exact .change t.user s _ hs (.timeout now t ht rfl) rfl rfl rfl

lemma moved_tick {now : UInt64} (hs : l.heap p = some s) (hmap : l.sessions s.addr = some p)
    (hl : l.tick now p s = some l') : Moved env p₀ l (.tick now p) l' := by
  rw [tick] at hl
  obtain ⟨⟨c, remove⟩, hr, hl⟩ := Option.bind_eq_some_iff.mp hl
  have htick := Session.eq_ok_of_toOption hr
  cases remove with
  | true =>
      obtain ⟨hcause, hworking⟩ := over_of_tick hr rfl
      have hc : c = s.core := by
        rw [Session.tick] at htick
        rcases hcause with htime | hinv
        · rw [if_pos htime] at htick
          exact (congrArg Prod.fst (Except.ok.inj htick)).symm
        · split_ifs at htick
          · exact (congrArg Prod.fst (Except.ok.inj htick)).symm
          · exact (congrArg Prod.fst (Except.ok.inj htick)).symm
      rw [if_pos rfl, hc] at hl
      have hself : l.put p { s with core := s.core } = l := by
        rw [put, Function.update_eq_self_iff.mpr hs.symm]
      rw [hself] at hl
      exact moved_removeSessionByAddr hs hmap (.tick now hcause hworking) hl
  | false =>
      rw [if_neg Bool.false_ne_true] at hl
      obtain rfl := Option.some.inj hl
      exact moved_put hs (.tick now c hmap htick)

/-- Every step is a move. -/
lemma step_moved (haddr : l.Addressed) (hl : l.step env p₀ e = some l') : Moved env p₀ l e l' := by
  cases e with
  | tryEstablish now dst => exact moved_tryEstablish hl
  | recvfrom now src sz => exact moved_recvfrom haddr hl
  | complete now p job ok sent =>
      obtain ⟨s, hs, hl⟩ := Option.bind_eq_some_iff.mp hl
      split_ifs at hl with hjob
      cases job with
      | genIntro => exact moved_completeIntro hs hjob (.inl rfl) hl
      | verifyIntro => exact moved_completeIntro hs hjob (.inr rfl) hl
      | genIntroack => exact moved_completeIntroack hs hjob (.inl rfl) hl
      | verifyIntroack => exact moved_completeIntroack hs hjob (.inr rfl) hl
      | genSessionStart => exact moved_completeSessionStart hs hjob (.inl rfl) hl
      | verifySessionStart => exact moved_completeSessionStart hs hjob (.inr rfl) hl
      | decryptFrame => cases hl
  | decrypted now p frame =>
      obtain ⟨s, hs, hl⟩ := Option.bind_eq_some_iff.mp hl
      split_ifs at hl with hjob
      exact moved_decrypted hs hjob hl
  | timer now t =>
      obtain ⟨s, hs, hl⟩ := Option.bind_eq_some_iff.mp hl
      split_ifs at hl with ht
      obtain rfl := Option.some.inj hl
      exact moved_timer hs ht.1
  | otherTimer =>
      obtain rfl := Option.some.inj hl
      exact .quiet (.inl rfl) rfl rfl rfl
  | tick now p =>
      obtain ⟨s, hs, hl⟩ := Option.bind_eq_some_iff.mp hl
      split_ifs at hl with hmap
      exact moved_tick hs hmap hl
  | send p m => exact moved_onCore (f := fun c => c.sendto env m) (fun _ => .send m) hl
  | close p => exact moved_onCore (fun _ => .close) hl
  | keepalive p => exact moved_onCore (fun _ => .keepalive) hl
  | peer p x =>
      exact moved_onCore (f := fun (c : Session σ) => { c with peer := x }) (fun _ => .peer x) hl
  | clear p =>
      obtain ⟨s, hs, hl⟩ := Option.bind_eq_some_iff.mp hl
      split_ifs at hl with hmap
      obtain rfl := Option.some.inj hl
      exact .removed p s hs hmap .clear rfl rfl rfl

end Inversion

/-! ### What holds of every link -/

section Formed

variable {env : LinkEnv σ} {p₀ : σ} {l l' : Server σ ι} {p : ℕ} {s : LinkSession σ ι}
  {e : LinkEvent σ ι}

/-- The map takes a session at an address where it has none. -/
lemma sessions_update_iff {a b : ι} {q : ℕ} {x : Option ℕ} (hne : x ≠ some q)
    (hold : l.sessions b ≠ some q) :
    Function.update l.sessions b x a = some q ↔ l.sessions a = some q := by
  rcases eq_or_ne a b with rfl | hab
  · rw [Function.update_self]
    exact ⟨fun heq => absurd heq hne, fun heq => absurd heq hold⟩
  · rw [Function.update_of_ne hab]

/-- Every step keeps the invariant. -/
lemma Formed.step (h : Formed l) (hl : l.step env p₀ e = some l') : Formed l' := by
  have hmade (a : ι) : l.sessions a ≠ some l.made := fun ha =>
    absurd (h.made a l.made ha) (lt_irrefl _)
  cases step_moved h.addressed hl with
  | quiet he hheap hsessions hmade =>
      exact ⟨by rw [hheap, hmade]; exact h.fresh,
        fun a p s => by rw [hheap, hsessions]; exact h.addressed a p s,
        by rw [hsessions, hmade]; exact h.made, by rw [hheap, hsessions]; exact h.inbound⟩
  | change p s s' hs hc hheap hsessions hmade' =>
      refine h.move hheap hmade'.ge (hmade' ▸ h.lt_made hs) (fun a q _ => by rw [hsessions]) ?_ ?_
      · rintro a r hr ha
        rw [← Option.some.inj hr, hc.addr]
        exact h.addressed a p s (hsessions ▸ ha) hs
      · rintro r hr
        rw [← Option.some.inj hr, hc.addr, hsessions]
        -- a session outside of the map is a newcomer and stays one
        by_cases hmap : l.sessions s.addr = some p
        · exact .inl hmap
        · exact .inr (hc.newcomer (h.out hs hmap) ((h.inbound p s hs).resolve_left hmap)).1
  | arrived now src sz he hnone hsz hheap hsessions hmade' =>
      refine h.move hheap (by omega) (by omega) (fun a q _ => by rw [hsessions]) ?_ ?_
      -- the new session is not in the map yet, and it verifies its first intro
      · rintro a r - ha
        exact absurd (hsessions ▸ ha) (hmade a)
      · rintro r hr
        rw [← Option.some.inj hr]
        exact .inr (.verifying rfl rfl rfl)
  | refused now src sz he hnone hsz hheap hsessions hmade' =>
      refine h.move hheap (by omega) (by omega) (fun a q _ => by rw [hsessions]) ?_ ?_
      · exact fun a r hr => (by cases hr)
      · exact fun r hr => (by cases hr)
  | attempted now dst k id he hnone hheap hsessions hmade' =>
      refine h.move hheap (by omega) (by omega) (fun a q hq => ?_) ?_ ?_
      · rw [hsessions]
        refine sessions_update_iff (fun heq => hq (Option.some.inj heq).symm) ?_
        rw [hnone]
        exact Option.some_ne_none q |>.symm
      · rintro a r hr ha
        rw [hsessions] at ha
        rw [← Option.some.inj hr]
        rcases eq_or_ne a dst with rfl | hne
        · rfl
        · rw [Function.update_of_ne hne] at ha
          exact absurd ha (hmade a)
      · rintro r hr
        rw [← Option.some.inj hr, hsessions]
        exact .inl (Function.update_self ..)
  | dropped p s hs hd hheap hsessions hmade' =>
      refine h.move hheap hmade'.ge (hmade' ▸ h.lt_made hs) (fun a q _ => by rw [hsessions]) ?_ ?_
      · exact fun a r hr => (by cases hr)
      · exact fun r hr => (by cases hr)
  | removed p s hs hmap hr hheap hsessions hmade' =>
      refine h.move hheap hmade'.ge (hmade' ▸ h.lt_made hs) (fun a q hq => ?_) ?_ ?_
      · rw [hsessions]
        refine sessions_update_iff (Option.some_ne_none q).symm ?_
        rw [hmap]
        exact fun heq => hq (Option.some.inj heq).symm
      · exact fun a r hr => (by cases hr)
      · exact fun r hr => (by cases hr)
  | tracked now p s job ok sent he hs hjob hon hhook hafter hnone hheap hsessions hmade' =>
      -- the session comes into the map at its own address, where there was none
      have hout := h.out hs (hnone ▸ (Option.some_ne_none p).symm)
      refine h.move hheap hmade'.ge (hmade' ▸ h.lt_made hs) (fun a q hq => ?_) ?_ ?_
      · rw [hsessions]
        refine sessions_update_iff (fun heq => hq (Option.some.inj heq).symm) ?_
        rw [hnone]
        exact (Option.some_ne_none q).symm
      · rintro a r hr ha
        rw [hsessions] at ha
        rw [← Option.some.inj hr, introackSent_addr]
        by_contra hne
        rw [Function.update_of_ne (Ne.symm hne)] at ha
        exact hout a ha
      · rintro r hr
        rw [← Option.some.inj hr, introackSent_addr, hsessions]
        exact .inl (Function.update_self ..)

lemma ReachableBy.formed {C : Server σ ι → LinkEvent σ ι → Prop} (h : ReachableBy env p₀ C l) :
    Formed l := by
  induction h with
  | refl => exact formed_init
  | tail _ hstep ih =>
      obtain ⟨e, -, hl⟩ := hstep
      exact ih.step hl

end Formed

end Server

end Udap.Iwp
