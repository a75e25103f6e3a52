import Udap.Iwp.Endpoint

/-!
The flag `working` of a session.

The six functions that queue a job of the handshake set it, and all hooks but
`handle_introack_generated` clear it. It knows of one job only, and nothing of the jobs that
encrypt and decrypt frames.

* `Telling`: the event does not leave the flag behind.
* `working_truthful`: in a run of such events the flag is set exactly while a job works for the
  session, and `TickSessions` removes every session that timed out and has no job.
* `introack_keeps_working`: the flag of an inbound session stays set after its intro ack.
-/

namespace Udap.Iwp

open ByteMem

namespace Server

variable {σ ι : Type} [DecidableEq ι]

/-- `TickSessions` over the sessions of the map in their order. -/
def tickSessions (env : LinkEnv σ) (p₀ : σ) (now : UInt64) (ps : List ℕ) (l : Server σ ι) :
    Option (Server σ ι) := ps.foldlM (fun l p => l.step env p₀ (.tick now p)) l

end Server

namespace Endpoint

open Server

variable {σ ι : Type}

/-- One of the given jobs works for the session at `p`, or one that encrypts its frames. -/
def Busy (l : Endpoint σ ι) (p : ℕ) (jobs : List CryptoJob) : Prop := jobs ≠ [] ∨ 0 < l.outbound p

/-- `working` is set exactly while a job works for the session. -/
def Truthful (l : Endpoint σ ι) : Prop :=
  ∀ p s, l.server.heap p = some s → (s.working = true ↔ l.Busy p s.jobs)

/-- The end of a job of the handshake for the session `s` at `p` leaves no job behind when its hook
clears the flag, and one when it does not. -/
def Clears (env : LinkEnv σ) (l : Endpoint σ ι) (p : ℕ) (s : LinkSession σ ι) (job : CryptoJob)
    (ok sent : Bool) : Prop :=
  (job.OnIntro → s.intro.verifies = true ∧ (s.intro.after job ok).buf = true ∨
    ¬ l.Busy p (s.jobs.erase job)) ∧
  (job.OnIntroack → s.introack.verifies = true →
    (s.introack.after job ok).buf = true ∨ ¬ l.Busy p (s.jobs.erase job)) ∧
  (job.OnIntroack → s.introack.verifies = false →
    (s.introack.after job ok).buf = false ∨ (l.server.sessions s.addr).isSome = true ∨
      sent = true ∨ l.Busy p (s.jobs.erase job)) ∧
  (job.OnSessionStart → s.start.verifies = true ∧ ¬ l.Busy p (s.jobs.erase job) ∧
    ((s.start.after job ok).buf = false ∨ env.encodeLIM s.core.peer = none))

/-- No job is queued without the flag, and none ends that leaves the flag behind. -/
def Telling (env : LinkEnv σ) (l : Endpoint σ ι) : WorkEvent σ ι → Prop
  | .link (.recvfrom _ src sz) => ∀ p s, l.server.sessions src = some p →
      l.server.heap p = some s → s.core.state = .eSessionStartSent ∨ s.core.state = .eLIMSent ∨
        s.core.state = .eEstablished → 64 < sz → l.Busy p s.jobs
  | .link (.complete _ p job ok sent) => ∀ s, l.server.heap p = some s →
      Clears env l p s job ok sent
  | .link (.decrypted _ p _) => ∀ s, l.server.heap p = some s →
      l.Busy p (s.jobs.erase .decryptFrame)
  | .link (.tick now p) => ∀ s, l.server.heap p = some s → s.core.timedout now = false →
      s.core.isInvalidated = false → s.core.state = .eEstablished ∨ s.core.state = .eLIMSent →
      l.Busy p s.jobs
  | .link (.send p _) => ∀ s, l.server.heap p = some s → l.Busy p s.jobs
  | .link (.keepalive p) => ∀ s, l.server.heap p = some s → s.core.isInvalidated = false →
      l.Busy p s.jobs
  | .encrypted p => ∀ s, l.server.heap p = some s → s.jobs ≠ [] ∨ 1 < l.outbound p
  | _ => True

/-- The invariant: the flag tells the truth, and no job works for a session that is not made. -/
structure Told (l : Endpoint σ ι) : Prop where
  formed : Formed l.server
  fresh : ∀ p, l.server.made ≤ p → l.outbound p = 0
  truthful : l.Truthful

section Frame

variable {env : LinkEnv σ} {l : Server σ ι} {l' : Server σ ι} {e : LinkEvent σ ι} {p q : ℕ}
  {s s' r : LinkSession σ ι}

lemma pumps_of_change (h : Change env l p s e s') (hne : q ≠ p) : pumps r q e = 0 := by
  cases h <;> simp [pumps, Ne.symm hne]

lemma pumps_complete_of_ne {now : UInt64} {job : CryptoJob} {ok sent : Bool} (hne : q ≠ p) :
    pumps r q (.complete now p job ok sent) = 0 := by simp [pumps, Ne.symm hne]

lemma pumps_of_drops (h : Drops l p s e) (hne : q ≠ p) : pumps r q e = 0 := by
  cases h <;> simp [pumps, Ne.symm hne]

lemma pumps_of_removes (h : Removes l p s e) (hne : q ≠ p) : pumps r q e = 0 := by
  cases h <;> simp [pumps, Ne.symm hne]

/-- Nothing is queued for a session that the event does not reach. -/
lemma encryptions_eq_zero (hheap : l'.heap q = l.heap q)
    (hpumps : ∀ r, l.heap q = some r → pumps r q e = 0) : l.encryptions l' e q = 0 := by
  rw [encryptions, queuedBy, queuedBy, hheap, Nat.sub_self, Nat.zero_add]
  cases hq : l.heap q with
  | none => rfl
  | some r => exact hpumps r hq

lemma encryptions_of_some (hs : l.heap p = some s) (hs' : l'.heap p = some s') :
    l.encryptions l' e p = (s'.core.queued.length - s.core.queued.length) + pumps s p e := by
  rw [encryptions, queuedBy, queuedBy, hs, hs']
  rfl

end Frame

section Step

variable {env : LinkEnv σ} {l : Endpoint σ ι} {p n : ℕ} {s s' : LinkSession σ ι}
  {e : LinkEvent σ ι}

/-- After the event the flag of the session at `p` tells the truth; `n` jobs were queued that
encrypt its frames. -/
def Tells (l : Endpoint σ ι) (p n : ℕ) (s' : LinkSession σ ι) : Prop :=
  s'.working = true ↔ s'.jobs ≠ [] ∨ 0 < l.outbound p + n

lemma Tells.set (hw : s'.working = true) (hbusy : s'.jobs ≠ [] ∨ 0 < l.outbound p + n) :
    l.Tells p n s' := ⟨fun _ => hbusy, fun _ => hw⟩

/-- Where the flag is set a job that was there, or came, keeps it right. -/
lemma Tells.busy (hw : s'.working = true) (hbusy : l.Busy p s'.jobs) : l.Tells p n s' :=
  .set hw (hbusy.imp_right fun h => Nat.add_pos_left h n)

lemma Tells.cleared (hw : s'.working = false) (hidle : ¬ l.Busy p s'.jobs) (hn : n = 0) :
    l.Tells p n s' := by
  rw [hn]
  refine ⟨fun h => ?_, fun h => absurd h hidle⟩
  rw [hw] at h
  cases h

/-- A session whose flag and jobs stay, where nothing is sent unless a job is at work. -/
lemma Tells.same (htruth : s.working = true ↔ l.Busy p s.jobs) (hw : s'.working = s.working)
    (hjobs : s'.jobs = s.jobs) (hn : n ≠ 0 → l.Busy p s.jobs) : l.Tells p n s' := by
  by_cases hbusy : l.Busy p s.jobs
  · exact .busy (hw.trans (htruth.mpr hbusy)) (hjobs ▸ hbusy)
  · refine .cleared ?_ (hjobs ▸ hbusy) (by_contra fun hne => hbusy (hn hne))
    rw [hw]
    exact Bool.eq_false_of_not_eq_true fun hset => hbusy (htruth.mp hset)

lemma quiet_sum (hqueued : s'.core.queued = s.core.queued) (hpumps : pumps s p e = 0) :
    (s'.core.queued.length - s.core.queued.length) + pumps s p e = 0 := by
  rw [hqueued, hpumps, Nat.sub_self]

/-- `Tick` gives a session nothing to send unless it works for its link. -/
lemma tick_quiet {c : Session σ} {now : UInt64} {working : Bool} {r : Session σ × Bool}
    (h : c.tick now working = .ok r) (hidle : ¬ (c.timedout now = false ∧ c.isInvalidated = false ∧
      (c.state = .eEstablished ∨ c.state = .eLIMSent))) : r.1 = c := by
  rw [Session.tick] at h
  split_ifs at h with htime hinvalid
  · rw [← Except.ok.inj h]
  · rw [← Except.ok.inj h]
  · have hstate : ¬ (c.state = .eEstablished ∨ c.state = .eLIMSent) := fun hstate =>
      hidle ⟨Bool.eq_false_of_not_eq_true htime, Bool.eq_false_of_not_eq_true hinvalid, hstate⟩
    obtain ⟨c', hlive, h⟩ := Session.bind_eq_ok h
    rw [Session.tickLive, if_neg hstate] at hlive
    simp only [if_neg fun hest => hstate (.inl hest)] at hlive
    rw [← Except.ok.inj h, ← Except.ok.inj hlive]

/-- What an event makes of a session keeps the flag right. -/
lemma tells_of_change (hc : Change env l.server p s e s') (hs : l.server.heap p = some s)
    (htell : Telling env l (.link e)) (htruth : s.working = true ↔ l.Busy p s.jobs) :
    l.Tells p ((s'.core.queued.length - s.core.queued.length) + pumps s p e) s' := by
  have hset {jobs : List CryptoJob} {job : CryptoJob} : l.Busy p (jobs ++ [job]) :=
    .inl (List.append_ne_nil_of_right_ne_nil jobs (List.cons_ne_nil job []))
  cases hc with
  | establish now dst k id => exact .busy rfl hset
  | intro now src sz => exact .busy rfl hset
  | introAck now src sz => exact .busy rfl hset
  | sessionStart now src sz => exact .busy rfl hset
  | frame now src sz hmap hstate hsz =>
      exact .busy (htruth.mpr (htell p s hmap hs hstate hsz)) hset
  | generatedIntro now job ok sent hjob hon hbuf hhook =>
      -- the flag is cleared, and the condition says that nothing is left to do
      have hidle : ¬ l.Busy p (s.jobs.erase job) := by
        refine ((htell s hs).1 hon).resolve_left fun hverifies => ?_
        rw [hhook] at hverifies
        cases hverifies.1
      have hpumps : pumps s p (.complete now p job ok sent) = 0 := by
        rcases hon with rfl | rfl <;> simp [pumps]
      rw [LinkSession.handleGeneratedIntro]
      split_ifs
      · exact .cleared rfl hidle (quiet_sum rfl hpumps)
      · exact .cleared rfl hidle (quiet_sum rfl hpumps)
  | verifiedIntro now job ok sent hjob hon =>
      have hpumps : pumps s p (.complete now p job ok sent) = 0 := by
        rcases hon with rfl | rfl <;> simp [pumps]
      rw [LinkSession.handleVerifyIntro]
      split_ifs with hbuf
      · exact .busy rfl hset
      · have hidle := ((htell s hs).1 hon).resolve_left fun hgood => hbuf hgood.2
        exact .cleared rfl hidle (quiet_sum rfl hpumps)
  | verifiedIntroack now job ok sent hjob hon _ hhook =>
      have hpumps : pumps s p (.complete now p job ok sent) = 0 := by
        rcases hon with rfl | rfl <;> simp [pumps, hhook]
      rw [LinkSession.handleVerifyIntroack]
      split_ifs with hbuf
      · exact .busy rfl hset
      · have hidle := ((htell s hs).2.1 hon hhook).resolve_left hbuf
        exact .cleared rfl hidle (quiet_sum rfl hpumps)
  | generatedSessionStart now job ok sent hjob hon _ hhook =>
      -- the new state queues an encryption behind the cleared flag: the condition has no such step
      have hverifies := ((htell s hs).2.2.2 hon).1
      rw [hhook] at hverifies
      cases hverifies
  | verifiedSessionStart now job ok sent hjob hon _ hhook =>
      obtain ⟨-, hidle, hlim⟩ := (htell s hs).2.2.2 hon
      have hpumps : pumps s p (.complete now p job ok sent) = 0 := by
        rcases hon with rfl | rfl <;> simp [pumps, hhook]
      rw [LinkSession.handleVerifySessionStart]
      split_ifs with hbuf
      -- a link introduction would be encrypted behind the cleared flag
      · have hnone : env.encodeLIM s.core.peer = none := by
          refine hlim.resolve_left fun hfalse => ?_
          rw [show (s.startEnded job ok).start.buf = false from hfalse] at hbuf
          cases hbuf
        have hsame : (s.startEnded job ok).core.sendLIM env now = s.core := by
          change s.core.sendLIM env now = s.core
          rw [Session.sendLIM, hnone]
        exact .cleared rfl hidle (quiet_sum (congrArg Session.queued hsame) hpumps)
      · exact .cleared rfl hidle (quiet_sum rfl hpumps)
  | frameLost now hjob =>
      exact .busy (htruth.mpr (.inl (List.ne_nil_of_mem hjob))) (htell s hs)
  | frameRead now buf sz c hjob =>
      exact .busy (htruth.mpr (.inl (List.ne_nil_of_mem hjob))) (htell s hs)
  | timeout now t => exact .same htruth rfl rfl fun hn => (hn (quiet_sum rfl rfl)).elim
  | tick now c hmap htick =>
      refine .same htruth rfl rfl fun hn => ?_
      -- the flag is wrong only if `Tick` queues something, and an idle session does not
      by_contra hbusy
      have hidle : ¬ (s.core.timedout now = false ∧ s.core.isInvalidated = false ∧
          (s.core.state = .eEstablished ∨ s.core.state = .eLIMSent)) := fun hwork =>
        hbusy (htell s hs hwork.1 hwork.2.1 hwork.2.2)
      have hsame : c = s.core := tick_quiet htick hidle
      refine hn (quiet_sum (congrArg Session.queued hsame) ?_)
      rw [pumps]
      split_ifs with hwork hstate hest
      · exact absurd ⟨hwork.2.1, hwork.2.2, hstate⟩ hidle
      · exact absurd ⟨hwork.2.1, hwork.2.2, hstate⟩ hidle
      · exact absurd (.inl ‹_›) hstate
      · rfl
      · rfl
  | send m => exact .same htruth rfl rfl fun _ => htell s hs
  | close => exact .same htruth rfl rfl fun hn => (hn (quiet_sum rfl rfl)).elim
  | keepalive =>
      refine .same htruth rfl rfl fun hn => ?_
      by_contra hbusy
      have hinvalid : s.core.isInvalidated = true :=
        Bool.eq_true_of_not_eq_false fun hlive => hbusy (htell s hs hlive)
      refine hn (quiet_sum ?_ ?_)
      · change s.core.sendKeepalive.queued = s.core.queued
        rw [Session.sendKeepalive, if_pos hinvalid]
      · rw [pumps, hinvalid]
        exact if_neg fun hlive => Bool.noConfusion hlive.2
  | peer x => exact .same htruth rfl rfl fun hn => (hn (quiet_sum rfl rfl)).elim

end Step

section Runs

variable {env : LinkEnv σ} {p₀ : σ} {pubkey : σ → PubKey} {l l' : Endpoint σ ι}
  {e : LinkEvent σ ι} {server : Server σ ι} {p : ℕ}

/-- After a step of the sessions every flag tells the truth, and nothing is queued for a session
that is not made. -/
structure TellsAll (l : Endpoint σ ι) (e : LinkEvent σ ι) (server : Server σ ι) : Prop where
  tells : ∀ p s', server.heap p = some s' → l.Tells p (l.server.encryptions server e p) s'
  made : l.server.made ≤ server.made
  fresh : ∀ p, server.made ≤ p → l.server.encryptions server e p = 0

/-- A step that reaches one session. -/
lemma Told.slot (h : Told l) {x : Option (LinkSession σ ι)}
    (hheap : server.heap = Function.update l.server.heap p x) (hmade : l.server.made ≤ server.made)
    (hlt : p < server.made) (hothers : ∀ q r, q ≠ p → pumps r q e = 0)
    (hp : ∀ s', x = some s' → l.Tells p (l.server.encryptions server e p) s') :
    TellsAll l e server := by
  have hzero (q : ℕ) (hne : q ≠ p) : l.server.encryptions server e q = 0 :=
    encryptions_eq_zero (by rw [hheap, Function.update_of_ne hne]) fun r _ => hothers q r hne
  refine ⟨fun q r hr => ?_, hmade, fun q hq => hzero q (by omega)⟩
  rw [hheap] at hr
  rcases heap_update_cases hr with ⟨rfl, heq⟩ | ⟨hne, hr⟩
  · exact hp r heq
  · rw [hzero q hne]
    exact h.truthful q r hr

variable [DecidableEq ι]

/-- A step of the sessions keeps the flags right. -/
lemma Told.moved (h : Told l) (htell : Telling env l (.link e))
    (hmoved : Moved env p₀ l.server e server) : TellsAll l e server := by
  have hmade : l.server.heap l.server.made = none := h.formed.fresh _ le_rfl
  cases hmoved with
  | quiet he hheap hsessions hmade' =>
      have hzero (q : ℕ) : l.server.encryptions server e q = 0 := by
        refine encryptions_eq_zero (by rw [hheap]) fun r _ => ?_
        rcases he with rfl | ⟨now, src, sz, rfl⟩ <;> rfl
      refine ⟨fun q r hr => ?_, hmade'.ge, fun q _ => hzero q⟩
      rw [hzero q]
      exact h.truthful q r (hheap ▸ hr)
  | change p s s' hs hc hheap hsessions hmade' =>
      refine h.slot hheap hmade'.ge (hmade' ▸ h.formed.lt_made hs)
        (fun q r hne => pumps_of_change hc hne) fun r hr => ?_
      obtain rfl := Option.some.inj hr
      rw [encryptions_of_some hs (by rw [hheap, Function.update_self])]
      exact tells_of_change hc hs htell (h.truthful p s hs)
  | arrived now src sz he hnone hsz hheap hsessions hmade' =>
      refine h.slot hheap (by omega) (by omega) (fun q r _ => he ▸ rfl) fun r hr => ?_
      obtain rfl := Option.some.inj hr
      exact .busy rfl (.inl (List.cons_ne_nil _ _))
  | refused now src sz he hnone hsz hheap hsessions hmade' =>
      exact h.slot hheap (by omega) (by omega) (fun q r _ => he ▸ rfl) fun r hr => (by cases hr)
  | attempted now dst k id he hnone hheap hsessions hmade' =>
      refine h.slot hheap (by omega) (by omega) (fun q r _ => he ▸ rfl) fun r hr => ?_
      obtain rfl := Option.some.inj hr
      exact .busy rfl (.inl (List.cons_ne_nil _ _))
  | dropped p s hs hd hheap hsessions hmade' =>
      exact h.slot hheap hmade'.ge (hmade' ▸ h.formed.lt_made hs)
        (fun q r hne => pumps_of_drops hd hne) fun r hr => (by cases hr)
  | removed p s hs hmap hr hheap hsessions hmade' =>
      exact h.slot hheap hmade'.ge (hmade' ▸ h.formed.lt_made hs)
        (fun q r hne => pumps_of_removes hr hne) fun r hr => (by cases hr)
  | tracked now p s job ok sent he hs hjob hon hhook hafter hnone hheap hsessions hmade' =>
      refine h.slot hheap hmade'.ge (hmade' ▸ h.formed.lt_made hs) (fun q r hne => ?_)
        fun r hr => ?_
      · rw [he]
        exact pumps_complete_of_ne hne
      -- the job that ended kept the session busy until now
      · have hset : s.working = true := (h.truthful p s hs).mpr (.inl (List.ne_nil_of_mem hjob))
        rw [encryptions_of_some hs (by rw [hheap, Function.update_self]), ← Option.some.inj hr]
        subst he
        have hkeeps := (htell s hs).2.2.1 hon hhook
        rw [hafter, hnone] at hkeeps
        have hsent : sent = true ∨ l.Busy p (s.jobs.erase job) :=
          (hkeeps.resolve_left (by decide)).resolve_left (by decide)
        -- either the intro ack is encrypted now, or the session was busy without it
        rw [LinkSession.introackSent]
        split_ifs with hif
        · refine .set hset (.inr ?_)
          have hpumps : pumps s p (.complete now p job ok sent) = 1 := by
            rcases hon with rfl | rfl <;> simp [pumps, hhook, hafter, hif]
          omega
        · exact .busy hset (hsent.resolve_left hif)

/-- A step keeps the flags right. -/
lemma Told.step (h : Told l) {e : WorkEvent σ ι} (htell : Telling env l e)
    (hl : l.step env p₀ pubkey e = some l') : Told l' := by
  cases e with
  | link e =>
      obtain ⟨hserver, hout⟩ := step_link hl
      obtain ⟨htells, hmade, hfresh⟩ := h.moved htell (step_moved h.formed.addressed hserver)
      refine ⟨h.formed.step hserver, fun p hp => ?_, fun p s' hs' => ?_⟩
      · rw [hout, h.fresh p (hmade.trans hp), hfresh p hp]
      · rw [Busy, hout]
        exact htells p s' hs'
  | encrypted p =>
      rw [Endpoint.step] at hl
      split_ifs at hl with hnone
      obtain rfl := Option.some.inj hl
      refine ⟨h.formed, fun q hq => ?_, fun q s hs => ?_⟩
      -- only the session of the job has one encryption less under way
      · change Function.update l.outbound p (l.outbound p - 1) q = 0
        rcases eq_or_ne q p with rfl | hne
        · exact absurd (h.fresh q hq) hnone
        · rw [Function.update_of_ne hne]
          exact h.fresh q hq
      · change s.working = true ↔ s.jobs ≠ [] ∨
          0 < Function.update l.outbound p (l.outbound p - 1) q
        rcases eq_or_ne q p with rfl | hne
        · rw [Function.update_self]
          have hset : s.working = true := (h.truthful q s hs).mpr (.inr (Nat.pos_of_ne_zero hnone))
          refine iff_of_true hset ((htell s hs).imp_right fun hmore => ?_)
          omega
        · rw [Function.update_of_ne hne]
          exact h.truthful q s hs
  | rehash m =>
      rw [Endpoint.step] at hl
      split_ifs at hl
      obtain rfl := Option.some.inj hl
      exact ⟨h.formed, h.fresh, h.truthful⟩

lemma ReachableBy.told (h : l.ReachableBy env p₀ pubkey (Telling env)) : Told l := by
  induction h with
  | refl => exact ⟨formed_init, fun _ _ => rfl, fun _ _ hs => (by cases hs)⟩
  | tail _ hstep ih =>
      obtain ⟨e, htell, hl⟩ := hstep
      exact ih.step htell hl

end Runs

/-! ### The end of a session -/

section Ticks

variable [DecidableEq ι] {env : LinkEnv σ} {p₀ : σ} {l l' : Server σ ι} {now : UInt64} {p q : ℕ}
  {s : LinkSession σ ι}

/-- The tick of a session leaves the others alone, and puts none into the map. -/
lemma tick_others (h : Formed l) (hl : l.step env p₀ (.tick now q) = some l') :
    (∀ p, p ≠ q → l'.heap p = l.heap p) ∧
      ∀ a p, (l'.sessions a = some p → l.sessions a = some p) ∧
        (p ≠ q → l.sessions a = some p → l'.sessions a = some p) := by
  have hstay (hheap : l'.heap = l.heap) (hsessions : l'.sessions = l.sessions) :
      (∀ p, p ≠ q → l'.heap p = l.heap p) ∧
        ∀ a p, (l'.sessions a = some p → l.sessions a = some p) ∧
          (p ≠ q → l.sessions a = some p → l'.sessions a = some p) :=
    ⟨fun p _ => by rw [hheap], fun a p => by rw [hsessions]; exact ⟨id, fun _ => id⟩⟩
  cases step_moved h.addressed hl with
  | quiet he hheap hsessions => exact hstay hheap hsessions
  | change r s s' hs hc hheap hsessions =>
      cases hc with
      | tick now c hmap htick =>
          refine ⟨fun p hne => ?_, fun a p => ?_⟩
          · rw [hheap, Function.update_of_ne hne]
          · rw [hsessions]
            exact ⟨id, fun _ => id⟩
  | arrived now src sz he => cases he
  | refused now src sz he => cases he
  | attempted now dst k id he => cases he
  | dropped r s hs hd => cases hd
  | removed r s hs hmap hr hheap hsessions =>
      cases hr with
      | tick =>
          refine ⟨fun p hne => ?_, fun a p => ?_⟩
          · rw [hheap, Function.update_of_ne hne]
          · rw [hsessions]
            rcases eq_or_ne a s.addr with rfl | hne
            · rw [Function.update_self, hmap]
              exact ⟨fun ha => (by cases ha), fun hpq ha => absurd (Option.some.inj ha).symm hpq⟩
            · rw [Function.update_of_ne hne]
              exact ⟨id, fun _ => id⟩
  | tracked now p s job ok sent he => cases he

lemma tick_timedout {working : Bool} {c : Session σ} (htime : c.timedout now = true) :
    c.tick now working = .ok (c, !working) := by
  rw [Session.tick, if_pos htime]

/-- The tick of a session that timed out takes it out of the map unless the flag is set. -/
lemma tick_removes (hs : l.heap p = some s) (htime : s.core.timedout now = true)
    (hidle : s.working = false) (hl : l.step env p₀ (.tick now p) = some l') :
    l'.sessions s.addr = none := by
  simp only [Server.step, hs, Option.bind_some] at hl
  split_ifs at hl with hmap
  have htick : s.core.tick now s.working = .ok (s.core, true) := by
    rw [tick_timedout htime, hidle]
    rfl
  rw [Server.tick, htick] at hl
  change Server.removeSessionByAddr s.addr (l.put p s) = some l' at hl
  rw [removeSessionByAddr, show (l.put p s).sessions s.addr = some p from hmap] at hl
  simp only [put_heap_self, Option.map_some, Option.some.injEq] at hl
  rw [← hl]
  exact Function.update_self ..

lemma tickSessions_none (h : Formed l) {ps : List ℕ} {a : ι} (hnone : l.sessions a = none)
    (hl : l.tickSessions env p₀ now ps = some l') : l'.sessions a = none := by
  induction ps generalizing l with
  | nil =>
      obtain rfl := Option.some.inj hl
      exact hnone
  | cons q ps ih =>
      obtain ⟨l₁, hl₁, hl⟩ := Option.bind_eq_some_iff.mp hl
      refine ih (h.step hl₁) ?_ hl
      by_contra hsome
      obtain ⟨p, hp⟩ := Option.ne_none_iff_exists'.mp hsome
      have hold := ((tick_others h hl₁).2 a p).1 hp
      rw [hnone] at hold
      cases hold

/-- `TickSessions` removes a session that timed out and whose flag is not set. -/
lemma tickSessions_removes (h : Formed l) {ps : List ℕ} (hp : p ∈ ps) (hs : l.heap p = some s)
    (hmap : l.sessions s.addr = some p) (htime : s.core.timedout now = true)
    (hidle : s.working = false) (hl : l.tickSessions env p₀ now ps = some l') :
    l'.sessions s.addr = none := by
  induction ps generalizing l with
  | nil => cases hp
  | cons q ps ih =>
      obtain ⟨l₁, hl₁, hrest⟩ := Option.bind_eq_some_iff.mp hl
      rcases eq_or_ne p q with rfl | hne
      · exact tickSessions_none (h.step hl₁) (tick_removes hs htime hidle hl₁) hrest
      · have hmem : p ∈ ps := (List.mem_cons.mp hp).resolve_left hne
        obtain ⟨hheap, hsessions⟩ := tick_others h hl₁
        exact ih (h.step hl₁) hmem ((hheap p hne).trans hs) ((hsessions _ p).2 hne hmap) hrest

end Ticks

variable [DecidableEq ι]

/-- A session of the map that timed out and has no job is removed by `TickSessions`, in whatever
order it goes through the map. -/
def Expires (env : LinkEnv σ) (p₀ : σ) (l : Endpoint σ ι) : Prop :=
  ∀ now p s, l.server.heap p = some s → l.server.sessions s.addr = some p →
    s.core.timedout now = true → ¬ l.Busy p s.jobs →
    s.core.tick now s.working = .ok (s.core, true) ∧
      ∀ ps server, p ∈ ps → l.server.tickSessions env p₀ now ps = some server →
        server.sessions s.addr = none

/-- In a run of events that do not leave the flag behind it is set exactly while a job works for
the session, and a session that timed out and has no job is removed. -/
theorem working_truthful (env : LinkEnv σ) (p₀ : σ) (pubkey : σ → PubKey) (l : Endpoint σ ι)
    (h : l.ReachableBy env p₀ pubkey (Telling env)) : l.Truthful ∧ l.Expires env p₀ := by
  have htold := ReachableBy.told h
  refine ⟨htold.truthful, fun now p s hs hmap htime hidle => ?_⟩
  have hclear : s.working = false :=
    Bool.eq_false_of_not_eq_true fun hset => hidle ((htold.truthful p s hs).mp hset)
  refine ⟨?_, fun ps server hp => tickSessions_removes htold.formed hp hs hmap htime hclear⟩
  rw [tick_timedout htime, hclear]
  rfl

/-- An outbound session after its intro was sent: it has no job, and it is removed in time. -/
theorem working_truthful_attempt : ∃ l : Endpoint Unit Unit, l.server.sessions () = some 0 ∧
    l.Truthful ∧ l.Expires (LinkEnv.discarding (List.Vector.replicate 32 0)) () := by
  let env := LinkEnv.discarding (List.Vector.replicate 32 0)
  let pubkey : Unit → PubKey := fun _ => zeroBlob 32
  obtain ⟨l₁, h₁, hout₁, s₁, hs₁, hjobs₁⟩ : ∃ l₁, ({} : Endpoint Unit Unit).step env () pubkey
      (.link (.tryEstablish 0 ())) = some l₁ ∧ l₁.outbound 0 = 0 ∧
      ∃ s, l₁.server.heap 0 = some s ∧ s.jobs.erase .genIntro = [] :=
    ⟨_, rfl, rfl, _, rfl, rfl⟩
  obtain ⟨l₂, h₂, hmap₂⟩ : ∃ l₂, l₁.step env () pubkey (.link (.complete 0 0 .genIntro true true)) =
      some l₂ ∧ l₂.server.sessions () = some 0 := by
    obtain rfl := Option.some.inj h₁
    exact ⟨_, rfl, rfl⟩
  have htell : Telling env l₁ (.link (.complete 0 0 .genIntro true true)) := by
    intro s hs
    rw [hs₁] at hs
    rw [← Option.some.inj hs]
    refine ⟨fun _ => .inr ?_, fun hon => absurd hon (by decide), fun hon => absurd hon (by decide),
      fun hon => absurd hon (by decide)⟩
    rw [Busy, hjobs₁, hout₁]
    decide
  have hrun : l₂.ReachableBy env () pubkey (Telling env) :=
    .tail (.single ⟨.link (.tryEstablish 0 ()), trivial, h₁⟩) ⟨_, htell, h₂⟩
  exact ⟨l₂, hmap₂, working_truthful env () pubkey l₂ hrun⟩

/-- The intro ack of an inbound session is generated and sent, and nothing clears the flag. -/
theorem introack_keeps_working : ¬ ∀ (env : LinkEnv Unit) (pubkey : Unit → PubKey)
    (l : Endpoint Unit Unit), l.ReachableBy env () pubkey (fun _ _ => True) →
    l.Truthful ∧ l.Expires env () := by
  intro h
  let env := LinkEnv.discarding (List.Vector.replicate 32 0)
  let pubkey : Unit → PubKey := fun _ => zeroBlob 32
  let events : List (WorkEvent Unit Unit) := [.link (.recvfrom 0 () 100),
    .link (.complete 0 0 .verifyIntro true true), .link (.complete 0 0 .genIntroack true true),
    .encrypted 0]
  obtain ⟨l, s, hl, hs, hworking, hjobs, hout⟩ : ∃ (l : Endpoint Unit Unit)
      (s : LinkSession Unit Unit),
      events.foldlM (fun l e => l.step env () pubkey e) {} = some l ∧
      l.server.heap 0 = some s ∧ s.working = true ∧ s.jobs = [] ∧ l.outbound 0 = 0 :=
    ⟨_, _, rfl, rfl, rfl, rfl, rfl⟩
  rcases ((h env pubkey l (reachableBy_of_foldlM .refl hl)).1 0 s hs).mp hworking with hjob | hjob
  · exact hjob hjobs
  · omega

end Endpoint

end Udap.Iwp
