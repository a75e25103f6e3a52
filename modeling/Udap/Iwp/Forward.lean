import Udap.Iwp.Server
import Udap.Iwp.Identity

/-!
The order in which a session goes through its states.

`EnterState` is called where a crypto job ends, and it does not look at the state it leaves. A
session goes forward as long as its packets come one at a time.

* `InStep`: the invariant of one session. It has at most one job of the handshake at the workers,
  and the job has its own hook and fits the state.
* `goes_forward`: in a run without a packet or a new attempt while a job of the handshake is at
  work, and without a new attempt after the intro, no session goes back, and an established one
  stays so.
* `attempt_tears_back`: an attempt to establish an established session brings it back.
-/

namespace Udap.Iwp

open ByteMem

/-- The place of a state in the handshake. -/
def State.rank : State → ℕ
  | .eInitial => 0
  | .eIntroRecv | .eIntroSent => 1
  | .eIntroAckSent | .eIntroAckRecv => 2
  | .eSessionStartSent => 3
  | .eLIMSent => 4
  | .eEstablished => 5
  | .eTimeout => 6

/-- From one state forward to another; established, a session stays so. -/
structure State.Fwd (a b : State) : Prop where
  rank : a.rank ≤ b.rank
  established : a = .eEstablished → b = .eEstablished

lemma State.Fwd.refl (a : State) : State.Fwd a a := ⟨le_rfl, id⟩

lemma State.Fwd.trans {a b c : State} (h : State.Fwd a b) (h' : State.Fwd b c) : State.Fwd a c :=
  ⟨h.rank.trans h'.rank, fun ha => h'.established (h.established ha)⟩

/-- Forward from in front of the last state. -/
lemma State.fwd_of_lt {a b : State} (h : a.rank ≤ b.rank) (ha : a.rank < 5) : State.Fwd a b := by
  refine ⟨h, fun heq => ?_⟩
  rw [heq] at ha
  exact absurd ha (lt_irrefl 5)

namespace LinkSession

variable {σ ι : Type} {s : LinkSession σ ι}

/-- A job of the handshake that is at the workers has its hook, and the session is not past what
the hook does. -/
def Pending (s : LinkSession σ ι) : CryptoJob → Prop
  | .genIntro => s.intro.verifies = false ∧ s.core.state.rank ≤ 1
  | .verifyIntro => s.intro.verifies = true ∧ s.core.state.rank ≤ 1
  | .genIntroack => s.introack.verifies = false ∧ s.core.state.rank ≤ 1
  | .verifyIntroack => s.introack.verifies = true ∧ s.core.state.rank ≤ 2
  | .genSessionStart => s.start.verifies = false ∧ s.core.state.rank ≤ 2
  | .verifySessionStart => s.start.verifies = true ∧ s.core.state.rank ≤ 2
  | .decryptFrame => False

/-- Nothing is at the workers, or one job of the handshake, or frames of a session that is past
the handshake. -/
inductive InStep (s : LinkSession σ ι) : Prop
  | idle (h : s.jobs = [])
  | pending (job : CryptoJob) (h : s.jobs = [job]) (hp : s.Pending job)
  | frames (h : ∀ job ∈ s.jobs, job = .decryptFrame) (hr : 3 ≤ s.core.state.rank)
      (hr' : s.core.state.rank ≤ 5)

/-- A job that is at the workers. -/
lemma InStep.of_mem (h : s.InStep) {job : CryptoJob} (hj : job ∈ s.jobs)
    (hne : job ≠ .decryptFrame) : s.jobs.erase job = [] ∧ s.Pending job := by
  cases h with
  | idle h =>
      rw [h] at hj
      cases hj
  | pending job' h hp =>
      rw [h, List.mem_singleton] at hj
      rw [h, hj]
      exact ⟨List.erase_cons_head .., hp⟩
  | frames h _ _ => exact absurd (h job hj) hne

lemma InStep.of_mem_frame (h : s.InStep) (hj : CryptoJob.decryptFrame ∈ s.jobs) :
    (∀ job ∈ s.jobs, job = .decryptFrame) ∧ 3 ≤ s.core.state.rank ∧ s.core.state.rank ≤ 5 := by
  cases h with
  | idle h =>
      rw [h] at hj
      cases hj
  | pending job' h hp =>
      rw [h, List.mem_singleton] at hj
      rw [← hj] at hp
      exact hp.elim
  | frames h hr hr' => exact ⟨h, hr, hr'⟩

/-- A session that is past the handshake has only frames at the workers. -/
lemma InStep.frames_of_rank (h : s.InStep) (hr : 3 ≤ s.core.state.rank) :
    ∀ job ∈ s.jobs, job = .decryptFrame := by
  cases h with
  | idle h =>
      rw [h]
      exact fun _ hj => nomatch hj
  | pending job h hp =>
      exfalso
      cases job with
      | genIntro => exact absurd hp.2 (by omega)
      | verifyIntro => exact absurd hp.2 (by omega)
      | genIntroack => exact absurd hp.2 (by omega)
      | verifyIntroack => exact absurd hp.2 (by omega)
      | genSessionStart => exact absurd hp.2 (by omega)
      | verifySessionStart => exact absurd hp.2 (by omega)
      | decryptFrame => exact hp
  | frames h _ _ => exact h

/-- Only the state, the jobs and their hooks have a part in it. -/
lemma InStep.congr {s' : LinkSession σ ι} (h : s.InStep) (hj : s'.jobs = s.jobs)
    (hst : s'.core.state = s.core.state) (hi : s'.intro = s.intro)
    (ha : s'.introack = s.introack) (hs : s'.start = s.start) : s'.InStep := by
  cases h with
  | idle h => exact .idle (hj.trans h)
  | pending job h hp =>
      refine .pending job (hj.trans h) ?_
      have hr : s'.core.state.rank = s.core.state.rank := by rw [hst]
      cases job with
      | genIntro => exact ⟨hi ▸ hp.1, hr.trans_le hp.2⟩
      | verifyIntro => exact ⟨hi ▸ hp.1, hr.trans_le hp.2⟩
      | genIntroack => exact ⟨ha ▸ hp.1, hr.trans_le hp.2⟩
      | verifyIntroack => exact ⟨ha ▸ hp.1, hr.trans_le hp.2⟩
      | genSessionStart => exact ⟨hs ▸ hp.1, hr.trans_le hp.2⟩
      | verifySessionStart => exact ⟨hs ▸ hp.1, hr.trans_le hp.2⟩
      | decryptFrame => exact hp
  | frames h hr hr' => exact .frames (hj ▸ h) (hst ▸ hr) (hst ▸ hr')

end LinkSession

namespace Server

variable {σ ι : Type}

/-- The event does not disturb the handshake of a session: an attempt comes in front of its intro
ack, and neither an attempt nor a packet of the handshake while a job is at the workers. -/
def Orderly (l : Server σ ι) : LinkEvent σ ι → Prop
  | .tryEstablish _ dst => ∀ p s, l.sessions dst = some p → l.heap p = some s →
      s.jobs = [] ∧ s.core.state.rank ≤ 1
  | .recvfrom _ src _ => ∀ p s, l.sessions src = some p → l.heap p = some s →
      s.core.state = .eInitial ∨ s.core.state = .eIntroSent ∨ s.core.state = .eIntroAckSent →
      s.jobs = []
  | _ => True

/-- The invariant: sessions were made, and they are in step. -/
structure InOrder (l : Server σ ι) : Prop where
  made : ∀ p s, l.heap p = some s → p < l.made
  inStep : ∀ p s, l.heap p = some s → s.InStep

/-- A link without sessions. -/
lemma inOrder_init : InOrder ({} : Server σ ι) where
  made _ _ hs := by cases hs
  inStep _ _ hs := by cases hs

/-- Sessions go forward or are deleted, and the new ones have new places. -/
structure Onward (l l' : Server σ ι) : Prop where
  made : l.made ≤ l'.made
  fwd : ∀ p s', l'.heap p = some s' →
    (∃ s, l.heap p = some s ∧ State.Fwd s.core.state s'.core.state) ∨ l.made ≤ p

lemma Onward.refl (l : Server σ ι) : Onward l l := ⟨le_rfl, fun _ s hs => .inl ⟨s, hs, .refl _⟩⟩

lemma Onward.trans {l l' l'' : Server σ ι} (h : Onward l l') (h' : Onward l' l'') :
    Onward l l'' := by
  refine ⟨h.made.trans h'.made, fun p s'' hs'' => ?_⟩
  rcases h'.fwd p s'' hs'' with ⟨s', hs', hf'⟩ | hnew
  · rcases h.fwd p s' hs' with ⟨s, hs, hf⟩ | hnew
    · exact .inl ⟨s, hs, hf.trans hf'⟩
    · exact .inr hnew
  · exact .inr (h.made.trans hnew)

/-- One step of the invariant. -/
def Proceeds (l l' : Server σ ι) : Prop := InOrder l' ∧ Onward l l'

section Moves

variable {l l' l'' : Server σ ι} {p : ℕ} {s s' : LinkSession σ ι}

lemma Proceeds.trans (h : Proceeds l l') (h' : Proceeds l' l'') : Proceeds l l'' :=
  ⟨h'.1, h.2.trans h'.2⟩

lemma InOrder.refl (h : InOrder l) : Proceeds l l := ⟨h, .refl l⟩

/-- The sessions stay what they are. -/
lemma InOrder.of_heap (h : InOrder l) (hheap : l'.heap = l.heap) (hmade : l'.made = l.made) :
    Proceeds l l' := by
  refine ⟨⟨?_, ?_⟩, hmade.ge, fun p s hs => .inl ⟨s, hheap ▸ hs, .refl _⟩⟩
  · rw [hheap, hmade]
    exact h.made
  · rw [hheap]
    exact h.inStep

lemma InOrder.put (h : InOrder l) (hs : l.heap p = some s) (hstep : s'.InStep)
    (hf : State.Fwd s.core.state s'.core.state) : Proceeds l (l.put p s') := by
  refine ⟨⟨fun q t ht => ?_, fun q t ht => ?_⟩, le_rfl, fun q t ht => ?_⟩
  · rcases heap_update_cases ht with ⟨rfl, -⟩ | ⟨-, ht⟩
    · exact h.made q s hs
    · exact h.made q t ht
  · rcases heap_update_cases ht with ⟨-, heq⟩ | ⟨-, ht⟩
    · rwa [← Option.some.inj heq]
    · exact h.inStep q t ht
  · rcases heap_update_cases ht with ⟨rfl, heq⟩ | ⟨-, ht⟩
    · rw [← Option.some.inj heq]
      exact .inl ⟨s, hs, hf⟩
    · exact .inl ⟨t, ht, .refl _⟩

lemma InOrder.delete (h : InOrder l) (p : ℕ) : Proceeds l (l.delete p) := by
  have hkept : ∀ q t, (l.delete p).heap q = some t → l.heap q = some t := by
    intro q t ht
    rcases heap_update_cases ht with ⟨-, heq⟩ | ⟨-, ht⟩
    · cases heq
    · exact ht
  exact ⟨⟨fun q t ht => h.made q t (hkept q t ht), fun q t ht => h.inStep q t (hkept q t ht)⟩,
    le_rfl, fun q t ht => .inl ⟨t, hkept q t ht, .refl _⟩⟩

lemma InOrder.createSession (h : InOrder l) (p₀ : σ) (addr : ι) :
    Proceeds l (l.createSession p₀ addr) := by
  refine ⟨⟨fun q t ht => ?_, fun q t ht => ?_⟩, Nat.le_succ _, fun q t ht => ?_⟩
  · rcases heap_update_cases ht with ⟨rfl, -⟩ | ⟨-, ht⟩
    · exact Nat.lt_succ_self _
    · exact (h.made q t ht).trans (Nat.lt_succ_self _)
  · rcases heap_update_cases ht with ⟨-, heq⟩ | ⟨-, ht⟩
    · rw [← Option.some.inj heq]
      exact .idle rfl
    · exact h.inStep q t ht
  · rcases heap_update_cases ht with ⟨rfl, -⟩ | ⟨-, ht⟩
    · exact .inr le_rfl
    · exact .inl ⟨t, ht, .refl _⟩

end Moves

section Handlers

variable {l l' : Server σ ι} {p : ℕ} {s : LinkSession σ ι} {env : LinkEnv σ}

/-- A frame changes the state only by establishing the session. -/
lemma state_call_frame {c c' : Session σ} {now : UInt64} {buf : Bytes} {sz : ℕ}
    (h : c.call env (.frame now buf sz) = .ok c') :
    c'.state = c.state ∨ c'.state = .eEstablished := by
  obtain ⟨r, hp, h⟩ := Session.bind_eq_ok h
  have hc' : c'.state = r.1.state := by
    split_ifs at h
    · rw [← Except.ok.inj h]
      rfl
    · rw [← Except.ok.inj h]
  rw [hc']
  rcases Session.process_core hp with hcore | ⟨c₁, id, msg, hc₁, hcore⟩
  · exact .inl (congrArg (fun x => x.2.1) hcore)
  · have h₁ : c₁.state = c.state := congrArg (fun x => x.2.1) hc₁
    have hr : r.1.state = (c₁.completeMessage env now id msg).1.state :=
      congrArg (fun x => x.2.1) hcore
    rw [hr, ← h₁]
    obtain ⟨_, -, ⟨-, hst⟩ | ⟨-, hst, -⟩ | ⟨-, -, hst⟩⟩ :=
      Session.completeMessage_core env now c₁ id msg
    · exact .inl hst
    · exact .inl hst
    · exact .inr hst

lemma fwd_call_frame {c c' : Session σ} {now : UInt64} {buf : Bytes} {sz : ℕ}
    (hr : c.state.rank ≤ 5) (h : c.call env (.frame now buf sz) = .ok c') :
    State.Fwd c.state c'.state ∧ c'.state.rank ≤ 5 := by
  rcases state_call_frame h with heq | heq
  · rw [heq]
    exact ⟨.refl _, hr⟩
  · rw [heq]
    exact ⟨⟨hr, fun _ => rfl⟩, le_rfl⟩

/-- `gen_intro` and `verify_intro` end. -/
lemma InOrder.completeIntro (h : InOrder l) (hs : l.heap p = some s) {now : UInt64}
    {job : CryptoJob} {ok sent : Bool} (hj : job ∈ s.jobs)
    (hjob : job = .genIntro ∨ job = .verifyIntro)
    (hl : l.completeIntro now p job ok sent s = some l') : Proceeds l l' := by
  have hne : job ≠ .decryptFrame := by
    rcases hjob with rfl | rfl <;> exact nofun
  obtain ⟨hrest, hp⟩ := (h.inStep p s hs).of_mem hj hne
  have hrank : s.core.state.rank ≤ 1 := by
    rcases hjob with rfl | rfl
    · exact hp.2
    · exact hp.2
  rw [Server.completeIntro] at hl
  split_ifs at hl with hbuf hverifies
  · -- the intro was verified: the intro ack is generated
    rw [← Option.some.inj hl, LinkSession.handleVerifyIntro]
    split_ifs
    · refine h.put hs (.pending .genIntroack ?_ ⟨rfl, hrank⟩) (.refl _)
      show s.jobs.erase job ++ [.genIntroack] = [.genIntroack]
      rw [hrest, List.nil_append]
    · exact h.put hs (.idle hrest) (.refl _)
  · rw [← Option.some.inj hl, LinkSession.handleGeneratedIntro]
    split_ifs
    · exact h.put hs (.idle hrest) (State.fwd_of_lt hrank (by omega))
    · exact h.put hs (.idle hrest) (.refl _)

/-- `gen_session_start` and `verify_session_start` end. -/
lemma InOrder.completeSessionStart (h : InOrder l) (hs : l.heap p = some s) {now : UInt64}
    {job : CryptoJob} {ok : Bool} (hj : job ∈ s.jobs)
    (hjob : job = .genSessionStart ∨ job = .verifySessionStart)
    (hl : l.completeSessionStart env now p job ok s = some l') : Proceeds l l' := by
  have hne : job ≠ .decryptFrame := by
    rcases hjob with rfl | rfl <;> exact nofun
  obtain ⟨hrest, hp⟩ := (h.inStep p s hs).of_mem hj hne
  have hrank : s.core.state.rank ≤ 2 := by
    rcases hjob with rfl | rfl
    · exact hp.2
    · exact hp.2
  rw [Server.completeSessionStart] at hl
  split_ifs at hl with hbuf hverifies
  · rw [← Option.some.inj hl, LinkSession.handleVerifySessionStart]
    split_ifs
    · refine h.put hs (.idle hrest) ?_
      show State.Fwd s.core.state (s.core.sendLIM env now).state
      rw [Session.sendLIM]
      split
      · exact State.fwd_of_lt (hrank.trans (show 2 ≤ 4 by omega)) (by omega)
      · exact .refl _
    · exact h.put hs (.idle hrest) (.refl _)
  · rw [← Option.some.inj hl]
    exact h.put hs (.idle hrest) (State.fwd_of_lt (hrank.trans (show 2 ≤ 3 by omega)) (by omega))

/-- A frame is processed. -/
lemma InOrder.decrypted (h : InOrder l) (hs : l.heap p = some s) {now : UInt64}
    {frame : Option (Bytes × ℕ)} (hj : CryptoJob.decryptFrame ∈ s.jobs)
    (hl : l.decrypted env now p frame s = some l') : Proceeds l l' := by
  obtain ⟨hall, hr, hr'⟩ := (h.inStep p s hs).of_mem_frame hj
  have hrest : ∀ job ∈ s.jobs.erase .decryptFrame, job = .decryptFrame := fun job hmem =>
    hall job (List.mem_of_mem_erase hmem)
  cases frame with
  | none =>
      rw [← Option.some.inj hl]
      exact h.put hs (.frames hrest hr hr') (.refl _)
  | some f =>
      obtain ⟨c, hc, rfl⟩ := Option.map_eq_some_iff.mp hl
      obtain ⟨hf, hmax⟩ := fwd_call_frame hr' (Session.eq_ok_of_toOption hc)
      have hput : Proceeds l (l.put p { s with jobs := s.jobs.erase .decryptFrame, core := c }) :=
        h.put hs (.frames hrest (hr.trans hf.rank) hmax) hf
      rw [processed]
      split_ifs
      · exact hput.trans (hput.1.of_heap rfl rfl)
      · exact hput

/-- A call on the frame state. -/
lemma InOrder.putCore (h : InOrder l) (hs : l.heap p = some s) {c : Session σ}
    (hc : c.state = s.core.state) : Proceeds l (l.put p { s with core := c }) := by
  refine h.put hs ((h.inStep p s hs).congr rfl hc rfl rfl rfl) ?_
  show State.Fwd s.core.state c.state
  rw [hc]
  exact .refl _

lemma InOrder.onCore (h : InOrder l) {f : Session σ → Session σ} (hl : l.onCore p f = some l')
    (hf : ∀ c, (f c).state = c.state) : Proceeds l l' := by
  obtain ⟨s, hs, rfl⟩ := Option.map_eq_some_iff.mp hl
  exact h.putCore hs (hf _)

/-- `Tick` leaves the state as it is. -/
lemma state_tick {c : Session σ} {now : UInt64} {working : Bool} {r : Session σ × Bool}
    (h : c.tick now working = .ok r) : r.1.state = c.state := by
  rw [Session.tick] at h
  split_ifs at h
  · rw [← Except.ok.inj h]
  · rw [← Except.ok.inj h]
  · obtain ⟨c', hc', h⟩ := Session.bind_eq_ok h
    have hcore : c'.core = c.core := Session.core_tickLive hc'
    rw [← Except.ok.inj h]
    exact congrArg (fun x => x.2.1) hcore

/-- A timer answers. -/
lemma InOrder.timeout (h : InOrder l) (hs : l.heap p = some s) (id : ℕ) :
    Proceeds l ((l.removeCall id).handleEstablishTimeout p s) := by
  have hremove : Proceeds l (l.removeCall id) := h.of_heap rfl rfl
  have hs' : (l.removeCall id).heap p = some s := hs
  rw [handleEstablishTimeout]
  split
  · exact hremove.trans (hremove.1.put hs' ((h.inStep p s hs).congr rfl rfl rfl rfl rfl) (.refl _))
  · have hput : Proceeds (l.removeCall id)
        ((l.removeCall id).put p { s with establishJobId := 0, establishJob := none }) :=
      hremove.1.put hs' ((h.inStep p s hs).congr rfl rfl rfl rfl rfl) (.refl _)
    exact (hremove.trans hput).trans (hput.1.of_heap rfl rfl)

/-- An attempt on a session in front of its intro ack. -/
lemma InOrder.attach (h : InOrder l) (hs : l.heap p = some s) (hnone : s.jobs = [])
    (hrank : s.core.state.rank ≤ 1) (now : UInt64) : Proceeds l (l.attach now p s) := by
  have hput : Proceeds l (l.put p (s.establish now l.attempts ((l.ids + 1) % 2 ^ 32))) := by
    refine h.put hs (.pending .genIntro ?_ ⟨rfl, hrank⟩) (.refl _)
    show s.jobs ++ [.genIntro] = [.genIntro]
    rw [hnone, List.nil_append]
  exact hput.trans (hput.1.of_heap rfl rfl)

variable [DecidableEq ι]

/-- `gen_introack` and `verify_introack` end. -/
lemma InOrder.completeIntroack (h : InOrder l) (hs : l.heap p = some s) {now : UInt64}
    {job : CryptoJob} {ok sent : Bool} (hj : job ∈ s.jobs)
    (hjob : job = .genIntroack ∨ job = .verifyIntroack)
    (hl : l.completeIntroack now p job ok sent s = some l') : Proceeds l l' := by
  have hne : job ≠ .decryptFrame := by
    rcases hjob with rfl | rfl <;> exact nofun
  obtain ⟨hrest, hp⟩ := (h.inStep p s hs).of_mem hj hne
  have hrank : s.core.state.rank ≤ 2 := by
    rcases hjob with rfl | rfl
    · exact hp.2.trans (by decide)
    · exact hp.2
  rw [Server.completeIntroack] at hl
  split_ifs at hl with hbuf hverifies
  · rw [← Option.some.inj hl, LinkSession.handleVerifyIntroack]
    split_ifs
    · refine h.put hs (.pending .genSessionStart ?_ ⟨rfl, le_rfl⟩)
        (State.fwd_of_lt hrank (by omega))
      show s.jobs.erase job ++ [.genSessionStart] = [.genSessionStart]
      rw [hrest, List.nil_append]
    · exact h.put hs (.idle hrest) (.refl _)
  · rw [← Option.some.inj hl, handleIntroackGenerated]
    have hmap : Proceeds l (l.putSession s.addr p) := h.of_heap rfl rfl
    split_ifs
    · exact h.delete p
    · exact hmap.trans (hmap.1.put hs (.idle hrest) (State.fwd_of_lt hrank (by omega)))
    · exact hmap.trans (hmap.1.put hs (.idle hrest) (.refl _))
    · exact h.delete p

/-- `RemoveSessionByAddr`. -/
lemma InOrder.removeSessionByAddr (h : InOrder l) {a : ι}
    (hl : l.removeSessionByAddr a = some l') : Proceeds l l' := by
  rw [Server.removeSessionByAddr] at hl
  split at hl
  · rw [← Option.some.inj hl]
    exact h.refl
  · rename_i q _
    obtain ⟨s, -, rfl⟩ := Option.map_eq_some_iff.mp hl
    have hdone : Proceeds l (l.done s) := by
      rw [Server.done]
      split_ifs
      · exact h.refl
      · exact h.of_heap rfl rfl
    have hdelete := hdone.1.delete q
    exact (hdone.trans hdelete).trans (hdelete.1.of_heap rfl rfl)

/-- A packet is taken by a session without a job of the handshake at work. -/
lemma InOrder.recv (h : InOrder l) (hs : l.heap p = some s) {now : UInt64} {sz : ℕ}
    (hidle : s.core.state = .eInitial ∨ s.core.state = .eIntroSent ∨
      s.core.state = .eIntroAckSent → s.jobs = [])
    (hl : l.recv now p s sz = some l') : Proceeds l l' := by
  -- after the handshake every packet is a frame
  have hframe : 3 ≤ s.core.state.rank → s.core.state.rank ≤ 5 → (if sz ≤ 64 then some l
      else if sz > 1500 then none else some (l.put p (s.queue .decryptFrame))) = some l' →
      Proceeds l l' := by
    intro hr hr' hl
    split_ifs at hl
    · rw [← Option.some.inj hl]
      exact h.refl
    · rw [← Option.some.inj hl]
      refine h.put hs (.frames (fun job hjob => ?_) hr hr') (.refl _)
      rcases List.mem_append.mp hjob with hjob | hjob
      · exact (h.inStep p s hs).frames_of_rank hr job hjob
      · exact List.mem_singleton.mp hjob
  -- during the handshake the packet brings the only job
  have hqueue : ∀ job, s.jobs = [] → s.jobs ++ [job] = [job] := fun job hnone => by
    rw [hnone, List.nil_append]
  rw [Server.recv] at hl
  split at hl
  · rename_i hstate
    have hnone := hidle (.inl hstate)
    split_ifs at hl
    · rw [← Option.some.inj hl]
      exact h.delete p
    · rw [← Option.some.inj hl]
      refine h.put hs (.pending .verifyIntro (hqueue _ hnone) ⟨rfl, le_rfl⟩) ?_
      rw [hstate]
      exact State.fwd_of_lt (Nat.zero_le _) (by decide)
  · rename_i hstate
    have hnone := hidle (.inr (.inl hstate))
    split_ifs at hl
    · exact h.removeSessionByAddr hl
    · rw [← Option.some.inj hl]
      refine h.put hs (.pending .verifyIntroack (hqueue _ hnone) ⟨rfl, ?_⟩) (.refl _)
      show s.core.state.rank ≤ 2
      rw [hstate]
      decide
  · rename_i hstate
    have hnone := hidle (.inr (.inr hstate))
    split_ifs at hl
    · rw [← Option.some.inj hl]
      exact h.refl
    · rw [← Option.some.inj hl]
      refine h.put hs (.pending .verifySessionStart (hqueue _ hnone) ⟨rfl, ?_⟩) (.refl _)
      show s.core.state.rank ≤ 2
      rw [hstate]
      decide
  · rename_i hstate
    exact hframe (by rw [hstate]; decide) (by rw [hstate]; decide) hl
  · rename_i hstate
    exact hframe (by rw [hstate]; decide) (by rw [hstate]; decide) hl
  · rename_i hstate
    exact hframe (by rw [hstate]; decide) (by rw [hstate]; decide) hl
  all_goals
    rw [← Option.some.inj hl]
    exact h.refl

end Handlers

/-! ### Runs -/

section Runs

variable [DecidableEq ι] {env : LinkEnv σ} {p₀ : σ} {l l' : Server σ ι}

/-- One event. -/
lemma InOrder.step (h : InOrder l) {e : LinkEvent σ ι} (hc : Orderly l e)
    (hl : l.step env p₀ e = some l') : Proceeds l l' := by
  cases e with
  | tryEstablish now dst =>
      rw [Server.step, Server.tryEstablish] at hl
      cases hfind : l.sessions dst with
      | some p =>
          rw [hfind] at hl
          obtain ⟨s, hs, rfl⟩ := Option.map_eq_some_iff.mp hl
          obtain ⟨hnone, hrank⟩ := hc p s hfind hs
          exact h.attach hs hnone hrank now
      | none =>
          rw [hfind] at hl
          rw [← Option.some.inj hl]
          have hnew := h.createSession p₀ dst
          have hmap : Proceeds l ((l.createSession p₀ dst).putSession dst l.made) :=
            hnew.trans (hnew.1.of_heap rfl rfl)
          exact hmap.trans (hmap.1.attach (put_heap_self ..) rfl (Nat.zero_le _) now)
  | recvfrom now src sz =>
      rw [Server.step, Server.recvfrom] at hl
      cases hfind : l.sessions src with
      | some p =>
          rw [hfind] at hl
          obtain ⟨s, hs, hl⟩ := Option.bind_eq_some_iff.mp hl
          exact h.recv hs (hc p s hfind hs) hl
      | none =>
          rw [hfind] at hl
          -- a packet from an unknown address goes to a session without jobs
          have hnew := h.createSession p₀ src
          exact hnew.trans (hnew.1.recv (put_heap_self ..) (fun _ => rfl) hl)
  | complete now p job ok sent =>
      obtain ⟨s, hs, hl⟩ := Option.bind_eq_some_iff.mp hl
      split_ifs at hl with hj
      cases job with
      | genIntro => exact h.completeIntro hs hj (.inl rfl) hl
      | verifyIntro => exact h.completeIntro hs hj (.inr rfl) hl
      | genIntroack => exact h.completeIntroack hs hj (.inl rfl) hl
      | verifyIntroack => exact h.completeIntroack hs hj (.inr rfl) hl
      | genSessionStart => exact h.completeSessionStart hs hj (.inl rfl) hl
      | verifySessionStart => exact h.completeSessionStart hs hj (.inr rfl) hl
      | decryptFrame => cases hl
  | decrypted now p frame =>
      obtain ⟨s, hs, hl⟩ := Option.bind_eq_some_iff.mp hl
      split_ifs at hl with hj
      exact h.decrypted hs hj hl
  | timer now t =>
      obtain ⟨s, hs, hl⟩ := Option.bind_eq_some_iff.mp hl
      split_ifs at hl
      rw [← Option.some.inj hl]
      exact h.timeout hs t.id
  | otherTimer =>
      rw [← Option.some.inj hl]
      exact h.of_heap rfl rfl
  | tick now p =>
      obtain ⟨s, hs, hl⟩ := Option.bind_eq_some_iff.mp hl
      split_ifs at hl
      obtain ⟨done, hdone, hl⟩ := Option.bind_eq_some_iff.mp hl
      -- `Tick` may remove the session, but it moves its state nowhere
      have hput := h.putCore hs (state_tick (Session.eq_ok_of_toOption hdone))
      split_ifs at hl
      · exact hput.trans (hput.1.removeSessionByAddr hl)
      · rw [← Option.some.inj hl]
        exact hput
  | send p m =>
      have hl : l.onCore p (fun s => s.sendto env m) = some l' := hl
      exact h.onCore hl fun _ => rfl
  | close p =>
      have hl : l.onCore p Session.close = some l' := hl
      exact h.onCore hl fun _ => rfl
  | keepalive p =>
      have hl : l.onCore p Session.sendKeepalive = some l' := hl
      refine h.onCore hl fun c => ?_
      have hcore : c.sendKeepalive.core = c.core := Session.core_sendKeepalive
      exact congrArg (fun x => x.2.1) hcore
  | peer p x =>
      have hl : l.onCore p (fun s => { s with peer := x }) = some l' := hl
      exact h.onCore hl fun _ => rfl
  | clear p =>
      obtain ⟨s, hs, hl⟩ := Option.bind_eq_some_iff.mp hl
      split_ifs at hl
      rw [← Option.some.inj hl]
      have hdelete := h.delete p
      exact hdelete.trans (hdelete.1.of_heap rfl rfl)

/-- Events that meet the condition. -/
def OrderlyStep (env : LinkEnv σ) (p₀ : σ) (l l' : Server σ ι) : Prop :=
  ∃ e, Orderly l e ∧ l.step env p₀ e = some l'

lemma InOrder.run (h : InOrder l) (hrun : Relation.ReflTransGen (OrderlyStep env p₀) l l') :
    Proceeds l l' := by
  induction hrun with
  | refl => exact h.refl
  | tail _ hstep ih =>
      obtain ⟨e, hc, hl⟩ := hstep
      exact ih.trans (ih.1.step hc hl)

end Runs

/-- In a run whose packets of the handshake and attempts come while no job of the handshake is at
work, no session goes back, and an established one stays so until it is deleted. -/
theorem goes_forward [DecidableEq ι] (env : LinkEnv σ) (p₀ : σ) (l l' : Server σ ι)
    (hreach : Relation.ReflTransGen (OrderlyStep env p₀) {} l)
    (hrun : Relation.ReflTransGen (OrderlyStep env p₀) l l') (p : ℕ) (s s' : LinkSession σ ι)
    (hs : l.heap p = some s) (hs' : l'.heap p = some s') :
    s.core.state.rank ≤ s'.core.state.rank ∧
      (s.core.state = .eEstablished → s'.core.state = .eEstablished) := by
  have hin := (inOrder_init.run hreach).1
  rcases (hin.run hrun).2.fwd p s' hs' with ⟨s₀, hs₀, hf⟩ | hnew
  · rw [← Option.some.inj (hs.symm.trans hs₀)] at hf
    exact ⟨hf.rank, hf.established⟩
  · exact absurd (hin.made p s hs) (not_lt.mpr hnew)

/-- The first attempt, and the generated intro is sent. -/
theorem goes_forward_intro : ∃ (l l' : Server Unit Unit) (s s' : LinkSession Unit Unit),
    l.heap 0 = some s ∧ l'.heap 0 = some s' ∧ s.core.state = .eInitial ∧
    s'.core.state = .eIntroSent ∧ s.core.state.rank ≤ s'.core.state.rank := by
  let env := LinkEnv.discarding (List.Vector.replicate 32 0)
  obtain ⟨l, s, hl, hs, hst⟩ : ∃ (l : Server Unit Unit) (s : LinkSession Unit Unit),
      ({} : Server Unit Unit).step env () (.tryEstablish 0 ()) = some l ∧
      l.heap 0 = some s ∧ s.core.state = .eInitial := ⟨_, _, rfl, rfl, rfl⟩
  obtain ⟨l', s', hl', hs', hst'⟩ : ∃ (l' : Server Unit Unit) (s' : LinkSession Unit Unit),
      l.step env () (.complete 0 0 .genIntro true true) = some l' ∧
      l'.heap 0 = some s' ∧ s'.core.state = .eIntroSent := by
    obtain rfl := Option.some.inj hl
    exact ⟨_, _, rfl, rfl, rfl⟩
  have hattempt : OrderlyStep env () ({} : Server Unit Unit) l :=
    ⟨.tryEstablish 0 (), fun p s hp _ => (by cases hp), hl⟩
  have hdone : OrderlyStep env () l l' := ⟨.complete 0 0 .genIntro true true, trivial, hl'⟩
  exact ⟨l, l', s, s', hs, hs', hst, hst',
    (goes_forward env () l l' (.single hattempt) (.single hdone) 0 s s' hs hs').1⟩

/-- A datagram, the end of a crypto job or an attempt. -/
def Outside : LinkEvent Unit Unit → Prop
  | .tryEstablish .. => True
  | .recvfrom .. => True
  | .complete .. => True
  | .decrypted .. => True
  | _ => False

/-- Steps of a link on which nothing else happens. -/
def OutsideStep (env : LinkEnv Unit) (l l' : Server Unit Unit) : Prop :=
  ∃ e, Outside e ∧ l.step env () e = some l'

lemma reachable_of_foldlM {env : LinkEnv Unit} {es : List (LinkEvent Unit Unit)}
    (hes : ∀ e ∈ es, Outside e) : ∀ {l l' : Server Unit Unit},
    es.foldlM (fun l e => l.step env () e) l = some l' →
    Relation.ReflTransGen (OutsideStep env) l l' := by
  induction es with
  | nil =>
      intro l l' h
      rw [Option.some.inj h]
  | cons e es ih =>
      intro l l' h
      obtain ⟨l₁, hl₁, h⟩ := Option.bind_eq_some_iff.mp h
      exact .head ⟨e, hes e List.mem_cons_self, hl₁⟩
        (ih (fun e he => hes e (List.mem_cons_of_mem _ he)) h)

/-- The message under the id `0` establishes a session whose contact is accepted. -/
lemma finished_discarding (digest : Blob 32) (m : Bytes) (c : Session Unit) :
    (c.finished (.discarding digest) 0 0 m).1.state = .eEstablished ∧
      (c.finished (.discarding digest) 0 0 m).2 = true := by
  refine ⟨?_, rfl⟩
  change ((c.handing 0 m).accepted (.discarding digest) 0).state = .eEstablished
  rw [Session.accepted]
  split_ifs with hest
  · exact eq_of_beq hest
  · rfl

lemma call_shortFrame {c : Session Unit} (hid : 0 ∉ c.frame.rx) :
    let frame := TransitMessage.xmitFrame shortHash 0 shortMessage.1 0
    ∃ c', c.call (.discarding shortHash) (.frame 0 frame frame.length) = .ok c' ∧
      c'.state = .eEstablished := by
  intro frame
  obtain ⟨r, hproc, hstate, hsuccess⟩ : ∃ r, c.process (.discarding shortHash) 0 frame
      frame.length = .ok r ∧ r.1.state = .eEstablished ∧ r.2 = true := by
    have hproc := Session.process_xmitFrame (.discarding shortHash) 0 shortMessage.2 0 0
      ⟨[], by decide⟩ c
    simp only [if_neg hid, numfragsOf_shortMessage, if_true, List.append_nil] at hproc
    exact ⟨_, hproc, finished_discarding _ _ _⟩
  refine ⟨{ r.1 with frame := r.1.frame.alive 0 }.pump, ?_, hstate⟩
  simp only [Session.call, hproc, bind, Except.bind]
  rw [if_pos hsuccess]
  rfl

lemma processed_heap_self [DecidableEq ι] (p : ℕ) (s : LinkSession σ ι) (c : Session σ)
    (l : Server σ ι) : (l.processed p s c).heap p = some { s with core := c } := by
  rw [processed]
  split_ifs
  · exact put_heap_self p _ l
  · exact put_heap_self p _ l

/-- A session that is in the map is brought to the first states by an attempt and the end of the
job it queues, whatever state it is in. -/
lemma attempt_enters_introSent [DecidableEq ι] (env : LinkEnv σ) (p₀ : σ) {l : Server σ ι} {p : ℕ}
    {s : LinkSession σ ι} (dst : ι) (hmap : l.sessions dst = some p) (hs : l.heap p = some s) :
    ∃ (l₁ l₂ : Server σ ι) (s₂ : LinkSession σ ι),
      l.step env p₀ (.tryEstablish 0 dst) = some l₁ ∧
      l₁.step env p₀ (.complete 0 p .genIntro true true) = some l₂ ∧
      l₂.heap p = some s₂ ∧ s₂.core.state = .eIntroSent ∧ l₂.sessions = l.sessions := by
  have htry : l.step env p₀ (.tryEstablish 0 dst) = some (l.attach 0 p s) := by
    simp only [step, Server.tryEstablish, hmap, hs, Option.map_some]
  have hs₁ : (l.attach 0 p s).heap p =
      some (s.establish 0 l.attempts ((l.ids + 1) % 2 ^ 32)) := put_heap_self ..
  have hjob : CryptoJob.genIntro ∈ (s.establish 0 l.attempts ((l.ids + 1) % 2 ^ 32)).jobs :=
    List.mem_append_right _ (List.mem_singleton_self _)
  refine ⟨_, (l.attach 0 p s).put p (({ s.establish 0 l.attempts ((l.ids + 1) % 2 ^ 32) with
    jobs := (s.establish 0 l.attempts ((l.ids + 1) % 2 ^ 32)).jobs.erase
      .genIntro }).handleGeneratedIntro 0 true), _, htry, ?_, put_heap_self .., rfl, rfl⟩
  simp only [step, hs₁, Option.bind_some, if_pos hjob]
  rfl

/-- The end of the intro of a second attempt, after the session was established. -/
theorem attempt_tears_back : ¬ ∀ (env : LinkEnv Unit) (l l' : Server Unit Unit),
    Relation.ReflTransGen (OutsideStep env) {} l → Relation.ReflTransGen (OutsideStep env) l l' →
    ∀ (p : ℕ) (s s' : LinkSession Unit Unit), l.heap p = some s → l'.heap p = some s' →
      s.core.state.rank ≤ s'.core.state.rank ∧
        (s.core.state = .eEstablished → s'.core.state = .eEstablished) := by
  intro h
  let env := LinkEnv.discarding shortHash
  let frame := TransitMessage.xmitFrame shortHash 0 shortMessage.1 0
  let begun : List (LinkEvent Unit Unit) := [.tryEstablish 0 (), .complete 0 0 .genIntro true true,
    .recvfrom 0 () 96, .complete 0 0 .verifyIntroack true true,
    .complete 0 0 .genSessionStart true true, .recvfrom 0 () 96]
  have hbegun : ∀ e ∈ begun, Outside e := by simp [begun, Outside]
  obtain ⟨l, s, hl, hs, hmap, hjobs, hrx⟩ : ∃ (l : Server Unit Unit) (s : LinkSession Unit Unit),
      begun.foldlM (fun l e => l.step env () e) {} = some l ∧
      l.heap 0 = some s ∧ l.sessions () = some 0 ∧ CryptoJob.decryptFrame ∈ s.jobs ∧
      0 ∉ s.core.frame.rx :=
    ⟨_, _, rfl, rfl, rfl, by decide, by decide⟩
  obtain ⟨c, hc, hest⟩ := call_shortFrame hrx
  obtain ⟨l', s', hl', hs', hmap', hest'⟩ : ∃ (l' : Server Unit Unit) (s' : LinkSession Unit Unit),
      l.step env () (.decrypted 0 0 (some (frame, frame.length))) = some l' ∧
      l'.heap 0 = some s' ∧ l'.sessions () = some 0 ∧ s'.core.state = .eEstablished := by
    refine ⟨l.processed 0 { s with jobs := s.jobs.erase .decryptFrame } c,
      { s with jobs := s.jobs.erase .decryptFrame, core := c }, ?_, ?_, ?_, hest⟩
    · simp only [step, hs, Option.bind_some, if_pos hjobs, Server.decrypted]
      rw [hc]
      rfl
    · exact processed_heap_self ..
    · rw [processed]
      split <;> exact hmap
  -- the second attempt generates its intro in the established session
  obtain ⟨l₁, l₂, s₂, hl₁, hl₂, hs₂, hback, -⟩ := attempt_enters_introSent env () () hmap' hs'
  have hreach : Relation.ReflTransGen (OutsideStep env) {} l' :=
    .tail (reachable_of_foldlM hbegun hl) ⟨.decrypted .., trivial, hl'⟩
  have hrun : Relation.ReflTransGen (OutsideStep env) l' l₂ :=
    .tail (.single ⟨.tryEstablish .., trivial, hl₁⟩) ⟨.complete .., trivial, hl₂⟩
  rw [(h env l' l₂ hreach hrun 0 s' s₂ hs' hs₂).2 hest'] at hback
  cases hback

end Server

end Udap.Iwp
