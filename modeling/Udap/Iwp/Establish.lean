import Udap.Iwp.Server

/-!
The establish jobs of a link: `link_try_establish` attaches one to a session and starts a timer,
and `handle_establish_timeout` answers it and lets it go.

* `Aside`: what happens beside the jobs, and `Accounted.aside`, that it leaves them accounted for.
* `answered_exactly_once`: in a run that leaves alone the sessions whose timer runs, every attempt
  has exactly one answer, or none yet and a session that holds its job, with a timer for it.
* `oversized_introack_drops_job`: a packet that is too big removes a session with its job.
-/

namespace Udap.Iwp

open ByteMem

namespace Server

variable {σ ι : Type}

/-- The event deletes the session at `p`, or gives it another job. -/
def Ends (l : Server σ ι) (p : ℕ) (s : LinkSession σ ι) : LinkEvent σ ι → Prop
  | .tryEstablish _ dst => l.sessions dst = some p
  | .recvfrom _ src sz => l.sessions src = some p ∧ 256 ≤ sz ∧
      (s.core.state = .eInitial ∨ s.core.state = .eIntroSent)
  | .complete _ q job ok _ => q = p ∧ (job = .genIntroack ∨ job = .verifyIntroack) ∧
      s.introack.verifies = false ∧
      ((s.introack.after job ok).buf = false ∨ (l.sessions s.addr).isSome)
  | .tick now q => q = p ∧ (s.core.timedout now ∨ s.core.isInvalidated) ∧ s.working = false
  | .clear q => q = p
  | _ => False

/-- The event leaves the sessions with a running establish timer alone, and the ids of the timers
are not used up. -/
def Careful (l : Server σ ι) (e : LinkEvent σ ι) : Prop :=
  (∀ p s, l.heap p = some s → s.establishJobId ≠ 0 → ¬ l.Ends p s e) ∧ l.ids + 1 < 2 ^ 32

/-- The number of answers to an attempt. -/
def answersTo (k : ℕ) (l : Server σ ι) : ℕ := (l.answers.map Prod.fst).count k

/-- The session at `p` holds the job of an attempt. -/
def Holds (l : Server σ ι) (p k : ℕ) : Prop :=
  ∃ s, l.heap p = some s ∧ s.establishJob = some k

/-- The session at `p` has a timer that will answer for it. -/
def Timed (l : Server σ ι) (p : ℕ) : Prop := ∃ t ∈ l.timers, t.user = p

/-- The invariant of the establish jobs: a session has a job exactly while its timer runs, and an
attempt has an answer exactly when no session holds its job any more. -/
structure Accounted (l : Server σ ι) : Prop where
  ids : l.ids < 2 ^ 32
  fresh : ∀ p, l.made ≤ p → l.heap p = none
  addr : ∀ a p s, l.sessions a = some p → l.heap p = some s → s.addr = a
  made : ∀ a p, l.sessions a = some p → p < l.made
  timer : ∀ t ∈ l.timers, 0 < t.id ∧ t.id ≤ l.ids ∧
    ∃ s, l.heap t.user = some s ∧ s.establishJobId = t.id
  owner : ∀ t ∈ l.timers, ∀ t' ∈ l.timers, t.id = t'.id → t.user = t'.user
  idle : ∀ p s, l.heap p = some s → s.establishJobId = 0 → s.establishJob = none
  waiting : ∀ p s, l.heap p = some s → s.establishJobId ≠ 0 → ∃ k < l.attempts,
    s.establishJob = some k ∧ l.answersTo k = 0 ∧ l.Timed p
  once : ∀ p q k, l.Holds p k → l.Holds q k → p = q
  answered : ∀ k < l.attempts, l.answersTo k = 1 ∨ ∃ p, l.Holds p k
  unasked : ∀ k, l.attempts ≤ k → l.answersTo k = 0

/-- A link without sessions. -/
lemma accounted_init : Accounted ({} : Server σ ι) where
  ids := Nat.two_pow_pos 32
  fresh _ _ := rfl
  addr _ _ _ h := by cases h
  made _ _ h := by cases h
  timer _ h := by cases h
  owner _ h := by cases h
  idle _ _ h := by cases h
  waiting _ _ h := by cases h
  once _ _ _ h := by
    obtain ⟨s, hs, -⟩ := h
    cases hs
  answered _ h := absurd h (Nat.not_lt_zero _)
  unasked _ _ := rfl

/-- The same address, job and timer. -/
structure SameJob (s s' : LinkSession σ ι) : Prop where
  addr : s'.addr = s.addr
  job : s'.establishJob = s.establishJob
  id : s'.establishJobId = s.establishJobId

/-- What happens beside the establish jobs: sessions are made, and sessions without a timer are
deleted. -/
structure Aside (l l' : Server σ ι) : Prop where
  ids : l'.ids = l.ids
  attempts : l'.attempts = l.attempts
  answers : l'.answers = l.answers
  timers : l'.timers.map (fun t => (t.id, t.user)) = l.timers.map fun t => (t.id, t.user)
  made : l.made ≤ l'.made
  fresh : ∀ p, l'.made ≤ p → l.heap p = none → l'.heap p = none
  sessions : ∀ a p, l'.sessions a = some p → l.sessions a = some p ∨
    p < l'.made ∧ ∀ s, l'.heap p = some s → s.addr = a
  kept : ∀ p s', l'.heap p = some s' → (∃ s, l.heap p = some s ∧ SameJob s s') ∨
    l.made ≤ p ∧ s'.establishJob = none ∧ s'.establishJobId = 0
  lost : ∀ p s, l.heap p = some s → (∃ s', l'.heap p = some s' ∧ SameJob s s') ∨
    s.establishJobId = 0

section Aside

variable {l l' : Server σ ι}

lemma Aside.holds (ha : Aside l l') (h : Accounted l) {p k : ℕ} : l'.Holds p k ↔ l.Holds p k := by
  constructor
  · rintro ⟨s', hs', hk⟩
    rcases ha.kept p s' hs' with ⟨s, hs, hsame⟩ | ⟨-, hnone, -⟩
    · exact ⟨s, hs, hsame.job ▸ hk⟩
    · rw [hnone] at hk
      cases hk
  · rintro ⟨s, hs, hk⟩
    rcases ha.lost p s hs with ⟨s', hs', hsame⟩ | hid
    · exact ⟨s', hs', hsame.job.trans hk⟩
    · rw [h.idle p s hs hid] at hk
      cases hk

lemma Aside.mem_timers (ha : Aside l l') {i u : ℕ} :
    (∃ t ∈ l'.timers, t.id = i ∧ t.user = u) ↔ ∃ t ∈ l.timers, t.id = i ∧ t.user = u := by
  have hmem : (i, u) ∈ l'.timers.map (fun t => (t.id, t.user)) ↔
      (i, u) ∈ l.timers.map fun t => (t.id, t.user) := by rw [ha.timers]
  simpa [List.mem_map] using hmem

lemma Aside.timed (ha : Aside l l') {p : ℕ} (h : l.Timed p) : l'.Timed p := by
  obtain ⟨t, ht, hu⟩ := h
  obtain ⟨t', ht', -, hu'⟩ := ha.mem_timers.mpr ⟨t, ht, rfl, hu⟩
  exact ⟨t', ht', hu'⟩

/-- The establish jobs stay accounted for. -/
lemma Accounted.aside (h : Accounted l) (ha : Aside l l') : Accounted l' := by
  have hanswers : ∀ k, l'.answersTo k = l.answersTo k := fun k => by
    rw [answersTo, answersTo, ha.answers]
  refine ⟨?_, fun p hp => ?_, fun a p s hp hs => ?_, fun a p hp => ?_, fun t ht => ?_,
    fun t ht t' ht' heq => ?_, fun p s hs hid => ?_, fun p s hs hid => ?_,
    fun p q k hp hq => ?_, fun k hk => ?_, fun k hk => ?_⟩
  · rw [ha.ids]
    exact h.ids
  · exact ha.fresh p hp (h.fresh p (ha.made.trans hp))
  · rcases ha.sessions a p hp with hp | ⟨-, haddr⟩
    · rcases ha.kept p s hs with ⟨s₀, hs₀, hsame⟩ | ⟨hnew, -⟩
      · rw [hsame.addr, h.addr a p s₀ hp hs₀]
      · have := h.made a p hp
        omega
    · exact haddr s hs
  · rcases ha.sessions a p hp with hp | ⟨hlt, -⟩
    · exact (h.made a p hp).trans_le ha.made
    · exact hlt
  · obtain ⟨t₀, ht₀, hid, hu⟩ := ha.mem_timers.mp ⟨t, ht, rfl, rfl⟩
    obtain ⟨hpos, hle, s, hs, hsid⟩ := h.timer t₀ ht₀
    rw [hid] at hpos hle hsid
    rw [hu] at hs
    rcases ha.lost _ s hs with ⟨s', hs', hsame⟩ | hzero
    · exact ⟨hpos, ha.ids ▸ hle, s', hs', hsame.id.trans hsid⟩
    · omega
  · obtain ⟨t₀, ht₀, hid, hu⟩ := ha.mem_timers.mp ⟨t, ht, rfl, rfl⟩
    obtain ⟨t₁, ht₁, hid₁, hu₁⟩ := ha.mem_timers.mp ⟨t', ht', rfl, rfl⟩
    rw [← hu, ← hu₁]
    exact h.owner t₀ ht₀ t₁ ht₁ (hid.trans (heq.trans hid₁.symm))
  · rcases ha.kept p s hs with ⟨s₀, hs₀, hsame⟩ | ⟨-, hnone, -⟩
    · rw [hsame.job]
      exact h.idle p s₀ hs₀ (hsame.id ▸ hid)
    · exact hnone
  · rcases ha.kept p s hs with ⟨s₀, hs₀, hsame⟩ | ⟨-, -, hzero⟩
    · obtain ⟨k, hk, hjob, hans, htimed⟩ := h.waiting p s₀ hs₀ (hsame.id ▸ hid)
      exact ⟨k, ha.attempts ▸ hk, hsame.job.trans hjob, (hanswers k).trans hans, ha.timed htimed⟩
    · exact absurd hzero hid
  · exact h.once p q k ((ha.holds h).mp hp) ((ha.holds h).mp hq)
  · rcases h.answered k (ha.attempts ▸ hk) with hone | ⟨p, hp⟩
    · exact .inl ((hanswers k).trans hone)
    · exact .inr ⟨p, (ha.holds h).mpr hp⟩
  · exact (hanswers k).trans (h.unasked k (ha.attempts ▸ hk))

end Aside

/-! ### What the events do to the jobs -/

section Moves

variable {l l' : Server σ ι} {p : ℕ} {s s' : LinkSession σ ι}

lemma SameJob.refl (s : LinkSession σ ι) : SameJob s s := ⟨rfl, rfl, rfl⟩

/-- A session is written that keeps its job. -/
lemma aside_put (hs : l.heap p = some s) (hsame : SameJob s s') (hlt : p < l.made) :
    Aside l (l.put p s') where
  ids := rfl
  attempts := rfl
  answers := rfl
  timers := rfl
  made := le_rfl
  fresh q hq hnone := by
    rw [put_heap_of_ne (Nat.ne_of_gt (hlt.trans_le hq))]
    exact hnone
  sessions a q hq := .inl hq
  kept q t ht := by
    rcases heap_update_cases ht with ⟨rfl, heq⟩ | ⟨-, ht⟩
    · rw [← Option.some.inj heq]
      exact .inl ⟨s, hs, hsame⟩
    · exact .inl ⟨t, ht, .refl t⟩
  lost q t ht := by
    rcases eq_or_ne q p with rfl | hne
    · rw [← Option.some.inj (hs.symm.trans ht)]
      exact .inl ⟨s', put_heap_self .., hsame⟩
    · exact .inl ⟨t, (put_heap_of_ne hne ..).trans ht, .refl t⟩

/-- A session without a timer is deleted. -/
lemma aside_delete (hs : l.heap p = some s) (hid : s.establishJobId = 0) :
    Aside l (l.delete p) where
  ids := rfl
  attempts := rfl
  answers := rfl
  timers := rfl
  made := le_rfl
  fresh q hq hnone := by
    rcases eq_or_ne q p with rfl | hne
    · exact delete_heap_self ..
    · exact (delete_heap_of_ne hne ..).trans hnone
  sessions a q hq := .inl hq
  kept q t ht := by
    rcases heap_update_cases ht with ⟨-, heq⟩ | ⟨-, ht⟩
    · cases heq
    · exact .inl ⟨t, ht, .refl t⟩
  lost q t ht := by
    rcases eq_or_ne q p with rfl | hne
    · rw [← Option.some.inj (hs.symm.trans ht)]
      exact .inr hid
    · exact .inl ⟨t, (delete_heap_of_ne hne ..).trans ht, .refl t⟩

/-- A session is made. -/
lemma aside_createSession (p₀ : σ) (addr : ι) (hnone : l.heap l.made = none) :
    Aside l (l.createSession p₀ addr) where
  ids := rfl
  attempts := rfl
  answers := rfl
  timers := rfl
  made := Nat.le_succ _
  fresh q hq hnone := by
    have hne : q ≠ l.made := Nat.ne_of_gt (Nat.lt_of_succ_le hq)
    exact (put_heap_of_ne hne _ l).trans hnone
  sessions a q hq := .inl hq
  kept q t ht := by
    rcases heap_update_cases ht with ⟨rfl, heq⟩ | ⟨-, ht⟩
    · rw [← Option.some.inj heq]
      exact .inr ⟨le_rfl, rfl, rfl⟩
    · exact .inl ⟨t, ht, .refl t⟩
  lost q t ht := by
    have hne : q ≠ l.made := fun heq => by
      rw [heq, hnone] at ht
      cases ht
    exact .inl ⟨t, (put_heap_of_ne hne _ l).trans ht, .refl t⟩

/-- The map changes: an entry is removed, or one is added for a session of this address. -/
lemma aside_sessions {f : ι → Option ℕ} (h : ∀ a p, f a = some p → l.sessions a = some p ∨
    p < l.made ∧ ∀ s, l.heap p = some s → s.addr = a) : Aside l { l with sessions := f } where
  ids := rfl
  attempts := rfl
  answers := rfl
  timers := rfl
  made := le_rfl
  fresh _ _ hnone := hnone
  sessions := h
  kept _ t ht := .inl ⟨t, ht, .refl t⟩
  lost _ t ht := .inl ⟨t, ht, .refl t⟩

/-- A timer is canceled. -/
lemma aside_cancelCall (id : ℕ) : Aside l (l.cancelCall id) where
  ids := rfl
  attempts := rfl
  answers := rfl
  timers := by
    rw [cancelCall, List.map_map]
    refine List.map_congr_left fun t _ => ?_
    rw [Function.comp]
    split_ifs <;> rfl
  made := le_rfl
  fresh _ _ hnone := hnone
  sessions _ _ h := .inl h
  kept _ t ht := .inl ⟨t, ht, .refl t⟩
  lost _ t ht := .inl ⟨t, ht, .refl t⟩

variable [DecidableEq ι]

/-- An entry is removed from the map. -/
lemma aside_unmap (a : ι) : Aside l { l with sessions := Function.update l.sessions a none } := by
  refine aside_sessions fun b p hp => ?_
  rcases eq_or_ne b a with rfl | hne
  · rw [Function.update_self] at hp
    cases hp
  · rw [Function.update_of_ne hne] at hp
    exact .inl hp

lemma aside_putSession (hs : l.heap p = some s) (hlt : p < l.made) :
    Aside l (l.putSession s.addr p) := by
  refine aside_sessions fun b q hq => ?_
  rcases eq_or_ne b s.addr with rfl | hne
  · rw [Function.update_self] at hq
    cases hold : l.sessions s.addr with
    | none =>
        rw [hold] at hq
        obtain rfl := Option.some.inj hq
        exact .inr ⟨hlt, fun t ht => by rw [← Option.some.inj (hs.symm.trans ht)]⟩
    | some q' =>
        rw [hold] at hq
        exact .inl hq
  · rw [Function.update_of_ne hne] at hq
    exact .inl hq

end Moves

/-! ### Attempts and answers -/

section Answers

variable {l l' : Server σ ι} {p : ℕ} {s : LinkSession σ ι}

lemma Accounted.lt_made (h : Accounted l) (hs : l.heap p = some s) : p < l.made := by
  by_contra hge
  rw [h.fresh p (not_lt.mp hge)] at hs
  cases hs

/-- The number of an attempt with a job is below the count. -/
lemma Accounted.lt_attempts (h : Accounted l) {k : ℕ} (hk : l.Holds p k) : k < l.attempts := by
  obtain ⟨s, hs, hjob⟩ := hk
  by_cases hid : s.establishJobId = 0
  · rw [h.idle p s hs hid] at hjob
    cases hjob
  · obtain ⟨k', hlt, hjob', -⟩ := h.waiting p s hs hid
    rw [hjob] at hjob'
    rwa [Option.some.inj hjob']

/-- The session `s` at `p` is written, which keeps its address; the map and the other sessions
stay. -/
structure Rewrites (l l' : Server σ ι) (p : ℕ) (s s' : LinkSession σ ι) : Prop where
  before : l.heap p = some s
  self : l'.heap p = some s'
  other : ∀ q, q ≠ p → l'.heap q = l.heap q
  addr : s'.addr = s.addr
  sessions : l'.sessions = l.sessions
  made : l'.made = l.made

namespace Rewrites

variable {s' : LinkSession σ ι}

lemma fresh (w : Rewrites l l' p s s') (h : Accounted l) (q : ℕ) (hq : l'.made ≤ q) :
    l'.heap q = none := by
  rw [w.made] at hq
  rw [w.other q (Nat.ne_of_gt ((h.lt_made w.before).trans_le hq))]
  exact h.fresh q hq

lemma addressed (w : Rewrites l l' p s s') (h : Accounted l) (a : ι) (q : ℕ)
    (t : LinkSession σ ι) (hq : l'.sessions a = some q) (ht : l'.heap q = some t) : t.addr = a := by
  rw [w.sessions] at hq
  rcases eq_or_ne q p with rfl | hne
  · rw [← Option.some.inj (w.self.symm.trans ht), w.addr]
    exact h.addr a q s hq w.before
  · exact h.addr a q t hq ((w.other q hne).symm.trans ht)

lemma lt_made (w : Rewrites l l' p s s') (h : Accounted l) (a : ι) (q : ℕ)
    (hq : l'.sessions a = some q) : q < l'.made := by
  rw [w.sessions] at hq
  rw [w.made]
  exact h.made a q hq

/-- Who holds a job has it since now, or is another one that had it before. -/
lemma holds (w : Rewrites l l' p s s') {q k : ℕ} (hq : l'.Holds q k) :
    q = p ∧ s'.establishJob = some k ∨ q ≠ p ∧ l.Holds q k := by
  obtain ⟨t, ht, hk⟩ := hq
  rcases eq_or_ne q p with rfl | hne
  · rw [← Option.some.inj (w.self.symm.trans ht)] at hk
    exact .inl ⟨rfl, hk⟩
  · exact .inr ⟨hne, t, (w.other q hne).symm.trans ht, hk⟩

/-- Who held another job than the session that is written holds it still. -/
lemma holds_of_ne (w : Rewrites l l' p s s') {q k : ℕ} (hne : s.establishJob ≠ some k)
    (hq : l.Holds q k) : l'.Holds q k := by
  obtain ⟨t, ht, hk⟩ := hq
  refine ⟨t, (w.other q fun heq => hne ?_).trans ht, hk⟩
  rw [heq, w.before] at ht
  rw [Option.some.inj ht, hk]

lemma idle (w : Rewrites l l' p s s') (h : Accounted l)
    (hself : s'.establishJobId = 0 → s'.establishJob = none) (q : ℕ) (t : LinkSession σ ι)
    (ht : l'.heap q = some t) (hzero : t.establishJobId = 0) : t.establishJob = none := by
  rcases eq_or_ne q p with rfl | hne
  · obtain rfl := Option.some.inj (w.self.symm.trans ht)
    exact hself hzero
  · exact h.idle q t ((w.other q hne).symm.trans ht) hzero

end Rewrites

/-- A session without a running timer takes a job. -/
lemma Accounted.attach (h : Accounted l) (hs : l.heap p = some s) (hid : s.establishJobId = 0)
    (hids : l.ids + 1 < 2 ^ 32) (now : UInt64) : Accounted (l.attach now p s) := by
  have hmod : (l.ids + 1) % 2 ^ 32 = l.ids + 1 := Nat.mod_eq_of_lt hids
  obtain ⟨s', w, hjob', hid'⟩ : ∃ s', Rewrites l (l.attach now p s) p s s' ∧
      s'.establishJob = some l.attempts ∧ s'.establishJobId = l.ids + 1 :=
    ⟨_, ⟨hs, put_heap_self p _ l, fun _ hq => put_heap_of_ne hq _ l, rfl, rfl, rfl⟩, rfl, hmod⟩
  have htimers : ∀ t, t ∈ (l.attach now p s).timers ↔
      t ∈ l.timers ∨ t = { id := l.ids + 1, user := p, started := now } := by
    intro t
    have htimers : (l.attach now p s).timers = l.timers.filter (·.id ≠ (l.ids + 1) % 2 ^ 32) ++
        [{ id := (l.ids + 1) % 2 ^ 32, user := p, started := now }] := rfl
    rw [htimers, hmod, List.mem_append, List.mem_singleton, List.mem_filter]
    refine or_congr_left ⟨And.left, fun ht => ⟨ht, ?_⟩⟩
    have := (h.timer t ht).2.1
    simp
    omega
  -- a session with a timer is another one
  have hother : ∀ t ∈ l.timers, t.user ≠ p := by
    intro t ht heq
    obtain ⟨hpos, -, s₁, hs₁, hid₁⟩ := h.timer t ht
    rw [heq, hs] at hs₁
    rw [← Option.some.inj hs₁] at hid₁
    omega
  -- and a session that holds the new job is this one
  have hnew {q k : ℕ} (hq : (l.attach now p s).Holds q k) :
      q = p ∧ k = l.attempts ∨ q ≠ p ∧ k < l.attempts ∧ l.Holds q k := by
    rcases w.holds hq with ⟨hqp, hk⟩ | ⟨hne, hq⟩
    · rw [hjob'] at hk
      exact .inl ⟨hqp, (Option.some.inj hk).symm⟩
    · exact .inr ⟨hne, h.lt_attempts hq, hq⟩
  refine ⟨hids, w.fresh h, w.addressed h, w.lt_made h, fun t ht => ?_, fun t ht t' ht' heq => ?_,
    w.idle h fun hzero => by omega, fun q t ht hpos => ?_, fun q r k hq hr => ?_, fun k hk => ?_,
    fun k hk => h.unasked k (Nat.le_of_succ_le hk)⟩
  · rcases (htimers t).mp ht with ht | rfl
    · obtain ⟨hpos, hle, s₁, hs₁, hid₁⟩ := h.timer t ht
      exact ⟨hpos, Nat.le_succ_of_le hle, s₁, (w.other _ (hother t ht)).trans hs₁, hid₁⟩
    · exact ⟨Nat.succ_pos _, le_rfl, s', w.self, hid'⟩
  · rcases (htimers t).mp ht with ht | rfl
    · rcases (htimers t').mp ht' with ht' | rfl
      · exact h.owner t ht t' ht' heq
      · have := (h.timer t ht).2.1
        have heq : t.id = l.ids + 1 := heq
        omega
    · rcases (htimers t').mp ht' with ht' | rfl
      · have := (h.timer t' ht').2.1
        have heq : l.ids + 1 = t'.id := heq
        omega
      · rfl
  · rcases eq_or_ne q p with rfl | hne
    · refine ⟨l.attempts, Nat.lt_succ_self _, ?_, h.unasked _ le_rfl, _,
        (htimers _).mpr (.inr rfl), rfl⟩
      rw [← Option.some.inj (w.self.symm.trans ht), hjob']
    · obtain ⟨k, hk, hjob, hans, t₁, ht₁, hu⟩ :=
        h.waiting q t ((w.other q hne).symm.trans ht) hpos
      exact ⟨k, Nat.lt_succ_of_lt hk, hjob, hans, t₁, (htimers _).mpr (.inl ht₁), hu⟩
  -- the new job has a number of its own, so nobody else holds it
  · rcases hnew hq with ⟨hqp, hkq⟩ | ⟨-, hlt, hq₀⟩
    · rcases hnew hr with ⟨hrp, -⟩ | ⟨-, hlt, -⟩
      · rw [hqp, hrp]
      · exact absurd hlt (hkq ▸ lt_irrefl _)
    · rcases hnew hr with ⟨-, hkr⟩ | ⟨-, -, hr₀⟩
      · exact absurd hlt (hkr ▸ lt_irrefl _)
      · exact h.once q r k hq₀ hr₀
  · rcases Nat.lt_succ_iff_lt_or_eq.mp hk with hk | rfl
    -- a session without a timer holds no job, so no job is lost here
    · refine (h.answered k hk).imp_right (Exists.imp fun q => w.holds_of_ne ?_)
      rw [h.idle p s hs hid]
      exact nofun
    · exact .inr ⟨p, s', w.self, hjob'⟩

/-- A timer answers for the job of its session, which lets it go. -/
lemma Accounted.timeout (h : Accounted l) {t : Timer} (ht : t ∈ l.timers)
    (hs : l.heap t.user = some s) :
    Accounted ((l.removeCall t.id).handleEstablishTimeout t.user s) := by
  obtain ⟨hpos, hle, s₁, hs₁, hid⟩ := h.timer t ht
  obtain rfl := Option.some.inj (hs.symm.trans hs₁)
  obtain ⟨k, hk, hjob, hans, -⟩ := h.waiting t.user s hs (by omega)
  obtain ⟨l', hl'⟩ : ∃ l', l' = (l.removeCall t.id).handleEstablishTimeout t.user s := ⟨_, rfl⟩
  rw [← hl']
  rw [handleEstablishTimeout, hjob] at hl'
  obtain ⟨s', w, hjob', hid'⟩ : ∃ s', Rewrites l l' t.user s s' ∧ s'.establishJob = none ∧
      s'.establishJobId = 0 := by
    rw [hl']
    exact ⟨_, ⟨hs, put_heap_self _ _ (l.removeCall t.id),
      fun _ hq => put_heap_of_ne hq _ (l.removeCall t.id), rfl, rfl, rfl⟩, rfl, rfl⟩
  have htimers : ∀ t', t' ∈ l'.timers ↔ t' ∈ l.timers ∧ t'.id ≠ t.id := by
    rw [hl']
    intro t'
    show t' ∈ l.timers.filter (·.id ≠ t.id) ↔ _
    rw [List.mem_filter, decide_eq_true_iff]
  have hanswers : ∀ j, l'.answersTo j = l.answersTo j + if k = j then 1 else 0 := by
    rw [hl']
    intro j
    show ((l.answers ++ [(k, s.core.isEstablished)]).map Prod.fst).count j = _
    rw [List.map_append, List.count_append, answersTo]
    simp [List.count_singleton]
  -- whoever holds a job held it before, and nobody else had this one
  have hheld {q j : ℕ} (hq : l'.Holds q j) : l.Holds q j := by
    refine ((w.holds hq).resolve_left fun hnew => ?_).2
    rw [hjob'] at hnew
    cases hnew.2
  have hmine : ∀ {q}, l.Holds q k → q = t.user := fun hq => h.once _ _ k hq ⟨s, hs, hjob⟩
  have hids : l'.ids = l.ids := by rw [hl']; rfl
  have hattempts : l'.attempts = l.attempts := by rw [hl']; rfl
  refine ⟨hids ▸ h.ids, w.fresh h, w.addressed h, w.lt_made h, fun t' ht' => ?_,
    fun t₁ h₁ t₂ h₂ heq => h.owner t₁ ((htimers t₁).mp h₁).1 t₂ ((htimers t₂).mp h₂).1 heq,
    w.idle h fun _ => hjob', fun q s₂ hs₂ hne => ?_,
    fun q r j hq hr => h.once q r j (hheld hq) (hheld hr), fun j hj => ?_, fun j hj => ?_⟩
  · obtain ⟨ht', hne⟩ := (htimers t').mp ht'
    obtain ⟨hpos', hle', s₂, hs₂, hid₂⟩ := h.timer t' ht'
    -- a session has one timer, and that of this one is gone
    have hother : t'.user ≠ t.user := fun heq => by
      rw [heq, hs] at hs₂
      rw [← Option.some.inj hs₂, hid] at hid₂
      exact hne hid₂.symm
    exact ⟨hpos', hids ▸ hle', s₂, (w.other _ hother).trans hs₂, hid₂⟩
  · rcases eq_or_ne q t.user with rfl | hother
    · rw [← Option.some.inj (w.self.symm.trans hs₂)] at hne
      exact absurd hid' hne
    · have hs₂ := (w.other q hother).symm.trans hs₂
      obtain ⟨j, hj, hjob₂, hans₂, t₁, ht₁, hu⟩ := h.waiting q s₂ hs₂ hne
      have hkj : k ≠ j := fun heq => hother (hmine ⟨s₂, hs₂, heq ▸ hjob₂⟩)
      refine ⟨j, hattempts ▸ hj, hjob₂, ?_, t₁, (htimers t₁).mpr ⟨ht₁, fun heq => ?_⟩, hu⟩
      · rw [hanswers, hans₂, if_neg hkj]
      · exact hother (hu ▸ h.owner t₁ ht₁ t ht heq)
  · rw [hattempts] at hj
    rw [hanswers]
    -- the job of the timer is answered now and not held any more, the others are as before
    by_cases hkj : k = j
    · rw [← hkj, hans, if_pos rfl]
      exact .inl rfl
    · rw [if_neg hkj]
      refine (h.answered j hj).imp_right (Exists.imp fun q => w.holds_of_ne ?_)
      rw [hjob]
      exact fun heq => hkj (Option.some.inj heq)
  · rw [hattempts] at hj
    rw [hanswers, h.unasked j hj, if_neg (by omega)]

/-- Someone else starts a timer. -/
lemma Accounted.otherTimer (h : Accounted l) (hids : l.ids + 1 < 2 ^ 32) :
    Accounted { l.removeCall ((l.ids + 1) % 2 ^ 32) with ids := l.ids + 1 } := by
  have htimers : (l.removeCall ((l.ids + 1) % 2 ^ 32)).timers = l.timers := by
    rw [Nat.mod_eq_of_lt hids]
    refine List.filter_eq_self.mpr fun t ht => ?_
    have := (h.timer t ht).2.1
    simp
    omega
  refine ⟨hids, h.fresh, h.addr, h.made, fun t ht => ?_, fun t ht t' ht' => ?_, h.idle,
    fun p s hs hid => ?_, h.once, h.answered, h.unasked⟩
  · obtain ⟨hpos, hle, hrest⟩ := h.timer t (htimers ▸ ht)
    exact ⟨hpos, Nat.le_succ_of_le hle, hrest⟩
  · exact h.owner t (htimers ▸ ht) t' (htimers ▸ ht')
  · obtain ⟨k, hk, hjob, hans, t, ht, hu⟩ := h.waiting p s hs hid
    exact ⟨k, hk, hjob, hans, t, htimers.symm ▸ ht, hu⟩

end Answers

/-! ### Runs -/

section Handlers

variable {s : LinkSession σ ι}

lemma sameJob_handleGeneratedIntro (now : UInt64) (sent : Bool) :
    SameJob s (s.handleGeneratedIntro now sent) := by
  rw [LinkSession.handleGeneratedIntro]
  split_ifs <;> exact ⟨rfl, rfl, rfl⟩

lemma sameJob_handleVerifyIntro : SameJob s s.handleVerifyIntro := by
  rw [LinkSession.handleVerifyIntro]
  split_ifs <;> exact ⟨rfl, rfl, rfl⟩

lemma sameJob_handleVerifyIntroack (now : UInt64) : SameJob s (s.handleVerifyIntroack now) := by
  rw [LinkSession.handleVerifyIntroack]
  split_ifs <;> exact ⟨rfl, rfl, rfl⟩

lemma sameJob_handleVerifySessionStart (env : LinkEnv σ) (now : UInt64) :
    SameJob s (s.handleVerifySessionStart env now) := by
  rw [LinkSession.handleVerifySessionStart]
  split_ifs <;> exact ⟨rfl, rfl, rfl⟩

lemma SameJob.trans {s' s'' : LinkSession σ ι} (h : SameJob s s') (h' : SameJob s' s'') :
    SameJob s s'' := ⟨h'.addr.trans h.addr, h'.job.trans h.job, h'.id.trans h.id⟩

end Handlers

section Step

variable {env : LinkEnv σ} {p₀ : σ} {l l' : Server σ ι} {p : ℕ} {s : LinkSession σ ι}

/-- A session is written that keeps its job. -/
lemma Accounted.put (h : Accounted l) (hs : l.heap p = some s) {s' : LinkSession σ ι}
    (hsame : SameJob s s') : Accounted (l.put p s') :=
  h.aside (aside_put hs hsame (h.lt_made hs))

/-- A session is removed only when it is over and no job is at work. -/
lemma over_of_tick {c : Session σ} {now : UInt64} {working : Bool} {done : Session σ × Bool}
    (h : (c.tick now working).toOption = some done) (hremove : done.2 = true) :
    (c.timedout now ∨ c.isInvalidated) ∧ working = false := by
  have h := Session.eq_ok_of_toOption h
  rw [Session.tick] at h
  split_ifs at h with htime hinvalid
  · rw [← Except.ok.inj h] at hremove
    exact ⟨.inl htime, by simpa using hremove⟩
  · rw [← Except.ok.inj h] at hremove
    exact ⟨.inr hinvalid, by simpa using hremove⟩
  · obtain ⟨c', -, h⟩ := Session.bind_eq_ok h
    rw [← Except.ok.inj h] at hremove
    cases hremove

lemma Accounted.createSession (h : Accounted l) (p₀ : σ) (addr : ι) :
    Accounted (l.createSession p₀ addr) :=
  h.aside (aside_createSession p₀ addr (h.fresh _ le_rfl))

lemma Accounted.completeIntro (h : Accounted l) (hs : l.heap p = some s) {now : UInt64}
    {job : CryptoJob} {ok sent : Bool} (hl : l.completeIntro now p job ok sent s = some l') :
    Accounted l' := by
  have hstart : SameJob s { s with jobs := s.jobs.erase job, intro := s.intro.after job ok } :=
    ⟨rfl, rfl, rfl⟩
  rw [Server.completeIntro] at hl
  split_ifs at hl
  · rw [← Option.some.inj hl]
    exact h.put hs (hstart.trans sameJob_handleVerifyIntro)
  · rw [← Option.some.inj hl]
    exact h.put hs (hstart.trans (sameJob_handleGeneratedIntro now sent))

lemma Accounted.decrypted (h : Accounted l) (hs : l.heap p = some s) {now : UInt64}
    {frame : Option (Bytes × ℕ)} (hl : l.decrypted env now p frame s = some l') :
    Accounted l' := by
  cases frame with
  | none =>
      rw [← Option.some.inj hl]
      exact h.put hs ⟨rfl, rfl, rfl⟩
  | some f =>
      obtain ⟨core, -, rfl⟩ := Option.map_eq_some_iff.mp hl
      rw [processed]
      split_ifs
      · refine Accounted.aside ?_ (aside_cancelCall _)
        exact h.put hs ⟨rfl, rfl, rfl⟩
      · exact h.put hs ⟨rfl, rfl, rfl⟩

lemma Accounted.completeSessionStart (h : Accounted l) (hs : l.heap p = some s) {now : UInt64}
    {job : CryptoJob} {ok : Bool} (hl : l.completeSessionStart env now p job ok s = some l') :
    Accounted l' := by
  have hstart : SameJob s { s with jobs := s.jobs.erase job, start := s.start.after job ok } :=
    ⟨rfl, rfl, rfl⟩
  rw [Server.completeSessionStart] at hl
  split_ifs at hl
  · rw [← Option.some.inj hl]
    exact h.put hs (hstart.trans (sameJob_handleVerifySessionStart env now))
  · rw [← Option.some.inj hl]
    exact h.put hs ⟨rfl, rfl, rfl⟩

lemma Accounted.onCore (h : Accounted l) {f : Session σ → Session σ}
    (hl : l.onCore p f = some l') : Accounted l' := by
  obtain ⟨s, hs, rfl⟩ := Option.map_eq_some_iff.mp hl
  exact h.put hs ⟨rfl, rfl, rfl⟩

variable [DecidableEq ι]

/-- `RemoveSessionByAddr` for a session without a timer. -/
lemma Accounted.removeSessionByAddr (h : Accounted l) {a : ι} (ha : l.sessions a = some p)
    (hs : l.heap p = some s) (hid : s.establishJobId = 0)
    (hl : l.removeSessionByAddr a = some l') : Accounted l' := by
  have hl' : { l.delete p with sessions := Function.update l.sessions a none } = l' := by
    rw [Server.removeSessionByAddr, ha] at hl
    simp only [hs, Option.map_some, Server.done, if_pos hid] at hl
    exact Option.some.inj hl
  rw [← hl']
  exact (h.aside (aside_delete hs hid)).aside (aside_unmap a)

/-- What `recv` does with a packet, where it does not delete a session whose timer runs. -/
lemma Accounted.recv (h : Accounted l) (hs : l.heap p = some s) {now : UInt64} {sz : ℕ}
    (hmap : s.core.state = .eIntroSent → l.sessions s.addr = some p)
    (hbig : 256 ≤ sz → s.core.state = .eInitial ∨ s.core.state = .eIntroSent →
      s.establishJobId = 0) (hl : l.recv now p s sz = some l') : Accounted l' := by
  have hframe : (if sz ≤ 64 then some l else if sz > 1500 then none
      else some (l.put p (s.queue .decryptFrame))) = some l' → Accounted l' := by
    intro hl
    split_ifs at hl
    · rw [← Option.some.inj hl]
      exact h
    · rw [← Option.some.inj hl]
      exact h.put hs ⟨rfl, rfl, rfl⟩
  rw [Server.recv] at hl
  split at hl
  · rename_i hstate
    split_ifs at hl with hsz
    · rw [← Option.some.inj hl]
      exact h.aside (aside_delete hs (hbig hsz (.inl hstate)))
    · rw [← Option.some.inj hl]
      exact h.put hs ⟨rfl, rfl, rfl⟩
  · rename_i hstate
    split_ifs at hl with hsz
    · exact h.removeSessionByAddr (hmap hstate) hs (hbig hsz (.inr hstate)) hl
    · rw [← Option.some.inj hl]
      exact h.put hs ⟨rfl, rfl, rfl⟩
  · split_ifs at hl
    · rw [← Option.some.inj hl]
      exact h
    · rw [← Option.some.inj hl]
      exact h.put hs ⟨rfl, rfl, rfl⟩
  · exact hframe hl
  · exact hframe hl
  · exact hframe hl
  · rw [← Option.some.inj hl]
    exact h
  · rw [← Option.some.inj hl]
    exact h
  · rw [← Option.some.inj hl]
    exact h

/-- An intro ack that is generated for a session that is in the map deletes it. -/
lemma Accounted.completeIntroack (h : Accounted l) (hs : l.heap p = some s) {now : UInt64}
    {job : CryptoJob} {ok sent : Bool} (hends : s.introack.verifies = false →
      ((s.introack.after job ok).buf = false ∨ (l.sessions s.addr).isSome) → s.establishJobId = 0)
    (hl : l.completeIntroack now p job ok sent s = some l') : Accounted l' := by
  have hstart : SameJob s
      { s with jobs := s.jobs.erase job, introack := s.introack.after job ok } :=
    ⟨rfl, rfl, rfl⟩
  rw [Server.completeIntroack] at hl
  split_ifs at hl with hbuf hverifies
  · rw [← Option.some.inj hl]
    exact h.put hs (hstart.trans (sameJob_handleVerifyIntroack now))
  · rw [← Option.some.inj hl, handleIntroackGenerated]
    have hends := hends (Bool.eq_false_of_not_eq_true hverifies)
    have hput := h.aside (aside_putSession hs (h.lt_made hs))
    have hs' : (l.putSession s.addr p).heap p = some s := hs
    split_ifs with hnew hmap hsent
    · exact h.aside (aside_delete hs (hends (.inr hmap)))
    · exact hput.put hs' ⟨rfl, rfl, rfl⟩
    · exact hput.put hs' ⟨rfl, rfl, rfl⟩
    · exact h.aside (aside_delete hs (hends (.inl (Bool.eq_false_of_not_eq_true hnew))))

/-- A session that held no job is found or made, and takes one. -/
lemma Accounted.tryEstablish (h : Accounted l) {now : UInt64} {dst : ι}
    (hids : l.ids + 1 < 2 ^ 32)
    (hidle : ∀ p s, l.sessions dst = some p → l.heap p = some s → s.establishJobId = 0)
    (hl : l.tryEstablish p₀ now dst = some l') : Accounted l' := by
  rw [Server.tryEstablish] at hl
  cases hfind : l.sessions dst with
  | some p =>
      rw [hfind] at hl
      obtain ⟨s, hs, rfl⟩ := Option.map_eq_some_iff.mp hl
      exact h.attach hs (hidle p s hfind hs) hids now
  | none =>
      rw [hfind] at hl
      have hnew : (l.createSession p₀ dst).heap l.made = some (.new p₀ dst) := put_heap_self ..
      have hput := (h.createSession p₀ dst).aside
        (aside_putSession hnew (Nat.lt_succ_self _))
      rw [← Option.some.inj hl]
      exact hput.attach (put_heap_self ..) rfl hids now

lemma Accounted.tick (h : Accounted l) (hs : l.heap p = some s) {now : UInt64}
    (hmap : l.sessions s.addr = some p)
    (hidle : s.core.timedout now ∨ s.core.isInvalidated → s.working = false →
      s.establishJobId = 0) (hl : l.tick now p s = some l') : Accounted l' := by
  obtain ⟨done, hdone, hl⟩ := Option.bind_eq_some_iff.mp hl
  have hput : Accounted (l.put p { s with core := done.1 }) := h.put hs ⟨rfl, rfl, rfl⟩
  split_ifs at hl with hremove
  · -- the session is only removed when it is over and nothing is at work
    have hover : (s.core.timedout now ∨ s.core.isInvalidated) ∧ s.working = false := by
      exact over_of_tick hdone hremove
    exact hput.removeSessionByAddr (s := { s with core := done.1 }) hmap (put_heap_self ..)
      (hidle hover.1 hover.2) hl
  · rw [← Option.some.inj hl]
    exact hput

/-- One event. -/
lemma Accounted.step (h : Accounted l) {e : LinkEvent σ ι} (hc : Careful l e)
    (hl : l.step env p₀ e = some l') : Accounted l' := by
  obtain ⟨hends, hids⟩ := hc
  -- what the condition says: a session that ends has no timer
  have hidle : ∀ p s, l.heap p = some s → l.Ends p s e → s.establishJobId = 0 := fun p s hs he =>
    by_contra fun hne => hends p s hs hne he
  cases e with
  | tryEstablish now dst => exact h.tryEstablish hids (fun p s hmap hs => hidle p s hs hmap) hl
  | recvfrom now src sz =>
      rw [Server.step, Server.recvfrom] at hl
      cases hfind : l.sessions src with
      | some p =>
          rw [hfind] at hl
          obtain ⟨s, hs, hl⟩ := Option.bind_eq_some_iff.mp hl
          refine h.recv hs (fun _ => ?_) (fun hsz hstate => hidle p s hs ⟨hfind, hsz, hstate⟩) hl
          rw [h.addr src p s hfind hs]
          exact hfind
      | none =>
          rw [hfind] at hl
          refine (h.createSession p₀ src).recv (put_heap_self ..) (fun hstate => ?_)
            (fun _ _ => rfl) hl
          cases hstate
  | complete now p job ok sent =>
      obtain ⟨s, hs, hl⟩ := Option.bind_eq_some_iff.mp hl
      split_ifs at hl
      have hidle := hidle p s hs
      cases job with
      | genIntro => exact h.completeIntro hs hl
      | verifyIntro => exact h.completeIntro hs hl
      | genIntroack =>
          exact h.completeIntroack hs (fun hv hb => hidle ⟨rfl, .inl rfl, hv, hb⟩) hl
      | verifyIntroack =>
          exact h.completeIntroack hs (fun hv hb => hidle ⟨rfl, .inr rfl, hv, hb⟩) hl
      | genSessionStart => exact h.completeSessionStart hs hl
      | verifySessionStart => exact h.completeSessionStart hs hl
      | decryptFrame => cases hl
  | decrypted now p frame =>
      obtain ⟨s, hs, hl⟩ := Option.bind_eq_some_iff.mp hl
      split_ifs at hl
      exact h.decrypted hs hl
  | timer now t =>
      obtain ⟨s, hs, hl⟩ := Option.bind_eq_some_iff.mp hl
      split_ifs at hl with hdue
      rw [← Option.some.inj hl]
      exact h.timeout hdue.1 hs
  | otherTimer =>
      rw [← Option.some.inj hl]
      exact h.otherTimer hids
  | tick now p =>
      obtain ⟨s, hs, hl⟩ := Option.bind_eq_some_iff.mp hl
      split_ifs at hl with hmap
      exact h.tick hs hmap (fun hover hworking => hidle p s hs ⟨rfl, hover, hworking⟩) hl
  | send p m =>
      have hl : l.onCore p (fun s => s.sendto env m) = some l' := hl
      exact h.onCore hl
  | close p => exact h.onCore hl
  | keepalive p => exact h.onCore hl
  | peer p x =>
      have hl : l.onCore p (fun s => { s with peer := x }) = some l' := hl
      exact h.onCore hl
  | clear p =>
      obtain ⟨s, hs, hl⟩ := Option.bind_eq_some_iff.mp hl
      split_ifs at hl
      rw [← Option.some.inj hl]
      exact (h.aside (aside_delete hs (hidle p s hs rfl))).aside (aside_unmap s.addr)

end Step

/-- A link in a run from one without sessions, whose events meet `C`. -/
def ReachableBy [DecidableEq ι] (env : LinkEnv σ) (p₀ : σ)
    (C : Server σ ι → LinkEvent σ ι → Prop) (l : Server σ ι) : Prop :=
  Relation.ReflTransGen (fun l l' => ∃ e, C l e ∧ l.step env p₀ e = some l') {} l

lemma ReachableBy.accounted [DecidableEq ι] {env : LinkEnv σ} {p₀ : σ} {l : Server σ ι}
    (h : ReachableBy env p₀ Careful l) : Accounted l := by
  induction h with
  | refl => exact accounted_init
  | tail _ hstep ih =>
      obtain ⟨e, hc, hl⟩ := hstep
      exact ih.step hc hl

/-- In a run that leaves alone the sessions whose establish timer runs, every attempt has exactly
one answer and no session with its job, or no answer yet, one session that holds its job, and a
timer for it. -/
theorem answered_exactly_once [DecidableEq ι] (env : LinkEnv σ) (p₀ : σ) (l : Server σ ι)
    (h : ReachableBy env p₀ Careful l) (k : ℕ) (hk : k < l.attempts) :
    l.answersTo k = 1 ∧ (∀ p, ¬ l.Holds p k) ∨
      l.answersTo k = 0 ∧ ∃ p, l.Holds p k ∧ (∀ q, l.Holds q k → q = p) ∧ l.Timed p := by
  have hacc := h.accounted
  by_cases hheld : ∃ p, l.Holds p k
  · obtain ⟨p, s, hs, hjob⟩ := hheld
    have hid : s.establishJobId ≠ 0 := fun hzero => by
      rw [hacc.idle p s hs hzero] at hjob
      cases hjob
    obtain ⟨k', -, hjob', hans, htimed⟩ := hacc.waiting p s hs hid
    rw [hjob] at hjob'
    rw [← Option.some.inj hjob'] at hans
    exact .inr ⟨hans, p, ⟨s, hs, hjob⟩, fun q hq => hacc.once q p k hq ⟨s, hs, hjob⟩, htimed⟩
  · rcases hacc.answered k hk with hone | hheld'
    · exact .inl ⟨hone, fun p hp => hheld ⟨p, hp⟩⟩
    · exact absurd hheld' hheld

/-- An attempt is answered when its timer runs out. -/
theorem answered_exactly_once_timeout :
    ∃ l : Server Unit Unit, 0 < l.attempts ∧ l.answersTo 0 = 1 ∧ ∀ p, ¬ l.Holds p 0 := by
  let env := LinkEnv.discarding (List.Vector.replicate 32 0)
  obtain ⟨l₁, h₁⟩ : ∃ l₁ : Server Unit Unit,
      ({} : Server Unit Unit).step env () (.tryEstablish 0 ()) = some l₁ := ⟨_, rfl⟩
  obtain ⟨l₂, h₂, hattempts, hanswers⟩ : ∃ l₂,
      l₁.step env () (.timer 5000 ⟨1, 0, 0, false⟩) = some l₂ ∧ 0 < l₂.attempts ∧
        l₂.answersTo 0 = 1 := by
    obtain rfl := Option.some.inj h₁
    exact ⟨_, rfl, Nat.zero_lt_one, rfl⟩
  have hfirst : Careful ({} : Server Unit Unit) (.tryEstablish 0 () : LinkEvent Unit Unit) :=
    ⟨fun _ _ hs => (by cases hs), by decide⟩
  have hsecond : Careful l₁ (.timer 5000 ⟨1, 0, 0, false⟩ : LinkEvent Unit Unit) := by
    obtain rfl := Option.some.inj h₁
    exact ⟨fun _ _ _ _ => id, by decide⟩
  have hreach : ReachableBy env () Careful l₂ := .tail (.single ⟨_, hfirst, h₁⟩) ⟨_, hsecond, h₂⟩
  refine ⟨l₂, hattempts, hanswers, ?_⟩
  rcases answered_exactly_once env () l₂ hreach 0 hattempts with ⟨-, hfree⟩ | ⟨hzero, -⟩
  · exact hfree
  · rw [hanswers] at hzero
    cases hzero

/-- An intro ack of 256 bytes removes the session, and nobody hears of its job. -/
theorem oversized_introack_drops_job : ¬ ∀ (env : LinkEnv Unit) (l : Server Unit Unit),
    ReachableBy env () (fun _ _ => True) l → ∀ k < l.attempts,
    l.answersTo k = 1 ∨ ∃ p, l.Holds p k := by
  intro h
  let env := LinkEnv.discarding (List.Vector.replicate 32 0)
  -- the only session that is ever made is the one at `0`
  obtain ⟨l₁, h₁, hheap₁⟩ : ∃ l₁, ({} : Server Unit Unit).step env () (.tryEstablish 0 ()) =
      some l₁ ∧ ∀ p ≠ 0, l₁.heap p = none := by
    refine ⟨_, rfl, fun p hp => ?_⟩
    exact (put_heap_of_ne hp _ _).trans (put_heap_of_ne hp _ _)
  obtain ⟨l₂, h₂, hheap₂⟩ : ∃ l₂, l₁.step env () (.complete 0 0 .genIntro true true) =
      some l₂ ∧ ∀ p ≠ 0, l₂.heap p = none := by
    obtain rfl := Option.some.inj h₁
    exact ⟨_, rfl, fun p hp => (put_heap_of_ne hp _ _).trans (hheap₁ p hp)⟩
  obtain ⟨l₃, h₃, hheap₃⟩ : ∃ l₃, l₂.step env () (.recvfrom 0 () 256) = some l₃ ∧
      ∀ p ≠ 0, l₃.heap p = none := by
    obtain rfl := Option.some.inj h₁
    obtain rfl := Option.some.inj h₂
    exact ⟨_, rfl, fun p hp => (delete_heap_of_ne hp _).trans (hheap₂ p hp)⟩
  have hreach : ReachableBy env () (fun _ _ => True) l₃ :=
    .tail (.tail (.single ⟨_, trivial, h₁⟩) ⟨_, trivial, h₂⟩) ⟨_, trivial, h₃⟩
  obtain rfl := Option.some.inj h₁
  obtain rfl := Option.some.inj h₂
  obtain rfl := Option.some.inj h₃
  rcases h env _ hreach 0 Nat.zero_lt_one with hone | ⟨p, s, hs, -⟩
  · cases hone
  · rcases eq_or_ne p 0 with rfl | hne
    · cases hs
    · rw [hheap₃ p hne] at hs
      cases hs

end Server

end Udap.Iwp
