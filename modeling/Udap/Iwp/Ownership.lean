import Udap.Iwp.ServerMoves

/-!
Who owns the sessions of a link.

A new inbound session belongs to the job that works for it, until its intro ack is generated and
`m_sessions` takes it. Two paths break this: `on_intro` and `handle_introack_generated` delete
`this` without a look at the map, and `handle_verify_intro` forgets a session whose intro does not
verify.

* `Owning`: the event takes none of these paths.
* `owned_of_owning`: in a run of such events the sessions in the map are alive, and those that are
  alive are in the map or have a job.
* `failed_intro_forgotten`: a session nobody knows any more.
-/

namespace Udap.Iwp

namespace Server

variable {σ ι : Type}

/-- A crypto job or a logic job works for the session `s` at `p`. -/
def Outstanding (l : Server σ ι) (p : ℕ) (s : LinkSession σ ι) : Prop :=
  s.jobs ≠ [] ∨ s.core.keepaliveJobs ≠ 0 ∨ l.Timed p

/-- The map refers to sessions that are alive, and to every one that has no job. -/
def Owned (l : Server σ ι) : Prop :=
  (∀ a p, l.sessions a = some p → ∃ s, l.heap p = some s) ∧
    ∀ p s, l.heap p = some s → ¬ l.Outstanding p s → l.sessions s.addr = some p

/-- No session in the map gets an intro that is too big, no intro ack is generated for one that
is in the map already, and no intro of one that is not in the map fails to verify. -/
def Owning (l : Server σ ι) : LinkEvent σ ι → Prop
  | .recvfrom _ src sz => ∀ p s, l.sessions src = some p → l.heap p = some s →
      s.core.state = .eInitial → sz < 256
  | .complete _ p job ok _ => ∀ s, l.heap p = some s →
      (l.sessions s.addr = some p → job.OnIntroack → s.introack.verifies = true) ∧
      (l.sessions s.addr ≠ some p → job = .verifyIntro → ok = true)
  | _ => True

/-- The invariant: the map refers to sessions that are alive, and one that it does not have is
with its job. -/
structure Tracks (l : Server σ ι) : Prop where
  formed : Formed l
  live : ∀ a p, l.sessions a = some p → ∃ s, l.heap p = some s
  busy : ∀ p s, l.heap p = some s → l.sessions s.addr ≠ some p → s.jobs ≠ []

lemma tracks_init : Tracks ({} : Server σ ι) where
  formed := formed_init
  live _ _ h := by cases h
  busy _ _ h := by cases h

section Step

variable {env : LinkEnv σ} {p₀ : σ} {l l' : Server σ ι} {p : ℕ} {s s' : LinkSession σ ι}
  {e : LinkEvent σ ι}

lemma Tracks.owned (h : Tracks l) : Owned l := by
  refine ⟨h.live, fun p s hs hnone => ?_⟩
  by_contra hmap
  exact hnone (.inl (h.busy p s hs hmap))

/-- A session is written, and the map keeps what it says of the others. -/
lemma Tracks.write (h : Tracks l) (hl' : Formed l')
    (hheap : l'.heap = Function.update l.heap p (some s'))
    (hsessions : ∀ a q, q ≠ p → (l'.sessions a = some q ↔ l.sessions a = some q))
    (hbusy : l'.sessions s'.addr = some p ∨ s'.jobs ≠ []) : Tracks l' where
  formed := hl'
  live a q ha := by
    rw [hheap]
    rcases eq_or_ne q p with rfl | hne
    · exact ⟨s', Function.update_self ..⟩
    · rw [Function.update_of_ne hne]
      exact h.live a q ((hsessions a q hne).mp ha)
  busy q r hr hmap := by
    rw [hheap] at hr
    rcases heap_update_cases hr with ⟨rfl, heq⟩ | ⟨hne, hr⟩
    · rw [← Option.some.inj heq] at hmap ⊢
      exact hbusy.resolve_left hmap
    · exact h.busy q r hr fun ha => hmap ((hsessions _ q hne).mpr ha)

/-- A session is deleted that the map does not have any more. -/
lemma Tracks.erase (h : Tracks l) (hl' : Formed l')
    (hheap : l'.heap = Function.update l.heap p none)
    (hsessions : ∀ a q, l'.sessions a = some q ↔ l.sessions a = some q ∧ q ≠ p) : Tracks l' where
  formed := hl'
  live a q ha := by
    obtain ⟨ha, hne⟩ := (hsessions a q).mp ha
    rw [hheap, Function.update_of_ne hne]
    exact h.live a q ha
  busy q r hr hmap := by
    rw [hheap] at hr
    rcases heap_update_cases hr with ⟨-, heq⟩ | ⟨hne, hr⟩
    · cases heq
    · exact h.busy q r hr fun ha => hmap ((hsessions _ q).mpr ⟨ha, hne⟩)

variable [DecidableEq ι]

/-- A step of an event that takes none of the paths. -/
lemma Tracks.step (h : Tracks l) (hown : l.Owning e) (hl : l.step env p₀ e = some l') :
    Tracks l' := by
  have hformed := h.formed.step hl
  have hmade (a : ι) : l.sessions a ≠ some l.made := fun ha =>
    absurd (h.formed.made a l.made ha) (lt_irrefl _)
  cases step_moved h.formed.addressed hl with
  | quiet he hheap hsessions hmade' =>
      refine ⟨hformed, ?_, ?_⟩
      · rw [hheap, hsessions]
        exact h.live
      · rw [hheap, hsessions]
        exact h.busy
  | change p s s' hs hc hheap hsessions hmade' =>
      refine h.write hformed hheap (fun a q _ => by rw [hsessions]) ?_
      -- a session outside of the map keeps a job, since its intro does not fail
      by_cases hmap : l.sessions s.addr = some p
      · exact .inl (by rw [hc.addr, hsessions, hmap])
      · have hnew := (h.formed.inbound p s hs).resolve_left hmap
        refine .inr ((hc.newcomer (h.formed.out hs hmap) hnew).2 (h.busy p s hs hmap) ?_)
        rintro now ok sent rfl
        exact (hown s hs).2 hmap rfl
  | arrived now src sz he hnone hsz hheap hsessions hmade' =>
      exact h.write hformed hheap (fun a q _ => by rw [hsessions]) (.inr (List.cons_ne_nil _ _))
  | refused now src sz he hnone hsz hheap hsessions hmade' =>
      refine h.erase hformed hheap fun a q => ?_
      rw [hsessions]
      exact ⟨fun ha => ⟨ha, fun heq => hmade a (heq ▸ ha)⟩, fun ha => ha.1⟩
  | attempted now dst k id he hnone hheap hsessions hmade' =>
      refine h.write hformed hheap (fun a q hq => ?_) (.inr (List.cons_ne_nil _ _))
      rw [hsessions]
      refine sessions_update_iff (fun heq => hq (Option.some.inj heq).symm) ?_
      rw [hnone]
      exact (Option.some_ne_none q).symm
  | dropped p s hs hd hheap hsessions hmade' =>
      -- the condition leaves the map alone: what is deleted here was never in it
      have hout : l.sessions s.addr ≠ some p := by
        intro hin
        cases hd with
        | big now src sz ha hstate hsz => exact absurd (hown p s ha hs hstate) (by omega)
        | introack now job ok sent hjob hon hhook =>
            rw [(hown s hs).1 hin hon] at hhook
            cases hhook
      refine h.erase hformed hheap fun a q => ?_
      rw [hsessions]
      refine ⟨fun ha => ⟨ha, ?_⟩, fun ha => ha.1⟩
      rintro rfl
      exact h.formed.out hs hout a ha
  | removed p s hs hmap hr hheap hsessions hmade' =>
      refine h.erase hformed hheap fun a q => ?_
      rw [hsessions]
      -- the entry goes with the session, and every other entry is of another one
      rcases eq_or_ne a s.addr with rfl | hne
      · rw [Function.update_self, hmap]
        exact ⟨fun ha => (by cases ha), fun ha => absurd (Option.some.inj ha.1).symm ha.2⟩
      · rw [Function.update_of_ne hne]
        refine ⟨fun ha => ⟨ha, ?_⟩, fun ha => ha.1⟩
        rintro rfl
        exact hne (h.formed.addressed a q s ha hs).symm
  | tracked now p s job ok sent he hs hjob hon hhook hafter hnone hheap hsessions hmade' =>
      refine h.write hformed hheap (fun a q hq => ?_) (.inl ?_)
      · rw [hsessions]
        refine sessions_update_iff (fun heq => hq (Option.some.inj heq).symm) ?_
        rw [hnone]
        exact (Option.some_ne_none q).symm
      · rw [introackSent_addr, hsessions]
        exact Function.update_self ..

end Step

variable [DecidableEq ι]

lemma ReachableBy.tracks {env : LinkEnv σ} {p₀ : σ} {l : Server σ ι}
    (h : ReachableBy env p₀ Owning l) : Tracks l := by
  induction h with
  | refl => exact tracks_init
  | tail _ hstep ih =>
      obtain ⟨e, hown, hl⟩ := hstep
      exact ih.step hown hl

/-- In a run that takes none of the three paths the map refers to sessions that are alive, and to
every one that has no job. -/
theorem owned_of_owning (env : LinkEnv σ) (p₀ : σ) (l : Server σ ι)
    (h : ReachableBy env p₀ Owning l) : Owned l := h.tracks.owned

theorem owned_of_owning_inbound : ∃ l : Server Unit Unit, l.sessions () = some 0 ∧ Owned l := by
  let env := LinkEnv.discarding (List.Vector.replicate 32 0)
  obtain ⟨l₁, h₁, hnone₁⟩ : ∃ l₁, ({} : Server Unit Unit).step env () (.recvfrom 0 () 100) =
      some l₁ ∧ l₁.sessions () = none := ⟨_, rfl, rfl⟩
  obtain ⟨l₂, h₂, hnone₂⟩ : ∃ l₂, l₁.step env () (.complete 0 0 .verifyIntro true true) =
      some l₂ ∧ l₂.sessions () = none := by
    obtain rfl := Option.some.inj h₁
    exact ⟨_, rfl, rfl⟩
  obtain ⟨l₃, h₃, hmap₃⟩ : ∃ l₃, l₂.step env () (.complete 0 0 .genIntroack true true) =
      some l₃ ∧ l₃.sessions () = some 0 := by
    obtain rfl := Option.some.inj h₁
    obtain rfl := Option.some.inj h₂
    exact ⟨_, rfl, rfl⟩
  have hown₁ : Owning ({} : Server Unit Unit) (.recvfrom 0 () 100) := fun _ _ ha => (by cases ha)
  have hown₂ : Owning l₁ (.complete 0 0 .verifyIntro true true) := fun _ _ =>
    ⟨fun ha => (by rw [hnone₁] at ha; cases ha), fun _ _ => rfl⟩
  have hown₃ : Owning l₂ (.complete 0 0 .genIntroack true true) := fun _ _ =>
    ⟨fun ha => (by rw [hnone₂] at ha; cases ha), fun _ hjob => (by cases hjob)⟩
  exact ⟨l₃, hmap₃, owned_of_owning env () l₃
    (.tail (.tail (.single ⟨_, hown₁, h₁⟩) ⟨_, hown₂, h₂⟩) ⟨_, hown₃, h₃⟩)⟩

/-- A first packet that does not verify leaves a session that nobody knows. -/
theorem failed_intro_forgotten : ¬ ∀ (env : LinkEnv Unit) (l : Server Unit Unit),
    ReachableBy env () (fun _ _ => True) l → Owned l := by
  intro h
  let env := LinkEnv.discarding (List.Vector.replicate 32 0)
  obtain ⟨l₁, h₁⟩ : ∃ l₁, ({} : Server Unit Unit).step env () (.recvfrom 0 () 100) = some l₁ :=
    ⟨_, rfl⟩
  obtain ⟨l₂, s, h₂, hs, hjobs, hkeepalive, htimers, hnone⟩ :
      ∃ (l₂ : Server Unit Unit) (s : LinkSession Unit Unit),
      l₁.step env () (.complete 0 0 .verifyIntro false true) = some l₂ ∧
      l₂.heap 0 = some s ∧ s.jobs = [] ∧ s.core.keepaliveJobs = 0 ∧ l₂.timers = [] ∧
      l₂.sessions () = none := by
    obtain rfl := Option.some.inj h₁
    exact ⟨_, _, rfl, rfl, rfl, rfl, rfl, rfl⟩
  have hidle : ¬ l₂.Outstanding 0 s := by
    rintro (hj | hk | ⟨t, ht, -⟩)
    · exact hj hjobs
    · exact hk hkeepalive
    · rw [htimers] at ht
      cases ht
  have howned := (h env l₂ (.tail (.single ⟨_, trivial, h₁⟩) ⟨_, trivial, h₂⟩)).2 0 s hs hidle
  rw [hnone] at howned
  cases howned

end Server

end Udap.Iwp
