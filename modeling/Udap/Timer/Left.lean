import Udap.Timer.Safety
import Mathlib.Logic.Relation

/-!
What a handler is told of the time that was left.

The tick that queues the job of a record writes `called_at`, and neither it nor the times of the
registration change afterwards; the execution computes from them what it tells.

* `SameTimes.step`: once dispatched, a record keeps its times;
* `Dispatched.times`, `exists_dispatched`: `called_at` is the clock of the tick that dispatched;
* `told_of_invoked`: what was told in a call is computed from the times of the record;
* `left_iff`: it is right exactly if the timeout was over at the dispatch, or half of it was.
-/

namespace Udap

namespace TimerContext

variable {c c' d : TimerContext} {p : ℕ}

/-! ### Ticks -/

/-- What a tick does to a record: nothing, or it dispatches a record that was not called. -/
inductive Ticked (p : ℕ) (c c' : TimerContext) : Prop
  | kept (hrecord : c'.records p = c.records p) (hjobs : p ∈ c'.jobs ↔ p ∈ c.jobs)
  | dispatched (hcalled : (c.records p).calledAt = 0)
      (hrecord : c'.records p = { c.records p with calledAt := c.clock }) (hjobs : p ∈ c'.jobs)

lemma ticked_visit (c : TimerContext) (id : UInt32) (p : ℕ) : Ticked p c (c.visit id) := by
  obtain heq | ⟨q, -, -, hcalled, heq⟩ | ⟨q, -, -, heq⟩ := c.visit_cases id
  · rw [heq]
    exact .kept rfl Iff.rfl
  · rw [heq]
    by_cases hq : p = q
    · subst hq
      exact .dispatched hcalled (Function.update_self ..) (List.mem_append_right _ (by simp))
    · refine .kept (Function.update_of_ne hq ..) ?_
      simp [dispatch, hq]
  · rw [heq]
    exact .kept rfl Iff.rfl

lemma clock_visit (c : TimerContext) (id : UInt32) : (c.visit id).clock = c.clock := by
  obtain heq | ⟨q, -, -, -, heq⟩ | ⟨q, -, -, heq⟩ := c.visit_cases id <;> rw [heq] <;> rfl

lemma ticked_foldl (hclock : c.clock ≠ 0) (ids : List UInt32) :
    Ticked p c (ids.foldl (fun c id => c.visit id) c) := by
  induction ids generalizing c with
  | nil => exact .kept rfl Iff.rfl
  | cons id ids ih =>
    have hnext := ih (c := c.visit id) (by rwa [clock_visit])
    rw [List.foldl_cons]
    cases c.ticked_visit id p with
    | kept hrecord hjobs =>
      cases hnext with
      | kept hrecord' hjobs' => exact .kept (hrecord'.trans hrecord) (hjobs'.trans hjobs)
      | dispatched hcalled hrecord' hjobs' =>
        rw [hrecord] at hcalled hrecord'
        rw [clock_visit] at hrecord'
        exact .dispatched hcalled hrecord' hjobs'
    | dispatched hcalled hrecord hjobs =>
      -- it is called now, so no later visit dispatches it again
      cases hnext with
      | kept hrecord' hjobs' =>
        exact .dispatched hcalled (hrecord'.trans hrecord) (hjobs'.mpr hjobs)
      | dispatched hcalled' =>
        rw [hrecord] at hcalled'
        exact absurd hcalled' hclock

lemma ticked_tickAll (hclock : c.clock ≠ 0) (p : ℕ) : Ticked p c c.tickAll := by
  rw [tickAll]
  split
  · exact ticked_foldl hclock _
  · exact .kept rfl Iff.rfl

lemma Alive.clock_ne (h : c.Alive) : c.clock ≠ 0 := (UInt64.ne_of_lt h.clock_pos).symm

/-! ### The times of a record -/

/-- The times of a record are the same in two contexts. -/
structure SameTimes (p : ℕ) (c c' : TimerContext) : Prop where
  calledAt : (c'.records p).calledAt = (c.records p).calledAt
  started : (c'.records p).started = (c.records p).started
  timeout : (c'.records p).timeout = (c.records p).timeout

lemma SameTimes.of_records (h : c'.records p = c.records p) : SameTimes p c c' := by
  constructor <;> rw [h]

/-- What is written at a record keeps the times if it has them. -/
lemma sameTimes_update {q : ℕ} {t : Timer} (h : c'.records = Function.update c.records q t)
    (hcalled : t.calledAt = (c.records q).calledAt) (hstarted : t.started = (c.records q).started)
    (htimeout : t.timeout = (c.records q).timeout) : SameTimes p c c' := by
  by_cases hq : p = q
  · subst hq
    have hrecord : c'.records p = t := h ▸ Function.update_self ..
    constructor <;> rw [hrecord] <;> assumption
  · exact .of_records (h ▸ Function.update_of_ne hq ..)

/-- A step keeps the times of a record, unless it is a tick that dispatches it, or registers it. -/
lemma sameTimes_step (h : c.Alive) (hstep : Step c c') (p : ℕ) :
    SameTimes p c c' ∨
      (c' = c.tickAll ∧ (c.records p).calledAt = 0 ∧ (c'.records p).calledAt = c.clock ∧
        p ∈ c'.jobs) ∨
      ((c.records p).calledAt = 0 ∧ (c'.records p).calledAt = 0) := by
  cases hstep with
  | advance now hnow => exact .inl (.of_records rfl)
  | callLater user func timeout =>
    by_cases hp : p = c.next
    · subst hp
      refine .inr (.inr ⟨(h.life c.next).fresh le_rfl, ?_⟩)
      rw [records_callLater_next]
    · exact .inl (.of_records (c.records_callLater_of_ne user func timeout hp))
  | cancel id =>
    have hrecord := c.records_cancel id p
    refine .inl ?_
    split at hrecord <;> constructor <;> rw [hrecord]
  | remove id =>
    have hrecord := c.records_remove id p
    refine .inl ?_
    split at hrecord <;> constructor <;> rw [hrecord]
  | tickAll =>
    cases ticked_tickAll h.clock_ne p with
    | kept hrecord => exact .inl (.of_records hrecord)
    | dispatched hcalled hrecord hjobs =>
      exact .inr (.inl ⟨rfl, hcalled, by rw [hrecord], hjobs⟩)
  | begin q hq => exact .inl (.of_records rfl)
  | take q call hq hfunc => exact .inl (sameTimes_update rfl rfl rfl rfl)
  | invoke q call hq => exact .inl (.of_records rfl)
  | finish q hq => exact .inl (sameTimes_update rfl rfl rfl rfl)

/-- Once it was called, a record keeps its times. -/
lemma SameTimes.step (h : c.Alive) (hstep : Step c c') (hcalled : (c.records p).calledAt ≠ 0) :
    SameTimes p c c' := by
  obtain hsame | ⟨-, hzero, -⟩ | ⟨hzero, -⟩ := sameTimes_step h hstep p
  · exact hsame
  · exact absurd hzero hcalled
  · exact absurd hzero hcalled

/-! ### Dispatches -/

/-- On the way to `c`, a tick at the time `t` queued the job of a record. -/
def Dispatched (c : TimerContext) (p : ℕ) (t : UInt64) : Prop :=
  ∃ d : TimerContext, d.Reachable ∧ d.clock = t ∧ p ∉ d.jobs ∧ p ∈ d.tickAll.jobs ∧
    Relation.ReflTransGen Step d.tickAll c

/-- `called_at` is the time of the tick that dispatched, which comes after the registration. -/
lemma Dispatched.times {t : UInt64} (h : Dispatched c p t) :
    (c.records p).calledAt = t ∧ (c.records p).started ≤ t := by
  obtain ⟨d, hd, rfl, hnot, hin, hpath⟩ := h
  have halive := hd.sound.alive
  suffices hall : c.Reachable ∧ (c.records p).calledAt = d.clock ∧
      (c.records p).started ≤ d.clock from hall.2
  induction hpath with
  | refl =>
    refine ⟨.step hd (.tickAll d), ?_⟩
    cases ticked_tickAll halive.clock_ne p with
    | kept _ hjobs => exact absurd (hjobs.mp hin) hnot
    | dispatched _ hrecord =>
      rw [hrecord]
      exact ⟨rfl, (halive.life p).started_le⟩
  | tail _ hstep ih =>
    obtain ⟨hreach, hcalled, hle⟩ := ih
    have hsame := SameTimes.step (p := p) hreach.sound.alive hstep (hcalled ▸ halive.clock_ne)
    exact ⟨.step hreach hstep, hsame.calledAt.trans hcalled, hsame.started ▸ hle⟩

/-- Whatever was called was dispatched. -/
lemma exists_dispatched (h : c.Reachable) (hcalled : (c.records p).calledAt ≠ 0) :
    Dispatched c p (c.records p).calledAt := by
  induction h with
  | init now hpos => exact absurd rfl hcalled
  | @step c c' hreach hstep ih =>
    have halive := hreach.sound.alive
    obtain hsame | ⟨rfl, hzero, hclock, hjob⟩ | ⟨-, hzero⟩ := sameTimes_step halive hstep p
    · obtain ⟨d, hd, hclock, hnot, hin, hpath⟩ := ih (hsame.calledAt ▸ hcalled)
      exact ⟨d, hd, hclock.trans hsame.calledAt.symm, hnot, hin, hpath.tail hstep⟩
    · refine ⟨c, hreach, hclock.symm, fun hin => ?_, hjob, .refl⟩
      exact (halive.life p).called_of_outstanding (outstanding_pos_of_job hin) hzero
    · exact absurd hzero hcalled

/-! ### Calls -/

/-- What was told in a call is computed from the times of the record. -/
structure Told (c : TimerContext) (p : ℕ) (timeout left now : UInt64) : Prop where
  called : (c.records p).calledAt ≠ 0
  timeout_eq : (c.records p).timeout = timeout
  left_eq : (c.records p).left = left
  calledAt_le : (c.records p).calledAt ≤ now

section Told

variable {call : TimerHandler} {user : ℕ} {timeout left now : UInt64}

lemma Told.congr (h : Told c p timeout left now) (hsame : SameTimes p c c') :
    Told c' p timeout left now where
  called := hsame.calledAt ▸ h.called
  timeout_eq := hsame.timeout.trans h.timeout_eq
  left_eq := by
    rw [Timer.left, hsame.timeout, hsame.calledAt, hsame.started]
    exact h.left_eq
  calledAt_le := hsame.calledAt ▸ h.calledAt_le

lemma invoked_foldl_visit {ids : List UInt32}
    (h : .invoked p call user timeout left now ∈ (ids.foldl (fun c id => c.visit id) c).log) :
    .invoked p call user timeout left now ∈ c.log := by
  induction ids generalizing c with
  | nil => exact h
  | cons id ids ih =>
    have hvisit : .invoked p call user timeout left now ∈ (c.visit id).log := ih h
    obtain heq | ⟨q, -, -, -, heq⟩ | ⟨q, -, -, heq⟩ := c.visit_cases id
    · rwa [heq] at hvisit
    · rwa [heq] at hvisit
    · rw [heq] at hvisit
      exact (List.mem_append.mp hvisit).resolve_right (by simp)

/-- A call is logged by the step that makes it. -/
lemma invoked_step (hstep : Step c c') (h : .invoked p call user timeout left now ∈ c'.log) :
    .invoked p call user timeout left now ∈ c.log ∨
      (p, .taken call) ∈ c.running ∧ c' = c.invoke p call ∧ timeout = (c.records p).timeout ∧
        left = (c.records p).left ∧ now = c.clock := by
  cases hstep with
  | advance now hnow => exact .inl h
  | callLater => exact .inl ((List.mem_append.mp h).resolve_right (by simp))
  | cancel id =>
    rw [log_cancel] at h
    exact .inl ((List.mem_append.mp h).resolve_right (by simp))
  | remove id =>
    rw [log_remove] at h
    exact .inl ((List.mem_append.mp h).resolve_right (by simp))
  | tickAll =>
    rw [tickAll] at h
    split at h
    · exact .inl (invoked_foldl_visit h)
    · exact .inl h
  | begin q hq => exact .inl ((List.mem_append.mp h).resolve_right (by simp))
  | take q call hq hfunc => exact .inl h
  | invoke q call' hq =>
    refine (List.mem_append.mp h).imp_right fun hnew => ?_
    obtain ⟨rfl, rfl, -, rfl, rfl, rfl⟩ := TimerEvent.invoked.inj (List.mem_singleton.mp hnew)
    exact ⟨hq, rfl, rfl, rfl, rfl⟩
  | finish q hq => exact .inl h

lemma told_of_invoked (h : c.Reachable)
    (hcall : .invoked p call user timeout left now ∈ c.log) : Told c p timeout left now := by
  induction h with
  | init now hpos => exact absurd hcall List.not_mem_nil
  | step hreach hstep ih =>
    have halive := hreach.sound.alive
    rcases invoked_step hstep hcall with hold | ⟨hrun, rfl, rfl, rfl, rfl⟩
    · have htold := ih hold
      exact htold.congr (.step halive hstep htold.called)
    · exact
        { called := (halive.life p).called_of_outstanding (outstanding_pos_of_running hrun)
          timeout_eq := rfl
          left_eq := rfl
          calledAt_le := (halive.life p).calledAt_le }

end Told

/-! ### What is right -/

/-- What a handler should be told: nothing is left if the timeout is over, and otherwise what is
missing. -/
def TellsRight (timeout left elapsed : ℕ) : Prop :=
  (left = 0 ↔ timeout ≤ elapsed) ∧ (elapsed < timeout → left = timeout - elapsed)

lemma tellsRight_iff {timeout elapsed : ℕ} :
    TellsRight timeout (if timeout ≤ elapsed then 0 else elapsed) elapsed ↔
      timeout ≤ elapsed ∨ 2 * elapsed = timeout := by
  rw [TellsRight]
  by_cases hover : timeout ≤ elapsed
  · rw [if_pos hover]
    exact iff_of_true ⟨iff_of_true rfl hover, fun h => absurd hover (Nat.not_le.mpr h)⟩ (.inl hover)
  · rw [if_neg hover]
    constructor
    · rintro ⟨-, hleft⟩
      have heq := hleft (Nat.not_le.mp hover)
      omega
    · rintro (h | h)
      · exact absurd h hover
      · refine ⟨iff_of_false ?_ hover, fun _ => ?_⟩ <;> omega

/-- What `timer::exec` tells: the time that has passed, where it should be the time that is left. -/
lemma toNat_left {t : Timer} (h : t.started ≤ t.calledAt) :
    t.left.toNat = if t.timeout.toNat ≤ t.calledAt.toNat - t.started.toNat then 0
      else t.calledAt.toNat - t.started.toNat := by
  have hdiff : (t.calledAt - t.started).toNat = t.calledAt.toNat - t.started.toNat :=
    UInt64.toNat_sub_of_le _ _ h
  have hover : t.timeout ≤ t.calledAt - t.started ↔
      t.timeout.toNat ≤ t.calledAt.toNat - t.started.toNat := by
    rw [UInt64.le_iff_toNat_le, hdiff]
  rw [Timer.left, ← hdiff]
  split_ifs with h₁ h₂ h₃
  · rfl
  · exact absurd (hdiff ▸ hover.mp h₁) h₂
  · exact absurd (hover.mpr (hdiff ▸ h₃)) h₁
  · rfl

/-- Every handler that is called was registered and dispatched before, and is told what is left
exactly if the timeout was over then, or half of it was. -/
theorem left_iff (h : c.Reachable) {call : TimerHandler} {user : ℕ} {timeout left now : UInt64}
    (hcall : .invoked p call user timeout left now ∈ c.log) :
    (∃ id started t, .registered id p timeout started ∈ c.log ∧ Dispatched c p t ∧ t ≤ now) ∧
      ∀ id started t, .registered id p timeout started ∈ c.log → Dispatched c p t →
        (TellsRight timeout.toNat left.toNat (t.toNat - started.toNat) ↔
          timeout.toNat ≤ t.toNat - started.toNat ∨
            2 * (t.toNat - started.toNat) = timeout.toNat) := by
  have htold := told_of_invoked h hcall
  constructor
  · have hlt := h.sound.alive.lt_next htold.called
    obtain ⟨id, hreg⟩ := h.sound.registry.known p hlt
    rw [htold.timeout_eq] at hreg
    exact ⟨id, _, _, hreg, exists_dispatched h htold.called, htold.calledAt_le⟩
  intro id started t hreg hdispatched
  obtain ⟨hcalled, hle⟩ := hdispatched.times
  obtain ⟨-, -, -, hstarted⟩ := h.sound.registry.registered id p timeout started hreg
  have hleft := toNat_left (t := c.records p) (hcalled.symm ▸ hle)
  rw [hstarted, hcalled, htold.timeout_eq, htold.left_eq] at hleft
  rw [hleft]
  exact tellsRight_iff

/-- A timer that is called five milliseconds after it was registered, as its timeout is over. -/
def calledOver : TimerContext :=
  ((({ ({ clock := 5 } : TimerContext).callLater 0 (some 7) 5 with
    clock := 10 } : TimerContext).tickAll.begin 0).take 0 7).invoke 0 7

lemma reachable_calledOver : Reachable calledOver := by
  refine .step (.step (.step (.step (.step (.step (.init 5 (by decide)) (.callLater _ 0 (some 7) 5))
    (.advance _ 10 ?_)) (.tickAll _)) (.begin _ 0 ?_)) (.take _ 0 7 ?_ ?_)) (.invoke _ 0 7 ?_)
  all_goals decide +kernel

lemma invoked_calledOver : .invoked 0 7 0 5 0 10 ∈ calledOver.log := by decide +kernel

theorem left_iff_calledOver :
    (∃ id started t, .registered id 0 5 started ∈ calledOver.log ∧ Dispatched calledOver 0 t ∧
        t ≤ 10) ∧
      ∀ id started t, .registered id 0 5 started ∈ calledOver.log → Dispatched calledOver 0 t →
        (TellsRight (5 : UInt64).toNat (0 : UInt64).toNat (t.toNat - started.toNat) ↔
          (5 : UInt64).toNat ≤ t.toNat - started.toNat ∨
            2 * (t.toNat - started.toNat) = (5 : UInt64).toNat) :=
  left_iff reachable_calledOver invoked_calledOver

/-- A timer that is cancelled, and called, in the millisecond in which it was registered. -/
def calledAtOnce : TimerContext :=
  ((((({ clock := 5 } : TimerContext).callLater 0 (some 7) 100).cancel 1).tickAll.begin
    0).take 0 7).invoke 0 7

lemma reachable_calledAtOnce : Reachable calledAtOnce := by
  refine .step (.step (.step (.step (.step (.step (.init 5 (by decide)) (.callLater _ 0 (some 7)
    100)) (.cancel _ 1)) (.tickAll _)) (.begin _ 0 ?_)) (.take _ 0 7 ?_ ?_)) (.invoke _ 0 7 ?_)
  all_goals decide +kernel

/-- Its handler is told that it is over, although all of the timeout is left. -/
theorem not_tellsRight_calledAtOnce :
    Reachable calledAtOnce ∧ .registered 1 0 100 5 ∈ calledAtOnce.log ∧
      Dispatched calledAtOnce 0 5 ∧ .invoked 0 7 0 100 0 5 ∈ calledAtOnce.log ∧
      ¬ TellsRight 100 0 (5 - 5) := by
  have hcalled : (calledAtOnce.records 0).calledAt = 5 := by decide +kernel
  have hdispatched : Dispatched calledAtOnce 0 (calledAtOnce.records 0).calledAt :=
    exists_dispatched reachable_calledAtOnce (by rw [hcalled]; decide)
  refine ⟨reachable_calledAtOnce, by decide +kernel, hcalled ▸ hdispatched, by decide +kernel, ?_⟩
  intro h
  have hover : 100 ≤ 5 - 5 := h.1.mp rfl
  omega

end TimerContext

end Udap
