import Udap.Timer
import Mathlib.Tactic.Basic

/-!
What holds of timers in every run.

A record goes through one life: it waits, its job is in the queue, an execution is in one of its
phases, it is done. `Life` says so with counts: the jobs for a record, its executions and `done` add
up to one as soon as `called_at` is set, and nothing sets it twice.

* `Registry`, `Punctual`, `Silent`: what the log tells of the records.
* `Sound.step`: every step keeps all of these.
* `timer_safety`: handlers are called once at most, not too early, and not after they were removed,
  and no record is deleted under a job.
-/

namespace Udap

/-- What comes last in a log is the event itself, or was there before. -/
lemma sublist_concat_iff {E : Type} {l log : List E} {x e : E} :
    (l ++ [x]).Sublist (log ++ [e]) ↔ (l ++ [x]).Sublist log ∨ x = e ∧ l.Sublist log := by
  constructor
  · intro h
    obtain ⟨l₁, l₂, heq, h₁, h₂⟩ := List.sublist_append_iff.mp h
    rcases List.sublist_singleton.mp h₂ with rfl | rfl
    · rw [List.append_nil] at heq
      exact .inl (heq ▸ h₁)
    · obtain ⟨rfl, hx⟩ := List.append_inj' heq rfl
      exact .inr ⟨List.singleton_inj.mp hx, h₁⟩
  · rintro (h | ⟨rfl, h⟩)
    · exact h.trans (List.sublist_append_left _ _)
    · exact h.append (List.Sublist.refl _)

namespace TimerContext

/-! ### The life of a record -/

/-- Where a record is in its life. -/
structure Life (c : TimerContext) (p : ℕ) : Prop where
  once : c.outstanding p + (c.records p).done.toNat = if (c.records p).calledAt = 0 then 0 else 1
  /-- a call is made by an execution that is about to finish, or has finished -/
  calls : c.invocations p ≤ c.running.count (p, .finishing) + (c.records p).done.toNat
  fresh : c.next ≤ p → (c.records p).calledAt = 0
  started_le : (c.records p).started ≤ c.clock
  calledAt_le : (c.records p).calledAt ≤ c.clock
  due : (c.records p).calledAt ≠ 0 →
    (c.records p).started.toNat + (c.records p).timeout.toNat ≤ (c.records p).calledAt.toNat ∨
      (c.records p).canceled = true

/-- The clock is positive, and every record leads its life. -/
structure Alive (c : TimerContext) : Prop where
  clock_pos : 0 < c.clock
  life : ∀ p, c.Life p

section Life

variable {c : TimerContext} {p : ℕ}

lemma Life.not_done (h : c.Life p) (hout : 0 < c.outstanding p) : (c.records p).done = false := by
  have hle : c.outstanding p + (c.records p).done.toNat ≤ 1 := by
    rw [h.once]
    split <;> omega
  cases hdone : (c.records p).done with
  | false => rfl
  | true =>
    rw [hdone, Bool.toNat_true] at hle
    omega

lemma Life.outstanding_le (h : c.Life p) : c.outstanding p ≤ 1 := by
  have := h.once
  split at this <;> omega

lemma Life.outstanding_eq (h : c.Life p) (hdone : (c.records p).done = true) :
    c.outstanding p = 0 := by
  by_contra hne
  rw [h.not_done (Nat.pos_of_ne_zero hne)] at hdone
  exact Bool.false_ne_true hdone

lemma outstanding_pos_of_job (h : p ∈ c.jobs) : 0 < c.outstanding p :=
  Nat.add_pos_left (List.count_pos_iff.mpr h) _

lemma outstanding_pos_of_running {e : ℕ × ExecPhase} (h : e ∈ c.running) :
    0 < c.outstanding e.1 :=
  Nat.add_pos_right _ (List.countP_pos_iff.mpr ⟨e, h, by simp⟩)

/-- The executions of a record when one of them goes on. -/
lemma countP_erase_cons {e : ℕ × ExecPhase} (h : e ∈ c.running) (phase : ExecPhase) :
    ((e.1, phase) :: c.running.erase e).countP (fun e => e.1 = p) =
      c.running.countP fun e => e.1 = p := by
  rw [(List.perm_cons_erase h).countP_eq, List.countP_cons, List.countP_cons]

/-- The executions of a record when one of them is over. -/
lemma countP_erase_add {e : ℕ × ExecPhase} (h : e ∈ c.running) :
    ((c.running.erase e).countP fun e => e.1 = p) + (if e.1 = p then 1 else 0) =
      c.running.countP fun e => e.1 = p := by
  rw [(List.perm_cons_erase h).countP_eq, List.countP_cons]
  simp

/-! ### What the operations keep -/

/-- A record that is written keeps its life if what is written has the same stamps, and is done as
before. -/
lemma Life.write {t : Timer} {q : ℕ} (h : c.Life p)
    (ht : t.calledAt = (c.records q).calledAt ∧ t.started = (c.records q).started ∧
      t.timeout = (c.records q).timeout ∧ t.done = (c.records q).done ∧
      ((c.records q).canceled = true → t.canceled = true)) : (c.write q t).Life p := by
  by_cases hq : q = p
  · subst hq
    obtain ⟨hcalled, hstarted, htimeout, hdone, hcanceled⟩ := ht
    have hrecord : (c.write q t).records q = t := Function.update_self ..
    constructor
    · rw [hrecord, hcalled, hdone]
      exact h.once
    · rw [hrecord, hdone]
      exact h.calls
    · rw [hrecord, hcalled]
      exact h.fresh
    · rw [hrecord, hstarted]
      exact h.started_le
    · rw [hrecord, hcalled]
      exact h.calledAt_le
    · rw [hrecord, hcalled, hstarted, htimeout]
      exact fun hne => (h.due hne).imp_right hcanceled
  · have hrecord : (c.write q t).records p = c.records p := Function.update_of_ne (Ne.symm hq) ..
    constructor
    all_goals rw [hrecord]
    exacts [h.once, h.calls, h.fresh, h.started_le, h.calledAt_le, h.due]

/-- A record does not see what is logged, but for calls of its handler. -/
lemma Life.emit {e : TimerEvent} (h : c.Life p) (he : e.invokes p = false) : (c.emit e).Life p where
  once := h.once
  calls := by
    have hcalls : (c.emit e).invocations p = c.invocations p := by
      simp [invocations, TimerContext.emit, he]
    rw [hcalls]
    exact h.calls
  fresh := h.fresh
  started_le := h.started_le
  calledAt_le := h.calledAt_le
  due := h.due

end Life

namespace Alive

variable {c : TimerContext}

lemma init {now : UInt64} (h : 0 < now) : Alive { clock := now } where
  clock_pos := h
  life _ :=
    { once := rfl
      calls := Nat.le_refl 0
      fresh := fun _ => rfl
      started_le := UInt64.le_iff_toNat_le.mpr (Nat.zero_le _)
      calledAt_le := UInt64.le_iff_toNat_le.mpr (Nat.zero_le _)
      due := fun hne => absurd rfl hne }

lemma advance (h : c.Alive) {now : UInt64} (hnow : c.clock ≤ now) :
    Alive { c with clock := now } where
  clock_pos := UInt64.lt_of_lt_of_le h.clock_pos hnow
  life p :=
    { once := (h.life p).once
      calls := (h.life p).calls
      fresh := (h.life p).fresh
      started_le := UInt64.le_trans (h.life p).started_le hnow
      calledAt_le := UInt64.le_trans (h.life p).calledAt_le hnow
      due := (h.life p).due }

lemma emit (h : c.Alive) {e : TimerEvent} (he : ∀ p, e.invokes p = false) : (c.emit e).Alive :=
  ⟨h.clock_pos, fun p => (h.life p).emit (he p)⟩

lemma write (h : c.Alive) {q : ℕ} {t : Timer}
    (ht : t.calledAt = (c.records q).calledAt ∧ t.started = (c.records q).started ∧
      t.timeout = (c.records q).timeout ∧ t.done = (c.records q).done ∧
      ((c.records q).canceled = true → t.canceled = true)) : (c.write q t).Alive :=
  ⟨h.clock_pos, fun p => (h.life p).write ht⟩

lemma cancel (h : c.Alive) (id : UInt32) : (c.cancel id).Alive := by
  unfold TimerContext.cancel
  split
  · exact h.emit fun _ => rfl
  · refine Alive.emit (h.write ?_) fun _ => rfl
    exact ⟨rfl, rfl, rfl, rfl, fun _ => rfl⟩

lemma remove (h : c.Alive) (id : UInt32) : (c.remove id).Alive := by
  unfold TimerContext.remove
  split
  · exact h.emit fun _ => rfl
  · refine Alive.emit (h.write ?_) fun _ => rfl
    exact ⟨rfl, rfl, rfl, rfl, fun _ => rfl⟩

lemma callLater (h : c.Alive) (user : ℕ) (func : Option TimerHandler) (timeout : UInt64) :
    (c.callLater user func timeout).Alive := by
  let timer : Timer := { user := user, started := c.clock, timeout := timeout, func := func }
  suffices hnew : Alive { c.write c.next timer with
      ids := c.ids + 1
      timers := c.timers.insert (c.ids + 1) c.next
      next := c.next + 1 } from hnew.emit fun _ => rfl
  refine ⟨h.clock_pos, fun p => ?_⟩
  have hp := h.life p
  by_cases hnext : p = c.next
  · subst hnext
    have hcalled : (c.records c.next).calledAt = 0 := hp.fresh le_rfl
    have honce := hp.once
    have hcalls := hp.calls
    rw [hcalled, if_pos rfl] at honce
    constructor
    all_goals simp only [TimerContext.write, Function.update_self]
    · exact Nat.eq_zero_of_add_eq_zero_right honce
    · rw [Nat.eq_zero_of_add_eq_zero_left honce] at hcalls
      exact hcalls
    · exact fun _ => rfl
    · exact UInt64.le_refl _
    · exact UInt64.le_iff_toNat_le.mpr (Nat.zero_le _)
    · exact fun hne => absurd rfl hne
  · constructor
    all_goals simp only [TimerContext.write, Function.update_of_ne hnext]
    exacts [hp.once, hp.calls, fun hle => hp.fresh (Nat.le_of_succ_le hle), hp.started_le,
      hp.calledAt_le, hp.due]

/-- A timer that is hit and was not called: its job is queued, for the only time. -/
lemma dispatch (h : c.Alive) {q : ℕ} (hlt : q < c.next) (hhit : (c.records q).Hit c.clock)
    (hcalled : (c.records q).calledAt = 0) :
    (c.dispatch q).Alive := by
  refine ⟨h.clock_pos, fun p => ?_⟩
  have hp := h.life p
  by_cases hq : p = q
  · subst hq
    have hne : c.clock ≠ 0 := (UInt64.ne_of_lt h.clock_pos).symm
    have honce := hp.once
    rw [hcalled, if_pos rfl] at honce
    constructor
    all_goals simp only [TimerContext.dispatch, TimerContext.write, Function.update_self]
    · rw [if_neg hne]
      simp only [outstanding, List.count_append, List.count_singleton_self] at honce ⊢
      omega
    · exact hp.calls
    · exact fun hle => absurd hlt (Nat.not_lt.mpr hle)
    · exact hp.started_le
    · exact UInt64.le_refl _
    · intro _
      refine hhit.imp_left fun htimeout => ?_
      have hle := UInt64.le_iff_toNat_le.mp hp.started_le
      have hto := UInt64.le_iff_toNat_le.mp htimeout
      rw [UInt64.toNat_sub_of_le _ _ hp.started_le] at hto
      omega
  · constructor
    all_goals simp only [TimerContext.dispatch, TimerContext.write, Function.update_of_ne hq]
    · have hcount : (c.jobs ++ [q]).count p = c.jobs.count p := by
        rw [List.count_append, List.count_singleton, if_neg (by simpa using Ne.symm hq),
          Nat.add_zero]
      have honce := hp.once
      rw [outstanding] at honce ⊢
      rw [hcount]
      exact honce
    exacts [hp.calls, hp.fresh, hp.started_le, hp.calledAt_le, hp.due]

lemma begin (h : c.Alive) {q : ℕ} (hq : q ∈ c.jobs) : (c.begin q).Alive := by
  refine Alive.emit (c := { c with jobs := c.jobs.erase q, running := _ :: c.running })
    ⟨h.clock_pos, fun p => ?_⟩ fun _ => rfl
  have hp := h.life p
  have hjobs := (List.perm_cons_erase hq).count_eq p
  have honce := hp.once
  constructor
  · simp only [outstanding, List.countP_cons, List.count_cons] at hjobs honce ⊢
    rw [← honce, hjobs]
    by_cases heq : q = p
    · simp [heq]
      omega
    · simp [heq]
  · exact Nat.le_trans hp.calls (Nat.add_le_add_right (List.count_le_count_cons ..) _)
  exacts [hp.fresh, hp.started_le, hp.calledAt_le, hp.due]

/-- An execution goes on, to where it is not about to finish. -/
lemma proceed (h : c.Alive) {q : ℕ} {phase : ExecPhase} (hq : (q, phase) ∈ c.running)
    (hphase : phase ≠ .finishing) (phase' : ExecPhase) :
    Alive { c with running := (q, phase') :: c.running.erase (q, phase) } := by
  refine ⟨h.clock_pos, fun p => ?_⟩
  have hp := h.life p
  constructor
  · rw [outstanding, countP_erase_cons hq]
    exact hp.once
  · have hne : (p, ExecPhase.finishing) ≠ (q, phase) := fun heq =>
      hphase (congrArg Prod.snd heq).symm
    refine Nat.le_trans hp.calls (Nat.add_le_add_right ?_ _)
    rw [← List.count_erase_of_ne hne]
    exact List.count_le_count_cons ..
  exacts [hp.fresh, hp.started_le, hp.calledAt_le, hp.due]

lemma take (h : c.Alive) {q : ℕ} {call : TimerHandler} (hq : (q, .tested) ∈ c.running) :
    (c.take q call).Alive :=
  (h.proceed hq (by simp) (.taken call)).write ⟨rfl, rfl, rfl, rfl, id⟩

lemma invoke (h : c.Alive) {q : ℕ} {call : TimerHandler} (hq : (q, .taken call) ∈ c.running) :
    (c.invoke q call).Alive := by
  refine ⟨h.clock_pos, fun p => ?_⟩
  have hp := (h.proceed hq (by simp) .finishing).life p
  constructor
  · exact hp.once
  · -- the call is one more, and so is the execution that is about to finish
    have hne : (p, ExecPhase.finishing) ≠ (q, .taken call) := by simp
    have hcalls := (h.life p).calls
    simp only [TimerContext.invoke, TimerContext.emit, invocations, List.countP_append,
      List.countP_singleton, List.count_cons, List.count_erase_of_ne hne] at hcalls ⊢
    by_cases heq : q = p
    · simp [heq, TimerEvent.invokes]
      omega
    · simp [heq, TimerEvent.invokes]
      omega
  exacts [hp.fresh, hp.started_le, hp.calledAt_le, hp.due]

lemma finish (h : c.Alive) {q : ℕ} (hq : (q, .finishing) ∈ c.running) : (c.finish q).Alive := by
  refine ⟨h.clock_pos, fun p => ?_⟩
  have hp := h.life p
  have honce := hp.once
  have hcalls := hp.calls
  have hcount := countP_erase_add (p := p) hq
  have hfinish := (List.perm_cons_erase hq).count_eq (p, ExecPhase.finishing)
  rw [List.count_cons] at hfinish
  by_cases heq : p = q
  · subst heq
    have hdone := hp.not_done (outstanding_pos_of_running hq)
    have hrecord : (c.finish p).records p = { c.records p with done := true } :=
      Function.update_self ..
    rw [hdone] at honce hcalls
    simp only [if_true, beq_self_eq_true] at hcount hfinish
    constructor
    all_goals rw [hrecord]
    · rw [← honce, outstanding, outstanding, ← hcount]
      rfl
    · refine Nat.le_trans hcalls (Nat.le_of_eq ?_)
      rw [hfinish]
      rfl
    exacts [hp.fresh, hp.started_le, hp.calledAt_le, hp.due]
  · have hrecord : (c.finish q).records p = c.records p := Function.update_of_ne heq ..
    rw [if_neg (Ne.symm heq)] at hcount
    rw [if_neg (by simpa using Ne.symm heq)] at hfinish
    constructor
    all_goals rw [hrecord]
    · rw [← honce, outstanding, outstanding, ← hcount]
      rfl
    · refine Nat.le_trans hcalls (Nat.le_of_eq ?_)
      rw [hfinish]
      rfl
    exacts [hp.fresh, hp.started_le, hp.calledAt_le, hp.due]

end Alive

/-! ### What the log tells -/

/-- The event cancels the timer with an id; so does its removal. -/
def cancels (id : UInt32) (e : TimerEvent) : Prop := e = .canceled id ∨ e = .removed id

/-- The log and the table agree about which timers there are. -/
structure Registry (c : TimerContext) : Prop where
  ids : c.ids = UInt32.ofNat c.next
  count : c.log.countP TimerEvent.registers = c.next
  registered : ∀ id p timeout started, .registered id p timeout started ∈ c.log →
    p < c.next ∧ id = UInt32.ofNat (p + 1) ∧ (c.records p).timeout = timeout ∧
      (c.records p).started = started
  known : ∀ p < c.next, ∃ id,
    .registered id p (c.records p).timeout (c.records p).started ∈ c.log
  listed : ∀ id p, c.timers.lookup id = some p →
    .registered id p (c.records p).timeout (c.records p).started ∈ c.log ∧ .deleted p ∉ c.log
  kept : c.next < UInt32.size → ∀ id p timeout started, .registered id p timeout started ∈ c.log →
    c.timers.lookup id = some p ∨ .deleted p ∈ c.log
  deleted : ∀ p, .deleted p ∈ c.log → (c.records p).done = true

/-- Calls are on time, but for those of timers that were cancelled. -/
structure Punctual (c : TimerContext) : Prop where
  canceled : ∀ p, (c.records p).canceled = true → ∃ id timeout started e, cancels id e ∧
    [.registered id p timeout started, e].Sublist c.log
  waited : ∀ p call user timeout left now, .invoked p call user timeout left now ∈ c.log →
    ∃ id started, .registered id p timeout started ∈ c.log ∧
      (started.toNat + timeout.toNat ≤ now.toNat ∨ ∃ e, cancels id e ∧
        [.registered id p timeout started, e, .invoked p call user timeout left now].Sublist c.log)

/-- Timers that were removed are not called by later executions. -/
structure Silent (c : TimerContext) : Prop where
  silenced : c.next < UInt32.size → ∀ id p timeout started,
    [.registered id p timeout started, .removed id].Sublist c.log →
      (c.records p).func = none ∨ (c.records p).done = true
  late : c.next < UInt32.size → ∀ id p timeout started,
    [.registered id p timeout started, .removed id, .began p].Sublist c.log →
      ∀ e ∈ c.running, e.1 = p → e.2 = .finishing
  never : c.next < UInt32.size → ∀ id p timeout started call user timeout' left now,
    ¬ [.registered id p timeout started, .removed id, .began p,
      .invoked p call user timeout' left now].Sublist c.log

section Log

variable {E : Type} {log : List E} {a b d e x : E}

@[simp] lemma pair_sublist_concat :
    [a, x].Sublist (log ++ [e]) ↔ [a, x].Sublist log ∨ x = e ∧ a ∈ log := by
  rw [show [a, x] = [a] ++ [x] from rfl, sublist_concat_iff, List.singleton_sublist]

@[simp] lemma triple_sublist_concat :
    [a, b, x].Sublist (log ++ [e]) ↔ [a, b, x].Sublist log ∨ x = e ∧ [a, b].Sublist log :=
  sublist_concat_iff (l := [a, b])

@[simp] lemma quadruple_sublist_concat :
    [a, b, d, x].Sublist (log ++ [e]) ↔
      [a, b, d, x].Sublist log ∨ x = e ∧ [a, b, d].Sublist log :=
  sublist_concat_iff (l := [a, b, d])

end Log

variable {c : TimerContext}

/-- The registry does not see what happens to the records that are there. -/
lemma Registry.frame (h : c.Registry) {c' : TimerContext} (hids : c'.ids = c.ids)
    (hnext : c'.next = c.next) (htimers : c'.timers = c.timers)
    (hlog : c'.log = c.log ∨ ∃ e, c'.log = c.log ++ [e] ∧ e.registers = false ∧
      ∀ p, e ≠ .deleted p)
    (hrecords : ∀ p, (c'.records p).timeout = (c.records p).timeout ∧
      (c'.records p).started = (c.records p).started ∧
      ((c.records p).done = true → (c'.records p).done = true)) : c'.Registry := by
  have hregistered : ∀ id p timeout started, TimerEvent.registered id p timeout started ∈ c'.log ↔
      .registered id p timeout started ∈ c.log := by
    intro id p timeout started
    rcases hlog with hlog | ⟨e, hlog, he, -⟩
    · rw [hlog]
    · rw [hlog, List.mem_append, List.mem_singleton, or_iff_left]
      rintro rfl
      exact absurd he (by simp [TimerEvent.registers])
  have hdeleted : ∀ p, TimerEvent.deleted p ∈ c'.log ↔ .deleted p ∈ c.log := by
    intro p
    rcases hlog with hlog | ⟨e, hlog, -, he⟩
    · rw [hlog]
    · rw [hlog, List.mem_append, List.mem_singleton, or_iff_left]
      exact (he p).symm
  have hcount : c'.log.countP TimerEvent.registers = c.log.countP TimerEvent.registers := by
    rcases hlog with hlog | ⟨e, hlog, he, -⟩
    · rw [hlog]
    · simp [hlog, he]
  constructor
  · rw [hids, hnext, h.ids]
  · rw [hcount, hnext, h.count]
  · intro id p timeout started hmem
    rw [hnext, (hrecords p).1, (hrecords p).2.1]
    exact h.registered id p timeout started ((hregistered ..).mp hmem)
  · intro p hp
    rw [hnext] at hp
    rw [(hrecords p).1, (hrecords p).2.1]
    exact (h.known p hp).imp fun id hmem => (hregistered ..).mpr hmem
  · intro id p hlookup
    rw [htimers] at hlookup
    rw [hregistered, hdeleted, (hrecords p).1, (hrecords p).2.1]
    exact h.listed id p hlookup
  · intro hlt id p timeout started hmem
    rw [hnext] at hlt
    rw [htimers, hdeleted]
    exact h.kept hlt id p timeout started ((hregistered ..).mp hmem)
  · exact fun p hmem => (hrecords p).2.2 (h.deleted p ((hdeleted p).mp hmem))

lemma Alive.lt_next (h : c.Alive) {p : ℕ} (hp : (c.records p).calledAt ≠ 0) : p < c.next :=
  Nat.lt_of_not_le fun hle => hp ((h.life p).fresh hle)

lemma Life.called_of_done {p : ℕ} (h : c.Life p) (hdone : (c.records p).done = true) :
    (c.records p).calledAt ≠ 0 := by
  intro hzero
  have honce := h.once
  rw [if_pos hzero, hdone, Bool.toNat_true] at honce
  omega

lemma Life.called_of_outstanding {p : ℕ} (h : c.Life p) (hout : 0 < c.outstanding p) :
    (c.records p).calledAt ≠ 0 := by
  intro hzero
  have honce := h.once
  rw [if_pos hzero] at honce
  omega

/-- The ids of different timers differ, as long as they did not wrap. -/
lemma ofNat_succ_ne {p n : ℕ} (hp : p < n) (hn : n + 1 < UInt32.size) :
    UInt32.ofNat (p + 1) ≠ UInt32.ofNat (n + 1) := by
  rw [Ne, ← UInt32.toNat_inj, UInt32.toNat_ofNat_of_lt' (Nat.lt_trans (Nat.succ_lt_succ hp) hn),
    UInt32.toNat_ofNat_of_lt' hn]
  omega

lemma Registry.callLater (h : c.Registry) (ha : c.Alive) (user : ℕ) (func : Option TimerHandler)
    (timeout : UInt64) : (c.callLater user func timeout).Registry := by
  have hlog := c.log_callLater user func timeout
  have hlookup := c.lookup_callLater user func timeout
  have hold (p : ℕ) (hp : p < c.next) : (c.callLater user func timeout).records p = c.records p :=
    c.records_callLater_of_ne user func timeout (Nat.ne_of_lt hp)
  -- the counter of the ids runs with the number of records
  have hids : c.ids + 1 = UInt32.ofNat (c.next + 1) := by
    rw [h.ids, UInt32.ofNat_add]
    rfl
  have hdeleted : ∀ p, TimerEvent.deleted p ∈ c.log → p < c.next := fun p hp =>
    ha.lt_next ((ha.life p).called_of_done (h.deleted p hp))
  constructor
  · exact hids
  · rw [hlog, List.countP_append, h.count]
    rfl
  · intro id p timeout' started hmem
    rw [hlog, List.mem_append, List.mem_singleton, TimerEvent.registered.injEq] at hmem
    rcases hmem with hmem | ⟨rfl, rfl, rfl, rfl⟩
    · have hreg := h.registered id p timeout' started hmem
      rw [hold p hreg.1]
      exact ⟨Nat.lt_succ_of_lt hreg.1, hreg.2⟩
    · rw [records_callLater_next]
      exact ⟨Nat.lt_succ_self _, hids, rfl, rfl⟩
  · intro p hp
    rw [hlog]
    rcases Nat.lt_succ_iff_lt_or_eq.mp hp with hp | rfl
    · rw [hold p hp]
      exact (h.known p hp).imp fun id hmem => List.mem_append_left _ hmem
    · rw [records_callLater_next]
      exact ⟨_, List.mem_append_right _ (List.mem_singleton_self _)⟩
  · intro id p hp
    rw [hlookup] at hp
    rw [hlog]
    split_ifs at hp with hid
    · obtain rfl := Option.some.inj hp
      rw [records_callLater_next, hid]
      refine ⟨List.mem_append_right _ (List.mem_singleton_self _), ?_⟩
      simpa using fun hmem => Nat.lt_irrefl _ (hdeleted _ hmem)
    · obtain ⟨hmem, hnot⟩ := h.listed id p hp
      rw [hold p (h.registered _ _ _ _ hmem).1]
      exact ⟨List.mem_append_left _ hmem, by simpa using hnot⟩
  · intro hlt id p timeout' started hmem
    have hnext : c.next + 1 < UInt32.size := hlt
    rw [hlog, List.mem_append, List.mem_singleton, TimerEvent.registered.injEq] at hmem
    rw [hlookup, hlog]
    rcases hmem with hmem | ⟨rfl, rfl, -, -⟩
    · have hreg := h.registered id p timeout' started hmem
      -- ids come back only after 2^32 calls
      have hid : id ≠ c.ids + 1 := by
        rw [hreg.2.1, hids]
        exact ofNat_succ_ne hreg.1 hnext
      rw [if_neg hid]
      exact (h.kept (Nat.lt_of_succ_lt hnext) id p _ _ hmem).imp_right (List.mem_append_left _)
    · exact .inl (if_pos rfl)
  · intro p hp
    rw [hlog] at hp
    have hp' : TimerEvent.deleted p ∈ c.log := by simpa using hp
    rw [hold p (hdeleted p hp')]
    exact h.deleted p hp'

lemma Registry.reclaim (h : c.Registry) {id : UInt32} {p : ℕ} (hid : c.timers.lookup id = some p)
    (hdone : (c.records p).done = true) : (c.reclaim id p).Registry := by
  have hlog : (c.reclaim id p).log = c.log ++ [.deleted p] := rfl
  have hregistered : ∀ id' p' timeout started,
      TimerEvent.registered id' p' timeout started ∈ (c.reclaim id p).log ↔
        .registered id' p' timeout started ∈ c.log := by
    intro id' p' timeout started
    simp [hlog]
  have hlookup : ∀ id', (c.reclaim id p).timers.lookup id' =
      if id' = id then none else c.timers.lookup id' := by
    intro id'
    split_ifs with heq
    · rw [heq]
      exact AList.lookup_erase _ _
    · exact AList.lookup_erase_ne heq
  constructor
  · exact h.ids
  · rw [hlog, List.countP_append]
    exact h.count
  · exact fun id' p' timeout started hmem =>
      h.registered id' p' timeout started ((hregistered ..).mp hmem)
  · exact fun p' hp => (h.known p' hp).imp fun id' hmem => (hregistered ..).mpr hmem
  · intro id' p' hp
    rw [hlookup] at hp
    split_ifs at hp with heq
    obtain ⟨hmem, hnot⟩ := h.listed id' p' hp
    refine ⟨(hregistered ..).mpr hmem, ?_⟩
    rw [hlog, List.mem_append, List.mem_singleton, TimerEvent.deleted.injEq, not_or]
    refine ⟨hnot, ?_⟩
    rintro rfl
    -- a record has one id, and under that it is not listed any more
    have hsame := (h.registered _ _ _ _ (h.listed id p' hid).1).2.1
    exact heq ((h.registered _ _ _ _ hmem).2.1.trans hsame.symm)
  · intro hlt id' p' timeout started hmem
    rw [hlookup, hlog]
    rcases h.kept hlt id' p' timeout started ((hregistered ..).mp hmem) with hp | hp
    · split_ifs with heq
      · rw [heq, hid] at hp
        obtain rfl := Option.some.inj hp
        exact .inr (List.mem_append_right _ (List.mem_singleton_self _))
      · exact .inl hp
    · exact .inr (List.mem_append_left _ hp)
  · intro p' hp
    rw [hlog, List.mem_append, List.mem_singleton, TimerEvent.deleted.injEq] at hp
    rcases hp with hp | rfl
    · exact h.deleted p' hp
    · exact hdone

/-- What is on time stays so when no handler is called and what is newly cancelled is in the
log. -/
lemma Punctual.frame (h : c.Punctual) {c' : TimerContext}
    (hlog : c'.log = c.log ∨ ∃ e, c'.log = c.log ++ [e] ∧ ∀ p, e.invokes p = false)
    (hrecords : ∀ p, (c'.records p).canceled = true → (c.records p).canceled = true ∨
      ∃ id timeout started e, cancels id e ∧
        [.registered id p timeout started, e].Sublist c'.log) : c'.Punctual := by
  have hsub : c.log.Sublist c'.log := by
    rcases hlog with hlog | ⟨e, hlog, -⟩
    · rw [hlog]
    · rw [hlog]
      exact List.sublist_append_left _ _
  constructor
  · intro p hp
    rcases hrecords p hp with hold | hnew
    · obtain ⟨id, timeout, started, e, he, hin⟩ := h.canceled p hold
      exact ⟨id, timeout, started, e, he, hin.trans hsub⟩
    · exact hnew
  · intro p call user timeout left now hmem
    have hold : .invoked p call user timeout left now ∈ c.log := by
      rcases hlog with hlog | ⟨e, hlog, he⟩
      · rwa [hlog] at hmem
      · rw [hlog, List.mem_append, List.mem_singleton] at hmem
        refine hmem.resolve_right ?_
        rintro rfl
        exact absurd (he p) (by simp [TimerEvent.invokes])
    obtain ⟨id, started, hreg, hwait⟩ := h.waited p call user timeout left now hold
    exact ⟨id, started, hsub.mem hreg,
      hwait.imp_right fun ⟨e, he, hin⟩ => ⟨e, he, hin.trans hsub⟩⟩

/-- The log says why a listed timer became cancelled. -/
lemma Punctual.cancels (h : c.Punctual) (hr : c.Registry) {c' : TimerContext} {id : UInt32}
    {e : TimerEvent} (he : cancels id e) (hlog : c'.log = c.log ++ [e])
    (hrecords : ∀ p, (c'.records p).canceled = true →
      (c.records p).canceled = true ∨ c.timers.lookup id = some p) : c'.Punctual := by
  refine h.frame (.inr ⟨e, hlog, fun p => ?_⟩) fun p hp => (hrecords p hp).imp_right fun hid => ?_
  · rcases he with rfl | rfl <;> rfl
  · refine ⟨id, (c.records p).timeout, (c.records p).started, e, he, ?_⟩
    rw [hlog]
    exact pair_sublist_concat.mpr (.inr ⟨rfl, (hr.listed id p hid).1⟩)

lemma Punctual.invoke (h : c.Punctual) (ha : c.Alive) (hr : c.Registry) {p : ℕ}
    {call : TimerHandler} (hp : (p, .taken call) ∈ c.running) : (c.invoke p call).Punctual := by
  have hlife := ha.life p
  have hcalled : (c.records p).calledAt ≠ 0 :=
    hlife.called_of_outstanding (outstanding_pos_of_running hp)
  have hlog : (c.invoke p call).log = c.log ++ [.invoked p call (c.records p).user
      (c.records p).timeout (c.records p).left c.clock] := rfl
  have hsub : c.log.Sublist (c.invoke p call).log := List.sublist_append_left _ _
  constructor
  · intro q hq
    obtain ⟨id, timeout, started, e, he, hin⟩ := h.canceled q hq
    exact ⟨id, timeout, started, e, he, hin.trans hsub⟩
  · intro q call' user timeout left now hmem
    rw [hlog, List.mem_append, List.mem_singleton] at hmem
    rcases hmem with hmem | heq
    · obtain ⟨id, started, hreg, hwait⟩ := h.waited q call' user timeout left now hmem
      exact ⟨id, started, hsub.mem hreg,
        hwait.imp_right fun ⟨e, he, hin⟩ => ⟨e, he, hin.trans hsub⟩⟩
    · obtain ⟨rfl, -, -, rfl, -, rfl⟩ := TimerEvent.invoked.inj heq
      rcases hlife.due hcalled with hdue | hcanceled
      · obtain ⟨id, hreg⟩ := hr.known q (ha.lt_next hcalled)
        refine ⟨id, _, hsub.mem hreg, .inl (Nat.le_trans hdue ?_)⟩
        exact UInt64.le_iff_toNat_le.mp hlife.calledAt_le
      · obtain ⟨id, timeout, started, e, he, hin⟩ := h.canceled q hcanceled
        have hreg := hin.mem List.mem_cons_self
        obtain ⟨-, -, rfl, rfl⟩ := hr.registered _ _ _ _ hreg
        exact ⟨id, _, hsub.mem hreg, .inr ⟨e, he, hlog ▸ triple_sublist_concat.mpr
          (.inr ⟨heq, hin⟩)⟩⟩

/-- What is silent stays so when nothing is removed, begins or is called. -/
lemma Silent.frame (h : c.Silent) (hr : c.Registry) {c' : TimerContext} (hnext : c.next ≤ c'.next)
    (hlog : c'.log = c.log ∨ ∃ e, c'.log = c.log ++ [e] ∧ (∀ id, e ≠ .removed id) ∧
      (∀ p, e ≠ .began p) ∧ ∀ p, e.invokes p = false)
    (hrecords : ∀ p < c.next,
      ((c.records p).func = none → (c'.records p).func = none) ∧
        ((c.records p).done = true → (c'.records p).done = true))
    (hrunning : ∀ e ∈ c'.running, e ∈ c.running ∨ e.2 = .finishing ∨ (e.1, .tested) ∈ c.running) :
    c'.Silent := by
  have hremoved : ∀ a id, [a, TimerEvent.removed id].Sublist c'.log →
      [a, TimerEvent.removed id].Sublist c.log := by
    intro a id hin
    rcases hlog with hlog | ⟨e, hlog, he, -⟩
    · rwa [hlog] at hin
    · rw [hlog, pair_sublist_concat] at hin
      exact hin.resolve_right fun heq => he id heq.1.symm
  have hbegan : ∀ a b p, [a, b, TimerEvent.began p].Sublist c'.log →
      [a, b, TimerEvent.began p].Sublist c.log := by
    intro a b p hin
    rcases hlog with hlog | ⟨e, hlog, -, he, -⟩
    · rwa [hlog] at hin
    · rw [hlog, triple_sublist_concat] at hin
      exact hin.resolve_right fun heq => he p heq.1.symm
  constructor
  · intro hlt id p timeout started hin
    have hold := hremoved _ _ hin
    have hp := (hr.registered _ _ _ _ (hold.mem List.mem_cons_self)).1
    exact (h.silenced (Nat.lt_of_le_of_lt hnext hlt) id p timeout started hold).imp
      (hrecords p hp).1 (hrecords p hp).2
  · intro hlt id p timeout started hin e he hep
    have hlate := h.late (Nat.lt_of_le_of_lt hnext hlt) id p timeout started (hbegan _ _ _ hin)
    rcases hrunning e he with hold | hfinishing | htested
    · exact hlate e hold hep
    · exact hfinishing
    · exact absurd (hlate _ htested hep) (by simp)
  · intro hlt id p timeout started call user timeout' left now hin
    have hnever := h.never (Nat.lt_of_le_of_lt hnext hlt) id p timeout started call user timeout'
      left now
    rcases hlog with hlog | ⟨e, hlog, -, -, he⟩
    · exact hnever (hlog ▸ hin)
    · rw [hlog, quadruple_sublist_concat] at hin
      rcases hin with hin | ⟨rfl, -⟩
      · exact hnever hin
      · exact absurd (he p) (by simp [TimerEvent.invokes])

lemma Silent.remove (h : c.Silent) (hr : c.Registry) (id : UInt32) : (c.remove id).Silent := by
  obtain ⟨-, hnext, -, hrunning, -, -⟩ := c.frame_remove id
  have hkeeps : ∀ p, (c.records p).func = none ∨ (c.records p).done = true →
      ((c.remove id).records p).func = none ∨ ((c.remove id).records p).done = true := by
    intro p hp
    rw [records_remove]
    split_ifs
    · exact .inl rfl
    · exact hp
  constructor
  · intro hlt id' p timeout started hin
    rw [hnext] at hlt
    rw [log_remove, pair_sublist_concat] at hin
    rcases hin with hin | ⟨heq, hmem⟩
    · exact hkeeps p (h.silenced hlt id' p timeout started hin)
    · obtain rfl := TimerEvent.removed.inj heq
      rcases hr.kept hlt id' p timeout started hmem with hlookup | hdeleted
      · rw [records_remove, if_pos hlookup]
        exact .inl rfl
      · exact hkeeps p (.inr (hr.deleted p hdeleted))
  · intro hlt id' p timeout started hin
    rw [hnext] at hlt
    rw [log_remove, triple_sublist_concat] at hin
    rw [hrunning]
    exact h.late hlt id' p timeout started (hin.resolve_right (by simp))
  · intro hlt id' p timeout started call user timeout' left now hin
    rw [hnext] at hlt
    rw [log_remove, quadruple_sublist_concat] at hin
    exact h.never hlt id' p timeout started call user timeout' left now
      (hin.resolve_right (by simp))

/-- An execution that starts after its timer was removed finds no handler. -/
lemma Silent.begin (h : c.Silent) (ha : c.Alive) {q : ℕ} (hq : q ∈ c.jobs) :
    (c.begin q).Silent := by
  have hlog : (c.begin q).log = c.log ++ [.began q] := rfl
  have hlife := ha.life q
  constructor
  · intro hlt id p timeout started hin
    rw [hlog, pair_sublist_concat] at hin
    exact h.silenced hlt id p timeout started (hin.resolve_right (by simp))
  · intro hlt id p timeout started hin e he hep
    rw [hlog, triple_sublist_concat] at hin
    have hpair : [.registered id p timeout started, .removed id].Sublist c.log := by
      rcases hin with hin | hin
      · exact (List.sublist_append_left [_, _] [_]).trans hin
      · exact hin.2
    rcases List.mem_cons.mp he with rfl | hold
    · -- the new execution: its record is not done, so its handler is gone
      obtain rfl : q = p := hep
      rcases h.silenced hlt id q timeout started hpair with hfunc | hdone
      · simp [hfunc]
      · rw [hlife.not_done (outstanding_pos_of_job hq)] at hdone
        exact absurd hdone Bool.false_ne_true
    · rcases hin with hin | ⟨heq, -⟩
      · exact h.late hlt id p timeout started hin e hold hep
      · -- there is no other one
        obtain rfl := TimerEvent.began.inj heq
        have hjob : 0 < c.jobs.count p := List.count_pos_iff.mpr hq
        have hrun : 0 < c.running.countP fun e => e.1 = p :=
          List.countP_pos_iff.mpr ⟨e, hold, by simp [hep]⟩
        have hle := hlife.outstanding_le
        rw [outstanding] at hle
        omega
  · intro hlt id p timeout started call user timeout' left now hin
    rw [hlog, quadruple_sublist_concat] at hin
    exact h.never hlt id p timeout started call user timeout' left now
      (hin.resolve_right (by simp))

lemma Silent.invoke (h : c.Silent) {q : ℕ} {call : TimerHandler}
    (hq : (q, .taken call) ∈ c.running) : (c.invoke q call).Silent := by
  have hlog : (c.invoke q call).log = c.log ++ [.invoked q call (c.records q).user
      (c.records q).timeout (c.records q).left c.clock] := rfl
  constructor
  · intro hlt id p timeout started hin
    rw [hlog, pair_sublist_concat] at hin
    exact h.silenced hlt id p timeout started (hin.resolve_right (by simp))
  · intro hlt id p timeout started hin e he hep
    rw [hlog, triple_sublist_concat] at hin
    rcases List.mem_cons.mp he with rfl | hold
    · rfl
    · exact h.late hlt id p timeout started (hin.resolve_right (by simp)) e
        (List.mem_of_mem_erase hold) hep
  · intro hlt id p timeout started call' user timeout' left now hin
    rw [hlog, quadruple_sublist_concat] at hin
    rcases hin with hin | ⟨heq, hin⟩
    · exact h.never hlt id p timeout started call' user timeout' left now hin
    · obtain ⟨rfl, -⟩ := TimerEvent.invoked.inj heq
      exact absurd (h.late hlt id p timeout started hin _ hq rfl) (by simp)

/-! ### Runs -/

/-- What holds in every state that is reached. -/
structure Sound (c : TimerContext) : Prop where
  alive : c.Alive
  registry : c.Registry
  punctual : c.Punctual
  silent : c.Silent

namespace Sound

lemma init {now : UInt64} (h : 0 < now) : Sound { clock := now } where
  alive := .init h
  registry :=
    { ids := rfl
      count := rfl
      registered := fun _ _ _ _ hmem => nomatch hmem
      known := fun p hp => absurd hp (Nat.not_lt_zero p)
      listed := fun _ _ hlookup => nomatch hlookup
      kept := fun _ _ _ _ _ hmem => nomatch hmem
      deleted := fun _ hmem => nomatch hmem }
  punctual :=
    { canceled := fun _ hcanceled => nomatch hcanceled
      waited := fun _ _ _ _ _ _ hmem => nomatch hmem }
  silent :=
    { silenced := fun _ _ _ _ _ hin => nomatch hin
      late := fun _ _ _ _ _ hin => nomatch hin
      never := fun _ _ _ _ _ _ _ _ _ _ hin => nomatch hin }

/-- A step that is not in the log, and writes only what the results do not speak of. -/
lemma unseen (h : c.Sound) {c' : TimerContext} (halive : c'.Alive) (hids : c'.ids = c.ids)
    (hnext : c'.next = c.next) (htimers : c'.timers = c.timers) (hlog : c'.log = c.log)
    (hrecords : ∀ p, (c'.records p).timeout = (c.records p).timeout ∧
      (c'.records p).started = (c.records p).started ∧
      (c'.records p).canceled = (c.records p).canceled ∧
      ((c.records p).func = none → (c'.records p).func = none) ∧
      ((c.records p).done = true → (c'.records p).done = true))
    (hrunning : ∀ e ∈ c'.running, e ∈ c.running ∨ e.2 = .finishing ∨ (e.1, .tested) ∈ c.running) :
    c'.Sound where
  alive := halive
  registry := h.registry.frame hids hnext htimers (.inl hlog) fun p =>
    ⟨(hrecords p).1, (hrecords p).2.1, (hrecords p).2.2.2.2⟩
  punctual := h.punctual.frame (.inl hlog) fun p hp => .inl ((hrecords p).2.2.1 ▸ hp)
  silent := h.silent.frame h.registry (Nat.le_of_eq hnext.symm) (.inl hlog)
    (fun p _ => (hrecords p).2.2.2) hrunning

lemma dispatch (h : c.Sound) {id : UInt32} {p : ℕ} (hid : c.timers.lookup id = some p)
    (hhit : (c.records p).Hit c.clock) (hcalled : (c.records p).calledAt = 0) :
    (c.dispatch p).Sound := by
  have hlt := (h.registry.registered _ _ _ _ (h.registry.listed id p hid).1).1
  refine h.unseen (h.alive.dispatch hlt hhit hcalled) rfl rfl rfl rfl (fun q => ?_)
    fun e he => .inl he
  by_cases hq : q = p
  · subst hq
    simp [TimerContext.dispatch, TimerContext.write]
  · simp [TimerContext.dispatch, TimerContext.write, Function.update_of_ne hq]

lemma reclaim (h : c.Sound) {id : UInt32} {p : ℕ} (hid : c.timers.lookup id = some p)
    (hdone : (c.records p).done = true) : (c.reclaim id p).Sound where
  alive := Alive.emit (c := { c with timers := c.timers.erase id })
    ⟨h.alive.clock_pos, fun q =>
      { once := (h.alive.life q).once
        calls := (h.alive.life q).calls
        fresh := (h.alive.life q).fresh
        started_le := (h.alive.life q).started_le
        calledAt_le := (h.alive.life q).calledAt_le
        due := (h.alive.life q).due }⟩ fun _ => rfl
  registry := h.registry.reclaim hid hdone
  punctual := h.punctual.frame (.inr ⟨_, rfl, fun _ => rfl⟩) fun _ hp => .inl hp
  silent := h.silent.frame h.registry le_rfl (.inr ⟨_, rfl, by simp, by simp, fun _ => rfl⟩)
    (fun _ _ => ⟨fun hfunc => hfunc, fun hdone => hdone⟩) fun e he => .inl he

lemma visit (h : c.Sound) (id : UInt32) : (c.visit id).Sound := by
  obtain heq | ⟨p, hid, hhit, hcalled, heq⟩ | ⟨p, hid, hdone, heq⟩ := c.visit_cases id
  · rwa [heq]
  · rw [heq]
    exact h.dispatch hid hhit hcalled
  · rw [heq]
    exact h.reclaim hid hdone

lemma foldl_visit (h : c.Sound) (ids : List UInt32) :
    (ids.foldl (fun c id => c.visit id) c).Sound := by
  induction ids generalizing c with
  | nil => exact h
  | cons id ids ih => exact ih (h.visit id)

lemma tickAll (h : c.Sound) : c.tickAll.Sound := by
  rw [TimerContext.tickAll]
  split
  · exact h.foldl_visit _
  · exact h

lemma callLater (h : c.Sound) (user : ℕ) (func : Option TimerHandler) (timeout : UInt64) :
    (c.callLater user func timeout).Sound := by
  refine ⟨h.alive.callLater user func timeout, h.registry.callLater h.alive user func timeout,
    h.punctual.frame (.inr ⟨_, rfl, fun _ => rfl⟩) fun p hp => ?_,
    h.silent.frame h.registry (Nat.le_succ _) (.inr ⟨_, rfl, by simp, by simp, fun _ => rfl⟩)
      (fun p hp => ?_) fun e he => .inl he⟩
  · by_cases hp' : p = c.next
    · rw [hp', records_callLater_next] at hp
      exact absurd hp Bool.false_ne_true
    · rw [c.records_callLater_of_ne user func timeout hp'] at hp
      exact .inl hp
  · rw [c.records_callLater_of_ne user func timeout (Nat.ne_of_lt hp)]
    exact ⟨id, id⟩

lemma cancel (h : c.Sound) (id : UInt32) : (c.cancel id).Sound := by
  obtain ⟨hids, hnext, htimers, hrunning, -, -⟩ := c.frame_cancel id
  have hlog := c.log_cancel id
  have hrecords := c.records_cancel id
  refine ⟨h.alive.cancel id, h.registry.frame hids hnext htimers (.inr ⟨_, hlog, rfl, by simp⟩)
    fun p => ?_, h.punctual.cancels h.registry (.inl rfl) hlog fun p hp => ?_,
    h.silent.frame h.registry (Nat.le_of_eq hnext.symm)
      (.inr ⟨_, hlog, by simp, by simp, fun _ => rfl⟩)
      (fun p _ => ?_) fun e he => .inl (hrunning ▸ he)⟩
  · rw [hrecords]
    split <;> exact ⟨rfl, rfl, fun hdone => hdone⟩
  · rw [hrecords] at hp
    split_ifs at hp with hid
    exacts [.inr hid, .inl hp]
  · rw [hrecords]
    split <;> exact ⟨fun hfunc => hfunc, fun hdone => hdone⟩

lemma remove (h : c.Sound) (id : UInt32) : (c.remove id).Sound := by
  obtain ⟨hids, hnext, htimers, -, -, -⟩ := c.frame_remove id
  have hlog := c.log_remove id
  have hrecords := c.records_remove id
  refine ⟨h.alive.remove id, h.registry.frame hids hnext htimers (.inr ⟨_, hlog, rfl, by simp⟩)
    fun p => ?_, h.punctual.cancels h.registry (.inr rfl) hlog fun p hp => ?_,
    h.silent.remove h.registry id⟩
  · rw [hrecords]
    split <;> exact ⟨rfl, rfl, fun hdone => hdone⟩
  · rw [hrecords] at hp
    split_ifs at hp with hid
    exacts [.inr hid, .inl hp]

lemma begin (h : c.Sound) {p : ℕ} (hp : p ∈ c.jobs) : (c.begin p).Sound where
  alive := h.alive.begin hp
  registry := h.registry.frame rfl rfl rfl (.inr ⟨_, rfl, rfl, by simp⟩) fun _ =>
    ⟨rfl, rfl, fun hdone => hdone⟩
  punctual := h.punctual.frame (.inr ⟨_, rfl, fun _ => rfl⟩) fun _ hp => .inl hp
  silent := h.silent.begin h.alive hp

lemma take (h : c.Sound) {p : ℕ} {call : TimerHandler} (hp : (p, .tested) ∈ c.running) :
    (c.take p call).Sound := by
  refine h.unseen (h.alive.take hp) rfl rfl rfl rfl (fun q => ?_) fun e he => ?_
  · by_cases hq : q = p
    · subst hq
      simp [TimerContext.take, TimerContext.write]
    · simp [TimerContext.take, TimerContext.write, Function.update_of_ne hq]
  · rcases List.mem_cons.mp he with rfl | hold
    · exact .inr (.inr hp)
    · exact .inl (List.mem_of_mem_erase hold)

lemma invoke (h : c.Sound) {p : ℕ} {call : TimerHandler} (hp : (p, .taken call) ∈ c.running) :
    (c.invoke p call).Sound where
  alive := h.alive.invoke hp
  registry := h.registry.frame rfl rfl rfl (.inr ⟨_, rfl, rfl, by simp⟩) fun _ =>
    ⟨rfl, rfl, fun hdone => hdone⟩
  punctual := h.punctual.invoke h.alive h.registry hp
  silent := h.silent.invoke hp

lemma finish (h : c.Sound) {p : ℕ} (hp : (p, .finishing) ∈ c.running) : (c.finish p).Sound := by
  refine h.unseen (h.alive.finish hp) rfl rfl rfl rfl (fun q => ?_) fun e he =>
    .inl (List.mem_of_mem_erase he)
  by_cases hq : q = p
  · subst hq
    simp [TimerContext.finish, TimerContext.write]
  · simp [TimerContext.finish, TimerContext.write, Function.update_of_ne hq]

lemma step (h : c.Sound) {c' : TimerContext} (hstep : Step c c') : c'.Sound := by
  cases hstep with
  | advance now hnow =>
    exact h.unseen (h.alive.advance hnow) rfl rfl rfl rfl
      (fun _ => ⟨rfl, rfl, rfl, fun hfunc => hfunc, fun hdone => hdone⟩) fun e he => .inl he
  | callLater user func timeout => exact h.callLater user func timeout
  | cancel id => exact h.cancel id
  | remove id => exact h.remove id
  | tickAll => exact h.tickAll
  | begin p hp => exact h.begin hp
  | take p call hp => exact h.take hp
  | invoke p call hp => exact h.invoke hp
  | finish p hp => exact h.finish hp

end Sound

lemma Reachable.sound (h : c.Reachable) : c.Sound := by
  induction h with
  | init now hpos => exact .init hpos
  | step _ hstep ih => exact ih.step hstep

/-- Every handler is called once at most, not before its timeout is over unless its timer was
cancelled or removed, and by no execution that starts after its timer was removed. A record that is
deleted has no job that is not over. -/
theorem timer_safety (h : c.Reachable) (hcalls : c.log.countP TimerEvent.registers < UInt32.size) :
    (∀ p, c.invocations p ≤ 1) ∧
    (∀ id p timeout started call user timeout' left now,
      .registered id p timeout started ∈ c.log → .invoked p call user timeout' left now ∈ c.log →
        started.toNat + timeout.toNat ≤ now.toNat ∨ ∃ e, cancels id e ∧
          [.registered id p timeout started, e,
            .invoked p call user timeout' left now].Sublist c.log) ∧
    (∀ id p timeout started call user timeout' left now,
      ¬ [.registered id p timeout started, .removed id, .began p,
        .invoked p call user timeout' left now].Sublist c.log) ∧
    ∀ p, .deleted p ∈ c.log → c.outstanding p = 0 := by
  have hs := h.sound
  rw [hs.registry.count] at hcalls
  refine ⟨fun p => ?_, ?_, hs.silent.never hcalls, fun p hp => ?_⟩
  · have hlife := hs.alive.life p
    have hle : c.outstanding p + (c.records p).done.toNat ≤ 1 := by
      rw [hlife.once]
      split <;> omega
    have hfinishing : c.running.count (p, .finishing) ≤ c.outstanding p := by
      refine Nat.le_trans ?_ (Nat.le_add_left _ _)
      rw [List.count]
      refine List.countP_mono_left fun e _ he => ?_
      rw [eq_of_beq he]
      simp
    have hcalls := hlife.calls
    omega
  · intro id p timeout started call user timeout' left now hreg hinvoked
    obtain ⟨id', started', hreg', hwait⟩ := hs.punctual.waited _ _ _ _ _ _ hinvoked
    obtain ⟨-, rfl, rfl, rfl⟩ := hs.registry.registered _ _ _ _ hreg
    obtain ⟨-, rfl, rfl, rfl⟩ := hs.registry.registered _ _ _ _ hreg'
    exact hwait
  · exact (hs.alive.life p).outstanding_eq (hs.registry.deleted p hp)

/-- A timer of ten milliseconds, when it is over. -/
def overdue : TimerContext :=
  { ({ clock := 5 } : TimerContext).callLater 0 (some 7) 10 with clock := 15 }

/-- Its handler is called, and its record deleted. -/
def calledAndDeleted : TimerContext :=
  ((((overdue.tickAll.begin 0).take 0 7).invoke 0 7).finish 0).tickAll

lemma reachable_calledAndDeleted : calledAndDeleted.Reachable := by
  have hoverdue : overdue.Reachable :=
    .step (.step (.init 5 (by decide)) (.callLater _ 0 (some 7) 10)) (.advance _ 15 (by decide))
  refine .step (.step (.step (.step (.step (.step hoverdue (.tickAll _)) (.begin _ 0 ?_))
    (.take _ 0 7 ?_ ?_)) (.invoke _ 0 7 ?_)) (.finish _ 0 ?_)) (.tickAll _)
  all_goals decide +kernel

theorem timer_safety_deleted :
    (∀ p, calledAndDeleted.invocations p ≤ 1) ∧
    ((5 : UInt64).toNat + (10 : UInt64).toNat ≤ (15 : UInt64).toNat ∨ ∃ e, cancels 1 e ∧
      [.registered 1 0 10 5, e, .invoked 0 7 0 10 0 15].Sublist calledAndDeleted.log) ∧
    ¬ [.registered 1 0 10 5, .removed 1, .began 0, .invoked 0 7 0 10 0 15].Sublist
      calledAndDeleted.log ∧
    calledAndDeleted.outstanding 0 = 0 := by
  obtain ⟨honce, htime, hremoved, hover⟩ := timer_safety reachable_calledAndDeleted
    (by decide +kernel)
  exact ⟨honce, htime 1 0 10 5 7 0 10 0 15 (by decide +kernel) (by decide +kernel),
    hremoved 1 0 10 5 7 0 10 0 15, hover 0 (by decide +kernel)⟩

end TimerContext

end Udap
