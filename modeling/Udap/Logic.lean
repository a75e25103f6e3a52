import Udap.ThreadPool
import Udap.Timer.Safety

/-!
`udap_logic`: a pool of one thread, and the timers, whose jobs go to that pool.

The timers keep an account of their own of the jobs that they sent (`TimerContext.jobs` and
`TimerContext.running`). No step here reads it: which job is run, and when, is up to the pool. That
the account is right is what is proved.

* `Sync`: the account of the timers agrees with the pool.
* `logic_serial`: the timers of a `udap_logic` reach only states that timers may reach, their jobs
  are executed one at a time and in the order in which their timers were hit, and when the pool was
  stopped and joined all that it accepted is done.
-/

namespace Udap

/-- `udap_thread_job` in the pool of `udap_logic`: `timer::call` with a record, or other work. -/
inductive LogicJob (W : Type)
  | timer (p : ℕ)
  | work (w : W)

/-- The record of a timer's job. -/
def LogicJob.record {W : Type} : LogicJob W → Option ℕ
  | timer p => some p
  | work _ => none

/-- `udap_logic`, from `udap_init_logic`. -/
structure Logic (W : Type) where
  thread : Pool (LogicJob W) := .new 1
  timer : TimerContext
  /-- where the thread is in `timer::exec`, once it is there -/
  exec : Option ExecPhase := none

namespace Logic

variable {W : Type} (l : Logic W)

/-- What `udap_timer_tick_all` does when its iterator is at an id. -/
def visit (id : UInt32) : Logic W :=
  match l.timer.timers.lookup id with
  | none => l
  | some p =>
      let timer := l.timer.records p
      if timer.Hit l.timer.clock then
        if timer.func.isSome = true ∧ timer.calledAt = 0 then
          { l with timer := l.timer.dispatch p, thread := l.thread.queueJob (.timer p) }
        else if timer.done then { l with timer := l.timer.reclaim id p }
        else l
      else l

/-- `udap_logic_tick`. -/
def tick : Logic W :=
  if l.timer.run then l.timer.timers.keys.foldl (fun l id => l.visit id) l else l

/-- The thread begins `timer::exec`. -/
def begin (p : ℕ) : Logic W :=
  { l with
    timer := l.timer.begin p
    exec := some (if (l.timer.records p).func.isSome then .tested else .finishing) }

/-- What the threads around a `udap_logic` may do next. -/
inductive Step : Logic W → Logic W → Prop
  | advance (l : Logic W) (now : UInt64) (h : l.timer.clock ≤ now) :
      Step l { l with timer := { l.timer with clock := now } }
  | callLater (l : Logic W) (user : ℕ) (func : Option TimerHandler) (timeout : UInt64) :
      Step l { l with timer := l.timer.callLater user func timeout }
  | cancelCall (l : Logic W) (id : UInt32) : Step l { l with timer := l.timer.cancel id }
  | removeCall (l : Logic W) (id : UInt32) : Step l { l with timer := l.timer.remove id }
  | tick (l : Logic W) : Step l l.tick
  | queueJob (l : Logic W) (w : W) : Step l { l with thread := l.thread.queueJob (.work w) }
  /-- the pool is stopped, or wakes its thread, or its thread looks at the queue -/
  | pool (l : Logic W) (e : PoolEvent (LogicJob W)) (thread : Pool (LogicJob W))
      (h : l.thread.step e = some thread) (he : ∀ i, e ≠ .finish i) (hq : ∀ j, e ≠ .queueJob j) :
      Step l { l with thread := thread }
  | begin (l : Logic W) (i k p : ℕ) (h : l.thread.threads[i]? = some (.working (k, .timer p)))
      (hexec : l.exec = none) : Step l (l.begin p)
  | take (l : Logic W) (i k p : ℕ) (call : TimerHandler)
      (h : l.thread.threads[i]? = some (.working (k, .timer p))) (hexec : l.exec = some .tested)
      (hfunc : (l.timer.records p).func = some call) :
      Step l { l with timer := l.timer.take p call, exec := some (.taken call) }
  | invoke (l : Logic W) (i k p : ℕ) (call : TimerHandler)
      (h : l.thread.threads[i]? = some (.working (k, .timer p)))
      (hexec : l.exec = some (.taken call)) :
      Step l { l with timer := l.timer.invoke p call, exec := some .finishing }
  | finish (l : Logic W) (i k p : ℕ) (thread : Pool (LogicJob W))
      (h : l.thread.threads[i]? = some (.working (k, .timer p)))
      (hexec : l.exec = some .finishing) (hthread : l.thread.step (.finish i) = some thread) :
      Step l { timer := l.timer.finish p, thread := thread, exec := none }
  | work (l : Logic W) (i k : ℕ) (w : W) (thread : Pool (LogicJob W))
      (h : l.thread.threads[i]? = some (.working (k, .work w)))
      (hthread : l.thread.step (.finish i) = some thread) :
      Step l { l with thread := thread }

/-- The states that are reached from a new `udap_logic`, at a clock that is positive. -/
inductive Reachable : Logic W → Prop
  | init (now : UInt64) (h : 0 < now) : Reachable { timer := { clock := now } }
  | step {l l' : Logic W} (h : Reachable l) (hstep : Step l l') : Reachable l'

/-- The records of the timers' jobs among some jobs. -/
def timersOf (jobs : List (ℕ × LogicJob W)) : List ℕ := jobs.filterMap fun job => job.2.record

/-- The record whose job the thread has taken. -/
def held : List ℕ := timersOf l.thread.inHand

/-- The record whose job the thread has taken, and not begun. -/
def heldBack : List ℕ := if l.exec = none then l.held else []

/-- The records whose handler may still be called by what was begun. -/
def uncalled : List ℕ := if l.exec = none ∨ l.exec = some .finishing then [] else l.held

/-- The record of an execution that starts. -/
def beganRecord : TimerEvent → Option ℕ
  | .began p => some p
  | _ => none

/-- The record whose handler is called. -/
def calledRecord : TimerEvent → Option ℕ
  | .invoked p _ _ _ _ _ => some p
  | _ => none

section Jobs

variable (jobs jobs' : List (ℕ × LogicJob W))

@[simp] lemma timersOf_nil : timersOf ([] : List (ℕ × LogicJob W)) = [] := rfl

@[simp] lemma timersOf_append : timersOf (jobs ++ jobs') = timersOf jobs ++ timersOf jobs' :=
  List.filterMap_append

@[simp] lemma timersOf_timer (k p : ℕ) :
    timersOf ((k, (.timer p : LogicJob W)) :: jobs) = p :: timersOf jobs := rfl

@[simp] lemma timersOf_work (k : ℕ) (w : W) : timersOf ((k, .work w) :: jobs) = timersOf jobs := rfl

end Jobs

/-! ### The timers and the pool -/

/-- The account that the timers keep of their jobs is right. -/
structure Sync : Prop where
  pool : l.thread.Sound
  one : l.thread.threads.length = 1
  exec : l.exec ≠ none → l.held ≠ []
  running : l.timer.running = l.exec.toList.flatMap fun phase => l.held.map fun p => (p, phase)
  /-- jobs that come after `Stop` are dropped -/
  jobs : ∃ dropped, l.timer.jobs = l.heldBack ++ timersOf l.thread.jobs ++ dropped ∧
    (l.thread.stop = false → dropped = [])
  begun : l.timer.log.filterMap beganRecord ++ l.heldBack = timersOf l.thread.started
  called : (l.timer.log.filterMap calledRecord ++ l.uncalled).Sublist
    (l.timer.log.filterMap beganRecord)
  done : ∀ p ∈ timersOf l.thread.finished, (l.timer.records p).done = true

section Sync

variable {l}

/-- A new `udap_logic`. -/
lemma sync_init (now : UInt64) : Sync ({ timer := { clock := now } } : Logic W) where
  pool := Pool.sound_new 1
  one := rfl
  exec h := absurd rfl h
  running := rfl
  jobs := ⟨[], rfl, fun _ => rfl⟩
  begun := rfl
  called := .slnil
  done _ h := absurd h List.not_mem_nil

/-- There is one thread. -/
lemma Sync.threads_eq (h : l.Sync) {i : ℕ} {w : Worker (LogicJob W)}
    (hi : l.thread.threads[i]? = some w) : i = 0 ∧ l.thread.threads = [w] := by
  obtain ⟨v, hv⟩ := List.length_eq_one_iff.mp h.one
  rw [hv] at hi ⊢
  cases i with
  | zero => simpa using hi
  | succ i => simp at hi

lemma inHand_eq {pool : Pool (LogicJob W)} {w : Worker (LogicJob W)} (h : pool.threads = [w]) :
    pool.inHand = w.job.toList := by
  rw [Pool.inHand, h]
  cases hw : w.job <;> simp [hw]

lemma held_eq {w : Worker (LogicJob W)} (h : l.thread.threads = [w]) :
    l.held = timersOf w.job.toList := congrArg timersOf (inHand_eq h)

lemma Sync.threads_setWorker (h : l.Sync) {i : ℕ} {w : Worker (LogicJob W)}
    (hi : l.thread.threads[i]? = some w) (w' : Worker (LogicJob W)) :
    (l.thread.setWorker i w').threads = [w'] := by
  obtain ⟨rfl, hthreads⟩ := h.threads_eq hi
  simp [Pool.setWorker, hthreads]

/-- The thread goes on, and has nothing in hand before and after. -/
lemma Sync.inHand_setWorker (h : l.Sync) {i : ℕ} {w w' : Worker (LogicJob W)}
    (hi : l.thread.threads[i]? = some w) (hw : w.job = none) (hw' : w'.job = none) :
    (l.thread.setWorker i w').inHand = l.thread.inHand := by
  rw [inHand_eq (h.threads_setWorker hi w'), inHand_eq (h.threads_eq hi).2, hw, hw']

lemma heldBack_congr {l' : Logic W} (hheld : l'.held = l.held) (hexec : l'.exec = l.exec) :
    l'.heldBack = l.heldBack := by rw [heldBack, heldBack, hexec, hheld]

lemma uncalled_congr {l' : Logic W} (hheld : l'.held = l.held) (hexec : l'.exec = l.exec) :
    l'.uncalled = l.uncalled := by rw [uncalled, uncalled, hexec, hheld]

/-- What the timers do by themselves. -/
lemma Sync.timer (h : l.Sync) {c : TimerContext} (hjobs : c.jobs = l.timer.jobs)
    (hrunning : c.running = l.timer.running)
    (hbegan : c.log.filterMap beganRecord = l.timer.log.filterMap beganRecord)
    (hcalled : c.log.filterMap calledRecord = l.timer.log.filterMap calledRecord)
    (hdone : ∀ p, (l.timer.records p).done = true → (c.records p).done = true) :
    Sync { l with timer := c } where
  pool := h.pool
  one := h.one
  exec := h.exec
  running := hrunning.trans h.running
  jobs := hjobs ▸ h.jobs
  begun := by
    have := h.begun
    rwa [← hbegan] at this
  called := by
    have := h.called
    rwa [← hbegan, ← hcalled] at this
  done p hp := hdone p (h.done p hp)

/-- What the pool does by itself, but for the thread that takes a job. -/
lemma Sync.thread (h : l.Sync) {pool : Pool (LogicJob W)} (hpool : pool.Sound)
    (hone : pool.threads.length = l.thread.threads.length) (hhand : pool.inHand = l.thread.inHand)
    (hjobs : pool.jobs = l.thread.jobs) (hstarted : pool.started = l.thread.started)
    (hfinished : pool.finished = l.thread.finished)
    (hstop : pool.stop = false → l.thread.stop = false) :
    Sync { l with thread := pool } := by
  have hheld : held { l with thread := pool } = l.held := congrArg timersOf hhand
  obtain ⟨dropped, heq, hdropped⟩ := h.jobs
  refine ⟨hpool, hone.trans h.one, ?_, ?_, ⟨dropped, ?_, fun hs => hdropped (hstop hs)⟩, ?_, ?_, ?_⟩
  · rw [hheld]
    exact h.exec
  · rw [hheld]
    exact h.running
  · rw [heldBack_congr hheld rfl]
    simpa [hjobs] using heq
  · rw [heldBack_congr hheld rfl]
    simpa [hstarted] using h.begun
  · rw [uncalled_congr hheld rfl]
    exact h.called
  · simpa [hfinished] using h.done

/-- Where a job that is queued ends up. -/
lemma queueJob_cases (pool : Pool (LogicJob W)) (job : LogicJob W) :
    pool.stop = true ∧ pool.queueJob job = pool ∨
      pool.stop = false ∧ ∃ k, (pool.queueJob job).jobs = pool.jobs ++ [(k, job)] := by
  rw [Pool.queueJob]
  cases hstop : pool.stop with
  | true => exact .inl ⟨rfl, by simp⟩
  | false => exact .inr ⟨rfl, pool.accepted.length, by simp⟩

lemma frame_queueJob (pool : Pool (LogicJob W)) (job : LogicJob W) :
    (pool.queueJob job).threads = pool.threads ∧ (pool.queueJob job).started = pool.started ∧
      (pool.queueJob job).finished = pool.finished ∧ (pool.queueJob job).stop = pool.stop := by
  rw [Pool.queueJob]
  split_ifs <;> exact ⟨rfl, rfl, rfl, rfl⟩

/-- A job is queued, and the timers know of it if it is one of theirs. -/
lemma Sync.queueJob (h : l.Sync) (job : LogicJob W) {c : TimerContext}
    (hjobs : c.jobs = l.timer.jobs ++ job.record.toList) (hrunning : c.running = l.timer.running)
    (hlog : c.log = l.timer.log)
    (hdone : ∀ p, (l.timer.records p).done = true → (c.records p).done = true) :
    Sync { l with timer := c, thread := l.thread.queueJob job } := by
  obtain ⟨hthreads, hstarted, hfinished, hstop⟩ := frame_queueJob l.thread job
  have hheld : held { l with timer := c, thread := l.thread.queueJob job } = l.held := by
    rw [held, held, Pool.inHand, Pool.inHand, hthreads]
  obtain ⟨dropped, heq, hdropped⟩ := h.jobs
  refine ⟨h.pool.step (e := .queueJob job) rfl, hthreads ▸ h.one, ?_, ?_, ?_, ?_, ?_, ?_⟩
  · rw [hheld]
    exact h.exec
  · rw [hheld, hrunning]
    exact h.running
  · rw [heldBack_congr hheld rfl]
    simp only [hjobs, heq, hstop]
    rcases queueJob_cases l.thread job with ⟨hs, hq⟩ | ⟨hs, k, hq⟩
    · exact ⟨dropped ++ job.record.toList, by rw [hq, List.append_assoc], by simp [hs]⟩
    · refine ⟨[], ?_, fun _ => rfl⟩
      rw [hdropped hs, hq, timersOf_append]
      cases job <;> simp [LogicJob.record]
  · rw [heldBack_congr hheld rfl]
    simpa [hstarted, hlog] using h.begun
  · rw [uncalled_congr hheld rfl]
    simpa [hlog] using h.called
  · intro p hp
    exact hdone p (h.done p (by simpa [hfinished] using hp))

/-! ### The tick -/

lemma timer_visit (id : UInt32) : (l.visit id).timer = l.timer.visit id := by
  cases hid : l.timer.timers.lookup id with
  | none => simp [visit, TimerContext.visit, hid]
  | some p =>
    simp only [visit, hid, TimerContext.visit_eq hid]
    split_ifs <;> rfl

/-- The tick of a `udap_logic` is that of its timers. -/
lemma timer_tick : l.tick.timer = l.timer.tickAll := by
  rw [tick, TimerContext.tickAll]
  split_ifs
  · exact (List.foldl_hom Logic.timer fun l id => (timer_visit (l := l) id).symm).symm
  · rfl

lemma Sync.visit (h : l.Sync) (id : UInt32) : (l.visit id).Sync := by
  rw [Logic.visit]
  split
  · exact h
  · next p hid =>
    simp only
    split_ifs with hhit hcall hdone
    · refine h.queueJob (.timer p) rfl rfl rfl fun q hq => ?_
      by_cases hqp : q = p
      · subst hqp
        simpa [TimerContext.dispatch, TimerContext.write] using hq
      · simpa [TimerContext.dispatch, TimerContext.write, Function.update_of_ne hqp] using hq
    · refine h.timer rfl rfl ?_ ?_ fun q hq => hq
      · simp [TimerContext.reclaim, TimerContext.emit, beganRecord]
      · simp [TimerContext.reclaim, TimerContext.emit, calledRecord]
    · exact h
    · exact h

lemma Sync.foldl_visit (h : l.Sync) (ids : List UInt32) :
    (ids.foldl (fun l id => l.visit id) l).Sync := by
  induction ids generalizing l with
  | nil => exact h
  | cons id ids ih => exact ih (h.visit id)

lemma Sync.tick (h : l.Sync) : l.tick.Sync := by
  rw [Logic.tick]
  split_ifs
  · exact h.foldl_visit _
  · exact h

/-! ### The thread -/

/-- The pool does something but finish a job, and nobody queues one. -/
lemma Sync.poolStep (h : l.Sync) {e : PoolEvent (LogicJob W)} {thread : Pool (LogicJob W)}
    (hstep : l.thread.step e = some thread) (he : ∀ i, e ≠ .finish i)
    (hq : ∀ job, e ≠ .queueJob job) : Sync { l with thread := thread } := by
  have hsound := h.pool.step hstep
  cases Pool.move_of_step hstep with
  | refused job => exact absurd rfl (hq job)
  | queued job => exact absurd rfl (hq job)
  | finished => exact absurd rfl (he _)
  | stopped => exact h.thread hsound rfl rfl rfl rfl rfl (by simp [Pool.stopped])
  | lost => exact h.thread hsound rfl rfl rfl rfl rfl id
  | woken hk hi =>
    exact h.thread hsound Pool.length_threads_setWorker (h.inHand_setWorker hi rfl rfl) rfl rfl
      rfl id
  | wokenAll =>
    exact h.thread hsound (List.length_map Worker.woken) (Pool.filterMap_job_woken _) rfl rfl rfl id
  | returned hi =>
    exact h.thread hsound Pool.length_threads_setWorker (h.inHand_setWorker hi rfl rfl) rfl rfl
      rfl id
  | blocked hi =>
    exact h.thread hsound Pool.length_threads_setWorker (h.inHand_setWorker hi rfl rfl) rfl rfl
      rfl id
  | spurious hi =>
    exact h.thread hsound Pool.length_threads_setWorker (h.inHand_setWorker hi rfl rfl) rfl rfl
      rfl id
  | @took i job jobs hi hjobs =>
    -- the thread had nothing in hand, so it was not in `timer::exec`
    have hheld : l.held = [] := held_eq (h.threads_eq hi).2
    have hexec : l.exec = none := by
      by_contra hne
      exact h.exec hne hheld
    have hheld' : timersOf (l.thread.setWorker i (.working job)).inHand = timersOf [job] :=
      congrArg timersOf (inHand_eq (h.threads_setWorker hi (.working job)))
    obtain ⟨dropped, heq, hdropped⟩ := h.jobs
    have hbegun := h.begun
    have hcalled := h.called
    simp only [heldBack, uncalled, hexec, hheld, reduceIte, true_or, List.nil_append,
      List.append_nil] at heq hbegun hcalled
    refine ⟨hsound, Pool.length_threads_setWorker.trans h.one, fun hne => absurd hexec hne, ?_,
      ⟨dropped, ?_, hdropped⟩, ?_, ?_, h.done⟩
    · simpa [hexec] using h.running
    · have hcons : timersOf [job] ++ timersOf jobs = timersOf (job :: jobs) :=
        (timersOf_append [job] jobs).symm
      simp only [heldBack, hexec, reduceIte, held]
      rw [heq, hjobs, ← hcons, ← hheld']
      rfl
    · simp only [heldBack, hexec, reduceIte, timersOf_append]
      rw [hbegun, ← hheld']
      rfl
    · simpa [uncalled, hexec] using hcalled

variable {i k p : ℕ}

/-- The thread is at a timer's job. -/
lemma Sync.held_timer (h : l.Sync) (hi : l.thread.threads[i]? = some (.working (k, .timer p))) :
    l.held = [p] := held_eq (h.threads_eq hi).2

lemma Sync.begin (h : l.Sync) (hi : l.thread.threads[i]? = some (.working (k, .timer p)))
    (hexec : l.exec = none) : (l.begin p).Sync := by
  have hheld := h.held_timer hi
  have hheld' : (l.begin p).held = [p] := hheld
  obtain ⟨dropped, heq, hdropped⟩ := h.jobs
  have hrunning := h.running
  have hbegun := h.begun
  have hcalled := h.called
  simp only [heldBack, uncalled, hexec, hheld, reduceIte, true_or, Option.toList_none,
    List.flatMap_nil, List.append_nil] at heq hrunning hbegun hcalled
  have hlog : (l.begin p).timer.log = l.timer.log ++ [.began p] := rfl
  refine ⟨h.pool, h.one, fun _ => by simp [hheld'], ?_, ⟨dropped, ?_, hdropped⟩, ?_, ?_, h.done⟩
  · rw [hheld']
    simp [Logic.begin, TimerContext.begin, TimerContext.emit, hrunning]
  · have : (l.begin p).timer.jobs = l.timer.jobs.erase p := rfl
    rw [this, heq]
    simp [heldBack, Logic.begin]
  · rw [hlog, List.filterMap_append]
    simpa [heldBack, Logic.begin, beganRecord] using hbegun
  · rw [hlog, List.filterMap_append, List.filterMap_append]
    simp only [List.filterMap_cons, List.filterMap_nil, calledRecord, beganRecord, List.append_nil]
    refine hcalled.append ?_
    rw [uncalled, hheld']
    split_ifs <;> simp

/-- The thread is in `timer::exec`. -/
lemma Sync.inExec (h : l.Sync) (hi : l.thread.threads[i]? = some (.working (k, .timer p)))
    {phase : ExecPhase} (hexec : l.exec = some phase) :
    l.timer.running = [(p, phase)] ∧
      (∃ dropped, l.timer.jobs = timersOf l.thread.jobs ++ dropped ∧
        (l.thread.stop = false → dropped = [])) ∧
      l.timer.log.filterMap beganRecord = timersOf l.thread.started := by
  have hback : l.heldBack = [] := by simp [heldBack, hexec]
  refine ⟨?_, ?_, ?_⟩
  · simpa [hexec, h.held_timer hi] using h.running
  · simpa [hback] using h.jobs
  · simpa [hback] using h.begun

lemma Sync.take (h : l.Sync) (hi : l.thread.threads[i]? = some (.working (k, .timer p)))
    (hexec : l.exec = some .tested) (call : TimerHandler) :
    Sync { l with timer := l.timer.take p call, exec := some (.taken call) } := by
  have hheld := h.held_timer hi
  have hheld' : held { l with timer := l.timer.take p call, exec := some (.taken call) } = [p] :=
    hheld
  obtain ⟨hrunning, hjobs, hbegun⟩ := h.inExec hi hexec
  refine ⟨h.pool, h.one, fun _ => by simp [hheld'], ?_, ?_, ?_, ?_, fun q hq => ?_⟩
  · rw [hheld']
    simp [TimerContext.take, hrunning]
  · simpa [heldBack, TimerContext.take, TimerContext.write] using hjobs
  · simpa [heldBack, TimerContext.take, TimerContext.write] using hbegun
  · have := h.called
    rw [uncalled, hheld] at this
    rw [uncalled, hheld']
    simpa [hexec, TimerContext.take, TimerContext.write] using this
  · by_cases hqp : q = p
    · subst hqp
      simpa [TimerContext.take, TimerContext.write] using h.done q hq
    · simpa [TimerContext.take, TimerContext.write, Function.update_of_ne hqp] using h.done q hq

lemma Sync.invoke (h : l.Sync) (hi : l.thread.threads[i]? = some (.working (k, .timer p)))
    {call : TimerHandler} (hexec : l.exec = some (.taken call)) :
    Sync { l with timer := l.timer.invoke p call, exec := some .finishing } := by
  have hheld := h.held_timer hi
  have hheld' : held { l with timer := l.timer.invoke p call, exec := some .finishing } = [p] :=
    hheld
  obtain ⟨hrunning, hjobs, hbegun⟩ := h.inExec hi hexec
  refine ⟨h.pool, h.one, fun _ => by simp [hheld'], ?_, ?_, ?_, ?_, h.done⟩
  · rw [hheld']
    simp [TimerContext.invoke, TimerContext.emit, hrunning]
  · simpa [heldBack, TimerContext.invoke, TimerContext.emit] using hjobs
  · simpa [heldBack, TimerContext.invoke, TimerContext.emit, List.filterMap_cons, beganRecord]
      using hbegun
  · have := h.called
    rw [uncalled, hheld] at this
    simpa [uncalled, hexec, TimerContext.invoke, TimerContext.emit, List.filterMap_cons,
      calledRecord, beganRecord] using this

/-- A job of the thread is over. -/
lemma Sync.finished (h : l.Sync) {job : ℕ × LogicJob W} {thread : Pool (LogicJob W)}
    (hi : l.thread.threads[i]? = some (.working job))
    (hstep : l.thread.step (.finish i) = some thread) :
    thread = { l.thread.setWorker i .looking with finished := l.thread.finished ++ [job] } ∧
      thread.inHand = [] := by
  have hthread : thread =
      { l.thread.setWorker i .looking with finished := l.thread.finished ++ [job] } := by
    simpa [Pool.step, hi, eq_comm] using hstep
  refine ⟨hthread, ?_⟩
  rw [hthread]
  exact inHand_eq (h.threads_setWorker hi .looking)

lemma Sync.finish (h : l.Sync) (hi : l.thread.threads[i]? = some (.working (k, .timer p)))
    (hexec : l.exec = some .finishing) {thread : Pool (LogicJob W)}
    (hstep : l.thread.step (.finish i) = some thread) :
    Sync { timer := l.timer.finish p, thread := thread, exec := none } := by
  have hsound := h.pool.step hstep
  obtain ⟨hrunning, hjobs, hbegun⟩ := h.inExec hi hexec
  obtain ⟨hthread, hhand⟩ := h.finished hi hstep
  have hheld : held { timer := l.timer.finish p, thread := thread, exec := none } = [] := by
    rw [held, hhand]
    rfl
  have hcalled := h.called
  simp only [uncalled, hexec, or_true, reduceIte] at hcalled
  refine ⟨hsound, ?_, fun hne => absurd rfl hne, ?_, ?_, ?_, ?_, fun q hq => ?_⟩
  · rw [Pool.length_threads_step hstep, h.one]
  · simp [TimerContext.finish, hrunning]
  · simp only [heldBack, hheld, reduceIte, List.nil_append]
    rw [hthread]
    exact hjobs
  · simp only [heldBack, hheld, reduceIte, List.append_nil]
    rw [hthread]
    exact hbegun
  · simpa [uncalled, TimerContext.finish, TimerContext.write] using hcalled
  · by_cases hqp : q = p
    · subst hqp
      simp [TimerContext.finish, TimerContext.write]
    · have : q ∈ timersOf l.thread.finished := by
        rw [hthread] at hq
        simpa [hqp] using hq
      simpa [TimerContext.finish, TimerContext.write, Function.update_of_ne hqp] using h.done q this

lemma Sync.work {w : W} (h : l.Sync) (hi : l.thread.threads[i]? = some (.working (k, .work w)))
    {thread : Pool (LogicJob W)} (hstep : l.thread.step (.finish i) = some thread) :
    Sync { l with thread := thread } := by
  have hsound := h.pool.step hstep
  obtain ⟨hthread, hhand⟩ := h.finished hi hstep
  have hheld : l.held = [] := held_eq (h.threads_eq hi).2
  have hheld' : held { l with thread := thread } = l.held := by
    rw [hheld, held, hhand]
    rfl
  obtain ⟨dropped, heq, hdropped⟩ := h.jobs
  refine ⟨hsound, ?_, ?_, ?_, ?_, ?_, ?_, fun q hq => h.done q ?_⟩
  · rw [Pool.length_threads_step hstep, h.one]
  · rw [hheld']
    exact h.exec
  · rw [hheld']
    exact h.running
  · rw [heldBack_congr hheld' rfl]
    refine ⟨dropped, ?_, ?_⟩
    · rw [heq, hthread]
      rfl
    · rw [hthread]
      exact hdropped
  · rw [heldBack_congr hheld' rfl, h.begun, hthread]
    rfl
  · rw [uncalled_congr hheld' rfl]
    exact h.called
  · rw [hthread] at hq
    simpa using hq

/-! ### Whole runs -/

/-- A step keeps the account right, where the timers are in a state that they may reach. -/
lemma Sync.step (h : l.Sync) (hreach : l.timer.Reachable) {l' : Logic W} (hstep : Step l l') :
    l'.Sync ∧ l'.timer.Reachable := by
  cases hstep with
  | advance now hnow =>
    exact ⟨h.timer rfl rfl rfl rfl fun _ hp => hp, .step hreach (.advance _ now hnow)⟩
  | callLater user func timeout =>
    refine ⟨h.timer rfl rfl ?_ ?_ fun p hp => ?_, .step hreach (.callLater _ user func timeout)⟩
    · simp [TimerContext.log_callLater, List.filterMap_cons, beganRecord]
    · simp [TimerContext.log_callLater, List.filterMap_cons, calledRecord]
    · -- the new record is not one of those that are done
      have halive := hreach.sound.alive
      have hlt := halive.lt_next ((halive.life p).called_of_done hp)
      rwa [TimerContext.records_callLater_of_ne _ _ _ _ hlt.ne]
  | cancelCall id =>
    obtain ⟨-, -, -, hrunning, hjobs, -⟩ := l.timer.frame_cancel id
    refine ⟨h.timer hjobs hrunning ?_ ?_ fun p hp => ?_, .step hreach (.cancel _ id)⟩
    · simp [List.filterMap_cons, beganRecord]
    · simp [List.filterMap_cons, calledRecord]
    · rw [TimerContext.records_cancel]
      split_ifs <;> exact hp
  | removeCall id =>
    obtain ⟨-, -, -, hrunning, hjobs, -⟩ := l.timer.frame_remove id
    refine ⟨h.timer hjobs hrunning ?_ ?_ fun p hp => ?_, .step hreach (.remove _ id)⟩
    · simp [List.filterMap_cons, beganRecord]
    · simp [List.filterMap_cons, calledRecord]
    · rw [TimerContext.records_remove]
      split_ifs <;> exact hp
  | tick =>
    refine ⟨h.tick, ?_⟩
    rw [timer_tick]
    exact .step hreach (.tickAll _)
  | queueJob w =>
    exact ⟨h.queueJob (.work w) (by simp [LogicJob.record]) rfl rfl fun _ hp => hp, hreach⟩
  | pool e thread hthread he hq => exact ⟨h.poolStep hthread he hq, hreach⟩
  | begin i k p hi hexec =>
    refine ⟨h.begin hi hexec, .step hreach (.begin _ p ?_)⟩
    obtain ⟨dropped, heq, -⟩ := h.jobs
    simp [heq, heldBack, hexec, h.held_timer hi]
  | take i k p call hi hexec hfunc =>
    refine ⟨h.take hi hexec call, .step hreach (.take _ p call ?_ hfunc)⟩
    simp [(h.inExec hi hexec).1]
  | invoke i k p call hi hexec =>
    refine ⟨h.invoke hi hexec, .step hreach (.invoke _ p call ?_)⟩
    simp [(h.inExec hi hexec).1]
  | finish i k p thread hi hexec hthread =>
    refine ⟨h.finish hi hexec hthread, .step hreach (.finish _ p ?_)⟩
    simp [(h.inExec hi hexec).1]
  | work i k w thread hi hthread => exact ⟨h.work hi hthread, hreach⟩

lemma Reachable.sync (h : l.Reachable) : l.Sync ∧ l.timer.Reachable := by
  induction h with
  | init now hpos => exact ⟨sync_init now, .init now hpos⟩
  | step _ hstep ih => exact ih.1.step ih.2 hstep

/-- The timers of a `udap_logic` do what timers may do, one execution after the other and in the
order in which their jobs were queued. -/
theorem logic_serial (h : l.Reachable) :
    l.timer.Reachable ∧ l.timer.running.length ≤ 1 ∧
      l.timer.log.filterMap beganRecord <+: timersOf l.thread.accepted ∧
      (l.timer.log.filterMap calledRecord).Sublist (l.timer.log.filterMap beganRecord) ∧
      (l.thread.Joined → l.timer.running = [] ∧
        l.timer.log.filterMap beganRecord = timersOf l.thread.accepted ∧
        ∀ p ∈ timersOf l.thread.accepted, (l.timer.records p).done = true) := by
  obtain ⟨hsync, hreach⟩ := h.sync
  obtain ⟨w, hw⟩ := List.length_eq_one_iff.mp hsync.one
  have hheld := held_eq hw
  have hprefix : timersOf l.thread.started <+: timersOf l.thread.accepted := by
    rw [← hsync.pool.fifo, timersOf_append]
    exact List.prefix_append _ _
  refine ⟨hreach, ?_, ?_, ?_, fun hjoined => ?_⟩
  -- one thread has one job in hand, and what runs is what it has in hand
  · have hlength : l.held.length ≤ 1 := by
      rw [hheld]
      refine (List.length_filterMap_le _ _).trans ?_
      cases w.job <;> simp
    rw [hsync.running]
    cases l.exec with
    | none => simp
    | some phase => simpa using hlength
  · exact (List.prefix_append _ _).trans (hsync.begun ▸ hprefix)
  · exact (List.sublist_append_left _ _).trans hsync.called
  -- the thread has returned, so nothing is in hand and the queue was worked off
  · have hreturned : w = .returned := hjoined w (by simp [hw])
    have hnone : l.held = [] := by rw [hheld, hreturned]; rfl
    have hexec : l.exec = none := by
      by_contra hne
      exact hsync.exec hne hnone
    obtain ⟨hjobs, hfinished⟩ := hsync.pool.finished_of_joined (by simp [hw]) hjoined
    refine ⟨by simp [hsync.running, hexec], ?_, fun p hp => ?_⟩
    · have hstarted : l.thread.started = l.thread.accepted := by
        rw [← hsync.pool.fifo, hjobs, List.append_nil]
      have hbegun := hsync.begun
      rwa [heldBack, hnone, ite_self, List.append_nil, hstarted] at hbegun
    · exact hsync.done p (((hfinished.filterMap _).mem_iff).mpr hp)

/-- The handler of a timer is called. -/
theorem logic_serial_called : ∃ l : Logic Unit, l.Reachable ∧
    l.timer.log.filterMap calledRecord = [0] ∧
    l.timer.log.filterMap beganRecord <+: timersOf l.thread.accepted := by
  have h₁ : Reachable { timer := ({ clock := 5 } : TimerContext).callLater 0 (some 7) 0 } :=
    .step (.init (W := Unit) 5 (by decide)) (.callLater _ 0 (some 7) 0)
  have h₂ := h₁.step (.tick _)
  have h₃ := h₂.step (.pool _ (.look 0) _ rfl (by simp) (by simp))
  have h₄ := h₃.step (.begin _ 0 0 0 rfl rfl)
  have h₅ := h₄.step (.take _ 0 0 0 7 rfl rfl rfl)
  have h₆ := h₅.step (.invoke _ 0 0 0 7 rfl rfl)
  exact ⟨_, h₆, rfl, (logic_serial h₆).2.2.1⟩

end Sync

end Logic

end Udap
