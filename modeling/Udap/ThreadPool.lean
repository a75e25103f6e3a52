import Mathlib.Algebra.GroupWithZero.Nat
import Mathlib.Data.Fin.Basic
import Mathlib.Data.List.Perm.Basic

/-!
`thread::Pool`: worker threads that take jobs from one queue, under a mutex and a condition
variable.

What a thread does while it holds the mutex is one step; between two steps any other thread may
move. A `notify_one` or `notify_all` comes after the mutex was given back, so it is a step of its
own, and a blocked thread may also wake up for no reason.

* `Sound`: what holds in every state. Jobs are started in the order in which they were accepted,
  each is in one place, and no wakeup is lost (`awake`).
* `Sound.step`: every step keeps it.
* `jobs_run_once`: every job that is queued before `Stop` is started once, in its turn, and when
  `Join` returns all of them are finished.
* `pool_drains`: left alone, the pool comes to rest after boundedly many steps, and then nothing is
  left in its queue and nobody works.
-/

open scoped List

namespace Udap

/-- What a thread of the pool does. The jobs are numbered as they are accepted, since each of them
is an object of its own. -/
inductive Worker (J : Type)
  /-- it is about to test the predicate of `wait` -/
  | looking
  /-- it is blocked in `wait` -/
  | waiting
  | working (job : ℕ × J)
  | returned

namespace Worker

variable {J : Type}

/-- The job in hand. -/
def job : Worker J → Option (ℕ × J)
  | working job => some job
  | _ => none

/-- The worker is about to look at the queue. -/
def isLooking : Worker J → Bool
  | looking => true
  | _ => false

/-- The worker is blocked. -/
def isWaiting : Worker J → Bool
  | waiting => true
  | _ => false

/-- A blocked worker is woken. -/
def woken : Worker J → Worker J
  | waiting => looking
  | w => w

/-- How many steps the worker may take by itself. -/
def weight : Worker J → ℕ
  | looking => 1
  | working _ => 2
  | waiting => 0
  | returned => 0

@[simp] lemma isLooking_looking : (looking : Worker J).isLooking = true := rfl

@[simp] lemma job_woken (w : Worker J) : w.woken.job = w.job := by cases w <;> rfl

@[simp] lemma isWaiting_woken (w : Worker J) : w.woken.isWaiting = false := by cases w <;> rfl

lemma weight_woken_le (w : Worker J) : w.woken.weight ≤ w.weight + 1 := by
  cases w <;> simp [woken, weight]

end Worker

/-- `thread::Pool`. -/
structure Pool (J : Type) where
  threads : List (Worker J)
  jobs : List (ℕ × J) := []
  stop : Bool := false
  /-- calls of `notify_one` that are due -/
  notifyOnes : ℕ := 0
  /-- calls of `notify_all` that are due -/
  notifyAlls : ℕ := 0
  /-- the jobs that were put into the queue -/
  accepted : List (ℕ × J) := []
  /-- the jobs that were taken out of it -/
  started : List (ℕ × J) := []
  finished : List (ℕ × J) := []

/-- What a thread does next. -/
inductive PoolEvent (J : Type)
  /-- `QueueJob`, up to the end of its lock -/
  | queueJob (job : J)
  /-- `Stop`, up to the end of its lock -/
  | stop
  /-- a `notify_one`, and the thread that it wakes, if one is blocked -/
  | notifyOne (i : Option ℕ)
  | notifyAll
  /-- thread `i` looks at the queue -/
  | look (i : ℕ)
  /-- thread `i` has done its job -/
  | finish (i : ℕ)
  /-- thread `i` wakes up for no reason -/
  | spurious (i : ℕ)

/-- What a thread of the pool does without a call from outside, and for a reason. -/
def PoolEvent.isInternal {J : Type} : PoolEvent J → Bool
  | notifyOne _ | notifyAll | look _ | finish _ => true
  | queueJob _ | stop | spurious _ => false

namespace Pool

variable {J : Type}

/-- `Pool::Pool`. -/
def new (workers : ℕ) : Pool J := { threads := List.replicate workers .looking }

variable (p : Pool J)

/-- `QueueJob`, but for its `notify_one`. -/
def queueJob (job : J) : Pool J :=
  if p.stop then p
  else
    { p with
      jobs := p.jobs ++ [(p.accepted.length, job)]
      accepted := p.accepted ++ [(p.accepted.length, job)]
      notifyOnes := p.notifyOnes + 1 }

/-- `Stop`, but for its `notify_all`. -/
def stopped : Pool J := { p with stop := true, notifyAlls := p.notifyAlls + 1 }

/-- A thread goes on. -/
def setWorker (i : ℕ) (w : Worker J) : Pool J := { p with threads := p.threads.set i w }

/-- A thread looks at the queue: it takes the job in front, or returns, or is blocked. -/
def look (i : ℕ) : Pool J :=
  match p.jobs with
  | job :: jobs =>
      { p.setWorker i (.working job) with jobs := jobs, started := p.started ++ [job] }
  | [] => p.setWorker i (if p.stop then .returned else .waiting)

/-- One event, where it can happen. -/
def step : PoolEvent J → Option (Pool J)
  | .queueJob job => some (p.queueJob job)
  | .stop => some p.stopped
  | .notifyOne none =>
      match p.notifyOnes with
      | k + 1 => if p.threads.any Worker.isWaiting then none else some { p with notifyOnes := k }
      | 0 => none
  | .notifyOne (some i) =>
      match p.notifyOnes, p.threads[i]? with
      | k + 1, some .waiting => some { p.setWorker i .looking with notifyOnes := k }
      | _, _ => none
  | .notifyAll =>
      match p.notifyAlls with
      | k + 1 => some { p with notifyAlls := k, threads := p.threads.map Worker.woken }
      | 0 => none
  | .look i =>
      match p.threads[i]? with
      | some .looking => some (p.look i)
      | _ => none
  | .finish i =>
      match p.threads[i]? with
      | some (.working job) =>
          some { p.setWorker i .looking with finished := p.finished ++ [job] }
      | _ => none
  | .spurious i =>
      match p.threads[i]? with
      | some .waiting => some (p.setWorker i .looking)
      | _ => none

/-- A run. -/
def run (es : List (PoolEvent J)) : Option (Pool J) := es.foldlM step p

/-- `Join` returns. -/
def Joined : Prop := ∀ w ∈ p.threads, w = .returned

/-- The jobs that workers have in hand. -/
def inHand : List (ℕ × J) := p.threads.filterMap Worker.job

/-- How many workers are about to look at the queue. -/
def looking : ℕ := p.threads.countP Worker.isLooking

/-- Nothing happens unless somebody calls, or wakes up for no reason. -/
def Quiet : Prop := ∀ e : PoolEvent J, e.isInternal = true → p.step e = none

/-! ### What holds in every state -/

/-- What holds in every state of a run. -/
structure Sound : Prop where
  /-- a job's number is its place among the accepted jobs -/
  numbered : p.accepted.map Prod.fst = List.range p.accepted.length
  fifo : p.started ++ p.jobs = p.accepted
  once : p.finished ++ p.inHand ~ p.started
  /-- where a worker is blocked, every job in the queue has a worker that will look, or one that a
  due `notify_one` will wake -/
  awake : .waiting ∈ p.threads → p.jobs.length ≤ p.looking + p.notifyOnes
  told : p.stop = true → .waiting ∈ p.threads → 0 < p.notifyAlls
  left : .returned ∈ p.threads → p.stop = true ∧ p.jobs = []

/-- A new pool. -/
lemma sound_new (n : ℕ) : (new n : Pool J).Sound := by
  have hlooking : ∀ w ∈ (new n : Pool J).threads, w = .looking := fun w hw =>
    List.eq_of_mem_replicate hw
  have hhand : (new n : Pool J).inHand = [] := by
    rw [inHand, List.filterMap_eq_nil_iff]
    intro w hw
    rw [hlooking w hw]
    rfl
  refine ⟨by simp [new], by simp [new], by rw [hhand]; simp [new], ?_, ?_, ?_⟩
  · exact fun hw => absurd (hlooking _ hw) (by simp)
  · exact fun _ hw => absurd (hlooking _ hw) (by simp)
  · exact fun hw => absurd (hlooking _ hw) (by simp)

section SetWorker

variable {p} {i : ℕ} {w : Worker J}

@[simp] lemma stop_setWorker : (p.setWorker i w).stop = p.stop := rfl

@[simp] lemma jobs_setWorker : (p.setWorker i w).jobs = p.jobs := rfl

@[simp] lemma notifyOnes_setWorker : (p.setWorker i w).notifyOnes = p.notifyOnes := rfl

@[simp] lemma notifyAlls_setWorker : (p.setWorker i w).notifyAlls = p.notifyAlls := rfl

@[simp] lemma accepted_setWorker : (p.setWorker i w).accepted = p.accepted := rfl

@[simp] lemma length_threads_setWorker : (p.setWorker i w).threads.length = p.threads.length :=
  List.length_set

/-- A worker goes on, and the others stay where they are. -/
lemma cons_threads_perm (h : p.threads[i]? = some w) (w' : Worker J) :
    w :: (p.setWorker i w').threads ~ w' :: p.threads := by
  obtain ⟨hi, rfl⟩ := List.getElem?_eq_some_iff.mp h
  calc p.threads[i] :: p.threads.set i w'
      ~ p.threads[i] :: w' :: p.threads.eraseIdx i := (List.set_perm_cons_eraseIdx hi w').cons _
    _ ~ w' :: p.threads[i] :: p.threads.eraseIdx i := .swap ..
    _ ~ w' :: p.threads := (List.getElem_cons_eraseIdx_perm hi).cons _

lemma filterMap_job_woken (ws : List (Worker J)) :
    (ws.map Worker.woken).filterMap Worker.job = ws.filterMap Worker.job := by
  simp [List.filterMap_map]

lemma mem_of_mem_setWorker {v w' : Worker J} (h : v ∈ (p.setWorker i w').threads) (hne : v ≠ w') :
    v ∈ p.threads :=
  (List.mem_or_eq_of_mem_set h).resolve_right hne

/-- A worker that was not about to look at the queue is now. -/
lemma looking_setWorker_looking (h : p.threads[i]? = some w) (hw : w.isLooking = false) :
    (p.setWorker i .looking).looking = p.looking + 1 := by
  have hcount := (cons_threads_perm h .looking).countP_eq Worker.isLooking
  simpa [looking, List.countP_cons, hw] using hcount

/-- A worker looks at the queue. -/
lemma looking_setWorker_add_one {w' : Worker J} (h : p.threads[i]? = some .looking)
    (hw' : w'.isLooking = false) : (p.setWorker i w').looking + 1 = p.looking := by
  have hcount := (cons_threads_perm h w').countP_eq Worker.isLooking
  simpa [looking, List.countP_cons, hw'] using hcount

lemma inHand_setWorker (h : p.threads[i]? = some w) (w' : Worker J) :
    w.job.toList ++ (p.setWorker i w').inHand ~ w'.job.toList ++ p.inHand := by
  have hcons : ∀ (v : Worker J) (vs : List (Worker J)),
      (v :: vs).filterMap Worker.job = v.job.toList ++ vs.filterMap Worker.job := by
    intro v vs
    cases hv : v.job <;> simp [hv]
  have hperm := (cons_threads_perm h w').filterMap Worker.job
  rw [hcons, hcons] at hperm
  exact hperm

lemma weight_setWorker (h : p.threads[i]? = some w) (w' : Worker J) :
    w.weight + ((p.setWorker i w').threads.map Worker.weight).sum =
      w'.weight + (p.threads.map Worker.weight).sum := by
  simpa using ((cons_threads_perm h w').map Worker.weight).sum_nat

end SetWorker

/-! ### One step -/

/-- All that a step can do. -/
inductive Move : PoolEvent J → Pool J → Prop
  | refused (job : J) (hstop : p.stop = true) : Move (.queueJob job) p
  | queued (job : J) (hstop : p.stop = false) :
      Move (.queueJob job)
        { p with
          jobs := p.jobs ++ [(p.accepted.length, job)]
          accepted := p.accepted ++ [(p.accepted.length, job)]
          notifyOnes := p.notifyOnes + 1 }
  | stopped : Move .stop p.stopped
  | lost {k : ℕ} (hk : p.notifyOnes = k + 1) (hnone : .waiting ∉ p.threads) :
      Move (.notifyOne none) { p with notifyOnes := k }
  | woken {k i : ℕ} (hk : p.notifyOnes = k + 1) (hi : p.threads[i]? = some .waiting) :
      Move (.notifyOne (some i)) { p.setWorker i .looking with notifyOnes := k }
  | wokenAll {k : ℕ} (hk : p.notifyAlls = k + 1) :
      Move .notifyAll { p with notifyAlls := k, threads := p.threads.map Worker.woken }
  | took {i : ℕ} {job : ℕ × J} {jobs : List (ℕ × J)} (hi : p.threads[i]? = some .looking)
      (hjobs : p.jobs = job :: jobs) :
      Move (.look i)
        { p.setWorker i (.working job) with jobs := jobs, started := p.started ++ [job] }
  | returned {i : ℕ} (hi : p.threads[i]? = some .looking) (hjobs : p.jobs = [])
      (hstop : p.stop = true) : Move (.look i) (p.setWorker i .returned)
  | blocked {i : ℕ} (hi : p.threads[i]? = some .looking) (hjobs : p.jobs = [])
      (hstop : p.stop = false) : Move (.look i) (p.setWorker i .waiting)
  | finished {i : ℕ} {job : ℕ × J} (hi : p.threads[i]? = some (.working job)) :
      Move (.finish i) { p.setWorker i .looking with finished := p.finished ++ [job] }
  | spurious {i : ℕ} (hi : p.threads[i]? = some .waiting) :
      Move (.spurious i) (p.setWorker i .looking)

variable {p} {p' : Pool J} {e : PoolEvent J}

/-- A blocked worker is there as `wait` says. -/
lemma any_isWaiting_iff : p.threads.any Worker.isWaiting = true ↔ .waiting ∈ p.threads := by
  rw [List.any_eq_true]
  constructor
  · rintro ⟨w, hw, hwait⟩
    cases w <;> first | exact hw | simp [Worker.isWaiting] at hwait
  · exact fun h => ⟨_, h, rfl⟩

/-- A step does one of these. -/
lemma move_of_step (h : p.step e = some p') : p.Move e p' := by
  cases e with
  | queueJob job =>
    obtain rfl : p.queueJob job = p' := by simpa [step] using h
    rw [queueJob]
    split_ifs with hstop
    · exact .refused job hstop
    · exact .queued job (by simpa using hstop)
  | stop =>
    obtain rfl : p.stopped = p' := by simpa [step] using h
    exact .stopped
  | notifyOne i =>
    cases i with
    | none =>
      rw [step] at h
      split at h
      · next hk =>
        -- a signal that nobody waits for is lost
        split_ifs at h with hwait
        cases h
        exact .lost hk (mt any_isWaiting_iff.mpr hwait)
      · cases h
    | some i =>
      rw [step] at h
      split at h
      · next hk hi =>
        cases h
        exact .woken hk hi
      · cases h
  | notifyAll =>
    rw [step] at h
    split at h
    · next hk =>
      cases h
      exact .wokenAll hk
    · cases h
  | look i =>
    rw [step] at h
    split at h
    · next hi =>
      cases h
      rw [look]
      split
      · next hjobs => exact .took hi hjobs
      · next hjobs =>
        split_ifs with hstop
        · exact .returned hi hjobs hstop
        · exact .blocked hi hjobs (by simpa using hstop)
    · cases h
  | finish i =>
    rw [step] at h
    split at h
    · next hi =>
      cases h
      exact .finished hi
    · cases h
  | spurious i =>
    rw [step] at h
    split at h
    · next hi =>
      cases h
      exact .spurious hi
    · cases h

/-- A worker that has nothing in hand before and after goes on. -/
lemma Sound.once_setWorker (h : p.Sound) {i : ℕ} {w w' : Worker J} (hi : p.threads[i]? = some w)
    (hw : w.job = none) (hw' : w'.job = none) :
    p.finished ++ (p.setWorker i w').inHand ~ p.started := by
  have hhand := inHand_setWorker hi w'
  rw [hw, hw'] at hhand
  exact (hhand.append_left p.finished).trans h.once

/-- Every step keeps what holds. -/
lemma Sound.step (h : p.Sound) (hstep : p.step e = some p') : p'.Sound := by
  cases move_of_step hstep with
  | refused => exact h
  | queued job hstop =>
    -- a worker returns only after `Stop`, and then nothing is accepted any more
    have hreturned : .returned ∉ p.threads := fun hw => by
      simpa [hstop] using (h.left hw).1
    refine ⟨?_, ?_, h.once, ?_, ?_, fun hw => absurd hw hreturned⟩
    · simp [h.numbered, List.range_succ]
    · simp [← h.fifo]
    · intro hw
      have := h.awake hw
      change (p.jobs ++ [_]).length ≤ p.looking + (p.notifyOnes + 1)
      rw [List.length_append, List.length_singleton]
      omega
    · exact fun hstop' => by simp [hstop] at hstop'
  | stopped =>
    exact ⟨h.numbered, h.fifo, h.once, h.awake, fun _ _ => Nat.succ_pos _,
      fun hw => ⟨rfl, (h.left hw).2⟩⟩
  | lost hk hnone =>
    exact ⟨h.numbered, h.fifo, h.once, fun hw => absurd hw hnone, h.told, h.left⟩
  | @woken k i hk hi =>
    -- the signal that is gone is made up for by the worker that looks now
    have hlook := looking_setWorker_looking hi rfl
    refine ⟨h.numbered, h.fifo, h.once_setWorker hi rfl rfl, ?_, ?_, ?_⟩
    · intro hw
      have := h.awake (mem_of_mem_setWorker hw (by simp))
      change p.jobs.length ≤ (p.setWorker i .looking).looking + k
      omega
    · exact fun hstop hw => h.told hstop (mem_of_mem_setWorker hw (by simp))
    · exact fun hw => h.left (mem_of_mem_setWorker hw (by simp))
  | wokenAll hk =>
    -- nobody is blocked any more, so `awake` and `told` say nothing
    have hwait : .waiting ∉ p.threads.map Worker.woken := by
      intro hw
      obtain ⟨w, -, hw⟩ := List.mem_map.mp hw
      cases w <;> simp [Worker.woken] at hw
    refine ⟨h.numbered, h.fifo, ?_, fun hw => absurd hw hwait, fun _ hw => absurd hw hwait, ?_⟩
    · change p.finished ++ (p.threads.map Worker.woken).filterMap Worker.job ~ p.started
      rw [filterMap_job_woken]
      exact h.once
    · intro hw
      obtain ⟨w, hmem, hw⟩ := List.mem_map.mp hw
      cases w <;> simp [Worker.woken] at hw
      exact h.left hmem
  | @took i job jobs hi hjobs =>
    -- one worker less looks, and one job less is in the queue
    have hlook : (p.setWorker i (.working job)).looking + 1 = p.looking :=
      looking_setWorker_add_one hi rfl
    refine ⟨h.numbered, ?_, ?_, ?_, ?_, ?_⟩
    · calc p.started ++ [job] ++ jobs
          = p.started ++ p.jobs := by simp [hjobs]
        _ = p.accepted := h.fifo
    · calc p.finished ++ (p.setWorker i (.working job)).inHand
          ~ p.finished ++ (job :: p.inHand) := (inHand_setWorker hi (.working job)).append_left _
        _ ~ job :: (p.finished ++ p.inHand) := List.perm_middle
        _ ~ job :: p.started := h.once.cons job
        _ ~ p.started ++ [job] := (List.perm_append_singleton job p.started).symm
    · intro hw
      have := h.awake (mem_of_mem_setWorker hw (by simp))
      rw [hjobs, List.length_cons] at this
      change jobs.length ≤ (p.setWorker i (.working job)).looking + p.notifyOnes
      omega
    · exact fun hstop hw => h.told hstop (mem_of_mem_setWorker hw (by simp))
    · intro hw
      have := (h.left (mem_of_mem_setWorker hw (by simp))).2
      simp [hjobs] at this
  | returned hi hjobs hstop =>
    refine ⟨h.numbered, h.fifo, h.once_setWorker hi rfl rfl, ?_, ?_, fun _ => ⟨hstop, hjobs⟩⟩
    · exact fun _ => by simp [hjobs]
    · exact fun _ hw => h.told hstop (mem_of_mem_setWorker hw (by simp))
  | blocked hi hjobs hstop =>
    refine ⟨h.numbered, h.fifo, h.once_setWorker hi rfl rfl, ?_, ?_, ?_⟩
    · exact fun _ => by simp [hjobs]
    · exact fun hstop' => by simp [hstop] at hstop'
    · exact fun hw => h.left (mem_of_mem_setWorker hw (by simp))
  | @finished i job hi =>
    have hlook := looking_setWorker_looking hi rfl
    refine ⟨h.numbered, h.fifo, ?_, ?_, ?_, ?_⟩
    · have hhand : job :: (p.setWorker i .looking).inHand ~ p.inHand := inHand_setWorker hi .looking
      calc (p.finished ++ [job]) ++ (p.setWorker i .looking).inHand
          = p.finished ++ (job :: (p.setWorker i .looking).inHand) := by simp
        _ ~ p.finished ++ p.inHand := hhand.append_left p.finished
        _ ~ p.started := h.once
    · intro hw
      have := h.awake (mem_of_mem_setWorker hw (by simp))
      change p.jobs.length ≤ (p.setWorker i .looking).looking + p.notifyOnes
      omega
    · exact fun hstop hw => h.told hstop (mem_of_mem_setWorker hw (by simp))
    · exact fun hw => h.left (mem_of_mem_setWorker hw (by simp))
  | @spurious i hi =>
    have hlook := looking_setWorker_looking hi rfl
    refine ⟨h.numbered, h.fifo, h.once_setWorker hi rfl rfl, ?_, ?_, ?_⟩
    · intro hw
      have := h.awake (mem_of_mem_setWorker hw (by simp))
      change p.jobs.length ≤ (p.setWorker i .looking).looking + p.notifyOnes
      omega
    · exact fun hstop hw => h.told hstop (mem_of_mem_setWorker hw (by simp))
    · exact fun hw => h.left (mem_of_mem_setWorker hw (by simp))

/-! ### Whole runs -/

/-- What holds in every state of a run. -/
lemma Sound.run (h : p.Sound) {es : List (PoolEvent J)} (hrun : p.run es = some p') : p'.Sound := by
  induction es generalizing p with
  | nil =>
    obtain rfl : p = p' := by simpa [Pool.run] using hrun
    exact h
  | cons e es ih =>
    simp only [Pool.run, List.foldlM_cons, Option.bind_eq_bind, Option.bind_eq_some_iff] at hrun
    obtain ⟨q, hstep, hrun⟩ := hrun
    exact ih (h.step hstep) hrun

/-- The jobs that are queued before the pool is stopped. -/
def queuedBeforeStop : List (PoolEvent J) → List J
  | .queueJob job :: es => job :: queuedBeforeStop es
  | .stop :: _ => []
  | _ :: es => queuedBeforeStop es
  | [] => []

/-- The accepted jobs are those that were queued in time. -/
lemma accepted_run {es : List (PoolEvent J)} (h : p.run es = some p') :
    p'.accepted.map Prod.snd =
      p.accepted.map Prod.snd ++ bif p.stop then [] else queuedBeforeStop es := by
  induction es generalizing p with
  | nil =>
    obtain rfl : p = p' := by simpa [Pool.run] using h
    simp [queuedBeforeStop]
  | cons e es ih =>
    simp only [Pool.run, List.foldlM_cons, Option.bind_eq_bind, Option.bind_eq_some_iff] at h
    obtain ⟨q, hstep, hrun⟩ := h
    rw [ih hrun]
    cases move_of_step hstep with
    | refused job hstop => simp [hstop]
    | queued job hstop => simp [hstop, queuedBeforeStop]
    | stopped => simp [Pool.stopped, queuedBeforeStop]
    | _ => simp [queuedBeforeStop]

lemma length_threads_step (h : p.step e = some p') : p'.threads.length = p.threads.length := by
  cases move_of_step h with
  | wokenAll => exact List.length_map Worker.woken
  | refused | queued | stopped | lost => rfl
  | _ => exact length_threads_setWorker

lemma length_threads_run {es : List (PoolEvent J)} (h : p.run es = some p') :
    p'.threads.length = p.threads.length := by
  induction es generalizing p with
  | nil =>
    obtain rfl : p = p' := by simpa [Pool.run] using h
    rfl
  | cons e es ih =>
    simp only [Pool.run, List.foldlM_cons, Option.bind_eq_bind, Option.bind_eq_some_iff] at h
    obtain ⟨q, hstep, hrun⟩ := h
    rw [ih hrun, length_threads_step hstep]

/-- Where everybody has returned, no job is left. -/
lemma Sound.finished_of_joined (h : p.Sound) (hthreads : p.threads ≠ []) (hjoined : p.Joined) :
    p.jobs = [] ∧ p.finished ~ p.accepted := by
  obtain ⟨w, hw⟩ := List.exists_mem_of_ne_nil _ hthreads
  have hjobs : p.jobs = [] := (h.left (hjoined w hw ▸ hw)).2
  have hhand : p.inHand = [] := by
    rw [inHand, List.filterMap_eq_nil_iff]
    intro w hw
    rw [hjoined w hw]
    rfl
  refine ⟨hjobs, ?_⟩
  calc p.finished
      = p.finished ++ p.inHand := by rw [hhand, List.append_nil]
    _ ~ p.started := h.once
    _ = p.accepted := by rw [← h.fifo, hjobs, List.append_nil]

/-- Jobs are run once each. -/
theorem jobs_run_once {n : ℕ} (es : List (PoolEvent J)) (h : (new n).run es = some p) :
    p.accepted.map Prod.snd = queuedBeforeStop es ∧
      p.started <+: p.accepted ∧
      p.finished ++ p.inHand ++ p.jobs ~ p.accepted ∧
      (p.accepted.map Prod.fst).Nodup ∧
      (0 < n → p.Joined → p.finished ~ p.accepted) := by
  have hsound := (sound_new n).run h
  have hall : p.finished ++ p.inHand ++ p.jobs ~ p.accepted := by
    rw [← hsound.fifo]
    exact hsound.once.append_right p.jobs
  refine ⟨by simpa [new] using accepted_run h, ⟨p.jobs, hsound.fifo⟩, hall, ?_, ?_⟩
  · rw [hsound.numbered]
    exact List.nodup_range
  · intro hn hjoined
    have hthreads : p.threads ≠ [] := by
      rw [← List.length_pos_iff_ne_nil, length_threads_run h]
      simpa [new] using hn
    exact (hsound.finished_of_joined hthreads hjoined).2

/-- A pool of one thread that is given two jobs, and one too late. -/
theorem jobs_run_once_three :
    ∃ p, (new 1 : Pool ℕ).run
        [.queueJob 7, .queueJob 8, .look 0, .stop, .queueJob 9, .finish 0, .look 0] = some p ∧
      p.accepted.map Prod.snd = [7, 8] :=
  ⟨_, rfl, (jobs_run_once (n := 1) [.queueJob 7, .queueJob 8, .look 0, .stop, .queueJob 9,
    .finish 0, .look 0] rfl).1⟩

/-! ### The pool comes to rest -/

/-- How many steps the pool may take by itself. -/
def rank (p : Pool J) : ℕ :=
  2 * p.jobs.length + (p.threads.map Worker.weight).sum + 2 * p.notifyOnes +
    (p.threads.length + 1) * p.notifyAlls

/-- How many steps an event may lead to. -/
def stepsAfter (workers : ℕ) : PoolEvent J → ℕ
  | .queueJob _ => 4
  | .stop => workers + 1
  | .spurious _ => 1
  | _ => 0

lemma sum_weight_woken_le (ws : List (Worker J)) :
    ((ws.map Worker.woken).map Worker.weight).sum ≤ (ws.map Worker.weight).sum + ws.length := by
  induction ws with
  | nil => simp
  | cons w ws ih =>
    have := w.weight_woken_le
    simp only [List.map_cons, List.sum_cons, List.length_cons]
    omega

/-- A worker goes on. -/
lemma rank_setWorker {i : ℕ} {w : Worker J} (h : p.threads[i]? = some w) (w' : Worker J) :
    w.weight + (p.setWorker i w').rank = w'.weight + p.rank := by
  have := weight_setWorker h w'
  simp only [rank, length_threads_setWorker, jobs_setWorker, notifyOnes_setWorker,
    notifyAlls_setWorker]
  omega

/-- A step that the pool takes by itself brings it nearer to rest. -/
lemma rank_step (h : p.step e = some p') :
    p'.rank + e.isInternal.toNat ≤ p.rank + stepsAfter p.threads.length e := by
  cases move_of_step h with
  | refused => simp [PoolEvent.isInternal]
  | queued =>
    simp only [rank, stepsAfter, PoolEvent.isInternal, List.length_append, List.length_singleton,
      Bool.toNat_false]
    omega
  | stopped =>
    simp only [rank, stepsAfter, PoolEvent.isInternal, Pool.stopped, Nat.mul_add, Bool.toNat_false]
    omega
  | lost hk =>
    simp only [rank, stepsAfter, PoolEvent.isInternal, hk, Bool.toNat_true]
    omega
  | woken hk hi =>
    have := weight_setWorker hi .looking
    simp only [rank, stepsAfter, PoolEvent.isInternal, hk, Bool.toNat_true, Worker.weight,
      length_threads_setWorker, jobs_setWorker, notifyAlls_setWorker] at this ⊢
    omega
  | wokenAll hk =>
    -- each worker gains one at most, and the call is worth one for each worker
    have := sum_weight_woken_le p.threads
    simp only [rank, stepsAfter, PoolEvent.isInternal, hk, Bool.toNat_true, List.length_map,
      Nat.mul_add]
    omega
  | @took i job jobs hi hjobs =>
    have := weight_setWorker hi (.working job)
    simp only [rank, stepsAfter, PoolEvent.isInternal, hjobs, Bool.toNat_true, Worker.weight,
      length_threads_setWorker, notifyOnes_setWorker, notifyAlls_setWorker,
      List.length_cons] at this ⊢
    omega
  | returned hi =>
    have : 1 + _ = 0 + p.rank := rank_setWorker hi .returned
    simp only [stepsAfter, PoolEvent.isInternal, Bool.toNat_true]
    omega
  | blocked hi =>
    have : 1 + _ = 0 + p.rank := rank_setWorker hi .waiting
    simp only [stepsAfter, PoolEvent.isInternal, Bool.toNat_true]
    omega
  | finished hi =>
    have : 2 + (p.setWorker _ .looking).rank = 1 + p.rank := rank_setWorker hi .looking
    change (p.setWorker _ .looking).rank + 1 ≤ p.rank + 0
    omega
  | spurious hi =>
    have : 0 + (p.setWorker _ .looking).rank = 1 + p.rank := rank_setWorker hi .looking
    change (p.setWorker _ .looking).rank + 0 ≤ p.rank + 1
    omega

/-- A whole run: the steps that the pool takes by itself are paid for by the calls from outside. -/
lemma rank_run {es : List (PoolEvent J)} (h : p.run es = some p') :
    p'.rank + es.countP PoolEvent.isInternal ≤
      p.rank + (es.map (stepsAfter p.threads.length)).sum := by
  induction es generalizing p with
  | nil =>
    obtain rfl : p = p' := by simpa [Pool.run] using h
    simp
  | cons e es ih =>
    simp only [Pool.run, List.foldlM_cons, Option.bind_eq_bind, Option.bind_eq_some_iff] at h
    obtain ⟨q, hstep, hrun⟩ := h
    have hfirst := rank_step hstep
    have hrest := ih hrun
    rw [length_threads_step hstep] at hrest
    rw [List.countP_cons, List.map_cons, List.sum_cons]
    cases he : e.isInternal <;> simp only [he, Bool.toNat_true, Bool.toNat_false] at hfirst ⊢ <;>
      simp only [reduceIte, Bool.false_eq_true] <;> omega

/-- Where nothing happens, nobody is about to do anything. -/
lemma Quiet.workers (h : p.Quiet) : ∀ w ∈ p.threads, w = .waiting ∨ w = .returned := by
  intro w hw
  obtain ⟨i, hi⟩ := List.getElem?_of_mem hw
  cases w with
  | looking => simpa [step, hi] using h (.look i) rfl
  | working job => simpa [step, hi] using h (.finish i) rfl
  | waiting => exact .inl rfl
  | returned => exact .inr rfl

/-- Where nothing happens, every thread was told. -/
lemma Quiet.notifyOnes (h : p.Quiet) : p.notifyOnes = 0 := by
  cases hk : p.notifyOnes with
  | zero => rfl
  | succ k =>
    by_cases hwait : .waiting ∈ p.threads
    · obtain ⟨i, hi⟩ := List.getElem?_of_mem hwait
      simpa [step, hk, hi] using h (.notifyOne (some i)) rfl
    · have := h (.notifyOne none) rfl
      rw [step, hk] at this
      simp [mt any_isWaiting_iff.mp hwait] at this

lemma Quiet.notifyAlls (h : p.Quiet) : p.notifyAlls = 0 := by
  cases hk : p.notifyAlls with
  | zero => rfl
  | succ k => simpa [step, hk] using h .notifyAll rfl

/-- Where nothing happens, the work is done. -/
lemma Sound.done (h : p.Sound) (hquiet : p.Quiet) (hthreads : p.threads ≠ []) :
    p.jobs = [] ∧ p.finished ~ p.accepted ∧ (p.stop = true → p.Joined) := by
  -- all workers are blocked or have returned
  have hhand : p.inHand = [] := by
    rw [inHand, List.filterMap_eq_nil_iff]
    intro w hw
    rcases hquiet.workers w hw with rfl | rfl <;> rfl
  have hlooking : p.looking = 0 := by
    rw [looking, List.countP_eq_zero]
    intro w hw
    rcases hquiet.workers w hw with rfl | rfl <;> simp [Worker.isLooking]
  have hjobs : p.jobs = [] := by
    by_cases hwait : .waiting ∈ p.threads
    -- a blocked worker: no wakeup is under way, so `awake` leaves room for no job
    · have := h.awake hwait
      rw [hlooking, hquiet.notifyOnes] at this
      exact List.length_eq_zero_iff.mp (Nat.le_zero.mp this)
    · obtain ⟨w, hw⟩ := List.exists_mem_of_ne_nil _ hthreads
      rcases hquiet.workers w hw with rfl | rfl
      · exact absurd hw hwait
      · exact (h.left hw).2
  refine ⟨hjobs, ?_, ?_⟩
  · calc p.finished
        = p.finished ++ p.inHand := by rw [hhand, List.append_nil]
      _ ~ p.started := h.once
      _ = p.accepted := by rw [← h.fifo, hjobs, List.append_nil]
  · intro hstop w hw
    refine (hquiet.workers w hw).resolve_left ?_
    rintro rfl
    have := h.told hstop hw
    rw [hquiet.notifyAlls] at this
    exact absurd this (Nat.lt_irrefl 0)

/-- The pool comes to rest by itself. -/
lemma exists_quiet (p : Pool J) :
    ∃ es : List (PoolEvent J), (∀ e ∈ es, e.isInternal = true) ∧
      ∃ p', p.run es = some p' ∧ p'.Quiet := by
  induction hr : p.rank using Nat.strong_induction_on generalizing p with
  | _ r ih =>
    by_cases hquiet : p.Quiet
    · exact ⟨[], by simp, p, rfl, hquiet⟩
    · simp only [Quiet, not_forall, ← ne_eq, Option.ne_none_iff_exists'] at hquiet
      obtain ⟨e, he, q, hstep⟩ := hquiet
      have hlt : q.rank < r := by
        have := rank_step hstep
        have hcost : stepsAfter p.threads.length e = 0 := by
          cases e <;> simp [PoolEvent.isInternal, stepsAfter] at he ⊢
        rw [he, hcost, Bool.toNat_true, hr] at this
        omega
      obtain ⟨es, hes, p', hrun, hp'⟩ := ih q.rank hlt q rfl
      refine ⟨e :: es, ?_, p', ?_, hp'⟩
      · simpa [he] using hes
      · simpa [Pool.run, hstep] using hrun

/-- By itself the pool accepts no job. -/
lemma accepted_run_internal {es : List (PoolEvent J)} (hes : ∀ e ∈ es, e.isInternal = true)
    (h : p.run es = some p') : p'.accepted = p.accepted := by
  induction es generalizing p with
  | nil =>
    obtain rfl : p = p' := by simpa [Pool.run] using h
    rfl
  | cons e es ih =>
    simp only [Pool.run, List.foldlM_cons, Option.bind_eq_bind, Option.bind_eq_some_iff] at h
    obtain ⟨q, hstep, hrun⟩ := h
    have he := hes e List.mem_cons_self
    rw [ih (fun e he => hes e (List.mem_cons_of_mem _ he)) hrun]
    cases move_of_step hstep with
    | queued => simp [PoolEvent.isInternal] at he
    | _ => simp [Pool.stopped]

lemma rank_new (n : ℕ) : (new n : Pool J).rank = n := by
  simp [rank, new, Worker.weight]

/-- The pool takes boundedly many steps by itself, and then all its work is done. -/
theorem pool_drains {n : ℕ} (hn : 0 < n) (es : List (PoolEvent J))
    (h : (new n).run es = some p) :
    es.countP PoolEvent.isInternal ≤ n + (es.map (stepsAfter n)).sum ∧
      (p.Quiet → p.jobs = [] ∧ p.finished ~ p.accepted ∧ (p.stop = true → p.Joined)) ∧
      ∃ rest : List (PoolEvent J), (∀ e ∈ rest, e.isInternal = true) ∧
        ∃ p', p.run rest = some p' ∧ p'.Quiet ∧ p'.accepted = p.accepted ∧
          p'.finished ~ p.accepted := by
  have hlength : (new n : Pool J).threads.length = n := List.length_replicate
  have hthreads : ∀ {q : Pool J}, q.threads.length = n → q.threads ≠ [] := by
    rintro q rfl
    exact List.length_pos_iff_ne_nil.mp hn
  have hn' := (length_threads_run h).trans hlength
  have hsound := (sound_new n).run h
  refine ⟨?_, fun hquiet => hsound.done hquiet (hthreads hn'), ?_⟩
  · have := rank_run h
    rw [rank_new, hlength] at this
    omega
  · obtain ⟨rest, hrest, p', hrun, hquiet⟩ := exists_quiet p
    have haccepted := accepted_run_internal hrest hrun
    have hdone := (hsound.run hrun).done hquiet (hthreads ((length_threads_run hrun).trans hn'))
    exact ⟨rest, hrest, p', hrun, hquiet, haccepted, haccepted ▸ hdone.2.1⟩

/-- A pool of two threads that is given three jobs, and stopped. -/
theorem pool_drains_two :
    ∃ p, (new 2 : Pool ℕ).run
        [.queueJob 7, .look 0, .look 1, .queueJob 8, .queueJob 9, .notifyOne (some 1), .stop,
          .queueJob 10] = some p ∧
      (p.Quiet → p.jobs = [] ∧ p.finished ~ p.accepted ∧ (p.stop = true → p.Joined)) := by
  exact ⟨_, rfl, (pool_drains (n := 2) (by decide) [.queueJob 7, .look 0, .look 1,
    .queueJob 8, .queueJob 9, .notifyOne (some 1), .stop, .queueJob 10] rfl).2.1⟩

end Pool

end Udap
