import Mathlib.Data.List.AList
import Mathlib.Logic.Function.Basic
import Mathlib.Tactic.SplitIfs

/-!
Timers: `udap_timer_context`, the records of the timers that were registered, and the jobs of the
thread pool that call their handlers.

The pool has workers of its own: a job is executed in steps (`timer::exec`), and between two of them
anything else may happen. What happened is kept in a log, for the results about whole runs.
-/

namespace Udap

/-- `udap_timer_handler_func`, a pointer that is not null. -/
abbrev TimerHandler := ℕ

/-- `udap::timer`. -/
structure Timer where
  user : ℕ := 0
  calledAt : UInt64 := 0
  started : UInt64 := 0
  timeout : UInt64 := 0
  func : Option TimerHandler := none
  done : Bool := false
  canceled : Bool := false
  deriving DecidableEq

namespace Timer

variable (t : Timer)

/-- The timer is hit at a time, or it was cancelled. -/
def Hit (now : UInt64) : Prop := t.timeout ≤ now - t.started ∨ t.canceled = true

instance (now : UInt64) : Decidable (t.Hit now) := inferInstanceAs (Decidable (_ ∨ _))

/-- What the handler is told of the time that was left. -/
def left : UInt64 := if t.timeout ≤ t.calledAt - t.started then 0 else t.calledAt - t.started

end Timer

/-- Where an execution of `timer::exec` is. -/
inductive ExecPhase
  /-- `func` was not null; it is read again -/
  | tested
  /-- `func` is in `call`, and null in the record -/
  | taken (call : TimerHandler)
  /-- the handler was called, or there was none; `done` is not set yet -/
  | finishing
  deriving DecidableEq

/-- What happens to timers. -/
inductive TimerEvent
  | registered (id : UInt32) (p : ℕ) (timeout started : UInt64)
  | canceled (id : UInt32)
  | removed (id : UInt32)
  /-- an execution of the job of a record starts -/
  | began (p : ℕ)
  /-- the handler of a record is called -/
  | invoked (p : ℕ) (call : TimerHandler) (user : ℕ) (timeout left now : UInt64)
  | deleted (p : ℕ)
  deriving DecidableEq

namespace TimerEvent

/-- The handler of `p` is called. -/
def invokes (p : ℕ) : TimerEvent → Bool
  | invoked p' _ _ _ _ _ => p' = p
  | _ => false

/-- A timer is registered. -/
def registers : TimerEvent → Bool
  | registered _ _ _ _ => true
  | _ => false

end TimerEvent

/-- `udap_timer_context`, with the records behind its pointers, the jobs of the pool, and the
clock. -/
structure TimerContext where
  timers : AList (fun _ : UInt32 => ℕ) := ∅
  ids : UInt32 := 0
  run : Bool := true
  /-- the records by address; a new one gets the address `next` -/
  records : ℕ → Timer := fun _ => {}
  next : ℕ := 0
  /-- the jobs in the queue of the pool, by the record they are for -/
  jobs : List ℕ := []
  /-- the executions that have started -/
  running : List (ℕ × ExecPhase) := []
  /-- `udap_time_now_ms` -/
  clock : UInt64
  log : List TimerEvent := []

namespace TimerContext

variable (c : TimerContext)

/-- A field of a record is written. -/
def write (p : ℕ) (t : Timer) : TimerContext := { c with records := Function.update c.records p t }

/-- Something happens. -/
def emit (e : TimerEvent) : TimerContext := { c with log := c.log ++ [e] }

/-! ### The operations of the context -/

/-- `call_later`. -/
def callLater (user : ℕ) (func : Option TimerHandler) (timeout : UInt64) : TimerContext :=
  let id := c.ids + 1
  let timer : Timer := { user := user, started := c.clock, timeout := timeout, func := func }
  { c.write c.next timer with
    ids := id
    timers := c.timers.insert id c.next
    next := c.next + 1 }.emit (.registered id c.next timeout c.clock)

section CallLater

variable (user : ℕ) (func : Option TimerHandler) (timeout : UInt64)

lemma log_callLater : (c.callLater user func timeout).log =
    c.log ++ [.registered (c.ids + 1) c.next timeout c.clock] := rfl

lemma records_callLater_next : (c.callLater user func timeout).records c.next =
    { user := user, started := c.clock, timeout := timeout, func := func } :=
  Function.update_self ..

lemma records_callLater_of_ne {p : ℕ} (h : p ≠ c.next) :
    (c.callLater user func timeout).records p = c.records p := Function.update_of_ne h ..

lemma lookup_callLater (id : UInt32) : (c.callLater user func timeout).timers.lookup id =
    if id = c.ids + 1 then some c.next else c.timers.lookup id := by
  split_ifs with hid
  · rw [hid]
    exact AList.lookup_insert _
  · exact AList.lookup_insert_ne hid

end CallLater

/-- `cancel`. -/
def cancel (id : UInt32) : TimerContext :=
  match c.timers.lookup id with
  | none => c.emit (.canceled id)
  | some p => (c.write p { c.records p with canceled := true }).emit (.canceled id)

/-- `remove`. -/
def remove (id : UInt32) : TimerContext :=
  match c.timers.lookup id with
  | none => c.emit (.removed id)
  | some p => (c.write p { c.records p with func := none, canceled := true }).emit (.removed id)

section Remove

variable (id : UInt32) (p : ℕ)

@[simp] lemma log_cancel : (c.cancel id).log = c.log ++ [.canceled id] := by
  unfold cancel
  split <;> rfl

@[simp] lemma log_remove : (c.remove id).log = c.log ++ [.removed id] := by
  unfold remove
  split <;> rfl

/-- What is written at the record an id is listed for leaves every other record alone. -/
lemma records_write_listed {d : TimerContext} (f : Timer → Timer)
    (hnone : c.timers.lookup id = none → d.records = c.records)
    (hsome : ∀ q, c.timers.lookup id = some q → d.records = (c.write q (f (c.records q))).records) :
    d.records p = if c.timers.lookup id = some p then f (c.records p) else c.records p := by
  cases hlookup : c.timers.lookup id with
  | none => rw [hnone hlookup, if_neg (Option.some_ne_none p).symm]
  | some q =>
      rw [hsome q hlookup]
      by_cases hq : q = p
      · subst hq
        rw [if_pos rfl]
        exact Function.update_self ..
      · rw [if_neg (mt Option.some.inj hq)]
        exact Function.update_of_ne (Ne.symm hq) ..

lemma records_cancel : (c.cancel id).records p =
    if c.timers.lookup id = some p then { c.records p with canceled := true }
    else c.records p := by
  refine c.records_write_listed id p (fun t => { t with canceled := true }) (fun hnone => ?_)
    fun q hsome => ?_
  · rw [cancel, hnone]
    rfl
  · rw [cancel, hsome]
    rfl

lemma records_remove : (c.remove id).records p =
    if c.timers.lookup id = some p then { c.records p with func := none, canceled := true }
    else c.records p := by
  refine c.records_write_listed id p (fun t => { t with func := none, canceled := true })
    (fun hnone => ?_) fun q hsome => ?_
  · rw [remove, hnone]
    rfl
  · rw [remove, hsome]
    rfl

/-- `cancel` and `remove` change nothing but a record. -/
lemma frame_cancel : (c.cancel id).ids = c.ids ∧ (c.cancel id).next = c.next ∧
    (c.cancel id).timers = c.timers ∧ (c.cancel id).running = c.running ∧
    (c.cancel id).jobs = c.jobs ∧ (c.cancel id).clock = c.clock := by
  unfold cancel
  split <;> exact ⟨rfl, rfl, rfl, rfl, rfl, rfl⟩

lemma frame_remove : (c.remove id).ids = c.ids ∧ (c.remove id).next = c.next ∧
    (c.remove id).timers = c.timers ∧ (c.remove id).running = c.running ∧
    (c.remove id).jobs = c.jobs ∧ (c.remove id).clock = c.clock := by
  unfold remove
  split <;> exact ⟨rfl, rfl, rfl, rfl, rfl, rfl⟩

end Remove

/-- A timer is hit: its job is queued. -/
def dispatch (p : ℕ) : TimerContext :=
  { c.write p { c.records p with calledAt := c.clock } with jobs := c.jobs ++ [p] }

/-- A timer is taken out of the table, and deleted. -/
def reclaim (id : UInt32) (p : ℕ) : TimerContext :=
  { c with timers := c.timers.erase id }.emit (.deleted p)

/-- What `udap_timer_tick_all` does when its iterator is at an id. -/
def visit (id : UInt32) : TimerContext :=
  match c.timers.lookup id with
  | none => c
  | some p =>
      let timer := c.records p
      if timer.Hit c.clock then
        if timer.func.isSome = true ∧ timer.calledAt = 0 then c.dispatch p
        else if timer.done then c.reclaim id p
        else c
      else c

/-- What a visit does to the record `p` of an id. -/
lemma visit_eq {c : TimerContext} {id : UInt32} {p : ℕ} (h : c.timers.lookup id = some p) :
    c.visit id =
      if (c.records p).Hit c.clock then
        if (c.records p).func.isSome = true ∧ (c.records p).calledAt = 0 then c.dispatch p
        else if (c.records p).done then c.reclaim id p
        else c
      else c := by
  rw [visit, h]

/-- What a visit can do: nothing, or queue the job of a timer that was not called, or delete one
that is done. -/
lemma visit_cases (id : UInt32) :
    c.visit id = c ∨
      (∃ p, c.timers.lookup id = some p ∧ (c.records p).Hit c.clock ∧
        (c.records p).calledAt = 0 ∧ c.visit id = c.dispatch p) ∨
      ∃ p, c.timers.lookup id = some p ∧ (c.records p).done = true ∧
        c.visit id = c.reclaim id p := by
  cases hlookup : c.timers.lookup id with
  | none => exact .inl (by rw [visit, hlookup])
  | some p =>
    rw [visit_eq hlookup]
    split_ifs with hhit hcall hdone
    · exact .inr (.inl ⟨p, rfl, hhit, hcall.2, rfl⟩)
    · exact .inr (.inr ⟨p, rfl, hdone, rfl⟩)
    · exact .inl rfl
    · exact .inl rfl

/-- `udap_timer_tick_all`. The ids are met in the order of the table, whatever that is. -/
def tickAll : TimerContext :=
  if c.run then c.timers.keys.foldl (fun c id => c.visit id) c else c

/-! ### The steps of `timer::exec` -/

/-- A worker takes the job of a record out of the queue and tests `func`. -/
def begin (p : ℕ) : TimerContext :=
  let phase := if (c.records p).func.isSome then .tested else .finishing
  { c with jobs := c.jobs.erase p, running := (p, phase) :: c.running }.emit (.began p)

/-- `func` is read into `call`, and zeroed. -/
def take (p : ℕ) (call : TimerHandler) : TimerContext :=
  { c.write p { c.records p with func := none } with
    running := (p, .taken call) :: c.running.erase (p, .tested) }

/-- `call` is called. -/
def invoke (p : ℕ) (call : TimerHandler) : TimerContext :=
  let timer := c.records p
  { c with running := (p, .finishing) :: c.running.erase (p, .taken call) }.emit
    (.invoked p call timer.user timer.timeout timer.left c.clock)

/-- `done` is set, and the job is over. -/
def finish (p : ℕ) : TimerContext :=
  { c.write p { c.records p with done := true } with
    running := c.running.erase (p, .finishing) }

/-- What may happen next. A null pointer that `take` reads is not called: the process is gone
then. -/
inductive Step : TimerContext → TimerContext → Prop
  | advance (c : TimerContext) (now : UInt64) (h : c.clock ≤ now) : Step c { c with clock := now }
  | callLater (c : TimerContext) (user : ℕ) (func : Option TimerHandler) (timeout : UInt64) :
      Step c (c.callLater user func timeout)
  | cancel (c : TimerContext) (id : UInt32) : Step c (c.cancel id)
  | remove (c : TimerContext) (id : UInt32) : Step c (c.remove id)
  | tickAll (c : TimerContext) : Step c c.tickAll
  | begin (c : TimerContext) (p : ℕ) (h : p ∈ c.jobs) : Step c (c.begin p)
  | take (c : TimerContext) (p : ℕ) (call : TimerHandler) (h : (p, .tested) ∈ c.running)
      (hfunc : (c.records p).func = some call) : Step c (c.take p call)
  | invoke (c : TimerContext) (p : ℕ) (call : TimerHandler) (h : (p, .taken call) ∈ c.running) :
      Step c (c.invoke p call)
  | finish (c : TimerContext) (p : ℕ) (h : (p, .finishing) ∈ c.running) : Step c (c.finish p)

/-- The states that are reached from a new context, at a clock that is positive. -/
inductive Reachable : TimerContext → Prop
  | init (now : UInt64) (h : 0 < now) : Reachable { clock := now }
  | step {c c' : TimerContext} (h : Reachable c) (hstep : Step c c') : Reachable c'

/-- The jobs for a record that were dispatched and are not over. -/
def outstanding (p : ℕ) : ℕ := c.jobs.count p + c.running.countP fun e => e.1 = p

/-- The number of times the handler of a record was called. -/
def invocations (p : ℕ) : ℕ := c.log.countP (TimerEvent.invokes p)

end TimerContext

end Udap
