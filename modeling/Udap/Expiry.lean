import Udap.Dht.Context
import Udap.Iwp.Server
import Udap.Lib.Elapsed
import Udap.Lib.Run
import Udap.Path.Transit

/-!
Tests for what is over, by unsigned differences of times, and what `TickSessions` removes by them.

`TickSessions` reads the clock once, asks every session, and removes afterwards those that said so;
the other threads of the link go on between any two of these steps.

* `timedoutBy_iff`, `expired_iff`, `isExpired_iff`: the tests are right for times in order;
* `Kept.step`: what is marked as timed out was active long ago when it was asked;
* `along_spares`: so nothing active is removed if no session is refreshed between the reading and
  the question, or between the question and the removal.
-/

namespace Udap

/-! ### The tests -/

namespace Iwp

variable {σ : Type} (s : Session σ) (now : UInt64)

/-- `timedout`, with its second parameter. -/
def Session.timedoutBy (timeout : UInt64) : Bool := now - s.frame.lastEvent ≥ timeout

lemma Session.timedout_eq : s.timedout now = s.timedoutBy now sessionTimeout := rfl

/-- The test of a session is right. -/
def TimedoutRight (timeout : UInt64) : Prop :=
  s.timedoutBy now timeout = true ↔ s.frame.lastEvent.toNat + timeout.toNat ≤ now.toNat

lemma timedoutBy_iff (timeout : UInt64) : TimedoutRight s now timeout ↔
    s.frame.lastEvent ≤ now ∨ 2 ^ 64 + now.toNat < s.frame.lastEvent.toNat + timeout.toNat := by
  rw [TimedoutRight, Session.timedoutBy, decide_eq_true_eq]
  exact UInt64.le_sub_correct_iff ..

end Iwp

/-- The test of a hop is right. -/
def TransitHop.ExpiredRight (hop : TransitHop) (now : UInt64) : Prop :=
  hop.expired now = true ↔ hop.started.toNat + hop.lifetime.toNat < now.toNat

lemma TransitHop.expired_iff (hop : TransitHop) (now : UInt64) : hop.ExpiredRight now ↔
    hop.started ≤ now ∨ 2 ^ 64 + now.toNat ≤ hop.started.toNat + hop.lifetime.toNat := by
  rw [ExpiredRight, expired, decide_eq_true_eq]
  exact UInt64.lt_sub_correct_iff ..

/-- The test of a search is right. -/
def Dht.SearchJob.ExpiredRight (job : SearchJob) (now : UInt64) : Prop :=
  job.isExpired now = true ↔ job.started.toNat + jobTimeout.toNat ≤ now.toNat

lemma Dht.SearchJob.isExpired_iff (job : SearchJob) (now : UInt64) : job.ExpiredRight now ↔
    job.started ≤ now ∨ 2 ^ 64 + now.toNat < job.started.toNat + jobTimeout.toNat := by
  rw [ExpiredRight, isExpired, decide_eq_true_eq]
  exact UInt64.le_sub_correct_iff ..

/-! ### `TickSessions` among the other threads -/

namespace Iwp

/-- What `TickSessions` keeps of a session that is to be removed. -/
structure Mark (ι : Type) where
  addr : ι
  /-- it timed out -/
  late : Bool
  /-- its last event when it was asked -/
  last : UInt64

/-- `TickSessions` in the middle: the time it read, and the sessions to be removed. -/
structure Ticking (ι : Type) where
  now : UInt64
  remove : List (Mark ι) := []

/-- A server, the clock, and `TickSessions` on its thread. -/
structure TickingServer (σ ι : Type) where
  clock : UInt64
  server : Server σ ι
  ticking : Option (Ticking ι) := none

/-- What happens next. -/
inductive TickingEvent (σ ι : Type) where
  | advance (now : UInt64)
  /-- another thread does something; it reads the clock itself -/
  | link (e : LinkEvent σ ι)
  /-- `TickSessions` is called and reads the clock -/
  | begin
  /-- the session at an address is asked -/
  | visit (a : ι)
  /-- the session at an address is removed -/
  | remove (a : ι)
  | finish

/-- The event belongs to another thread, and happens at this time. -/
def LinkEvent.At {σ ι : Type} (t : UInt64) : LinkEvent σ ι → Prop
  | tryEstablish now _ | recvfrom now _ _ | complete now _ _ _ _ | decrypted now _ _
  | timer now _ => now = t
  | tick _ _ => False
  | _ => True

instance {σ ι : Type} (t : UInt64) : DecidablePred (LinkEvent.At (σ := σ) (ι := ι) t) := fun e => by
  cases e <;> unfold LinkEvent.At <;> infer_instance

namespace TickingServer

variable {σ ι : Type} [DecidableEq ι] (env : LinkEnv σ) (p₀ : σ)

/-- A session is asked with the time that was read. -/
def visit (a : ι) (t : Ticking ι) (c : TickingServer σ ι) : Option (TickingServer σ ι) :=
  (c.server.sessions a).bind fun p => (c.server.heap p).bind fun s =>
    (s.core.tick t.now s.working).toOption.map fun done =>
      let mark : Mark ι := ⟨a, s.core.timedout t.now, s.core.frame.lastEvent⟩
      { c with
        server := c.server.put p { s with core := done.1 }
        ticking := some { t with remove := if done.2 then t.remove ++ [mark] else t.remove } }

/-- A session that is to be removed is removed. -/
def remove (a : ι) (t : Ticking ι) (c : TickingServer σ ι) : Option (TickingServer σ ι) :=
  if a ∈ t.remove.map Mark.addr then
    (c.server.removeSessionByAddr a).map fun server =>
      { c with
        server := server
        ticking := some { t with remove := t.remove.filter fun m => m.addr ≠ a } }
  else none

/-- What happens next, if it can happen. -/
def step? (c : TickingServer σ ι) : TickingEvent σ ι → Option (TickingServer σ ι)
  | .advance now => if c.clock ≤ now then some { c with clock := now } else none
  | .link e =>
      if e.At c.clock then
        (c.server.step env p₀ e).map fun server => { c with server := server }
      else none
  | .begin => if c.ticking.isNone then some { c with ticking := some { now := c.clock } } else none
  | .visit a => c.ticking.bind fun t => c.visit a t
  | .remove a => c.ticking.bind fun t => c.remove a t
  | .finish => c.ticking.bind fun t =>
      if t.remove.isEmpty then some { c with ticking := none } else none

/-- An event that cannot happen does nothing. -/
def step (c : TickingServer σ ι) (e : TickingEvent σ ι) : TickingServer σ ι :=
  (c.step? env p₀ e).getD c

/-- Asking a session and removing it at once, if it is to be removed, is the tick of the link
model. -/
lemma tick_eq_visit {c : TickingServer σ ι} {p : ℕ} {s : LinkSession σ ι} {now : UInt64}
    (hmap : c.server.sessions s.addr = some p) (hheap : c.server.heap p = some s) :
    c.server.step env p₀ (.tick now p) =
      ((c.visit s.addr { now := now }).bind fun c' => c'.ticking.bind fun t =>
        if t.remove.isEmpty then some c' else c'.remove s.addr t).map TickingServer.server := by
  simp only [Server.step, visit, hmap, hheap, Option.bind_some, if_pos, Server.tick]
  cases htick : s.core.tick now s.working with
  | error f => rfl
  | ok done =>
      obtain ⟨core, gone⟩ := done
      cases gone with
      | false => rfl
      | true =>
          simp only [Except.toOption, Option.bind_some, Option.map_some, if_true, List.nil_append,
            List.isEmpty_cons, remove, List.map_cons, List.map_nil, List.mem_singleton]
          cases (c.server.put p { s with core := core }).removeSessionByAddr s.addr <;> rfl

/-! ### What is removed -/

/-- A session is not removed as timed out while it was active within `SESSION_TIMEOUT`. -/
def Spares (c : TickingServer σ ι) : TickingEvent σ ι → Prop
  | .remove a => ∀ t, c.ticking = some t → ∀ m ∈ t.remove, m.addr = a → m.late = true →
      ∀ p s, c.server.sessions a = some p → c.server.heap p = some s →
        s.core.frame.lastEvent.toNat + sessionTimeout.toNat ≤ c.clock.toNat
  | _ => True

/-- No session is refreshed between the reading of the clock and the question, unless that is long
ago, and none between the question and the removal. -/
def Timely (c : TickingServer σ ι) : TickingEvent σ ι → Prop
  | .visit a => ∀ t, c.ticking = some t →
      ∀ p s, c.server.sessions a = some p → c.server.heap p = some s →
        s.core.timedout t.now = true → s.working = false →
          s.core.frame.lastEvent ≤ t.now ∨
            s.core.frame.lastEvent.toNat + sessionTimeout.toNat ≤ c.clock.toNat
  | .remove a => ∀ t, c.ticking = some t → ∀ m ∈ t.remove, m.addr = a → m.late = true →
      ∀ p s, c.server.sessions a = some p → c.server.heap p = some s →
        s.core.frame.lastEvent = m.last
  | _ => True

/-- What was read is not later than the clock, and what is marked as timed out was active long
ago. -/
structure Kept (c : TickingServer σ ι) : Prop where
  now_le : ∀ t, c.ticking = some t → t.now ≤ c.clock
  late : ∀ t, c.ticking = some t → ∀ m ∈ t.remove, m.late = true →
    m.last.toNat + sessionTimeout.toNat ≤ c.clock.toNat

variable {env p₀} {c c' : TickingServer σ ι} {t : Ticking ι} {a : ι}

omit [DecidableEq ι] in
lemma Kept.of_ticking (h : c.Kept) (hclock : c.clock ≤ c'.clock)
    (hticking : c'.ticking = c.ticking) : c'.Kept where
  now_le t ht := UInt64.le_trans (h.now_le t (hticking ▸ ht)) hclock
  late t ht m hm hlate :=
    Nat.le_trans (h.late t (hticking ▸ ht) m hm hlate) (UInt64.le_iff_toNat_le.mp hclock)

/-- A session that is idle is to be removed when it timed out. -/
lemma tick_removes_late {s c : Session σ} {now : UInt64} {working : Bool}
    (h : s.tick now working = .ok (c, true)) (hlate : s.timedout now = true) : working = false := by
  rw [Session.tick, if_pos hlate] at h
  have hneg : (!working) = true := congrArg Prod.snd (Except.ok.inj h)
  simpa using hneg

omit [DecidableEq ι] in
lemma Kept.visit (h : c.Kept) (ht : c.ticking = some t) (htimely : c.Timely (.visit a))
    (hvisit : c.visit a t = some c') : c'.Kept := by
  obtain ⟨p, hmap, hvisit⟩ := Option.bind_eq_some_iff.mp hvisit
  obtain ⟨s, hheap, hvisit⟩ := Option.bind_eq_some_iff.mp hvisit
  obtain ⟨⟨core, gone⟩, htick, rfl⟩ := Option.map_eq_some_iff.mp hvisit
  have hok := Session.eq_ok_of_toOption htick
  refine ⟨fun t' ht' => ?_, fun t' ht' m hm hlate => ?_⟩
  · obtain rfl := Option.some.inj ht'
    exact h.now_le t ht
  · obtain rfl := Option.some.inj ht'
    cases gone with
    | false => exact h.late t ht m hm hlate
    | true =>
        rcases List.mem_append.mp hm with hold | hnew
        · exact h.late t ht m hold hlate
        · obtain rfl := List.mem_singleton.mp hnew
          have hidle := tick_removes_late hok hlate
          rcases htimely t ht p s hmap hheap hlate hidle with hle | hover
          · have hright := (timedoutBy_iff s.core t.now sessionTimeout).mpr (.inl hle)
            have hnow := UInt64.le_iff_toNat_le.mp (h.now_le t ht)
            exact Nat.le_trans (hright.mp hlate) hnow
          · exact hover

lemma Kept.remove (h : c.Kept) (ht : c.ticking = some t) (hremove : c.remove a t = some c') :
    c'.Kept := by
  rw [TickingServer.remove] at hremove
  split_ifs at hremove with hmem
  obtain ⟨server, -, rfl⟩ := Option.map_eq_some_iff.mp hremove
  refine ⟨fun t' ht' => ?_, fun t' ht' m hm hlate => ?_⟩
  · obtain rfl := Option.some.inj ht'
    exact h.now_le t ht
  · obtain rfl := Option.some.inj ht'
    exact h.late t ht m (List.mem_filter.mp hm).1 hlate

/-- Every step in time keeps this. -/
lemma Kept.step (h : c.Kept) {e : TickingEvent σ ι} (htimely : c.Timely e) :
    (c.step env p₀ e).Kept := by
  cases hstep : c.step? env p₀ e with
  | none =>
      rw [TickingServer.step, hstep]
      exact h
  | some c' =>
      rw [TickingServer.step, hstep, Option.getD_some]
      cases e with
      | advance now =>
          rw [step?] at hstep
          split_ifs at hstep with hnow
          obtain rfl := Option.some.inj hstep
          exact h.of_ticking hnow rfl
      | link e =>
          rw [step?] at hstep
          split_ifs at hstep with hat
          obtain ⟨server, -, rfl⟩ := Option.map_eq_some_iff.mp hstep
          exact h.of_ticking (UInt64.le_refl _) rfl
      | begin =>
          rw [step?] at hstep
          split_ifs at hstep
          obtain rfl := Option.some.inj hstep
          refine ⟨fun t ht => ?_, fun t ht m hm => ?_⟩
          · obtain rfl := Option.some.inj ht
            exact UInt64.le_refl _
          · obtain rfl := Option.some.inj ht
            exact absurd hm List.not_mem_nil
      | visit a =>
          obtain ⟨t, ht, hvisit⟩ := Option.bind_eq_some_iff.mp hstep
          exact h.visit ht htimely hvisit
      | remove a =>
          obtain ⟨t, ht, hremove⟩ := Option.bind_eq_some_iff.mp hstep
          exact h.remove ht hremove
      | finish =>
          obtain ⟨t, -, hstep⟩ := Option.bind_eq_some_iff.mp hstep
          split_ifs at hstep
          obtain rfl := Option.some.inj hstep
          exact ⟨fun t ht => (nomatch ht), fun t ht => (nomatch ht)⟩

/-- Nothing active is removed in a run that is in time. -/
lemma along_spares (hidle : c.ticking = none) {es : List (TickingEvent σ ι)}
    (h : Along (TickingServer.step env p₀) Timely c es) :
    Along (TickingServer.step env p₀) Spares c es := by
  have hnone : ∀ t, c.ticking ≠ some t := fun t ht => nomatch hidle.symm.trans ht
  have hkept : c.Kept := ⟨fun t ht => absurd ht (hnone t), fun t ht => absurd ht (hnone t)⟩
  refine h.imp (J := Kept) (F := fun _ _ => True) (fun c e hk _ htimely => ⟨?_, hk.step htimely⟩)
    hkept (along_true ..)
  cases e with
  | remove a =>
      intro t ht m hm haddr hlate p s hmap hheap
      rw [htimely t ht m hm haddr hlate p s hmap hheap]
      exact hk.late t ht m hm hlate
  | _ => exact trivial

end TickingServer

/-! ### All of them -/

/-- The tests are right exactly for times in order, or almost `2 ^ 64` apart; and `TickSessions`
removes no active session in a run in which none is refreshed behind its back. -/
theorem expiry_iff {σ ι : Type} [DecidableEq ι] (env : LinkEnv σ) (p₀ : σ)
    {c : TickingServer σ ι} (hidle : c.ticking = none) (es : List (TickingEvent σ ι)) :
    (∀ (s : Session σ) (now timeout : UInt64), TimedoutRight s now timeout ↔
      s.frame.lastEvent ≤ now ∨ 2 ^ 64 + now.toNat < s.frame.lastEvent.toNat + timeout.toNat) ∧
    (∀ (hop : TransitHop) (now : UInt64), hop.ExpiredRight now ↔
      hop.started ≤ now ∨ 2 ^ 64 + now.toNat ≤ hop.started.toNat + hop.lifetime.toNat) ∧
    (∀ (job : Dht.SearchJob) (now : UInt64), job.ExpiredRight now ↔
      job.started ≤ now ∨ 2 ^ 64 + now.toNat < job.started.toNat + Dht.jobTimeout.toNat) ∧
    (Along (TickingServer.step env p₀) TickingServer.Timely c es →
      Along (TickingServer.step env p₀) TickingServer.Spares c es) :=
  ⟨timedoutBy_iff, TransitHop.expired_iff, Dht.SearchJob.isExpired_iff,
    TickingServer.along_spares hidle⟩

/-- A link to which nothing happened yet, at a time. -/
def quietLink : TickingServer Unit Unit := { clock := 1000, server := {} }

/-- A session is removed that was asked long after its last event. -/
theorem expiry_iff_removed :
    Along (TickingServer.step (LinkEnv.discarding (List.Vector.replicate 32 0)) ())
      TickingServer.Spares quietLink
        [.link (.tryEstablish 1000 ()), .advance 1001,
          .link (.complete 1001 0 .genIntro true true), .advance 20000, .begin, .visit (),
          .remove ()] := by
  refine (expiry_iff _ _ rfl _).2.2.2 ⟨trivial, trivial, trivial, trivial, trivial, ?_, ?_, trivial⟩
  · intro t ht p s hmap hheap hlate hidle
    obtain rfl := Option.some.inj ht
    obtain rfl := Option.some.inj hmap
    obtain rfl := Option.some.inj hheap
    exact .inl (by decide)
  · intro t ht m hm haddr hlate p s hmap hheap
    obtain rfl := Option.some.inj ht
    obtain rfl := List.mem_singleton.mp hm
    obtain rfl := Option.some.inj hmap
    obtain rfl := Option.some.inj hheap
    rfl

/-- A session that is refreshed after `TickSessions` read the clock is removed at once. -/
theorem not_spares_refreshed :
    ¬ Along (TickingServer.step (LinkEnv.discarding (List.Vector.replicate 32 0)) ())
      TickingServer.Spares quietLink
        [.link (.tryEstablish 1000 ()), .begin, .advance 1001,
          .link (.complete 1001 0 .genIntro true true), .visit (), .remove ()] := by
  rintro ⟨-, -, -, -, -, hremove, -⟩
  have hspared := hremove _ rfl ⟨(), true, 1001⟩ (List.mem_singleton.mpr rfl) rfl rfl 0 _ rfl rfl
  exact absurd hspared (by decide)

end Iwp

end Udap
