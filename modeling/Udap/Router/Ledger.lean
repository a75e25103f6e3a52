import Udap.Router.Outbound

/-!
What becomes of the messages for routers without a session, and how long it may take.

A message goes to a link at once if there is a session, else into the queue of its router. A queue
is given to a link as a whole, in its order, or it is discarded as a whole.

* `step_outbox`: what an event does to the queue of a router and to what links got for it.
* `router_ledger`: in every run each message is in its queue, or was sent once, or was discarded for
  one of three causes, and queued messages are sent in their order.
* `step_work`: each continuation uses up some of the work that sending and connecting make.
* `AllPaced`: each job pauses longer after each attempt, ten times at most.
* `router_drains`: a run has at most so many continuations, and when none is left in a run that
  keeps the queues, then all queues are empty.
-/

namespace Udap

open ByteMem Dht

/-- The messages for `k` that an event puts into the queue. -/
def RouterEvent.queued {M : Type} (k : RouterID) : RouterEvent M → List M
  | .send remote msg false => if remote = k then [msg] else []
  | _ => []

/-- The messages for `k` that an event gives to a link at once. -/
def RouterEvent.direct {M : Type} (k : RouterID) : RouterEvent M → List M
  | .send remote msg true => if remote = k then [msg] else []
  | _ => []

/-- The event is a continuation of the router. -/
def RouterEvent.continues {M : Type} : RouterEvent M → Bool
  | .loaded .. | .lookedUp .. | .attempted .. | .retried .. | .verified .. => true
  | _ => false

/-- The work that an event from outside makes. -/
def RouterEvent.price {M : Type} : RouterEvent M → ℕ
  | .send _ _ false => 24
  | .connect _ => 22
  | _ => 0

namespace Router

variable {M : Type}

/-- The queue for a router. -/
def queueFor (r : Router M) (k : RouterID) : List M := (r.outboundMesssageQueue.lookup k).getD []

/-- What was given to links for a router. -/
def sentTo (r : Router M) (k : RouterID) : List Bytes :=
  (r.linkSent.filter fun s => s.1 = k).map Prod.snd

/-- The queue of `k` is discarded: nobody in the DHT knows `k`, no attempt is left for its job, or
its contact is not valid. -/
def Discards (k : RouterID) (r : Router M) : RouterEvent M → Prop
  | .lookedUp target none => target = k
  | .attempted ref none => ∃ job, r.job ref = some job ∧ ¬ job.retries > 0 ∧ job.pubkey = k
  | .verified _ rc signed saved _ => ¬ (signed && saved) ∧ rc.pubkey = k
  | _ => False

/-! ### Queues and links -/

section Outbox

variable {r r' r₀ : Router M} {enc : M → Option Bytes}

/-- Two routers have the same queues, and links got the same from them. -/
structure SameOutbox (r r' : Router M) : Prop where
  queueFor : r'.outboundMesssageQueue = r.outboundMesssageQueue
  linkSent : r'.linkSent = r.linkSent

lemma SameOutbox.refl (r : Router M) : SameOutbox r r := ⟨rfl, rfl⟩

lemma SameOutbox.trans {r'' : Router M} (h : SameOutbox r r') (h' : SameOutbox r' r'') :
    SameOutbox r r'' :=
  ⟨h'.1.trans h.1, h'.2.trans h.2⟩

lemma SameOutbox.queue_eq (h : SameOutbox r r') (k : RouterID) : r'.queueFor k = r.queueFor k := by
  rw [Router.queueFor, Router.queueFor, h.queueFor]

lemma SameOutbox.sentTo_eq (h : SameOutbox r r') (k : RouterID) : r'.sentTo k = r.sentTo k := by
  rw [sentTo, sentTo, h.linkSent]

lemma sameOutbox_take {w : Waiting} (h : r.take w = some r') : SameOutbox r r' := by
  obtain ⟨-, rfl⟩ := take_spec h
  exact ⟨rfl, rfl⟩

/-- Connecting makes a job or leaves the router as it is. -/
lemma tryConnect_cases {rc : RouterContact} {n : UInt16}
    (h : (r.tryConnect rc n).map Prod.fst = some r') :
    r' = r ∨ rc.pubkey ∉ r.pendingEstablishJobs ∧ ∃ addr, r' = r.establish rc.pubkey addr n := by
  obtain ⟨⟨r₀, done⟩, hconnect, rfl⟩ := Option.map_eq_some_iff.mp h
  rw [Router.tryConnect] at hconnect
  split_ifs at hconnect with hpending
  · obtain ⟨rfl, -⟩ := Prod.mk.inj (Option.some.inj hconnect)
    exact .inl rfl
  · cases haddrs : rc.addrs with
    | none =>
      rw [haddrs] at hconnect
      cases hconnect
    | some addrs =>
      rw [haddrs] at hconnect
      cases addrs with
      | nil =>
        obtain ⟨rfl, -⟩ := Prod.mk.inj (Option.some.inj hconnect)
        exact .inl rfl
      | cons addr rest =>
        obtain ⟨rfl, -⟩ := Prod.mk.inj (Option.some.inj hconnect)
        exact .inr ⟨hpending, addr, rfl⟩

/-- A message is given to a link, or it is queued; then its router is connected to, or the contact
of the router is loaded. -/
lemma sendToOrQueue_cases {remote : RouterID} {msg : M} {connected : Bool}
    (h : r.sendToOrQueue enc remote msg connected = some r') :
    (connected = true ∧ r' = r.sendTo enc remote msg) ∨
      (connected = false ∧ (r' = (r.enqueue remote msg).await (.load remote) ∨
        ∃ rc, ((r.enqueue remote msg).tryConnect rc 10).map Prod.fst = some r')) := by
  rw [sendToOrQueue] at h
  split_ifs at h with hconnected
  · exact .inl ⟨hconnected, (Option.some.inj h).symm⟩
  · refine .inr ⟨Bool.eq_false_of_not_eq_true hconnected, ?_⟩
    cases hdb : r.nodedb.lookup remote with
    | none =>
      rw [hdb] at h
      exact .inl (Option.some.inj h).symm
    | some rc =>
      rw [hdb] at h
      exact .inr ⟨rc, h⟩

lemma sameOutbox_tryConnect {rc : RouterContact} {n : UInt16}
    (h : (r.tryConnect rc n).map Prod.fst = some r') : SameOutbox r r' := by
  obtain rfl | ⟨-, addr, rfl⟩ := tryConnect_cases h
  · exact .refl _
  · exact ⟨rfl, rfl⟩

lemma sameOutbox_track {rc : RouterContact} {place : ℕ} (h : r.track rc place = some r') :
    SameOutbox r r' := by
  obtain ⟨⟨r₁, a⟩, hset, rfl⟩ := Option.map_eq_some_iff.mp h
  rw [setValid] at hset
  cases hlookup : r.validRouters.lookup rc.pubkey with
  | some a' =>
    rw [hlookup] at hset
    obtain ⟨rfl, -⟩ := Prod.mk.inj (Option.some.inj hset)
    exact ⟨rfl, rfl⟩
  | none =>
    rw [hlookup] at hset
    dsimp only at hset
    split_ifs at hset
    obtain ⟨rfl, -⟩ := Prod.mk.inj (Option.some.inj hset)
    exact ⟨rfl, rfl⟩

lemma queueFor_enqueue (remote : RouterID) (msg : M) (k : RouterID) :
    (r.enqueue remote msg).queueFor k =
      r.queueFor k ++ (RouterEvent.send remote msg false).queued k := by
  rw [queueFor, enqueue, RouterEvent.queued]
  split_ifs with heq
  · rw [heq, AList.lookup_insert]
    rfl
  · rw [AList.lookup_insert_ne (Ne.symm heq), List.append_nil]
    rfl

lemma queueFor_discard (remote k : RouterID) :
    (r.discardOutboundFor remote).queueFor k = if remote = k then [] else r.queueFor k := by
  rw [queueFor, discardOutboundFor]
  split_ifs with heq
  · rw [heq, AList.lookup_erase]
    rfl
  · rw [AList.lookup_erase_ne (Ne.symm heq)]
    rfl

/-- What a link gets for `k` from one message. -/
lemma sentTo_sendTo (remote : RouterID) (msg : M) (k : RouterID) :
    (r.sendTo enc remote msg).sentTo k =
      r.sentTo k ++ ((RouterEvent.send remote msg true).direct k).filterMap enc := by
  rw [sentTo, sendTo, List.filter_append, List.map_append, RouterEvent.direct]
  split_ifs with heq <;> cases henc : enc msg <;> simp [heq, henc, sentTo]

lemma sentTo_sendAll (remote : RouterID) (msgs : List M) (k : RouterID) :
    (msgs.foldl (fun r msg => r.sendTo enc remote msg) r).sentTo k =
      r.sentTo k ++ if remote = k then msgs.filterMap enc else [] := by
  induction msgs generalizing r with
  | nil => simp
  | cons msg msgs ih =>
    rw [List.foldl_cons, ih, sentTo_sendTo, RouterEvent.direct]
    split_ifs
    · rw [List.append_assoc, ← List.filterMap_append]
      rfl
    · simp

/-- Flushing gives the queue to a link. -/
lemma flush_outbox (enc : M → Option Bytes) (r : Router M) (remote k : RouterID) :
    (r.flushOutboundFor enc remote).queueFor k = (if remote = k then [] else r.queueFor k) ∧
      (r.flushOutboundFor enc remote).sentTo k =
        r.sentTo k ++ if remote = k then (r.queueFor k).filterMap enc else [] := by
  rw [flushOutboundFor]
  cases hlookup : r.outboundMesssageQueue.lookup remote with
  | none =>
    by_cases heq : remote = k
    · subst heq
      simp [queueFor, hlookup]
    · simp [heq]
  | some queue =>
    constructor
    · rw [queueFor]
      split_ifs with heq
      · rw [heq, AList.lookup_insert]
        rfl
      · rw [AList.lookup_insert_ne (Ne.symm heq)]
        rfl
    · have hsent : ({ queue.foldl (fun r msg => r.sendTo enc remote msg) r with
          outboundMesssageQueue := r.outboundMesssageQueue.insert remote [] } : Router M).sentTo k =
          (queue.foldl (fun r msg => r.sendTo enc remote msg) r).sentTo k := rfl
      rw [hsent, sentTo_sendAll]
      by_cases heq : remote = k
      · subst heq
        simp [queueFor, hlookup]
      · simp [heq]

/-- The three ends of an attempt: a session, another attempt, or no attempt left. -/
lemma onTryConnectResult_cases {ref : JobRef} {session : Option RouterContact}
    (h : r.onTryConnectResult ref session = some r') : ∃ job, r.job ref = some job ∧
      ((∃ remote, session = some remote ∧
        r' = (r.setJob ref { job with link := true, session := session }).await
          (.verify ref remote)) ∨
      (session = none ∧ job.retries > 0 ∧
        r' = (r.setJob ref { job with link := true, session := none, retries := job.retries - 1
                                      timeout := job.timeout * 3 / 2 }).await (.timer ref)) ∨
      session = none ∧ ¬ job.retries > 0 ∧
        r' = (r.discardOutboundFor job.pubkey).eraseJob job.pubkey) := by
  obtain ⟨job, hjob, rfl⟩ := Option.map_eq_some_iff.mp h
  refine ⟨job, hjob, ?_⟩
  cases session with
  | some remote => exact .inl ⟨remote, rfl, rfl⟩
  | none =>
    by_cases hretries : job.retries > 0
    · exact .inr (.inl ⟨rfl, hretries, if_pos hretries⟩)
    · exact .inr (.inr ⟨rfl, hretries, if_neg hretries⟩)

/-- The ends of a check: a valid contact, whose queue is flushed if its job has a session, or an
invalid one, whose queue is discarded. -/
lemma onVerifyServerRC_ends {ref : JobRef} {rc : RouterContact} {signed saved : Bool} {place : ℕ}
    (h : r.onVerifyServerRC enc ref rc signed saved place = some r') :
    ∃ r₁, SameOutbox r r₁ ∧ SameWork r r₁ ∧
      (r' = r₁ ∨ r' = (r₁.flushOutboundFor enc rc.pubkey).eraseJob rc.pubkey ∨
        ¬ (signed && saved) ∧ r' = (r₁.eraseJob rc.pubkey).discardOutboundFor rc.pubkey) := by
  have hdb : SameOutbox r (if signed then r.setRC rc else r) ∧
      SameWork r (if signed then r.setRC rc else r) := by
    split_ifs <;> exact ⟨⟨rfl, rfl⟩, ⟨rfl, rfl, rfl, rfl⟩⟩
  unfold onVerifyServerRC at h
  generalize (if signed then r.setRC rc else r) = r₀ at h hdb
  obtain ⟨hout, hwork⟩ := hdb
  cases hvalid : signed && saved with
  | true =>
    rw [hvalid] at h
    obtain ⟨r₁, htrack, h⟩ := Option.bind_eq_some_iff.mp h
    obtain ⟨job, -, rfl⟩ := Option.map_eq_some_iff.mp h
    refine ⟨r₁, hout.trans (sameOutbox_track htrack), hwork.trans (sameWork_track htrack), ?_⟩
    split_ifs
    · exact .inr (.inl rfl)
    · exact .inl rfl
  | false =>
    rw [hvalid] at h
    obtain ⟨job, -, rfl⟩ := Option.map_eq_some_iff.mp h
    exact ⟨r₀, hout, hwork, .inr (.inr ⟨Bool.false_ne_true, rfl⟩)⟩

/-- The queue of `k` and what links got for `k` grow by the message of the event. -/
def Grows (enc : M → Option Bytes) (k : RouterID) (e : RouterEvent M) (r r' : Router M) : Prop :=
  r'.queueFor k = r.queueFor k ++ e.queued k ∧
    r'.sentTo k = r.sentTo k ++ (e.direct k).filterMap enc

/-- The queue of `k` is emptied: it is given to a link, or it is discarded. -/
def Empties (enc : M → Option Bytes) (k : RouterID) (e : RouterEvent M) (r r' : Router M) : Prop :=
  e.queued k = [] ∧ e.direct k = [] ∧ r'.queueFor k = [] ∧
    (r'.sentTo k = r.sentTo k ++ (r.queueFor k).filterMap enc ∨
      r.Discards k e ∧ r'.sentTo k = r.sentTo k)

lemma SameOutbox.grows (h : SameOutbox r r') {k : RouterID} {e : RouterEvent M}
    (hq : e.queued k = []) (hd : e.direct k = []) : Grows enc k e r r' := by
  rw [Grows, hq, hd, h.queue_eq, h.sentTo_eq, List.filterMap_nil, List.append_nil, List.append_nil]
  exact ⟨rfl, rfl⟩

/-- A queue is discarded, and it is that of `k` or another one. -/
lemma SameOutbox.discard (h : SameOutbox r r₀) {k remote : RouterID} {e : RouterEvent M}
    (hq : e.queued k = []) (hd : e.direct k = []) (hdiscards : remote = k → r.Discards k e) :
    Grows enc k e r (r₀.discardOutboundFor remote) ∨
      Empties enc k e r (r₀.discardOutboundFor remote) := by
  have hqueue := queueFor_discard (r := r₀) remote k
  by_cases heq : remote = k
  · rw [if_pos heq] at hqueue
    exact .inr ⟨hq, hd, hqueue, .inr ⟨hdiscards heq, h.sentTo_eq k⟩⟩
  · rw [if_neg heq, h.queue_eq] at hqueue
    rw [Grows, hq, hd, hqueue, List.append_nil, List.filterMap_nil, List.append_nil]
    exact .inl ⟨rfl, h.sentTo_eq k⟩

/-- What an event does to the queue of `k` and to what links got for `k`. -/
lemma step_outbox {e : RouterEvent M} (h : r.step enc e = some r') (k : RouterID) :
    Grows enc k e r r' ∨ Empties enc k e r r' := by
  cases e with
  | send remote msg connected =>
    refine .inl ?_
    obtain ⟨rfl, rfl⟩ | ⟨rfl, hqueued⟩ := sendToOrQueue_cases h
    · exact ⟨(List.append_nil _).symm, sentTo_sendTo remote msg k⟩
    · have hout : SameOutbox (r.enqueue remote msg) r' := by
        obtain rfl | ⟨rc, hconnect⟩ := hqueued
        · exact ⟨rfl, rfl⟩
        · exact sameOutbox_tryConnect hconnect
      rw [Grows, hout.queue_eq, hout.sentTo_eq, queueFor_enqueue]
      exact ⟨rfl, (List.append_nil _).symm⟩
  | loaded pubkey file =>
    obtain ⟨r₀, htake, h⟩ := Option.bind_eq_some_iff.mp h
    refine .inl (SameOutbox.grows ((sameOutbox_take htake).trans ?_) rfl rfl)
    cases file with
    | none =>
      rw [← Option.some.inj h]
      exact ⟨rfl, rfl⟩
    | some rc =>
      have hdb : SameOutbox r₀ ((r₀.setRC rc).getRC pubkey).2 := ⟨rfl, rfl⟩
      exact hdb.trans (sameOutbox_tryConnect h)
  | lookedUp target found =>
    obtain ⟨r₀, htake, h⟩ := Option.bind_eq_some_iff.mp h
    cases found with
    | some rc =>
      exact .inl (((sameOutbox_take htake).trans (sameOutbox_tryConnect h)).grows rfl rfl)
    | none =>
      rw [← Option.some.inj h]
      exact (sameOutbox_take htake).discard rfl rfl id
  | attempted ref session =>
    obtain ⟨r₀, htake, h⟩ := Option.bind_eq_some_iff.mp h
    obtain ⟨job, hjob, ⟨remote, -, rfl⟩ | ⟨-, -, rfl⟩ | ⟨rfl, hretries, rfl⟩⟩ :=
      onTryConnectResult_cases h
    · exact .inl (SameOutbox.grows ((sameOutbox_take htake).trans ⟨rfl, rfl⟩) rfl rfl)
    · exact .inl (SameOutbox.grows ((sameOutbox_take htake).trans ⟨rfl, rfl⟩) rfl rfl)
    -- the attempts are used up, and the queue of this router is given up
    · obtain ⟨-, rfl⟩ := take_spec htake
      exact SameOutbox.discard (r := r) ⟨rfl, rfl⟩ rfl rfl fun heq => ⟨job, hjob, hretries, heq⟩
  | retried ref =>
    obtain ⟨r₀, htake, h⟩ := Option.bind_eq_some_iff.mp h
    obtain ⟨job, -, rfl⟩ := Option.map_eq_some_iff.mp h
    refine .inl (SameOutbox.grows ((sameOutbox_take htake).trans ?_) rfl rfl)
    split_ifs
    · exact ⟨rfl, rfl⟩
    · exact .refl _
  | verified ref rc signed saved place =>
    obtain ⟨r₀, htake, h⟩ := Option.bind_eq_some_iff.mp h
    obtain ⟨r₁, hout, -, rfl | rfl | ⟨hvalid, rfl⟩⟩ := onVerifyServerRC_ends h
    · exact .inl (((sameOutbox_take htake).trans hout).grows rfl rfl)
    -- the queue of the verified router goes to its link, the others stay
    · replace hout := (sameOutbox_take htake).trans hout
      obtain ⟨hqueue, hsent⟩ := flush_outbox enc r₁ rc.pubkey k
      rw [hout.queue_eq, hout.sentTo_eq] at hsent
      rw [hout.queue_eq] at hqueue
      by_cases heq : rc.pubkey = k
      · rw [if_pos heq] at hqueue hsent
        exact .inr ⟨rfl, rfl, hqueue, .inl hsent⟩
      · rw [if_neg heq] at hqueue hsent
        exact .inl ⟨hqueue.trans (List.append_nil _).symm, hsent⟩
    · refine SameOutbox.discard ((sameOutbox_take htake).trans (hout.trans ?_)) rfl rfl
        fun heq => ⟨hvalid, heq⟩
      exact ⟨rfl, rfl⟩
  | closed remote =>
    rw [← Option.some.inj h]
    refine .inl (SameOutbox.grows ?_ rfl rfl)
    rw [sessionClosed]
    cases r.validRouters.lookup remote with
    | none => exact .refl _
    | some a => exact ⟨rfl, rfl⟩
  | connect rc => exact .inl ((sameOutbox_tryConnect h).grows rfl rfl)
  | dht call =>
    rw [step] at h
    split_ifs at h
    rw [← Option.some.inj h]
    exact .inl (SameOutbox.grows ⟨rfl, rfl⟩ rfl rfl)

end Outbox

/-! ### The ledger -/

section Ledger

variable {enc : M → Option Bytes} {r r' : Router M}

/-- An account of the messages for `k` in a run: what links got, each message with whether it came
from the queue, and what left the queue. -/
structure Ledger (enc : M → Option Bytes) (k : RouterID) (r : Router M)
    (events : List (RouterEvent M)) (r' : Router M) (sent : List (M × Bool)) (left : List M) :
    Prop where
  direct : (sent.filter fun s => !s.2).map Prod.fst = events.flatMap (·.direct k)
  queued : left ++ r'.queueFor k = r.queueFor k ++ events.flatMap (·.queued k)
  flushed : ((sent.filter fun s => s.2).map Prod.fst).Sublist left
  links : r'.sentTo k = r.sentTo k ++ sent.filterMap fun s => enc s.1

lemma filterMap_mark (enc : M → Option Bytes) (b : Bool) (msgs : List M) :
    ((msgs.map fun m => (m, b)).filterMap fun s => enc s.1) = msgs.filterMap enc := by
  rw [List.filterMap_map]
  rfl

lemma filter_mark (b c : Bool) (msgs : List M) :
    ((msgs.map fun m => (m, b)).filter fun s => s.2 == c).map Prod.fst =
      if b = c then msgs else [] := by
  split_ifs with heq
  · rw [List.filter_eq_self.mpr, List.map_map]
    · exact List.map_id msgs
    · intro s hs
      obtain ⟨m, -, rfl⟩ := List.mem_map.mp hs
      exact beq_iff_eq.mpr heq
  · rw [List.filter_eq_nil_iff.mpr, List.map_nil]
    intro s hs
    obtain ⟨m, -, rfl⟩ := List.mem_map.mp hs
    exact fun h => heq (beq_iff_eq.mp h)

section Cons

variable {k : RouterID} {e : RouterEvent M} {es : List (RouterEvent M)} {r₁ : Router M}
  {sent : List (M × Bool)} {left : List M}

/-- The account with the event before: its message was sent at once, or queued. -/
lemma Ledger.grows (h : Ledger enc k r₁ es r' sent left) (hg : Grows enc k e r r₁) :
    Ledger enc k r (e :: es) r' ((e.direct k).map (fun m => (m, false)) ++ sent) left := by
  have hfalse := filter_mark false false (e.direct k)
  have htrue := filter_mark false true (e.direct k)
  simp only [beq_false, beq_true, if_true, Bool.false_eq_true, if_false] at hfalse htrue
  refine ⟨?_, ?_, ?_, ?_⟩
  · rw [List.filter_append, List.map_append, hfalse, h.direct, List.flatMap_cons]
  · rw [h.queued, hg.1, List.append_assoc, List.flatMap_cons]
  · rw [List.filter_append, List.map_append, htrue]
    exact h.flushed
  · rw [h.links, hg.2, List.filterMap_append, filterMap_mark, List.append_assoc]

lemma Ledger.queued_of_empties (h : Ledger enc k r₁ es r' sent left) (he : Empties enc k e r r₁) :
    (r.queueFor k ++ left) ++ r'.queueFor k =
      r.queueFor k ++ (e :: es).flatMap (·.queued k) := by
  rw [List.append_assoc, h.queued, he.2.2.1, List.flatMap_cons, he.1]

/-- The account with the event before: the queue was given to a link. -/
lemma Ledger.flushes (h : Ledger enc k r₁ es r' sent left) (he : Empties enc k e r r₁)
    (hsent : r₁.sentTo k = r.sentTo k ++ (r.queueFor k).filterMap enc) :
    Ledger enc k r (e :: es) r' ((r.queueFor k).map (fun m => (m, true)) ++ sent)
      (r.queueFor k ++ left) := by
  have hfalse := filter_mark true false (r.queueFor k)
  have htrue := filter_mark true true (r.queueFor k)
  simp only [beq_false, beq_true, if_true, Bool.true_eq_false, if_false] at hfalse htrue
  refine ⟨?_, h.queued_of_empties he, ?_, ?_⟩
  · rw [List.filter_append, List.map_append, hfalse, h.direct, List.flatMap_cons, he.2.1]
  · rw [List.filter_append, List.map_append, htrue]
    exact h.flushed.append_left _
  · rw [h.links, hsent, List.filterMap_append, filterMap_mark, List.append_assoc]

/-- The account with the event before: the queue was discarded. -/
lemma Ledger.discards (h : Ledger enc k r₁ es r' sent left) (he : Empties enc k e r r₁)
    (hsent : r₁.sentTo k = r.sentTo k) :
    Ledger enc k r (e :: es) r' sent (r.queueFor k ++ left) := by
  refine ⟨?_, h.queued_of_empties he, h.flushed.trans (List.sublist_append_right _ _), ?_⟩
  · rw [h.direct, List.flatMap_cons, he.2.1, List.nil_append]
  · rw [h.links, hsent]

end Cons

/-- In every run there is such an account; and where no event discards the queue of `k`, all that
left the queue went to links. -/
theorem router_ledger (enc : M → Option Bytes) (r : Router M) (events : List (RouterEvent M))
    (r' : Router M) (hrun : r.run enc events = some r') (k : RouterID) :
    ∃ sent left, Ledger enc k r events r' sent left ∧
      (Along enc (fun r e => ¬ r.Discards k e) r events →
        (sent.filter fun s => s.2).map Prod.fst = left) := by
  induction events generalizing r with
  | nil =>
    rw [← Option.some.inj hrun]
    exact ⟨[], [], ⟨rfl, by simp, .slnil, by simp⟩, fun _ => rfl⟩
  | cons e es ih =>
    obtain ⟨r₁, hstep, hrest⟩ := Option.bind_eq_some_iff.mp hrun
    obtain ⟨sent, left, hledger, hall⟩ := ih r₁ hrest
    obtain hg | he := step_outbox hstep k
    · refine ⟨_, _, hledger.grows hg, fun halong => ?_⟩
      rw [List.filter_append, List.map_append, hall (halong r₁ hstep).2]
      simp
    · obtain hflush | ⟨hdiscards, hkept⟩ := he.2.2.2
      · refine ⟨_, _, hledger.flushes he hflush, fun halong => ?_⟩
        rw [List.filter_append, List.map_append, hall (halong r₁ hstep).2]
        simp [List.filter_map, Function.comp_def]
      · exact ⟨_, _, hledger.discards he hkept, fun halong => absurd hdiscards (halong r₁ hstep).1⟩

end Ledger

/-! ### Work -/

/-- The attempts that are left for a job. -/
def retriesOf (r : Router M) (ref : JobRef) : ℕ :=
  ((r.job ref).map fun job => job.retries.toNat).getD 0

/-- How many continuations may follow from something that the router waits for, this one included.
After an attempt there is a check, or a timer and another attempt. -/
def workOf (r : Router M) : Waiting → ℕ
  | .load _ => 24
  | .lookup _ => 23
  | .attempt ref => 2 * r.retriesOf ref + 2
  | .timer ref => 2 * r.retriesOf ref + 3
  | .verify _ _ => 1

/-- How many continuations may follow. -/
def work (r : Router M) : ℕ := (r.waiting.map r.workOf).sum

/-- The jobs that are waited for have numbers that were given out. -/
def Numbered (r : Router M) : Prop :=
  ∀ w ∈ r.waiting, ∀ ref, w.job? = some ref → ref.id < r.jobs

/-- From `r` to `r'` the work grows by at most `n`. -/
structure Costs (n : ℕ) (r r' : Router M) : Prop where
  numbered : r'.Numbered
  work : r'.work ≤ r.work + n

section Work

variable {r r' r₀ : Router M} {enc : M → Option Bytes}

lemma costs_of_jobs (hn : r.Numbered)
    (hpending : r'.pendingEstablishJobs = r.pendingEstablishJobs)
    (hwaiting : r'.waiting = r.waiting) (hjobs : r'.jobs = r.jobs) : Costs 0 r r' := by
  have hwork : r'.workOf = r.workOf := by
    funext w
    cases w <;> simp only [workOf, retriesOf, job, hpending]
  refine ⟨?_, ?_⟩
  · rw [Numbered, hwaiting, hjobs]
    exact hn
  · rw [work, work, hwaiting, hwork, Nat.add_zero]

lemma SameWork.costs (h : SameWork r r') (hn : r.Numbered) : Costs 0 r r' :=
  costs_of_jobs hn h.pendingEstablishJobs h.waiting h.jobs

lemma Costs.trans {n m : ℕ} {r'' : Router M} (h : Costs n r r') (h' : Costs m r' r'') :
    Costs (n + m) r r'' :=
  ⟨h'.numbered, by have := h.work; have := h'.work; omega⟩

/-- A continuation takes its work away. -/
lemma take_work {w : Waiting} (hn : r.Numbered) (h : r.take w = some r₀) :
    r₀.Numbered ∧ r₀.work + r.workOf w = r.work ∧ r₀.workOf = r.workOf := by
  obtain ⟨hmem, rfl⟩ := take_spec h
  refine ⟨fun w' hw' => hn w' (List.mem_of_mem_erase hw'), ?_, rfl⟩
  have hperm := (List.perm_cons_erase hmem).map r.workOf
  rw [work, work, hperm.sum_eq, List.map_cons, List.sum_cons, Nat.add_comm]
  rfl

lemma await_costs {w : Waiting} (hn : r.Numbered)
    (hw : ∀ ref, w.job? = some ref → ref.id < r.jobs) : Costs (r.workOf w) r (r.await w) := by
  refine ⟨fun w' hw' => ?_, ?_⟩
  · rcases List.mem_append.mp hw' with hw' | hw'
    · exact hn w' hw'
    · rw [List.mem_singleton.mp hw']
      exact hw
  · rw [work, await, List.map_append, List.sum_append, List.map_singleton, List.sum_singleton]
    rfl

/-- The work does not grow when the jobs that are waited for get no more attempts. -/
lemma costs_of_retries (hn : r.Numbered) (hwaiting : r'.waiting = r.waiting)
    (hjobs : r.jobs ≤ r'.jobs)
    (hle : ∀ ref : JobRef, ref.id < r.jobs → r'.retriesOf ref ≤ r.retriesOf ref) :
    Costs 0 r r' := by
  refine ⟨?_, ?_⟩
  · rw [Numbered, hwaiting]
    exact fun w hw ref hjob => (hn w hw ref hjob).trans_le hjobs
  · rw [work, work, hwaiting, Nat.add_zero]
    refine List.sum_le_sum fun w hw => ?_
    have hlt := hn w hw
    cases w with
    | load pubkey => exact le_rfl
    | lookup target => exact le_rfl
    | attempt ref =>
      have := hle ref (hlt ref rfl)
      simp only [workOf]
      omega
    | timer ref =>
      have := hle ref (hlt ref rfl)
      simp only [workOf]
      omega
    | verify ref rc => exact le_rfl

lemma retriesOf_of_lookup {ref : JobRef}
    (h : r'.pendingEstablishJobs.lookup ref.key = r.pendingEstablishJobs.lookup ref.key) :
    r'.retriesOf ref = r.retriesOf ref := by
  rw [retriesOf, retriesOf, job, job, h]

lemma retriesOf_eq {ref : JobRef} {job : EstablishJob}
    (h : r.pendingEstablishJobs.lookup ref.key = some job) :
    r.retriesOf ref = if job.id = ref.id then job.retries.toNat else 0 := by
  by_cases heq : job.id = ref.id <;> simp [retriesOf, Router.job, h, heq, Option.filter]

/-- A new job has ten more attempts. -/
lemma establish_costs (hn : r.Numbered) (pk : PubKey) (addr : AddressInfo) :
    Costs 22 r (r.establish pk addr 10) := by
  let new : EstablishJob :=
    { id := r.jobs, ai := addr, timeout := 10000, retries := 10, pubkey := pk }
  let r₁ : Router M :=
    { r with jobs := r.jobs + 1, pendingEstablishJobs := r.pendingEstablishJobs.insert pk new }
  have hself : r₁.retriesOf ⟨pk, r.jobs⟩ = 10 :=
    (retriesOf_eq (AList.lookup_insert _)).trans (if_pos rfl)
  have h₁ : Costs 0 r r₁ := by
    refine costs_of_retries hn rfl (Nat.le_succ _) fun ref hlt => ?_
    by_cases heq : ref.key = pk
    · -- the number of the new job is a new one
      have hnew : r₁.pendingEstablishJobs.lookup ref.key = some new := by
        rw [heq]
        exact AList.lookup_insert _
      rw [retriesOf_eq hnew, if_neg (Nat.ne_of_gt hlt)]
      exact Nat.zero_le _
    · exact (retriesOf_of_lookup (AList.lookup_insert_ne heq)).le
  have h₂ : Costs (r₁.workOf (.attempt ⟨pk, r.jobs⟩)) r₁ (r₁.await (.attempt ⟨pk, r.jobs⟩)) := by
    refine await_costs h₁.numbered ?_
    rintro _ ⟨⟩
    exact Nat.lt_succ_self r.jobs
  have hcost := h₁.trans h₂
  rw [workOf, hself] at hcost
  exact hcost

lemma tryConnect_costs (hn : r.Numbered) {rc : RouterContact}
    (h : (r.tryConnect rc 10).map Prod.fst = some r') : Costs 22 r r' := by
  obtain rfl | ⟨-, addr, rfl⟩ := tryConnect_cases h
  · exact ⟨hn, Nat.le_add_right _ _⟩
  · exact establish_costs hn rc.pubkey addr

lemma eraseJob_costs (hn : r.Numbered) (pk : PubKey) : Costs 0 r (r.eraseJob pk) := by
  refine costs_of_retries hn rfl le_rfl fun ref _ => ?_
  rw [retriesOf, job, lookup_eraseJob]
  split_ifs with heq
  · exact Nat.zero_le _
  · exact (retriesOf_of_lookup rfl).le

/-- A job is changed, and has no more attempts than before. -/
lemma setJob_costs (hn : r.Numbered) {ref : JobRef} {old : EstablishJob}
    (hold : r.job ref = some old) (job : EstablishJob) (hid : job.id = old.id)
    (hle : job.retries.toNat ≤ old.retries.toNat) :
    Costs 0 r (r.setJob ref job) ∧ (r.setJob ref job).retriesOf ref = job.retries.toNat := by
  obtain ⟨hlookup, hold'⟩ := job_spec hold
  have hjob (ref' : JobRef) (hkey : ref'.key = ref.key) : (r.setJob ref job).retriesOf ref' =
      if job.id = ref'.id then job.retries.toNat else 0 :=
    retriesOf_eq (by rw [lookup_setJob, if_pos hkey])
  refine ⟨costs_of_retries hn rfl le_rfl fun ref' _ => ?_, ?_⟩
  · by_cases hkey : ref'.key = ref.key
    · rw [hjob ref' hkey, retriesOf_eq (by rw [hkey, hlookup]), ← hid]
      split_ifs
      · exact hle
      · exact le_rfl
    · refine (retriesOf_of_lookup ?_).le
      rw [lookup_setJob, if_neg hkey]
  · rw [hjob ref rfl, if_pos (hid.trans hold')]

lemma retries_pred {n : UInt16} (h : n > 0) : (n - 1).toNat + 1 = n.toNat := by
  have hpos : 1 ≤ n := by
    rw [gt_iff_lt, UInt16.lt_iff_toNat_lt] at h
    exact UInt16.le_iff_toNat_le.mpr h
  have hle := UInt16.le_iff_toNat_le.mp hpos
  rw [UInt16.toNat_sub_of_le _ _ hpos]
  simp only [UInt16.toNat_one] at hle ⊢
  omega

/-- An attempt uses up more than what follows from it. -/
lemma attempt_costs {ref : JobRef} {session : Option RouterContact} (hn : r.Numbered)
    (hid : ref.id < r.jobs) (h : r.onTryConnectResult ref session = some r') :
    r'.Numbered ∧ r'.work + 1 ≤ r.work + r.workOf (.attempt ref) := by
  obtain ⟨job, hjob, hends⟩ := onTryConnectResult_cases h
  have hretries : r.retriesOf ref = job.retries.toNat := by
    rw [retriesOf, hjob]
    rfl
  rw [workOf, hretries]
  obtain ⟨remote, rfl, rfl⟩ | ⟨-, hpos, rfl⟩ | ⟨-, -, rfl⟩ := hends
  -- a session: the job waits for the verification of the contact
  · obtain ⟨hset, -⟩ := setJob_costs hn hjob
      { job with link := true, session := some remote } rfl le_rfl
    have hcost := hset.trans (await_costs hset.numbered (w := .verify ref remote) fun ref' h => by
      cases h
      exact hid)
    refine ⟨hcost.numbered, (Nat.add_le_add_right hcost.work 1).trans ?_⟩
    simp only [workOf]
    omega
  -- no session: one retry less, which pays for the timer and the next attempt
  · have hpred := retries_pred hpos
    obtain ⟨hset, hleft⟩ := setJob_costs hn hjob
      { job with link := true, session := none, retries := job.retries - 1
                 timeout := job.timeout * 3 / 2 } rfl (Nat.le_of_succ_le hpred.le)
    have hcost := hset.trans (await_costs hset.numbered (w := .timer ref) fun ref' h => by
      cases h
      exact hid)
    refine ⟨hcost.numbered, (Nat.add_le_add_right hcost.work 1).trans ?_⟩
    simp only [workOf, hleft]
    omega
  · have hcost : Costs 0 r (r.discardOutboundFor job.pubkey) := costs_of_jobs hn rfl rfl rfl
    have hcost' := hcost.trans (eraseJob_costs hcost.numbered job.pubkey)
    exact ⟨hcost'.numbered, Nat.add_le_add hcost'.work (Nat.le_add_left _ _)⟩

end Work

section Step

variable {r r' r₀ : Router M} {enc : M → Option Bytes}

/-- An event from outside makes some work, and a continuation uses some up. -/
lemma step_work (hn : r.Numbered) {e : RouterEvent M} (h : r.step enc e = some r') :
    r'.Numbered ∧ r'.work + e.continues.toNat ≤ r.work + e.price := by
  cases e with
  | send remote msg connected =>
    obtain ⟨rfl, rfl⟩ | ⟨rfl, rfl | ⟨rc, hconnect⟩⟩ := sendToOrQueue_cases h
    · exact ⟨hn, le_rfl⟩
    · have hcost := await_costs (r := r.enqueue remote msg) (w := .load remote) hn
        fun ref h => by cases h
      exact ⟨hcost.numbered, hcost.work⟩
    · have hcost := tryConnect_costs (r := r.enqueue remote msg) hn hconnect
      exact ⟨hcost.numbered, hcost.work.trans (Nat.le_add_right _ 2)⟩
  | loaded pubkey file =>
    obtain ⟨r₀, htake, h⟩ := Option.bind_eq_some_iff.mp h
    obtain ⟨hn₀, hwork, -⟩ := take_work hn htake
    -- the continuation was waited for, and its share of the work is free now
    rw [← hwork]
    cases file with
    | none =>
      rw [← Option.some.inj h]
      have hcost := await_costs (w := .lookup pubkey) hn₀ fun ref h => by cases h
      exact ⟨hcost.numbered, Nat.add_le_add_right hcost.work 1⟩
    | some rc =>
      have hcost := tryConnect_costs (r := ((r₀.setRC rc).getRC pubkey).2) hn₀ h
      exact ⟨hcost.numbered, (Nat.add_le_add_right hcost.work 1).trans (Nat.le_succ _)⟩
  | lookedUp target found =>
    obtain ⟨r₀, htake, h⟩ := Option.bind_eq_some_iff.mp h
    obtain ⟨hn₀, hwork, -⟩ := take_work hn htake
    rw [← hwork]
    cases found with
    | none =>
      rw [← Option.some.inj h]
      have hcost : Costs 0 r₀ (r₀.discardOutboundFor target) := costs_of_jobs hn₀ rfl rfl rfl
      exact ⟨hcost.numbered, (Nat.add_le_add_right hcost.work 1).trans (Nat.le_add_right _ 22)⟩
    | some rc =>
      have hcost := tryConnect_costs hn₀ h
      exact ⟨hcost.numbered, Nat.add_le_add_right hcost.work 1⟩
  | attempted ref session =>
    obtain ⟨r₀, htake, h⟩ := Option.bind_eq_some_iff.mp h
    obtain ⟨hn₀, hwork, hsame⟩ := take_work hn htake
    obtain ⟨hmem, rfl⟩ := take_spec htake
    rw [← hwork]
    exact attempt_costs hn₀ (hn _ hmem ref rfl) h
  | retried ref =>
    obtain ⟨r₀, htake, h⟩ := Option.bind_eq_some_iff.mp h
    obtain ⟨hn₀, hwork, -⟩ := take_work hn htake
    obtain ⟨hmem, rfl⟩ := take_spec htake
    rw [← hwork]
    obtain ⟨job, -, rfl⟩ := Option.map_eq_some_iff.mp h
    split_ifs
    · have hcost := await_costs (w := .attempt ref) hn₀ fun ref' h => by
        cases h
        exact hn _ hmem ref rfl
      exact ⟨hcost.numbered, Nat.add_le_add_right hcost.work 1⟩
    · exact ⟨hn₀, Nat.add_le_add_left (by rw [workOf]; exact Nat.le_add_left _ _) _⟩
  | verified ref rc signed saved place =>
    obtain ⟨r₀, htake, h⟩ := Option.bind_eq_some_iff.mp h
    obtain ⟨hn₀, hwork, -⟩ := take_work hn htake
    rw [← hwork]
    obtain ⟨r₁, -, hsame, hends⟩ := onVerifyServerRC_ends h
    have hcost := hsame.costs hn₀
    -- the job stays, or is erased with its queue flushed or discarded
    obtain rfl | rfl | ⟨-, rfl⟩ := hends
    · exact ⟨hcost.numbered, Nat.add_le_add_right hcost.work 1⟩
    · obtain ⟨hpending, hwaiting, hjobs, -⟩ := flush_spec enc r₁ rc.pubkey
      have hcost' := hcost.trans (costs_of_jobs hcost.numbered hpending hwaiting hjobs)
      have hcost'' := hcost'.trans (eraseJob_costs hcost'.numbered rc.pubkey)
      exact ⟨hcost''.numbered, Nat.add_le_add_right hcost''.work 1⟩
    · have hcost' := hcost.trans (eraseJob_costs hcost.numbered rc.pubkey)
      exact ⟨hcost'.numbered, Nat.add_le_add_right hcost'.work 1⟩
  | closed remote =>
    rw [← Option.some.inj h]
    have hcost := (sameWork_sessionClosed (r := r) remote).costs hn
    exact ⟨hcost.numbered, hcost.work⟩
  | connect rc =>
    have hcost := tryConnect_costs hn h
    exact ⟨hcost.numbered, hcost.work⟩
  | dht call =>
    rw [step] at h
    split_ifs at h
    rw [← Option.some.inj h]
    exact ⟨hn, le_rfl⟩

end Step

/-! ### The pace of the attempts -/

/-- The pause after so many attempts without a session. -/
def backoff : ℕ → ℕ
  | 0 => 10000
  | n + 1 => backoff n * 3 / 2

lemma backoff_lt {n : ℕ} (h : n ≤ 10) : backoff n < 1000000 := by
  interval_cases n <;> decide

/-- A job has at most ten more attempts, and its timeout is the pause after those it had. -/
def Paced (job : EstablishJob) : Prop :=
  job.retries.toNat ≤ 10 ∧ job.timeout.toNat = backoff (10 - job.retries.toNat)

section Pace

variable {r r' r₀ : Router M} {enc : M → Option Bytes}

/-- A timeout is relaxed, and there is no overflow. -/
lemma Paced.relax {job : EstablishJob} (h : Paced job) (hpos : job.retries > 0) :
    Paced { job with retries := job.retries - 1, timeout := job.timeout * 3 / 2 } := by
  have hpred := retries_pred hpos
  obtain ⟨hle, htimeout⟩ := h
  have hlt := backoff_lt (Nat.sub_le 10 job.retries.toNat)
  have hnext : 10 - (job.retries - 1).toNat = 10 - job.retries.toNat + 1 := by omega
  refine ⟨by dsimp only; omega, ?_⟩
  -- a pause is below 1000000, far from 64 bits
  have hmul : (job.timeout * 3).toNat = job.timeout.toNat * 3 := by
    rw [UInt64.toNat_mul]
    exact Nat.mod_eq_of_lt (by rw [htimeout]; simp only [UInt64.toNat_ofNat]; omega)
  rw [hnext, backoff, UInt64.toNat_div, hmul, htimeout]
  rfl

/-- All jobs of a router keep the pace. -/
def AllPaced (r : Router M) : Prop :=
  ∀ pk job, r.pendingEstablishJobs.lookup pk = some job → Paced job

lemma AllPaced.establish (h : r.AllPaced) (pk : PubKey) (addr : AddressInfo) :
    (r.establish pk addr 10).AllPaced := by
  intro k job hk
  by_cases heq : k = pk
  · rw [heq, Router.establish, AList.lookup_insert] at hk
    rw [← Option.some.inj hk]
    exact ⟨le_rfl, rfl⟩
  · rw [Router.establish, AList.lookup_insert_ne heq] at hk
    exact h k job hk

lemma AllPaced.tryConnect (h : r.AllPaced) {rc : RouterContact}
    (hc : (r.tryConnect rc 10).map Prod.fst = some r') : r'.AllPaced := by
  obtain rfl | ⟨-, addr, rfl⟩ := tryConnect_cases hc
  · exact h
  · exact h.establish rc.pubkey addr

lemma AllPaced.setJob (h : r.AllPaced) {ref : JobRef} {job : EstablishJob} (hjob : Paced job) :
    (r.setJob ref job).AllPaced := by
  intro k job' hk
  rw [lookup_setJob] at hk
  split_ifs at hk
  · rw [← Option.some.inj hk]
    exact hjob
  · exact h k job' hk

lemma AllPaced.eraseJob (h : r.AllPaced) (pk : PubKey) : (r.eraseJob pk).AllPaced := by
  intro k job hk
  rw [lookup_eraseJob] at hk
  split_ifs at hk
  exact h k job hk

lemma AllPaced.same (h : r.AllPaced) (hpending : r'.pendingEstablishJobs = r.pendingEstablishJobs) :
    r'.AllPaced := by
  rw [AllPaced, hpending]
  exact h

lemma AllPaced.take (h : r.AllPaced) {w : Waiting} (htake : r.take w = some r₀) :
    r₀.AllPaced := by
  obtain ⟨-, rfl⟩ := take_spec htake
  exact h

lemma AllPaced.step (h : r.AllPaced) {e : RouterEvent M} (hstep : r.step enc e = some r') :
    r'.AllPaced := by
  cases e with
  | send remote msg connected =>
    obtain ⟨-, rfl⟩ | ⟨-, rfl | ⟨rc, hconnect⟩⟩ := sendToOrQueue_cases hstep
    · exact h
    · exact h
    · exact AllPaced.tryConnect (r := r.enqueue remote msg) h hconnect
  | loaded pubkey file =>
    obtain ⟨r₀, htake, hstep⟩ := Option.bind_eq_some_iff.mp hstep
    have h₀ := h.take htake
    cases file with
    | none =>
      rw [← Option.some.inj hstep]
      exact h₀
    | some rc => exact AllPaced.tryConnect (r := ((r₀.setRC rc).getRC pubkey).2) h₀ hstep
  | lookedUp target found =>
    obtain ⟨r₀, htake, hstep⟩ := Option.bind_eq_some_iff.mp hstep
    have h₀ := h.take htake
    cases found with
    | none =>
      rw [← Option.some.inj hstep]
      exact h₀
    | some rc => exact h₀.tryConnect hstep
  | attempted ref session =>
    obtain ⟨r₀, htake, hstep⟩ := Option.bind_eq_some_iff.mp hstep
    have h₀ := h.take htake
    -- the only step that writes retries and timeout of a job
    obtain ⟨job, hjob, hends⟩ := onTryConnectResult_cases hstep
    obtain ⟨hlookup, -⟩ := job_spec hjob
    have hpaced : Paced job := h₀ ref.key job hlookup
    obtain ⟨remote, -, rfl⟩ | ⟨-, hpos, rfl⟩ | ⟨-, -, rfl⟩ := hends
    · exact h₀.setJob hpaced
    · exact h₀.setJob (hpaced.relax hpos)
    · exact h₀.eraseJob job.pubkey
  | retried ref =>
    obtain ⟨r₀, htake, hstep⟩ := Option.bind_eq_some_iff.mp hstep
    have h₀ := h.take htake
    obtain ⟨job, -, rfl⟩ := Option.map_eq_some_iff.mp hstep
    split_ifs <;> exact h₀
  | verified ref rc signed saved place =>
    obtain ⟨r₀, htake, hstep⟩ := Option.bind_eq_some_iff.mp hstep
    have h₀ := h.take htake
    obtain ⟨r₁, -, hsame, hends⟩ := onVerifyServerRC_ends hstep
    have h₁ : r₁.AllPaced := h₀.same hsame.pendingEstablishJobs
    obtain rfl | rfl | ⟨-, rfl⟩ := hends
    · exact h₁
    · exact (h₁.same (flush_spec enc r₁ rc.pubkey).1).eraseJob rc.pubkey
    · exact h₁.eraseJob rc.pubkey
  | closed remote =>
    rw [← Option.some.inj hstep]
    exact h.same (sameWork_sessionClosed remote).pendingEstablishJobs
  | connect rc => exact h.tryConnect hstep
  | dht call =>
    rw [Router.step] at hstep
    split_ifs at hstep
    rw [← Option.some.inj hstep]
    exact h

end Pace

/-! ### Runs -/

section Runs

variable {r r' : Router M} {enc : M → Option Bytes}

lemma run_work (hn : r.Numbered) (hp : r.AllPaced) {events : List (RouterEvent M)}
    (hrun : r.run enc events = some r') :
    events.countP (·.continues) + r'.work ≤ r.work + (events.map (·.price)).sum ∧
      r'.AllPaced := by
  induction events generalizing r with
  | nil =>
    rw [← Option.some.inj hrun]
    exact ⟨by simp, hp⟩
  | cons e es ih =>
    obtain ⟨r₁, hstep, hrest⟩ := Option.bind_eq_some_iff.mp hrun
    obtain ⟨hn₁, hwork⟩ := step_work hn hstep
    obtain ⟨hle, hp'⟩ := ih hn₁ (hp.step hstep) hrest
    refine ⟨?_, hp'⟩
    rw [List.map_cons, List.sum_cons, List.countP_cons]
    cases hcont : e.continues <;>
      simp only [hcont, Bool.toNat_true, Bool.toNat_false, if_true, Bool.false_eq_true,
        if_false] at hwork ⊢ <;> omega

/-- What is waited for can go on: the disk or the DHT answers, an attempt or a check fails, or a
timer fires. -/
lemma Sound.goes_on (hs : r.Sound) (hwaiting : r.waiting ≠ []) :
    ∃ e : RouterEvent M, e.continues = true ∧ (r.step enc e).isSome = true := by
  obtain ⟨w, ws, hw⟩ := List.exists_cons_of_ne_nil hwaiting
  have hmem : w ∈ r.waiting := hw ▸ List.mem_cons_self
  have htake : r.take w = some { r with waiting := r.waiting.erase w } := if_pos hmem
  have hjob {ref : JobRef} (href : w.job? = some ref) : ∃ job, r.job ref = some job := by
    obtain ⟨job, hlookup, hid, -⟩ := hs.live w hmem ref href
    exact ⟨job, Option.filter_eq_some_iff.mpr ⟨hlookup, by simpa using hid⟩⟩
  cases w with
  | load pubkey => exact ⟨.loaded pubkey none, rfl, by rw [step, htake]; rfl⟩
  | lookup target => exact ⟨.lookedUp target none, rfl, by rw [step, htake]; rfl⟩
  | attempt ref =>
    obtain ⟨job, hj⟩ := hjob rfl
    refine ⟨.attempted ref none, rfl, ?_⟩
    rw [step, htake, Option.bind_some, onTryConnectResult, Option.isSome_map]
    exact Option.isSome_iff_exists.mpr ⟨job, hj⟩
  | timer ref =>
    obtain ⟨job, hj⟩ := hjob rfl
    refine ⟨.retried ref, rfl, ?_⟩
    rw [step, htake, Option.bind_some, connectJobRetry, Option.isSome_map]
    exact Option.isSome_iff_exists.mpr ⟨job, hj⟩
  | verify ref rc =>
    obtain ⟨job, hj⟩ := hjob rfl
    refine ⟨.verified ref rc false false 0, rfl, ?_⟩
    rw [step, htake, Option.bind_some, onVerifyServerRC]
    exact (Option.isSome_map ..).trans (Option.isSome_iff_exists.mpr ⟨job, hj⟩)

lemma keeps_run (hs : r.Sound) (hn : r.NoOrphans) {events : List (RouterEvent M)}
    (hkeeps : Along enc KeepsQueues r events) (hrun : r.run enc events = some r') :
    r'.Sound ∧ r'.NoOrphans := by
  induction events generalizing r with
  | nil =>
    rw [← Option.some.inj hrun]
    exact ⟨hs, hn⟩
  | cons e es ih =>
    obtain ⟨r₁, hstep, hrest⟩ := Option.bind_eq_some_iff.mp hrun
    obtain ⟨hkeep, hmore⟩ := hkeeps r₁ hstep
    obtain ⟨hiff, hsound⟩ := noOrphans_step_iff hs hn hstep
    exact ih (hsound hkeep) (hiff.mpr hkeep) hmore hrest

/-- The continuations of a run, and those that may still follow, are at most 24 for each message
that was queued and 22 for each router that was connected to, and each job keeps the pace of the
attempts. When a run keeps the queues, then it can go on while anything is waited for; and when
nothing is, no message is in a queue and there is no job. -/
theorem router_drains (enc : M → Option Bytes) (r : Router M) (h : r.Initial)
    (events : List (RouterEvent M)) (r' : Router M) (hrun : r.run enc events = some r') :
    events.countP (·.continues) + r'.work ≤ (events.map (·.price)).sum ∧ r'.AllPaced ∧
      (Along enc KeepsQueues r events →
        (r'.waiting ≠ [] → ∃ e : RouterEvent M, e.continues = true ∧
          (r'.step enc e).isSome = true) ∧
        (r'.waiting = [] → ∀ pk, r'.queueFor pk = [] ∧ pk ∉ r'.pendingEstablishJobs)) := by
  have hnumbered : r.Numbered := by
    rw [Numbered, h.waiting]
    exact fun w hw => by cases hw
  have hpaced : r.AllPaced := by
    rw [AllPaced, h.pendingEstablishJobs]
    exact fun pk job hjob => by simp at hjob
  have hzero : r.work = 0 := by
    rw [work, h.waiting]
    rfl
  obtain ⟨hle, hpaced'⟩ := run_work hnumbered hpaced hrun
  rw [hzero, Nat.zero_add] at hle
  refine ⟨hle, hpaced', fun hkeeps => ?_⟩
  obtain ⟨hsound, hnone⟩ := keeps_run h.sound h.noOrphans hkeeps hrun
  refine ⟨hsound.goes_on, fun hwaiting pk => ?_⟩
  have hidle {pk : PubKey} : ¬ r'.Working pk := by
    rintro ⟨job, -, hmem⟩
    rw [refs, hwaiting] at hmem
    cases hmem
  refine ⟨?_, fun hpk => hidle (hnone.jobs pk hpk)⟩
  by_contra hqueue
  obtain hmem | hmem | hworking := hnone.queues pk hqueue
  · rw [hwaiting] at hmem
    cases hmem
  · rw [hwaiting] at hmem
    cases hmem
  · exact hidle hworking

end Runs

/-! ### One message -/

/-- The message for the router 9 is sent when the contact of the router was found valid. -/
lemma nine_run : ∃ r', lonelyRouter.run (fun _ => some []) (sendNine (reachableAt 9) ++
    meetNine.tail) = some r' ∧ r'.sentTo (lastByte 9) = [[]] := by
  have hrun : (lonelyRouter.run (fun _ => some []) (sendNine (reachableAt 9) ++
      meetNine.tail)).map (·.sentTo (lastByte 9)) = some [[]] := by decide +kernel
  exact Option.map_eq_some_iff.mp hrun

theorem router_ledger_nine : ∃ (r' : Router Unit) (sent : List (Unit × Bool)) (left : List Unit),
    r'.sentTo (lastByte 9) = [[]] ∧ Ledger (fun _ => some []) (lastByte 9) lonelyRouter
      (sendNine (reachableAt 9) ++ meetNine.tail) r' sent left ∧
    (sent.filter fun s => s.2).map Prod.fst = left := by
  obtain ⟨r', hrun, hsent⟩ := nine_run
  obtain ⟨sent, left, hledger, hall⟩ := router_ledger _ _ _ r' hrun (lastByte 9)
  refine ⟨r', sent, left, hsent, hledger, hall ?_⟩
  -- the contact is found, an attempt succeeds, and the contact is valid
  exact fun _ _ => ⟨id, fun _ _ => ⟨id, fun _ _ => ⟨id, fun _ _ => ⟨id, fun _ _ =>
    ⟨fun hdiscards => hdiscards.1 rfl, trivial⟩⟩⟩⟩⟩

theorem router_drains_nine : ∃ r' : Router Unit, r'.sentTo (lastByte 9) = [[]] ∧
    4 + r'.work ≤ 24 ∧ r'.AllPaced := by
  obtain ⟨r', hrun, hsent⟩ := nine_run
  obtain ⟨hle, hpaced, -⟩ := router_drains _ lonelyRouter lonelyRouter_initial _ r' hrun
  exact ⟨r', hsent, hle, hpaced⟩

end Router

end Udap
