import Udap.Dht.Jobs

/-!
What the handlers of the DHT messages check.

`GotRouterMessage::HandleMessage` hands the first contact of an answer to the hook of the job and to
the requester, whatever router it is of and whoever signed it. `FindRouterMessage::HandleMessage`
looks for an earlier request of the same router among our own transactions with it, which have ids
of ours.

* `answer_checked_iff`: the answers of which only the right contact gets on.
* `duplicate_recognised_iff`: the states in which exactly the duplicates are turned away.
-/

namespace Udap.Dht

namespace Context

/-! ### The contact of an answer -/

/-- The contacts that handling a message gives to hooks, as found, and to requesters. -/
def passedOn (c : Context) (r : Context × Bool × List Message) : List RouterContact :=
  (r.1.hooks.drop c.hooks.length).filterMap Prod.snd ++ r.2.2.flatMap fun
    | .gotRouter m => m.R
    | .findRouter _ => []

/-- The contact is of the router that was looked up, and it is signed by it. -/
def Genuine (lib : HostLib) (target : Key) (rc : RouterContact) : Prop :=
  rc.pubkey = target ∧ rc.verifySig lib = true

instance (lib : HostLib) (target : Key) (rc : RouterContact) : Decidable (Genuine lib target rc) :=
  inferInstanceAs (Decidable (_ ∧ _))

section Answers

variable {c : Context} {m : GotRouterMessage} {j : SearchJob}

lemma hooks_completed (r : Option RouterContact) :
    (((c.completed j r).hooks.drop c.hooks.length).filterMap Prod.snd) =
      if j.hooked then r.toList else [] := by
  unfold completed SearchJob.hooked
  cases j.job with
  | none => simp
  | some job => cases hhook : job.hook <;> cases r <;> simp [hhook]

lemma hooks_ask (now : UInt64) (a : Ask) : (c.ask now a).hooks = c.hooks := by
  unfold ask lookupRouter
  split <;> rfl

/-- What an answer passes on: its first contact, to the hook and to the requester. -/
lemma passedOn_handleGotRouter (now : UInt64) (hj : c.pendingTX.lookup (m.From, m.txid) = some j) :
    c.passedOn (c.handleGotRouter now m) =
      (if j.hooked then m.R.head?.toList else []) ++
        if j.requester ≠ c.ourKey then m.R.head?.toList else [] := by
  obtain ⟨hnone, -⟩ | ⟨j', hj', ⟨-, h⟩ | ⟨hR, next, -, h⟩⟩ := c.handleGotRouter_cases now m
  · rw [hj] at hnone
    cases hnone
  · obtain rfl : j' = j := Option.some.inj (hj'.symm.trans hj)
    rw [h]
    refine congrArg₂ (· ++ ·) (hooks_completed m.R.head?) ?_
    unfold replyTo
    split_ifs <;> simp
  · rw [h, hR, passedOn]
    change ((c.ask now ⟨j'.target, j'.requester, j'.requesterTX, next, none, true,
      insert m.From j'.exclude, j'.asked⟩).hooks.drop _).filterMap _ ++ _ = _
    rw [hooks_ask]
    simp

/-- Only a contact of the router that was looked up, signed by it, is passed on, exactly when the
first contact of the answer is such a one, or nobody is there to get it. -/
theorem answer_checked_iff (lib : HostLib) (now : UInt64) (c : Context) (m : GotRouterMessage)
    (j : SearchJob) (hj : c.pendingTX.lookup (m.From, m.txid) = some j) :
    (∀ rc ∈ c.passedOn (c.handleGotRouter now m), Genuine lib j.target rc) ↔
      (j.hooked = true ∨ j.requester ≠ c.ourKey → ∀ rc ∈ m.R.head?, Genuine lib j.target rc) := by
  rw [passedOn_handleGotRouter now hj, List.forall_mem_append]
  constructor
  · rintro ⟨hhook, hreply⟩ hgets rc hrc
    have hmem : rc ∈ m.R.head?.toList := Option.mem_toList.mpr hrc
    rcases hgets with hhooked | hreq
    · rw [if_pos hhooked] at hhook
      exact hhook rc hmem
    · rw [if_pos hreq] at hreply
      exact hreply rc hmem
  · intro h
    refine ⟨fun rc hrc => ?_, fun rc hrc => ?_⟩
    · split_ifs at hrc with hhooked
      · exact h (.inl hhooked) rc (Option.mem_toList.mp hrc)
      · cases hrc
    · split_ifs at hrc with hreq
      · exact h (.inr hreq) rc (Option.mem_toList.mp hrc)
      · cases hrc

/-- A library that accepts all signatures. -/
def trusting : HostLib := ⟨fun _ => none, fun _ => none, fun _ _ _ => true⟩

/-- The router 5 asked the router 3 for the router 1. -/
def relayAsked : Context := relayRouter.run [.lookup 0 relayJob (lastByte 0)]

/-- The router 3 answers with the contact of the router `b`. -/
def relayAnswer (b : UInt8) : GotRouterMessage :=
  { From := lastByte 3, R := [{ pubkey := lastByte b }], txid := 1 }

/-- The transaction with the router 3. -/
def relayPending : SearchJob :=
  ⟨some relayJob, 0, lastByte 5, 1, lastByte 1, ∅, none⟩

theorem answer_checked_relay :
    relayAsked.passedOn (relayAsked.handleGotRouter 0 (relayAnswer 1)) = (relayAnswer 1).R ∧
    ∀ rc ∈ relayAsked.passedOn (relayAsked.handleGotRouter 0 (relayAnswer 1)),
      Genuine trusting (lastByte 1) rc :=
  ⟨by decide +kernel,
    (answer_checked_iff trusting 0 relayAsked (relayAnswer 1) relayPending rfl).mpr
      fun _ => by decide +kernel⟩

/-- The router 3 answers with the contact of the router 2, and the hook of the job gets it. -/
theorem wrong_contact_passed :
    ¬ ∀ (lib : HostLib) (now : UInt64) (c : Context) (m : GotRouterMessage) (j : SearchJob),
      c.Reachable → c.pendingTX.lookup (m.From, m.txid) = some j →
        ∀ rc ∈ c.passedOn (c.handleGotRouter now m), Genuine lib j.target rc := by
  intro h
  have hreach : relayAsked.Reachable :=
    ⟨relayRouter, relayRouter_initial, .single ⟨.lookup 0 relayJob (lastByte 0), trivial, rfl⟩⟩
  have hgenuine := h trusting 0 relayAsked (relayAnswer 2) relayPending hreach rfl
    { pubkey := lastByte 2 } (by decide +kernel)
  revert hgenuine
  decide +kernel

end Answers

/-! ### Requests that come twice -/

/-- A lookup is pending that is relayed for `requester`, whose transaction is `t`. -/
def Relaying (c : Context) (requester : Key) (t : UInt64) : Prop :=
  ∃ e ∈ c.pendingTX.entries, e.2.requester = requester ∧ e.2.asked = some t

instance (c : Context) (requester : Key) (t : UInt64) : Decidable (c.Relaying requester t) :=
  inferInstanceAs (Decidable (∃ e ∈ c.pendingTX.entries, _ ∧ _))

/-- The request is turned away though lookups of others are served. -/
def TurnsAway (c : Context) (now : UInt64) (m : FindRouterMessage) : Prop :=
  c.allowTransit = true ∧ (c.handleFindRouter now m).2.1 = false

lemma turnsAway_iff (c : Context) (now : UInt64) (m : FindRouterMessage) :
    c.TurnsAway now m ↔ c.allowTransit = true ∧ (m.From, m.txid) ∈ c.pendingTX := by
  unfold TurnsAway handleFindRouter
  by_cases htransit : c.allowTransit = true
  · by_cases hdup : (m.From, m.txid) ∈ c.pendingTX <;> simp [htransit, hdup]
  · simp [htransit]

/-- A request that is turned away changes nothing. -/
lemma TurnsAway.same {c : Context} {now : UInt64} {m : FindRouterMessage}
    (h : c.TurnsAway now m) : c.handleFindRouter now m = (c, false, []) := by
  obtain ⟨htransit, hdup⟩ := (turnsAway_iff c now m).mp h
  rw [handleFindRouter, if_neg (by simp [htransit]), if_pos hdup]

/-- The request of `m.From` is turned away exactly if an earlier one under its transaction is still
relayed, and then nothing changes: this is so exactly when a transaction of ours with `m.From` has
the same id if and only if there is such a request. -/
theorem duplicate_recognised_iff (now : UInt64) (c : Context) (m : FindRouterMessage) :
    ((c.TurnsAway now m ↔ c.Relaying m.From m.txid) ∧
      (c.TurnsAway now m →
        (c.handleFindRouter now m).1 = c ∧ (c.handleFindRouter now m).2.2 = [])) ↔
    (c.Relaying m.From m.txid ∧ c.allowTransit = true ∧ (m.From, m.txid) ∈ c.pendingTX ∨
      ¬ c.Relaying m.From m.txid ∧ (c.allowTransit = false ∨ (m.From, m.txid) ∉ c.pendingTX)) := by
  have hsame : c.TurnsAway now m →
      (c.handleFindRouter now m).1 = c ∧ (c.handleFindRouter now m).2.2 = [] := by
    intro h
    rw [h.same]
    exact ⟨rfl, rfl⟩
  rw [and_iff_left hsame, turnsAway_iff]
  by_cases hrelaying : c.Relaying m.From m.txid
  · simp [hrelaying]
  · by_cases htransit : c.allowTransit = true <;> simp [hrelaying, htransit]

/-- The router 9 asks twice for the router 1, under one transaction, and the router 3 is asked
twice. And another request of it is turned away, because of the id under which it was asked
itself. -/
theorem duplicate_not_recognised :
    (¬ ∀ (now : UInt64) (c : Context) (m : FindRouterMessage), c.Reachable →
      c.Relaying m.From m.txid → c.TurnsAway now m) ∧
    ¬ ∀ (now : UInt64) (c : Context) (m : FindRouterMessage), c.Reachable →
      c.TurnsAway now m → c.Relaying m.From m.txid := by
  have hasked : (relayRouter.step relayRequest).Reachable :=
    ⟨relayRouter, relayRouter_initial, .single ⟨relayRequest, trivial, rfl⟩⟩
  have hback : ((relayRouter.step relayRequest).step relayNotFound).Reachable :=
    ⟨relayRouter, relayRouter_initial, .tail (.single ⟨relayRequest, trivial, rfl⟩)
      ⟨relayNotFound, trivial, rfl⟩⟩
  refine ⟨fun h => ?_, fun h => ?_⟩
  · have hmiss := h 0 _ { From := lastByte 9, K := lastByte 1, txid := 7 } hasked
    rw [turnsAway_iff] at hmiss
    revert hmiss
    decide +kernel
  · have hfalse := h 0 _ { From := lastByte 9, K := lastByte 1, txid := 2 } hback
    rw [turnsAway_iff] at hfalse
    revert hfalse
    decide +kernel

end Context

end Udap.Dht
