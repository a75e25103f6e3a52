import Udap.Dht.Jobs

/-!
The peers that are asked for a lookup, over runs of calls.

A lookup goes from peer to peer: each empty answer asks another one, under a new transaction. Along
a run we write down, for each transaction, who was asked for its lookup up to then (`Trail`).

* `Tracked`: what the transactions exclude is what was asked before, and the ids that are in use
  are those counted so far.
* `lookup_asks_distinct`: no transaction takes the place of another, and at most three different
  peers are asked for a lookup.
* `relayed_asks_away`: the runs in which a relayed lookup is never sent back.
-/

namespace Udap.Dht

/-- Who was asked for a lookup, the last one last, and who it is relayed for. -/
structure Trail where
  peers : List Key
  requester : Option Key

/-- The lookup of each transaction. -/
abbrev Trails := Key × UInt64 → Trail

namespace Trails

/-- Nobody was asked. -/
def start : Trails := fun _ => ⟨[], none⟩

/-- The lookup that a request made in the call is for: that of the answered transaction, or a new
one. -/
def before (h : Trails) : Call → Trail
  | .message _ (.findRouter m) => ⟨[], some m.From⟩
  | .message _ (.gotRouter m) => h (m.From, m.txid)
  | _ => ⟨[], none⟩

/-- The trails after a call, by the requests it sends. -/
def after (h : Trails) (c : Context) (i : Call) : Trails := fun o =>
  if o ∈ requestsOf ((c.call i).sent.drop c.sent.length) then
    ⟨(h.before i).peers ++ [o.1], (h.before i).requester⟩
  else h o

/-- The trails after a run. -/
def along (c : Context) : Trails → List Call → Trails
  | h, [] => h
  | h, i :: rest => along (c.call i) (h.after c i) rest

end Trails

namespace Context

/-! ### What a call asks -/

section Asks

variable {c c' : Context} {i : Call} {a : Ask}

/-- What asking adds: a transaction and a request. -/
lemma ask_of_not_void (now : UInt64) (hvoid : a.void = false) :
    (c.ask now a).ids = c.ids + 1 ∧ (c.ask now a).ourKey = c.ourKey ∧
      (c.ask now a).pendingTX =
        c.pendingTX.insert (a.peer, c.ids + 1) (a.entry now (c.ids + 1)) ∧
      ∃ l, (c.ask now a).sent = c.sent ++ l ∧ requestsOf l = [(a.peer, c.ids + 1)] := by
  rw [Ask.void] at hvoid
  simp only [ask, lookupRouter, hvoid]
  exact ⟨rfl, rfl, rfl, _, rfl, rfl⟩

@[simp] lemma ids_completed (j : SearchJob) (r : Option RouterContact) :
    (c.completed j r).ids = c.ids := by
  unfold completed; split <;> [split_ifs; skip] <;> rfl

/-- What a call that asks `made` does to the transactions. -/
structure Effect (c : Context) (made : Option Ask) (c' : Context) : Prop where
  ourKey : c'.ourKey = c.ourKey
  ids : c'.ids = if made.isSome then c.ids + 1 else c.ids
  /-- a transaction was there before, or it is the new one -/
  pending : ∀ o j, c'.pendingTX.lookup o = some j →
    (c.pendingTX.lookup o = some j ∧ ∀ a ∈ made, o ≠ (a.peer, c.ids + 1)) ∨
    ∃ a ∈ made, ∃ now, o = (a.peer, c.ids + 1) ∧ j = a.entry now (c.ids + 1)
  /-- and these are the requests that were sent -/
  sent : ∃ l, c'.sent = c.sent ++ l ∧
    requestsOf l = (made.map fun a => (a.peer, c.ids + 1)).toList

lemma effect_ask (now : UInt64) (a : Ask) :
    Effect c ((some a).filter fun a => !a.void) (c.ask now a) := by
  by_cases hvoid : a.void = true
  · rw [ask_of_void now a hvoid, Option.filter_some, if_neg (by simp [hvoid])]
    exact ⟨rfl, rfl, fun o j hj => .inl ⟨hj, by simp⟩, [], by simp, rfl⟩
  · rw [Bool.not_eq_true] at hvoid
    obtain ⟨hids, hkey, hpending, hsent⟩ := ask_of_not_void (c := c) now hvoid
    rw [Option.filter_some, if_pos (by simp [hvoid])]
    refine ⟨hkey, hids, fun o j hj => ?_, hsent⟩
    rw [hpending] at hj
    by_cases heq : o = (a.peer, c.ids + 1)
    · rw [heq, AList.lookup_insert] at hj
      exact .inr ⟨a, rfl, now, heq, (Option.some.inj hj).symm⟩
    · rw [AList.lookup_insert_ne heq] at hj
      refine .inl ⟨hj, fun a' ha' => ?_⟩
      rwa [← Option.some.inj ha']

lemma Effect.same {made : Option Ask} {d : Context} (h : Effect c made d) (hsame : Same d c') :
    Effect c made c' := by
  obtain ⟨l, hl, hrequests⟩ := h.sent
  obtain ⟨l', hl', hnone⟩ := hsame.sent
  refine ⟨hsame.ourKey.trans h.ourKey, hsame.ids.trans h.ids, ?_, l ++ l', ?_, ?_⟩
  · rw [hsame.pendingTX]
    exact h.pending
  · rw [hl', hl, List.append_assoc]
  · rw [requestsOf_append, hrequests, hnone, List.append_nil]

/-- Removing transactions is no effect that counts. -/
lemma Effect.removed {made : Option Ask} {d : Context} (h : Effect c made d)
    (hkey : c'.ourKey = d.ourKey) (hids : c'.ids = d.ids) (hsent : c'.sent = d.sent)
    (hpending : ∀ o j, c'.pendingTX.lookup o = some j → d.pendingTX.lookup o = some j) :
    Effect c made c' :=
  ⟨hkey.trans h.ourKey, hids.trans h.ids, fun o j hj => h.pending o j (hpending o j hj),
    by rw [hsent]; exact h.sent⟩

lemma Effect.quiet (c : Context) : Effect c none c :=
  ⟨rfl, rfl, fun _ _ h => .inl ⟨h, by simp⟩, [], by simp, rfl⟩

lemma lookup_of_erase {s : AList fun _ : Key × UInt64 => SearchJob} {o o' : Key × UInt64}
    {j : SearchJob} (h : (s.erase o').lookup o = some j) : s.lookup o = some j := by
  by_cases heq : o = o'
  · rw [heq, AList.lookup_erase] at h
    cases h
  · rwa [AList.lookup_erase_ne heq] at h

lemma ourKey_completed (j : SearchJob) (r : Option RouterContact) :
    (c.completed j r).ourKey = c.ourKey := (kept_completed c j r).ourKey

lemma cleanupTX_fields (now : UInt64) (c : Context) :
    (c.cleanupTX now).ids = c.ids ∧ (c.cleanupTX now).sent = c.sent :=
  List.foldlRecOn (motive := fun d : Context => d.ids = c.ids ∧ d.sent = c.sent) _ _ ⟨rfl, rfl⟩
    fun d hd e _ => by simpa using hd

/-- The effect of a call. -/
lemma effect_call (c : Context) (i : Call) :
    Effect c ((c.asks i).filter fun a => !a.void) (c.call i) := by
  have hmoved := c.call_moved i
  generalize c.call i = c' at hmoved
  cases hmoved with
  | quiet hasks hanswers hjob h =>
    rw [hasks]
    exact (Effect.quiet c).same h
  | asked now hasks hanswers h =>
    rw [hasks]
    exact (effect_ask now _).same h
  -- an empty answer: the next peer is asked, and the transaction goes
  | @iterated now m j next _ hj hR hnext h =>
    have hasks : c.asks (.message now (.gotRouter m)) = some ⟨j.target, j.requester, j.requesterTX,
        next, none, true, insert m.From j.exclude, j.asked⟩ := by
      simp [asks, hR, hj, hnext]
    generalize Ask.mk j.target j.requester j.requesterTX next none true
      (insert m.From j.exclude) j.asked = a at hasks h
    have hremoved : Effect c ((some a).filter fun a => !a.void)
        ((c.ask now a).removePendingLookup m.From m.txid) :=
      (effect_ask now a).removed rfl rfl rfl fun o j hj => lookup_of_erase hj
    rw [hasks]
    exact hremoved.same h
  | @ended now m j _ hj hends h =>
    have hasks : c.asks (.message now (.gotRouter m)) = none := by
      rcases hends with hR | hnext
      · simp [asks, hR]
      · simp [asks, hj, hnext]
    rw [hasks]
    refine ((Effect.quiet c).removed ?_ ?_ ?_ fun o j' hj' => ?_).same h
    · exact ourKey_completed j m.R.head?
    · exact ids_completed j m.R.head?
    · exact sent_completed _ j m.R.head?
    · rw [removePendingLookup, pendingTX_completed] at hj'
      exact lookup_of_erase hj'
  | @failed now job peer _ hasks h =>
    rw [hasks]
    refine ((Effect.quiet c).removed (ourKey_completed _ none) (ids_completed _ none)
      (sent_completed _ _ none) fun o j hj => ?_).same h
    rwa [pendingTX_completed] at hj
  | cleaned now =>
    obtain ⟨hids, hsent⟩ := cleanupTX_fields now c
    exact (Effect.quiet c).removed (kept_cleanupTX now c).ourKey hids hsent fun o j hj =>
      lookup_cleanup hj

end Asks

/-! ### The trails -/

section Trails

variable {ids₀ : UInt64} {c : Context} {h : Trails} {i : Call}

/-- The trails of a run that started with the counter at `ids₀`. -/
structure Tracked (ids₀ : UInt64) (c : Context) (h : Trails) : Prop where
  /-- the counter counts the requests -/
  ids : c.ids = ids₀ + UInt64.ofNat (requestsOf c.sent).length
  used : ∀ o ∈ c.pendingTX, ∃ k, 0 < k ∧ k ≤ (requestsOf c.sent).length ∧
    o.2 = ids₀ + UInt64.ofNat k
  /-- a transaction excludes whoever was asked before -/
  pending : ∀ o j, c.pendingTX.lookup o = some j → ∃ l, (h o).peers = l ++ [o.1] ∧
    l.toFinset = j.exclude ∧ (h o).requester = j.asked.map fun _ => j.requester
  trails : ∀ o, (h o).peers.Nodup ∧ (h o).peers.length ≤ 3

lemma Tracked.init (hinit : c.Initial) : Tracked c.ids c Trails.start where
  ids := by
    rw [hinit.2.1]
    exact (UInt64.add_zero c.ids).symm
  used := by
    intro o ho
    rw [hinit.1] at ho
    simp at ho
  pending := by
    intro o j hj
    rw [hinit.1] at hj
    simp at hj
  trails := fun _ => ⟨List.nodup_nil, Nat.zero_le 3⟩

/-- Who is asked next was not asked before, and there were at most two. -/
lemma Tracked.next (ht : Tracked ids₀ c h) {o : Key × UInt64} {j : SearchJob} {next : Key}
    (hj : c.pendingTX.lookup o = some j) (hnext : c.nextPeer j o.1 = some next) :
    ((h o).peers ++ [next]).Nodup ∧ ((h o).peers ++ [next]).length ≤ 3 ∧
      (h o).peers.toFinset = insert o.1 j.exclude := by
  obtain ⟨l, hpeers, hexclude, -⟩ := ht.pending o j hj
  have hset : (h o).peers.toFinset = insert o.1 j.exclude := by
    ext k
    simp [hpeers, ← hexclude]
  rw [nextPeer] at hnext
  split_ifs at hnext with hcard
  have hnew : next ∉ (h o).peers := by
    rw [← List.mem_toFinset, hset]
    exact Bucket.notMem_of_findCloseExcluding hnext
  rw [← hset, List.toFinset_card_of_nodup (ht.trails o).1] at hcard
  refine ⟨(ht.trails o).1.append (List.nodup_singleton next) ?_, ?_, hset⟩
  · simpa using hnew
  · rw [List.length_append]
    exact hcard

lemma after_of_none (hmade : ((c.asks i).filter fun a => !a.void) = none) : h.after c i = h := by
  obtain ⟨l, hsent, hrequests⟩ := (effect_call c i).sent
  rw [hmade] at hrequests
  funext o
  simp [Trails.after, hsent, hrequests]

lemma after_of_some {a : Ask} (hmade : ((c.asks i).filter fun a => !a.void) = some a) :
    h.after c i = Function.update h (a.peer, c.ids + 1)
      ⟨(h.before i).peers ++ [a.peer], (h.before i).requester⟩ := by
  obtain ⟨l, hsent, hrequests⟩ := (effect_call c i).sent
  rw [hmade] at hrequests
  funext o
  by_cases heq : o = (a.peer, c.ids + 1)
  · simp [Trails.after, hsent, hrequests, heq]
  · simp [Trails.after, hsent, hrequests, heq]

lemma Tracked.call (ht : Tracked ids₀ c h) (i : Call) : Tracked ids₀ (c.call i) (h.after c i) := by
  obtain ⟨hkey, hids, hpending, l, hsent, hrequests⟩ := effect_call c i
  have hcount : requestsOf (c.call i).sent = requestsOf c.sent ++ requestsOf l := by
    rw [hsent, requestsOf_append]
  cases hmade : (c.asks i).filter fun a => !a.void with
  | none =>
    rw [hmade] at hids hpending hrequests
    -- nobody is asked, so transactions can only go
    have hsub : ∀ o j, (c.call i).pendingTX.lookup o = some j → c.pendingTX.lookup o = some j :=
      fun o j hj => by simpa using hpending o j hj
    rw [after_of_none hmade]
    rw [hrequests] at hcount
    refine ⟨?_, fun o ho => ?_, fun o j hj => ht.pending o j (hsub o j hj), ht.trails⟩
    · simpa [hcount] using hids.trans ht.ids
    · obtain ⟨j, hj⟩ := Option.isSome_iff_exists.mp (AList.lookup_isSome.mpr ho)
      simpa [hcount] using ht.used o (AList.lookup_isSome.mp (by rw [hsub o j hj]; rfl))
  | some a =>
    rw [hmade] at hids hpending hrequests
    have hasks : c.asks i = some a := (Option.filter_eq_some_iff.mp hmade).1
    have hcount : (requestsOf (c.call i).sent).length = (requestsOf c.sent).length + 1 := by
      rw [hcount, hrequests]
      simp
    have hids : (c.call i).ids = c.ids + 1 := by simpa using hids
    have hnext : c.ids + 1 = ids₀ + UInt64.ofNat ((requestsOf c.sent).length + 1) := by
      rw [ht.ids, UInt64.ofNat_add, UInt64.add_assoc]
      rfl
    -- the trail that the new transaction goes on with
    have hbefore : ((h.before i).peers ++ [a.peer]).Nodup ∧
        ((h.before i).peers ++ [a.peer]).length ≤ 3 ∧
        (h.before i).peers.toFinset = a.exclude ∧
        (h.before i).requester = a.asked.map fun _ => a.requester := by
      obtain ⟨now, m, rfl, -, hexclude, hasked, hreq⟩ |
        ⟨now, m, j, rfl, hj, hpeer, hexclude, hasked, hreq⟩ |
        ⟨now, job, peer, rfl, hexclude, hasked⟩ := (asks_spec hasks).2
      · simp [Trails.before, hexclude, hasked, hreq]
      · obtain ⟨hnodup, hlength, hset⟩ := ht.next hj hpeer
        obtain ⟨-, -, -, hrequester⟩ := ht.pending _ j hj
        exact ⟨hnodup, hlength, hset.trans hexclude.symm, by rw [hasked, hreq]; exact hrequester⟩
      · simp [Trails.before, hexclude, hasked]
    rw [after_of_some hmade]
    refine ⟨?_, fun o ho => ?_, fun o j hj => ?_, fun o => ?_⟩
    · rw [hids, hcount, hnext]
    · rw [hcount]
      obtain ⟨j, hj⟩ := Option.isSome_iff_exists.mp (AList.lookup_isSome.mpr ho)
      obtain ⟨hold, -⟩ | ⟨a', ha', now, rfl, -⟩ := hpending o j hj
      · obtain ⟨k, hpos, hle, hk⟩ := ht.used o (AList.lookup_isSome.mp (by rw [hold]; rfl))
        exact ⟨k, hpos, by omega, hk⟩
      · exact ⟨(requestsOf c.sent).length + 1, by omega, le_rfl, hnext⟩
    · obtain ⟨hold, hne⟩ | ⟨a', ha', now, rfl, rfl⟩ := hpending o j hj
      · rw [Function.update_of_ne (hne a rfl)]
        exact ht.pending o j hold
      · obtain rfl := Option.some.inj ha'
        rw [Function.update_self]
        exact ⟨(h.before i).peers, rfl, hbefore.2.2.1, hbefore.2.2.2⟩
    · rw [Function.update_apply]
      split_ifs
      · exact ⟨hbefore.1, hbefore.2.1⟩
      · exact ht.trails o

lemma Tracked.run (ht : Tracked ids₀ c h) (calls : List Call) :
    Tracked ids₀ (c.run calls) (Trails.along c h calls) := by
  induction calls generalizing c h with
  | nil => exact ht
  | cons i rest ih => exact ih (ht.call i)

/-- The next id is in use with no peer. -/
lemma Tracked.fresh (ht : Tracked ids₀ c h) (hfew : (requestsOf c.sent).length < 2 ^ 64) (p : Key) :
    (p, c.ids + 1) ∉ c.pendingTX := by
  intro hmem
  obtain ⟨k, hpos, hle, hk⟩ := ht.used _ hmem
  rw [ht.ids, UInt64.add_assoc, UInt64.add_right_inj] at hk
  have heq := congrArg UInt64.toNat hk
  rw [UInt64.toNat_add, UInt64.toNat_ofNat', UInt64.toNat_ofNat'] at heq
  change ((requestsOf c.sent).length % 2 ^ 64 + 1) % 2 ^ 64 = k % 2 ^ 64 at heq
  omega

/-- In every state of a run the key that the next `LookupRouter` uses is free, as long as fewer than
2^64 requests were sent; the peer of a transaction is not one of the at most two that it excludes;
and at most three different peers were asked for a lookup. -/
theorem lookup_asks_distinct (c : Context) (hinit : c.Initial) (calls : List Call) :
    ((requestsOf (c.run calls).sent).length < 2 ^ 64 →
      ∀ p, (p, (c.run calls).ids + 1) ∉ (c.run calls).pendingTX) ∧
    (∀ o j, (c.run calls).pendingTX.lookup o = some j → o.1 ∉ j.exclude ∧ j.exclude.card ≤ 2) ∧
    ∀ o, (Trails.start.along c calls o).peers.Nodup ∧
      (Trails.start.along c calls o).peers.length ≤ 3 := by
  have ht := (Tracked.init hinit).run calls
  refine ⟨ht.fresh, fun o j hj => ?_, ht.trails⟩
  obtain ⟨l, hpeers, hexclude, -⟩ := ht.pending o j hj
  obtain ⟨hnodup, hlength⟩ := ht.trails o
  rw [hpeers] at hnodup hlength
  rw [List.length_append, List.length_singleton] at hlength
  have hdisjoint := List.nodup_append.mp hnodup
  rw [← hexclude, List.mem_toFinset, List.toFinset_card_of_nodup hdisjoint.1]
  exact ⟨fun hmem => hdisjoint.2.2 o.1 hmem o.1 List.mem_cons_self rfl, by omega⟩

/-- The router 9 asks for the router 1; the router 3, which is asked for it, does not know it. -/
def relayCalls : List Call :=
  [.message 0 (.findRouter { From := lastByte 9, K := lastByte 1, txid := 7 }),
    .reply (lastByte 9) 0 [],
    .message 0 (.gotRouter { From := lastByte 3, txid := 1 })]

theorem lookup_asks_distinct_relay :
    (∀ p, (p, (relayRouter.run relayCalls).ids + 1) ∉ (relayRouter.run relayCalls).pendingTX) ∧
    (Trails.start.along relayRouter relayCalls (lastByte 9, 2)).peers = [lastByte 3, lastByte 9] ∧
    (Trails.start.along relayRouter relayCalls (lastByte 9, 2)).peers.Nodup := by
  obtain ⟨hfresh, -, htrails⟩ := lookup_asks_distinct relayRouter relayRouter_initial relayCalls
  exact ⟨hfresh (by decide +kernel), by decide +kernel, (htrails (lastByte 9, 2)).1⟩

/-! ### Lookups that are sent back -/

/-- The requests for relayed lookups went to others than the requester and us. -/
def Away (c : Context) (h : Trails) : Prop :=
  ∀ o q, (h o).requester = some q → ∀ p ∈ (h o).peers, p ≠ q ∧ p ≠ c.ourKey

/-- The router that is asked next for a relayed lookup, after an empty answer, is neither the
requester nor us. -/
def KeepsAway (c : Context) (i : Call) : Prop :=
  ∀ k ∈ c.answers i, ∀ a ∈ c.asks i, k.2.asked.isSome = true → a.void = false →
    a.peer ≠ k.2.requester ∧ a.peer ≠ c.ourKey

instance (c : Context) (i : Call) : Decidable (c.KeepsAway i) :=
  inferInstanceAs (Decidable (∀ k ∈ c.answers i, ∀ a ∈ c.asks i, _ → _ → _ ∧ _))

/-- The trails stay away exactly when the call keeps them away. -/
lemma Tracked.away_call_iff (ht : Tracked ids₀ c h) (haway : c.Away h) (i : Call) :
    (c.call i).Away (h.after c i) ↔ c.KeepsAway i := by
  have hkey := (effect_call c i).ourKey
  cases hmade : (c.asks i).filter fun a => !a.void with
  | none =>
    refine iff_of_true ?_ fun k _ a ha _ hvoid => ?_
    · rw [after_of_none hmade, Away, hkey]
      exact haway
    · rw [Option.mem_def.mp ha, Option.filter_some, if_pos (by simp [hvoid])] at hmade
      cases hmade
  | some a =>
    obtain ⟨hasks, hvoid⟩ := Option.filter_eq_some_iff.mp hmade
    -- the others stay away, so it is about the new one
    have hnewTrail : (c.call i).Away (h.after c i) ↔ ∀ q, (h.before i).requester = some q →
        ∀ p ∈ (h.before i).peers ++ [a.peer], p ≠ q ∧ p ≠ c.ourKey := by
      rw [Away, after_of_some hmade, hkey]
      constructor
      · intro hall q hq
        have hone := hall (a.peer, c.ids + 1) q
        rw [Function.update_self] at hone
        exact hone hq
      · intro hone o q hq
        rw [Function.update_apply] at hq ⊢
        split_ifs at hq ⊢
        · exact hone q hq
        · exact haway o q hq
    rw [hnewTrail]
    -- relayed for the first time, asked after an empty answer, or a lookup of our own
    obtain ⟨now, m, rfl, hpeer, -⟩ | ⟨now, m, j, rfl, hj, -, -, -, -⟩ |
      ⟨now, job, peer, rfl, -⟩ := (asks_spec hasks).2
    · refine iff_of_true ?_ fun k hk => by cases hk
      rintro q ⟨⟩ p hp
      rw [Trails.before, List.nil_append, List.mem_singleton] at hp
      subst hp
      simpa using hpeer
    · obtain ⟨-, -, -, hrequester⟩ := ht.pending _ j hj
      have hanswers : c.answers (.message now (.gotRouter m)) = some ((m.From, m.txid), j) := by
        simp [answers, hj]
      rw [KeepsAway, hanswers, hasks]
      simp only [Option.mem_def, Option.some.injEq, forall_eq', Trails.before]
      rw [hrequester]
      constructor
      · intro hall hasked _
        obtain ⟨t, ht⟩ := Option.isSome_iff_exists.mp hasked
        exact hall j.requester (by rw [ht]; rfl) a.peer (by simp)
      · intro hone q hq p hp
        obtain ⟨t, ht, rfl⟩ := Option.map_eq_some_iff.mp hq
        rcases List.mem_append.mp hp with hp | hp
        · refine haway (m.From, m.txid) j.requester ?_ p hp
          rw [hrequester, ht]
          rfl
        · rw [List.mem_singleton.mp hp]
          exact hone (by rw [ht]; rfl) (by simpa using hvoid)
    · exact iff_of_true (fun q hq => by cases hq) fun k hk => by cases hk

lemma along_keepsAway_iff (ht : Tracked ids₀ c h) (haway : c.Away h) (calls : List Call) :
    Along KeepsAway c calls ↔ ∀ l, l <+: calls → (c.run l).Away (h.along c l) := by
  induction calls generalizing c h with
  | nil =>
    refine iff_of_true trivial fun l hl => ?_
    rw [List.prefix_nil.mp hl]
    exact haway
  | cons i rest ih =>
    constructor
    · rintro ⟨hi, hrest⟩ l hl
      have hcall := (ht.away_call_iff haway i).mpr hi
      cases l with
      | nil => exact haway
      | cons i' l =>
        obtain ⟨rfl, hl'⟩ := List.cons_prefix_cons.mp hl
        exact (ih (ht.call i') hcall).mp hrest l hl'
    · intro hall
      have hcall : (c.call i).Away (h.after c i) :=
        hall [i] (List.cons_prefix_cons.mpr ⟨rfl, List.nil_prefix⟩)
      refine ⟨(ht.away_call_iff haway i).mp hcall, (ih (ht.call i) hcall).mpr fun l hl => ?_⟩
      exact hall (i :: l) (List.cons_prefix_cons.mpr ⟨rfl, hl⟩)

/-- In every state of a run the requests for relayed lookups went to others than the requester and
us, exactly when the calls of the run keep them away. -/
theorem relayed_asks_away (c : Context) (hinit : c.Initial) (calls : List Call) :
    (∀ l, l <+: calls → ∀ o q, (Trails.start.along c l o).requester = some q →
      ∀ p ∈ (Trails.start.along c l o).peers, p ≠ q ∧ p ≠ (c.run l).ourKey) ↔
    Along KeepsAway c calls :=
  (along_keepsAway_iff (Tracked.init hinit) (fun _ _ hq => by cases hq) calls).symm

/-- The router 5 knows the router 6 as well. -/
def relayRouter₃ : Context :=
  { relayRouter with nodes := relayRouter.nodes.putNode { pubkey := lastByte 6 } }

theorem relayed_asks_away_third :
    (Trails.start.along relayRouter₃ relayCalls (lastByte 6, 2)).peers = [lastByte 3, lastByte 6] ∧
    ∀ p ∈ (Trails.start.along relayRouter₃ relayCalls (lastByte 6, 2)).peers,
      p ≠ lastByte 9 ∧ p ≠ (relayRouter₃.run relayCalls).ourKey := by
  have hkeeps : Along KeepsAway relayRouter₃ relayCalls :=
    ⟨by decide +kernel, by decide +kernel, by decide +kernel, trivial⟩
  have haway := (relayed_asks_away relayRouter₃ ⟨rfl, rfl, rfl⟩ relayCalls).mpr hkeeps _
    (List.prefix_refl _) (lastByte 6, 2) (lastByte 9) (by decide +kernel)
  exact ⟨by decide +kernel, haway⟩

/-- The requester stands in our bucket, and it is asked in turn. -/
theorem requester_asked :
    ¬ ∀ (c : Context) (calls : List Call), c.Initial →
      ∀ o q, (Trails.start.along c calls o).requester = some q →
        ∀ p ∈ (Trails.start.along c calls o).peers, p ≠ q ∧ p ≠ (c.run calls).ourKey := by
  intro h
  exact (h relayRouter relayCalls relayRouter_initial (lastByte 9, 2) (lastByte 9)
    (by decide +kernel) (lastByte 9) (by decide +kernel)).1 rfl

end Trails

end Context

end Udap.Dht
