import Udap.Router
import Udap.Dht.Asked
import Udap.Dht.BucketMap

/-!
The verified routers and the bucket of the DHT.

`on_verify_server_rc` keeps the contact of a verified router in `validRouters` and gives the DHT a
pointer to it; a later contact of the same router is written over the first, and `SessionClosed`
takes both away.

* `Served`: the bucket points to the elements of `validRouters`, and each of these is the last
  verified contact of its router.
* `step_context`: with its pointers read, the bucket changes as `Context.call` says.
* `dht_serves_verified`: what the DHT answers with.
-/

namespace Udap

open ByteMem Dht

namespace Router

variable {M : Type} {r r' : Router M}

/-- The contact of a router that was found valid last. -/
def lastVerified (r : Router M) (k : RouterID) : Option RouterContact :=
  (r.verified.filter fun rc => rc.pubkey = k).getLast?

/-- The bucket has exactly the valid routers, by pointers to their elements, which are the contacts
verified last. -/
structure Served (r : Router M) : Prop where
  sorted : OrderedMap.Sorted (Bucket.metric r.dht.ourKey) r.nodes
  nodes : ∀ k a, (k, a) ∈ r.nodes ↔ r.validRouters.lookup k = some a
  elements : ∀ k a, r.validRouters.lookup k = some a →
    ∃ rc, r.elements a = some rc ∧ rc.pubkey = k ∧ r.lastVerified k = some rc

lemma Served.init (h : r.Initial) : r.Served := by
  refine ⟨by rw [h.nodes]; exact .nil, fun k a => ?_, fun k a hk => ?_⟩
  · rw [h.nodes, h.validRouters]
    simp
  · rw [h.validRouters] at hk
    simp at hk

/-- Two routers have the same bucket and the same verified routers. -/
structure SameTables (r r' : Router M) : Prop where
  dht : r'.dht = r.dht
  nodes : r'.nodes = r.nodes
  validRouters : r'.validRouters = r.validRouters
  elements : r'.elements = r.elements
  verified : r'.verified = r.verified

lemma SameTables.refl (r : Router M) : SameTables r r := ⟨rfl, rfl, rfl, rfl, rfl⟩

lemma SameTables.trans {r'' : Router M} (h : SameTables r r') (h' : SameTables r' r'') :
    SameTables r r'' :=
  ⟨h'.dht.trans h.dht, h'.nodes.trans h.nodes, h'.validRouters.trans h.validRouters,
    h'.elements.trans h.elements, h'.verified.trans h.verified⟩

lemma Served.same (hr : r.Served) (h : SameTables r r') : r'.Served := by
  have hlast : r'.lastVerified = r.lastVerified := by
    funext k
    rw [lastVerified, lastVerified, h.verified]
  refine ⟨?_, ?_, ?_⟩
  · rw [h.dht, h.nodes]
    exact hr.sorted
  · rw [h.nodes, h.validRouters]
    exact hr.nodes
  · rw [h.validRouters, h.elements, hlast]
    exact hr.elements

/-- Different routers have different elements. -/
lemma Served.injective (hr : r.Served) {k k' : RouterID} {a : ℕ}
    (hk : r.validRouters.lookup k = some a) (hk' : r.validRouters.lookup k' = some a) : k = k' := by
  obtain ⟨rc, hrc, hpk, -⟩ := hr.elements k a hk
  obtain ⟨rc', hrc', hpk', -⟩ := hr.elements k' a hk'
  rw [hrc, Option.some.injEq] at hrc'
  rw [← hpk, ← hpk', hrc']

/-! ### The calls of the router -/

/-- What `track` does: the element of the key, made if need be, is the contact. -/
lemma track_spec {rc : RouterContact} {place : ℕ} (h : r.track rc place = some r') :
    ∃ a, r'.validRouters.lookup rc.pubkey = some a ∧
      (∀ k, k ≠ rc.pubkey → r'.validRouters.lookup k = r.validRouters.lookup k) ∧
      (r.validRouters.lookup rc.pubkey = some a ∨
        r.validRouters.lookup rc.pubkey = none ∧ r.elements a = none) ∧
      r'.elements = Function.update r.elements a (some rc) ∧
      r'.nodes = OrderedMap.assign (Bucket.metric r.dht.ourKey) rc.pubkey a r.nodes ∧
      r'.verified = r.verified ++ [rc] ∧ r'.dht = r.dht := by
  obtain ⟨⟨r₁, a⟩, hset, rfl⟩ := Option.map_eq_some_iff.mp h
  rw [setValid] at hset
  cases hlookup : r.validRouters.lookup rc.pubkey with
  | some a' =>
    rw [hlookup] at hset
    obtain ⟨rfl, rfl⟩ := Prod.mk.inj (Option.some.inj hset)
    refine ⟨a', hlookup, fun _ _ => rfl, .inl rfl, rfl, ?_, rfl, rfl⟩
    simp [putPeer, contactAt]
  | none =>
    rw [hlookup] at hset
    dsimp only at hset
    split_ifs at hset with hplace
    obtain ⟨rfl, rfl⟩ := Prod.mk.inj (Option.some.inj hset)
    refine ⟨place, AList.lookup_insert _, fun k hk => AList.lookup_insert_ne hk,
      .inr ⟨rfl, by simpa using hplace⟩, rfl, ?_, rfl, rfl⟩
    simp [putPeer, contactAt]

lemma lastVerified_append {rc : RouterContact} (h : r'.verified = r.verified ++ [rc])
    (k : RouterID) : r'.lastVerified k = if rc.pubkey = k then some rc else r.lastVerified k := by
  rw [lastVerified, lastVerified, h, List.filter_append]
  by_cases hk : rc.pubkey = k <;> simp [hk]

lemma Served.track (hr : r.Served) {rc : RouterContact} {place : ℕ}
    (h : r.track rc place = some r') : r'.Served := by
  obtain ⟨a, hself, hother, hold, helements, hnodes, hverified, hdht⟩ := track_spec h
  have hlast := lastVerified_append hverified
  have htotal := metric_total r.dht.ourKey
  refine ⟨?_, fun k a' => ?_, fun k a' hk => ?_⟩
  · rw [hdht, hnodes]
    exact OrderedMap.sorted_assign htotal hr.sorted
  · rw [hnodes, OrderedMap.mem_assign htotal hr.sorted, hr.nodes, Prod.mk.injEq]
    by_cases hk : k = rc.pubkey
    · subst hk
      rw [hself]
      simp [eq_comm]
    · simp [hk, hother k hk]
  · rw [hlast, helements]
    by_cases hpk : k = rc.pubkey
    · subst hpk
      rw [hself, Option.some.injEq] at hk
      exact ⟨rc, by rw [hk, Function.update_self], rfl, by rw [if_pos rfl]⟩
    · rw [hother k hpk] at hk
      obtain ⟨rc', hrc', hkey, hlast'⟩ := hr.elements k a' hk
      have hne : a' ≠ a := by
        rintro rfl
        rcases hold with hold | ⟨-, hfree⟩
        · exact hpk (hr.injective hk hold)
        · rw [hfree] at hrc'
          cases hrc'
      exact ⟨rc', by rw [Function.update_of_ne hne, hrc'], hkey,
        by rw [if_neg (Ne.symm hpk), hlast']⟩

lemma Served.sessionClosed (hr : r.Served) (remote : RouterID) :
    (r.sessionClosed remote).Served := by
  have htotal := metric_total r.dht.ourKey
  rw [Router.sessionClosed]
  cases hlookup : r.validRouters.lookup remote with
  | none => exact hr
  | some a =>
    refine ⟨OrderedMap.sorted_remove hr.sorted, fun k a' => ?_, fun k a' hk => ?_⟩
    · change (k, a') ∈ OrderedMap.remove _ _ _ ↔ (r.validRouters.erase remote).lookup k = some a'
      rw [OrderedMap.mem_remove htotal, hr.nodes]
      by_cases hk : k = remote
      · rw [hk, AList.lookup_erase]
        simp
      · rw [AList.lookup_erase_ne hk]
        simp [hk]
    · by_cases hne : k = remote
      · rw [hne] at hk
        simp at hk
      · have hold : r.validRouters.lookup k = some a' := (AList.lookup_erase_ne hne).symm.trans hk
        obtain ⟨rc, hrc, hkey, hlast⟩ := hr.elements k a' hold
        have hplace : a' ≠ a := by
          rintro rfl
          exact hne (hr.injective hold hlookup)
        exact ⟨rc, (Function.update_of_ne hplace _ _).trans hrc, hkey, hlast⟩

/-! ### Everything else leaves the tables -/

lemma sameTables_await (w : Waiting) : SameTables r (r.await w) := ⟨rfl, rfl, rfl, rfl, rfl⟩

lemma sameTables_take {w : Waiting} (h : r.take w = some r') : SameTables r r' := by
  rw [take] at h
  split_ifs at h
  rw [← Option.some.inj h]
  exact ⟨rfl, rfl, rfl, rfl, rfl⟩

lemma sameTables_discard (remote : RouterID) : SameTables r (r.discardOutboundFor remote) :=
  ⟨rfl, rfl, rfl, rfl, rfl⟩

lemma sameTables_tryConnect {rc : RouterContact} {n : UInt16}
    (h : (r.tryConnect rc n).map Prod.fst = some r') : SameTables r r' := by
  obtain ⟨⟨r₁, done⟩, hconnect, rfl⟩ := Option.map_eq_some_iff.mp h
  rw [tryConnect] at hconnect
  split_ifs at hconnect
  · rw [← (Prod.mk.inj (Option.some.inj hconnect)).1]
    exact .refl r
  · split at hconnect
    · cases hconnect
    · rw [← (Prod.mk.inj (Option.some.inj hconnect)).1]
      exact .refl r
    · rw [← (Prod.mk.inj (Option.some.inj hconnect)).1]
      exact ⟨rfl, rfl, rfl, rfl, rfl⟩

lemma sameTables_sendAll (enc : M → Option Bytes) (remote : RouterID) (msgs : List M)
    (r : Router M) : SameTables r (msgs.foldl (fun r msg => r.sendTo enc remote msg) r) :=
  List.foldlRecOn (motive := SameTables r) _ _ (.refl r) fun _ hd _ _ =>
    hd.trans ⟨rfl, rfl, rfl, rfl, rfl⟩

lemma sameTables_flush (enc : M → Option Bytes) (remote : RouterID) :
    SameTables r (r.flushOutboundFor enc remote) := by
  rw [flushOutboundFor]
  split
  · exact .refl r
  · exact (sameTables_sendAll enc remote _ r).trans ⟨rfl, rfl, rfl, rfl, rfl⟩

lemma sameTables_sendToOrQueue {enc : M → Option Bytes} {remote : RouterID} {msg : M}
    {connected : Bool} (h : r.sendToOrQueue enc remote msg connected = some r') :
    SameTables r r' := by
  rw [sendToOrQueue] at h
  split_ifs at h
  · rw [← Option.some.inj h]
    exact ⟨rfl, rfl, rfl, rfl, rfl⟩
  · have hqueue : SameTables r (r.enqueue remote msg) := ⟨rfl, rfl, rfl, rfl, rfl⟩
    split at h
    · exact hqueue.trans (sameTables_tryConnect h)
    · rw [← Option.some.inj h]
      exact ⟨rfl, rfl, rfl, rfl, rfl⟩

lemma sameTables_handleAsyncLoadRC {pubkey : PubKey} {file : Option RouterContact}
    (h : r.handleAsyncLoadRC pubkey file = some r') : SameTables r r' := by
  cases file with
  | none =>
    rw [← Option.some.inj h]
    exact sameTables_await _
  | some rc =>
    have hdb : SameTables r ((r.setRC rc).getRC pubkey).2 := ⟨rfl, rfl, rfl, rfl, rfl⟩
    exact hdb.trans (sameTables_tryConnect h)

lemma sameTables_handleDHTLookup {target : Key} {found : Option RouterContact}
    (h : r.handleDHTLookup target found = some r') : SameTables r r' := by
  cases found with
  | none =>
    rw [← Option.some.inj h]
    exact sameTables_discard _
  | some rc => exact sameTables_tryConnect h

lemma sameTables_onTryConnectResult {ref : JobRef} {session : Option RouterContact}
    (h : r.onTryConnectResult ref session = some r') : SameTables r r' := by
  obtain ⟨job, -, rfl⟩ := Option.map_eq_some_iff.mp h
  dsimp only
  split
  · exact ⟨rfl, rfl, rfl, rfl, rfl⟩
  · split_ifs <;> exact ⟨rfl, rfl, rfl, rfl, rfl⟩

lemma sameTables_connectJobRetry {ref : JobRef} (h : r.connectJobRetry ref = some r') :
    SameTables r r' := by
  obtain ⟨job, -, rfl⟩ := Option.map_eq_some_iff.mp h
  split_ifs
  · exact sameTables_await _
  · exact .refl r

/-- The check of a contact tracks it, if it is valid. -/
lemma onVerifyServerRC_cases {enc : M → Option Bytes} {ref : JobRef} {rc : RouterContact}
    {signed saved : Bool} {place : ℕ}
    (h : r.onVerifyServerRC enc ref rc signed saved place = some r') :
    SameTables r r' ∨
      ∃ r₀ r₁, SameTables r r₀ ∧ r₀.track rc place = some r₁ ∧ SameTables r₁ r' := by
  have hdb : SameTables r (if signed then r.setRC rc else r) := by
    split_ifs <;> exact ⟨rfl, rfl, rfl, rfl, rfl⟩
  unfold onVerifyServerRC at h
  generalize (if signed then r.setRC rc else r) = r₀ at h hdb
  cases hvalid : signed && saved with
  | true =>
    rw [hvalid] at h
    obtain ⟨r₁, htrack, h⟩ := Option.bind_eq_some_iff.mp h
    obtain ⟨job, -, rfl⟩ := Option.map_eq_some_iff.mp h
    refine .inr ⟨r₀, r₁, hdb, htrack, ?_⟩
    split_ifs
    · exact (sameTables_flush enc rc.pubkey).trans ⟨rfl, rfl, rfl, rfl, rfl⟩
    · exact .refl r₁
  | false =>
    rw [hvalid] at h
    obtain ⟨job, -, rfl⟩ := Option.map_eq_some_iff.mp h
    exact .inl (hdb.trans ⟨rfl, rfl, rfl, rfl, rfl⟩)

/-- An event leaves the tables, or it tracks a verified router, or a session is closed, or it is a
call of the DHT. -/
lemma step_tables {enc : M → Option Bytes} {e : RouterEvent M} (h : r.step enc e = some r') :
    SameTables r r' ∨
    (∃ rc place r₀ r₁, SameTables r r₀ ∧ r₀.track rc place = some r₁ ∧ SameTables r₁ r') ∨
    (∃ remote, r' = r.sessionClosed remote) ∨
    ∃ call, isPeerCall call = false ∧ r' = { r with dht := r.context.call call } := by
  cases e with
  | send remote msg connected => exact .inl (sameTables_sendToOrQueue h)
  | loaded pubkey file =>
    obtain ⟨r₀, htake, h⟩ := Option.bind_eq_some_iff.mp h
    exact .inl ((sameTables_take htake).trans (sameTables_handleAsyncLoadRC h))
  | lookedUp target found =>
    obtain ⟨r₀, htake, h⟩ := Option.bind_eq_some_iff.mp h
    exact .inl ((sameTables_take htake).trans (sameTables_handleDHTLookup h))
  | attempted job session =>
    obtain ⟨r₀, htake, h⟩ := Option.bind_eq_some_iff.mp h
    exact .inl ((sameTables_take htake).trans (sameTables_onTryConnectResult h))
  | retried job =>
    obtain ⟨r₀, htake, h⟩ := Option.bind_eq_some_iff.mp h
    exact .inl ((sameTables_take htake).trans (sameTables_connectJobRetry h))
  | verified job rc signed saved place =>
    obtain ⟨r₀, htake, h⟩ := Option.bind_eq_some_iff.mp h
    obtain hsame | ⟨r₁, r₂, hsame, htrack, hsame'⟩ := onVerifyServerRC_cases h
    · exact .inl ((sameTables_take htake).trans hsame)
    · exact .inr (.inl ⟨rc, place, r₁, r₂, (sameTables_take htake).trans hsame, htrack, hsame'⟩)
  | closed remote => exact .inr (.inr (.inl ⟨remote, (Option.some.inj h).symm⟩))
  | connect rc => exact .inl (sameTables_tryConnect h)
  | dht call =>
    rw [step] at h
    split_ifs at h with hcall
    rw [Bool.and_eq_true, Bool.not_eq_true'] at hcall
    exact .inr (.inr (.inr ⟨call, hcall.2, (Option.some.inj h).symm⟩))

lemma Served.dht (hr : r.Served) (call : Call) :
    ({ r with dht := r.context.call call } : Router M).Served := by
  have hkey : (r.context.call call).ourKey = r.dht.ourKey :=
    (Context.effect_call r.context call).ourKey
  refine ⟨?_, hr.nodes, hr.elements⟩
  change OrderedMap.Sorted (Bucket.metric (r.context.call call).ourKey) r.nodes
  rw [hkey]
  exact hr.sorted

lemma Served.step (hr : r.Served) {enc : M → Option Bytes} {e : RouterEvent M}
    (h : r.step enc e = some r') : r'.Served := by
  obtain hsame | ⟨rc, place, r₀, r₁, hsame, htrack, hsame'⟩ | ⟨remote, rfl⟩ | ⟨call, -, rfl⟩ :=
    step_tables h
  · exact hr.same hsame
  · exact ((hr.same hsame).track htrack).same hsame'
  · exact hr.sessionClosed remote
  · exact hr.dht call

lemma ReachableBy.served {enc : M → Option Bytes} (h : r.ReachableBy enc) : r.Served := by
  obtain ⟨r₀, hinit, hrun⟩ := h
  induction hrun with
  | refl => exact .init hinit
  | tail _ hstep ih =>
    obtain ⟨e, he⟩ := hstep
    exact ih.step he

/-! ### The bucket as the DHT reads it -/

lemma SameTables.context_eq (h : SameTables r r') : r'.context = r.context := by
  have hcontact : r'.contactAt = r.contactAt := by
    funext a
    rw [contactAt, contactAt, h.elements]
  rw [context, context, h.dht, h.nodes, hcontact]

/-- A verified router is put into the bucket, with its contact. -/
lemma Served.context_track (hr : r.Served) {rc : RouterContact} {place : ℕ}
    (h : r.track rc place = some r') : r'.context = r.context.call (.putPeer rc) := by
  obtain ⟨a, hself, hother, hold, helements, hnodes, hverified, hdht⟩ := track_spec h
  have hcontact (b : ℕ) : r'.contactAt b = if b = a then rc else r.contactAt b := by
    rw [contactAt, contactAt, helements, Function.update_apply]
    split_ifs <;> rfl
  have hview : OrderedMap.view r'.contactAt r'.nodes =
      OrderedMap.assign (Bucket.metric r.dht.ourKey) rc.pubkey rc
        (OrderedMap.view r.contactAt r.nodes) := by
    rw [hnodes, OrderedMap.view_assign, hcontact, if_pos rfl]
    refine OrderedMap.assign_view_congr (metric_total _) hr.sorted fun e he hne => ?_
    rw [hcontact, if_neg]
    intro heq
    have hlookup : r.validRouters.lookup e.1 = some a := heq ▸ (hr.nodes e.1 e.2).mp he
    rcases hold with hold | ⟨-, hfree⟩
    · exact hne (hr.injective hlookup hold)
    · obtain ⟨rc', hrc', -⟩ := hr.elements _ _ hlookup
      rw [hfree] at hrc'
      cases hrc'
  rw [context, hdht, hview]
  rfl

/-- A router whose session is closed is taken out of the bucket. -/
lemma Served.context_sessionClosed (hr : r.Served) (remote : RouterID) :
    ∃ calls, (r.sessionClosed remote).context = r.context.run calls := by
  rw [Router.sessionClosed]
  cases hlookup : r.validRouters.lookup remote with
  | none => exact ⟨[], rfl⟩
  | some a =>
    refine ⟨[.removePeer remote], ?_⟩
    have hview : OrderedMap.view (fun b => (Function.update r.elements a none b).getD {})
        (OrderedMap.remove (Bucket.metric r.dht.ourKey) remote r.nodes) =
        OrderedMap.remove (Bucket.metric r.dht.ourKey) remote
          (OrderedMap.view r.contactAt r.nodes) := by
      rw [← OrderedMap.view_remove]
      refine OrderedMap.view_congr fun e he => ?_
      obtain ⟨hne, hmem⟩ := (OrderedMap.mem_remove (metric_total _)).mp he
      have hplace : e.2 ≠ a := fun heq =>
        hne (hr.injective ((hr.nodes e.1 e.2).mp hmem) (heq ▸ hlookup))
      rw [Function.update_of_ne hplace]
      rfl
    exact congrArg (fun nodes => ({ r.dht with nodes := ⟨r.dht.ourKey, nodes⟩ } : Context)) hview

lemma nodes_call (c : Context) {call : Call} (h : isPeerCall call = false) :
    (c.call call).nodes = c.nodes := by
  cases call with
  | message now m => exact (Context.kept_handleMessage now c m).nodes
  | reply remote before replies => rfl
  | lookup now job peer => exact (Context.kept_lookupRouterViaJob now c job peer).nodes
  | cleanup now => exact (Context.kept_cleanupTX now c).nodes
  | putPeer rc => cases h
  | removePeer id => cases h
  | transit allow => rfl
  | contact rc => rfl

/-- An event of the router is a run of calls of its DHT, whose bucket holds contacts. -/
theorem step_context (hr : r.Served) {enc : M → Option Bytes} {e : RouterEvent M}
    (h : r.step enc e = some r') : ∃ calls, r'.context = r.context.run calls := by
  obtain hsame | ⟨rc, place, r₀, r₁, hsame, htrack, hsame'⟩ | ⟨remote, rfl⟩ | ⟨call, hcall, rfl⟩ :=
    step_tables h
  · exact ⟨[], hsame.context_eq⟩
  · refine ⟨[.putPeer rc], ?_⟩
    rw [hsame'.context_eq, (hr.same hsame).context_track htrack, hsame.context_eq]
    rfl
  · exact hr.context_sessionClosed remote
  · refine ⟨[call], ?_⟩
    have hnodes := nodes_call r.context hcall
    have hkey : (r.context.call call).ourKey = r.dht.ourKey :=
      (Context.effect_call r.context call).ourKey
    change ({ r.context.call call with
      nodes := ⟨(r.context.call call).ourKey, r.context.nodes.nodes⟩ } : Context) =
        r.context.call call
    have hbucket : (⟨r.dht.ourKey, r.context.nodes.nodes⟩ : Bucket) = (r.context.call call).nodes :=
      hnodes.symm
    rw [hkey, hbucket]

/-! ### What the DHT answers with -/

/-- A relayed lookup is answered with our contact, with that of the node for the target, or with
nothing. -/
lemma replies_lookupRouterRelayed (c : Context) (now : UInt64) (requester : Key) (txid : UInt64)
    (target : Key) (recursive : Bool) {m : GotRouterMessage}
    (hm : .gotRouter m ∈ (c.lookupRouterRelayed now requester txid target recursive).2) :
    m.R = [] ∨ target = c.ourKey ∧ m.R = [c.rc] ∨ m.R = (c.nodes.contact target).toList := by
  have hone {R : List RouterContact}
      (h : Message.gotRouter m ∈ [.gotRouter { From := requester, txid := txid, R := R }]) :
      m.R = R := by
    rw [List.mem_singleton, Message.gotRouter.injEq] at h
    rw [h]
  unfold Context.lookupRouterRelayed at hm
  by_cases htarget : target = c.ourKey
  · rw [if_pos htarget] at hm
    exact .inr (.inl ⟨htarget, hone hm⟩)
  rw [if_neg htarget] at hm
  cases hnext : c.nodes.findCloseExcluding target {requester, c.ourKey} with
  | none =>
    rw [hnext] at hm
    exact .inl (hone hm)
  | some next =>
    rw [hnext] at hm
    dsimp only at hm
    split_ifs at hm with hknown hrec hcloser
    · exact .inr (.inr (hone hm))
    · exact .inl (hone hm)
    · cases hm
    · exact .inl (hone hm)

/-- The node of the bucket for a key has the contact of that router that was verified last. -/
lemma Served.contact (hr : r.Served) {target : Key} {rc : RouterContact}
    (h : r.context.nodes.contact target = some rc) :
    r.lastVerified target = some rc ∧ rc.pubkey = target := by
  obtain ⟨l₁, l₂, hl, -⟩ := List.lookup_eq_some_iff.mp h
  have hmem : (target, rc) ∈ OrderedMap.view r.contactAt r.nodes := by
    change (target, rc) ∈ r.context.nodes.nodes
    rw [hl]
    simp
  obtain ⟨⟨k, a⟩, hnode, heq⟩ := List.mem_map.mp hmem
  obtain ⟨rfl, rfl⟩ := Prod.mk.inj heq
  obtain ⟨rc, hrc, hpk, hlast⟩ := hr.elements k a ((hr.nodes k a).mp hnode)
  rw [contactAt, hrc]
  exact ⟨hlast, hpk⟩

/-- The bucket has exactly the valid routers; each node points to the element of its router, which
is there and has its key; and a relayed lookup is answered with nothing, with our own contact if we
are the target, or with the contact of the target that was verified last. -/
theorem dht_serves_verified (enc : M → Option Bytes) (r : Router M) (h : r.ReachableBy enc) :
    (∀ k, k ∈ r.nodes.map Prod.fst ↔ k ∈ r.validRouters) ∧
    (∀ k a, (k, a) ∈ r.nodes → r.validRouters.lookup k = some a ∧
      ∃ rc, r.elements a = some rc ∧ rc.pubkey = k) ∧
    ∀ now requester txid target recursive m,
      .gotRouter m ∈ (r.context.lookupRouterRelayed now requester txid target recursive).2 →
        ∀ rc ∈ m.R, target = r.context.ourKey ∧ rc = r.context.rc ∨
          r.lastVerified target = some rc ∧ rc.pubkey = target := by
  have hr := h.served
  refine ⟨fun k => ?_, fun k a hnode => ?_,
    fun now requester txid target recursive m hm rc hrc => ?_⟩
  · rw [List.mem_map, ← AList.lookup_isSome, Option.isSome_iff_exists]
    constructor
    · rintro ⟨⟨k, a⟩, hnode, rfl⟩
      exact ⟨a, (hr.nodes k a).mp hnode⟩
    · rintro ⟨a, ha⟩
      exact ⟨(k, a), (hr.nodes k a).mpr ha, rfl⟩
  · have hlookup := (hr.nodes k a).mp hnode
    obtain ⟨rc, hrc, hpk, -⟩ := hr.elements k a hlookup
    exact ⟨hlookup, rc, hrc, hpk⟩
  · obtain hR | ⟨htarget, hR⟩ | hR :=
      replies_lookupRouterRelayed r.context now requester txid target recursive hm
    · rw [hR] at hrc
      cases hrc
    · rw [hR, List.mem_singleton] at hrc
      exact .inl ⟨htarget, hrc⟩
    · rw [hR, Option.mem_toList] at hrc
      exact .inr (hr.contact hrc)

/-- A contact of the router `b` with an address. -/
def reachableAt (b : UInt8) : RouterContact :=
  { pubkey := lastByte b, addrs := some [⟨0, zeroBlob 6, zeroBlob 32, zeroBlob 16, 0⟩] }

/-- The router 5, which knows no other. -/
def lonelyRouter : Router Unit := { dht := Context.relayRouter }

lemma lonelyRouter_initial : lonelyRouter.Initial :=
  ⟨rfl, rfl, fun _ => rfl, rfl, rfl, rfl, rfl, fun _ _ h => by cases h⟩

/-- It connects to the router 9, whose contact is found valid. -/
def meetNine : List (RouterEvent Unit) :=
  [.connect (reachableAt 9), .attempted ⟨lastByte 9, 0⟩ (some (reachableAt 9)),
    .verified ⟨lastByte 9, 0⟩ (reachableAt 9) true true 0]

theorem dht_serves_verified_nine :
    ∃ r, lonelyRouter.run (fun _ => none) meetNine = some r ∧ r.nodes = [(lastByte 9, 0)] ∧
      lastByte 9 ∈ r.validRouters := by
  have hsome : (lonelyRouter.run (fun _ => none) meetNine).isSome = true := by decide +kernel
  obtain ⟨r, hr⟩ := Option.isSome_iff_exists.mp hsome
  have hnodes : (lonelyRouter.run (fun _ => none) meetNine).map (·.nodes) =
      some [(lastByte 9, 0)] := by decide +kernel
  rw [hr, Option.map_some, Option.some.injEq] at hnodes
  have hreach : lonelyRouter.ReachableBy fun _ => none := ⟨_, lonelyRouter_initial, .refl⟩
  have hkeys := (dht_serves_verified _ r (hreach.run hr)).1 (lastByte 9)
  refine ⟨r, hr, hnodes, hkeys.mp ?_⟩
  rw [hnodes]
  exact List.mem_cons_self

end Router

end Udap
