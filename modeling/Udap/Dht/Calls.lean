import Udap.Dht.Relay

/-!
The runs of a context, one message at a time.

`DHTImmeidateMessage::HandleMessage` handles its messages one after the other and sends the replies
at the end. `Call` has a constructor for each of these, so that a run of calls shows the context
also between two messages; `step_eq_run` says that the runs of `Context.step` are among them.

* `asks`, `answers`: the `LookupRouter` that a call makes, and the transaction it is an answer to,
  by the context before the call.
* `call_moved`: what a call does to the transactions, the hooks and the requests that were sent.
-/

namespace Udap.Dht

/-- What happens to a context. -/
inductive Call
  | message (now : UInt64) (m : Message)
  /-- the replies to messages of `remote` are sent; `before` transactions had ended before these -/
  | reply (remote : Key) (before : ℕ) (replies : List GotRouterMessage)
  | lookup (now : UInt64) (job : LookupJob) (peer : Key)
  | cleanup (now : UInt64)
  | putPeer (rc : RouterContact)
  | removePeer (id : Key)
  | transit (allow : Bool)
  | contact (rc : RouterContact)

/-- The job that is submitted. -/
def Call.job : Call → Option LookupJob
  | .lookup _ job _ => some job
  | _ => none

/-- The arguments of `LookupRouter`. -/
structure Ask where
  target : Key
  requester : Key
  txid : UInt64
  peer : Key
  job : Option LookupJob
  iterative : Bool
  exclude : Finset Key
  asked : Option UInt64

namespace Ask

/-- `LookupRouter` does nothing for these. -/
def void (a : Ask) : Bool := isZero a.target || isZero a.requester || isZero a.peer

/-- The transaction that is made under `id`. -/
def entry (a : Ask) (now id : UInt64) : SearchJob :=
  { job := a.job, started := now, requester := a.requester,
    requesterTX := if a.txid = 0 then id else a.txid, target := a.target, exclude := a.exclude,
    asked := a.asked }

end Ask

/-- The requests among what was sent, by the peer and the transaction. -/
def requestsOf (sent : List (Key × List Message)) : List (Key × UInt64) :=
  sent.flatMap fun s => s.2.filterMap fun
    | .findRouter m => some (s.1, m.txid)
    | .gotRouter _ => none

@[simp] lemma requestsOf_nil : requestsOf [] = [] := rfl

@[simp] lemma requestsOf_append (a b : List (Key × List Message)) :
    requestsOf (a ++ b) = requestsOf a ++ requestsOf b := List.flatMap_append

@[simp] lemma requestsOf_replies (remote : Key) (replies : List GotRouterMessage) :
    requestsOf [(remote, replies.map .gotRouter)] = [] := by
  simp [requestsOf]

namespace Context

/-- `LookupRouter` with its arguments. -/
def ask (now : UInt64) (a : Ask) (c : Context) : Context :=
  c.lookupRouter now a.target a.requester a.txid a.peer a.job a.iterative a.exclude a.asked

/-- `RemovePendingLookup`. -/
def removePendingLookup (owner : Key) (id : UInt64) (c : Context) : Context :=
  { c with pendingTX := c.pendingTX.erase (owner, id) }

/-- One call. -/
def call (c : Context) : Call → Context
  | .message now m => (c.handleMessage now m).1
  | .reply remote before replies =>
      { c with
        sent := c.sent ++ [(remote, replies.map .gotRouter)]
        completions := c.completions.take before ++ (c.completions.drop before).map
          fun k => { k with sentTo := some remote } }
  | .lookup now job peer => c.lookupRouterViaJob now job peer
  | .cleanup now => c.cleanupTX now
  | .putPeer rc => { c with nodes := c.nodes.putNode rc }
  | .removePeer id => { c with nodes := c.nodes.delNode id }
  | .transit allow => { c with allowTransit := allow }
  | .contact rc => { c with rc := rc }

/-- Calls one after the other. -/
def run (c : Context) (calls : List Call) : Context := calls.foldl call c

/-- No lookup was made and no hook was called. -/
def Fresh (c : Context) : Prop := c.Initial ∧ c.hooks = []

lemma run_append (c : Context) (l l' : List Call) : c.run (l ++ l') = (c.run l).run l' :=
  List.foldl_append

/-! ### Handling a list of messages is a run of calls -/

lemma replies_handleMessage (now : UInt64) (c : Context) (msg : Message) :
    ∃ replies : List GotRouterMessage, (c.handleMessage now msg).2.2 = replies.map .gotRouter := by
  have hreply (j : SearchJob) (r : Option RouterContact) :
      ∃ replies : List GotRouterMessage, c.replyTo j r = replies.map .gotRouter := by
    unfold replyTo
    split_ifs
    · exact ⟨[_], rfl⟩
    · exact ⟨[], rfl⟩
  cases msg with
  | findRouter m =>
    simp only [handleMessage, handleFindRouter]
    split_ifs
    · exact ⟨[], rfl⟩
    · exact ⟨[], rfl⟩
    · obtain ⟨R, h⟩ | ⟨-, -, next, -, h⟩ :=
        c.lookupRouterRelayed_cases now m.From m.txid m.K (!m.iterative)
      · exact ⟨[_], by rw [h]; rfl⟩
      · exact ⟨[], by rw [h]; rfl⟩
  | gotRouter m =>
    rw [handleMessage]
    obtain ⟨-, h⟩ | ⟨j, -, ⟨-, h⟩ | ⟨-, next, -, h⟩⟩ := c.handleGotRouter_cases now m
    · exact ⟨[], by rw [h]; rfl⟩
    · rw [h]
      exact hreply j m.R.head?
    · exact ⟨[], by rw [h]; rfl⟩

lemma handleAll_eq_run (now : UInt64) (msgs : List Message) (c : Context) :
    (c.handleAll now msgs).1 = c.run (msgs.map (Call.message now)) ∧
      ∃ replies : List GotRouterMessage, (c.handleAll now msgs).2.2 = replies.map .gotRouter := by
  induction msgs generalizing c with
  | nil => exact ⟨rfl, [], rfl⟩
  | cons msg rest ih =>
    obtain ⟨hrun, more, hmore⟩ := ih (c.handleMessage now msg).1
    obtain ⟨first, hfirst⟩ := replies_handleMessage now c msg
    refine ⟨hrun, first ++ more, ?_⟩
    rw [handleAll, hfirst, hmore, List.map_append]

/-- What ended before a list of messages is handled stays what ended first. -/
lemma completions_handleAll (now : UInt64) (remote : Key) (msgs : List Message) (c : Context) :
    (c.handleAll now (msgs.map (Message.received remote))).1.completions.take
      c.completions.length = c.completions := by
  rw [(handleAll_spec now remote msgs c).1, List.take_left']
  rfl

/-- A step of a context is a run of calls. -/
lemma step_eq_run (c : Context) (i : Input) : ∃ calls, c.step i = c.run calls := by
  cases i with
  | receive now remote msgs =>
    obtain ⟨hrun, replies, hreplies⟩ := handleAll_eq_run now (msgs.map (Message.received remote)) c
    have hbefore := completions_handleAll now remote msgs c
    rw [step, handleImmediate]
    split <;> rename_i heq <;> rw [heq] at hrun hreplies hbefore <;>
      dsimp only at hrun hreplies hbefore
    · refine ⟨(msgs.map (Message.received remote)).map (Call.message now) ++
        [.reply remote c.completions.length replies], ?_⟩
      rw [run_append, ← hrun, hreplies]
      conv_lhs => rw [← hbefore]
      simp only [run, List.foldl_cons, List.foldl_nil, call, hbefore]
    · exact ⟨_, hrun⟩
  | lookup now job peer => exact ⟨[.lookup now job peer], rfl⟩
  | cleanup now => exact ⟨[.cleanup now], rfl⟩
  | putPeer rc => exact ⟨[.putPeer rc], rfl⟩
  | removePeer id => exact ⟨[.removePeer id], rfl⟩
  | transit allow => exact ⟨[.transit allow], rfl⟩
  | contact rc => exact ⟨[.contact rc], rfl⟩

/-! ### What a call asks and what it answers -/

/-- The router that a request is passed on to. -/
def passesOn (c : Context) (m : FindRouterMessage) : Option Key :=
  if c.allowTransit ∧ (m.From, m.txid) ∉ c.pendingTX ∧ m.K ≠ c.ourKey ∧ m.iterative = false then
    (c.nodes.findCloseExcluding m.K {m.From, c.ourKey}).filter fun next =>
      next ≠ m.K && !ltKey (xorKey m.From m.K) (xorKey c.ourKey m.K)
  else none

/-- The `LookupRouter` of a call. -/
def asks (c : Context) : Call → Option Ask
  | .message _ (.findRouter m) => (c.passesOn m).map fun next =>
      ⟨m.K, m.From, m.txid, next, none, false, ∅, some m.txid⟩
  | .message _ (.gotRouter m) =>
      if m.R = [] then
        (c.pendingTX.lookup (m.From, m.txid)).bind fun j => (c.nextPeer j m.From).map fun next =>
          ⟨j.target, j.requester, j.requesterTX, next, none, true, insert m.From j.exclude, j.asked⟩
      else none
  | .lookup _ job peer =>
      match c.nodes.findClosest job.target peer with
      | (peer, true) => some ⟨job.target, c.ourKey, 0, peer, some job, false, ∅, none⟩
      | (_, false) => none
  | _ => none

/-- The transaction that a call is an answer to. -/
def answers (c : Context) : Call → Option ((Key × UInt64) × SearchJob)
  | .message _ (.gotRouter m) =>
      (c.pendingTX.lookup (m.From, m.txid)).map fun j => ((m.From, m.txid), j)
  | _ => none

/-- A call asks for a request of another router, for an empty answer, or for a job. -/
lemma asks_spec {c : Context} {i : Call} {a : Ask} (h : c.asks i = some a) : a.job = i.job ∧
    ((∃ now m, i = .message now (.findRouter m) ∧ a.peer ∉ ({m.From, c.ourKey} : Finset Key) ∧
      a.exclude = ∅ ∧ a.asked = some m.txid ∧ a.requester = m.From) ∨
    (∃ now m j, i = .message now (.gotRouter m) ∧ c.pendingTX.lookup (m.From, m.txid) = some j ∧
      c.nextPeer j m.From = some a.peer ∧ a.exclude = insert m.From j.exclude ∧
      a.asked = j.asked ∧ a.requester = j.requester) ∨
    ∃ now job peer, i = .lookup now job peer ∧ a.exclude = ∅ ∧ a.asked = none) := by
  cases i with
  | message now msg =>
    cases msg with
    | findRouter m =>
      obtain ⟨next, hnext, rfl⟩ := Option.map_eq_some_iff.mp h
      refine ⟨rfl, .inl ⟨now, m, rfl, ?_, rfl, rfl, rfl⟩⟩
      rw [passesOn] at hnext
      split_ifs at hnext
      exact Bucket.notMem_of_findCloseExcluding (Option.filter_eq_some_iff.mp hnext).1
    | gotRouter m =>
      rw [asks] at h
      split_ifs at h
      obtain ⟨j, hj, h⟩ := Option.bind_eq_some_iff.mp h
      obtain ⟨next, hnext, rfl⟩ := Option.map_eq_some_iff.mp h
      exact ⟨rfl, .inr (.inl ⟨now, m, j, rfl, hj, hnext, rfl, rfl, rfl⟩)⟩
  | lookup now job peer =>
    rw [asks] at h
    split at h
    · rw [← Option.some.inj h]
      exact ⟨rfl, .inr (.inr ⟨now, job, peer, rfl, rfl, rfl⟩)⟩
    · cases h
  | reply remote before replies => cases h
  | cleanup now => cases h
  | putPeer rc => cases h
  | removePeer id => cases h
  | transit allow => cases h
  | contact rc => cases h

/-- Two contexts are the same in their transactions and hooks, and what was sent beyond `c` has no
request. -/
structure Same (c c' : Context) : Prop where
  ourKey : c'.ourKey = c.ourKey
  ids : c'.ids = c.ids
  pendingTX : c'.pendingTX = c.pendingTX
  hooks : c'.hooks = c.hooks
  sent : ∃ l, c'.sent = c.sent ++ l ∧ requestsOf l = []

lemma Same.of_sent {c c' : Context} (hkey : c'.ourKey = c.ourKey) (hids : c'.ids = c.ids)
    (hpending : c'.pendingTX = c.pendingTX) (hhooks : c'.hooks = c.hooks)
    (hsent : c'.sent = c.sent) : Same c c' :=
  ⟨hkey, hids, hpending, hhooks, [], by rw [hsent, List.append_nil], rfl⟩

lemma Same.refl (c : Context) : Same c c := .of_sent rfl rfl rfl rfl rfl

/-- What a call does, by what it asks and what it answers. -/
inductive Moved (c : Context) : Call → Context → Prop
  | quiet {i c'} (hasks : c.asks i = none) (hanswers : c.answers i = none) (hjob : i.job = none)
      (h : Same c c') : Moved c i c'
  | asked {i a c'} (now : UInt64) (hasks : c.asks i = some a) (hanswers : c.answers i = none)
      (h : Same (c.ask now a) c') : Moved c i c'
  | iterated {now m j next c'} (hj : c.pendingTX.lookup (m.From, m.txid) = some j)
      (hR : m.R = []) (hnext : c.nextPeer j m.From = some next)
      (h : Same ((c.ask now ⟨j.target, j.requester, j.requesterTX, next, none, true,
        insert m.From j.exclude, j.asked⟩).removePendingLookup m.From m.txid) c') :
      Moved c (.message now (.gotRouter m)) c'
  | ended {now m j c'} (hj : c.pendingTX.lookup (m.From, m.txid) = some j)
      (hends : m.R ≠ [] ∨ c.nextPeer j m.From = none)
      (h : Same ((c.completed j m.R.head?).removePendingLookup m.From m.txid) c') :
      Moved c (.message now (.gotRouter m)) c'
  | failed {now job peer c'} (hasks : c.asks (.lookup now job peer) = none)
      (h : Same (c.completed ⟨some job, now, c.ourKey, 0, job.target, ∅, none⟩ none) c') :
      Moved c (.lookup now job peer) c'
  | cleaned (now : UInt64) : Moved c (.cleanup now) (c.cleanupTX now)

/-- A request is passed on as `passesOn` says, or nothing but replies comes of it. -/
lemma handleFindRouter_cases (now : UInt64) (c : Context) (m : FindRouterMessage) :
    c.passesOn m = none ∧ (c.handleFindRouter now m).1 = c ∨
    ∃ next, c.passesOn m = some next ∧
      (c.handleFindRouter now m).1 = c.forward now m.From m.txid m.K next true := by
  unfold handleFindRouter passesOn lookupRouterRelayed
  by_cases htransit : c.allowTransit = true
  case neg => exact .inl (by simp [htransit])
  by_cases hdup : (m.From, m.txid) ∈ c.pendingTX
  · exact .inl (by simp [hdup])
  by_cases htarget : m.K = c.ourKey
  · exact .inl (by simp [htransit, hdup, htarget])
  cases hnext : c.nodes.findCloseExcluding m.K {m.From, c.ourKey} with
  | none => exact .inl (by simp [htransit, hdup, htarget])
  | some next =>
    by_cases hknown : next = m.K
    · exact .inl (by simp [htransit, hdup, htarget, hknown])
    cases hiter : m.iterative with
    | true => exact .inl (by simp [htransit, hdup, htarget, hknown])
    | false =>
      by_cases hcloser : ltKey (xorKey m.From m.K) (xorKey c.ourKey m.K) = true
      · exact .inl (by simp [htransit, hdup, htarget, hknown, hcloser])
      · exact .inr ⟨next, by simp [htransit, hdup, htarget, hknown, hcloser],
          by simp [htransit, hdup, htarget, hknown, hcloser]⟩

lemma call_moved (c : Context) (i : Call) : Moved c i (c.call i) := by
  cases i with
  | message now msg =>
    cases msg with
    | findRouter m =>
      rw [call, handleMessage]
      obtain ⟨hnone, h⟩ | ⟨next, hnext, h⟩ := handleFindRouter_cases now c m
      · rw [h]
        exact .quiet (by rw [asks, hnone]; rfl) rfl rfl (.refl c)
      · rw [h]
        refine .asked now (by rw [asks, hnext]; rfl) rfl ?_
        unfold forward ask lookupRouter
        split
        · exact .of_sent rfl rfl rfl rfl rfl
        · exact .of_sent rfl rfl rfl rfl rfl
    | gotRouter m =>
      rw [call, handleMessage]
      obtain ⟨hnone, h⟩ | ⟨j, hj, ⟨hends, h⟩ | ⟨hR, next, hnext, h⟩⟩ :=
        c.handleGotRouter_cases now m
      · rw [h]
        exact .quiet (by simp [asks, hnone]) (by simp [answers, hnone]) rfl (.refl c)
      · rw [h]
        exact .ended hj hends (.of_sent rfl rfl (by simp [finish, removePendingLookup]) rfl rfl)
      · rw [h]
        exact .iterated hj hR hnext (.refl _)
  | reply remote before replies =>
    exact .quiet rfl rfl rfl ⟨rfl, rfl, rfl, rfl, _, rfl, requestsOf_replies remote replies⟩
  | lookup now job peer =>
    rw [call, lookupRouterViaJob]
    cases hclosest : c.nodes.findClosest job.target peer with
    | mk p found =>
      cases found with
      | true => exact .asked now (by simp only [asks, hclosest]; rfl) rfl (.refl _)
      | false =>
        refine .failed (by simp only [asks, hclosest]) ?_
        exact .refl _
  | cleanup now => exact .cleaned now
  | putPeer rc => exact .quiet rfl rfl rfl (.of_sent rfl rfl rfl rfl rfl)
  | removePeer id => exact .quiet rfl rfl rfl (.of_sent rfl rfl rfl rfl rfl)
  | transit allow => exact .quiet rfl rfl rfl (.of_sent rfl rfl rfl rfl rfl)
  | contact rc => exact .quiet rfl rfl rfl (.of_sent rfl rfl rfl rfl rfl)

end Context

end Udap.Dht
