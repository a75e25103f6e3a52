import Udap.Dht.Context
import Mathlib.Logic.Relation

/-!
The answers to relayed lookups, over the runs of one context.

`GotRouterMessage::HandleMessage` puts the reply for the requester of a transaction into the
replies of the message it handles, and `DHTImmeidateMessage::HandleMessage` sends these to the
peer that message came from. So the requester gets its answer exactly when it is itself the last
peer that was asked (`ServesRequester`): the case of a requester that was asked in turn because it
stands in our bucket.

* `handleAll_spec`: which transactions a list of messages from one peer ends, by the transactions
  of that peer before (`ended`), and whether its replies are sent (`accepts`).
* `remembers_step`: the transaction id of the requester is kept while the lookup goes from peer to
  peer, unless it is 0.
* `relayed_lookup_answered`: the runs in which every relayed lookup that ends is answered.
-/

namespace Udap.Dht

namespace Context

/-- The answer for the lookup that `k` ended was made once, for the transaction `t` of the
requester, and it was sent to the requester. -/
def Answered (c : Context) (k : Completion) (t : UInt64) : Prop :=
  ∃ m msgs, k.replies = [.gotRouter m] ∧ m.From = k.job.target ∧ m.txid = t ∧
    k.sentTo = some k.job.requester ∧ (k.job.requester, msgs) ∈ c.sent ∧ .gotRouter m ∈ msgs

/-- All relayed lookups that ended were answered. -/
def AllAnswered (c : Context) : Prop :=
  ∀ k ∈ c.completions, ∀ t, k.job.asked = some t → c.Answered k t

/-! ### The transactions a list of messages ends -/

/-- Whether the answer ends the transaction, by what we know: it has a contact, or nobody else can
be asked. -/
def ends (c : Context) (remote : Key) (j : SearchJob) (m : GotRouterMessage) : Bool :=
  m.R ≠ [] ∨ c.nextPeer j remote = none

/-- The transactions that messages from `remote` end, with the contacts found, where `p` holds the
transactions of `remote`. -/
def ended (c : Context) (remote : Key) :
    (UInt64 → Option SearchJob) → List Message → List (SearchJob × Option RouterContact)
  | _, [] => []
  | p, .findRouter _ :: rest => c.ended remote p rest
  | p, .gotRouter m :: rest =>
      ((p m.txid).toList.filter fun j => c.ends remote j m).map (fun j => (j, m.R.head?)) ++
        c.ended remote (Function.update p m.txid none) rest

/-- The end of a transaction by an answer of `remote`, with the replies sent to `sentTo`. -/
def completion (c : Context) (remote : Key) (sentTo : Option Key)
    (e : SearchJob × Option RouterContact) : Completion :=
  { job := e.1, answeredBy := some remote, replies := c.replyTo e.1 e.2, sentTo := sentTo }

/-- Whether none of the messages is refused. -/
def accepts (allow : Bool) : (UInt64 → Option SearchJob) → List Message → Bool
  | _, [] => true
  | p, .findRouter m :: rest => allow && (p m.txid).isNone && accepts allow p rest
  | p, .gotRouter m :: rest =>
      (p m.txid).isSome && accepts allow (Function.update p m.txid none) rest

/-- The transactions of a peer. -/
def transactionsOf (c : Context) (remote : Key) (t : UInt64) : Option SearchJob :=
  c.pendingTX.lookup (remote, t)

/-- The relayed lookups that end in the call are answered by their own requester, which is not us
and which did not use the transaction id 0, among messages that are all accepted; and none of them
expires. -/
def ServesRequester (c : Context) : Input → Prop
  | .receive _ remote msgs =>
      ∀ e ∈ c.ended remote (c.transactionsOf remote) msgs, ∀ t, e.1.asked = some t →
        e.1.requester = remote ∧ remote ≠ c.ourKey ∧ (t ≠ 0 ∨ e.1.requesterTX = 0) ∧
        accepts c.allowTransit (c.transactionsOf remote) msgs = true
  | .cleanup now =>
      ∀ o j, c.pendingTX.lookup o = some j → j.isExpired now = true → j.asked = none
  | _ => True

/-! ### Runs -/

/-- Nothing was sent and no transaction is pending. -/
def Initial (c : Context) : Prop := c.pendingTX = ∅ ∧ c.sent = [] ∧ c.completions = []

/-- The contexts that calls which meet `C` lead to. -/
def ReachableIf (C : Context → Input → Prop) (c : Context) : Prop :=
  ∃ c₀ : Context, c₀.Initial ∧ Relation.ReflTransGen (fun c c' => ∃ i, C c i ∧ c' = c.step i) c₀ c

def Reachable (c : Context) : Prop := ReachableIf (fun _ _ => True) c

/-! ### One message -/

section Handlers

variable (now : UInt64) (c : Context)

@[simp] lemma sent_completed (j : SearchJob) (r : Option RouterContact) :
    (c.completed j r).sent = c.sent := by
  unfold completed; split <;> [split_ifs; skip] <;> rfl

@[simp] lemma pendingTX_completed (j : SearchJob) (r : Option RouterContact) :
    (c.completed j r).pendingTX = c.pendingTX := by
  unfold completed; split <;> [split_ifs; skip] <;> rfl

@[simp] lemma completions_completed (j : SearchJob) (r : Option RouterContact) :
    (c.completed j r).completions = c.completions := by
  unfold completed; split <;> [split_ifs; skip] <;> rfl

@[simp] lemma completions_lookupRouter (target who : Key) (t : UInt64) (peer : Key)
    (job : Option LookupJob) (it : Bool) (ex : Finset Key) (asked : Option UInt64) :
    (c.lookupRouter now target who t peer job it ex asked).completions = c.completions := by
  unfold lookupRouter; split <;> rfl

/-- A lookup that asks one peer leaves the transactions of the others. -/
lemma transactionsOf_lookupRouter (target who : Key) (t : UInt64) (peer : Key)
    (job : Option LookupJob) (it : Bool) (ex : Finset Key) (asked : Option UInt64) {remote : Key}
    (hne : remote ≠ peer) :
    (c.lookupRouter now target who t peer job it ex asked).transactionsOf remote =
      c.transactionsOf remote := by
  unfold lookupRouter
  split
  · rfl
  · funext t'
    exact AList.lookup_insert_ne (by simp [hne])

lemma transactionsOf_erase (remote : Key) (t : UInt64) (d : Context)
    (h : d.pendingTX = c.pendingTX.erase (remote, t)) :
    d.transactionsOf remote = Function.update (c.transactionsOf remote) t none := by
  funext t'
  rw [transactionsOf, h, Function.update_apply]
  split_ifs with heq
  · rw [heq, AList.lookup_erase]
  · exact AList.lookup_erase_ne (by simp [heq])

/-- The peer that is asked next is another one. -/
lemma nextPeer_ne {j : SearchJob} {peer : Key} (h : c.nextPeer j peer = some peer) : False := by
  unfold nextPeer at h
  split_ifs at h
  exact Bucket.notMem_of_findCloseExcluding h (Finset.mem_insert_self _ _)

/-- A request ends no transaction, and starts none with the peer it came from. -/
lemma handleMessage_findRouter (remote : Key) (m : FindRouterMessage) :
    ∃ replies d, c.handleMessage now (.findRouter { m with From := remote }) =
      (d, c.allowTransit && (c.transactionsOf remote m.txid).isNone, replies) ∧
      d.completions = c.completions ∧ d.transactionsOf remote = c.transactionsOf remote := by
  have hmem : (remote, m.txid) ∈ c.pendingTX ↔ (c.transactionsOf remote m.txid).isNone = false := by
    rw [← AList.lookup_isSome, ← Option.not_isSome, transactionsOf, Bool.not_eq_false']
  simp only [handleMessage, handleFindRouter]
  split_ifs with htransit hpending
  · refine ⟨[], c, ?_, rfl, rfl⟩
    rw [Bool.not_eq_true'] at htransit
    rw [htransit, Bool.false_and]
  · refine ⟨[], c, ?_, rfl, rfl⟩
    rw [hmem.mp hpending, Bool.and_false]
  · have hnone := Bool.not_eq_false _ ▸ mt hmem.mpr hpending
    rw [Bool.not_eq_true', Bool.not_eq_false] at htransit
    rw [htransit, hnone]
    obtain ⟨R, h⟩ | ⟨-, -, next, hnext, h⟩ :=
      c.lookupRouterRelayed_cases now remote m.txid m.K (!m.iterative)
    · rw [h]
      exact ⟨_, c, rfl, rfl, rfl⟩
    · rw [h]
      refine ⟨_, _, rfl, by simp [forward], ?_⟩
      refine transactionsOf_lookupRouter now _ _ _ _ _ _ _ _ _ fun heq => hnext ?_
      simp [heq]

/-- An answer uses up the transaction it is for, and ends it or not. -/
lemma handleMessage_gotRouter (remote : Key) (m : GotRouterMessage) :
    ∃ replies d, c.handleMessage now (.gotRouter { m with From := remote }) =
      (d, (c.transactionsOf remote m.txid).isSome, replies) ∧
      d.completions = c.completions ++
        (((c.transactionsOf remote m.txid).toList.filter fun j => c.ends remote j m).map
          fun j => (j, m.R.head?)).map (c.completion remote none) ∧
      d.transactionsOf remote = Function.update (c.transactionsOf remote) m.txid none ∧
      ∀ j, c.transactionsOf remote m.txid = some j → c.ends remote j m = true →
        replies = c.replyTo j m.R.head? := by
  rw [handleMessage]
  obtain ⟨hnone, h⟩ | ⟨j, hj, ⟨hends, h⟩ | ⟨hR, next, hnext, h⟩⟩ :=
    c.handleGotRouter_cases now { m with From := remote }
  · have hnone : c.transactionsOf remote m.txid = none := hnone
    rw [h]
    refine ⟨[], c, by simp [hnone], by simp [hnone], ?_, by simp [hnone]⟩
    rw [← hnone, Function.update_eq_self]
  · have hj : c.transactionsOf remote m.txid = some j := hj
    have hends : c.ends remote j m = true := by simpa [ends] using hends
    rw [h]
    refine ⟨_, _, by rw [hj]; rfl, ?_, ?_, ?_⟩
    · simp [hj, hends, finish, completion]
    · exact transactionsOf_erase c remote m.txid _ (by simp [finish])
    · rintro j' hj' -
      rw [hj] at hj'
      rw [Option.some.inj hj']
  · have hj : c.transactionsOf remote m.txid = some j := hj
    have hends : c.ends remote j m = false := by
      have hR : m.R = [] := hR
      have hnext : c.nextPeer j remote = some next := hnext
      simp [ends, hR, hnext]
    rw [h]
    refine ⟨_, _, by rw [hj]; rfl, ?_, ?_, ?_⟩
    · simp [hj, hends]
    · rw [transactionsOf_erase _ remote m.txid _ rfl, transactionsOf_lookupRouter]
      rintro rfl
      exact nextPeer_ne c hnext
    · intro j' hj' hends'
      rw [hj] at hj'
      rw [← Option.some.inj hj', hends] at hends'
      cases hends'

end Handlers

/-! ### The messages of one peer -/

section Receive

variable {now : UInt64} {c d : Context} {remote : Key}

lemma Kept.nextPeer_eq (h : Kept c d) : d.nextPeer = c.nextPeer := by
  funext j peer
  rw [nextPeer, nextPeer, h.nodes]

lemma Kept.ended_eq (h : Kept c d) (p : UInt64 → Option SearchJob) (msgs : List Message) :
    d.ended remote p msgs = c.ended remote p msgs := by
  induction msgs generalizing p with
  | nil => rfl
  | cons msg rest ih =>
    cases msg with
    | findRouter m => exact ih p
    | gotRouter m =>
      have hends : d.ends remote = c.ends remote := by
        funext j m
        rw [ends, ends, h.nextPeer_eq]
      simp only [ended, hends, ih]

lemma Kept.replyTo_eq (h : Kept c d) (j : SearchJob) (r : Option RouterContact) :
    d.replyTo j r = c.replyTo j r := by
  rw [replyTo, replyTo, h.ourKey]

lemma Kept.completion_eq (h : Kept c d) (q : Option Key) :
    d.completion remote q = c.completion remote q := by
  funext e
  rw [completion, completion, h.replyTo_eq]

/-- Messages of one peer end the transactions `ended`, they are accepted as `accepts` says, and the
replies for what they end are among their replies. -/
lemma handleAll_spec (now : UInt64) (remote : Key) (msgs : List Message) (c : Context) :
    let r := c.handleAll now (msgs.map (Message.received remote))
    r.1.completions = c.completions ++
        (c.ended remote (c.transactionsOf remote) msgs).map (c.completion remote none) ∧
      r.2.1 = accepts c.allowTransit (c.transactionsOf remote) msgs ∧
      ∀ e ∈ c.ended remote (c.transactionsOf remote) msgs, c.replyTo e.1 e.2 ⊆ r.2.2 := by
  induction msgs generalizing c with
  | nil => simp [handleAll, ended, accepts]
  | cons msg rest ih =>
    have hkept := kept_handleMessage now c (msg.received remote)
    cases msg with
    | findRouter m =>
      obtain ⟨replies, d, h, hcompletions, htransactions⟩ := handleMessage_findRouter now c remote m
      simp only [Message.received, h] at hkept
      obtain ⟨ih₁, ih₂, ih₃⟩ := ih d
      rw [hkept.ended_eq, htransactions] at ih₁ ih₃
      rw [hkept.completion_eq, hcompletions] at ih₁
      rw [hkept.allowTransit, htransactions] at ih₂
      simp only [List.map_cons, Message.received, handleAll, h, ended, accepts]
      refine ⟨ih₁, by rw [ih₂], fun e he => ?_⟩
      rw [← hkept.replyTo_eq]
      exact fun x hx => List.mem_append_right _ (ih₃ e he hx)
    | gotRouter m =>
      obtain ⟨replies, d, h, hcompletions, htransactions, hreplies⟩ :=
        handleMessage_gotRouter now c remote m
      simp only [Message.received, h] at hkept
      obtain ⟨ih₁, ih₂, ih₃⟩ := ih d
      rw [hkept.ended_eq, htransactions] at ih₁ ih₃
      rw [hkept.completion_eq, hcompletions] at ih₁
      rw [hkept.allowTransit, htransactions] at ih₂
      simp only [List.map_cons, Message.received, handleAll, h, ended, accepts]
      refine ⟨by rw [ih₁, List.map_append, List.append_assoc], by rw [ih₂], fun e he => ?_⟩
      rcases List.mem_append.mp he with he | he
      · obtain ⟨j, hj, rfl⟩ := List.mem_map.mp he
        obtain ⟨hj, hends⟩ := List.mem_filter.mp hj
        rw [hreplies j (Option.mem_toList.mp hj) hends]
        exact fun x hx => List.mem_append_left _ hx
      · rw [← hkept.replyTo_eq]
        exact fun x hx => List.mem_append_right _ (ih₃ e he hx)

/-- What receiving messages adds to the ended transactions. -/
lemma completions_receive (now : UInt64) (remote : Key) (msgs : List Message) (c : Context) :
    (c.step (.receive now remote msgs)).completions = c.completions ++
      (c.ended remote (c.transactionsOf remote) msgs).map (c.completion remote
        (if accepts c.allowTransit (c.transactionsOf remote) msgs then some remote else none)) := by
  obtain ⟨hcompletions, haccepts, -⟩ := handleAll_spec now remote msgs c
  rw [step, handleImmediate]
  split <;> rename_i heq <;> rw [heq] at hcompletions haccepts <;>
    dsimp only at hcompletions haccepts
  · rw [hcompletions, ← haccepts, List.drop_left', List.map_map]
    · rfl
    · rfl
  · rw [hcompletions, ← haccepts]
    rfl

/-- The replies for what the messages end are sent to the peer they came from. -/
lemma sent_receive (now : UInt64) (remote : Key) (msgs : List Message) (c : Context)
    (haccepts : accepts c.allowTransit (c.transactionsOf remote) msgs = true) :
    ∃ sent, (remote, sent) ∈ (c.step (.receive now remote msgs)).sent ∧
      ∀ e ∈ c.ended remote (c.transactionsOf remote) msgs, c.replyTo e.1 e.2 ⊆ sent := by
  obtain ⟨-, haccepts', hreplies⟩ := handleAll_spec now remote msgs c
  rw [step, handleImmediate]
  split <;> rename_i c' replies heq <;> rw [heq] at haccepts' hreplies
  · exact ⟨replies, List.mem_append_right _ (List.mem_singleton.mpr rfl), hreplies⟩
  · rw [haccepts] at haccepts'
    cases haccepts'

end Receive

/-! ### Expiry -/

section Cleanup

variable {now : UInt64} {c : Context}

/-- The end of a transaction that expired. -/
def expiry (j : SearchJob) : Completion :=
  { job := j, answeredBy := none, replies := [], sentTo := none }

lemma completions_cleanup (now : UInt64) (c : Context) :
    (c.step (.cleanup now)).completions = c.completions ++
      (c.pendingTX.entries.filter fun e => e.2.isExpired now).map fun e => expiry e.2 := by
  rw [step, cleanupTX]
  generalize c.pendingTX.entries.filter (fun e => e.2.isExpired now) = l
  induction l generalizing c with
  | nil => simp
  | cons e l ih =>
    rw [List.foldl_cons, ih]
    simp [expiry]

/-- Cleaning up makes no transaction. -/
lemma lookup_cleanup {o : Key × UInt64} {j : SearchJob}
    (h : (c.step (.cleanup now)).pendingTX.lookup o = some j) : c.pendingTX.lookup o = some j := by
  suffices hsub : ∀ o j, (c.cleanupTX now).pendingTX.lookup o = some j →
      c.pendingTX.lookup o = some j from hsub o j h
  refine List.foldlRecOn (motive := fun d : Context => ∀ o j, d.pendingTX.lookup o = some j →
    c.pendingTX.lookup o = some j) _ _ (fun _ _ h => h) fun d hd e _ o j h => ?_
  by_cases heq : o = e.1
  · rw [heq] at h
    simp at h
  · rw [AList.lookup_erase_ne heq] at h
    exact hd o j h

end Cleanup

/-! ### The transaction id of the requester -/

/-- The transactions of relayed lookups hold the id that the requester used, unless it was 0. -/
def Remembers (c : Context) : Prop :=
  ∀ o j, c.pendingTX.lookup o = some j → ∀ t, j.asked = some t → t ≠ 0 → j.requesterTX = t

section Remembers

variable {now : UInt64} {c d : Context}

lemma Remembers.of_lookup (hc : c.Remembers)
    (h : ∀ o j, d.pendingTX.lookup o = some j → c.pendingTX.lookup o = some j) : d.Remembers :=
  fun o j hj => hc o j (h o j hj)

lemma Remembers.erase (hc : c.Remembers) (o : Key × UInt64)
    (h : d.pendingTX = c.pendingTX.erase o) : d.Remembers := by
  refine hc.of_lookup fun o' j hj => ?_
  rw [h] at hj
  by_cases heq : o' = o
  · rw [heq, AList.lookup_erase] at hj
    cases hj
  · rwa [AList.lookup_erase_ne heq] at hj

lemma Remembers.lookupRouter (hc : c.Remembers) (target who : Key) {txid : UInt64} (peer : Key)
    (job : Option LookupJob) (it : Bool) (ex : Finset Key) {asked : Option UInt64}
    (h : ∀ t, asked = some t → t ≠ 0 → txid = t) :
    (c.lookupRouter now target who txid peer job it ex asked).Remembers := by
  unfold Context.lookupRouter
  split
  · exact hc
  · intro o j hj
    by_cases heq : o = (peer, c.ids + 1)
    · dsimp only at hj
      rw [heq, AList.lookup_insert, Option.some.injEq] at hj
      subst hj
      intro t ht hne
      rw [h t ht hne]
      exact if_neg hne
    · refine hc o j ?_
      rwa [AList.lookup_insert_ne heq] at hj

lemma Remembers.handleMessage (hc : c.Remembers) (msg : Message) :
    (c.handleMessage now msg).1.Remembers := by
  cases msg with
  | findRouter m =>
    simp only [Context.handleMessage, handleFindRouter]
    split_ifs
    · exact hc
    · exact hc
    · obtain ⟨R, h⟩ | ⟨-, -, next, -, h⟩ :=
        c.lookupRouterRelayed_cases now m.From m.txid m.K (!m.iterative)
      · rw [h]
        exact hc
      · rw [h]
        have hlog : Remembers { c with forwards := c.forwards ++
          [⟨c.ourKey, m.From, m.K, false, m.txid, c.ids + 1, next⟩] } := hc
        exact hlog.lookupRouter _ _ _ _ _ _ fun t ht _ => Option.some.inj ht
  | gotRouter m =>
    rw [Context.handleMessage]
    obtain ⟨-, h⟩ | ⟨j, hj, ⟨-, h⟩ | ⟨-, next, -, h⟩⟩ := c.handleGotRouter_cases now m
    · rw [h]
      exact hc
    · rw [h]
      exact hc.erase (m.From, m.txid) (by simp [finish])
    · rw [h]
      -- the new transaction takes over the id of the one it replaces
      exact (hc.lookupRouter j.target j.requester next none true (insert m.From j.exclude)
        (hc _ j hj)).erase (m.From, m.txid) rfl

lemma Remembers.handleAll (now : UInt64) (msgs : List Message) (hc : c.Remembers) :
    (c.handleAll now msgs).1.Remembers := by
  induction msgs generalizing c with
  | nil => exact hc
  | cons msg rest ih => exact ih (hc.handleMessage msg)

lemma remembers_step (i : Input) (hc : c.Remembers) : (c.step i).Remembers := by
  cases i with
  | receive now remote msgs =>
    have hall := hc.handleAll now (msgs.map (Message.received remote))
    rw [step, handleImmediate]
    split <;> rename_i heq <;> rw [heq] at hall <;> exact hall
  | lookup now job peer =>
    rw [step, lookupRouterViaJob]
    split
    · exact hc.lookupRouter _ _ _ _ _ _ fun t ht => by cases ht
    · split_ifs <;> exact hc
  | cleanup now => exact hc.of_lookup fun _ _ => lookup_cleanup
  | putPeer rc => exact hc
  | removePeer id => exact hc
  | transit allow => exact hc
  | contact rc => exact hc

end Remembers

/-! ### Runs in which the requesters are answered -/

section Runs

variable {c : Context} {k : Completion} {t : UInt64}

lemma Answered.mono {d : Context} (h : c.Answered k t) (hsub : c.sent ⊆ d.sent) :
    d.Answered k t := by
  obtain ⟨m, msgs, hreplies, htarget, htxid, hto, hsent, hmem⟩ := h
  exact ⟨m, msgs, hreplies, htarget, htxid, hto, hsub hsent, hmem⟩

/-- What a call adds to the ended transactions decides whether all of them are answered. -/
lemma allAnswered_append {d : Context} {l : List Completion} (hc : c.AllAnswered)
    (hsub : c.sent ⊆ d.sent) (h : d.completions = c.completions ++ l) :
    d.AllAnswered ↔ ∀ k ∈ l, ∀ t, k.job.asked = some t → d.Answered k t := by
  constructor
  · intro hd k hk
    exact hd k (h ▸ List.mem_append_right _ hk)
  · intro hl k hk t ht
    rcases List.mem_append.mp (h ▸ hk) with hk | hk
    · exact (hc k hk t ht).mono hsub
    · exact hl k hk t ht

/-- The end of a transaction by messages from `remote` is an answer to the requester exactly when
the requester is `remote` itself, and so on. -/
lemma answered_receive_iff (now : UInt64) (remote : Key) (msgs : List Message)
    (hc : c.Remembers) {e : SearchJob × Option RouterContact}
    (he : e ∈ c.ended remote (c.transactionsOf remote) msgs)
    (hpending : ∃ o, c.pendingTX.lookup o = some e.1) (ht : e.1.asked = some t) :
    (c.step (.receive now remote msgs)).Answered (c.completion remote
        (if accepts c.allowTransit (c.transactionsOf remote) msgs then some remote else none) e) t ↔
      e.1.requester = remote ∧ remote ≠ c.ourKey ∧ (t ≠ 0 ∨ e.1.requesterTX = 0) ∧
        accepts c.allowTransit (c.transactionsOf remote) msgs = true := by
  obtain ⟨o, ho⟩ := hpending
  constructor
  · rintro ⟨m, sent, hreplies, -, htxid, hto, -, -⟩
    have haccepts : accepts c.allowTransit (c.transactionsOf remote) msgs = true := by
      by_contra hno
      simp [completion, hno] at hto
    have hreq : e.1.requester = remote := by
      simpa [completion, haccepts] using hto.symm
    have hne : e.1.requester ≠ c.ourKey := by
      intro heq
      simp [completion, replyTo, heq] at hreplies
    have hm : e.1.requesterTX = t := by
      simp only [completion, replyTo, if_pos hne, List.cons.injEq,
        Message.gotRouter.injEq] at hreplies
      rw [← htxid, ← hreplies.1]
    refine ⟨hreq, hreq ▸ hne, ?_, haccepts⟩
    rw [hm, or_comm]
    exact em (t = 0)
  · rintro ⟨hreq, hne, htx, haccepts⟩
    have hm : e.1.requesterTX = t := by
      by_cases h0 : t = 0
      · rw [h0]
        exact htx.resolve_left (not_not.mpr h0)
      · exact hc o e.1 ho t ht h0
    obtain ⟨sent, hsent, hreplies⟩ := sent_receive now remote msgs c haccepts
    have hreply : c.replyTo e.1 e.2 =
        [.gotRouter { From := e.1.target, txid := e.1.requesterTX, R := e.2.toList }] := by
      rw [replyTo, if_pos (hreq ▸ hne)]
    refine ⟨_, sent, hreply, rfl, hm, ?_, hreq ▸ hsent, ?_⟩
    · simp [completion, haccepts, hreq]
    · exact hreplies e he (by rw [hreply]; exact List.mem_singleton.mpr rfl)

/-- What ends was pending. -/
lemma pending_of_mem_ended {remote : Key} {p : UInt64 → Option SearchJob} {msgs : List Message}
    {e : SearchJob × Option RouterContact} (h : e ∈ c.ended remote p msgs) :
    ∃ t, p t = some e.1 := by
  induction msgs generalizing p with
  | nil => cases h
  | cons msg rest ih =>
    cases msg with
    | findRouter m => exact ih h
    | gotRouter m =>
      rcases List.mem_append.mp h with h | h
      · obtain ⟨j, hj, rfl⟩ := List.mem_map.mp h
        exact ⟨m.txid, Option.mem_toList.mp (List.mem_filter.mp hj).1⟩
      · obtain ⟨t, ht⟩ := ih h
        rw [Function.update_apply] at ht
        split_ifs at ht
        exact ⟨t, ht⟩

/-- A call answers all relayed lookups that it ends exactly when it serves the requesters. -/
lemma allAnswered_step_iff (hc : c.Remembers) (hall : c.AllAnswered) (i : Input) :
    (c.step i).AllAnswered ↔ c.ServesRequester i := by
  have hsub := (c.kept_step i).2
  cases i with
  | receive now remote msgs =>
    rw [allAnswered_append hall hsub (completions_receive now remote msgs c), List.forall_mem_map,
      ServesRequester]
    refine forall₂_congr fun e he => forall₂_congr fun t ht => ?_
    obtain ⟨t', ht'⟩ := pending_of_mem_ended he
    exact answered_receive_iff now remote msgs hc he ⟨(remote, t'), ht'⟩ ht
  | cleanup now =>
    rw [allAnswered_append hall hsub (completions_cleanup now c), List.forall_mem_map,
      ServesRequester]
    constructor
    · intro h o j hj hexpired
      by_contra hasked
      obtain ⟨t, ht⟩ := Option.ne_none_iff_exists'.mp hasked
      have hmem : ⟨o, j⟩ ∈ c.pendingTX.entries := AList.mem_lookup_iff.mp hj
      obtain ⟨m, msgs, hreplies, -⟩ := h ⟨o, j⟩ (List.mem_filter.mpr ⟨hmem, hexpired⟩) t ht
      cases hreplies
    · rintro h ⟨o, j⟩ he t ht
      obtain ⟨hmem, hexpired⟩ := List.mem_filter.mp he
      have hnone := h o j (AList.mem_lookup_iff.mpr hmem) hexpired
      exact absurd (hnone.symm.trans ht) (by simp)
  | lookup now job peer =>
    refine iff_of_true ?_ trivial
    refine (allAnswered_append (l := []) hall hsub ?_).mpr (by simp)
    rw [step, lookupRouterViaJob]
    split
    · simp
    · split_ifs <;> simp
  | putPeer rc => exact iff_of_true hall trivial
  | removePeer id => exact iff_of_true hall trivial
  | transit allow => exact iff_of_true hall trivial
  | contact rc => exact iff_of_true hall trivial

lemma remembers_of_reachable {C : Context → Input → Prop} (h : ReachableIf C c) : c.Remembers := by
  obtain ⟨c₀, hinit, hrun⟩ := h
  induction hrun with
  | refl =>
    intro o j hj
    rw [hinit.1] at hj
    simp at hj
  | tail _ hstep ih =>
    obtain ⟨i, -, rfl⟩ := hstep
    exact remembers_step i ih

/-- In the runs whose calls all serve the requesters, every relayed lookup that ended was answered
to whoever asked. From any other state in which all were answered, a call that does not serve the
requesters leaves one without its answer. -/
theorem relayed_lookup_answered (c : Context) :
    (ReachableIf ServesRequester c → c.AllAnswered) ∧
    ∀ i : Input, c.Reachable → c.AllAnswered →
      ((c.step i).AllAnswered ↔ c.ServesRequester i) := by
  refine ⟨fun h => ?_, fun i h hall => ?_⟩
  · obtain ⟨c₀, hinit, hrun⟩ := h
    induction hrun with
    | refl =>
      intro k hk
      rw [hinit.2.2] at hk
      cases hk
    | tail hrun hstep ih =>
      obtain ⟨i, hserves, rfl⟩ := hstep
      exact (allAnswered_step_iff (remembers_of_reachable ⟨c₀, hinit, hrun⟩) ih i).mpr hserves
  · exact allAnswered_step_iff (remembers_of_reachable h) hall i

/-- The router 5 knows the routers 3 and 9. -/
def relayRouter : Context :=
  { ourKey := lastByte 5, rc := { pubkey := lastByte 5 }, allowTransit := true, ids := 0
    nodes := ⟨lastByte 5,
      [(lastByte 3, { pubkey := lastByte 3 }), (lastByte 9, { pubkey := lastByte 9 })]⟩ }

/-- The router 9 asks for the router 1. -/
def relayRequest : Input :=
  .receive 0 (lastByte 9) [.findRouter { From := lastByte 5, K := lastByte 1, txid := 7 }]

/-- The router 3, which is asked, does not know it. -/
def relayNotFound : Input := .receive 0 (lastByte 3) [.gotRouter { From := lastByte 9, txid := 1 }]

/-- The answer of the router `b`. -/
def relayFound (b : UInt8) (t : UInt64) : Input :=
  .receive 0 (lastByte b)
    [.gotRouter { From := lastByte 9, R := [{ pubkey := lastByte 1 }], txid := t }]

lemma relayRouter_initial : relayRouter.Initial := ⟨rfl, rfl, rfl⟩

/-- The requester is asked itself, and finds the router. -/
def turnedBack : Context :=
  ((relayRouter.step relayRequest).step relayNotFound).step (relayFound 9 2)

lemma servesRequester_receive {now : UInt64} {remote : Key} {msgs : List Message}
    (h : ∀ e ∈ c.ended remote (c.transactionsOf remote) msgs, e.1.requester = remote ∧
      remote ≠ c.ourKey ∧ e.1.asked ≠ some 0 ∧
      accepts c.allowTransit (c.transactionsOf remote) msgs = true) :
    c.ServesRequester (.receive now remote msgs) := by
  intro e he t ht
  obtain ⟨hreq, hne, hzero, haccepts⟩ := h e he
  refine ⟨hreq, hne, .inl fun h0 => hzero ?_, haccepts⟩
  rw [ht, h0]

lemma turnedBack_reachable : ReachableIf ServesRequester turnedBack := by
  refine ⟨relayRouter, relayRouter_initial, .tail (.tail (.tail .refl ⟨relayRequest, ?_, rfl⟩)
    ⟨relayNotFound, ?_, rfl⟩) ⟨relayFound 9 2, ?_, rfl⟩⟩
  · exact servesRequester_receive (by decide +kernel)
  · exact servesRequester_receive (by decide +kernel)
  · exact servesRequester_receive (by decide +kernel)

theorem relayed_lookup_answered_turnedBack :
    turnedBack.completions.length = 1 ∧ turnedBack.AllAnswered :=
  ⟨by decide +kernel, (relayed_lookup_answered turnedBack).1 turnedBack_reachable⟩

/-- The router 3 finds the router 1, and the answer for 9 is sent to 3. -/
theorem answer_sent_to_peer :
    ¬ ∀ c : Context, c.Reachable → c.AllAnswered := by
  intro h
  have hreach : Reachable ((relayRouter.step relayRequest).step (relayFound 3 1)) :=
    ⟨relayRouter, relayRouter_initial, .tail (.tail .refl ⟨relayRequest, trivial, rfl⟩)
      ⟨relayFound 3 1, trivial, rfl⟩⟩
  have hwrong : ∃ k ∈ ((relayRouter.step relayRequest).step (relayFound 3 1)).completions,
      k.job.asked = some 7 ∧ k.sentTo ≠ some k.job.requester := by
    decide +kernel
  obtain ⟨k, hk, hasked, hto⟩ := hwrong
  obtain ⟨m, msgs, -, -, -, hto', -⟩ := h _ hreach k hk 7 hasked
  exact hto hto'

end Runs

end Context

end Udap.Dht
