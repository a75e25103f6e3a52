import Udap.Dht.Relay
import Mathlib.Order.OrderIsoNat
import Mathlib.Data.Finset.Card

/-!
The DHT traffic between two routers that are left alone.

Handling a `DHTImmeidateMessage` whose messages are all accepted sends one back, also when there is
nothing to reply: an empty list is accepted by the other end, which sends an empty list back, and so
on. The traffic ends exactly when this never starts.

* `weight_receive`: a delivery uses up requests and transactions, and makes none between the two.
* `deliveries_finite`: deliveries that are refused or that make a reply (`Settles`) come to an end,
  and otherwise there is an endless sequence of them.
-/

namespace Udap.Dht

namespace Context

/-- Whether `LookupRouterRelayed` answers the request at once, by what we know. -/
def answersAtOnce (c : Context) (remote : Key) (m : FindRouterMessage) : Bool :=
  m.K = c.ourKey ||
    match c.nodes.findCloseExcluding m.K {remote, c.ourKey} with
    | some next => next = m.K || m.iterative ||
        ltKey (xorKey remote m.K) (xorKey c.ourKey m.K)
    | none => true

/-- There is something to reply to messages from `remote` that are all accepted: to a request that
is answered at once, or to an answer that ends the lookup of another router. -/
def Replies (c : Context) (remote : Key) (p : UInt64 → Option SearchJob) (msgs : List Message) :
    Prop :=
  (∃ m, .findRouter m ∈ msgs ∧ c.answersAtOnce remote m = true) ∨
    ∃ e ∈ c.ended remote p msgs, e.1.requester ≠ c.ourKey

/-- A message from `remote` is refused, or there is something to reply. -/
def Settles (c : Context) (remote : Key) (msgs : List Message) : Prop :=
  accepts c.allowTransit (c.transactionsOf remote) msgs = false ∨
    c.Replies remote (c.transactionsOf remote) msgs

/-- The number of requests among messages. -/
def requests (msgs : List Message) : ℕ :=
  msgs.countP fun msg => match msg with
    | .findRouter _ => true
    | .gotRouter _ => false

lemma requests_append (a b : List Message) : requests (a ++ b) = requests a + requests b :=
  List.countP_append

lemma requests_findRouter (m : FindRouterMessage) (rest : List Message) :
    requests (.findRouter m :: rest) = requests rest + 1 := by
  simp [requests]

lemma requests_gotRouter (m : GotRouterMessage) (rest : List Message) :
    requests (.gotRouter m :: rest) = requests rest := by
  simp [requests]

/-- What is on the way to a router. -/
def onWay (c : Context) (k : Key) : List (List Message) :=
  (c.sent.filter fun s => s.1 = k).map Prod.snd

/-- What was sent is not on the way any more. -/
def arrive (c : Context) (s : Key × List Message) : Context := { c with sent := c.sent.erase s }

/-- The transactions with a peer. -/
def owned (c : Context) (remote : Key) : Finset (Key × UInt64) :=
  c.pendingTX.keys.toFinset.filter fun o => o.1 = remote

/-! ### Transactions -/

section Owned

variable {c d : Context} {remote : Key}

lemma owned_insert {o : Key × UInt64} {j : SearchJob} (h : d.pendingTX = c.pendingTX.insert o j)
    (hne : o.1 ≠ remote) : d.owned remote = c.owned remote := by
  ext o'
  simp only [owned, h, Finset.mem_filter, List.mem_toFinset, ← AList.mem_keys, AList.mem_insert]
  constructor
  · rintro ⟨rfl | ho, hr⟩
    · exact absurd hr hne
    · exact ⟨ho, hr⟩
  · rintro ⟨ho, hr⟩
    exact ⟨.inr ho, hr⟩

lemma owned_erase {t : UInt64} (h : d.pendingTX = c.pendingTX.erase (remote, t)) :
    d.owned remote = (c.owned remote).erase (remote, t) := by
  ext o'
  simp only [owned, h, Finset.mem_filter, List.mem_toFinset, ← AList.mem_keys, AList.mem_erase,
    Finset.mem_erase]
  tauto

end Owned

/-! ### One message -/

section Handlers

variable (now : UInt64) (c : Context) (remote : Key)

lemma onWay_lookupRouter (target who : Key) (t : UInt64) (peer : Key) (job : Option LookupJob)
    (it : Bool) (ex : Finset Key) (asked : Option UInt64) {remote : Key} (hne : peer ≠ remote) :
    (c.lookupRouter now target who t peer job it ex asked).onWay remote = c.onWay remote ∧
      (c.lookupRouter now target who t peer job it ex asked).owned remote = c.owned remote := by
  unfold lookupRouter
  split
  · exact ⟨rfl, rfl⟩
  · exact ⟨by simp [onWay, hne], owned_insert rfl hne⟩

lemma answersAtOnce_iff (m : FindRouterMessage) :
    c.answersAtOnce remote m = true ↔
      (c.lookupRouterRelayed now remote m.txid m.K (!m.iterative)).2 ≠ [] := by
  unfold answersAtOnce lookupRouterRelayed
  by_cases htarget : m.K = c.ourKey
  · simp [htarget]
  · rw [if_neg htarget]
    cases hnext : c.nodes.findCloseExcluding m.K {remote, c.ourKey} with
    | none => simp
    | some next =>
      by_cases heq : next = m.K
      · simp [heq]
      · cases m.iterative <;> by_cases hlt : ltKey (xorKey remote m.K) (xorKey c.ourKey m.K) <;>
          simp [heq, hlt, htarget]

/-- A request makes nothing for the router it came from but the reply. -/
lemma onWay_findRouter (m : FindRouterMessage) :
    let r := c.handleMessage now (.findRouter { m with From := remote })
    r.1.onWay remote = c.onWay remote ∧ r.1.owned remote = c.owned remote ∧
      requests r.2.2 = 0 ∧ (r.2.1 = true → (r.2.2 = [] ↔ c.answersAtOnce remote m = false)) := by
  have hiff := c.answersAtOnce_iff now remote m
  simp only [handleMessage, handleFindRouter]
  split_ifs
  · simp [requests]
  · simp [requests]
  · obtain ⟨R, h⟩ | ⟨-, -, next, hnext, h⟩ :=
      c.lookupRouterRelayed_cases now remote m.txid m.K (!m.iterative)
    · rw [h] at hiff ⊢
      simp [requests, hiff.mpr (by simp)]
    · rw [h] at hiff ⊢
      have hne : next ≠ remote := fun heq => hnext (by simp [heq])
      obtain ⟨hway, howned⟩ := onWay_lookupRouter now { c with forwards := c.forwards ++
        [⟨c.ourKey, remote, m.K, false, m.txid, c.ids + 1, next⟩] } m.K remote m.txid next none
        false ∅ (some m.txid) hne
      refine ⟨hway, howned, rfl, fun _ => iff_of_true rfl ?_⟩
      simpa using hiff

/-- An answer that is accepted uses up a transaction, and makes nothing for the router it came from
but the reply. -/
lemma onWay_gotRouter (m : GotRouterMessage) :
    let r := c.handleMessage now (.gotRouter { m with From := remote })
    r.1.onWay remote = c.onWay remote ∧ r.1.owned remote = (c.owned remote).erase (remote, m.txid) ∧
      requests r.2.2 = 0 ∧ (r.2.1 = true → (remote, m.txid) ∈ c.owned remote) ∧
      (r.2.2 = [] ↔ ∀ j, c.transactionsOf remote m.txid = some j → c.ends remote j m = true →
        j.requester = c.ourKey) := by
  have howned : (c.transactionsOf remote m.txid).isSome ↔ (remote, m.txid) ∈ c.owned remote := by
    simp [owned, transactionsOf, AList.lookup_isSome, AList.mem_keys]
  obtain ⟨hnone, h⟩ | ⟨j, hj, ⟨hends, h⟩ | ⟨hR, next, hnext, h⟩⟩ :=
    c.handleGotRouter_cases now { m with From := remote }
  all_goals rw [← handleMessage] at h
  · have hnone : c.transactionsOf remote m.txid = none := hnone
    rw [h]
    refine ⟨rfl, ?_, rfl, by simp, iff_of_true rfl (by simp [hnone])⟩
    rw [Finset.erase_eq_of_notMem]
    rw [← howned, hnone]
    simp
  · have hj : c.transactionsOf remote m.txid = some j := hj
    have hends : c.ends remote j m = true := by simpa [ends] using hends
    rw [h]
    refine ⟨by simp [onWay, finish], owned_erase (by simp [finish]), ?_, fun _ => ?_, ?_⟩
    · dsimp only [replyTo]
      split_ifs <;> rfl
    · rw [← howned, hj]
      rfl
    · simp [replyTo, hj, hends]
  · have hj : c.transactionsOf remote m.txid = some j := hj
    have hends : c.ends remote j m = false := by
      have hR : m.R = [] := hR
      have hnext : c.nextPeer j remote = some next := hnext
      simp [ends, hR, hnext]
    -- the next peer is asked, never the one that just answered
    have hne : next ≠ remote := by
      rintro rfl
      exact nextPeer_ne c hnext
    obtain ⟨hway, howned'⟩ := onWay_lookupRouter now c j.target j.requester j.requesterTX next none
      true (insert remote j.exclude) j.asked hne
    rw [h]
    refine ⟨hway, ?_, rfl, fun _ => ?_, iff_of_true rfl (by simp [hj, hends])⟩
    · rw [← howned']
      exact owned_erase rfl
    · rw [← howned, hj]
      rfl

end Handlers

/-! ### The messages of one peer -/

section Receive

variable {c d : Context} {remote : Key}

lemma Kept.answersAtOnce_eq (h : Kept c d) (m : FindRouterMessage) :
    d.answersAtOnce remote m = c.answersAtOnce remote m := by
  rw [answersAtOnce, answersAtOnce, h.ourKey, h.nodes]

lemma Kept.replies_iff (h : Kept c d) (p : UInt64 → Option SearchJob) (msgs : List Message) :
    d.Replies remote p msgs ↔ c.Replies remote p msgs := by
  simp only [Replies, h.answersAtOnce_eq, h.ended_eq, h.ourKey]

lemma replies_findRouter (p : UInt64 → Option SearchJob) (m : FindRouterMessage)
    (rest : List Message) :
    c.Replies remote p (.findRouter m :: rest) ↔
      c.answersAtOnce remote m = true ∨ c.Replies remote p rest := by
  simp only [Replies, ended, List.mem_cons, Message.findRouter.injEq]
  constructor
  · rintro (⟨m', rfl | hm, hans⟩ | h)
    · exact .inl hans
    · exact .inr (.inl ⟨m', hm, hans⟩)
    · exact .inr (.inr h)
  · rintro (h | ⟨m', hm, hans⟩ | h)
    · exact .inl ⟨m, .inl rfl, h⟩
    · exact .inl ⟨m', .inr hm, hans⟩
    · exact .inr h

lemma replies_gotRouter (p : UInt64 → Option SearchJob) (m : GotRouterMessage)
    (rest : List Message) :
    c.Replies remote p (.gotRouter m :: rest) ↔
      (∃ j, p m.txid = some j ∧ c.ends remote j m = true ∧ j.requester ≠ c.ourKey) ∨
        c.Replies remote (Function.update p m.txid none) rest := by
  simp only [Replies, ended, List.mem_append, List.mem_cons, reduceCtorEq, false_or]
  constructor
  · rintro (h | ⟨e, he | he, hne⟩)
    · exact .inr (.inl h)
    · obtain ⟨j, hj, rfl⟩ := List.mem_map.mp he
      obtain ⟨hj, hends⟩ := List.mem_filter.mp hj
      exact .inl ⟨j, Option.mem_toList.mp hj, hends, hne⟩
    · exact .inr (.inr ⟨e, he, hne⟩)
  · rintro (⟨j, hj, hends, hne⟩ | h | ⟨e, he, hne⟩)
    · refine .inr ⟨(j, m.R.head?), .inl (List.mem_map.mpr ⟨j, ?_, rfl⟩), hne⟩
      exact List.mem_filter.mpr ⟨Option.mem_toList.mpr hj, hends⟩
    · exact .inl h
    · exact .inr ⟨e, .inr he, hne⟩

/-- What messages of one peer use up, and when there is nothing to reply to them. -/
lemma onWay_handleAll (now : UInt64) (remote : Key) (msgs : List Message) (c : Context) :
    let r := c.handleAll now (msgs.map (Message.received remote))
    r.1.onWay remote = c.onWay remote ∧ requests r.2.2 = 0 ∧
      (r.1.owned remote).card ≤ (c.owned remote).card ∧
      (r.2.1 = true →
        (r.1.owned remote).card + msgs.length ≤ (c.owned remote).card + requests msgs ∧
        (r.2.2 = [] ↔ ¬ c.Replies remote (c.transactionsOf remote) msgs)) := by
  induction msgs generalizing c with
  | nil => simp [handleAll, requests, Replies, ended]
  | cons msg rest ih =>
    have hkept := kept_handleMessage now c (msg.received remote)
    cases msg with
    | findRouter m =>
      obtain ⟨replies, d, h, -, htransactions⟩ := handleMessage_findRouter now c remote m
      obtain ⟨hway, howned, hreq, hreplies⟩ := onWay_findRouter now c remote m
      rw [h] at hway howned hreq hreplies
      simp only [Message.received, h] at hkept
      obtain ⟨ih₁, ih₂, ih₃, ih₄⟩ := ih d
      rw [htransactions, hkept.replies_iff] at ih₄
      rw [howned] at ih₃ ih₄
      simp only [List.map_cons, Message.received, handleAll, h, Bool.and_eq_true]
      refine ⟨ih₁.trans hway, ?_, ih₃, ?_⟩
      · rw [requests_append, hreq, ih₂]
      · rintro ⟨hfirst, hrest⟩
        obtain ⟨hcard, hnil⟩ := ih₄ hrest
        refine ⟨?_, ?_⟩
        · rw [requests_findRouter, List.length_cons]
          omega
        · rw [List.append_eq_nil_iff, hnil, hreplies (by simpa using hfirst), replies_findRouter,
            not_or, Bool.not_eq_true]
    | gotRouter m =>
      obtain ⟨replies, d, h, -, htransactions, -⟩ := handleMessage_gotRouter now c remote m
      obtain ⟨hway, howned, hreq, hmem, hreplies⟩ := onWay_gotRouter now c remote m
      rw [h] at hway howned hreq hmem hreplies
      simp only [Message.received, h] at hkept
      obtain ⟨ih₁, ih₂, ih₃, ih₄⟩ := ih d
      rw [htransactions, hkept.replies_iff] at ih₄
      rw [howned] at ih₃ ih₄
      simp only [List.map_cons, Message.received, handleAll, h, Bool.and_eq_true]
      refine ⟨ih₁.trans hway, ?_, ih₃.trans (Finset.card_erase_le), ?_⟩
      · rw [requests_append, hreq, ih₂]
      · rintro ⟨hfirst, hrest⟩
        obtain ⟨hcard, hnil⟩ := ih₄ hrest
        refine ⟨?_, ?_⟩
        · have herase := Finset.card_erase_add_one (hmem hfirst)
          rw [requests_gotRouter, List.length_cons]
          omega
        · rw [List.append_eq_nil_iff, hnil, hreplies, replies_gotRouter, not_or]
          simp only [not_exists, not_and, not_not]

end Receive

end Context

/-! ### Two routers -/

/-- Two connected routers that allow transit. What one has sent to the other and was not delivered
yet is on the way; what they send to others goes elsewhere. -/
structure Pair where
  ends : Bool → Context
  ne : (ends true).ourKey ≠ (ends false).ourKey
  transit (p : Bool) : (ends p).allowTransit = true

namespace Pair

/-- The key of an end. -/
def key (s : Pair) (p : Bool) : Key := (s.ends p).ourKey

lemma key_ne (s : Pair) (p : Bool) : s.key (!p) ≠ s.key p := by
  cases p
  · exact s.ne
  · exact s.ne.symm

/-- A message on the way to the end `p` that meets `C` is delivered. -/
def DeliverIf (C : Context → Key → List Message → Prop) (s s' : Pair) : Prop :=
  ∃ (p : Bool) (now : UInt64) (msgs : List Message), (s.key p, msgs) ∈ (s.ends !p).sent ∧
    C (s.ends p) (s.key !p) msgs ∧
    s'.ends p = (s.ends p).step (.receive now (s.key !p) msgs) ∧
    s'.ends (!p) = (s.ends !p).arrive (s.key p, msgs)

def Deliver : Pair → Pair → Prop := DeliverIf fun _ _ _ => True

/-- Every sequence of deliveries is finite. -/
def Quiesces (s : Pair) : Prop :=
  ¬ ∃ f : ℕ → Pair, f 0 = s ∧ ∀ i, Deliver (f i) (f (i + 1))

/-- Every message on the way is refused or makes a reply. -/
def Settled (s : Pair) : Prop :=
  ∀ p msgs, (s.key p, msgs) ∈ (s.ends !p).sent → (s.ends p).Settles (s.key !p) msgs

end Pair

/-- What an end has left to do with the router `k`: the messages on the way, the requests in them,
and the transactions. -/
def Context.weight (c : Context) (k : Key) : ℕ :=
  (c.onWay k).length + ((c.onWay k).map Context.requests).sum + (c.owned k).card

namespace Context

variable {c : Context} {k : Key} {msgs : List Message}

/-- A message that is taken from the way takes its weight with it. -/
lemma weight_erase (h : (k, msgs) ∈ c.sent) :
    (c.arrive (k, msgs)).weight k + 1 + requests msgs = c.weight k := by
  have hperm : (c.onWay k).Perm (msgs :: (c.arrive (k, msgs)).onWay k) := by
    have hfilter := (List.perm_cons_erase h).filter fun s => s.1 = k
    rw [List.filter_cons_of_pos (by simp)] at hfilter
    exact hfilter.map Prod.snd
  have hlen := hperm.length_eq
  have hsum := (hperm.map requests).sum_eq
  rw [List.length_cons] at hlen
  rw [List.map_cons, List.sum_cons] at hsum
  have howned : (c.arrive (k, msgs)).owned k = c.owned k := rfl
  rw [weight, weight, howned]
  omega

lemma not_replies_nil {remote : Key} (p : UInt64 → Option SearchJob) : ¬ c.Replies remote p [] := by
  simp [Replies, ended]

/-- A delivery that settles leaves less to do. -/
lemma weight_receive (now : UInt64) {remote : Key} (hsettles : c.Settles remote msgs) :
    (c.step (.receive now remote msgs)).weight remote < c.weight remote + 1 + requests msgs := by
  obtain ⟨-, haccepts, -⟩ := handleAll_spec now remote msgs c
  obtain ⟨hway, hreq, howned, hall⟩ := onWay_handleAll now remote msgs c
  rw [step, handleImmediate]
  split <;> rename_i c' replies heq <;> rw [heq] at haccepts hway hreq howned hall
  · obtain ⟨hcard, hnil⟩ := hall rfl
    have hmsgs : msgs.length ≠ 0 := by
      intro h0
      rw [List.length_eq_zero_iff] at h0
      rcases hsettles with hno | hyes
      · rw [← haccepts] at hno
        cases hno
      · rw [h0] at hyes
        exact not_replies_nil _ hyes
    have hway' : onWay { c' with
        sent := c'.sent ++ [(remote, replies)]
        completions := c.completions ++ (c'.completions.drop c.completions.length).map
          fun k => { k with sentTo := some remote } } remote = c.onWay remote ++ [replies] := by
      rw [← hway]
      simp [onWay]
    have howned' : owned { c' with
        sent := c'.sent ++ [(remote, replies)]
        completions := c.completions ++ (c'.completions.drop c.completions.length).map
          fun k => { k with sentTo := some remote } } remote = c'.owned remote := rfl
    rw [weight, weight, hway', howned']
    simp only [List.length_append, List.map_append, List.sum_append, List.length_singleton,
      List.map_singleton, List.sum_singleton]
    dsimp only at hcard hreq
    omega
  · dsimp only at howned hway
    rw [weight, weight, hway]
    omega

end Context

namespace Pair

variable {s s' : Pair}

/-- What is left to do for the two ends. -/
def weight (s : Pair) : ℕ := (s.ends true).weight (s.key false) + (s.ends false).weight (s.key true)

lemma weight_eq (s : Pair) (p : Bool) :
    s.weight = (s.ends p).weight (s.key !p) + (s.ends !p).weight (s.key p) := by
  cases p
  · exact Nat.add_comm _ _
  · rfl

lemma key_eq_of_deliverIf {C : Context → Key → List Message → Prop} (h : DeliverIf C s s')
    (q : Bool) :
    s'.key q = s.key q := by
  obtain ⟨p, now, msgs, -, -, hp, hp'⟩ := h
  rcases Bool.eq_or_eq_not q p with rfl | rfl
  · rw [key, hp]
    exact (Context.kept_step _ _).1
  · rw [key, hp']
    rfl

/-- Deliveries that settle come to an end. -/
lemma weight_lt_of_deliverIf (h : DeliverIf Context.Settles s s') : s'.weight < s.weight := by
  have hkey := key_eq_of_deliverIf h
  obtain ⟨p, now, msgs, hmem, hsettles, hp, hp'⟩ := h
  have herase := Context.weight_erase hmem
  have hreceive := Context.weight_receive now hsettles
  rw [s'.weight_eq p, s.weight_eq p, hkey, hkey, hp, hp']
  omega

/-- A message on the way can be delivered. -/
lemma exists_deliverIf {C : Context → Key → List Message → Prop} {p : Bool} {msgs : List Message}
    (hmem : (s.key p, msgs) ∈ (s.ends !p).sent) (hC : C (s.ends p) (s.key !p) msgs) :
    ∃ s' : Pair, DeliverIf C s s' ∧ s'.ends p = (s.ends p).step (.receive 0 (s.key !p) msgs) := by
  have hkept := Context.kept_handleImmediate 0 (s.ends p) (s.key !p)
    (msgs.map (Message.received (s.key !p)))
  let ends : Bool → Context := fun q => if q = p then (s.ends p).step (.receive 0 (s.key !p) msgs)
    else (s.ends !p).arrive (s.key p, msgs)
  have hp : ends p = (s.ends p).step (.receive 0 (s.key !p) msgs) := if_pos rfl
  have hp' : ends (!p) = (s.ends !p).arrive (s.key p, msgs) :=
    if_neg (by simp)
  have hkey : ∀ q, (ends q).ourKey = s.key q := by
    intro q
    rcases Bool.eq_or_eq_not q p with rfl | rfl
    · rw [hp]
      exact hkept.ourKey
    · rw [hp']
      rfl
  have htransit : ∀ q, (ends q).allowTransit = true := by
    intro q
    rcases Bool.eq_or_eq_not q p with rfl | rfl
    · rw [hp]
      exact hkept.allowTransit.trans (s.transit q)
    · rw [hp']
      exact s.transit (!p)
  refine ⟨⟨ends, ?_, htransit⟩, ⟨p, 0, msgs, hmem, hC, hp, hp'⟩, hp⟩
  rw [hkey, hkey]
  exact s.ne

/-- An empty list is sent back and forth forever. -/
lemma not_acc_of_empty (p : Bool) (hmem : (s.key p, []) ∈ (s.ends !p).sent) :
    ¬ Acc (fun s' s => Deliver s s') s := by
  intro hacc
  induction hacc generalizing p with
  | intro s _ ih =>
    obtain ⟨s', hdeliver, hp⟩ := exists_deliverIf (C := fun _ _ _ => True) hmem trivial
    refine ih s' hdeliver (!p) ?_ 
    rw [key_eq_of_deliverIf hdeliver, Bool.not_not, hp]
    exact List.mem_append_right _ (List.mem_singleton.mpr rfl)

/-- A delivery that does not settle sends an empty list. -/
lemma not_acc_of_not_settles (p : Bool) (msgs : List Message)
    (hmem : (s.key p, msgs) ∈ (s.ends !p).sent)
    (hnot : ¬ (s.ends p).Settles (s.key !p) msgs) : ¬ Acc (fun s' s => Deliver s s') s := by
  intro hacc
  obtain ⟨s', hdeliver, hp⟩ := exists_deliverIf (C := fun _ _ _ => True) hmem trivial
  refine not_acc_of_empty (!p) ?_ (hacc.inv hdeliver)
  rw [Context.Settles, not_or, Bool.not_eq_false] at hnot
  obtain ⟨-, haccepts, -⟩ := Context.handleAll_spec 0 (s.key !p) msgs (s.ends p)
  obtain ⟨-, -, -, hall⟩ := Context.onWay_handleAll 0 (s.key !p) msgs (s.ends p)
  rw [key_eq_of_deliverIf hdeliver, Bool.not_not, hp, Context.step, Context.handleImmediate]
  split <;> rename_i c' replies heq <;> rw [heq] at haccepts hall
  · have hnil : replies = [] := (hall rfl).2.mpr hnot.2
    rw [hnil]
    exact List.mem_append_right _ (List.mem_singleton.mpr rfl)
  · rw [hnot.1] at haccepts
    cases haccepts

lemma quiesces_iff_acc : s.Quiesces ↔ Acc (fun s' s => Deliver s s') s := by
  have h := not_acc_iff_exists_descending_chain (r := fun s' s => Deliver s s') (x := s)
  rw [Quiesces, ← h, not_not]

/-- When every message that is ever on the way settles, the deliveries come to an end. -/
lemma acc_of_settled (h : ∀ s', Relation.ReflTransGen Deliver s s' → s'.Settled) :
    Acc (fun s' s => Deliver s s') s := by
  induction hw : s.weight using Nat.strong_induction_on generalizing s with
  | _ w ih =>
    refine .intro s fun s' hdeliver => ?_
    have hsettles : DeliverIf Context.Settles s s' := by
      obtain ⟨p, now, msgs, hmem, -, hp, hp'⟩ := hdeliver
      exact ⟨p, now, msgs, hmem, h s .refl p msgs hmem, hp, hp'⟩
    have hlt := weight_lt_of_deliverIf hsettles
    rw [hw] at hlt
    exact ih s'.weight hlt (fun s'' hreach => h s'' (.head hdeliver hreach)) rfl

/-- A run of deliveries that are all refused or make a reply is finite. The deliveries between two
routers are finite in number, however they are ordered, exactly when every delivery they come to
is of this kind. -/
theorem deliveries_finite (s : Pair) :
    (¬ ∃ f : ℕ → Pair, ∀ i, DeliverIf Context.Settles (f i) (f (i + 1))) ∧
    (s.Quiesces ↔ ∀ s', Relation.ReflTransGen Deliver s s' → s'.Settled) := by
  refine ⟨?_, fun h s' hreach => ?_, fun h => quiesces_iff_acc.mpr (acc_of_settled h)⟩
  · rintro ⟨f, hf⟩
    exact not_strictAnti_of_wellFoundedLT (fun i => (f i).weight)
      (strictAnti_nat_of_succ_lt fun i => weight_lt_of_deliverIf (hf i))
  · have hacc : Acc (fun s' s => Deliver s s') s' := by
      induction hreach with
      | refl => exact quiesces_iff_acc.mp h
      | tail _ hstep ih => exact ih.inv hstep
    intro p msgs hmem
    by_contra hnot
    exact not_acc_of_not_settles p msgs hmem hnot hacc

/-- A router with nothing in its bucket. -/
def bareRouter (b : UInt8) : Context :=
  { ourKey := lastByte b, rc := { pubkey := lastByte b }, allowTransit := true, ids := 0
    nodes := ⟨lastByte b, []⟩ }

/-- The router 9 asked 5 for its contact, and the answer is on the way. -/
def answeredPair : Pair where
  ends p :=
    if p then
      { bareRouter 9 with
        ids := 1
        pendingTX := (∅ : AList _).insert (lastByte 5, 1)
          ⟨some ⟨0, lastByte 5, true⟩, 0, lastByte 9, 1, lastByte 5, ∅, none⟩ }
    else
      { bareRouter 5 with
        sent := [(lastByte 9,
          [.gotRouter { From := lastByte 9, R := [{ pubkey := lastByte 5 }], txid := 1 }])] }
  ne := by decide
  transit p := by cases p <;> rfl

/-- The answer is accepted and there is nothing to reply to it, which the router 9 tells 5, and so
on. -/
theorem answer_never_quiesces : ¬ ∀ s : Pair, s.Quiesces := by
  intro h
  refine not_acc_of_not_settles true
    [.gotRouter { From := lastByte 9, R := [{ pubkey := lastByte 5 }], txid := 1 }] ?_ ?_
    (quiesces_iff_acc.mp (h answeredPair))
  · decide +kernel
  · have hended : ∀ e ∈ (answeredPair.ends true).ended (answeredPair.key false)
        ((answeredPair.ends true).transactionsOf (answeredPair.key false))
        [.gotRouter { From := lastByte 9, R := [{ pubkey := lastByte 5 }], txid := 1 }],
        e.1.requester = (answeredPair.ends true).ourKey := by
      decide +kernel
    rintro (hno | ⟨m, hm, -⟩ | ⟨e, he, hne⟩)
    · revert hno
      decide +kernel
    · simp at hm
    · exact hne (hended e he)

end Pair

end Udap.Dht
