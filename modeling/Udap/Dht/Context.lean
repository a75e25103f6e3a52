import Udap.Dht.Message
import Udap.Lib.Memcmp
import Udap.Lib.OrderedMap
import Mathlib.Data.List.AList
import Mathlib.Data.Finset.Card

/-!
`dht::Context` with its bucket and its pending transactions, and the handlers of the DHT
messages.

Reads of the clock are arguments. What the context does to others is recorded: `sent` holds the
calls of `SendToOrQueue` with a `DHTImmeidateMessage`, `hooks` the calls of the hooks of lookup
jobs, `forwards` the requests of others that were passed on, and `completions` the pending
transactions that ended, with what was sent for them; all oldest first.
-/

namespace Udap.Dht

open ByteMem

/-- `Key_t`. -/
abbrev Key := PubKey

/-- A key by its last byte. -/
def lastByte (b : UInt8) : Key := ⟨List.replicate 31 0 ++ [b], rfl⟩

/-- `Key_t::operator^`. -/
def xorKey (a b : Key) : Key := ⟨xorBytes a.1 b.1, by simp⟩

/-- `Key_t::operator<`. -/
def ltKey (a b : Key) : Bool := memcmpLt a.1 b.1

/-- The XOR distance of a key to a target, as a number. -/
def dist (a target : Key) : ℕ := beNat (xorKey a target).1

lemma ltKey_iff (a b target : Key) :
    ltKey (xorKey a target) (xorKey b target) = true ↔ dist a target < dist b target :=
  memcmpLt_iff (by simp)

/-- Different keys have different distances. -/
lemma dist_injective {a b target : Key} (h : dist a target = dist b target) : a = b :=
  Subtype.ext (beNat_xor_injective (by simp) (by simp) h)

/-- `IsZero`. -/
def isZero (k : Key) : Bool := k = zeroBlob 32

/-! ### Bucket -/

/-- `Bucket`: the nodes in the order of the map, which is that of `XorMetric`. -/
structure Bucket where
  us : Key
  nodes : List (Key × RouterContact)

namespace Bucket

/-- `XorMetric`. -/
def metric (us left right : Key) : Bool := ltKey (xorKey us left) (xorKey us right)

/-- `PutNode` of a node for the contact. -/
def putNode (rc : RouterContact) (b : Bucket) : Bucket :=
  { b with nodes := OrderedMap.assign (metric b.us) rc.pubkey rc b.nodes }

/-- `DelNode`. -/
def delNode (k : Key) (b : Bucket) : Bucket :=
  { b with nodes := b.nodes.filter fun n => metric b.us n.1 k || metric b.us k n.1 }

/-- The greatest key. -/
def maxKey : Key := List.Vector.replicate 32 0xff

/-- The loop of the searches over the nodes: the least distance and where it was found. -/
def closest (target : Key) : List Key → Key × Key → Key × Key
  | [], best => best
  | k :: rest, best =>
      if ltKey (xorKey k target) best.1 then closest target rest (xorKey k target, k)
      else closest target rest best

/-- `FindClosest`; `result` is what the caller has in the variable for the result. -/
def findClosest (target result : Key) (b : Bucket) : Key × Bool :=
  ((closest target (b.nodes.map Prod.fst) (maxKey, result)).2, 0 < b.nodes.length)

/-- `FindCloseExcluding`. -/
def findCloseExcluding (target : Key) (exclude : Finset Key) (b : Bucket) : Option Key :=
  let best := closest target ((b.nodes.map Prod.fst).filter (· ∉ exclude)) (maxKey, maxKey)
  if ltKey best.1 maxKey then some best.2 else none

lemma closest_mem (target : Key) (l : List Key) (best : Key × Key) :
    (closest target l best).2 ∈ l ∨ closest target l best = best := by
  induction l generalizing best with
  | nil => exact .inr rfl
  | cons k rest ih =>
    rw [closest]
    split_ifs
    · rcases ih (xorKey k target, k) with h | h
      · exact .inl (List.mem_cons_of_mem k h)
      · exact .inl (by simp [h])
    · exact (ih best).imp (List.mem_cons_of_mem k) id

/-- A router that is found is not an excluded one. -/
lemma notMem_of_findCloseExcluding {target next : Key} {exclude : Finset Key} {b : Bucket}
    (h : b.findCloseExcluding target exclude = some next) : next ∉ exclude := by
  unfold findCloseExcluding at h
  dsimp only at h
  split_ifs at h with hlt
  rcases closest_mem target ((b.nodes.map Prod.fst).filter (· ∉ exclude)) (maxKey, maxKey)
    with hmem | hbest
  · rw [Option.some.inj h, List.mem_filter] at hmem
    simpa using hmem.2
  · rw [hbest, ltKey, memcmpLt_irrefl] at hlt
    exact absurd hlt (by simp)

/-- The contact of a node. -/
def contact (k : Key) (b : Bucket) : Option RouterContact := b.nodes.lookup k

end Bucket

/-! ### Context -/

/-- `udap_router_lookup_job`, by a number; `hook` says whether it has a hook. -/
structure LookupJob where
  id : ℕ
  target : Key
  hook : Bool
  deriving DecidableEq

/-- `SearchJob`. The field `asked` is not in the source: it is the transaction id that the
requester of a relayed lookup used. -/
structure SearchJob where
  job : Option LookupJob
  started : UInt64
  requester : Key
  requesterTX : UInt64
  target : Key
  exclude : Finset Key
  asked : Option UInt64

/-- `SearchJob::JobTimeout`. -/
def jobTimeout : UInt64 := 30000

/-- `IsExpired`. -/
def SearchJob.isExpired (now : UInt64) (j : SearchJob) : Bool := now - j.started ≥ jobTimeout

/-- A request of another router that was passed on by `LookupRouterRelayed`. -/
structure Forward where
  router : Key
  requester : Key
  target : Key
  iterative : Bool
  /-- the transaction of the request, and the one of the message to the next router -/
  txid : UInt64
  id : UInt64
  next : Key
  deriving DecidableEq

/-- The end of a pending transaction. -/
structure Completion where
  job : SearchJob
  /-- the peer whose answer ended it; none when it expired -/
  answeredBy : Option Key
  /-- the replies made for it -/
  replies : List Message
  /-- where these were sent -/
  sentTo : Option Key

/-- `Context`, with the contact of the router. -/
structure Context where
  ourKey : Key
  rc : RouterContact
  nodes : Bucket
  allowTransit : Bool
  ids : UInt64
  pendingTX : AList (fun _ : Key × UInt64 => SearchJob) := ∅
  sent : List (Key × List Message) := []
  hooks : List (LookupJob × Option RouterContact) := []
  forwards : List Forward := []
  completions : List Completion := []

namespace Context

/-- `SearchJob::Completed`. -/
def completed (j : SearchJob) (router : Option RouterContact) (c : Context) : Context :=
  match j.job with
  | some job => if job.hook then { c with hooks := c.hooks ++ [(job, router)] } else c
  | none => c

/-- `LookupRouter`. -/
def lookupRouter (now : UInt64) (target whoasked : Key) (txid : UInt64) (askpeer : Key)
    (job : Option LookupJob) (iterative : Bool) (excludes : Finset Key) (asked : Option UInt64)
    (c : Context) : Context :=
  if isZero target || isZero whoasked || isZero askpeer then c
  else
    let id := c.ids + 1
    { c with
      ids := id
      pendingTX := c.pendingTX.insert (askpeer, id)
        { job := job, started := now, requester := whoasked,
          requesterTX := if txid = 0 then id else txid, target := target, exclude := excludes,
          asked := asked }
      sent := c.sent ++ [(askpeer, [.findRouter
        { From := askpeer, K := target, iterative := iterative, txid := id }])] }

/-- The request of `requester` is passed on to `next`. -/
def forward (now : UInt64) (requester : Key) (txid : UInt64) (target next : Key)
    (recursive : Bool) (c : Context) : Context :=
  lookupRouter now target requester txid next none false ∅ (some txid) { c with
    forwards := c.forwards ++ [
      { router := c.ourKey, requester := requester, target := target, iterative := !recursive,
        txid := txid, id := c.ids + 1, next := next }] }

/-- `LookupRouterRelayed`: the context and the replies. -/
def lookupRouterRelayed (now : UInt64) (requester : Key) (txid : UInt64) (target : Key)
    (recursive : Bool) (c : Context) : Context × List Message :=
  if target = c.ourKey then
    (c, [.gotRouter { From := requester, txid := txid, R := [c.rc] }])
  else
    match c.nodes.findCloseExcluding target {requester, c.ourKey} with
    | some next =>
        if next = target then
          (c,
            [.gotRouter { From := requester, txid := txid, R := (c.nodes.contact target).toList }])
        else if recursive then
          if ltKey (xorKey requester target) (xorKey c.ourKey target) then
            (c, [.gotRouter { From := requester, txid := txid }])
          else (c.forward now requester txid target next recursive, [])
        else (c, [.gotRouter { From := requester, txid := txid }])
    | none => (c, [.gotRouter { From := requester, txid := txid }])

/-- `FindRouterMessage::HandleMessage`. -/
def handleFindRouter (now : UInt64) (m : FindRouterMessage) (c : Context) :
    Context × Bool × List Message :=
  if !c.allowTransit then (c, false, [])
  else if (m.From, m.txid) ∈ c.pendingTX then (c, false, [])
  else
    match c.lookupRouterRelayed now m.From m.txid m.K (!m.iterative) with
    | (c, replies) => (c, true, replies)

/-- The reply to the requester of a transaction that ends, unless it is us. -/
def replyTo (j : SearchJob) (result : Option RouterContact) (c : Context) : List Message :=
  if j.requester ≠ c.ourKey then
    [.gotRouter { From := j.target, txid := j.requesterTX, R := result.toList }]
  else []

/-- A transaction ends with an answer of `peer`. -/
def finish (j : SearchJob) (peer : Key) (result : Option RouterContact) (c : Context) :
    Context × List Message :=
  let replies := c.replyTo j result
  let c := c.completed j result
  ({ c with
    completions := c.completions ++ [
      { job := j, answeredBy := some peer, replies := replies, sentTo := none }] }, replies)

/-- `GotRouterMessage::HandleMessage`. -/
def handleGotRouter (now : UInt64) (m : GotRouterMessage) (c : Context) :
    Context × Bool × List Message :=
  match c.pendingTX.lookup (m.From, m.txid) with
  | none => (c, false, [])
  | some pending =>
      let remove (c : Context) := { c with pendingTX := c.pendingTX.erase (m.From, m.txid) }
      match m.R with
      | rc :: _ =>
          match c.finish pending m.From (some rc) with
          | (c, replies) => (remove c, true, replies)
      | [] =>
          let exclude := insert m.From pending.exclude
          let next := if exclude.card < 3 then c.nodes.findCloseExcluding pending.target exclude
            else none
          match next with
          | some nextPeer =>
              (remove (c.lookupRouter now pending.target pending.requester pending.requesterTX
                nextPeer none true exclude pending.asked), true, [])
          | none =>
              match c.finish pending m.From none with
              | (c, replies) => (remove c, true, replies)

/-- `dht::IMessage::HandleMessage`. -/
def handleMessage (now : UInt64) (c : Context) : Message → Context × Bool × List Message
  | .findRouter m => c.handleFindRouter now m
  | .gotRouter m => c.handleGotRouter now m

/-- The loop of `DHTImmeidateMessage::HandleMessage`. -/
def handleAll (now : UInt64) : List Message → Context → Context × Bool × List Message
  | [], c => (c, true, [])
  | msg :: rest, c =>
      let first := c.handleMessage now msg
      let more := handleAll now rest first.1
      (more.1, first.2.1 && more.2.1, first.2.2 ++ more.2.2)

/-- `DHTImmeidateMessage::HandleMessage`: the replies go to the peer that sent the messages. -/
def handleImmediate (now : UInt64) (remote : Key) (msgs : List Message) (c : Context) : Context :=
  match c.handleAll now msgs with
  | (c', true, replies) =>
      { c' with
        sent := c'.sent ++ [(remote, replies)]
        completions := c.completions ++ (c'.completions.drop c.completions.length).map
          fun k => { k with sentTo := some remote } }
  | (c', false, _) => c'

/-- `CleanupTX`. -/
def cleanupTX (now : UInt64) (c : Context) : Context :=
  (c.pendingTX.entries.filter fun e => e.2.isExpired now).foldl (fun c e =>
    { c.completed e.2 none with
      pendingTX := c.pendingTX.erase e.1
      completions := c.completions ++ [
        { job := e.2, answeredBy := none, replies := [], sentTo := none }] }) c

/-- `LookupRouterViaJob`; `peer` is what is in the variable for the result. -/
def lookupRouterViaJob (now : UInt64) (job : LookupJob) (peer : Key) (c : Context) : Context :=
  match c.nodes.findClosest job.target peer with
  | (peer, true) => c.lookupRouter now job.target c.ourKey 0 peer (some job) false ∅ none
  | (_, false) => if job.hook then { c with hooks := c.hooks ++ [(job, none)] } else c

end Context

/-! ### What the handlers can do -/

namespace Context

variable (now : UInt64) (c : Context)

/-- A relayed lookup is answered at once, or it is recursive, the requester is not closer to the
target than we are, and it is passed on to a third router. -/
lemma lookupRouterRelayed_cases (requester : Key) (t : UInt64) (target : Key) (recursive : Bool) :
    (∃ R, c.lookupRouterRelayed now requester t target recursive =
      (c, [.gotRouter { From := requester, txid := t, R := R }])) ∨
    recursive = true ∧ ltKey (xorKey requester target) (xorKey c.ourKey target) = false ∧
      ∃ next, next ∉ ({requester, c.ourKey} : Finset Key) ∧
        c.lookupRouterRelayed now requester t target recursive =
          (c.forward now requester t target next true, []) := by
  unfold lookupRouterRelayed
  by_cases htarget : target = c.ourKey
  · exact .inl ⟨[c.rc], by rw [if_pos htarget]⟩
  rw [if_neg htarget]
  cases hnext : c.nodes.findCloseExcluding target {requester, c.ourKey} with
  | none => exact .inl ⟨[], rfl⟩
  | some next =>
    dsimp only
    split_ifs with heq hrec hlt
    · exact .inl ⟨_, rfl⟩
    · exact .inl ⟨[], rfl⟩
    · refine .inr ⟨hrec, by simpa using hlt, next, ?_, by rw [hrec]⟩
      exact Bucket.notMem_of_findCloseExcluding hnext
    · exact .inl ⟨[], rfl⟩

/-- The peer that is asked next after `peer` had no answer. -/
def nextPeer (j : SearchJob) (peer : Key) : Option Key :=
  if (insert peer j.exclude).card < 3 then
    c.nodes.findCloseExcluding j.target (insert peer j.exclude)
  else none

/-- An answer is for no transaction of ours, or it ends the transaction, or another peer is asked
in its place. -/
lemma handleGotRouter_cases (m : GotRouterMessage) :
    c.pendingTX.lookup (m.From, m.txid) = none ∧ c.handleGotRouter now m = (c, false, []) ∨
    ∃ j, c.pendingTX.lookup (m.From, m.txid) = some j ∧
      ((m.R ≠ [] ∨ c.nextPeer j m.From = none) ∧
        c.handleGotRouter now m =
          ({ (c.finish j m.From m.R.head?).1 with
              pendingTX := (c.finish j m.From m.R.head?).1.pendingTX.erase (m.From, m.txid) },
            true, c.replyTo j m.R.head?) ∨
      m.R = [] ∧ ∃ next, c.nextPeer j m.From = some next ∧
        c.handleGotRouter now m =
          ({ c.lookupRouter now j.target j.requester j.requesterTX next none true
                (insert m.From j.exclude) j.asked with
              pendingTX := (c.lookupRouter now j.target j.requester j.requesterTX next none true
                (insert m.From j.exclude) j.asked).pendingTX.erase (m.From, m.txid) },
            true, [])) := by
  unfold handleGotRouter
  cases hpending : c.pendingTX.lookup (m.From, m.txid) with
  | none => exact .inl ⟨rfl, rfl⟩
  | some j =>
    refine .inr ⟨j, rfl, ?_⟩
    cases hR : m.R with
    | cons rc rest => exact .inl ⟨.inl (by simp), rfl⟩
    | nil =>
      dsimp only
      rw [← nextPeer]
      cases hnext : c.nextPeer j m.From with
      | none => exact .inl ⟨.inr rfl, rfl⟩
      | some next => exact .inr ⟨rfl, next, rfl, rfl⟩

/-- The handlers do not change what the router is set up with, and what was sent stays sent. -/
structure Kept (c c' : Context) : Prop where
  ourKey : c'.ourKey = c.ourKey
  nodes : c'.nodes = c.nodes
  allowTransit : c'.allowTransit = c.allowTransit
  sent : c.sent ⊆ c'.sent

lemma Kept.refl : Kept c c := ⟨rfl, rfl, rfl, fun _ h => h⟩

lemma Kept.trans {c c' c'' : Context} (h : Kept c c') (h' : Kept c' c'') : Kept c c'' :=
  ⟨h'.ourKey.trans h.ourKey, h'.nodes.trans h.nodes, h'.allowTransit.trans h.allowTransit,
    fun _ hm => h'.sent (h.sent hm)⟩

lemma kept_completed (j : SearchJob) (r : Option RouterContact) : Kept c (c.completed j r) := by
  unfold completed
  split
  · split_ifs <;> exact ⟨rfl, rfl, rfl, fun _ h => h⟩
  · exact Kept.refl c

lemma kept_lookupRouter (target who : Key) (t : UInt64) (peer : Key) (job : Option LookupJob)
    (it : Bool) (ex : Finset Key) (asked : Option UInt64) :
    Kept c (c.lookupRouter now target who t peer job it ex asked) := by
  unfold lookupRouter
  split
  · exact Kept.refl c
  · exact ⟨rfl, rfl, rfl, fun _ h => List.mem_append_left _ h⟩

lemma kept_handleMessage (msg : Message) : Kept c (c.handleMessage now msg).1 := by
  cases msg with
  | findRouter m =>
    simp only [handleMessage, handleFindRouter]
    split_ifs
    · exact Kept.refl c
    · exact Kept.refl c
    · obtain ⟨R, h⟩ | ⟨-, -, next, -, h⟩ :=
        c.lookupRouterRelayed_cases now m.From m.txid m.K (!m.iterative)
      · rw [h]
        exact Kept.refl c
      · rw [h]
        have hlog : Kept c { c with forwards := c.forwards ++
            [⟨c.ourKey, m.From, m.K, false, m.txid, c.ids + 1, next⟩] } :=
          ⟨rfl, rfl, rfl, fun _ h => h⟩
        exact hlog.trans (kept_lookupRouter now _ m.K m.From m.txid next none false ∅ (some m.txid))
  | gotRouter m =>
    rw [handleMessage]
    obtain ⟨-, h⟩ | ⟨j, -, ⟨-, h⟩ | ⟨-, next, -, h⟩⟩ := c.handleGotRouter_cases now m
    · rw [h]
      exact Kept.refl c
    · rw [h]
      exact .trans (kept_completed c j m.R.head?) ⟨rfl, rfl, rfl, fun _ h => h⟩
    · rw [h]
      exact .trans (kept_lookupRouter now c _ _ _ _ _ _ _ _) ⟨rfl, rfl, rfl, fun _ h => h⟩

lemma kept_handleAll (msgs : List Message) : Kept c (c.handleAll now msgs).1 := by
  induction msgs generalizing c with
  | nil => exact Kept.refl c
  | cons msg rest ih => exact (kept_handleMessage now c msg).trans (ih _)

lemma kept_handleImmediate (remote : Key) (msgs : List Message) :
    Kept c (c.handleImmediate now remote msgs) := by
  have hall := kept_handleAll now c msgs
  unfold handleImmediate
  split <;> rename_i heq <;> rw [heq] at hall
  · exact hall.trans ⟨rfl, rfl, rfl, fun _ h => List.mem_append_left _ h⟩
  · exact hall

end Context

/-- The decoder puts the peer of the session into `From`. -/
def Message.received (remote : Key) : Message → Message
  | .findRouter m => .findRouter { m with From := remote }
  | .gotRouter m => .gotRouter { m with From := remote }

/-- What a context is called with. -/
inductive Input
  | receive (now : UInt64) (remote : Key) (msgs : List Message)
  | lookup (now : UInt64) (job : LookupJob) (peer : Key)
  | cleanup (now : UInt64)
  | putPeer (rc : RouterContact)
  | removePeer (id : Key)
  | transit (allow : Bool)
  | contact (rc : RouterContact)

/-- One call. -/
def Context.step (c : Context) : Input → Context
  | .receive now remote msgs => c.handleImmediate now remote (msgs.map (Message.received remote))
  | .lookup now job peer => c.lookupRouterViaJob now job peer
  | .cleanup now => c.cleanupTX now
  | .putPeer rc => { c with nodes := c.nodes.putNode rc }
  | .removePeer id => { c with nodes := c.nodes.delNode id }
  | .transit allow => { c with allowTransit := allow }
  | .contact rc => { c with rc := rc }

lemma Context.kept_cleanupTX (now : UInt64) (c : Context) : Kept c (c.cleanupTX now) :=
  List.foldlRecOn (motive := Kept c) _ _ (.refl c) fun d hd e _ =>
    hd.trans (.trans (kept_completed d e.2 none) ⟨rfl, rfl, rfl, fun _ h => h⟩)

lemma Context.kept_lookupRouterViaJob (now : UInt64) (c : Context) (job : LookupJob) (peer : Key) :
    Kept c (c.lookupRouterViaJob now job peer) := by
  unfold lookupRouterViaJob
  split
  · exact kept_lookupRouter now c _ _ _ _ _ _ _ _
  · split_ifs
    · exact ⟨rfl, rfl, rfl, fun _ h => h⟩
    · exact Kept.refl c

/-- Whatever a context is called with, its key stays, and what was sent stays sent. -/
lemma Context.kept_step (c : Context) (i : Input) :
    (c.step i).ourKey = c.ourKey ∧ c.sent ⊆ (c.step i).sent := by
  cases i with
  | receive now remote msgs =>
    have h := kept_handleImmediate now c remote (msgs.map (Message.received remote))
    exact ⟨h.ourKey, h.sent⟩
  | lookup now job peer =>
    have h := kept_lookupRouterViaJob now c job peer
    exact ⟨h.ourKey, h.sent⟩
  | cleanup now =>
    have h := kept_cleanupTX now c
    exact ⟨h.ourKey, h.sent⟩
  | putPeer rc => exact ⟨rfl, fun _ h => h⟩
  | removePeer id => exact ⟨rfl, fun _ h => h⟩
  | transit allow => exact ⟨rfl, fun _ h => h⟩
  | contact rc => exact ⟨rfl, fun _ h => h⟩

end Udap.Dht
