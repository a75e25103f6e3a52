import Udap.Dht.Calls
import Udap.Lib.OrderedMap

/-!
`udap_router`: the verified routers, the queues of messages for routers without a session, and the
continuations that work on them.

Messages are of any type `M` with an encoder `enc` into the buffer for link messages. What the
router has handed out and waits for is in `waiting`: reads of the disk, lookups in the DHT, and, for
the jobs that establish sessions, the attempt of the link, the timer for the next one, or the check
of the contact that the other end has shown. An event takes one of these out. A pointer to a job
is its key with a number (`JobRef`), so that a pointer to a job that is gone is not one to a later
job under the same key; when such a pointer is used there is no next state.

The bucket of the DHT has pointers to the elements of `validRouters`, which live in `elements`.
-/

namespace Udap

open ByteMem Dht

/-- `RouterID`. -/
abbrev RouterID := PubKey

/-- `udap_link_establish_job`; `session` is the contact of the other end of the session. -/
structure EstablishJob where
  id : ℕ
  ai : AddressInfo
  timeout : UInt64
  retries : UInt16
  pubkey : PubKey
  link : Bool := false
  session : Option RouterContact := none

/-- A pointer to an `udap_link_establish_job`. -/
structure JobRef where
  key : PubKey
  id : ℕ
  deriving DecidableEq

/-- What the router waits for. -/
inductive Waiting
  /-- `udap_nodedb_async_load_rc` -/
  | load (pubkey : PubKey)
  /-- `udap_dht_lookup_router` -/
  | lookup (target : Key)
  /-- `try_establish` -/
  | attempt (job : JobRef)
  /-- `udap_logic_call_later` for `connect_job_retry` -/
  | timer (job : JobRef)
  /-- `udap_nodedb_async_verify` -/
  | verify (job : JobRef) (rc : RouterContact)
  deriving DecidableEq

/-- `udap_router`. -/
structure Router (M : Type) where
  /-- the DHT context, apart from its bucket -/
  dht : Context
  /-- the nodes of the bucket, with pointers to contacts -/
  nodes : List (Key × ℕ) := []
  /-- where the element of each key is -/
  validRouters : AList (fun _ : RouterID => ℕ) := ∅
  elements : ℕ → Option RouterContact := fun _ => none
  outboundMesssageQueue : AList (fun _ : RouterID => List M) := ∅
  pendingEstablishJobs : AList (fun _ : PubKey => EstablishJob) := ∅
  nodedb : AList (fun _ : PubKey => RouterContact) := ∅
  waiting : List Waiting := []
  /-- how many jobs were made -/
  jobs : ℕ := 0
  /-- what was given to links to be sent -/
  linkSent : List (RouterID × Bytes) := []
  /-- the contacts that were found valid -/
  verified : List RouterContact := []

namespace Router

variable {M : Type}

/-! ### The verified routers -/

/-- The contact at a place. -/
def contactAt (r : Router M) (place : ℕ) : RouterContact := (r.elements place).getD {}

/-- No node of the bucket dangles. -/
def alive (r : Router M) : Bool := r.nodes.all fun n => (r.elements n.2).isSome

/-- The DHT context, with the bucket as it reads. -/
def context (r : Router M) : Context :=
  { r.dht with nodes := ⟨r.dht.ourKey, OrderedMap.view r.contactAt r.nodes⟩ }

/-- `udap_dht_put_peer` with a pointer. -/
def putPeer (place : ℕ) (r : Router M) : Router M :=
  let id := (r.contactAt place).pubkey
  { r with nodes := OrderedMap.assign (Bucket.metric r.dht.ourKey) id place r.nodes }

/-- `udap_dht_remove_peer`. -/
def removePeer (id : RouterID) (r : Router M) : Router M :=
  { r with nodes := OrderedMap.remove (Bucket.metric r.dht.ourKey) id r.nodes }

/-- `validRouters[pk] = rc`; a new element is made at `place`, which has to be free. -/
def setValid (rc : RouterContact) (place : ℕ) (r : Router M) : Option (Router M × ℕ) :=
  match r.validRouters.lookup rc.pubkey with
  | some a => some ({ r with elements := Function.update r.elements a (some rc) }, a)
  | none =>
      if (r.elements place).isSome then none
      else some ({ r with
        validRouters := r.validRouters.insert rc.pubkey place
        elements := Function.update r.elements place (some rc) }, place)

/-- The part of `on_verify_server_rc` that keeps track of a valid router. -/
def track (rc : RouterContact) (place : ℕ) (r : Router M) : Option (Router M) :=
  (r.setValid rc place).map fun (r, a) => { r.putPeer a with verified := r.verified ++ [rc] }

/-- `SessionClosed`. -/
def sessionClosed (remote : RouterID) (r : Router M) : Router M :=
  match r.validRouters.lookup remote with
  | none => r
  | some a =>
      { r.removePeer remote with
        elements := Function.update r.elements a none
        validRouters := r.validRouters.erase remote }

/-! ### Sending -/

/-- `SendTo` over a link that has a session. -/
def sendTo (enc : M → Option Bytes) (remote : RouterID) (msg : M) (r : Router M) : Router M :=
  { r with linkSent := r.linkSent ++ ((enc msg).map fun buf => (remote, buf)).toList }

/-- `FlushOutboundFor`. -/
def flushOutboundFor (enc : M → Option Bytes) (remote : RouterID) (r : Router M) : Router M :=
  match r.outboundMesssageQueue.lookup remote with
  | none => r
  | some queue =>
      { queue.foldl (fun r msg => r.sendTo enc remote msg) r with
        outboundMesssageQueue := r.outboundMesssageQueue.insert remote [] }

/-- `DiscardOutboundFor`. -/
def discardOutboundFor (remote : RouterID) (r : Router M) : Router M :=
  { r with outboundMesssageQueue := r.outboundMesssageQueue.erase remote }

/-- The router waits for something more. -/
def await (w : Waiting) (r : Router M) : Router M := { r with waiting := r.waiting ++ [w] }

/-- A job for the router is made, and the link is asked to establish a session. -/
def establish (pk : PubKey) (addr : AddressInfo) (numretries : UInt16) (r : Router M) : Router M :=
  { r.await (.attempt ⟨pk, r.jobs⟩) with
    jobs := r.jobs + 1
    pendingEstablishJobs := r.pendingEstablishJobs.insert pk
      { id := r.jobs, ai := addr, timeout := 10000, retries := numretries, pubkey := pk } }

/-- `udap_router_try_connect`. The list of addresses is read without a check. -/
def tryConnect (remote : RouterContact) (numretries : UInt16) (r : Router M) :
    Option (Router M × Bool) :=
  if remote.pubkey ∈ r.pendingEstablishJobs then some (r, false)
  else
    match remote.addrs with
    | none => none
    | some [] => some (r, false)
    | some (addr :: _) => some (r.establish remote.pubkey addr numretries, true)

/-- The router puts a message into the queue for another one. -/
def enqueue (remote : RouterID) (msg : M) (r : Router M) : Router M :=
  let queue := (r.outboundMesssageQueue.lookup remote).getD []
  { r with outboundMesssageQueue := r.outboundMesssageQueue.insert remote (queue ++ [msg]) }

/-- `SendToOrQueue`; `connected` says whether a link has a session to the router. -/
def sendToOrQueue (enc : M → Option Bytes) (remote : RouterID) (msg : M) (connected : Bool)
    (r : Router M) : Option (Router M) :=
  if connected then some (r.sendTo enc remote msg)
  else
    match r.nodedb.lookup remote with
    | some rc => ((r.enqueue remote msg).tryConnect rc 10).map Prod.fst
    | none => some ((r.enqueue remote msg).await (.load remote))

/-! ### Continuations -/

/-- The job that a pointer points to. -/
def job (r : Router M) (ref : JobRef) : Option EstablishJob :=
  (r.pendingEstablishJobs.lookup ref.key).filter fun job => job.id = ref.id

/-- A job is changed. -/
def setJob (ref : JobRef) (job : EstablishJob) (r : Router M) : Router M :=
  { r with pendingEstablishJobs := r.pendingEstablishJobs.insert ref.key job }

/-- A job is erased. -/
def eraseJob (pk : PubKey) (r : Router M) : Router M :=
  { r with pendingEstablishJobs := r.pendingEstablishJobs.erase pk }

/-- The contact is put into the node database, under its key. -/
def setRC (rc : RouterContact) (r : Router M) : Router M :=
  { r with nodedb := r.nodedb.insert rc.pubkey rc }

/-- `getRC`, which makes an entry of zeros if there is none. -/
def getRC (pubkey : PubKey) (r : Router M) : RouterContact × Router M :=
  let rc := (r.nodedb.lookup pubkey).getD {}
  (rc, { r with nodedb := r.nodedb.insert pubkey rc })

/-- `nodedb_async_load_rc` and `HandleAsyncLoadRCForSendTo`; `file` is the contact in the file for
the key, if it was read and its signature accepted. -/
def handleAsyncLoadRC (pubkey : PubKey) (file : Option RouterContact) (r : Router M) :
    Option (Router M) :=
  match file with
  | none => some (r.await (.lookup pubkey))
  | some rc =>
      match (r.setRC rc).getRC pubkey with
      | (rc, r) => (r.tryConnect rc 10).map Prod.fst

/-- `HandleDHTLookupForSendTo`. -/
def handleDHTLookup (target : Key) (found : Option RouterContact) (r : Router M) :
    Option (Router M) :=
  match found with
  | some rc => (r.tryConnect rc 10).map Prod.fst
  | none => some (r.discardOutboundFor target)

/-- The link ends an attempt, with a session or without, and `on_try_connect_result`. -/
def onTryConnectResult (ref : JobRef) (session : Option RouterContact) (r : Router M) :
    Option (Router M) :=
  (r.job ref).map fun pending =>
    let job : EstablishJob := { pending with link := true, session := session }
    match session with
    | some remote => (r.setJob ref job).await (.verify ref remote)
    | none =>
        if job.retries > 0 then
          (r.setJob ref { job with
            retries := job.retries - 1, timeout := job.timeout * 3 / 2 }).await (.timer ref)
        else (r.discardOutboundFor job.pubkey).eraseJob job.pubkey

/-- `connect_job_retry`. -/
def connectJobRetry (ref : JobRef) (r : Router M) : Option (Router M) :=
  (r.job ref).map fun job => if job.link then r.await (.attempt ref) else r

/-- `crypto_threadworker_verifyrc` and `on_verify_server_rc`: `signed` says whether the signature is
accepted, and then `saved` whether the contact was written to disk. -/
def onVerifyServerRC (enc : M → Option Bytes) (ref : JobRef) (rc : RouterContact)
    (signed saved : Bool) (place : ℕ) (r : Router M) : Option (Router M) :=
  let r := if signed then r.setRC rc else r
  if signed && saved then
    (r.track rc place).bind fun r => (r.job ref).map fun job =>
      if job.session.isSome then (r.flushOutboundFor enc rc.pubkey).eraseJob rc.pubkey else r
  else
    (r.job ref).map fun _ => (r.eraseJob rc.pubkey).discardOutboundFor rc.pubkey

end Router

/-- What happens to a router. -/
inductive RouterEvent (M : Type)
  | send (remote : RouterID) (msg : M) (connected : Bool)
  | loaded (pubkey : PubKey) (file : Option RouterContact)
  | lookedUp (target : Key) (found : Option RouterContact)
  | attempted (job : JobRef) (session : Option RouterContact)
  | retried (job : JobRef)
  | verified (job : JobRef) (rc : RouterContact) (signed saved : Bool) (place : ℕ)
  | closed (remote : RouterID)
  /-- `udap_router::try_connect`, with the contact of a file whose signature is accepted -/
  | connect (rc : RouterContact)
  /-- what happens to the DHT context, apart from the calls of the router -/
  | dht (call : Call)

namespace Router

variable {M : Type}

/-- The router stops waiting. -/
def take (w : Waiting) (r : Router M) : Option (Router M) :=
  if w ∈ r.waiting then some { r with waiting := r.waiting.erase w } else none

/-- The calls of the router that change the bucket. -/
def isPeerCall : Call → Bool
  | .putPeer _ => true
  | .removePeer _ => true
  | _ => false

/-- One event. -/
def step (enc : M → Option Bytes) (r : Router M) : RouterEvent M → Option (Router M)
  | .send remote msg connected => r.sendToOrQueue enc remote msg connected
  | .loaded pubkey file => (r.take (.load pubkey)).bind (handleAsyncLoadRC pubkey file)
  | .lookedUp target found => (r.take (.lookup target)).bind (handleDHTLookup target found)
  | .attempted job session => (r.take (.attempt job)).bind (onTryConnectResult job session)
  | .retried job => (r.take (.timer job)).bind (connectJobRetry job)
  | .verified job rc signed saved place =>
      (r.take (.verify job rc)).bind (onVerifyServerRC enc job rc signed saved place)
  | .closed remote => some (r.sessionClosed remote)
  | .connect rc => (r.tryConnect rc 10).map Prod.fst
  | .dht call =>
      if r.alive && !isPeerCall call then some { r with dht := r.context.call call } else none

/-- Nothing was sent or asked for. -/
structure Initial (r : Router M) : Prop where
  nodes : r.nodes = []
  validRouters : r.validRouters = ∅
  elements : ∀ a, r.elements a = none
  outboundMesssageQueue : r.outboundMesssageQueue = ∅
  pendingEstablishJobs : r.pendingEstablishJobs = ∅
  waiting : r.waiting = []
  verified : r.verified = []
  /-- the contacts from disk are under their own keys -/
  nodedb : ∀ pk rc, r.nodedb.lookup pk = some rc → rc.pubkey = pk

/-- The routers that events lead to. -/
def ReachableBy (enc : M → Option Bytes) (r : Router M) : Prop :=
  ∃ r₀ : Router M, r₀.Initial ∧ Relation.ReflTransGen (fun r r' => ∃ e, r.step enc e = some r') r₀ r

/-- A run given by its events. -/
def run (enc : M → Option Bytes) (r : Router M) (events : List (RouterEvent M)) :
    Option (Router M) := events.foldlM (step enc) r

lemma ReachableBy.run {enc : M → Option Bytes} {r r' : Router M} (h : r.ReachableBy enc)
    {events : List (RouterEvent M)} (hrun : r.run enc events = some r') : r'.ReachableBy enc := by
  induction events generalizing r with
  | nil =>
    rw [← Option.some.inj hrun]
    exact h
  | cons e events ih =>
    obtain ⟨r₁, hstep, hrest⟩ := Option.bind_eq_some_iff.mp hrun
    obtain ⟨r₀, hinit, hreach⟩ := h
    exact ih ⟨r₀, hinit, hreach.tail ⟨e, hstep⟩⟩ hrest

end Router

end Udap
