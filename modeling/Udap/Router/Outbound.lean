import Udap.Router.Valid

/-!
The queues for routers without a session.

A message that is queued waits for the contact of its router, from disk or from the DHT, then for a
session, and then for the check of the contact that the other end shows. Two of these handoffs can
fail without a word: a contact without an address is not connected to, and after the check of a
contact the job and the queue of the router of that contact are taken care of, which may be another
one than the router of the job.

* `Sound`: the router waits at most once for a job, and for none that is gone.
* `noOrphans_step_iff`: what keeps the queues of a router in somebody's care.
* `no_orphaned_message`: the runs in which no message is orphaned.
-/

namespace Udap

open ByteMem Dht

/-- The job that is waited for. -/
def Waiting.job? : Waiting → Option JobRef
  | .load _ => none
  | .lookup _ => none
  | .attempt job => some job
  | .timer job => some job
  | .verify job _ => some job

/-- What is waited for, for a job. -/
structure Waiting.Fits (w : Waiting) (ref : JobRef) (job : EstablishJob) : Prop where
  pubkey : job.pubkey = ref.key
  link : ∀ ref', w = .timer ref' → job.link = true
  session : ∀ ref' rc, w = .verify ref' rc → job.session.isSome = true

namespace Router

variable {M : Type}

/-- There are messages in the queue for a router. -/
def Queued (r : Router M) (pk : RouterID) : Prop :=
  (r.outboundMesssageQueue.lookup pk).getD [] ≠ []

/-- The jobs that the router waits for. -/
def refs (r : Router M) : List JobRef := r.waiting.filterMap Waiting.job?

/-- There is a job for a router, and its attempt, its timer or its check is outstanding. -/
def Working (r : Router M) (pk : PubKey) : Prop :=
  ∃ job, r.pendingEstablishJobs.lookup pk = some job ∧ ⟨pk, job.id⟩ ∈ r.refs

/-- Every queue with a message is in the care of a read from disk, of a lookup or of a job that is
being worked on, and there are no other jobs. -/
structure NoOrphans (r : Router M) : Prop where
  queues : ∀ pk, r.Queued pk → .load pk ∈ r.waiting ∨ .lookup pk ∈ r.waiting ∨ r.Working pk
  jobs : ∀ pk ∈ r.pendingEstablishJobs, r.Working pk

/-- The contact has an address. -/
def HasAddress (rc : RouterContact) : Prop := rc.addrs.getD [] ≠ []

/-- The queue of a router is in somebody's care when `rc` was tried: what else is waited for, a job,
or the contact of the router with an address. -/
def Cares (r : Router M) (waiting : List Waiting) (pk : RouterID) (rc : RouterContact) : Prop :=
  .load pk ∈ waiting ∨ .lookup pk ∈ waiting ∨ pk ∈ r.pendingEstablishJobs ∨
    rc.pubkey = pk ∧ HasAddress rc

/-- A contact that is found for a router with queued messages, in the node database, on disk or in
the DHT, is of this router and has an address, unless the queue is in other care; and the other end
of a session shows the contact that the job is for. -/
def KeepsQueues (r : Router M) : RouterEvent M → Prop
  | .send remote _ connected =>
      connected = false → ∀ rc ∈ r.nodedb.lookup remote, r.Cares r.waiting remote rc
  | .loaded pubkey file => ∀ rc ∈ file, r.Queued pubkey →
      r.Cares (r.waiting.erase (.load pubkey)) pubkey ((r.setRC rc).getRC pubkey).1
  | .lookedUp target found => ∀ rc ∈ found, r.Queued target →
      r.Cares (r.waiting.erase (.lookup target)) target rc
  | .verified job rc _ _ _ => rc.pubkey = job.key
  | _ => True

/-- The events of a run meet `C`, each in the state before it. -/
def Along (enc : M → Option Bytes) (C : Router M → RouterEvent M → Prop) :
    Router M → List (RouterEvent M) → Prop
  | _, [] => True
  | r, e :: es => ∀ r' ∈ r.step enc e, C r e ∧ Along enc C r' es

/-- The router waits at most once for a job, and for none that is gone. -/
structure Sound (r : Router M) : Prop where
  live : ∀ w ∈ r.waiting, ∀ ref, w.job? = some ref →
    ∃ job, r.pendingEstablishJobs.lookup ref.key = some job ∧ job.id = ref.id ∧
      Waiting.Fits w ref job
  unique : r.refs.Nodup
  ids : ∀ pk job, r.pendingEstablishJobs.lookup pk = some job → job.id < r.jobs

/-! ### Waiting -/

section Wait

variable {r r' : Router M} {w : Waiting}

lemma take_spec (h : r.take w = some r') :
    w ∈ r.waiting ∧ r' = { r with waiting := r.waiting.erase w } := by
  rw [take] at h
  split_ifs at h with hmem
  exact ⟨hmem, (Option.some.inj h).symm⟩

lemma refs_await (w : Waiting) : (r.await w).refs = r.refs ++ w.job?.toList := by
  rw [refs, await, List.filterMap_append, refs]
  cases hjob : w.job? <;> simp [hjob]

/-- When the router stops waiting for a job, it is none of those it waits for. -/
lemma refs_take (hr : r.Sound) {ref : JobRef} (hw : w ∈ r.waiting) (hjob : w.job? = some ref) :
    ((r.waiting.erase w).filterMap Waiting.job?).Nodup ∧
      ∀ x, x ∈ (r.waiting.erase w).filterMap Waiting.job? ↔ x ∈ r.refs ∧ x ≠ ref := by
  have hperm := (List.perm_cons_erase hw).filterMap Waiting.job?
  rw [List.filterMap_cons_some hjob] at hperm
  have hnodup := List.nodup_cons.mp (hperm.nodup_iff.mp hr.unique)
  refine ⟨hnodup.2, fun x => ?_⟩
  rw [refs, hperm.mem_iff, List.mem_cons]
  constructor
  · intro hx
    exact ⟨.inr hx, fun heq => hnodup.1 (heq ▸ hx)⟩
  · rintro ⟨rfl | hx, hne⟩
    · exact absurd rfl hne
    · exact hx

lemma refs_take_none (hw : w ∈ r.waiting) (hjob : w.job? = none) :
    ((r.waiting.erase w).filterMap Waiting.job?).Perm r.refs := by
  have hperm := (List.perm_cons_erase hw).filterMap Waiting.job?
  rw [List.filterMap_cons_none hjob] at hperm
  exact hperm.symm

/-- A job is waited for by one pointer only. -/
lemma Sound.ref_eq (hr : r.Sound) {w' : Waiting} {ref ref' : JobRef} (hw : w ∈ r.waiting)
    (hjob : w.job? = some ref) (hw' : w' ∈ r.waiting) (hjob' : w'.job? = some ref')
    (hkey : ref.key = ref'.key) : ref = ref' := by
  obtain ⟨job, hlookup, hid, -⟩ := hr.live w hw ref hjob
  obtain ⟨job', hlookup', hid', -⟩ := hr.live w' hw' ref' hjob'
  rw [hkey, hlookup', Option.some.injEq] at hlookup
  cases ref
  cases ref'
  simp_all

/-- Reads and lookups stay when the router stops waiting for a job. -/
lemma mem_erase_of_job {ref : JobRef} (hjob : w.job? = some ref) {w' : Waiting}
    (hnone : w'.job? = none) (l : List Waiting) : w' ∈ l.erase w ↔ w' ∈ l := by
  refine List.mem_erase_of_ne ?_
  rintro rfl
  rw [hjob] at hnone
  cases hnone

end Wait

/-! ### What leaves the queues and the jobs -/

section SameWork

variable {r r' : Router M}

/-- Two routers have the same queues, the same jobs, and wait for the same. -/
structure SameWork (r r' : Router M) : Prop where
  outboundMesssageQueue : r'.outboundMesssageQueue = r.outboundMesssageQueue
  pendingEstablishJobs : r'.pendingEstablishJobs = r.pendingEstablishJobs
  waiting : r'.waiting = r.waiting
  jobs : r'.jobs = r.jobs

lemma SameWork.refl (r : Router M) : SameWork r r := ⟨rfl, rfl, rfl, rfl⟩

lemma SameWork.trans {r'' : Router M} (h : SameWork r r') (h' : SameWork r' r'') : SameWork r r'' :=
  ⟨h'.1.trans h.1, h'.2.trans h.2, h'.3.trans h.3, h'.4.trans h.4⟩

lemma SameWork.sound (h : SameWork r r') (hr : r.Sound) : r'.Sound := by
  refine ⟨?_, ?_, ?_⟩
  · rw [h.waiting, h.pendingEstablishJobs]
    exact hr.live
  · rw [refs, h.waiting]
    exact hr.unique
  · rw [h.pendingEstablishJobs, h.jobs]
    exact hr.ids

lemma SameWork.working_iff (h : SameWork r r') (pk : PubKey) : r'.Working pk ↔ r.Working pk := by
  rw [Working, Working, refs, refs, h.pendingEstablishJobs, h.waiting]

lemma SameWork.queued_iff (h : SameWork r r') (pk : PubKey) : r'.Queued pk ↔ r.Queued pk := by
  rw [Queued, Queued, h.outboundMesssageQueue]

lemma SameWork.noOrphans (h : SameWork r r') (hn : r.NoOrphans) : r'.NoOrphans := by
  refine ⟨fun pk hq => ?_, fun pk hpk => ?_⟩
  · rw [h.working_iff, h.waiting]
    exact hn.queues pk ((h.queued_iff pk).mp hq)
  · rw [h.pendingEstablishJobs] at hpk
    exact (h.working_iff pk).mpr (hn.jobs pk hpk)

lemma Working.mem {pk : PubKey} (h : r.Working pk) : pk ∈ r.pendingEstablishJobs := by
  obtain ⟨job, hjob, -⟩ := h
  rw [← AList.lookup_isSome, hjob]
  rfl

/-- With all jobs being worked on, it is enough that there is a job. -/
lemma noOrphans_iff : r.NoOrphans ↔ (∀ pk ∈ r.pendingEstablishJobs, r.Working pk) ∧
    ∀ pk, r.Queued pk →
      .load pk ∈ r.waiting ∨ .lookup pk ∈ r.waiting ∨ pk ∈ r.pendingEstablishJobs := by
  constructor
  · intro hn
    exact ⟨hn.jobs, fun pk hq => (hn.queues pk hq).imp_right (Or.imp_right Working.mem)⟩
  · rintro ⟨hjobs, hqueues⟩
    exact ⟨fun pk hq => (hqueues pk hq).imp_right (Or.imp_right (hjobs pk)), hjobs⟩

end SameWork

/-! ### Connecting -/

section Connecting

variable {r r' : Router M}

/-- The jobs of a router are sound and worked on. -/
structure Busy (r : Router M) : Prop where
  sound : r.Sound
  jobs : ∀ pk ∈ r.pendingEstablishJobs, r.Working pk

/-- The router stops waiting for a read or a lookup, or it starts to. -/
lemma Busy.of_refs (hr : r.Busy) (hpending : r'.pendingEstablishJobs = r.pendingEstablishJobs)
    (hjobs : r'.jobs = r.jobs) (hrefs : r'.refs.Perm r.refs)
    (hwaiting : ∀ w ∈ r'.waiting, w.job? ≠ none → w ∈ r.waiting) : r'.Busy := by
  refine ⟨⟨fun w hw ref hjob => ?_, hrefs.nodup_iff.mpr hr.sound.unique, ?_⟩, fun pk hpk => ?_⟩
  · rw [hpending]
    exact hr.sound.live w (hwaiting w hw (by rw [hjob]; simp)) ref hjob
  · rw [hpending, hjobs]
    exact hr.sound.ids
  · rw [hpending] at hpk
    obtain ⟨job, hlookup, hmem⟩ := hr.jobs pk hpk
    exact ⟨job, by rw [hpending, hlookup], hrefs.mem_iff.mpr hmem⟩

lemma Busy.await (hr : r.Busy) {w : Waiting} (hjob : w.job? = none) : (r.await w).Busy := by
  refine hr.of_refs rfl rfl ?_ fun w' hw' hne => ?_
  · rw [refs_await, hjob]
    simp
  · rcases List.mem_append.mp hw' with hw' | hw'
    · exact hw'
    · rw [List.mem_singleton.mp hw', hjob] at hne
      exact absurd rfl hne

lemma Busy.take (hr : r.Busy) {w : Waiting} (hjob : w.job? = none) (h : r.take w = some r') :
    r'.Busy := by
  obtain ⟨hmem, rfl⟩ := take_spec h
  exact hr.of_refs rfl rfl (refs_take_none hmem hjob) fun w' hw' _ => List.mem_of_mem_erase hw'

lemma Busy.establish (hr : r.Busy) {pk : PubKey} (hpk : pk ∉ r.pendingEstablishJobs)
    (addr : AddressInfo) (n : UInt16) : (r.establish pk addr n).Busy := by
  have hother {k : PubKey} (hk : k ∈ r.pendingEstablishJobs) : k ≠ pk := fun h => hpk (h ▸ hk)
  have hlookup {k : PubKey} (hk : k ≠ pk) :
      (r.establish pk addr n).pendingEstablishJobs.lookup k = r.pendingEstablishJobs.lookup k :=
    AList.lookup_insert_ne hk
  have hself : (r.establish pk addr n).pendingEstablishJobs.lookup pk =
      some { id := r.jobs, ai := addr, timeout := 10000, retries := n, pubkey := pk } :=
    AList.lookup_insert _
  have hrefs : (r.establish pk addr n).refs = r.refs ++ [⟨pk, r.jobs⟩] := refs_await _
  refine ⟨⟨fun w hw ref hjob => ?_, ?_, fun k job hk => ?_⟩, fun k hk => ?_⟩
  · rcases List.mem_append.mp hw with hw | hw
    · obtain ⟨job, hold, hid, hfits⟩ := hr.sound.live w hw ref hjob
      have hkey : ref.key ∈ r.pendingEstablishJobs := by
        rw [← AList.lookup_isSome, hold]
        rfl
      exact ⟨job, (hlookup (hother hkey)).trans hold, hid, hfits⟩
    · rw [List.mem_singleton.mp hw, Waiting.job?, Option.some.injEq] at hjob
      subst hjob
      refine ⟨_, hself, rfl, ⟨rfl, fun ref' h => ?_, fun ref' rc h => ?_⟩⟩ <;>
        rw [List.mem_singleton.mp hw] at h <;> cases h
  · rw [hrefs]
    refine hr.sound.unique.append (List.nodup_singleton _) ?_
    rw [List.disjoint_singleton]
    -- the number of the new job is a new one
    intro hmem
    obtain ⟨w, hw, hjob⟩ := List.mem_filterMap.mp hmem
    obtain ⟨job, hold, hid, -⟩ := hr.sound.live w hw _ hjob
    have hlt := hr.sound.ids _ job hold
    rw [hid] at hlt
    exact lt_irrefl _ hlt
  · by_cases hne : k = pk
    · rw [hne, hself] at hk
      rw [← Option.some.inj hk]
      exact Nat.lt_succ_self r.jobs
    · rw [hlookup hne] at hk
      exact (hr.sound.ids k job hk).trans (Nat.lt_succ_self r.jobs)
  · by_cases hne : k = pk
    · rw [hne]
      exact ⟨_, hself, by rw [hrefs]; simp⟩
    · have hold : k ∈ r.pendingEstablishJobs := by
        rw [← AList.lookup_isSome, ← hlookup hne]
        exact AList.lookup_isSome.mpr hk
      obtain ⟨job, hjob, hmem⟩ := hr.jobs k hold
      exact ⟨job, (hlookup hne).trans hjob, by rw [hrefs]; exact List.mem_append_left _ hmem⟩

/-- Connecting makes a job if there is none and the contact has an address. -/
lemma Busy.tryConnect (hr : r.Busy) {rc : RouterContact} {n : UInt16}
    (h : (r.tryConnect rc n).map Prod.fst = some r') :
    r'.Busy ∧ r'.outboundMesssageQueue = r.outboundMesssageQueue ∧
      (∀ w : Waiting, w.job? = none → (w ∈ r'.waiting ↔ w ∈ r.waiting)) ∧
      ∀ pk, pk ∈ r'.pendingEstablishJobs ↔
        pk ∈ r.pendingEstablishJobs ∨ rc.pubkey = pk ∧ HasAddress rc := by
  obtain ⟨⟨r₀, done⟩, hconnect, rfl⟩ := Option.map_eq_some_iff.mp h
  rw [Router.tryConnect] at hconnect
  split_ifs at hconnect with hpending
  · obtain ⟨rfl, -⟩ := Prod.mk.inj (Option.some.inj hconnect)
    refine ⟨hr, rfl, fun _ _ => Iff.rfl, fun pk => ⟨.inl, ?_⟩⟩
    rintro (hpk | ⟨rfl, -⟩)
    · exact hpk
    · exact hpending
  · cases haddrs : rc.addrs with
    | none =>
      rw [haddrs] at hconnect
      cases hconnect
    | some addrs =>
      rw [haddrs] at hconnect
      cases addrs with
      | nil =>
        obtain ⟨rfl, -⟩ := Prod.mk.inj (Option.some.inj hconnect)
        refine ⟨hr, rfl, fun _ _ => Iff.rfl, fun pk => ⟨.inl, ?_⟩⟩
        rintro (hpk | ⟨-, haddress⟩)
        · exact hpk
        · exact absurd (by rw [haddrs]; rfl) haddress
      | cons addr rest =>
        obtain ⟨rfl, -⟩ := Prod.mk.inj (Option.some.inj hconnect)
        refine ⟨hr.establish hpending addr n, rfl, fun w hw => ?_, fun pk => ?_⟩
        · refine ⟨fun hmem => ?_, fun hmem => List.mem_append_left _ hmem⟩
          rcases List.mem_append.mp hmem with hmem | hmem
          · exact hmem
          · rw [List.mem_singleton.mp hmem] at hw
            cases hw
        · have haddress : HasAddress rc := by simp [HasAddress, haddrs]
          refine (AList.mem_insert _).trans ?_
          rw [or_comm, eq_comm]
          simp [haddress]

/-- A queue has something in whose care it is. -/
def InCare (r : Router M) (pk : RouterID) : Prop :=
  .load pk ∈ r.waiting ∨ .lookup pk ∈ r.waiting ∨ pk ∈ r.pendingEstablishJobs

/-- When a contact is tried for the router `k`, and the other queues are in care, then it is about
the queue of `k`. -/
lemma Busy.noOrphans_tryConnect_iff (hr : r.Busy) {k : RouterID} {rc : RouterContact} {n : UInt16}
    (hother : ∀ pk, pk ≠ k → r.Queued pk → r.InCare pk)
    (h : (r.tryConnect rc n).map Prod.fst = some r') :
    r'.NoOrphans ↔ (r.Queued k → r.Cares r.waiting k rc) := by
  obtain ⟨hbusy, hqueue, hwaiting, hpending⟩ := hr.tryConnect h
  have hqueued (pk : RouterID) : r'.Queued pk ↔ r.Queued pk := by
    rw [Queued, Queued, hqueue]
  have hcare (pk : RouterID) : (.load pk ∈ r'.waiting ∨ .lookup pk ∈ r'.waiting ∨
      pk ∈ r'.pendingEstablishJobs) ↔ r.Cares r.waiting pk rc := by
    rw [hwaiting _ rfl, hwaiting _ rfl, hpending]
    rfl
  rw [noOrphans_iff, and_iff_right hbusy.jobs]
  constructor
  · intro hall hq
    exact (hcare k).mp (hall k ((hqueued k).mpr hq))
  · intro hk pk hq
    rw [hqueued] at hq
    refine (hcare pk).mpr ?_
    by_cases heq : pk = k
    · rw [heq] at hq ⊢
      exact hk hq
    · exact (hother pk heq hq).imp_right (Or.imp_right .inl)

end Connecting

/-! ### The jobs -/

section Jobs

variable {r r' : Router M} {w : Waiting} {ref : JobRef}

/-- What else is waited for is for the jobs of other routers. -/
lemma Sound.key_ne (hs : r.Sound) (hw : w ∈ r.waiting) (hjob : w.job? = some ref) {v : Waiting}
    {ref' : JobRef} (hv : v ∈ r.waiting.erase w) (hjobv : v.job? = some ref') :
    ref'.key ≠ ref.key := by
  intro heq
  have hin : ref' ∈ (r.waiting.erase w).filterMap Waiting.job? :=
    List.mem_filterMap.mpr ⟨v, hv, hjobv⟩
  exact (((refs_take hs hw hjob).2 ref').mp hin).2
    (hs.ref_eq (List.mem_of_mem_erase hv) hjobv hw hjob heq)

/-- The router goes on with a job: it waits for something else for it. -/
lemma goes_on (w' : Waiting) (job : EstablishJob) (hs : r.Sound) (hn : r.NoOrphans)
    (hw : w ∈ r.waiting) (hjob : w.job? = some ref)
    (hlookup : ∀ pk, r'.pendingEstablishJobs.lookup pk =
      if pk = ref.key then some job else r.pendingEstablishJobs.lookup pk)
    (hid : job.id = ref.id) (hfits : Waiting.Fits w' ref job) (hjob' : w'.job? = some ref)
    (hwaiting : r'.waiting = r.waiting.erase w ++ [w']) (hjobs : r'.jobs = r.jobs)
    (hqueue : r'.outboundMesssageQueue = r.outboundMesssageQueue) : r'.Sound ∧ r'.NoOrphans := by
  obtain ⟨hnodup, hmem⟩ := refs_take hs hw hjob
  have hrefs : r'.refs = (r.waiting.erase w).filterMap Waiting.job? ++ [ref] := by
    rw [refs, hwaiting, List.filterMap_append]
    simp [hjob']
  -- the job was there already, so the same routers have one
  have hpending (pk : PubKey) : pk ∈ r'.pendingEstablishJobs ↔ pk ∈ r.pendingEstablishJobs := by
    rw [← AList.lookup_isSome, ← AList.lookup_isSome, hlookup]
    split_ifs with heq
    · obtain ⟨old, hold, -⟩ := hs.live w hw ref hjob
      rw [heq, hold]
      exact iff_of_true rfl rfl
    · rfl
  have hkeep (v : Waiting) (hv : v.job? = none) : v ∈ r'.waiting ↔ v ∈ r.waiting := by
    rw [hwaiting, List.mem_append, mem_erase_of_job hjob hv, List.mem_singleton, or_iff_left]
    rintro rfl
    rw [hjob'] at hv
    cases hv
  refine ⟨⟨fun v hv ref' hjobv => ?_, ?_, fun pk old hpk => ?_⟩,
    noOrphans_iff.mpr ⟨fun pk hpk => ?_, fun pk hq => ?_⟩⟩
  · rw [hwaiting] at hv
    rcases List.mem_append.mp hv with hv | hv
    -- what else is waited for is for the jobs of other routers
    · rw [hlookup, if_neg (hs.key_ne hw hjob hv hjobv)]
      exact hs.live v (List.mem_of_mem_erase hv) ref' hjobv
    · obtain rfl := List.mem_singleton.mp hv
      rw [hjob', Option.some.injEq] at hjobv
      subst hjobv
      exact ⟨job, by rw [hlookup, if_pos rfl], hid, hfits⟩
  · rw [hrefs]
    refine hnodup.append (List.nodup_singleton ref) (List.disjoint_singleton.mpr fun h => ?_)
    exact ((hmem ref).mp h).2 rfl
  · rw [hjobs]
    rw [hlookup] at hpk
    split_ifs at hpk with heq
    · obtain ⟨old', hold, hidold, -⟩ := hs.live w hw ref hjob
      rw [← Option.some.inj hpk, hid, ← hidold]
      exact hs.ids _ old' hold
    · exact hs.ids pk old hpk
  · rw [hpending] at hpk
    -- this job is referred to by what is waited for now
    by_cases heq : pk = ref.key
    · refine ⟨job, by rw [hlookup, if_pos heq], ?_⟩
      rw [hrefs, heq, hid]
      exact List.mem_append_right _ List.mem_cons_self
    · obtain ⟨old, hold, hin⟩ := hn.jobs pk hpk
      refine ⟨old, by rw [hlookup, if_neg heq, hold], ?_⟩
      rw [hrefs]
      exact List.mem_append_left _ ((hmem _).mpr ⟨hin, fun h => heq (congrArg JobRef.key h)⟩)
  · rw [Queued, hqueue] at hq
    rw [hkeep _ rfl, hkeep _ rfl, hpending]
    exact (noOrphans_iff.mp hn).2 pk hq

/-- The router is done with a job: it is erased, and the queue is emptied. -/
lemma done (hs : r.Sound) (hn : r.NoOrphans) (hw : w ∈ r.waiting) (hjob : w.job? = some ref)
    (hlookup : ∀ pk, r'.pendingEstablishJobs.lookup pk =
      if pk = ref.key then none else r.pendingEstablishJobs.lookup pk)
    (hwaiting : r'.waiting = r.waiting.erase w) (hjobs : r'.jobs = r.jobs)
    (hqueue : ∀ pk, r'.Queued pk → pk ≠ ref.key ∧ r.Queued pk) : r'.Sound ∧ r'.NoOrphans := by
  obtain ⟨hnodup, hmem⟩ := refs_take hs hw hjob
  -- only the jobs of other routers are left, and the queue of this one is empty
  have hpending {pk : PubKey} (hpk : pk ∈ r'.pendingEstablishJobs) :
      pk ≠ ref.key ∧ pk ∈ r.pendingEstablishJobs := by
    rw [← AList.lookup_isSome, hlookup] at hpk
    by_cases heq : pk = ref.key
    · rw [if_pos heq] at hpk
      cases hpk
    · rw [if_neg heq] at hpk
      exact ⟨heq, AList.lookup_isSome.mp hpk⟩
  refine ⟨⟨fun v hv ref' hjobv => ?_, ?_, fun pk old hpk => ?_⟩,
    noOrphans_iff.mpr ⟨fun pk hpk => ?_, fun pk hq => ?_⟩⟩
  · rw [hwaiting] at hv
    rw [hlookup, if_neg (hs.key_ne hw hjob hv hjobv)]
    exact hs.live v (List.mem_of_mem_erase hv) ref' hjobv
  · rw [refs, hwaiting]
    exact hnodup
  · rw [hjobs]
    rw [hlookup] at hpk
    split_ifs at hpk
    exact hs.ids pk old hpk
  · obtain ⟨hne, hold⟩ := hpending hpk
    obtain ⟨old, hlook, hin⟩ := hn.jobs pk hold
    refine ⟨old, by rw [hlookup, if_neg hne, hlook], ?_⟩
    rw [refs, hwaiting]
    exact (hmem _).mpr ⟨hin, fun h => hne (congrArg JobRef.key h)⟩
  · obtain ⟨hne, hq⟩ := hqueue pk hq
    rw [hwaiting, mem_erase_of_job hjob rfl, mem_erase_of_job hjob rfl]
    refine ((noOrphans_iff.mp hn).2 pk hq).imp_right (Or.imp_right fun hpk => ?_)
    rw [← AList.lookup_isSome, hlookup, if_neg hne]
    exact AList.lookup_isSome.mpr hpk

/-- A job that is still there, but not waited for any more, is an orphan. -/
lemma not_noOrphans (hs : r.Sound) (hw : w ∈ r.waiting) (hjob : w.job? = some ref)
    (hlookup : r'.pendingEstablishJobs.lookup ref.key = r.pendingEstablishJobs.lookup ref.key)
    (hwaiting : r'.waiting = r.waiting.erase w) : ¬ r'.NoOrphans := by
  intro hn
  obtain ⟨job, hold, hid, -⟩ := hs.live w hw ref hjob
  have hpk : ref.key ∈ r'.pendingEstablishJobs := by
    rw [← AList.lookup_isSome, hlookup, hold]
    rfl
  obtain ⟨job', hlook, hin⟩ := hn.jobs ref.key hpk
  rw [hlookup, hold, Option.some.injEq] at hlook
  rw [refs, hwaiting, ← hlook, hid] at hin
  exact (((refs_take hs hw hjob).2 ref).mp hin).2 rfl

end Jobs

/-! ### Events -/

section Events

variable {enc : M → Option Bytes} {r r' r₀ : Router M}

lemma job_spec {ref : JobRef} {job : EstablishJob} (h : r.job ref = some job) :
    r.pendingEstablishJobs.lookup ref.key = some job ∧ job.id = ref.id := by
  obtain ⟨hlookup, hid⟩ := Option.filter_eq_some_iff.mp h
  exact ⟨hlookup, by simpa using hid⟩

lemma lookup_setJob (ref : JobRef) (job : EstablishJob) (pk : PubKey) :
    (r.setJob ref job).pendingEstablishJobs.lookup pk =
      if pk = ref.key then some job else r.pendingEstablishJobs.lookup pk := by
  rw [setJob]
  split_ifs with heq
  · rw [heq]
    exact AList.lookup_insert _
  · exact AList.lookup_insert_ne heq

lemma lookup_eraseJob (pk' pk : PubKey) : (r.eraseJob pk').pendingEstablishJobs.lookup pk =
    if pk = pk' then none else r.pendingEstablishJobs.lookup pk := by
  rw [eraseJob]
  split_ifs with heq
  · rw [heq]
    exact AList.lookup_erase _ _
  · exact AList.lookup_erase_ne heq

lemma queued_discard {k pk : RouterID} (h : (r.discardOutboundFor k).Queued pk) :
    pk ≠ k ∧ r.Queued pk := by
  rw [Queued, discardOutboundFor] at h
  by_cases heq : pk = k
  · rw [heq, AList.lookup_erase] at h
    exact absurd rfl h
  · rw [AList.lookup_erase_ne heq] at h
    exact ⟨heq, h⟩

lemma sameWork_sendAll (enc : M → Option Bytes) (remote : RouterID) (msgs : List M) (r : Router M) :
    SameWork r (msgs.foldl (fun r msg => r.sendTo enc remote msg) r) :=
  List.foldlRecOn (motive := SameWork r) _ _ (.refl r) fun _ hd _ _ => hd.trans ⟨rfl, rfl, rfl, rfl⟩

/-- Flushing empties the queue of the router, and leaves the rest. -/
lemma flush_spec (enc : M → Option Bytes) (r : Router M) (k : RouterID) :
    (r.flushOutboundFor enc k).pendingEstablishJobs = r.pendingEstablishJobs ∧
      (r.flushOutboundFor enc k).waiting = r.waiting ∧ (r.flushOutboundFor enc k).jobs = r.jobs ∧
      ∀ pk, (r.flushOutboundFor enc k).Queued pk → pk ≠ k ∧ r.Queued pk := by
  rw [flushOutboundFor]
  cases hlookup : r.outboundMesssageQueue.lookup k with
  | none =>
    refine ⟨rfl, rfl, rfl, fun pk hq => ⟨?_, hq⟩⟩
    rintro rfl
    exact hq (by rw [hlookup]; rfl)
  | some queue =>
    have hsame := sameWork_sendAll enc k queue r
    refine ⟨hsame.pendingEstablishJobs, hsame.waiting, hsame.jobs, fun pk hq => ?_⟩
    rw [Queued] at hq
    by_cases heq : pk = k
    · rw [heq] at hq
      exact absurd (by rw [AList.lookup_insert]; rfl) hq
    · refine ⟨heq, ?_⟩
      rw [AList.lookup_insert_ne heq] at hq
      exact hq

lemma sameWork_track {rc : RouterContact} {place : ℕ} (h : r.track rc place = some r') :
    SameWork r r' := by
  obtain ⟨⟨r₁, a⟩, hset, rfl⟩ := Option.map_eq_some_iff.mp h
  rw [setValid] at hset
  split at hset
  · obtain ⟨rfl, -⟩ := Prod.mk.inj (Option.some.inj hset)
    exact ⟨rfl, rfl, rfl, rfl⟩
  · split_ifs at hset
    obtain ⟨rfl, -⟩ := Prod.mk.inj (Option.some.inj hset)
    exact ⟨rfl, rfl, rfl, rfl⟩

lemma sameWork_sessionClosed (remote : RouterID) : SameWork r (r.sessionClosed remote) := by
  rw [sessionClosed]
  split <;> exact ⟨rfl, rfl, rfl, rfl⟩

lemma queued_enqueue (k : RouterID) (msg : M) (pk : RouterID) :
    (r.enqueue k msg).Queued pk ↔ pk = k ∨ r.Queued pk := by
  rw [Queued, enqueue]
  by_cases heq : pk = k
  · rw [heq, AList.lookup_insert]
    simp
  · rw [AList.lookup_insert_ne heq]
    simp [heq, Queued]

/-- A message is queued. -/
lemma step_send (hs : r.Sound) (hn : r.NoOrphans) {remote : RouterID} {msg : M} {connected : Bool}
    (h : r.sendToOrQueue enc remote msg connected = some r') :
    (r'.NoOrphans ↔ r.KeepsQueues (.send remote msg connected)) ∧ r'.Sound := by
  rw [sendToOrQueue] at h
  split_ifs at h with hconnected
  · have hsame : SameWork r r' := by
      rw [← Option.some.inj h]
      exact ⟨rfl, rfl, rfl, rfl⟩
    refine ⟨iff_of_true (hsame.noOrphans hn) fun hno => ?_, hsame.sound hs⟩
    rw [hconnected] at hno
    cases hno
  have hbusy : (r.enqueue remote msg).Busy :=
    Busy.of_refs ⟨hs, hn.jobs⟩ rfl rfl (List.Perm.refl _) fun w hw _ => hw
  have hother (pk : RouterID) (hne : pk ≠ remote) (hq : (r.enqueue remote msg).Queued pk) :
      (r.enqueue remote msg).InCare pk :=
    (noOrphans_iff.mp hn).2 pk (((queued_enqueue remote msg pk).mp hq).resolve_left hne)
  -- without one it is queued, and somebody has to care for the queue
  cases hdb : r.nodedb.lookup remote with
  | none =>
    rw [hdb] at h
    rw [← Option.some.inj h]
    refine ⟨iff_of_true (noOrphans_iff.mpr ⟨(hbusy.await rfl).jobs, fun pk hq => ?_⟩)
      fun _ rc hrc => ?_, (hbusy.await rfl).sound⟩
    · by_cases heq : pk = remote
      · rw [heq]
        exact .inl (List.mem_append_right _ List.mem_cons_self)
      · exact (hother pk heq hq).imp (List.mem_append_left _)
          (Or.imp_left (List.mem_append_left _))
    · rw [hdb] at hrc
      cases hrc
  | some rc =>
    rw [hdb] at h
    refine ⟨?_, (hbusy.tryConnect h).1.sound⟩
    rw [hbusy.noOrphans_tryConnect_iff hother h, KeepsQueues, hdb]
    constructor
    · rintro hcares - _ ⟨⟩
      exact hcares ((queued_enqueue remote msg remote).mpr (.inl rfl))
    · intro hcares _
      exact hcares (by simpa using hconnected) rc rfl

/-- A router that stops waiting for something still cares for the queues it was not for. -/
lemma NoOrphans.inCare_erase (hn : r.NoOrphans) {pk : RouterID} (hq : r.Queued pk)
    (hload : .load pk ≠ w) (hlookup : .lookup pk ≠ w) :
    ({ r with waiting := r.waiting.erase w } : Router M).InCare pk :=
  ((noOrphans_iff.mp hn).2 pk hq).imp (List.mem_erase_of_ne hload).mpr
    (Or.imp_left (List.mem_erase_of_ne hlookup).mpr)

/-- A contact was read from disk, or not. -/
lemma step_loaded (hs : r.Sound) (hn : r.NoOrphans) {pubkey : PubKey}
    {file : Option RouterContact} (htake : r.take (.load pubkey) = some r₀)
    (h : r₀.handleAsyncLoadRC pubkey file = some r') :
    (r'.NoOrphans ↔ r.KeepsQueues (.loaded pubkey file)) ∧ r'.Sound := by
  have hbusy : r₀.Busy := Busy.take ⟨hs, hn.jobs⟩ rfl htake
  obtain ⟨-, rfl⟩ := take_spec htake
  have hother (pk : RouterID) (hne : pk ≠ pubkey) (hq : r.Queued pk) :
      ({ r with waiting := r.waiting.erase (.load pubkey) } : Router M).InCare pk :=
    hn.inCare_erase hq (by simpa using hne) (by simp)
  cases file with
  | none =>
    rw [← Option.some.inj h]
    refine ⟨iff_of_true (noOrphans_iff.mpr ⟨(hbusy.await rfl).jobs, fun pk hq => ?_⟩)
      (fun rc hrc => by cases hrc), (hbusy.await rfl).sound⟩
    by_cases heq : pk = pubkey
    · rw [heq]
      exact .inr (.inl (List.mem_append_right _ List.mem_cons_self))
    · exact (hother pk heq hq).imp (List.mem_append_left _) (Or.imp_left (List.mem_append_left _))
  | some rc =>
    have hbusy' : (({ r with waiting := r.waiting.erase (.load pubkey) } : Router M).setRC rc
        |>.getRC pubkey).2.Busy := hbusy.of_refs rfl rfl (List.Perm.refl _) fun w hw _ => hw
    refine ⟨?_, (hbusy'.tryConnect h).1.sound⟩
    rw [hbusy'.noOrphans_tryConnect_iff hother h]
    exact ⟨fun hcares _ hrc => by cases hrc; exact hcares, fun hcares => hcares rc rfl⟩

/-- A lookup in the DHT has ended. -/
lemma step_lookedUp (hs : r.Sound) (hn : r.NoOrphans) {target : Key}
    {found : Option RouterContact} (htake : r.take (.lookup target) = some r₀)
    (h : r₀.handleDHTLookup target found = some r') :
    (r'.NoOrphans ↔ r.KeepsQueues (.lookedUp target found)) ∧ r'.Sound := by
  have hbusy : r₀.Busy := Busy.take ⟨hs, hn.jobs⟩ rfl htake
  obtain ⟨-, rfl⟩ := take_spec htake
  have hother (pk : RouterID) (hne : pk ≠ target) (hq : r.Queued pk) :
      ({ r with waiting := r.waiting.erase (.lookup target) } : Router M).InCare pk :=
    hn.inCare_erase hq (by simp) (by simpa using hne)
  cases found with
  | none =>
    rw [← Option.some.inj h]
    have hbusy' : (({ r with waiting := r.waiting.erase (.lookup target) } :
        Router M).discardOutboundFor target).Busy :=
      hbusy.of_refs rfl rfl (List.Perm.refl _) fun w hw _ => hw
    refine ⟨iff_of_true (noOrphans_iff.mpr ⟨hbusy'.jobs, fun pk hq => ?_⟩)
      (fun rc hrc => by cases hrc), hbusy'.sound⟩
    obtain ⟨hne, hq⟩ := queued_discard hq
    exact hother pk hne hq
  | some rc =>
    refine ⟨?_, (hbusy.tryConnect h).1.sound⟩
    rw [hbusy.noOrphans_tryConnect_iff hother h]
    exact ⟨fun hcares _ hrc => by cases hrc; exact hcares, fun hcares => hcares rc rfl⟩

/-- An attempt has ended. -/
lemma step_attempted (hs : r.Sound) (hn : r.NoOrphans) {ref : JobRef}
    {session : Option RouterContact} (htake : r.take (.attempt ref) = some r₀)
    (h : r₀.onTryConnectResult ref session = some r') : r'.Sound ∧ r'.NoOrphans := by
  obtain ⟨hmem, rfl⟩ := take_spec htake
  obtain ⟨job, hjob, rfl⟩ := Option.map_eq_some_iff.mp h
  obtain ⟨hlookup, hid⟩ := job_spec hjob
  obtain ⟨job', hlookup', -, hfits⟩ := hs.live _ hmem ref rfl
  have heq : job' = job := Option.some.inj (hlookup'.symm.trans hlookup)
  rw [heq] at hfits
  cases session with
  | some remote =>
    refine goes_on (.verify ref remote) { job with link := true, session := some remote } hs hn hmem
      rfl (fun pk => lookup_setJob ref _ pk) hid
      ⟨hfits.pubkey, fun _ _ => rfl, fun _ _ _ => rfl⟩ rfl rfl rfl rfl
  | none =>
    dsimp only
    split_ifs with hretries
    · refine goes_on (.timer ref) { job with
          link := true, session := none, retries := job.retries - 1
          timeout := job.timeout * 3 / 2 } hs hn hmem rfl (fun pk => lookup_setJob ref _ pk) hid
        ⟨hfits.pubkey, fun _ _ => rfl, ?_⟩ rfl rfl rfl rfl
      intro ref' rc h
      cases h
    · refine done hs hn hmem rfl (fun pk => ?_) rfl rfl fun pk hq => ?_
      · rw [hfits.pubkey]
        exact lookup_eraseJob ref.key pk
      · rw [hfits.pubkey] at hq
        exact queued_discard hq

/-- The timer for the next attempt has fired. -/
lemma step_retried (hs : r.Sound) (hn : r.NoOrphans) {ref : JobRef}
    (htake : r.take (.timer ref) = some r₀) (h : r₀.connectJobRetry ref = some r') :
    r'.Sound ∧ r'.NoOrphans := by
  obtain ⟨hmem, rfl⟩ := take_spec htake
  obtain ⟨job, hjob, rfl⟩ := Option.map_eq_some_iff.mp h
  obtain ⟨hlookup, hid⟩ := job_spec hjob
  obtain ⟨job', hlookup', -, hfits⟩ := hs.live _ hmem ref rfl
  have heq : job' = job := Option.some.inj (hlookup'.symm.trans hlookup)
  rw [heq] at hfits
  rw [if_pos (hfits.link ref rfl)]
  have hattempt : Waiting.Fits (.attempt ref) ref job :=
    ⟨hfits.pubkey, fun _ h => (by cases h), fun _ _ h => (by cases h)⟩
  refine goes_on (.attempt ref) job hs hn hmem rfl (fun pk => ?_) hid hattempt rfl rfl rfl rfl
  by_cases hkey : pk = ref.key
  · rw [if_pos hkey, hkey]
    exact hlookup
  · rw [if_neg hkey]
    rfl

/-- The check of a contact erases the job and empties the queue of the router of the contact. -/
lemma onVerifyServerRC_spec {ref : JobRef} {rc : RouterContact} {signed saved : Bool} {place : ℕ}
    (hsession : ∀ job, r.job ref = some job → job.session.isSome = true)
    (h : r.onVerifyServerRC enc ref rc signed saved place = some r') :
    (∀ pk, r'.pendingEstablishJobs.lookup pk =
        if pk = rc.pubkey then none else r.pendingEstablishJobs.lookup pk) ∧
      r'.waiting = r.waiting ∧ r'.jobs = r.jobs ∧
      ∀ pk, r'.Queued pk → pk ≠ rc.pubkey ∧ r.Queued pk := by
  have hdb : SameWork r (if signed then r.setRC rc else r) := by
    split_ifs <;> exact ⟨rfl, rfl, rfl, rfl⟩
  have hjob (d : Router M) (hd : SameWork r d) : d.job ref = r.job ref := by
    rw [job, job, hd.pendingEstablishJobs]
  unfold onVerifyServerRC at h
  generalize (if signed then r.setRC rc else r) = r₀ at h hdb
  cases hvalid : signed && saved with
  | true =>
    rw [hvalid] at h
    obtain ⟨r₁, htrack, h⟩ := Option.bind_eq_some_iff.mp h
    have hsame := hdb.trans (sameWork_track htrack)
    obtain ⟨job, hlookup, rfl⟩ := Option.map_eq_some_iff.mp h
    rw [hjob r₁ hsame] at hlookup
    rw [if_pos (hsession job hlookup)]
    obtain ⟨hpending, hwaiting, hjobs, hqueue⟩ := flush_spec enc r₁ rc.pubkey
    refine ⟨fun pk => ?_, hwaiting.trans hsame.waiting, hjobs.trans hsame.jobs, fun pk hq => ?_⟩
    · rw [lookup_eraseJob, hpending, hsame.pendingEstablishJobs]
    · obtain ⟨hne, hq⟩ := hqueue pk hq
      exact ⟨hne, (hsame.queued_iff pk).mp hq⟩
  | false =>
    rw [hvalid] at h
    obtain ⟨job, -, rfl⟩ := Option.map_eq_some_iff.mp h
    refine ⟨fun pk => ?_, hdb.waiting, hdb.jobs, fun pk hq => ?_⟩
    · rw [← hdb.pendingEstablishJobs]
      exact lookup_eraseJob rc.pubkey pk
    · obtain ⟨hne, hq⟩ := queued_discard hq
      exact ⟨hne, (hdb.queued_iff pk).mp hq⟩

/-- The contact of the other end was checked. -/
lemma step_verified (hs : r.Sound) (hn : r.NoOrphans) {ref : JobRef} {rc : RouterContact}
    {signed saved : Bool} {place : ℕ} (htake : r.take (.verify ref rc) = some r₀)
    (h : r₀.onVerifyServerRC enc ref rc signed saved place = some r') :
    (r'.NoOrphans ↔ rc.pubkey = ref.key) ∧ (rc.pubkey = ref.key → r'.Sound) := by
  obtain ⟨hmem, rfl⟩ := take_spec htake
  obtain ⟨hlookup, hwaiting, hjobs, hqueue⟩ := onVerifyServerRC_spec (fun job hjob => by
    obtain ⟨hold, -⟩ := job_spec hjob
    obtain ⟨job', hold', -, hfits⟩ := hs.live _ hmem ref rfl
    have heq : job' = job := Option.some.inj (hold'.symm.trans hold)
    rw [← heq]
    exact hfits.session ref rc rfl) h
  by_cases hkey : rc.pubkey = ref.key
  · rw [hkey] at hlookup hqueue
    obtain ⟨hsound, hnone⟩ := done hs hn hmem rfl hlookup hwaiting hjobs hqueue
    exact ⟨iff_of_true hnone hkey, fun _ => hsound⟩
  · refine ⟨iff_of_false ?_ hkey, fun h => absurd h hkey⟩
    refine not_noOrphans hs hmem rfl ?_ hwaiting
    rw [hlookup, if_neg (Ne.symm hkey)]

/-- An event leaves no orphan exactly when it keeps the queues. -/
lemma noOrphans_step_iff (hs : r.Sound) (hn : r.NoOrphans) {e : RouterEvent M}
    (h : r.step enc e = some r') :
    (r'.NoOrphans ↔ r.KeepsQueues e) ∧ (r.KeepsQueues e → r'.Sound) := by
  cases e with
  | send remote msg connected =>
    obtain ⟨hiff, hsound⟩ := step_send hs hn h
    exact ⟨hiff, fun _ => hsound⟩
  | loaded pubkey file =>
    obtain ⟨r₀, htake, h⟩ := Option.bind_eq_some_iff.mp h
    obtain ⟨hiff, hsound⟩ := step_loaded hs hn htake h
    exact ⟨hiff, fun _ => hsound⟩
  | lookedUp target found =>
    obtain ⟨r₀, htake, h⟩ := Option.bind_eq_some_iff.mp h
    obtain ⟨hiff, hsound⟩ := step_lookedUp hs hn htake h
    exact ⟨hiff, fun _ => hsound⟩
  | attempted job session =>
    obtain ⟨r₀, htake, h⟩ := Option.bind_eq_some_iff.mp h
    obtain ⟨hsound, hnone⟩ := step_attempted hs hn htake h
    exact ⟨iff_of_true hnone trivial, fun _ => hsound⟩
  | retried job =>
    obtain ⟨r₀, htake, h⟩ := Option.bind_eq_some_iff.mp h
    obtain ⟨hsound, hnone⟩ := step_retried hs hn htake h
    exact ⟨iff_of_true hnone trivial, fun _ => hsound⟩
  | verified job rc signed saved place =>
    obtain ⟨r₀, htake, h⟩ := Option.bind_eq_some_iff.mp h
    exact step_verified hs hn htake h
  | closed remote =>
    rw [← Option.some.inj h]
    have hsame := sameWork_sessionClosed (r := r) remote
    exact ⟨iff_of_true (hsame.noOrphans hn) trivial, fun _ => hsame.sound hs⟩
  | connect rc =>
    have hbusy : r.Busy := ⟨hs, hn.jobs⟩
    obtain ⟨hbusy', hqueue, hwaiting, hpending⟩ := hbusy.tryConnect h
    refine ⟨iff_of_true (noOrphans_iff.mpr ⟨hbusy'.jobs, fun pk hq => ?_⟩) trivial,
      fun _ => hbusy'.sound⟩
    rw [Queued, hqueue] at hq
    rw [hwaiting _ rfl, hwaiting _ rfl, hpending]
    exact ((noOrphans_iff.mp hn).2 pk hq).imp_right (Or.imp_right .inl)
  | dht call =>
    have hsame : SameWork r r' := by
      rw [step] at h
      split_ifs at h
      rw [← Option.some.inj h]
      exact ⟨rfl, rfl, rfl, rfl⟩
    exact ⟨iff_of_true (hsame.noOrphans hn) trivial, fun _ => hsame.sound hs⟩

end Events

/-! ### Runs -/

section Runs

variable {enc : M → Option Bytes} {r : Router M}

lemma Initial.sound (h : r.Initial) : r.Sound where
  live := by
    intro w hw
    rw [h.waiting] at hw
    cases hw
  unique := by
    rw [refs, h.waiting]
    exact List.nodup_nil
  ids := by
    intro pk job hjob
    rw [h.pendingEstablishJobs] at hjob
    simp at hjob

lemma Initial.noOrphans (h : r.Initial) : r.NoOrphans := by
  refine ⟨fun pk hq => ?_, fun pk hpk => ?_⟩
  · rw [Queued, h.outboundMesssageQueue] at hq
    exact absurd rfl hq
  · rw [h.pendingEstablishJobs] at hpk
    simp at hpk

lemma along_iff (hs : r.Sound) (hn : r.NoOrphans) (events : List (RouterEvent M)) :
    (∀ l, l <+: events → ∀ r' ∈ r.run enc l, r'.NoOrphans) ↔ Along enc KeepsQueues r events := by
  induction events generalizing r with
  | nil =>
    refine iff_of_true (fun l hl r' hr' => ?_) trivial
    rw [List.prefix_nil.mp hl] at hr'
    rw [← Option.some.inj hr']
    exact hn
  | cons e es ih =>
    constructor
    -- the condition on an event is read off the state after it
    · intro hall r₁ hr₁
      have hnone : r₁.NoOrphans := hall [e] (List.cons_prefix_cons.mpr ⟨rfl, List.nil_prefix⟩) r₁
        (Option.bind_eq_some_iff.mpr ⟨r₁, hr₁, rfl⟩)
      have hstep := noOrphans_step_iff hs hn hr₁
      have hkeeps := hstep.1.mp hnone
      refine ⟨hkeeps, (ih (hstep.2 hkeeps) hnone).mp fun l hl r' hr' => ?_⟩
      exact hall (e :: l) (List.cons_prefix_cons.mpr ⟨rfl, hl⟩) r'
        (Option.bind_eq_some_iff.mpr ⟨r₁, hr₁, hr'⟩)
    · intro hall l hl r' hr'
      cases l with
      | nil =>
        rw [← Option.some.inj hr']
        exact hn
      | cons e' l =>
        obtain ⟨rfl, hl'⟩ := List.cons_prefix_cons.mp hl
        obtain ⟨r₁, hr₁, hrest⟩ := Option.bind_eq_some_iff.mp hr'
        obtain ⟨hkeeps, hmore⟩ := hall r₁ hr₁
        have hstep := noOrphans_step_iff hs hn hr₁
        exact (ih (hstep.2 hkeeps) (hstep.1.mpr hkeeps)).mpr hmore l hl' r' hrest

/-- In every state of a run every queued message is in somebody's care, and there is no job that is
not being worked on, exactly when the events of the run keep the queues. -/
theorem no_orphaned_message (enc : M → Option Bytes) (r : Router M) (h : r.Initial)
    (events : List (RouterEvent M)) :
    (∀ l, l <+: events → ∀ r' ∈ r.run enc l, r'.NoOrphans) ↔ Along enc KeepsQueues r events :=
  along_iff h.sound h.noOrphans events

/-- A message for the router 9, whose contact comes from the DHT. -/
def sendNine (rc : RouterContact) : List (RouterEvent Unit) :=
  [.send (lastByte 9) () false, .loaded (lastByte 9) none, .lookedUp (lastByte 9) (some rc)]

/-- The message is sent when the contact of the router 9 was found valid. -/
theorem no_orphaned_message_nine :
    (∀ l, l <+: sendNine (reachableAt 9) ++ meetNine.tail →
      ∀ r' ∈ lonelyRouter.run (fun _ => some []) l, r'.NoOrphans) ∧
    (lonelyRouter.run (fun _ => some []) (sendNine (reachableAt 9) ++ meetNine.tail)).map
      (·.linkSent) = some [(lastByte 9, [])] := by
  refine ⟨(no_orphaned_message _ lonelyRouter lonelyRouter_initial _).mpr ?_, by decide +kernel⟩
  have hsent : lonelyRouter.KeepsQueues (.send (lastByte 9) () false) :=
    fun _ rc hrc => by cases hrc
  have hloaded (r : Router Unit) : r.KeepsQueues (.loaded (lastByte 9) none) :=
    fun rc hrc => by cases hrc
  have hfound (r : Router Unit) :
      r.KeepsQueues (.lookedUp (lastByte 9) (some (reachableAt 9))) := by
    rintro _ ⟨⟩ -
    exact .inr (.inr (.inr ⟨rfl, by simp [HasAddress, reachableAt]⟩))
  intro r₁ _
  refine ⟨hsent, fun r₂ _ => ⟨hloaded r₁, fun r₃ _ => ⟨hfound r₂, fun r₄ _ => ?_⟩⟩⟩
  exact ⟨trivial, fun r₅ _ => ⟨rfl, trivial⟩⟩

/-- A contact without an address is not connected to, and the message stays in the queue. -/
theorem message_orphaned : ¬ ∀ (M : Type) (enc : M → Option Bytes) (r : Router M),
    r.ReachableBy enc → r.NoOrphans := by
  intro h
  let rc : RouterContact := { pubkey := lastByte 9, addrs := some [] }
  have hrun : (lonelyRouter.run (fun _ => none) (sendNine rc)).map (fun r =>
      (r.waiting, r.pendingEstablishJobs.keys, r.outboundMesssageQueue.lookup (lastByte 9))) =
      some ([], [], some [()]) := by decide +kernel
  obtain ⟨r, hr, heq⟩ := Option.map_eq_some_iff.mp hrun
  simp only [Prod.mk.injEq] at heq
  obtain ⟨hwaiting, hkeys, hqueue⟩ := heq
  have hreach : lonelyRouter.ReachableBy fun _ => none := ⟨_, lonelyRouter_initial, .refl⟩
  have hqueued : r.Queued (lastByte 9) := by simp [Queued, hqueue]
  obtain hmem | hmem | hworking := (h _ _ r (hreach.run hr)).queues _ hqueued
  · simp [hwaiting] at hmem
  · simp [hwaiting] at hmem
  · have hmem := AList.mem_keys.mp hworking.mem
    simp [hkeys] at hmem

end Runs

end Router

end Udap
