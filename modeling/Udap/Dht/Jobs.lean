import Udap.Dht.Calls
import Udap.Lib.Tally

/-!
The lookup jobs of a context, over runs of calls.

A job that is submitted is held by a pending transaction until its hook is called. Handling an
empty answer asks the next peer with `nullptr` for the job, and `LookupRouter` returns without a
word when a key is zero: then the job is neither held nor called (`KeepsJobs`).

* `accounted_call`: the hooks that were called and the transactions that hold a job, together,
  grow by what is submitted and shrink by what is lost.
* `jobs_completed_once`: the runs in which every job is called once or held once.
-/

namespace Udap.Dht

/-- The transaction holds the job. -/
def SearchJob.holds (j : SearchJob) (job : LookupJob) : Bool := j.job = some job

/-- The transaction holds a job whose hook is to be called. -/
def SearchJob.hooked (j : SearchJob) : Bool := j.job.any (·.hook)

namespace Context

/-- How often the hook of the job was called. -/
def called (c : Context) (job : LookupJob) : ℕ := (c.hooks.map Prod.fst).count job

/-- How many transactions hold the job. -/
def held (c : Context) (job : LookupJob) : ℕ :=
  c.pendingTX.tally (·.holds job)

/-- How often the job is submitted. -/
def submitted (calls : List Call) (job : LookupJob) : ℕ :=
  calls.countP fun i => i.job = some job

/-- A call that asks a peer does not answer a transaction with a hooked job, and the new
transaction is made, unless it is for no hooked job, and takes the place of none. -/
def KeepsJobs (c : Context) (i : Call) : Prop :=
  ∀ a ∈ c.asks i,
    (∀ k ∈ c.answers i, k.2.hooked = false) ∧
    if a.void then a.job.any (·.hook) = false
    else ∀ j ∈ c.pendingTX.lookup (a.peer, c.ids + 1), j.hooked = false

instance (c : Context) (i : Call) : Decidable (c.KeepsJobs i) :=
  inferInstanceAs (Decidable (∀ a ∈ c.asks i, _ ∧ ite _ _ _))

/-- The calls of a run all meet `C`, each in the context before it. -/
def Along (C : Context → Call → Prop) : Context → List Call → Prop
  | _, [] => True
  | c, i :: rest => C c i ∧ Along C (c.call i) rest

/-! ### One call -/

section Accounts

variable {c c' : Context} {job : LookupJob} {i : Call}

/-- The hooks called and the transactions held. -/
def account (c : Context) (job : LookupJob) : ℕ := c.called job + c.held job

lemma Same.account_eq (h : Same c c') (job : LookupJob) : c'.account job = c.account job := by
  rw [account, account, called, called, held, held, h.hooks, h.pendingTX]

lemma called_completed (hhook : job.hook = true) (j : SearchJob) (r : Option RouterContact) :
    (c.completed j r).called job = c.called job + if j.holds job then 1 else 0 := by
  unfold completed called SearchJob.holds
  cases hj : j.job with
  | none => simp
  | some job' =>
    by_cases heq : job' = job
    · subst heq
      simp [hhook]
    · dsimp only
      split_ifs <;> simp_all

/-- Asking makes a transaction for the job, in the place of the one under the same key. -/
lemma account_ask (c : Context) (job : LookupJob) (now : UInt64) (a : Ask)
    (hvoid : a.void = false) :
    (c.ask now a).account job +
        (if (c.pendingTX.lookup (a.peer, c.ids + 1)).any (·.holds job) then 1 else 0) =
      c.account job + if (a.entry now (c.ids + 1)).holds job then 1 else 0 := by
  have htally := AList.tally_insert (·.holds job) c.pendingTX
    (a.peer, c.ids + 1) (a.entry now (c.ids + 1))
  have hask : (c.ask now a).pendingTX = c.pendingTX.insert (a.peer, c.ids + 1)
      (a.entry now (c.ids + 1)) ∧ (c.ask now a).hooks = c.hooks := by
    rw [Ask.void] at hvoid
    simp only [ask, lookupRouter, hvoid]
    exact ⟨rfl, rfl⟩
  rw [account, account, held, held, called, called, hask.1, hask.2]
  omega

lemma ask_of_void (now : UInt64) (a : Ask) (hvoid : a.void = true) : c.ask now a = c := by
  rw [Ask.void] at hvoid
  simp only [ask, lookupRouter, hvoid]
  rfl

/-- A transaction that is removed is not held any more. -/
lemma account_removePendingLookup (c : Context) (job : LookupJob) (owner : Key) (id : UInt64) :
    (c.removePendingLookup owner id).account job +
      (if (c.pendingTX.lookup (owner, id)).any (·.holds job) then 1 else 0) = c.account job := by
  have htally := AList.tally_erase (·.holds job) c.pendingTX (owner, id)
  rw [account, account, held, held]
  change c.called job + (c.pendingTX.erase (owner, id)).tally _ + _ = _
  omega

/-- A transaction that ends is not held any more, and its hook was called. -/
lemma account_ended (hhook : job.hook = true) {owner : Key} {id : UInt64} {j : SearchJob}
    (r : Option RouterContact) (hj : c.pendingTX.lookup (owner, id) = some j) :
    ((c.completed j r).removePendingLookup owner id).account job = c.account job := by
  have hcalled := called_completed (c := c) hhook j r
  have hremoved := account_removePendingLookup (c.completed j r) job owner id
  rw [pendingTX_completed, hj] at hremoved
  simp only [Option.any_some] at hremoved
  rw [account, account, held, held, pendingTX_completed] at hremoved
  rw [account, account, held, held]
  omega

lemma account_cleanup (hhook : job.hook = true) (now : UInt64) (c : Context) :
    (c.cleanupTX now).account job = c.account job := by
  have hnodup : ((c.pendingTX.entries.filter fun e => e.2.isExpired now).map Sigma.fst).Nodup :=
    (List.filter_sublist.map _).nodup c.pendingTX.nodupKeys
  have hlookup : ∀ e ∈ c.pendingTX.entries.filter fun e => e.2.isExpired now,
      c.pendingTX.lookup e.1 = some e.2 := fun e he =>
    AList.mem_lookup_iff.mpr (List.mem_filter.mp he).1
  rw [cleanupTX]
  generalize c.pendingTX.entries.filter (fun e => e.2.isExpired now) = l at hnodup hlookup
  induction l generalizing c with
  | nil => rfl
  | cons e l ih =>
    rw [List.map_cons, List.nodup_cons] at hnodup
    rw [List.foldl_cons, ih _ hnodup.2]
    · have hended := account_ended hhook none (hlookup e List.mem_cons_self)
      rw [removePendingLookup, pendingTX_completed] at hended
      exact hended
    · intro e' he'
      have hne : e'.1 ≠ e.1 := fun h => hnodup.1 (h ▸ List.mem_map_of_mem he')
      exact (AList.lookup_erase_ne hne).trans (hlookup e' (List.mem_cons_of_mem _ he'))

/-- How often a call loses the job: with the transaction that it answers, with a `LookupRouter` that
does nothing, or with the transaction whose place another one takes. -/
def lost (c : Context) (i : Call) (job : LookupJob) : ℕ :=
  match c.asks i with
  | none => 0
  | some a =>
      (if (c.answers i).any (·.2.holds job) then 1 else 0) +
        if a.void then (if a.job = some job then 1 else 0)
        else if (c.pendingTX.lookup (a.peer, c.ids + 1)).any (·.holds job) then 1 else 0

lemma holds_entry (a : Ask) (now id : UInt64) (job : LookupJob) :
    (a.entry now id).holds job = decide (a.job = some job) := rfl

/-- The transaction that is answered is still there when the next peer was asked. -/
lemma lookup_ask {o : Key × UInt64} {j : SearchJob} (now : UInt64) (a : Ask)
    (hj : c.pendingTX.lookup o = some j) (hne : o.1 ≠ a.peer) :
    (c.ask now a).pendingTX.lookup o = some j := by
  unfold ask lookupRouter
  split
  · exact hj
  · exact (AList.lookup_insert_ne fun h => hne (congrArg Prod.fst h)).trans hj

lemma account_asked (c : Context) (job : LookupJob) (now : UInt64) (a : Ask)
    (hjob : a.job = i.job) :
    (c.ask now a).account job + (if a.void then (if a.job = some job then 1 else 0)
        else if (c.pendingTX.lookup (a.peer, c.ids + 1)).any (·.holds job) then 1 else 0) =
      c.account job + if i.job = some job then 1 else 0 := by
  rw [← hjob]
  by_cases hvoid : a.void = true
  · rw [ask_of_void now a hvoid, if_pos hvoid]
  · have hask := account_ask c job now a (by simpa using hvoid)
    simp only [holds_entry, decide_eq_true_eq] at hask
    rw [if_neg hvoid, hask]

/-- The account of a job grows by what is submitted and shrinks by what is lost. -/
lemma accounted_call (hhook : job.hook = true) (i : Call) :
    (c.call i).account job + c.lost i job = c.account job + if i.job = some job then 1 else 0 := by
  have hmoved := c.call_moved i
  generalize c.call i = c' at hmoved
  cases hmoved with
  | quiet hasks hanswers hjob h =>
    rw [h.account_eq, lost, hasks, hjob]
    simp
  | asked now hasks hanswers h =>
    have hasked := account_asked c job now _ (asks_spec hasks).1
    rw [h.account_eq, lost, hasks, hanswers]
    simpa using hasked
  | @iterated now m j next _ hj hR hnext h =>
    -- the job goes over to the transaction with the next peer, which is another one
    have hne : m.From ≠ next := fun heq => nextPeer_ne c (heq ▸ hnext)
    have hasks : c.asks (.message now (.gotRouter m)) = some ⟨j.target, j.requester, j.requesterTX,
        next, none, true, insert m.From j.exclude, j.asked⟩ := by
      simp [asks, hR, hj, hnext]
    generalize ha : Ask.mk j.target j.requester j.requesterTX next none true
      (insert m.From j.exclude) j.asked = a at hasks h
    have hpeer : m.From ≠ a.peer := by rwa [← ha]
    have hasked := account_asked c job now a (asks_spec hasks).1
    have hremoved := account_removePendingLookup (c.ask now a) job m.From m.txid
    rw [lookup_ask now a hj hpeer, Option.any_some] at hremoved
    rw [h.account_eq, lost, hasks]
    simp only [answers, hj, Option.map_some, Option.any_some]
    omega
  | @ended now m j _ hj hends h =>
    have hasks : c.asks (.message now (.gotRouter m)) = none := by
      rcases hends with hR | hnext
      · simp [asks, hR]
      · simp [asks, hj, hnext]
    rw [h.account_eq, lost, hasks, account_ended hhook m.R.head? hj]
    simp [Call.job]
  | @failed now job' peer _ hasks h =>
    -- the local job is told at once that there is nobody to ask
    have hcalled := called_completed (c := c) hhook
      ⟨some job', now, c.ourKey, 0, job'.target, ∅, none⟩ none
    rw [h.account_eq, lost, hasks, account, account, hcalled, held, held, pendingTX_completed]
    rcases eq_or_ne job' job with rfl | hne
    · simp [SearchJob.holds, Call.job]
      omega
    · simp [SearchJob.holds, Call.job, hne]
  | cleaned now =>
    have hasks : c.asks (.cleanup now) = none := rfl
    rw [account_cleanup hhook, lost, hasks]
    simp [Call.job]

end Accounts

/-! ### Runs -/

section Runs

variable {c : Context} {job : LookupJob} {i : Call}

lemma holds_eq_false {j : SearchJob} (h : j.hooked = false) (hhook : job.hook = true) :
    j.holds job = false := by
  by_contra hholds
  rw [Bool.not_eq_false, SearchJob.holds, decide_eq_true_eq] at hholds
  rw [SearchJob.hooked, hholds, Option.any_some, hhook] at h
  cases h

lemma hooked_eq_false {o : Option SearchJob}
    (h : ∀ job : LookupJob, job.hook = true → o.any (·.holds job) = false) :
    ∀ j, o = some j → j.hooked = false := by
  rintro j rfl
  by_contra hhooked
  rw [Bool.not_eq_false, SearchJob.hooked, Option.any_eq_true] at hhooked
  obtain ⟨job, hjob, hhook⟩ := hhooked
  have hnone := h job hhook
  simp [SearchJob.holds, hjob] at hnone

/-- A call keeps the jobs exactly when it loses none. -/
lemma keepsJobs_iff : c.KeepsJobs i ↔ ∀ job : LookupJob, job.hook = true → c.lost i job = 0 := by
  unfold KeepsJobs lost
  cases hasks : c.asks i with
  | none => simp
  | some a =>
    simp only [Option.mem_def, Option.some.injEq, forall_eq', Nat.add_eq_zero_iff]
    constructor
    · rintro ⟨hanswers, hvoid⟩ job hhook
      refine ⟨?_, ?_⟩
      · cases hans : c.answers i with
        | none => simp
        | some k => simp [holds_eq_false (hanswers k hans) hhook]
      · split_ifs at hvoid ⊢ with h₁ h₂ h₃
        · rw [h₂, Option.any_some, hhook] at hvoid
          cases hvoid
        · rfl
        · obtain ⟨j, hj, hholds⟩ := Option.any_eq_true _ _ |>.mp h₃
          rw [holds_eq_false (hvoid j hj) hhook] at hholds
          cases hholds
        · rfl
    · intro h
      refine ⟨fun k hans => ?_, ?_⟩
      · refine hooked_eq_false (o := some k.2) (fun job hhook => ?_) k.2 rfl
        simpa [hans] using (h job hhook).1
      · split_ifs with h₁
        · by_contra hjob
          rw [Bool.not_eq_false, Option.any_eq_true] at hjob
          obtain ⟨job, hjob, hhook⟩ := hjob
          simpa [h₁, hjob] using (h job hhook).2
        · refine hooked_eq_false fun job hhook => ?_
          simpa [h₁] using (h job hhook).2

/-- The calls of a run keep the jobs exactly when all along the account of a job is what was
submitted. -/
lemma along_keepsJobs_iff (calls : List Call) (c : Context) :
    Along KeepsJobs c calls ↔ ∀ l, l <+: calls → ∀ job : LookupJob, job.hook = true →
      (c.run l).account job = c.account job + submitted l job := by
  have hsubmitted (i : Call) (l : List Call) (job : LookupJob) :
      submitted (i :: l) job = submitted l job + if i.job = some job then 1 else 0 := by
    simp [submitted, List.countP_cons]
  induction calls generalizing c with
  | nil =>
    refine iff_of_true trivial fun l hl job _ => ?_
    rw [List.prefix_nil.mp hl]
    rfl
  | cons i rest ih =>
    simp only [Along, ih (c.call i), keepsJobs_iff]
    constructor
    · rintro ⟨hlost, hrest⟩ l hl job hhook
      cases l with
      | nil => rfl
      | cons i' l =>
        obtain ⟨rfl, hrest'⟩ := List.cons_prefix_cons.mp hl
        have hcall := accounted_call (c := c) hhook i'
        rw [hlost job hhook] at hcall
        have hrun : (c.run (i' :: l)).account job = ((c.call i').run l).account job := rfl
        rw [hrun, hrest l hrest' job hhook, hsubmitted]
        omega
    · intro h
      -- the account after the first call alone tells that it lost nothing
      have hlost : ∀ job : LookupJob, job.hook = true → c.lost i job = 0 := fun job hhook => by
        have hone := h [i] (List.cons_prefix_cons.mpr ⟨rfl, List.nil_prefix⟩) job hhook
        have hcall := accounted_call (c := c) hhook i
        have hrun : (c.run [i]).account job = (c.call i).account job := rfl
        rw [hrun, hsubmitted] at hone
        have hnil : submitted [] job = 0 := rfl
        omega
      refine ⟨hlost, fun l hl job hhook => ?_⟩
      have hmore := h (i :: l) (List.cons_prefix_cons.mpr ⟨rfl, hl⟩) job hhook
      have hcall := accounted_call (c := c) hhook i
      have hrun : (c.run (i :: l)).account job = ((c.call i).run l).account job := rfl
      rw [hlost job hhook] at hcall
      rw [hrun, hsubmitted] at hmore
      omega

/-- In every state of a run each job was called or is held as often as it was submitted, exactly
when the calls of the run keep the jobs. -/
theorem jobs_completed_once (c : Context) (hfresh : c.Fresh) (calls : List Call) :
    (∀ l, l <+: calls → ∀ job : LookupJob, job.hook = true →
      (c.run l).called job + (c.run l).held job = submitted l job) ↔ Along KeepsJobs c calls := by
  rw [along_keepsJobs_iff]
  refine forall₄_congr fun l _ job _ => ?_
  have hcalled : c.called job = 0 := by rw [called, hfresh.2]; rfl
  have hheld : c.held job = 0 := by rw [held, hfresh.1.1]; rfl
  rw [account, account, hcalled, hheld, zero_add, zero_add]

/-- The router 1 is looked up. -/
def relayJob : LookupJob := { id := 0, target := lastByte 1, hook := true }

/-- The router 3 answers with `R`. -/
def jobAnswer (R : List RouterContact) : List Call :=
  [.lookup 0 relayJob (lastByte 0),
    .message 0 (.gotRouter { From := lastByte 3, R := R, txid := 1 }),
    .reply (lastByte 3) 0 []]

lemma relayRouter_fresh : relayRouter.Fresh := ⟨relayRouter_initial, rfl⟩

theorem jobs_completed_once_found :
    (relayRouter.run (jobAnswer [{ pubkey := lastByte 1 }])).called relayJob +
      (relayRouter.run (jobAnswer [{ pubkey := lastByte 1 }])).held relayJob = 1 := by
  have hkeeps : Along KeepsJobs relayRouter (jobAnswer [{ pubkey := lastByte 1 }]) :=
    ⟨by decide +kernel, by decide +kernel, by decide +kernel, trivial⟩
  have hone := (jobs_completed_once relayRouter relayRouter_fresh _).mpr hkeeps _
    (List.prefix_refl _) relayJob rfl
  exact hone

/-- The router 3 does not know the router 1: the router 9 is asked, and the job is gone. -/
theorem job_dropped :
    ¬ ∀ (c : Context) (calls : List Call), c.Fresh → ∀ job : LookupJob, job.hook = true →
      submitted calls job = 1 → (c.run calls).called job + (c.run calls).held job = 1 := by
  intro h
  have hone := h relayRouter (jobAnswer []) relayRouter_fresh relayJob rfl (by decide +kernel)
  have hgone : (relayRouter.run (jobAnswer [])).called relayJob +
      (relayRouter.run (jobAnswer [])).held relayJob = 0 := by decide +kernel
  omega

end Runs

end Context

end Udap.Dht
