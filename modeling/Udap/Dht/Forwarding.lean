import Udap.Dht.Context
import Mathlib.Logic.Relation
import Mathlib.Data.List.Chain
import Mathlib.Order.WellFounded

/-!
Recursive lookups in a network of routers.

Every router has its own bucket and the routers know nothing of each other. A request of another
router is passed on by `LookupRouterRelayed` only when the comparison of the requester's distance
with our own lets it pass (`forwards_handleMessage`), so one step of a lookup goes from a router
to a strictly closer one. The theorem `forwarding_loop_free` is the consequence for whole lookups.
-/

namespace Udap.Dht

namespace Context

variable (now : UInt64) (c : Context)

/-! ### What the handlers keep -/

@[simp] lemma forwards_completed (j : SearchJob) (r : Option RouterContact) :
    (c.completed j r).forwards = c.forwards := by
  unfold completed; split <;> [split_ifs; skip] <;> rfl

@[simp] lemma forwards_lookupRouter (target who : Key) (t : UInt64) (peer : Key)
    (job : Option LookupJob) (it : Bool) (ex : Finset Key) (asked : Option UInt64) :
    (c.lookupRouter now target who t peer job it ex asked).forwards = c.forwards := by
  unfold lookupRouter; split_ifs <;> rfl

@[simp] lemma forwards_finish (j : SearchJob) (peer : Key) (r : Option RouterContact) :
    (c.finish j peer r).1.forwards = c.forwards := by
  simp [finish]

@[simp] lemma forwards_handleGotRouter (m : GotRouterMessage) :
    (c.handleGotRouter now m).1.forwards = c.forwards := by
  obtain ⟨-, h⟩ | ⟨j, -, ⟨-, h⟩ | ⟨-, next, -, h⟩⟩ := c.handleGotRouter_cases now m <;> simp [h]

/-- What one message does to the log of forwarded requests. -/
lemma forwards_handleMessage (msg : Message) :
    (c.handleMessage now msg).1.forwards = c.forwards ∨
      ∃ m next, msg = .findRouter m ∧ m.iterative = false ∧
        ltKey (xorKey m.From m.K) (xorKey c.ourKey m.K) = false ∧
        next ∉ ({m.From, c.ourKey} : Finset Key) ∧
        (c.handleMessage now msg).1.forwards = c.forwards ++
          [⟨c.ourKey, m.From, m.K, false, m.txid, c.ids + 1, next⟩] := by
  cases msg with
  | gotRouter m => exact .inl (by simp [handleMessage])
  | findRouter m =>
    simp only [handleMessage, handleFindRouter]
    split_ifs with htransit hpending
    · exact .inl rfl
    · exact .inl rfl
    · rcases c.lookupRouterRelayed_cases now m.From m.txid m.K (!m.iterative) with h | h
      · obtain ⟨R, h⟩ := h
        exact .inl (by rw [h])
      · obtain ⟨hrec, hlt, next, hnext, h⟩ := h
        refine .inr ⟨m, next, rfl, by simpa using hrec, hlt, hnext, ?_⟩
        rw [h]
        simp [forward]

lemma forwards_handleImmediate (remote : Key) (msgs : List Message) :
    (c.handleImmediate now remote msgs).forwards = (c.handleAll now msgs).1.forwards := by
  unfold handleImmediate
  split <;> rename_i heq <;> rw [heq]

end Context

/-- A request was recursive, its requester was not closer to the target than the router that
passed it on, and the next router is neither of the two. -/
structure Forward.Sound (f : Forward) : Prop where
  recursive : f.iterative = false
  notCloser : ltKey (xorKey f.requester f.target) (xorKey f.router f.target) = false
  next_ne : f.next ≠ f.router

lemma Forward.Sound.dist_lt {f : Forward} (h : f.Sound) (hne : f.requester ≠ f.router) :
    dist f.router f.target < dist f.requester f.target := by
  have hle : dist f.router f.target ≤ dist f.requester f.target := by
    rw [← not_lt, ← ltKey_iff, h.notCloser]
    simp
  refine lt_of_le_of_ne hle fun heq => hne ?_
  exact (dist_injective heq).symm

namespace Context

lemma sound_handleAll (now : UInt64) (msgs : List Message) (c : Context)
    (hc : ∀ f ∈ c.forwards, f.Sound) : ∀ f ∈ (c.handleAll now msgs).1.forwards, f.Sound := by
  induction msgs generalizing c with
  | nil => exact hc
  | cons msg rest ih =>
    refine ih _ ?_
    rcases c.forwards_handleMessage now msg with h | h
    · rw [h]
      exact hc
    · obtain ⟨m, next, -, -, hlt, hnext, h⟩ := h
      rw [h]
      intro f hf
      rcases List.mem_append.mp hf with hf | hf
      · exact hc f hf
      · rw [List.mem_singleton.mp hf]
        refine ⟨rfl, hlt, fun heq => hnext ?_⟩
        simpa using Or.inr heq

/-- One call keeps the log of forwarded requests sound. -/
lemma sound_step (c : Context) (i : Input) (hc : ∀ f ∈ c.forwards, f.Sound) :
    ∀ f ∈ (c.step i).forwards, f.Sound := by
  cases i with
  | receive now remote msgs =>
    rw [step, forwards_handleImmediate]
    exact sound_handleAll now _ c hc
  | lookup now job peer =>
    simp only [step, lookupRouterViaJob]
    split
    · simpa using hc
    · split_ifs <;> exact hc
  | cleanup now =>
    exact List.foldlRecOn (motive := fun d : Context => ∀ f ∈ d.forwards, f.Sound) _ _ hc
      fun d hd e _ => by simpa using hd
  | putPeer rc => exact hc
  | removePeer id => exact hc
  | transit allow => exact hc
  | contact rc => exact hc

end Context

/-! ### The network -/

/-- The routers, by their keys. -/
structure Network where
  routers : Key → Context
  ourKey_eq (k : Key) : (routers k).ourKey = k

namespace Network

/-- Nothing was sent, and no transaction is pending. The buckets, the counters and who allows
transit are arbitrary. -/
def Initial (n : Network) : Prop :=
  ∀ k, (n.routers k).pendingTX = ∅ ∧ (n.routers k).sent = [] ∧ (n.routers k).forwards = []

/-- Whether the router `k` can be called with the input: what it receives was sent to it. What was
sent can be received late, in any order, many times or never. -/
def Allows (n : Network) (k : Key) : Input → Prop
  | .receive _ remote msgs => (k, msgs) ∈ (n.routers remote).sent
  | _ => True

/-- The router `k` is called with `i`. -/
def call (n : Network) (k : Key) (i : Input) : Network where
  routers := Function.update n.routers k ((n.routers k).step i)
  ourKey_eq k' := by
    by_cases h : k' = k
    · subst h
      simp [(Context.kept_step _ i).1, n.ourKey_eq]
    · simp [h, n.ourKey_eq]

def Step (n n' : Network) : Prop := ∃ k i, n.Allows k i ∧ n' = n.call k i

/-- A run from a network in which nothing was sent; a run that ends stays where it is. -/
structure IsRun (n : ℕ → Network) : Prop where
  initial : (n 0).Initial
  step (i : ℕ) : n (i + 1) = n i ∨ Step (n i) (n (i + 1))

/-- A request that a router of the network passed on. -/
def Forwarded (n : Network) (f : Forward) : Prop := ∃ k, f ∈ (n.routers k).forwards

lemma sound_routers {n : ℕ → Network} (h : IsRun n) (i : ℕ) (k : Key) :
    ∀ f ∈ ((n i).routers k).forwards, f.Sound := by
  induction i generalizing k with
  | zero =>
    intro f hf
    rw [(h.initial k).2.2] at hf
    cases hf
  | succ i ih =>
    rcases h.step i with heq | ⟨k', inp, -, heq⟩
    · rw [heq]
      exact ih k
    · rw [heq]
      by_cases hk : k = k'
      · subst hk
        simpa [call] using Context.sound_step _ inp (ih k)
      · simpa [call, hk] using ih k

end Network

/-! ### Chains of forwarded requests -/

/-- The request `g` is the one that was sent when `f` was passed on. -/
def Follows (f g : Forward) : Prop :=
  g.requester = f.router ∧ g.router = f.next ∧ g.target = f.target ∧ g.txid = f.id

lemma Follows.dist_lt {f g : Forward} (h : Follows f g) (hf : f.Sound) (hg : g.Sound) :
    dist g.router f.target < dist f.router f.target := by
  obtain ⟨hreq, hrouter, htarget, -⟩ := h
  have hne : g.requester ≠ g.router := by
    rw [hreq, hrouter]
    exact hf.next_ne.symm
  have hlt := hg.dist_lt hne
  rwa [hreq, htarget] at hlt

section Run

variable {n : ℕ → Network}

/-- Along a chain every router is closer to the target than all before it. -/
lemma pairwise_dist_lt {l : List Forward} (hl : ∀ f ∈ l, f.Sound) (hchain : l.IsChain Follows) :
    l.Pairwise fun f g =>
      g.target = f.target ∧ dist g.router f.target < dist f.router f.target := by
  have hstep : l.IsChain fun f g =>
      g.target = f.target ∧ dist g.router f.target < dist f.router f.target := by
    refine List.IsChain.imp_of_mem_imp (fun f g hf hg hfg => ?_) hchain
    exact ⟨hfg.2.2.1, hfg.dist_lt (hl f hf) (hl g hg)⟩
  have htrans : IsTrans Forward fun f g =>
      g.target = f.target ∧ dist g.router f.target < dist f.router f.target := by
    refine ⟨fun f g k hfg hgk => ⟨hgk.1.trans hfg.1, ?_⟩⟩
    rw [hfg.1] at hgk
    exact hgk.2.trans hfg.2
  exact hstep.pairwise

/-- In every run, a router passes on the request of another one only when the request is not
iterative and the router is strictly closer to the target than the requester. So the routers that
pass on one lookup come strictly closer to its target, none of them occurs twice, and the lookup
is not passed on forever. -/
theorem forwarding_loop_free (h : Network.IsRun n) :
    (∀ i f, (n i).Forwarded f → f.iterative = false ∧
      (f.requester ≠ f.router → dist f.router f.target < dist f.requester f.target)) ∧
    (∀ l : List Forward, (∀ f ∈ l, ∃ i, (n i).Forwarded f) → l.IsChain Follows →
      (l.Pairwise fun f g =>
        g.target = f.target ∧ dist g.router f.target < dist f.router f.target) ∧
      (l.map (·.router)).Nodup) ∧
    ¬ ∃ f : ℕ → Forward, (∀ i, ∃ j, (n j).Forwarded (f i)) ∧ ∀ i, Follows (f i) (f (i + 1)) := by
  have hsound : ∀ f, (∃ i, (n i).Forwarded f) → f.Sound := by
    rintro f ⟨i, k, hf⟩
    exact Network.sound_routers h i k f hf
  refine ⟨fun i f hf => ?_, fun l hl hchain => ?_, ?_⟩
  · have hf := hsound f ⟨i, hf⟩
    exact ⟨hf.recursive, hf.dist_lt⟩
  · have hpair := pairwise_dist_lt (fun f hf => hsound f (hl f hf)) hchain
    refine ⟨hpair, List.pairwise_map.mpr (hpair.imp fun hfg heq => ?_)⟩
    rw [heq] at hfg
    exact hfg.2.false
  · rintro ⟨f, hf, hfollows⟩
    have htarget : ∀ i, (f i).target = (f 0).target := by
      intro i
      induction i with
      | zero => rfl
      | succ i ih => exact (hfollows i).2.2.1.trans ih
    -- the distances would be a descending sequence of numbers
    have hdesc : ∀ i, dist (f (i + 1)).router (f 0).target < dist (f i).router (f 0).target := by
      intro i
      rw [← htarget i]
      exact (hfollows i).dist_lt (hsound _ (hf i)) (hsound _ (hf (i + 1)))
    exact not_strictAnti_of_wellFoundedLT (fun i => dist (f i).router (f 0).target)
      (strictAnti_nat_of_succ_lt hdesc)

end Run

/-- The router 9 knows the router 5, which knows the router 3; the other routers know nobody. -/
def rowNetwork : Network where
  routers k :=
    { ourKey := k, rc := { pubkey := k }, allowTransit := true, ids := 0
      nodes := ⟨k, if k = lastByte 9 then [(lastByte 5, { pubkey := lastByte 5 })]
        else if k = lastByte 5 then [(lastByte 3, { pubkey := lastByte 3 })] else []⟩ }
  ourKey_eq _ := rfl

/-- The router 9 looks for the router 1. -/
def askedNetwork : Network :=
  rowNetwork.call (lastByte 9) (.lookup 0 ⟨0, lastByte 1, true⟩ (lastByte 0))

/-- The router 5 receives the request. -/
def passedNetwork : Network :=
  askedNetwork.call (lastByte 5) (.receive 0 (lastByte 9)
    [.findRouter { From := lastByte 5, K := lastByte 1, txid := 1 }])

def rowRun : ℕ → Network
  | 0 => rowNetwork
  | 1 => askedNetwork
  | _ => passedNetwork

lemma rowRun_isRun : Network.IsRun rowRun where
  initial _ := ⟨rfl, rfl, rfl⟩
  step i := by
    match i with
    | 0 => exact .inr ⟨lastByte 9, .lookup 0 ⟨0, lastByte 1, true⟩ (lastByte 0), trivial, rfl⟩
    | 1 =>
      refine .inr ⟨lastByte 5, _, ?_, rfl⟩
      show (lastByte 5, _) ∈ (askedNetwork.routers (lastByte 9)).sent
      decide +kernel
    | i + 2 => exact .inl rfl

/-- The router 5 passes the request of 9 on to 3. -/
def rowForward : Forward := ⟨lastByte 5, lastByte 9, lastByte 1, false, 1, 1, lastByte 3⟩

lemma rowForward_forwarded : (rowRun 2).Forwarded rowForward := by
  refine ⟨lastByte 5, ?_⟩
  decide +kernel

theorem forwarding_loop_free_row :
    (rowRun 2).Forwarded rowForward ∧ rowForward.iterative = false ∧
      dist (lastByte 5) (lastByte 1) < dist (lastByte 9) (lastByte 1) := by
  obtain ⟨hrec, hlt⟩ := (forwarding_loop_free rowRun_isRun).1 2 rowForward rowForward_forwarded
  exact ⟨rowForward_forwarded, hrec, hlt (by decide)⟩

end Udap.Dht
