import Udap.Lib.Run
import Udap.Path.Build

/-!
The table of the transit hops, over runs in which `LR_CommitMessage`s arrive from anyone and hops
expire.

The creators of paths choose the ids, and a hop is stored under two of them. What keeps hops apart
is only that the same `TransitHopInfo` is not taken twice.

* `unambiguous_iff`: lookups find one hop at most exactly if no hop was taken that shares an id and
  a neighbour with a hop that is stored.
* `expiries_exact_iff`: `ExpirePaths` removes the expired hops and nothing else exactly if no other
  hop is stored under an id of one of them.
-/

namespace Udap

open ByteMem Iwp

/-! ### Arrivals -/

/-- An `LR_CommitMessage` that arrives, and what the relay takes from its surroundings then. -/
structure CommitArrival where
  random : RelayRandom
  remote : PubKey
  frames : List Bytes

/-- The hop that was taken. -/
def Commit.hop : Commit → Option (Ptr TransitHop)
  | .refused => none
  | .confirmed _ hop _ => some hop
  | .forwarded _ hop _ _ => some hop

/-- `TransitHop::Expired`. -/
def TransitHop.expired (now : UInt64) (hop : TransitHop) : Bool :=
  hop.lifetime < now - hop.started

/-- What happens to the table. -/
inductive TransitStep
  | arrive (m : CommitArrival)
  | expire (now : UInt64)

namespace PathContext

variable (S : Sodium)

/-- A message is handled. -/
def receive (m : CommitArrival) (c : PathContext) : PathContext × Commit :=
  c.handleCommit S m.random m.remote m.frames

/-- A message is refused, or a hop is taken that is not there yet. -/
lemma receive_cases (c : PathContext) (m : CommitArrival) :
    (c.receive S m).2.hop = none ∧ (c.receive S m).1 = c ∨
      ∃ hop, (c.receive S m).2.hop = some hop ∧ hop.address = m.random.address ∧
        c.hasTransitHop hop.val.info = false ∧ (c.receive S m).1 = c.putTransitHop hop := by
  unfold receive handleCommit
  split_ifs
  · exact .inl ⟨rfl, rfl⟩
  · split
    · exact .inl ⟨rfl, rfl⟩
    · split
      · exact .inl ⟨rfl, rfl⟩
      · rw [handleDecrypted]
        split
        · exact .inl ⟨rfl, rfl⟩
        · dsimp only
          split_ifs with hhas hus
          · exact .inl ⟨rfl, rfl⟩
          · split
            · exact .inl ⟨rfl, rfl⟩
            · exact .inr ⟨_, rfl, rfl, Bool.not_eq_true _ ▸ hhas, rfl⟩
          · split
            · exact .inl ⟨rfl, rfl⟩
            · exact .inr ⟨_, rfl, rfl, Bool.not_eq_true _ ▸ hhas, rfl⟩
  · exact .inl ⟨rfl, rfl⟩

/-! ### Lookups -/

variable {S}

/-- A hop that `GetByUpstream` can find. -/
def MatchesUpstream (c : PathContext) (remote : PubKey) (id : PathID) (hop : Ptr TransitHop) :
    Prop :=
  (id, hop) ∈ c.transitPaths ∧ hop.val.info.upstream = remote

/-- A hop that `GetByDownstream` can find. -/
def MatchesDownstream (c : PathContext) (remote : PubKey) (id : PathID) (hop : Ptr TransitHop) :
    Prop :=
  (id, hop) ∈ c.transitPaths ∧ hop.val.info.downstream = remote

/-- The lookups have no choice. -/
structure Unambiguous (c : PathContext) : Prop where
  upstream : ∀ remote id hop hop', c.MatchesUpstream remote id hop →
    c.MatchesUpstream remote id hop' → hop = hop'
  downstream : ∀ remote id hop hop', c.MatchesDownstream remote id hop →
    c.MatchesDownstream remote id hop' → hop = hop'

/-- What `GetByDownstream` finds then. -/
lemma Unambiguous.getByDownstream {c : PathContext} (h : c.Unambiguous) {remote : PubKey}
    {id : PathID} {hop : Ptr TransitHop} (hmatch : c.MatchesDownstream remote id hop) :
    c.getByDownstream remote id = some (.transit hop) := by
  rw [PathContext.getByDownstream, Multimap.get_eq_some_of_unique hmatch.1
    (decide_eq_true hmatch.2) fun hop' hmem hcheck =>
      h.downstream remote id hop' hop ⟨hmem, of_decide_eq_true hcheck⟩ hmatch]
  rfl

/-- What `GetByUpstream` finds then, unless there is a path of our own. -/
lemma Unambiguous.getByUpstream {c : PathContext} (h : c.Unambiguous) {remote : PubKey}
    {id : PathID} {hop : Ptr TransitHop} (hmatch : c.MatchesUpstream remote id hop)
    (hown : (c.ourPaths.lookup id).bind (fun owner => (c.sets owner).getByUpstream remote id) =
      none) : c.getByUpstream remote id = some (.transit hop) := by
  rw [PathContext.getByUpstream, hown, Multimap.get_eq_some_of_unique hmatch.1
    (decide_eq_true hmatch.2) fun hop' hmem hcheck =>
      h.upstream remote id hop' hop ⟨hmem, of_decide_eq_true hcheck⟩ hmatch]
  rfl

/-- A hop is stored under an id of a new one, and shares a neighbour in the same direction. -/
def Conflicts (c : PathContext) (info : TransitHopInfo) : Prop :=
  ∃ e ∈ c.transitPaths, (e.1 = info.txID ∨ e.1 = info.rxID) ∧
    (e.2.val.info.upstream = info.upstream ∨ e.2.val.info.downstream = info.downstream)

/-- The message is refused, or has no conflict with a hop that is stored. -/
def Clear (S : Sodium) (c : PathContext) (m : CommitArrival) : Prop :=
  ∀ hop, (c.receive S m).2.hop = some hop → ¬ c.Conflicts hop.val.info

/-- Every hop is stored under its `txID`. -/
def Held (c : PathContext) : Prop :=
  ∀ e ∈ c.transitPaths, (e.2.val.info.txID, e.2) ∈ c.transitPaths

variable {c : PathContext} {hop : Ptr TransitHop}

lemma Held.putTransitHop (h : c.Held) (hop : Ptr TransitHop) : (c.putTransitHop hop).Held := by
  rintro ⟨id, hop'⟩ he
  rw [mem_putTransitHop] at he ⊢
  rcases he with he | ⟨rfl, -⟩
  · exact .inl (h _ he)
  · exact .inr ⟨rfl, .inl rfl⟩

/-- Only a hop that is not stored yet is taken. -/
lemma Held.notMem (h : c.Held) (hhas : c.hasTransitHop hop.val.info = false) (id : PathID) :
    (id, hop) ∉ c.transitPaths := by
  intro hmem
  have htrue : c.hasTransitHop hop.val.info = true :=
    List.any_eq_true.mpr ⟨_, h _ hmem, by simp⟩
  rw [hhas] at htrue
  exact Bool.false_ne_true htrue

/-- A hop without a conflict leaves the lookups without a choice. -/
lemma Unambiguous.putTransitHop (h : c.Unambiguous) (hclear : ¬ c.Conflicts hop.val.info) :
    (c.putTransitHop hop).Unambiguous := by
  have hother : ∀ id hop', (id, hop') ∈ c.transitPaths →
      id = hop.val.info.txID ∨ id = hop.val.info.rxID →
      hop'.val.info.upstream ≠ hop.val.info.upstream ∧
        hop'.val.info.downstream ≠ hop.val.info.downstream := fun id hop' hmem hid =>
    ⟨fun heq => hclear ⟨(id, hop'), hmem, hid, .inl heq⟩,
      fun heq => hclear ⟨(id, hop'), hmem, hid, .inr heq⟩⟩
  constructor
  · rintro remote id hop₁ hop₂ ⟨h₁, hup₁⟩ ⟨h₂, hup₂⟩
    rcases mem_putTransitHop.mp h₁ with hold₁ | ⟨rfl, hid⟩ <;>
      rcases mem_putTransitHop.mp h₂ with hold₂ | ⟨rfl, hid'⟩
    · exact h.upstream remote id _ _ ⟨hold₁, hup₁⟩ ⟨hold₂, hup₂⟩
    · exact absurd (hup₁.trans hup₂.symm) (hother id hop₁ hold₁ hid').1
    · exact absurd (hup₂.trans hup₁.symm) (hother id hop₂ hold₂ hid).1
    · rfl
  · rintro remote id hop₁ hop₂ ⟨h₁, hdown₁⟩ ⟨h₂, hdown₂⟩
    rcases mem_putTransitHop.mp h₁ with hold₁ | ⟨rfl, hid⟩ <;>
      rcases mem_putTransitHop.mp h₂ with hold₂ | ⟨rfl, hid'⟩
    · exact h.downstream remote id _ _ ⟨hold₁, hdown₁⟩ ⟨hold₂, hdown₂⟩
    · exact absurd (hdown₁.trans hdown₂.symm) (hother id hop₁ hold₁ hid').2
    · exact absurd (hdown₂.trans hdown₁.symm) (hother id hop₂ hold₂ hid).2
    · rfl

/-- A hop with a conflict gives them one. -/
lemma not_unambiguous_putTransitHop (hheld : c.Held)
    (hhas : c.hasTransitHop hop.val.info = false) (hconflict : c.Conflicts hop.val.info) :
    ¬ (c.putTransitHop hop).Unambiguous := by
  intro h
  obtain ⟨⟨id, hop'⟩, hmem, hid, hneighbour⟩ := hconflict
  have hnew : (id, hop) ∈ (c.putTransitHop hop).transitPaths :=
    mem_putTransitHop.mpr (.inr ⟨rfl, hid⟩)
  have hold : (id, hop') ∈ (c.putTransitHop hop).transitPaths := mem_putTransitHop.mpr (.inl hmem)
  have heq : hop' = hop := by
    rcases hneighbour with hup | hdown
    · exact h.upstream _ id _ _ ⟨hold, hup⟩ ⟨hnew, rfl⟩
    · exact h.downstream _ id _ _ ⟨hold, hdown⟩ ⟨hnew, rfl⟩
  exact hheld.notMem hhas id (heq ▸ hmem)

/-- A message leaves the lookups without a choice exactly if it is clear. -/
lemma unambiguous_receive_iff (h : c.Unambiguous) (hheld : c.Held) (m : CommitArrival) :
    (c.receive S m).1.Unambiguous ↔ c.Clear S m := by
  obtain ⟨hnone, hsame⟩ | ⟨hop, hsome, -, hhas, hput⟩ := receive_cases S c m
  · rw [hsame]
    refine iff_of_true h fun hop hhop => ?_
    rw [hnone] at hhop
    exact nomatch hhop
  · rw [hput]
    by_cases hconflict : c.Conflicts hop.val.info
    · exact iff_of_false (not_unambiguous_putTransitHop hheld hhas hconflict)
        fun hclear => hclear hop hsome hconflict
    · refine iff_of_true (h.putTransitHop hconflict) fun hop' hhop' => ?_
      obtain rfl := Option.some.inj (hsome.symm.trans hhop')
      exact hconflict

lemma Held.receive (h : c.Held) (m : CommitArrival) : (c.receive S m).1.Held := by
  obtain ⟨-, hsame⟩ | ⟨hop, -, -, -, hput⟩ := receive_cases S c m
  · rwa [hsame]
  · rw [hput]
    exact h.putTransitHop hop

/-- Whatever messages a relay without transit hops gets, its lookups never have a choice exactly if
no hop is taken that has a conflict. -/
theorem unambiguous_iff (S : Sodium) (c : PathContext) (ms : List CommitArrival) :
    Always (fun c m => (c.receive S m).1) Unambiguous { c with transitPaths := [] } ms ↔
      Along (fun c m => (c.receive S m).1) (Clear S) { c with transitPaths := [] } ms :=
  always_iff_along (J := Held) (fun _ m hheld _ _ => hheld.receive m)
    (fun _ m hheld h => unambiguous_receive_iff h hheld m)
    (fun _ he => (List.not_mem_nil he).elim)
    ⟨fun _ _ _ _ h _ => (List.not_mem_nil h.1).elim,
      fun _ _ _ _ h _ => (List.not_mem_nil h.1).elim⟩

/-! ### Expiry -/

/-- What `ExpirePaths` does with transit hops, and those that it deletes. The set of pointers has
every hop once; its order does not matter. -/
def expireTransit (now : UInt64) (c : PathContext) : PathContext × List (Ptr TransitHop) :=
  let removePaths :=
    ((c.transitPaths.map Prod.snd).filter fun hop => hop.val.expired now).dedup
  let map := removePaths.foldl
    (fun map hop => Multimap.erase hop.val.info.rxID (Multimap.erase hop.val.info.txID map))
    c.transitPaths
  ({ c with transitPaths := map }, removePaths)

/-- A step. -/
def transitStep (S : Sodium) (c : PathContext) : TransitStep → PathContext
  | .arrive m => (c.receive S m).1
  | .expire now => (c.expireTransit now).1

/-- `new` gives a hop an address that no hop in the table has. -/
def Fresh (c : PathContext) (step : TransitStep) : Prop :=
  ∀ m, step = .arrive m → ∀ e ∈ c.transitPaths, e.2.address ≠ m.random.address

/-- Something holds when hops expire. -/
def AtExpiry (P : PathContext → UInt64 → Prop) (c : PathContext) (step : TransitStep) : Prop :=
  ∀ now, step = .expire now → P c now

/-- The expired hops go, each once, and nothing else does. -/
structure Exact (c : PathContext) (now : UInt64) : Prop where
  entries : (c.expireTransit now).1.transitPaths =
    c.transitPaths.filter fun e => !e.2.val.expired now
  both : ∀ e ∈ (c.expireTransit now).1.transitPaths,
    (e.2.val.info.txID, e.2) ∈ (c.expireTransit now).1.transitPaths ∧
      (e.2.val.info.rxID, e.2) ∈ (c.expireTransit now).1.transitPaths
  nodup : ((c.expireTransit now).2.map Ptr.address).Nodup
  deleted : ∀ hop, hop ∈ (c.expireTransit now).2 ↔
    hop.val.expired now = true ∧ ∃ id, (id, hop) ∈ c.transitPaths

/-- No other hop is stored under an id of a hop that expires. -/
def Separate (c : PathContext) (now : UInt64) : Prop :=
  ∀ e ∈ c.transitPaths, ∀ e' ∈ c.transitPaths,
    e.2.val.expired now = false → e'.2.val.expired now = true →
      e.1 ≠ e'.2.val.info.txID ∧ e.1 ≠ e'.2.val.info.rxID

/-- Hops are stored under their two ids and nowhere else, and have addresses of their own. -/
structure Stored (c : PathContext) : Prop where
  own : ∀ e ∈ c.transitPaths, e.1 = e.2.val.info.txID ∨ e.1 = e.2.val.info.rxID
  both : ∀ e ∈ c.transitPaths,
    (e.2.val.info.txID, e.2) ∈ c.transitPaths ∧ (e.2.val.info.rxID, e.2) ∈ c.transitPaths
  address : ∀ e ∈ c.transitPaths, ∀ e' ∈ c.transitPaths, e.2.address = e'.2.address → e.2 = e'.2

lemma mem_removed {now : UInt64} :
    hop ∈ (c.expireTransit now).2 ↔
      hop.val.expired now = true ∧ ∃ id, (id, hop) ∈ c.transitPaths := by
  simp [expireTransit, and_comm]

/-- What is left are the entries under other ids. -/
lemma transitPaths_expireTransit (c : PathContext) (now : UInt64) :
    (c.expireTransit now).1.transitPaths = c.transitPaths.filter fun e =>
      e.1 ∉ (c.expireTransit now).2.flatMap fun hop => [hop.val.info.txID, hop.val.info.rxID] := by
  rw [← Multimap.foldl_erase, List.foldl_flatMap]
  rfl

lemma mem_ids_removed {now : UInt64} {id : PathID} :
    (id ∈ (c.expireTransit now).2.flatMap fun hop => [hop.val.info.txID, hop.val.info.rxID]) ↔
      ∃ e ∈ c.transitPaths, e.2.val.expired now = true ∧
        (id = e.2.val.info.txID ∨ id = e.2.val.info.rxID) := by
  simp only [List.mem_flatMap, mem_removed, List.mem_cons, List.not_mem_nil, or_false]
  constructor
  · rintro ⟨hop, ⟨hexpired, id', hmem⟩, hid⟩
    exact ⟨(id', hop), hmem, hexpired, hid⟩
  · rintro ⟨e, hmem, hexpired, hid⟩
    exact ⟨e.2, ⟨hexpired, e.1, hmem⟩, hid⟩

lemma Exact.separate {now : UInt64} (h : c.Exact now) : c.Separate now := by
  intro e he e' he' hlive hexpired
  have hmem : e ∈ (c.expireTransit now).1.transitPaths := by
    rw [h.entries]
    exact List.mem_filter.mpr ⟨he, by simp [hlive]⟩
  rw [transitPaths_expireTransit, List.mem_filter, decide_eq_true_eq, mem_ids_removed] at hmem
  exact ⟨fun hid => hmem.2 ⟨e', he', hexpired, .inl hid⟩,
    fun hid => hmem.2 ⟨e', he', hexpired, .inr hid⟩⟩

/-- An expiry is exact if no other hop is stored under an id of a hop that goes. -/
lemma Stored.exact_iff (h : c.Stored) (now : UInt64) : c.Exact now ↔ c.Separate now := by
  have hlost : ∀ e ∈ c.transitPaths, e.2.val.expired now = true →
      e.1 ∈ (c.expireTransit now).2.flatMap fun hop => [hop.val.info.txID, hop.val.info.rxID] :=
    fun e he hexpired => mem_ids_removed.mpr ⟨e, he, hexpired, h.own e he⟩
  constructor
  · exact Exact.separate
  · intro hseparate
    have hentries : (c.expireTransit now).1.transitPaths =
        c.transitPaths.filter fun e => !e.2.val.expired now := by
      rw [transitPaths_expireTransit]
      refine List.filter_congr fun e he => ?_
      cases hexpired : e.2.val.expired now with
      | true => exact decide_eq_false fun hnot => hnot (hlost e he hexpired)
      | false =>
        rw [Bool.not_false, decide_eq_true_eq, mem_ids_removed]
        rintro ⟨e', he', hexpired', hid⟩
        have hne := hseparate e he e' he' hexpired hexpired'
        exact hid.elim hne.1 hne.2
    refine ⟨hentries, fun e he => ?_, ?_, fun hop => mem_removed⟩
    · rw [hentries, List.mem_filter] at he
      rw [hentries, List.mem_filter, List.mem_filter]
      exact ⟨⟨(h.both e he.1).1, he.2⟩, (h.both e he.1).2, he.2⟩
    · refine (List.nodup_map_iff_inj_on (List.nodup_dedup _)).mpr fun hop hhop hop' hhop' heq => ?_
      obtain ⟨-, id, hmem⟩ := mem_removed.mp hhop
      obtain ⟨-, id', hmem'⟩ := mem_removed.mp hhop'
      exact h.address _ hmem _ hmem' heq

lemma Stored.expire (h : c.Stored) {now : UInt64} (hexact : c.Exact now) :
    (c.expireTransit now).1.Stored := by
  have hsub : ∀ e ∈ (c.expireTransit now).1.transitPaths, e ∈ c.transitPaths := by
    rw [hexact.entries]
    exact fun e he => List.mem_of_mem_filter he
  exact ⟨fun e he => h.own e (hsub e he), hexact.both,
    fun e he e' he' => h.address e (hsub e he) e' (hsub e' he')⟩

lemma Stored.arrive (h : c.Stored) {m : CommitArrival}
    (hfresh : ∀ e ∈ c.transitPaths, e.2.address ≠ m.random.address) :
    (c.receive S m).1.Stored := by
  obtain ⟨-, hsame⟩ | ⟨hop, -, haddress, -, hput⟩ := receive_cases S c m
  · rwa [hsame]
  · rw [hput]
    have hcases : ∀ e ∈ (c.putTransitHop hop).transitPaths, e ∈ c.transitPaths ∨
        e.2 = hop ∧ (e.1 = hop.val.info.txID ∨ e.1 = hop.val.info.rxID) := fun _ he =>
      mem_putTransitHop.mp he
    constructor
    · intro e he
      rcases hcases e he with hold | ⟨rfl, hid⟩
      · exact h.own e hold
      · exact hid
    · intro e he
      rcases hcases e he with hold | ⟨rfl, -⟩
      · exact ⟨mem_putTransitHop.mpr (.inl (h.both e hold).1),
          mem_putTransitHop.mpr (.inl (h.both e hold).2)⟩
      · exact ⟨mem_putTransitHop.mpr (.inr ⟨rfl, .inl rfl⟩),
          mem_putTransitHop.mpr (.inr ⟨rfl, .inr rfl⟩)⟩
    · intro e he e' he' heq
      rcases hcases e he with hold | ⟨rfl, -⟩ <;> rcases hcases e' he' with hold' | ⟨heq', -⟩
      · exact h.address e hold e' hold' heq
      · rw [heq', haddress] at heq
        exact absurd heq (hfresh e hold)
      · rw [haddress] at heq
        exact absurd heq.symm (hfresh e' hold')
      · exact heq'.symm

/-- What one step keeps. -/
lemma Stored.step (h : c.Stored) {step : TransitStep} (hfresh : c.Fresh step) :
    (c.AtExpiry Exact step ↔ c.AtExpiry Separate step) ∧
      (c.AtExpiry Exact step → (c.transitStep S step).Stored) := by
  cases step with
  | arrive m =>
    exact ⟨iff_of_true (fun _ heq => nomatch heq) (fun _ heq => nomatch heq),
      fun _ => h.arrive (hfresh m rfl)⟩
  | expire now =>
    refine ⟨forall_congr' fun now' => imp_congr_right fun _ => h.exact_iff now',
      fun hexact => h.expire (hexact now rfl)⟩

/-- In every run from a table without transit hops, every expiry is exact if and only if whenever
hops expire no other hop is stored under an id of one of them. -/
theorem expiries_exact_iff (S : Sodium) (c : PathContext) (steps : List TransitStep)
    (hfresh : Along (transitStep S) Fresh { c with transitPaths := [] } steps) :
    Along (transitStep S) (AtExpiry Exact) { c with transitPaths := [] } steps ↔
      Along (transitStep S) (AtExpiry Separate) { c with transitPaths := [] } steps :=
  along_congr (J := Stored) (fun _ _ h hfresh => h.step hfresh)
    ⟨fun _ he => (List.not_mem_nil he).elim, fun _ he => (List.not_mem_nil he).elim,
      fun _ he => (List.not_mem_nil he).elim⟩ hfresh

/-! ### Two hops of one id -/

section Shared

/-- An id of one byte. -/
def idOf (b : UInt8) : PathID := List.Vector.replicate 16 b

/-- Someone can make Bob take a hop with any ids, and any upstream but himself. -/
lemma bob_takes (txID rxID : PathID) (upstream : PubKey) : ∃ frames shared,
    ∀ (c : PathContext) (random : RelayRandom) (remote : PubKey),
      c.encryption = Handshake.twoKeys.enckeygen Handshake.bobSeed → c.allowTransit = true →
      c.hasTransitHop ⟨txID, rxID, upstream, remote⟩ = false →
      (c.receive Handshake.twoKeys ⟨random, remote, frames⟩).1 = c.putTransitHop
        ⟨random.address, ⟨txID, rxID, upstream, remote⟩, shared, random.started, 600000⟩ := by
  have hkey : (Path.bobRouter 3).enckey = Handshake.twoKeys.scalarmultBase Handshake.bobSeed := by
    decide
  let hop : PathHopConfig := { txID := txID, rxID := rxID, router := Path.bobRouter 3 }
  obtain ⟨hop', frame, -, hgen⟩ : ∃ hop' frame', generateNextKey Handshake.twoKeys Path.aliceHop hop
      (some upstream) (List.replicate frameSize 0) = some (hop', frame') ∧
      Generated Handshake.twoKeys Handshake.bobSeed hop upstream hop' frame' :=
    generateNextKey_spec hkey Handshake.twoKeys_agree Handshake.twoKeys_agree
      List.length_replicate (some upstream)
  refine ⟨frame :: List.replicate 7 [], hop'.shared, fun c random remote henc hallow hhas => ?_⟩
  have hinfo : hop'.hopAt random remote =
      ⟨random.address, ⟨txID, rxID, upstream, remote⟩, hop'.shared, random.started, 600000⟩ := by
    rw [PathHopConfig.hopAt, hgen.txID, hgen.rxID, hgen.upstream]
  rw [receive, handleCommit_spec hgen henc hallow rfl remote, hinfo, if_neg (by simp [hhas])]

/-- The hop of a peer with an id that all of them use. -/
def sharedHop (random : RelayRandom) (rxID peer : UInt8) (shared : Blob 32) : Ptr TransitHop :=
  ⟨random.address,
    ⟨idOf 1, idOf rxID, (Path.someRouter 5).pubkey, (Path.someRouter peer).pubkey⟩, shared,
    random.started, 600000⟩

lemma expired_sharedHop (random : RelayRandom) (rxID peer : UInt8) (shared : Blob 32)
    (now : UInt64) : (sharedHop random rxID peer shared).val.expired now =
      decide (600000 < now - random.started) := rfl

/-- Bob with the hop of the first peer. -/
def bobOnce (random : RelayRandom) (shared : Blob 32) : PathContext :=
  (Path.bobContext (Path.someRouter 3).pubkey).putTransitHop (sharedHop random 2 8 shared)

/-- Two peers make Bob take hops with the same `txID` and the same upstream. -/
lemma bob_takes_two : ∃ frames frames' shared shared', ∀ random random' : RelayRandom,
    ({ Path.bobContext (Path.someRouter 3).pubkey with transitPaths := [] }.receive
      Handshake.twoKeys ⟨random, (Path.someRouter 8).pubkey, frames⟩).1 = bobOnce random shared ∧
    ((bobOnce random shared).receive Handshake.twoKeys
        ⟨random', (Path.someRouter 9).pubkey, frames'⟩).1 =
      (bobOnce random shared).putTransitHop (sharedHop random' 4 9 shared') := by
  obtain ⟨frames, shared, htakes⟩ := bob_takes (idOf 1) (idOf 2) (Path.someRouter 5).pubkey
  obtain ⟨frames', shared', htakes'⟩ := bob_takes (idOf 1) (idOf 4) (Path.someRouter 5).pubkey
  exact ⟨frames, frames', shared, shared', fun random random' =>
    ⟨htakes _ random _ rfl rfl rfl, htakes' _ random' _ rfl rfl rfl⟩⟩

/-- Traffic for the id of one peer can come to the hop of the other. -/
theorem not_unambiguous :
    ¬ ∀ (S : Sodium) (c : PathContext) (ms : List CommitArrival),
      Always (fun c m => (c.receive S m).1) Unambiguous { c with transitPaths := [] } ms := by
  intro h
  obtain ⟨frames, frames', shared, shared', htakes⟩ := bob_takes_two
  obtain ⟨hfirst, hsecond⟩ := htakes Path.zeroRelay Path.zeroRelay
  have hboth := (h Handshake.twoKeys (Path.bobContext (Path.someRouter 3).pubkey)
    [⟨Path.zeroRelay, (Path.someRouter 8).pubkey, frames⟩,
      ⟨Path.zeroRelay, (Path.someRouter 9).pubkey, frames'⟩]).last
  rw [List.foldl_cons, hfirst, List.foldl_cons, hsecond, List.foldl_nil] at hboth
  have heq := hboth.upstream (Path.someRouter 5).pubkey (idOf 1)
    (sharedHop Path.zeroRelay 2 8 shared) (sharedHop Path.zeroRelay 4 9 shared')
    ⟨mem_putTransitHop.mpr (.inl (mem_putTransitHop.mpr (.inr ⟨rfl, .inl rfl⟩))), rfl⟩
    ⟨mem_putTransitHop.mpr (.inr ⟨rfl, .inl rfl⟩), rfl⟩
  have hrx : idOf 2 = idOf 4 := congrArg (fun hop : Ptr TransitHop => hop.val.info.rxID) heq
  exact absurd hrx (by decide)

/-- Two hops share an id, and the first one expires. -/
theorem not_exact :
    ¬ ∀ (S : Sodium) (c : PathContext) (steps : List TransitStep),
      Along (transitStep S) Fresh { c with transitPaths := [] } steps →
        Along (transitStep S) (AtExpiry Exact) { c with transitPaths := [] } steps := by
  intro h
  obtain ⟨frames, frames', shared, shared', htakes⟩ := bob_takes_two
  let later : RelayRandom := { Path.zeroRelay with address := 1, started := 500000 }
  obtain ⟨hfirst, hsecond⟩ := htakes Path.zeroRelay later
  have hexact := h Handshake.twoKeys (Path.bobContext (Path.someRouter 3).pubkey)
    [.arrive ⟨Path.zeroRelay, (Path.someRouter 8).pubkey, frames⟩,
      .arrive ⟨later, (Path.someRouter 9).pubkey, frames'⟩, .expire 600001]
  simp only [Along, transitStep, hfirst, hsecond] at hexact
  have hlate := (hexact ⟨fun m _ e he => (List.not_mem_nil he).elim, fun m hm e he => ?_,
    (fun m hm => by cases hm), trivial⟩).2.2.1 600001 rfl
  · -- the hop of the second peer is not expired, and is stored under an id of the first one
    have hapart := hlate.separate (idOf 1, sharedHop later 4 9 shared')
      (mem_putTransitHop.mpr (.inr ⟨rfl, .inl rfl⟩)) (idOf 1, sharedHop Path.zeroRelay 2 8 shared)
      (mem_putTransitHop.mpr (.inl (mem_putTransitHop.mpr (.inr ⟨rfl, .inl rfl⟩))))
      ((expired_sharedHop ..).trans (by decide)) ((expired_sharedHop ..).trans (by decide))
    exact hapart.1 rfl
  · have haddress : e.2.address = 0 := by
      rcases mem_putTransitHop.mp he with hold | ⟨heq, -⟩
      · exact (List.not_mem_nil hold).elim
      · rw [heq]
        rfl
    obtain rfl := TransitStep.arrive.inj hm
    rw [haddress]
    exact Nat.zero_ne_one

/-- A hop that is alone in the table expires exactly. -/
theorem expiries_exact_alone : ∃ frames,
    Along (transitStep Handshake.twoKeys) (AtExpiry Exact)
      { Path.bobContext (Path.someRouter 3).pubkey with transitPaths := [] }
      [.arrive ⟨Path.zeroRelay, (Path.someRouter 8).pubkey, frames⟩, .expire 600001] := by
  obtain ⟨frames, _, shared, _, htakes⟩ := bob_takes_two
  obtain ⟨hfirst, -⟩ := htakes Path.zeroRelay Path.zeroRelay
  have hfresh : Along (transitStep Handshake.twoKeys) Fresh
      { Path.bobContext (Path.someRouter 3).pubkey with transitPaths := [] }
      [.arrive ⟨Path.zeroRelay, (Path.someRouter 8).pubkey, frames⟩, .expire 600001] :=
    ⟨fun m _ e he => (List.not_mem_nil he).elim, (fun m hm => by cases hm), trivial⟩
  refine ⟨frames, (expiries_exact_iff _ _ _ hfresh).mpr ?_⟩
  simp only [Along, transitStep, hfirst, and_true]
  refine ⟨(fun now hnow => by cases hnow), fun now hnow e he e' _ hlive _ => ?_⟩
  obtain rfl := TransitStep.expire.inj hnow
  rcases mem_putTransitHop.mp he with hold | ⟨heq, -⟩
  · exact (List.not_mem_nil hold).elim
  · rw [heq, expired_sharedHop] at hlive
    exact absurd hlive (by decide)

end Shared

end PathContext

end Udap
