import Udap.Lib.Run
import Udap.Path.Transit

/-!
Path builders: the sets of own paths, the builds that are under way, and the ticks of the router
that expire paths and start builds.

`BuildOne` only queues a job. Its path gets hops in the logic thread, keys in jobs of the workers,
and comes into its set when all of this is done; the number of paths that was looked at when the
build was started may be another one then.

* `bounded_iff`: no set holds more paths than asked for, exactly if whenever a path comes into a set
  there is room for it; so it is if builds are counted when another one is started (`Counted`).
-/

namespace Udap

open ByteMem Iwp

/-- `PathStatus`. -/
inductive PathStatus
  | building
  | established
  | timeout
  | expired
  deriving DecidableEq

/-- The fields of a `Path` that change while it is in a set. -/
structure PathState where
  status : PathStatus
  buildStarted : UInt64
  deriving DecidableEq

/-- `Path::Expired`; the lifetime of the first hop is always the default one. -/
def PathState.expired (now : UInt64) (s : PathState) : Bool :=
  match s.status with
  | .established => 600000 < now - s.buildStarted
  | .building => 30000 < now - s.buildStarted
  | .timeout => true
  | .expired => true

namespace PathSet

variable (s : PathSet)

/-- `m_Paths.size()`. -/
def size : ℕ := s.paths.entries.length

/-- `ShouldBuildMore`. -/
def shouldBuildMore : Bool := s.size < s.numPaths

/-- `PathSet::ExpirePaths`, where `expired` says which paths are. -/
def expirePaths (expired : Ptr Path → Bool) : PathSet :=
  { s with paths := ⟨s.paths.entries.filter fun e => !expired e.2,
      s.paths.nodupKeys.sublist List.filter_sublist⟩ }

variable {s}

lemma size_expirePaths_le (expired : Ptr Path → Bool) : (s.expirePaths expired).size ≤ s.size :=
  List.length_filter_le ..

lemma lookup_expirePaths {expired : Ptr Path → Bool} {key : PubKey × PathID} {path : Ptr Path} :
    (s.expirePaths expired).paths.lookup key = some path ↔
      s.paths.lookup key = some path ∧ expired path = false := by
  rw [← Option.mem_def, ← Option.mem_def, AList.mem_lookup_iff, AList.mem_lookup_iff, expirePaths,
    List.mem_filter, Bool.not_eq_true']

/-- The key under which a path is stored. -/
def keyOf (path : Ptr Path) : PubKey × PathID := (path.val.Upstream, path.val.RXID)

lemma addPath_of_mem {path : Ptr Path} (h : keyOf path ∈ s.paths) : s.addPath path = s := if_pos h

lemma addPath_of_notMem {path : Ptr Path} (h : keyOf path ∉ s.paths) :
    s.addPath path = { s with paths := s.paths.insert (keyOf path) path } := if_neg h

@[simp] lemma numPaths_addPath (path : Ptr Path) : (s.addPath path).numPaths = s.numPaths := by
  rw [addPath]
  split <;> rfl

lemma size_addPath (path : Ptr Path) :
    (s.addPath path).size = if keyOf path ∈ s.paths then s.size else s.size + 1 := by
  split_ifs with h
  · rw [addPath_of_mem h]
  · rw [addPath_of_notMem h, size, AList.entries_insert_of_notMem h, List.length_cons]
    rfl

lemma mem_addPath {path : Ptr Path} {key : PubKey × PathID} :
    key ∈ (s.addPath path).paths ↔ key = keyOf path ∨ key ∈ s.paths := by
  by_cases h : keyOf path ∈ s.paths
  · rw [addPath_of_mem h]
    exact ⟨.inr, fun hkey => hkey.elim (fun heq => heq ▸ h) fun hmem => hmem⟩
  · rw [addPath_of_notMem h, AList.mem_insert]

end PathSet

/-! ### Builds -/

/-- How far an asynchronous build is. -/
inductive BuildStage
  /-- `pathbuilder_start_build` is queued -/
  | queued
  /-- `GenerateNextKey` is queued for a hop of the path -/
  | keying (path : Ptr Path) (idx : ℕ)
  /-- `pathbuilder_generated_keys` is queued -/
  | generated (path : Ptr Path)

/-- A build, and the set that it is for. -/
structure PathBuild where
  owner : ℕ
  stage : BuildStage

/-- A `PathContext` with its builders, the states of the paths by address, and the builds that are
under way. -/
structure PathBuilders where
  context : PathContext
  /-- `m_PathBuilders`: every builder adds itself once -/
  builders : List ℕ
  nodup : builders.Nodup
  state : ℕ → PathState
  builds : List PathBuild

/-- What happens to builders. -/
inductive BuilderStep
  | expirePaths (now : UInt64)
  | buildPaths
  /-- the hops of a build are selected: the path is new -/
  | startBuild (i : ℕ) (path : Ptr Path)
  | generateNextKey (i : ℕ) (random : ℕ → HopRandom) (junk : ℕ → Blob frameSize)
  /-- `sent` is what `SendToOrQueue` returns -/
  | generatedKeys (i : ℕ) (sent : Bool) (now : UInt64)
  /-- the path at an address is confirmed -/
  | confirm (address : ℕ)

namespace PathBuilders

variable (w : PathBuilders)

/-- A set. -/
abbrev pathSet (b : ℕ) : PathSet := w.context.sets b

/-- A path has expired. -/
def expired (now : UInt64) (path : Ptr Path) : Bool := (w.state path.address).expired now

/-- `PathContext::ExpirePaths`. -/
def expirePaths (now : UInt64) : PathBuilders :=
  { w with
    context := { (w.context.expireTransit now).1 with
      sets := w.builders.foldl
        (fun sets b => Function.update sets b ((sets b).expirePaths (w.expired now)))
        w.context.sets } }

/-- `BuildOne`. -/
def buildOne (b : ℕ) : PathBuilders := { w with builds := w.builds ++ [⟨b, .queued⟩] }

/-- What `BuildPaths` does with one builder. -/
def considerBuilder (b : ℕ) : PathBuilders :=
  if (w.pathSet b).shouldBuildMore then w.buildOne b else w

/-- `PathContext::BuildPaths`. -/
def buildPaths : PathBuilders := w.builders.foldl considerBuilder w

/-- A build goes on to a stage. -/
def proceed (i b : ℕ) (stage : BuildStage) : PathBuilders :=
  { w with builds := ⟨b, stage⟩ :: w.builds.eraseIdx i }

/-- A build is over. -/
def drop (i : ℕ) : PathBuilders := { w with builds := w.builds.eraseIdx i }

/-- `pathbuilder_start_build`. -/
def startBuild (i : ℕ) (path : Ptr Path) : PathBuilders :=
  match w.builds[i]? with
  | some ⟨b, .queued⟩ => w.proceed i b (.keying path 0)
  | _ => w

/-- `GenerateNextKey`. Nobody else sees the path before it has all of its keys: they are made with
the last one. -/
def generateNextKey (S : Sodium) (i : ℕ) (random : ℕ → HopRandom) (junk : ℕ → Blob frameSize) :
    PathBuilders :=
  match w.builds[i]? with
  | some ⟨b, .keying path idx⟩ =>
      if idx + 1 < path.val.hops.length then w.proceed i b (.keying path (idx + 1))
      else
        match path.val.generate S random junk with
        | none => w.drop i
        | some (path', _) => w.proceed i b (.generated ⟨path.address, path'⟩)
  | _ => w

/-- `AddOwnPath` of a path in a state. -/
def addOwnPath (b : ℕ) (path : Ptr Path) (s : PathState) : PathBuilders :=
  { w with
    context := w.context.addOwnPath b path
    state := Function.update w.state path.address s }

/-- `pathbuilder_generated_keys`. -/
def generatedKeys (i : ℕ) (sent : Bool) (now : UInt64) : PathBuilders :=
  match w.builds[i]? with
  | some ⟨b, .generated path⟩ =>
      if sent then (w.drop i).addOwnPath b path ⟨.building, now⟩ else w.drop i
  | _ => w

/-- `HandlePathConfirmMessage`, which confirms a path that is being built. -/
def confirm (address : ℕ) : PathBuilders :=
  if (w.state address).status = .building then
    { w with
      state := Function.update w.state address
        ⟨.established, (w.state address).buildStarted⟩ }
  else w

/-- A step. -/
def step (S : Sodium) (w : PathBuilders) : BuilderStep → PathBuilders
  | .expirePaths now => w.expirePaths now
  | .buildPaths => w.buildPaths
  | .startBuild i path => w.startBuild i path
  | .generateNextKey i random junk => w.generateNextKey S i random junk
  | .generatedKeys i sent now => w.generatedKeys i sent now
  | .confirm address => w.confirm address

/-- Nothing was built yet. -/
def fresh : PathBuilders :=
  { w with
    context := { w.context with
      transitPaths := []
      ourPaths := ∅
      sets := fun b => { numPaths := (w.context.sets b).numPaths } }
    builds := [] }

/-- The number of builds for a set that are under way. -/
def pending (b : ℕ) : ℕ := w.builds.countP fun build => build.owner = b

/-- No set holds more paths than asked for. -/
def Bounded : Prop := ∀ b, (w.pathSet b).size ≤ (w.pathSet b).numPaths

/-- The path that comes into a set now, and the set. -/
def arrival : BuilderStep → Option (ℕ × Ptr Path)
  | .generatedKeys i true _ =>
      match w.builds[i]? with
      | some ⟨b, .generated path⟩ => some (b, path)
      | _ => none
  | _ => none

/-- A path that comes into its set now finds room there, or a path in its place. -/
def Room (step : BuilderStep) : Prop :=
  ∀ b path, w.arrival step = some (b, path) →
    (w.pathSet b).size < (w.pathSet b).numPaths ∨ PathSet.keyOf path ∈ (w.pathSet b).paths

/-- A build that is started now has room beside the others of its set. -/
def Counted (step : BuilderStep) : Prop :=
  step = .buildPaths → ∀ b ∈ w.builders, (w.pathSet b).shouldBuildMore = true →
    (w.pathSet b).size + w.pending b < (w.pathSet b).numPaths

/-- The paths and the builds of a set are no more than the paths that are asked for. -/
def InBudget : Prop := ∀ b, (w.pathSet b).size + w.pending b ≤ (w.pathSet b).numPaths

variable {w} {S : Sodium}

lemma InBudget.bounded (h : w.InBudget) : w.Bounded := fun b =>
  Nat.le_trans (Nat.le_add_right _ _) (h b)

/-! ### What the steps do to a set -/

lemma pathSet_addOwnPath (owner : ℕ) (path : Ptr Path) (s : PathState) (b : ℕ) :
    (w.addOwnPath owner path s).pathSet b =
      if b = owner then (w.pathSet owner).addPath path else w.pathSet b := by
  have hsets : ((w.addOwnPath owner path s).context).sets =
      Function.update w.context.sets owner ((w.pathSet owner).addPath path) := by
    rw [addOwnPath, PathContext.addOwnPath, PathContext.putOwn, PathContext.putOwn]
    split_ifs <;> rfl
  rw [pathSet, hsets, Function.update_apply]

/-- What `ExpirePaths` leaves of a set. -/
lemma pathSet_expirePaths (now : UInt64) (b : ℕ) :
    (w.expirePaths now).pathSet b =
      if b ∈ w.builders then (w.pathSet b).expirePaths (w.expired now) else w.pathSet b := by
  have hfold : ∀ (bs : List ℕ) (sets : ℕ → PathSet), bs.Nodup →
      bs.foldl (fun sets b => Function.update sets b ((sets b).expirePaths (w.expired now)))
        sets b = if b ∈ bs then (sets b).expirePaths (w.expired now) else sets b := by
    intro bs
    induction bs with
    | nil => exact fun sets _ => rfl
    | cons b' bs ih =>
      intro sets hnodup
      obtain ⟨hnot, hnodup⟩ := List.nodup_cons.mp hnodup
      rw [List.foldl_cons, ih _ hnodup]
      by_cases heq : b = b'
      · subst heq
        rw [if_neg hnot, if_pos List.mem_cons_self, Function.update_self]
      · simp only [Function.update_of_ne heq, List.mem_cons, heq, false_or]
  exact hfold w.builders w.context.sets w.nodup

lemma context_considerBuilder (w : PathBuilders) (b : ℕ) :
    (w.considerBuilder b).context = w.context := by
  rw [considerBuilder]
  split <;> rfl

lemma context_buildPaths (w : PathBuilders) : w.buildPaths.context = w.context := by
  have hfold : ∀ (bs : List ℕ) (w : PathBuilders),
      (bs.foldl considerBuilder w).context = w.context := by
    intro bs
    induction bs with
    | nil => exact fun w => rfl
    | cons b bs ih =>
      intro w
      rw [List.foldl_cons, ih, context_considerBuilder]
  exact hfold w.builders w

/-- A step with which no path comes into a set. -/
lemma pathSet_step_of_none {i : BuilderStep} (h : w.arrival i = none) (b : ℕ) :
    ((w.step S i).pathSet b).size ≤ (w.pathSet b).size ∧
      ((w.step S i).pathSet b).numPaths = (w.pathSet b).numPaths := by
  cases i with
  | expirePaths now =>
    rw [step, pathSet_expirePaths]
    split
    · exact ⟨PathSet.size_expirePaths_le _, rfl⟩
    · exact ⟨le_rfl, rfl⟩
  | buildPaths =>
    rw [step, pathSet, context_buildPaths]
    exact ⟨le_rfl, rfl⟩
  | startBuild j path =>
    rw [step, startBuild]
    split <;> exact ⟨le_rfl, rfl⟩
  | generateNextKey j random junk =>
    rw [step, generateNextKey]
    split
    · split_ifs
      · exact ⟨le_rfl, rfl⟩
      · split <;> exact ⟨le_rfl, rfl⟩
    · exact ⟨le_rfl, rfl⟩
  | generatedKeys j sent now =>
    rw [step, generatedKeys]
    split
    · rename_i b path hbuild
      cases sent with
      | false => exact ⟨le_rfl, rfl⟩
      | true => simp [arrival, hbuild] at h
    · exact ⟨le_rfl, rfl⟩
  | confirm address =>
    rw [step, confirm]
    split <;> exact ⟨le_rfl, rfl⟩

/-- A step with which one does. -/
lemma step_of_some {i : BuilderStep} {b : ℕ} {path : Ptr Path}
    (h : w.arrival i = some (b, path)) : ∃ j now, w.builds[j]? = some ⟨b, .generated path⟩ ∧
      w.step S i = (w.drop j).addOwnPath b path ⟨.building, now⟩ := by
  cases i with
  | generatedKeys j sent now =>
    cases sent with
    | false => exact nomatch h
    | true =>
      rw [arrival] at h
      split at h
      · rename_i b' path' hbuild
        obtain ⟨rfl, rfl⟩ := Prod.mk.inj (Option.some.inj h)
        refine ⟨j, now, hbuild, ?_⟩
        rw [step, generatedKeys, hbuild]
        rfl
      · exact nomatch h
  | expirePaths now => exact nomatch h
  | buildPaths => exact nomatch h
  | startBuild j path => exact nomatch h
  | generateNextKey j random junk => exact nomatch h
  | confirm address => exact nomatch h

/-! ### Paths that are there -/

lemma bounded_step_iff (h : w.Bounded) (i : BuilderStep) :
    (w.step S i).Bounded ↔ w.Room i := by
  cases harrival : w.arrival i with
  | none =>
    refine iff_of_true (fun b => ?_) fun b path heq => nomatch harrival.symm.trans heq
    obtain ⟨hsize, hnum⟩ := pathSet_step_of_none (S := S) harrival b
    rw [hnum]
    exact Nat.le_trans hsize (h b)
  | some arrived =>
    obtain ⟨b, path⟩ := arrived
    obtain ⟨j, now, -, hstep⟩ := step_of_some (S := S) harrival
    have hset : ∀ b', (w.step S i).pathSet b' =
        if b' = b then (w.pathSet b).addPath path else w.pathSet b' := by
      intro b'
      rw [hstep, pathSet_addOwnPath]
      rfl
    constructor
    · intro hbounded b' path' heq
      obtain ⟨rfl, rfl⟩ := Prod.mk.inj (Option.some.inj (harrival.symm.trans heq))
      have hle := hbounded b
      rw [hset, if_pos rfl, PathSet.size_addPath, PathSet.numPaths_addPath] at hle
      by_cases hmem : PathSet.keyOf path ∈ (w.pathSet b).paths
      · exact .inr hmem
      · rw [if_neg hmem] at hle
        exact .inl hle
    · intro hroom b'
      rw [hset]
      by_cases heq : b' = b
      · rw [if_pos heq, PathSet.size_addPath, PathSet.numPaths_addPath]
        split_ifs with hmem
        · exact h b
        · exact (hroom b path harrival).resolve_right hmem
      · rw [if_neg heq]
        exact h b'

/-! ### Builds that are under way -/

lemma pending_eq {j : ℕ} {build : PathBuild} (h : w.builds[j]? = some build) (b : ℕ) :
    w.pending b = (w.drop j).pending b + if build.owner = b then 1 else 0 := by
  obtain ⟨hlt, rfl⟩ := List.getElem?_eq_some_iff.mp h
  rw [pending, ← (List.getElem_cons_eraseIdx_perm hlt).countP_eq, List.countP_cons]
  simp [pending, drop]

lemma pending_proceed {j b' : ℕ} {stage stage' : BuildStage}
    (h : w.builds[j]? = some ⟨b', stage⟩) (b : ℕ) :
    (w.proceed j b' stage').pending b = w.pending b := by
  rw [pending_eq h b, pending, proceed, List.countP_cons]
  simp [pending, drop]

lemma pending_drop_le (j b : ℕ) : (w.drop j).pending b ≤ w.pending b :=
  (List.eraseIdx_sublist ..).countP_le

lemma pending_buildOne (b' b : ℕ) :
    (w.buildOne b').pending b = w.pending b + if b' = b then 1 else 0 := by
  rw [pending, buildOne, List.countP_append, List.countP_singleton]
  simp [pending]

/-- `BuildPaths` starts one build at most for a builder. -/
lemma pending_buildPaths (w : PathBuilders) (b : ℕ) :
    w.buildPaths.pending b ≤ w.pending b +
      if b ∈ w.builders ∧ (w.pathSet b).shouldBuildMore = true then 1 else 0 := by
  have hfold : ∀ (bs : List ℕ) (w : PathBuilders), bs.Nodup →
      (bs.foldl considerBuilder w).pending b ≤ w.pending b +
        if b ∈ bs ∧ (w.pathSet b).shouldBuildMore = true then 1 else 0 := by
    intro bs
    induction bs with
    | nil => exact fun w _ => Nat.le_add_right _ _
    | cons b' bs ih =>
      intro w hnodup
      obtain ⟨hnot, hnodup⟩ := List.nodup_cons.mp hnodup
      have hsame : (w.considerBuilder b').pathSet b = w.pathSet b := by
        rw [pathSet, context_considerBuilder, pathSet]
      have hrest := ih (w.considerBuilder b') hnodup
      rw [hsame] at hrest
      refine Nat.le_trans hrest ?_
      by_cases heq : b' = b
      · subst heq
        rw [if_neg fun h => hnot h.1, considerBuilder]
        split_ifs with hmore hboth hboth
        · rw [pending_buildOne, if_pos rfl]
        · exact absurd ⟨List.mem_cons_self, hmore⟩ hboth
        · exact Nat.le_add_right _ _
        · exact le_rfl
      · have hpending : (w.considerBuilder b').pending b = w.pending b := by
          rw [considerBuilder]
          split
          · rw [pending_buildOne, if_neg heq, Nat.add_zero]
          · rfl
        rw [hpending]
        simp only [List.mem_cons, Ne.symm heq, false_or, le_refl]
  exact hfold w.builders w w.nodup

/-- A step makes no builds but those of `BuildPaths`. -/
lemma pending_step_le {i : BuilderStep} (h : i ≠ .buildPaths) (b : ℕ) :
    (w.step S i).pending b ≤ w.pending b := by
  cases i with
  | expirePaths now => exact le_rfl
  | buildPaths => exact absurd rfl h
  | startBuild j path =>
    rw [step, startBuild]
    split
    · rename_i b' hbuild
      rw [pending_proceed hbuild]
    · exact le_rfl
  | generateNextKey j random junk =>
    rw [step, generateNextKey]
    split
    · rename_i b' path idx hbuild
      split_ifs
      · rw [pending_proceed hbuild]
      · split
        · exact pending_drop_le ..
        · rw [pending_proceed hbuild]
    · exact le_rfl
  | generatedKeys j sent now =>
    rw [step, generatedKeys]
    split
    · split_ifs <;> exact pending_drop_le ..
    · exact le_rfl
  | confirm address =>
    rw [step, confirm]
    split <;> exact le_rfl

lemma InBudget.step (h : w.InBudget) {i : BuilderStep} (hcounted : w.Counted i) :
    (w.step S i).InBudget := by
  intro b
  have hb := h b
  cases harrival : w.arrival i with
  | none =>
    obtain ⟨hsize, hnum⟩ := pathSet_step_of_none (S := S) harrival b
    rw [hnum]
    -- only `BuildPaths` adds to what is under way, and the condition leaves room for one
    by_cases hbuild : i = .buildPaths
    · subst hbuild
      have hpending := pending_buildPaths w b
      split_ifs at hpending with hmore
      · have hroom := hcounted rfl b hmore.1 hmore.2
        rw [PathBuilders.step] at hsize ⊢
        omega
      · rw [PathBuilders.step] at hsize ⊢
        omega
    · have hpending := pending_step_le (w := w) (S := S) hbuild b
      omega
  | some arrived =>
    -- what comes into the set is not under way any more
    obtain ⟨b', path⟩ := arrived
    obtain ⟨j, now, hbuild, hstep⟩ := step_of_some (S := S) harrival
    have hpending := pending_eq hbuild b
    have hset := pathSet_addOwnPath (w := w.drop j) b' path ⟨.building, now⟩ b
    have hrest : (w.step S i).pending b = (w.drop j).pending b := by
      rw [hstep]
      rfl
    rw [hrest, hstep, hset]
    by_cases heq : b = b'
    · subst heq
      rw [if_pos rfl] at hpending ⊢
      rw [PathSet.size_addPath, PathSet.numPaths_addPath]
      have hsame : (w.drop j).pathSet b = w.pathSet b := rfl
      rw [hsame]
      split_ifs <;> omega
    · rw [if_neg (Ne.symm heq)] at hpending
      rw [if_neg heq]
      have hsame : (w.drop j).pathSet b = w.pathSet b := rfl
      rw [hsame]
      omega

/-- From a state in which nothing was built, no set ever holds more paths than asked for if and only
if every path that comes into a set finds room there. It does when every build is counted with the
others before it is started. -/
theorem bounded_iff (S : Sodium) (w : PathBuilders) (steps : List BuilderStep) :
    (Always (step S) Bounded w.fresh steps ↔ Along (step S) Room w.fresh steps) ∧
      (Along (step S) Counted w.fresh steps → Always (step S) Bounded w.fresh steps) := by
  have hfresh : w.fresh.InBudget := fun b => Nat.zero_le _
  constructor
  · exact always_iff_along (J := fun _ => True) (fun _ _ _ _ _ => trivial)
      (fun _ i _ h => bounded_step_iff h i) trivial hfresh.bounded
  · intro hcounted
    have hbudget := always_of_along (I := InBudget) (fun _ _ h hc => h.step hc) hfresh hcounted
    exact hbudget.mono fun _ h => h.bounded

/-! ### Five builds for four paths -/

section Five

/-- A path over four hops with Bob's secret; the ids tell the paths apart. -/
def fourBobs (n : UInt8) : Path :=
  .new [Path.bobRouter 3, Path.bobRouter 5, Path.bobRouter 3, Path.bobRouter 5]
    (List.cons_ne_nil _ _) fun _ => (PathContext.idOf (n + 100), PathContext.idOf n)

lemma length_fourBobs (n : UInt8) : (fourBobs n).hops.length = 4 := rfl

/-- The keys of the path are made. -/
lemma generate_fourBobs (n : UInt8) : ∃ path frames,
    (fourBobs n).generate Handshake.twoKeys (fun _ => Path.aliceHop)
      (fun _ => zeroBlob frameSize) = some (path, frames) ∧
      (path.Upstream, path.RXID) = ((Path.bobRouter 3).pubkey, PathContext.idOf n) := by
  have hkeyed : ∀ k < (fourBobs n).hops.length,
      Keyed Handshake.twoKeys Path.aliceHop Handshake.bobSeed ((fourBobs n).hop k) := by
    intro k hk
    have henckey : ((fourBobs n).hop k).router.enckey = Handshake.bobPub := by
      have hfour := length_fourBobs n
      obtain rfl | rfl | rfl | rfl : k = 0 ∨ k = 1 ∨ k = 2 ∨ k = 3 := by omega
      all_goals rfl
    exact ⟨henckey.trans (by decide), Handshake.twoKeys_agree, Handshake.twoKeys_agree⟩
  have hshort : (fourBobs n).hops.length ≤ maxHops := by
    rw [length_fourBobs]
    decide
  obtain ⟨path, frames, hgenerate, hsame, -, -, -⟩ :=
    Path.generate_spec (fun _ => zeroBlob frameSize) hshort hkeyed
  refine ⟨path, frames, hgenerate, ?_⟩
  rw [Path.Upstream, Path.RXID, ← Path.hop_zero, hsame.router, hsame.rxID]
  rfl

/-- The jobs of the first build, one after the other. -/
def complete (n : UInt8) : List BuilderStep :=
  .startBuild 0 ⟨n.toNat, fourBobs n⟩ ::
    List.replicate 4 (.generateNextKey 0 (fun _ => Path.aliceHop) fun _ => zeroBlob frameSize) ++
    [.generatedKeys 0 true 1]

lemma foldl_complete (n : UInt8) {w : PathBuilders} {rest : List PathBuild}
    (h : w.builds = ⟨0, .queued⟩ :: rest) : ∃ w' path,
      (complete n).foldl (step Handshake.twoKeys) w = w' ∧ w'.builds = rest ∧
      w'.pathSet 0 = (w.pathSet 0).addPath path ∧
      PathSet.keyOf path = ((Path.bobRouter 3).pubkey, PathContext.idOf n) := by
  obtain ⟨path, frames, hgenerate, hkey⟩ := generate_fourBobs n
  refine ⟨PathBuilders.addOwnPath { w with builds := rest } 0 ⟨n.toNat, path⟩ ⟨.building, 1⟩,
    ⟨n.toNat, path⟩, ?_, rfl, ?_, hkey⟩
  · simp [complete, step, startBuild, h, proceed, generateNextKey, length_fourBobs, hgenerate,
      generatedKeys, drop, List.replicate]
  · rw [pathSet_addOwnPath, if_pos rfl]

/-- A builder for four paths, and nothing else. -/
def oneBuilder : PathBuilders where
  context := { Path.bobContext (Path.someRouter 3).pubkey with sets := fun _ => { numPaths := 4 } }
  builders := [0]
  nodup := List.nodup_singleton 0
  state := fun _ => ⟨.building, 0⟩
  builds := []

lemma idOf_injective : Function.Injective PathContext.idOf := fun _ _ h =>
  congrArg List.Vector.head h

/-- Five ticks of the router. -/
def fiveTicks : List BuilderStep := (List.replicate 5 [.expirePaths 0, .buildPaths]).flatten

/-- Five ticks start five builds before the first one is done. -/
theorem not_bounded :
    ¬ ∀ (S : Sodium) (w : PathBuilders) (steps : List BuilderStep),
      Always (step S) Bounded w.fresh steps := by
  intro h
  obtain ⟨w₀, hw₀, hb₀, hs₀⟩ : ∃ w₀,
      fiveTicks.foldl (step Handshake.twoKeys) oneBuilder.fresh = w₀ ∧
      w₀.builds = List.replicate 5 ⟨0, .queued⟩ ∧ w₀.pathSet 0 = { numPaths := 4 } :=
    ⟨_, rfl, rfl, rfl⟩
  obtain ⟨w₁, p₁, hw₁, hb₁, hs₁, hk₁⟩ := foldl_complete 1 hb₀
  obtain ⟨w₂, p₂, hw₂, hb₂, hs₂, hk₂⟩ := foldl_complete 2 hb₁
  obtain ⟨w₃, p₃, hw₃, hb₃, hs₃, hk₃⟩ := foldl_complete 3 hb₂
  obtain ⟨w₄, p₄, hw₄, hb₄, hs₄, hk₄⟩ := foldl_complete 4 hb₃
  obtain ⟨w₅, p₅, hw₅, -, hs₅, hk₅⟩ := foldl_complete 5 hb₄
  have hbounded := (h Handshake.twoKeys oneBuilder (fiveTicks ++ (complete 1 ++
    (complete 2 ++ (complete 3 ++ (complete 4 ++ complete 5)))))).last 0
  simp only [List.foldl_append, hw₀, hw₁, hw₂, hw₃, hw₄, hw₅] at hbounded
  have hempty : ∀ key, key ∉ ({ numPaths := 4 } : PathSet).paths := fun key hkey => nomatch hkey
  rw [hs₅, hs₄, hs₃, hs₂, hs₁, hs₀] at hbounded
  simp only [PathSet.size_addPath, PathSet.numPaths_addPath, PathSet.mem_addPath, hk₁, hk₂, hk₃,
    hk₄, hk₅, Prod.mk.injEq, true_and, idOf_injective.eq_iff, hempty] at hbounded
  exact absurd hbounded (by decide)

end Five

end PathBuilders

end Udap
