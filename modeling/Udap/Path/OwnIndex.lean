import Udap.Path.Builder

/-!
The index of our own paths, `m_OurPaths`, over runs in which paths are added and expire.

`AddOwnPath` puts both ids of a path into the index, which keeps what it has for an id;
`PathSet::ExpirePaths` deletes paths and does not know of the index.

* `tracks_iff`: the index has exactly the ids of the paths that are held, for their sets, if and
  only if the ids of a path that is added do not collide and no id expires with its last path
  (`Fits`).
-/

namespace Udap

open ByteMem Iwp

/-- What happens to the own paths. -/
inductive OwnStep
  | add (b : ℕ) (path : Ptr Path) (s : PathState)
  | expire (now : UInt64)
  /-- the path at an address changes its state -/
  | change (address : ℕ) (s : PathState)

namespace PathContext

lemma lookup_putOwn (c : PathContext) (id id' : PathID) (owner : ℕ) :
    (c.putOwn id' owner).ourPaths.lookup id =
      (c.ourPaths.lookup id).or (if id = id' then some owner else none) := by
  rw [putOwn]
  split_ifs with hmem heq heq
  · obtain ⟨o, ho⟩ := Option.isSome_iff_exists.mp (AList.lookup_isSome.mpr (heq ▸ hmem))
    rw [ho, Option.some_or]
  · rw [Option.or_none]
  · subst heq
    rw [AList.lookup_insert, AList.lookup_eq_none.mpr hmem, Option.none_or]
  · rw [AList.lookup_insert_ne heq, Option.or_none]

lemma lookup_addOwnPath (c : PathContext) (id : PathID) (owner : ℕ) (path : Ptr Path) :
    (c.addOwnPath owner path).ourPaths.lookup id = (c.ourPaths.lookup id).or
      (if id = path.val.TXID ∨ id = path.val.RXID then some owner else none) := by
  rw [addOwnPath, lookup_putOwn, lookup_putOwn, Option.or_assoc]
  by_cases htx : id = path.val.TXID
  · rw [if_pos htx, Option.some_or, if_pos (Or.inl htx)]
  · rw [if_neg htx, Option.none_or]
    simp only [htx, false_or]

end PathContext

namespace PathBuilders

variable (w : PathBuilders)

/-- A step. -/
def ownStep : OwnStep → PathBuilders
  | .add b path s => w.addOwnPath b path s
  | .expire now => w.expirePaths now
  | .change address s => { w with state := Function.update w.state address s }

/-- A path of a set has an id. -/
def Holds (b : ℕ) (id : PathID) : Prop :=
  ∃ key path, (w.pathSet b).paths.lookup key = some path ∧
    (id = path.val.TXID ∨ id = path.val.RXID)

/-- The index has the ids of the paths that are held, for their sets. -/
def Tracks : Prop := ∀ id b, w.context.ourPaths.lookup id = some b ↔ w.Holds b id

/-- Paths are stored under their keys. -/
def Keyed : Prop := ∀ b key path, (w.pathSet b).paths.lookup key = some path →
  key = PathSet.keyOf path

/-- The step neither adds a path whose ids collide nor lets an id expire with its last path. A path
that finds another one in its place is not held, so its `TXID` must be there already. -/
def Fits : OwnStep → Prop
  | .add b path _ =>
      if PathSet.keyOf path ∈ (w.pathSet b).paths then ∃ b', w.Holds b' path.val.TXID
      else ∀ b', w.Holds b' path.val.TXID ∨ w.Holds b' path.val.RXID → b' = b
  | .expire now =>
      ∀ b ∈ w.builders, ∀ key path, (w.pathSet b).paths.lookup key = some path →
        w.expired now path = true → ∀ id, id = path.val.TXID ∨ id = path.val.RXID →
          ∃ key' path', (w.pathSet b).paths.lookup key' = some path' ∧
            w.expired now path' = false ∧ (id = path'.val.TXID ∨ id = path'.val.RXID)
  | .change _ _ => True

variable {w}

lemma lookup_addOwnPath (b : ℕ) (path : Ptr Path) (s : PathState) (id : PathID) :
    (w.addOwnPath b path s).context.ourPaths.lookup id = (w.context.ourPaths.lookup id).or
      (if id = path.val.TXID ∨ id = path.val.RXID then some b else none) :=
  w.context.lookup_addOwnPath id b path

/-- A path that finds another one in its place is not held. -/
lemma holds_addOwnPath_of_mem {b : ℕ} {path : Ptr Path} (s : PathState)
    (h : PathSet.keyOf path ∈ (w.pathSet b).paths) (b' : ℕ) (id : PathID) :
    (w.addOwnPath b path s).Holds b' id ↔ w.Holds b' id := by
  have hset : (w.addOwnPath b path s).pathSet b' = w.pathSet b' := by
    rw [pathSet_addOwnPath, PathSet.addPath_of_mem h]
    split_ifs with heq
    · rw [heq]
    · rfl
  rw [Holds, hset]
  rfl

lemma holds_addOwnPath_of_notMem {b : ℕ} {path : Ptr Path} (s : PathState)
    (h : PathSet.keyOf path ∉ (w.pathSet b).paths) (b' : ℕ) (id : PathID) :
    (w.addOwnPath b path s).Holds b' id ↔
      w.Holds b' id ∨ b' = b ∧ (id = path.val.TXID ∨ id = path.val.RXID) := by
  rw [Holds, pathSet_addOwnPath, PathSet.addPath_of_notMem h]
  by_cases heq : b' = b
  · subst heq
    rw [if_pos rfl, and_iff_right rfl]
    constructor
    · rintro ⟨key, path', hlookup, hid⟩
      by_cases hkey : key = PathSet.keyOf path
      · rw [hkey, AList.lookup_insert] at hlookup
        obtain rfl := Option.some.inj hlookup
        exact .inr hid
      · rw [AList.lookup_insert_ne hkey] at hlookup
        exact .inl ⟨key, path', hlookup, hid⟩
    · rintro (⟨key, path', hlookup, hid⟩ | hid)
      · refine ⟨key, path', ?_, hid⟩
        rw [AList.lookup_insert_ne]
        · exact hlookup
        · rintro rfl
          exact h (AList.lookup_isSome.mp (by rw [hlookup]; rfl))
      · exact ⟨_, path, AList.lookup_insert _, hid⟩
  · rw [if_neg heq, or_iff_left fun hb => heq hb.1]
    rfl

lemma holds_expirePaths (now : UInt64) (b : ℕ) (id : PathID) :
    (w.expirePaths now).Holds b id ↔ ∃ key path, (w.pathSet b).paths.lookup key = some path ∧
      (b ∈ w.builders → w.expired now path = false) ∧
      (id = path.val.TXID ∨ id = path.val.RXID) := by
  rw [Holds, pathSet_expirePaths]
  by_cases hb : b ∈ w.builders
  · rw [if_pos hb]
    simp only [PathSet.lookup_expirePaths, hb, forall_const, and_assoc]
  · rw [if_neg hb]
    simp only [hb, false_imp_iff, true_and]

/-- The index after a path was added that found another one in its place. -/
lemma Tracks.add_iff_of_mem (h : w.Tracks) (hkeyed : w.Keyed) {b : ℕ} {path : Ptr Path}
    (s : PathState) (hmem : PathSet.keyOf path ∈ (w.pathSet b).paths) :
    (w.addOwnPath b path s).Tracks ↔ ∃ b', w.Holds b' path.val.TXID := by
  obtain ⟨path', hpath'⟩ := Option.isSome_iff_exists.mp (AList.lookup_isSome.mpr hmem)
  have hrx : w.context.ourPaths.lookup path.val.RXID = some b :=
    (h _ b).mpr ⟨_, path', hpath', .inr (congrArg Prod.snd (hkeyed b _ path' hpath'))⟩
  constructor
  · intro htracks
    obtain ⟨b', hb'⟩ : ∃ b', (w.addOwnPath b path s).context.ourPaths.lookup path.val.TXID =
        some b' := by
      rw [lookup_addOwnPath, if_pos (.inl rfl)]
      cases w.context.ourPaths.lookup path.val.TXID with
      | none => exact ⟨b, rfl⟩
      | some b' => exact ⟨b', rfl⟩
    exact ⟨b', (holds_addOwnPath_of_mem s hmem b' _).mp ((htracks _ b').mp hb')⟩
  · rintro ⟨b₀, hb₀⟩ id b'
    have htx := (h _ b₀).mpr hb₀
    rw [holds_addOwnPath_of_mem s hmem, ← h id b', lookup_addOwnPath]
    split_ifs with hid
    · rcases hid with rfl | rfl
      · rw [htx, Option.some_or]
      · rw [hrx, Option.some_or]
    · rw [Option.or_none]

/-- The index after a path was added that is held now. -/
lemma Tracks.add_iff_of_notMem (h : w.Tracks) {b : ℕ} {path : Ptr Path} (s : PathState)
    (hmem : PathSet.keyOf path ∉ (w.pathSet b).paths) :
    (w.addOwnPath b path s).Tracks ↔
      ∀ b', w.Holds b' path.val.TXID ∨ w.Holds b' path.val.RXID → b' = b := by
  have hiff : (w.addOwnPath b path s).Tracks ↔ ∀ id b',
      (w.context.ourPaths.lookup id).or
        (if id = path.val.TXID ∨ id = path.val.RXID then some b else none) = some b' ↔
      w.context.ourPaths.lookup id = some b' ∨
        b' = b ∧ (id = path.val.TXID ∨ id = path.val.RXID) := by
    refine forall_congr' fun id => forall_congr' fun b' => ?_
    rw [lookup_addOwnPath, holds_addOwnPath_of_notMem s hmem, h id b']
  rw [hiff]
  constructor
  · intro hall b' hb'
    have hheld : ∀ id, id = path.val.TXID ∨ id = path.val.RXID → w.Holds b' id → b' = b := by
      intro id hid hholds
      have hnew := (hall id b).mpr (.inr ⟨rfl, hid⟩)
      rw [(h id b').mpr hholds, Option.some_or] at hnew
      exact Option.some.inj hnew
    exact hb'.elim (hheld _ (.inl rfl)) (hheld _ (.inr rfl))
  · intro hown id b'
    split_ifs with hid
    · cases hlookup : w.context.ourPaths.lookup id with
      | none => simp [hid, eq_comm]
      | some b₀ =>
        obtain rfl : b₀ = b := by
          refine hown b₀ ?_
          rcases hid with rfl | rfl
          · exact .inl ((h _ b₀).mp hlookup)
          · exact .inr ((h _ b₀).mp hlookup)
        rw [Option.some_or, Option.some.injEq]
        exact ⟨.inl, fun hor => hor.elim (fun heq => heq) fun hand => hand.1.symm⟩
    · rw [Option.or_none, or_iff_left fun hand => hid hand.2]

/-- The index after paths expired. -/
lemma Tracks.expire_iff (h : w.Tracks) (now : UInt64) :
    (w.expirePaths now).Tracks ↔ w.Fits (.expire now) := by
  have hindex : (w.expirePaths now).context.ourPaths = w.context.ourPaths := rfl
  constructor
  · intro htracks b hb key path hpath _ id hid
    have hheld := (h id b).mpr ⟨key, path, hpath, hid⟩
    obtain ⟨key', path', hpath', hlive, hid'⟩ :=
      (holds_expirePaths now b id).mp ((htracks id b).mp hheld)
    exact ⟨key', path', hpath', hlive hb, hid'⟩
  · intro hfits id b
    rw [hindex, h id b, holds_expirePaths]
    constructor
    · rintro ⟨key, path, hpath, hid⟩
      by_cases hgone : b ∈ w.builders ∧ w.expired now path = true
      · obtain ⟨key', path', hpath', hlive, hid'⟩ :=
          hfits b hgone.1 key path hpath hgone.2 id hid
        exact ⟨key', path', hpath', fun _ => hlive, hid'⟩
      · exact ⟨key, path, hpath, fun hb => Bool.eq_false_iff.mpr fun hexpired =>
          hgone ⟨hb, hexpired⟩, hid⟩
    · rintro ⟨key, path, hpath, -, hid⟩
      exact ⟨key, path, hpath, hid⟩

lemma Tracks.step_iff (h : w.Tracks) (hkeyed : w.Keyed) (i : OwnStep) :
    (w.ownStep i).Tracks ↔ w.Fits i := by
  cases i with
  | add b path s =>
    rw [ownStep, Fits]
    split_ifs with hmem
    · exact h.add_iff_of_mem hkeyed s hmem
    · exact h.add_iff_of_notMem s hmem
  | expire now => exact h.expire_iff now
  | change address s => exact iff_of_true h trivial

lemma Keyed.step (h : w.Keyed) (i : OwnStep) : (w.ownStep i).Keyed := by
  cases i with
  | add b path s =>
    intro b' key path' hlookup
    rw [ownStep, pathSet_addOwnPath] at hlookup
    split_ifs at hlookup with heq
    · subst heq
      by_cases hmem : PathSet.keyOf path ∈ (w.pathSet b').paths
      · rw [PathSet.addPath_of_mem hmem] at hlookup
        exact h b' key path' hlookup
      · rw [PathSet.addPath_of_notMem hmem] at hlookup
        by_cases hkey : key = PathSet.keyOf path
        · rw [hkey, AList.lookup_insert] at hlookup
          rw [hkey, Option.some.inj hlookup]
        · rw [AList.lookup_insert_ne hkey] at hlookup
          exact h b' key path' hlookup
    · exact h b' key path' hlookup
  | expire now =>
    intro b' key path' hlookup
    rw [ownStep, pathSet_expirePaths] at hlookup
    split_ifs at hlookup
    · exact h b' key path' (PathSet.lookup_expirePaths.mp hlookup).1
    · exact h b' key path' hlookup
  | change address s => exact h

/-- From an empty index, it tracks the paths in every state that is reached if and only if every
step fits. -/
theorem tracks_iff (w : PathBuilders) (steps : List OwnStep) :
    Always ownStep Tracks w.fresh steps ↔ Along ownStep Fits w.fresh steps := by
  refine always_iff_along (J := Keyed) (fun _ i hkeyed _ _ => hkeyed.step i)
    (fun _ i hkeyed h => h.step_iff hkeyed i) (fun _ _ _ hlookup => nomatch hlookup) fun id b => ?_
  exact ⟨(fun hlookup => nomatch hlookup), fun ⟨_, _, hlookup, _⟩ => nomatch hlookup⟩

/-- A path that expires leaves its ids behind. -/
theorem not_tracks :
    ¬ ∀ (w : PathBuilders) (steps : List OwnStep), Always ownStep Tracks w.fresh steps := by
  intro h
  have hlast := (h oneBuilder [.add 0 ⟨0, Path.overBobs⟩ ⟨.building, 0⟩, .expire 30001]).last
  obtain ⟨key, path, hlookup, -⟩ := (hlast Path.overBobs.RXID 0).mp (by decide +kernel)
  have hgone : (((oneBuilder.fresh.ownStep
      (.add 0 ⟨0, Path.overBobs⟩ ⟨.building, 0⟩)).ownStep (.expire 30001)).pathSet 0).paths.keys =
      [] := by
    decide +kernel
  have hmem := AList.mem_keys.mp (AList.lookup_isSome.mp (by rw [hlookup]; rfl))
  exact List.not_mem_nil (hgone ▸ hmem)

end PathBuilders

end Udap
