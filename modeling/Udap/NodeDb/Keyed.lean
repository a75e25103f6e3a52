import Udap.ContactSignature
import Udap.Dht.Checks
import Udap.Lib.Run
import Udap.NodeDb

/-!
Whether the contacts of the database are under their own keys, over whole runs.

Everything that is stored goes under the key in the contact. The one exception is the lookup that
makes an entry of zeros, which `nodedb_async_load_rc` does after it loaded a file that holds the
contact of another router.

* `Keyed.loadfile`, `Keyed.load`, `Keyed.setRC`: what is read or set keeps the keys;
* `asyncLoad_iff`: an asynchronous load does exactly if the requested key is there afterwards;
* `always_filed_iff`: so all states of a run are in order exactly if all its loads are.
-/

namespace Udap

namespace NodeDb

/-- Every contact is under its own key. -/
def Keyed (db : NodeDb) : Prop := db.entries.Keyed RouterContact.pubkey

section Keyed

variable {lib : HostLib} {u : Uninit} {db : NodeDb}

lemma keyed_init : Keyed {} := AList.keyed_empty _

lemma Keyed.insert (h : db.Keyed) (rc : RouterContact) :
    Keyed { db with entries := db.entries.insert rc.pubkey rc } :=
  (AList.Keyed.insert_iff h).mpr rfl

lemma Keyed.setRC (h : db.Keyed) (rc : RouterContact) (saved : Bool) :
    (db.setRC lib rc saved).1.Keyed := by
  rw [Keyed, entries_setRC]
  exact h.insert rc

lemma Keyed.verifyRC (h : db.Keyed) (rc : RouterContact) (saved : Bool) :
    (db.verifyRC lib rc saved).1.Keyed := by
  rw [NodeDb.verifyRC]
  split_ifs
  · exact h.setRC rc saved
  · exact h

lemma Keyed.loadfile (h : db.Keyed) (f : StoredFile) : (db.loadfile lib u f).1.Keyed := by
  rw [loadfile_eq]
  cases accepted lib u f with
  | none => exact h
  | some rc => exact h.insert rc

lemma Keyed.loadSubdir (h : db.Keyed) (es : List DirEntry) :
    (db.loadSubdir lib u es).1.Keyed := by
  induction es generalizing db with
  | nil => exact h
  | cons e es ih =>
      rw [NodeDb.loadSubdir]
      split_ifs
      · exact ih (h.loadfile e.file)
      · exact ih h

lemma Keyed.load (h : db.Keyed) (dirs : Option (Char → List DirEntry)) :
    (db.load lib u dirs).1.Keyed := by
  cases dirs with
  | none => exact h
  | some dirs =>
      rw [NodeDb.load]
      generalize (0 : ℤ) = loaded
      induction skiplistSubdirs generalizing db loaded with
      | nil => exact h
      | cons ch chs ih => exact ih (h.loadSubdir (dirs ch)) _

/-- A contact that is looked up and made if it is not there has the key exactly if it was there, or
the key is zero. -/
lemma Keyed.getRC_iff (h : db.Keyed) (pk : PubKey) :
    ((db.getRC pk).1.pubkey = pk ↔ pk ∈ db.entries ∨ pk = zeroBlob 32) ∧
      ((db.getRC pk).2.Keyed ↔ pk ∈ db.entries ∨ pk = zeroBlob 32) := by
  have hkey : (db.getRC pk).1.pubkey = pk ↔ pk ∈ db.entries ∨ pk = zeroBlob 32 := by
    rw [getRC, ← AList.lookup_isSome]
    cases hlookup : db.entries.lookup pk with
    | none => exact ⟨fun heq => .inr heq.symm, fun hor => (hor.resolve_left (by simp)).symm⟩
    | some rc => exact iff_of_true (h pk rc hlookup) (.inl rfl)
  exact ⟨hkey, (AList.Keyed.insert_iff h).trans hkey⟩

/-- What is there was asked for by its key. -/
lemma Keyed.getLoaded (h : db.Keyed) {pk : PubKey} {rc : RouterContact}
    (hrc : db.getLoaded pk = some rc) : rc.pubkey = pk := by
  rw [NodeDb.getLoaded] at hrc
  split_ifs at hrc with hhas
  obtain rfl := Option.some.inj hrc
  exact (h.getRC_iff pk).1.mpr (.inl (AList.lookup_isSome.mp hhas))

end Keyed

/-! ### Runs -/

/-- What happens to the database. -/
inductive Event
  | setRC (rc : RouterContact) (saved : Bool)
  | verify (rc : RouterContact) (saved : Bool)
  | loadfile (f : StoredFile)
  | load (dirs : Option (Char → List DirEntry))
  | asyncLoad (pubkey : PubKey) (f : StoredFile)

/-- The database, and the loads that it has reported: what was asked for, and what came. -/
structure Run where
  db : NodeDb := {}
  reports : List (PubKey × RouterContact) := []

namespace Run

variable (lib : HostLib) (u : Uninit)

/-- One event. -/
def step (r : Run) : Event → Run
  | .setRC rc saved => { r with db := (r.db.setRC lib rc saved).1 }
  | .verify rc saved => { r with db := (r.db.verifyRC lib rc saved).1 }
  | .loadfile f => { r with db := (r.db.loadfile lib u f).1 }
  | .load dirs => { r with db := (r.db.load lib u dirs).1 }
  | .asyncLoad pubkey f =>
      let (db, job) := r.db.asyncLoadRC lib u pubkey f
      { db := db, reports := r.reports ++ (job.map fun rc => (pubkey, rc)).toList }

/-- Every contact is under its own key, and every contact that was reported was asked for. -/
structure Filed (r : Run) : Prop where
  keyed : r.db.Keyed
  reports : ∀ report ∈ r.reports, report.2.pubkey = report.1

/-- A file that is accepted for a key has the contact of that key, or the database has that already;
nobody asks for the key of zeros. -/
def Answers (r : Run) : Event → Prop
  | .asyncLoad pubkey f => ∀ rc, accepted lib u f = some rc →
      rc.pubkey = pubkey ∨ pubkey ∈ r.db.entries ∨ pubkey = zeroBlob 32
  | _ => True

variable {lib u} {r : Run}

lemma filed_init : Filed {} := ⟨keyed_init, fun _ h => absurd h List.not_mem_nil⟩

lemma Filed.asyncLoad_iff (h : r.Filed) (pubkey : PubKey) (f : StoredFile) :
    (r.step lib u (.asyncLoad pubkey f)).Filed ↔ r.Answers lib u (.asyncLoad pubkey f) := by
  rw [step, asyncLoadRC, loadfile_eq, Answers]
  cases hfile : accepted lib u f with
  | none =>
      refine iff_of_true ⟨h.keyed, ?_⟩ fun rc hrc => by cases hrc
      simpa using h.reports
  | some rc =>
      have hin := h.keyed.insert rc
      obtain ⟨hkey, hkeyed⟩ := hin.getRC_iff pubkey
      have hmem : (pubkey ∈ r.db.entries.insert rc.pubkey rc ∨ pubkey = zeroBlob 32) ↔
          ∀ rc', some rc = some rc' →
            rc'.pubkey = pubkey ∨ pubkey ∈ r.db.entries ∨ pubkey = zeroBlob 32 := by
        rw [AList.mem_insert, or_assoc, eq_comm]
        exact ⟨fun hor rc' heq => Option.some.inj heq ▸ hor, fun hall => hall rc rfl⟩
      rw [← hmem]
      constructor
      · intro hfiled
        exact hkeyed.mp hfiled.keyed
      · intro hor
        refine ⟨hkeyed.mpr hor, fun report hreport => ?_⟩
        rcases List.mem_append.mp hreport with hold | hnew
        · exact h.reports report hold
        · obtain rfl := List.mem_singleton.mp hnew
          exact hkey.mpr hor

/-- One step keeps the order exactly if it answers what was asked for. -/
lemma Filed.step_iff (h : r.Filed) (e : Event) : (r.step lib u e).Filed ↔ r.Answers lib u e := by
  cases e with
  | setRC rc saved => exact iff_of_true ⟨h.keyed.setRC rc saved, h.reports⟩ trivial
  | verify rc saved => exact iff_of_true ⟨h.keyed.verifyRC rc saved, h.reports⟩ trivial
  | loadfile f => exact iff_of_true ⟨h.keyed.loadfile f, h.reports⟩ trivial
  | load dirs => exact iff_of_true ⟨h.keyed.load dirs, h.reports⟩ trivial
  | asyncLoad pubkey f => exact h.asyncLoad_iff pubkey f

/-- All states of a run have every contact under its own key, and report only what was asked for,
exactly if every file that is accepted for a key leaves an entry for the key. -/
theorem always_filed_iff (es : List Event) :
    Always (step lib u) Filed {} es ↔ Along (step lib u) (Answers lib u) {} es :=
  always_iff_along (J := fun _ => True) (fun _ _ _ _ _ => trivial)
    (fun _ e _ h => h.step_iff e) trivial filed_init

/-- A file with the contact of the router whose key is made of one byte. -/
def fileOf (b : UInt8) : StoredFile where
  contents := some ("d1:k32:".toList.map ascii ++ List.replicate 32 b ++ [ascii 'e'])

/-- The file under the name of one router has the contact of another one. -/
theorem not_always_filed_other_contact :
    ¬ Always (step Dht.Context.trusting RouterContact.zeroMemory) Filed {}
      [.asyncLoad (List.Vector.replicate 32 65) (fileOf 66)] := by
  intro h
  have hanswers := (filed_init.asyncLoad_iff _ _).mp h.2
  have haccepted : accepted Dht.Context.trusting RouterContact.zeroMemory (fileOf 66) =
      some { pubkey := List.Vector.replicate 32 66 } := by decide +kernel
  rcases hanswers _ haccepted with hkey | hmem | hzero
  · exact absurd hkey (by decide)
  · exact absurd hmem (AList.notMem_empty _)
  · exact absurd hzero (by decide)

end Run

end NodeDb

end Udap
