import Udap.Lib.Keyed
import Udap.Router

/-!
`udap_nodedb`: the contacts in memory, and the functions that fill it from the disk and the network.

The contents of files are arguments, since others may write them; so is what a write to the disk
comes to. The order of the hash map is not known: a function that walks through it gets one.
-/

namespace Udap

open ByteMem

/-- What a read of a file finds: the contents, if there is a file that opens, and the memory of the
stack that they are read into. -/
structure StoredFile where
  contents : Option Bytes
  stack : ℕ → UInt8 := fun _ => 0

/-- An entry of a directory. -/
structure DirEntry where
  regular : Bool
  file : StoredFile

/-- `udap_rc_read`. -/
def rcRead (lib : HostLib) (u : Uninit) (f : StoredFile) : Option RouterContact :=
  match f.contents with
  | none => none
  | some data =>
      if data.length > maxRCSize then none
      else
        -- the size of the buffer stays that of the array
        let buf : Buffer := { mem := fun i => data.getD i (f.stack i), cur := 0, sz := maxRCSize }
        match RouterContact.bdecode lib u {} buf with
        | (rc, some _) => some rc
        | (_, none) => none

/-- `skiplist_subdirs`, with the byte that ends it, which the loop over the array meets too. -/
def skiplistSubdirs : List Char := "0123456789abcdef\x00".toList

/-- `udap_nodedb`. -/
structure NodeDb where
  entries : AList (fun _ : PubKey => RouterContact) := ∅

namespace NodeDb

/-! ### The functions -/

section Functions

variable (lib : HostLib) (u : Uninit) (db : NodeDb)

/-- `Has`. -/
def has (pk : PubKey) : Bool := (db.entries.lookup pk).isSome

/-- `getRC`: what is not there is made, as zeros. -/
def getRC (pk : PubKey) : RouterContact × NodeDb :=
  let rc := (db.entries.lookup pk).getD {}
  (rc, { db with entries := db.entries.insert pk rc })

/-- `udap_nodedb_get_rc`. -/
def getLoaded (pk : PubKey) : Option RouterContact :=
  if db.has pk then some (db.getRC pk).1 else none

/-- The contact has room in the buffer of `setRC`. -/
def Encodes (rc : RouterContact) : Prop :=
  (rc.bencode lib { mem := fun _ => 0, cur := 0, sz := maxRCSize }).2 = true

instance (rc : RouterContact) : Decidable (Encodes lib rc) := inferInstanceAs (Decidable (_ = true))

/-- `setRC`; `saved` says whether the file is written. -/
def setRC (rc : RouterContact) (saved : Bool) : NodeDb × Bool :=
  let db := { db with entries := db.entries.insert rc.pubkey rc }
  if Encodes lib rc then
    if saved then (db, true) else (db, false)
  else (db, false)

/-- `loadfile`. -/
def loadfile (f : StoredFile) : NodeDb × Bool :=
  match rcRead lib u f with
  | none => (db, false)
  | some rc =>
      if rc.verifySig lib then ({ db with entries := db.entries.insert rc.pubkey rc }, true)
      else (db, false)

/-- `loadSubdir`, with the entries of the directory. -/
def loadSubdir (db : NodeDb) : List DirEntry → NodeDb × ℕ
  | [] => (db, 0)
  | e :: es =>
      let (db, loaded) := if e.regular then db.loadfile lib u e.file else (db, false)
      let (db, sz) := loadSubdir db es
      (db, loaded.toNat + sz)

/-- `Load`, with the directories below the path, if it exists. -/
def load : Option (Char → List DirEntry) → NodeDb × ℤ
  | none => (db, -1)
  | some dirs =>
      skiplistSubdirs.foldl (fun (db, loaded) ch =>
        let (db, l) := db.loadSubdir lib u (dirs ch)
        (db, loaded + l)) (db, 0)

/-- `nodedb_async_load_rc`, with the file under the name of the key: the contact of the job, if it
is reported loaded. -/
def asyncLoadRC (pubkey : PubKey) (f : StoredFile) : NodeDb × Option RouterContact :=
  match db.loadfile lib u f with
  | (db, false) => (db, none)
  | (db, true) => ((db.getRC pubkey).2, some (db.getRC pubkey).1)

/-- `crypto_threadworker_verifyrc` and `disk_threadworker_setRC`: whether the job is valid. -/
def verifyRC (rc : RouterContact) (saved : Bool) : NodeDb × Bool :=
  if rc.verifySig lib then db.setRC lib rc saved else (db, false)

/-- `udap_nodedb_select_random_hop`, with the entries in their order and the random numbers it
draws; an entry with the key of `prev` is drawn again. -/
def selectRandomHop (order : List RouterContact) (prev : Option RouterContact) :
    List ℕ → Option RouterContact
  | [] => none
  | r :: rands =>
      match order[if order.length > 1 then r % order.length else 0]? with
      | none => none
      | some rc =>
          if prev.any fun p => p.pubkey = rc.pubkey then selectRandomHop order prev rands
          else some rc

end Functions

/-- The contacts, in some order. -/
def values (db : NodeDb) : List RouterContact := db.entries.entries.map Sigma.snd

/-- A contact may be drawn for a hop. -/
def Selectable (db : NodeDb) (rc : RouterContact) : Prop :=
  ∃ (order : List RouterContact) (prev : Option RouterContact) (rands : List ℕ),
    order.Perm db.values ∧ selectRandomHop order prev rands = some rc

/-! ### What they do -/

section Lemmas

variable {lib : HostLib} {u : Uninit} {db : NodeDb} {rc : RouterContact}

lemma mem_values : rc ∈ db.values ↔ ∃ pk, db.entries.lookup pk = some rc := by
  rw [values, List.mem_map]
  constructor
  · rintro ⟨⟨pk, rc'⟩, hmem, rfl⟩
    exact ⟨pk, AList.mem_lookup_iff.mpr hmem⟩
  · rintro ⟨pk, hlookup⟩
    exact ⟨⟨pk, rc⟩, AList.mem_lookup_iff.mp hlookup, rfl⟩

lemma mem_of_selectRandomHop {order : List RouterContact} {prev : Option RouterContact}
    {rands : List ℕ} (h : selectRandomHop order prev rands = some rc) : rc ∈ order := by
  induction rands with
  | nil => cases h
  | cons r rands ih =>
      rw [selectRandomHop] at h
      split at h
      · cases h
      · next rc' hget =>
          split_ifs at h
          · exact ih h
          · exact Option.some.inj h ▸ List.mem_of_getElem? hget

/-- Exactly the contacts of the database may be drawn. -/
lemma selectable_iff : db.Selectable rc ↔ ∃ pk, db.entries.lookup pk = some rc := by
  rw [← mem_values]
  constructor
  · rintro ⟨order, prev, rands, hperm, hdraw⟩
    exact hperm.mem_iff.mp (mem_of_selectRandomHop hdraw)
  · intro hmem
    obtain ⟨i, hi, hget⟩ := List.getElem_of_mem hmem
    refine ⟨db.values, none, [i], List.Perm.refl _, ?_⟩
    have hidx : (if db.values.length > 1 then i % db.values.length else 0) = i := by
      split_ifs with hlen
      · exact Nat.mod_eq_of_lt hi
      · omega
    rw [selectRandomHop, hidx, List.getElem?_eq_getElem hi, hget]
    rfl

lemma entries_setRC (saved : Bool) :
    (db.setRC lib rc saved).1.entries = db.entries.insert rc.pubkey rc := by
  rw [setRC]
  split_ifs <;> rfl

lemma setRC_eq_true {saved : Bool} :
    (db.setRC lib rc saved).2 = true ↔ Encodes lib rc ∧ saved = true := by
  rw [setRC]
  split_ifs with henc hsaved
  · exact iff_of_true rfl ⟨henc, hsaved⟩
  · exact iff_of_false id fun h => hsaved h.2
  · exact iff_of_false id fun h => henc h.1

/-- What `loadfile` does: it takes the contact of a file whose signature is accepted. -/
def accepted (lib : HostLib) (u : Uninit) (f : StoredFile) : Option RouterContact :=
  (rcRead lib u f).filter fun rc => rc.verifySig lib

lemma loadfile_eq (f : StoredFile) : db.loadfile lib u f =
    match accepted lib u f with
    | none => (db, false)
    | some rc => ({ db with entries := db.entries.insert rc.pubkey rc }, true) := by
  rw [loadfile, accepted]
  cases rcRead lib u f with
  | none => rfl
  | some rc =>
      rw [Option.filter_some]
      by_cases hsig : rc.verifySig lib = true <;> simp [hsig]

end Lemmas

/-! ### The database of the router model -/

section Router

variable {M : Type} {lib : HostLib} {u : Uninit} {r : Router M}

/-- The database that is part of a router. -/
def ofRouter (r : Router M) : NodeDb := ⟨r.nodedb⟩

lemma ofRouter_setRC (rc : RouterContact) (saved : Bool) :
    ofRouter (r.setRC rc) = ((ofRouter r).setRC lib rc saved).1 := by
  have hentries : ((ofRouter r).setRC lib rc saved).1.entries =
      (ofRouter r).entries.insert rc.pubkey rc := entries_setRC saved
  exact congrArg NodeDb.mk hentries.symm

lemma ofRouter_getRC (pk : PubKey) :
    (r.getRC pk).1 = ((ofRouter r).getRC pk).1 ∧
      ofRouter (r.getRC pk).2 = ((ofRouter r).getRC pk).2 := ⟨rfl, rfl⟩

/-- `HandleAsyncLoadRCForSendTo` gets what `nodedb_async_load_rc` reports. -/
lemma handleAsyncLoadRC_eq (pk : PubKey) (f : StoredFile) :
    r.handleAsyncLoadRC pk (accepted lib u f) =
      match (ofRouter r).asyncLoadRC lib u pk f with
      | (_, none) => some (r.await (.lookup pk))
      | (db, some rc) => (({ r with nodedb := db.entries } : Router M).tryConnect rc 10).map
          Prod.fst := by
  rw [asyncLoadRC, loadfile_eq]
  cases accepted lib u f <;> rfl

end Router

end NodeDb

end Udap
