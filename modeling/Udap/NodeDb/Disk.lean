import Udap.ContactSignature
import Udap.Hex
import Udap.NodeDb

/-!
The node database and its files, over restarts.

A contact is written to a file that is named by its key, in a directory that is named by the last
digit of the key. A restart reads all directories.

* `rcFilePath_injective`, `subdir_rcFilePath`: each key has a file of its own, in a directory that a
  restart reads.
* `Stored`: the disk holds what the last writes left, in every state.
* `TornRefused`: a read does not take what a torn write left for a contact. The decoder looks at the
  whole array that a file is read into, so this depends on the memory behind a file that is short.
* `restart_recovers`: after any run a restart whose reads tell the torn files finds exactly the keys
  whose last write went well, each with the contact that was written then.
-/

namespace Udap

open ByteMem

namespace NodeDb

/-! ### Files -/

/-- A path below the directory of the database, by its components. -/
abbrev FilePath := List Bytes

/-- `getRCFilePath`. -/
def rcFilePath (pubkey : PubKey) : FilePath :=
  let hexname := hexEncode pubkey.1
  [hexname.drop (hexname.length - 1), hexname ++ ".signed".toList.map ascii]

/-- The directory that `Load` reads for a character. The byte that ends `skiplist_subdirs` ends the
path early, so for it the directory of the database itself is read. -/
def subdir (ch : Char) : FilePath := if ch = '\x00' then [] else [[ascii ch]]

/-- The regular files. -/
abbrev Disk := AList fun _ : FilePath => Bytes

/-- The files in a directory. -/
def filesIn (disk : Disk) (dir : FilePath) : List Bytes :=
  (disk.entries.filter fun e => e.1 ≠ [] ∧ e.1.dropLast = dir).map Sigma.snd

/-- What `Load` is told of the directories: their files in some order, and whatever else is
there. -/
def Lists (disk : Disk) (dirs : Char → List DirEntry) : Prop :=
  ∀ ch ∈ skiplistSubdirs,
    ((dirs ch).filter DirEntry.regular).map (fun e => e.file.contents) |>.Perm
      ((filesIn disk (subdir ch)).map some)

/-- What `setRC` writes. -/
def writtenBytes (lib : HostLib) (rc : RouterContact) : Bytes :=
  (rc.bencode lib { mem := fun _ => 0, cur := 0, sz := maxRCSize }).1.written

/-- What comes of a write. -/
inductive WriteOutcome
  | saved
  /-- the file was not opened, or it was left with other contents -/
  | failed (left : Option Bytes)

/-- The database and the disk. -/
structure OnDisk where
  db : NodeDb := {}
  disk : Disk := ∅

/-- What happens to the database. -/
inductive DiskEvent
  /-- `setRC` -/
  | setRC (rc : RouterContact) (outcome : WriteOutcome)
  /-- `crypto_threadworker_verifyrc` and `disk_threadworker_setRC` -/
  | verify (rc : RouterContact) (outcome : WriteOutcome)
  /-- `nodedb_async_load_rc`; `stack` is the memory that the file is read into -/
  | asyncLoad (pubkey : PubKey) (stack : ℕ → UInt8)
  /-- the database starts again, with what is found in the directories -/
  | restart (dirs : Char → List DirEntry)

namespace OnDisk

variable (lib : HostLib) (u : Uninit) (d : OnDisk)

/-- `setRC`. -/
def setRC (rc : RouterContact) (outcome : WriteOutcome) : OnDisk :=
  let saved := match outcome with
    | .saved => true
    | .failed _ => false
  { db := (d.db.setRC lib rc saved).1
    disk :=
      if Encodes lib rc then
        match outcome with
        | .saved => d.disk.insert (rcFilePath rc.pubkey) (writtenBytes lib rc)
        | .failed (some left) => d.disk.insert (rcFilePath rc.pubkey) left
        | .failed none => d.disk
      else d.disk }

/-- One event. -/
def step : DiskEvent → OnDisk
  | .setRC rc outcome => d.setRC lib rc outcome
  | .verify rc outcome => if rc.verifySig lib then d.setRC lib rc outcome else d
  | .asyncLoad pubkey stack =>
      { d with db := (d.db.asyncLoadRC lib u pubkey
          { contents := d.disk.lookup (rcFilePath pubkey), stack := stack }).1 }
  | .restart dirs => { d with db := (({} : NodeDb).load lib u (some dirs)).1 }

/-- A run. -/
def run (es : List DiskEvent) : OnDisk := es.foldl (step lib u) d

end OnDisk

/-- What the last write to a file left there. -/
inductive LastWrite
  /-- a contact -/
  | whole (rc : RouterContact)
  /-- other contents, as the write failed -/
  | torn (left : Bytes)

/-- The last writes to the files of the keys. -/
abbrev Written := PubKey → Option LastWrite

namespace Written

variable (lib : HostLib)

/-- `setRC`. -/
def put (m : Written) (rc : RouterContact) (outcome : WriteOutcome) : Written :=
  if Encodes lib rc then
    match outcome with
    | .saved => Function.update m rc.pubkey (some (.whole rc))
    | .failed (some left) => Function.update m rc.pubkey (some (.torn left))
    | .failed none => m
  else m

/-- One event: loads and restarts write nothing. -/
def step (m : Written) : DiskEvent → Written
  | .setRC rc outcome => m.put lib rc outcome
  | .verify rc outcome => if rc.verifySig lib then m.put lib rc outcome else m
  | .asyncLoad _ _ | .restart _ => m

/-- A run. -/
def run (m : Written) (es : List DiskEvent) : Written := es.foldl (step lib) m

/-- The contact that the last write to the file of a key wrote, if its signature is accepted. -/
def contact (m : Written) (pk : PubKey) : Option RouterContact :=
  match m pk with
  | some (.whole rc) => if rc.verifySig lib then some rc else none
  | some (.torn _) => none
  | none => none

lemma of_contact {lib : HostLib} {m : Written} {pk : PubKey} {rc : RouterContact}
    (h : m.contact lib pk = some rc) : m pk = some (.whole rc) := by
  rw [contact] at h
  split at h
  · next hrc =>
      split_ifs at h
      exact Option.some.inj h ▸ hrc
  · cases h
  · cases h

end Written

/-- A contact whose fields the decoder can tell. -/
structure Durable (rc : RouterContact) : Prop where
  wellFormed : rc.WellFormed
  lastUpdated : rc.lastUpdated ≠ -1

/-- The contacts that are written in full are durable. -/
def DiskEvent.WritesDurable : DiskEvent → Prop
  | .setRC rc .saved | .verify rc .saved => Durable rc
  | _ => True

/-- The contact that is found for one that was written. -/
structure Found (lib : HostLib) (rc rc' : RouterContact) : Prop where
  same : rc.Same rc'
  verifySig : rc'.verifySig lib = true

/-- The read does not take what a torn write left for a contact. -/
def TornRefused (lib : HostLib) (u : Uninit) (m : Written) (f : StoredFile) : Prop :=
  ∀ pk left, m pk = some (.torn left) → f.contents = some left → accepted lib u f = none

/-! ### Each key has its file -/

/-- Two keys have two files. -/
lemma rcFilePath_injective : Function.Injective rcFilePath := by
  intro a b h
  have hname := List.head_eq_of_cons_eq (List.tail_eq_of_cons_eq h)
  exact Subtype.ext (hexEncode_injective (List.append_cancel_right hname))

/-- The last digit of a key. -/
lemma hexDigit_mem {n : UInt8} (hn : n < 16) :
    ∃ ch ∈ skiplistSubdirs, ch ≠ '\x00' ∧ ascii ch = hexDigit n := by
  -- a list is searched, where the characters as a whole are too many
  have hany := forall_digit
    (P := fun n => skiplistSubdirs.any (fun ch => ch ≠ '\x00' ∧ ascii ch = hexDigit n) = true)
    (by decide) hn
  obtain ⟨ch, hch, h⟩ := List.any_eq_true.mp hany
  exact ⟨ch, hch, of_decide_eq_true h⟩

/-- The file of a key is in a directory that is read. -/
lemma subdir_rcFilePath (pk : PubKey) :
    ∃ ch ∈ skiplistSubdirs, (rcFilePath pk).dropLast = subdir ch := by
  obtain ⟨key, c, hkey⟩ : ∃ key c, pk.1 = key ++ [c] := by
    rcases List.eq_nil_or_concat pk.1 with hnil | ⟨key, c, hkey⟩
    · have := pk.2
      simp [hnil] at this
    · exact ⟨key, c, by simpa using hkey⟩
  have hhex : hexEncode pk.1 = (hexEncode key ++ [hexDigit (c / 16)]) ++ [hexDigit (c % 16)] := by
    simp [hkey, hexEncode]
  obtain ⟨ch, hch, hne, hdigit⟩ := hexDigit_mem (byte_digits c).2.1
  refine ⟨ch, hch, ?_⟩
  have hdrop : (hexEncode pk.1).drop ((hexEncode pk.1).length - 1) = [hexDigit (c % 16)] := by
    rw [hhex, List.length_append, List.length_singleton, Nat.add_sub_cancel, List.drop_left]
  rw [rcFilePath, hdrop, subdir, if_neg hne, hdigit]
  rfl

/-! ### What is read from a file -/

section Files

variable {lib : HostLib} {u : Uninit} {db : NodeDb} {rc : RouterContact}

/-- A contact that was written is read back, and accepted if its signature is. -/
lemma rcRead_writtenBytes (h : lib.Lawful) (hrc : Durable rc) (henc : Encodes lib rc)
    (stack : ℕ → UInt8) :
    ∃ rc', rcRead lib u { contents := some (writtenBytes lib rc), stack := stack } = some rc' ∧
      rc.Same rc' ∧ rc'.verifySig lib = rc.verifySig lib := by
  obtain ⟨hfits, hwritten⟩ := RouterContact.bencode_stackBuffer h rc (fun _ => 0) maxRCSize
  have hlen : (writtenBytes lib rc).length ≤ maxRCSize := by
    have heq : writtenBytes lib rc = rc.encoding lib := hwritten henc
    exact heq ▸ hfits.mp henc
  set b' : Buffer :=
    { mem := fun i => (writtenBytes lib rc).getD i (stack i), cur := 0, sz := maxRCSize } with hb'
  have hholds : b'.Holds (writtenBytes lib rc) := by
    refine ⟨by simpa [hb'] using hlen, List.ext_getElem (Buffer.bytes_length ..) ?_⟩
    intro i hi hi'
    simp [hb', Buffer.bytes, List.getElem?_eq_getElem hi']
  obtain ⟨rc', hread, hsame⟩ := RouterContact.bdecode_bencode h u hrc.wellFormed hrc.lastUpdated
    rfl henc hholds
  refine ⟨rc', ?_, hsame, ?_⟩
  · rw [rcRead]
    dsimp only
    rw [if_neg (by omega), ← hb', hread]
  · rw [RouterContact.verifySig_eq, RouterContact.verifySig_eq, hsame.verifySigInPlace h _ _]

/-- The contact of a written file, if its signature is accepted. -/
lemma accepted_writtenBytes (h : lib.Lawful) (hrc : Durable rc) (henc : Encodes lib rc)
    (stack : ℕ → UInt8) :
    Option.Rel (Found lib) (if rc.verifySig lib then some rc else none)
      (accepted lib u { contents := some (writtenBytes lib rc), stack := stack }) := by
  obtain ⟨rc', hread, hsame, hsig⟩ := rcRead_writtenBytes (u := u) h hrc henc stack
  rw [accepted, hread, Option.filter_some, hsig]
  cases hverify : rc.verifySig lib with
  | true => exact .some ⟨hsame, hsig.trans hverify⟩
  | false => exact .none

/-! ### What a load finds -/

/-- The files that `Load` reads. -/
def loadedFiles (dirs : Char → List DirEntry) : List StoredFile :=
  skiplistSubdirs.flatMap fun ch => ((dirs ch).filter DirEntry.regular).map DirEntry.file

lemma loadSubdir_eq (es : List DirEntry) : (db.loadSubdir lib u es).1 =
    ((es.filter DirEntry.regular).map DirEntry.file).foldl (fun db f => (db.loadfile lib u f).1)
      db := by
  induction es generalizing db with
  | nil => rfl
  | cons e es ih =>
      rw [loadSubdir]
      cases hreg : e.regular <;> simp [hreg, ih]

/-- `Load` reads one file after the other. -/
lemma load_eq (dirs : Char → List DirEntry) : (db.load lib u (some dirs)).1 =
    (loadedFiles dirs).foldl (fun db f => (db.loadfile lib u f).1) db := by
  rw [load, loadedFiles]
  generalize (0 : ℤ) = loaded
  induction skiplistSubdirs generalizing db loaded with
  | nil => rfl
  | cons ch chs ih =>
      rw [List.foldl_cons, List.flatMap_cons, List.foldl_append, ← loadSubdir_eq]
      exact ih _

/-- What `loadfile` leaves under a key. -/
lemma lookup_loadfile (f : StoredFile) (pk : PubKey) :
    (db.loadfile lib u f).1.entries.lookup pk =
      match accepted lib u f with
      | some rc => if rc.pubkey = pk then some rc else db.entries.lookup pk
      | none => db.entries.lookup pk := by
  rw [loadfile_eq]
  cases accepted lib u f with
  | none => rfl
  | some rc =>
      by_cases hpk : rc.pubkey = pk
      · simp [hpk]
      · simp [hpk, AList.lookup_insert_ne (Ne.symm hpk)]

section Fold

variable {pk : PubKey} (fs : List StoredFile)

/-- What is found under a key was there, or a file was accepted as it. -/
lemma of_lookup_foldl {db : NodeDb} {rc : RouterContact}
    (h : (fs.foldl (fun db f => (db.loadfile lib u f).1) db).entries.lookup pk = some rc) :
    db.entries.lookup pk = some rc ∨ rc.pubkey = pk ∧ ∃ f ∈ fs, accepted lib u f = some rc := by
  induction fs generalizing db with
  | nil => exact .inl h
  | cons f fs ih =>
      rcases ih h with hold | ⟨hpk, g, hg, hacc⟩
      · rw [lookup_loadfile] at hold
        cases hacc : accepted lib u f with
        | none => exact .inl (by simpa [hacc] using hold)
        | some rc' =>
            simp only [hacc] at hold
            split_ifs at hold with hpk
            · obtain rfl := Option.some.inj hold
              exact .inr ⟨hpk, f, List.mem_cons_self, hacc⟩
            · exact .inl hold
      · exact .inr ⟨hpk, g, List.mem_cons_of_mem f hg, hacc⟩

/-- A load takes nothing out of the database, and puts in what it accepts. -/
lemma isSome_lookup_foldl {db : NodeDb}
    (h : (db.entries.lookup pk).isSome = true ∨
      ∃ f ∈ fs, ∃ rc, accepted lib u f = some rc ∧ rc.pubkey = pk) :
    ((fs.foldl (fun db f => (db.loadfile lib u f).1) db).entries.lookup pk).isSome = true := by
  induction fs generalizing db with
  | nil => simpa using h
  | cons f fs ih =>
      refine ih ?_
      rw [lookup_loadfile]
      rcases h with hold | ⟨g, hg, rc, hacc, hpk⟩
      · left
        cases accepted lib u f with
        | none => exact hold
        | some rc =>
            dsimp only
            split_ifs
            · rfl
            · exact hold
      · rcases List.mem_cons.mp hg with rfl | hg
        · left
          simp [hacc, hpk]
        · exact .inr ⟨g, hg, rc, hacc, hpk⟩

end Fold

/-- The files that are read are those of the disk. -/
lemma mem_loadedFiles {disk : Disk} {dirs : Char → List DirEntry} (hdirs : Lists disk dirs)
    {o : Option Bytes} : (∃ f ∈ loadedFiles dirs, f.contents = o) ↔
      ∃ ch ∈ skiplistSubdirs, ∃ path data, disk.lookup path = some data ∧ path ≠ [] ∧
        path.dropLast = subdir ch ∧ o = some data := by
  have hdir : ∀ ch ∈ skiplistSubdirs,
      (∃ e ∈ dirs ch, e.regular = true ∧ e.file.contents = o) ↔
        ∃ path data, disk.lookup path = some data ∧ path ≠ [] ∧ path.dropLast = subdir ch ∧
          o = some data := by
    intro ch hch
    have hperm := (hdirs ch hch).mem_iff (a := o)
    simp only [List.mem_map, List.mem_filter, filesIn] at hperm
    constructor
    · rintro ⟨e, he, hreg, ho⟩
      obtain ⟨data, ⟨⟨path, data'⟩, ⟨hmem, hpath⟩, rfl⟩, rfl⟩ := hperm.mp ⟨e, ⟨he, hreg⟩, ho⟩
      obtain ⟨hne, hdrop⟩ := of_decide_eq_true hpath
      exact ⟨path, data', AList.mem_lookup_iff.mpr hmem, hne, hdrop, rfl⟩
    · rintro ⟨path, data, hlookup, hne, hdrop, rfl⟩
      obtain ⟨e, ⟨he, hreg⟩, ho⟩ := hperm.mpr ⟨data, ⟨⟨path, data⟩,
        ⟨AList.mem_lookup_iff.mp hlookup, decide_eq_true ⟨hne, hdrop⟩⟩, rfl⟩, rfl⟩
      exact ⟨e, he, hreg, ho⟩
  constructor
  · rintro ⟨f, hf, ho⟩
    obtain ⟨ch, hch, hf⟩ := List.mem_flatMap.mp hf
    obtain ⟨e, he, rfl⟩ := List.mem_map.mp hf
    rw [List.mem_filter] at he
    exact ⟨ch, hch, (hdir ch hch).mp ⟨e, he.1, he.2, ho⟩⟩
  · rintro ⟨ch, hch, hfile⟩
    obtain ⟨e, he, hreg, ho⟩ := (hdir ch hch).mpr hfile
    exact ⟨e.file, List.mem_flatMap.mpr ⟨ch, hch, List.mem_map_of_mem
      (List.mem_filter.mpr ⟨he, hreg⟩)⟩, ho⟩

end Files

/-! ### What the disk holds -/

/-- The contents of a file after a write. -/
def LastWrite.bytes (lib : HostLib) : LastWrite → Bytes
  | .whole rc => writtenBytes lib rc
  | .torn left => left

/-- The disk holds what the last writes left, and nothing else. -/
structure Stored (lib : HostLib) (m : Written) (disk : Disk) : Prop where
  file : ∀ pk, disk.lookup (rcFilePath pk) = (m pk).map (LastWrite.bytes lib)
  /-- all files belong to keys -/
  named : ∀ path data, disk.lookup path = some data → ∃ pk, path = rcFilePath pk
  whole : ∀ pk rc, m pk = some (.whole rc) → rc.pubkey = pk ∧ Durable rc ∧ Encodes lib rc

namespace Stored

variable {lib : HostLib} {u : Uninit} {m : Written} {disk : Disk} {rc : RouterContact}

lemma init : Stored lib (fun _ => none) ∅ where
  file _ := rfl
  named _ _ h := nomatch h
  whole _ _ hm := nomatch hm

/-- A file is written over. -/
lemma insert (hst : Stored lib m disk) (pk : PubKey) (last : LastWrite)
    (hlast : ∀ rc, last = .whole rc → rc.pubkey = pk ∧ Durable rc ∧ Encodes lib rc) :
    Stored lib (Function.update m pk (some last))
      (disk.insert (rcFilePath pk) (last.bytes lib)) := by
  constructor
  · intro pk'
    by_cases hpk : pk' = pk
    · rw [hpk, AList.lookup_insert, Function.update_self, Option.map_some]
    · rw [AList.lookup_insert_ne fun heq => hpk (rcFilePath_injective heq),
        Function.update_of_ne hpk, hst.file]
  · intro path data h
    by_cases hpath : path = rcFilePath pk
    · exact ⟨pk, hpath⟩
    · rw [AList.lookup_insert_ne hpath] at h
      exact hst.named path data h
  · intro pk' rc hm
    by_cases hpk : pk' = pk
    · subst hpk
      rw [Function.update_self] at hm
      exact hlast rc (Option.some.inj hm)
    · rw [Function.update_of_ne hpk] at hm
      exact hst.whole pk' rc hm

/-- `setRC` writes the file of the contact. -/
lemma setRC {d : OnDisk} (hst : Stored lib m d.disk) {outcome : WriteOutcome}
    (hrc : outcome = .saved → Durable rc) :
    Stored lib (m.put lib rc outcome) (d.setRC lib rc outcome).disk := by
  by_cases henc : Encodes lib rc
  · simp only [Written.put, OnDisk.setRC, henc, if_true]
    match outcome, hrc with
    | .failed none, _ => exact hst
    | .failed (some left), _ => exact hst.insert _ (.torn left) fun _ h => nomatch h
    | .saved, hrc =>
        refine hst.insert _ (.whole rc) fun rc' hrc' => ?_
        obtain rfl := LastWrite.whole.inj hrc'
        exact ⟨rfl, hrc rfl, henc⟩
  · simpa [Written.put, OnDisk.setRC, henc] using hst

/-- One event keeps what was written on the disk. -/
lemma step {d : OnDisk} (hst : Stored lib m d.disk) (e : DiskEvent) (he : e.WritesDurable) :
    Stored lib (m.step lib e) (d.step lib u e).disk := by
  cases e with
  | setRC rc outcome => exact hst.setRC fun hsaved => by subst hsaved; exact he
  | verify rc outcome =>
      rw [Written.step, OnDisk.step]
      split_ifs with hsig
      · exact hst.setRC fun hsaved => by subst hsaved; exact he
      · exact hst
  | asyncLoad pubkey stack => exact hst
  | restart dirs => exact hst

/-- A run does. -/
lemma run {d : OnDisk} (hst : Stored lib m d.disk) (es : List DiskEvent)
    (hes : ∀ e ∈ es, e.WritesDurable) : Stored lib (m.run lib es) (d.run lib u es).disk := by
  induction es generalizing m d with
  | nil => exact hst
  | cons e es ih =>
      exact ih (hst.step e (hes e List.mem_cons_self)) fun e' he' =>
        hes e' (List.mem_cons_of_mem e he')

/-- A read of the file of a key has the contact that was written for it. -/
lemma accepted_file (h : lib.Lawful) (hst : Stored lib m disk) {pk : PubKey} {f : StoredFile}
    (hf : f.contents = disk.lookup (rcFilePath pk)) (hread : TornRefused lib u m f) :
    Option.Rel (Found lib) (m.contact lib pk) (accepted lib u f) := by
  obtain ⟨contents, stack⟩ := f
  have hcontents : contents = (m pk).map (LastWrite.bytes lib) := hf.trans (hst.file pk)
  rw [Written.contact]
  match hm : m pk with
  | none =>
      rw [hcontents, hm]
      exact .none
  | some (.torn left) =>
      rw [hread pk left hm (by rw [hcontents, hm]; rfl)]
      exact .none
  | some (.whole rc) =>
      obtain ⟨-, hdur, henc⟩ := hst.whole pk rc hm
      rw [hcontents, hm]
      exact accepted_writtenBytes h hdur henc stack

lemma contact_key (hst : Stored lib m disk) {pk : PubKey} (hm : m.contact lib pk = some rc) :
    rc.pubkey = pk := (hst.whole pk rc (Written.of_contact hm)).1

/-- A contact that a read accepts was written for its key. -/
lemma accepted_key (h : lib.Lawful) (hst : Stored lib m disk) {dirs : Char → List DirEntry}
    (hdirs : Lists disk dirs) {f : StoredFile} (hf : f ∈ loadedFiles dirs)
    (hread : TornRefused lib u m f) {rc' : RouterContact} (hacc : accepted lib u f = some rc') :
    ∃ rc, m.contact lib rc'.pubkey = some rc ∧ Found lib rc rc' := by
  obtain ⟨-, -, path, data, hlookup, -, -, hdata⟩ := (mem_loadedFiles hdirs).mp ⟨f, hf, rfl⟩
  obtain ⟨pk, rfl⟩ := hst.named path data hlookup
  have hrel := hst.accepted_file h (hdata.trans hlookup.symm) hread
  rw [hacc] at hrel
  generalize hm : m.contact lib pk = o at hrel
  cases hrel with
  | some hfound =>
      have hkey := hfound.same.pubkey.trans (hst.contact_key hm)
      exact ⟨_, hkey ▸ hm, hfound⟩

variable {dirs : Char → List DirEntry} {pk : PubKey}

/-- What a restart finds was written, or it was made of a torn file. -/
lemma of_lookup_load (h : lib.Lawful) (hst : Stored lib m disk) (hdirs : Lists disk dirs)
    {rc' : RouterContact}
    (hrc' : (({} : NodeDb).load lib u (some dirs)).1.entries.lookup pk = some rc') :
    (∃ rc, m.contact lib pk = some rc ∧ Found lib rc rc') ∨
      ∃ f ∈ loadedFiles dirs, ¬ TornRefused lib u m f ∧ accepted lib u f = some rc' := by
  rw [load_eq] at hrc'
  rcases of_lookup_foldl _ hrc' with hold | ⟨rfl, f, hf, hacc⟩
  · cases hold
  · by_cases hread : TornRefused lib u m f
    · exact .inl (hst.accepted_key h hdirs hf hread hacc)
    · exact .inr ⟨f, hf, hread, hacc⟩

/-- The file of a contact that was written is read, and the contact is accepted. -/
lemma isSome_lookup_load (h : lib.Lawful) (hst : Stored lib m disk) (hdirs : Lists disk dirs)
    (hreads : ∀ f ∈ loadedFiles dirs, TornRefused lib u m f) (hm : m.contact lib pk = some rc) :
    ((({} : NodeDb).load lib u (some dirs)).1.entries.lookup pk).isSome = true := by
  obtain ⟨ch, hch, hdir⟩ := subdir_rcFilePath pk
  have hlookup := hst.file pk
  rw [Written.of_contact hm, Option.map_some] at hlookup
  obtain ⟨f, hf, hcontents⟩ := (mem_loadedFiles hdirs).mpr
    ⟨ch, hch, rcFilePath pk, _, hlookup, List.cons_ne_nil _ _, hdir, rfl⟩
  have hrel := hst.accepted_file h (hcontents.trans hlookup.symm) (hreads f hf)
  rw [hm] at hrel
  generalize hacc : accepted lib u f = o at hrel
  cases hrel with
  | some hfound =>
      rw [load_eq]
      exact isSome_lookup_foldl _
        (.inr ⟨f, hf, _, hacc, hfound.same.pubkey.trans (hst.contact_key hm)⟩)

lemma rel_lookup_load (h : lib.Lawful) (hst : Stored lib m disk) (hdirs : Lists disk dirs)
    (hreads : ∀ f ∈ loadedFiles dirs, TornRefused lib u m f) :
    Option.Rel (Found lib) (m.contact lib pk)
      ((({} : NodeDb).load lib u (some dirs)).1.entries.lookup pk) := by
  cases hlookup : (({} : NodeDb).load lib u (some dirs)).1.entries.lookup pk with
  | some rc' =>
      rcases hst.of_lookup_load h hdirs hlookup with ⟨rc, hrc, hfound⟩ | ⟨f, hf, hread, -⟩
      · rw [hrc]
        exact .some hfound
      · exact absurd (hreads f hf) hread
  | none =>
      cases hm : m.contact lib pk with
      | none => exact .none
      | some rc =>
          have hsome := hst.isSome_lookup_load h hdirs hreads hm
          rw [hlookup] at hsome
          cases hsome

lemma rel_asyncLoadRC (h : lib.Lawful) (hst : Stored lib m disk) (db : NodeDb) {f : StoredFile}
    (hf : f.contents = disk.lookup (rcFilePath pk)) (hread : TornRefused lib u m f) :
    Option.Rel (Found lib) (m.contact lib pk) (db.asyncLoadRC lib u pk f).2 := by
  have hrel := hst.accepted_file h hf hread
  rw [asyncLoadRC, loadfile_eq]
  generalize accepted lib u f = o at hrel
  generalize hm : m.contact lib pk = o' at hrel
  cases hrel with
  | none => exact .none
  | some hfound =>
      have hkey := hfound.same.pubkey.trans (hst.contact_key hm)
      rw [← hkey]
      simpa [getRC] using Option.Rel.some hfound

end Stored

/-- After any run that writes only durable contacts in full, what a restart finds under a key is the
contact that the last write to its file wrote, or what one of its reads has made of a torn file. If
no read takes a torn file for a contact, it finds exactly the contacts that were written last and
whose signatures are accepted; and the job that loads one key finds the same, if its read does not
either. -/
theorem restart_recovers (lib : HostLib) (u : Uninit) (h : lib.Lawful) (es : List DiskEvent)
    (hes : ∀ e ∈ es, e.WritesDurable) (dirs : Char → List DirEntry)
    (hdirs : Lists (({} : OnDisk).run lib u es).disk dirs) (pk : PubKey) :
    let d := ({} : OnDisk).run lib u es
    let written := Written.run lib (fun _ => none) es
    let restarted := d.step lib u (.restart dirs)
    (∀ rc', restarted.db.entries.lookup pk = some rc' →
      (∃ rc, written.contact lib pk = some rc ∧ Found lib rc rc') ∨
        ∃ f ∈ loadedFiles dirs, ¬ TornRefused lib u written f ∧ accepted lib u f = some rc') ∧
    ((∀ f ∈ loadedFiles dirs, TornRefused lib u written f) →
      Option.Rel (Found lib) (written.contact lib pk) (restarted.db.entries.lookup pk)) ∧
    ∀ (db : NodeDb) (f : StoredFile), f.contents = d.disk.lookup (rcFilePath pk) →
      TornRefused lib u written f →
        Option.Rel (Found lib) (written.contact lib pk) (db.asyncLoadRC lib u pk f).2 := by
  intro d written restarted
  have hst : Stored lib written d.disk := Stored.init.run es hes
  exact ⟨fun rc' => hst.of_lookup_load h hdirs, hst.rel_lookup_load h hdirs, fun db f =>
    hst.rel_asyncLoadRC h db⟩

/-- The files in the order of the disk. -/
def listing (disk : Disk) (ch : Char) : List DirEntry :=
  (filesIn disk (subdir ch)).map fun data => { regular := true, file := { contents := some data } }

lemma lists_listing (disk : Disk) : Lists disk (listing disk) := by
  intro ch _
  simp [listing, List.filter_map, Function.comp_def]

/-- The disk has the files with zeros behind them. -/
lemma stack_of_mem_listing {disk : Disk} {f : StoredFile} (hf : f ∈ loadedFiles (listing disk)) :
    f.stack = fun _ => 0 := by
  obtain ⟨ch, -, hf⟩ := List.mem_flatMap.mp hf
  obtain ⟨e, he, rfl⟩ := List.mem_map.mp hf
  obtain ⟨data, -, rfl⟩ := List.mem_map.mp (List.mem_filter.mp he).1
  rfl

/-- A contact that the host of letters accepts. -/
def signedReachable (pubkey : PubKey) : RouterContact :=
  (RouterContact.reachable.setPubsigkey pubkey).sign RouterContact.plainHost RouterContact.headSign
    (fun _ => 0) (zeroBlob 64)

/-- A contact of another router. -/
def signedOther : RouterContact := signedReachable (List.Vector.replicate 32 1)

/-- The first half of its file. -/
def half : Bytes := (writtenBytes RouterContact.plainHost signedOther).take 200

/-- One contact is written, and of the other one only a half. -/
def halfWritten : List DiskEvent :=
  [.setRC (signedReachable (zeroBlob 32)) .saved, .setRC signedOther (.failed (some half))]

/-- The last writes. -/
def halfLast : Written :=
  Function.update (Function.update (fun _ => none) (zeroBlob 32)
    (some (.whole (signedReachable (zeroBlob 32))))) (List.Vector.replicate 32 1)
    (some (.torn half))

lemma run_halfWritten :
    Written.run RouterContact.plainHost (fun _ => none) halfWritten = halfLast := by
  have henc : Encodes RouterContact.plainHost (signedReachable (zeroBlob 32)) := by decide +kernel
  have hother : Encodes RouterContact.plainHost signedOther := by decide +kernel
  have hkey : (signedReachable (zeroBlob 32)).pubkey = zeroBlob 32 := by decide +kernel
  have hotherKey : signedOther.pubkey = List.Vector.replicate 32 1 := by decide +kernel
  simp [Written.run, halfWritten, Written.step, Written.put, henc, hother, hkey, hotherKey,
    halfLast]

/-- Behind the half there are zeros, and no contact goes on with these. -/
lemma tornRefused_half {f : StoredFile} (hstack : f.stack = fun _ => 0) :
    TornRefused RouterContact.plainHost RouterContact.zeroMemory halfLast f := by
  intro pk left hleft hcontents
  obtain ⟨contents, stack⟩ := f
  obtain rfl : stack = fun _ => 0 := hstack
  obtain rfl : contents = some left := hcontents
  have hnone : (accepted RouterContact.plainHost RouterContact.zeroMemory
      { contents := some half }).isNone = true := by decide +kernel
  rw [halfLast, Function.update_apply, Function.update_apply] at hleft
  split_ifs at hleft
  · obtain rfl := LastWrite.torn.inj (Option.some.inj hleft)
    exact Option.isNone_iff_eq_none.mp hnone
  · cases hleft

theorem restart_recovers_halfWritten :
    let d := ({} : OnDisk).run RouterContact.plainHost RouterContact.zeroMemory halfWritten
    let restarted := d.step RouterContact.plainHost RouterContact.zeroMemory
      (.restart (listing d.disk))
    (∃ rc, restarted.db.entries.lookup (zeroBlob 32) = some rc ∧
      Found RouterContact.plainHost (signedReachable (zeroBlob 32)) rc) ∧
    restarted.db.entries.lookup (List.Vector.replicate 32 1) = none := by
  intro d restarted
  have hdurable : ∀ e ∈ halfWritten, e.WritesDurable := by
    intro e he
    rcases List.mem_cons.mp he with rfl | he
    · have haddrs : (signedReachable (zeroBlob 32)).addrs = RouterContact.reachable.addrs := by
        decide +kernel
      refine ⟨fun l hl => RouterContact.reachable_wellFormed l (haddrs.symm.trans hl), ?_⟩
      decide +kernel
    · obtain rfl := List.mem_singleton.mp he
      trivial
  have hrecovers (pk : PubKey) : Option.Rel (Found RouterContact.plainHost)
      (halfLast.contact RouterContact.plainHost pk) (restarted.db.entries.lookup pk) := by
    have hpk := (restart_recovers RouterContact.plainHost RouterContact.zeroMemory
      RouterContact.plainHost_lawful halfWritten hdurable (listing d.disk)
      (lists_listing d.disk) pk).2.1
    rw [run_halfWritten] at hpk
    exact hpk fun f hf => tornRefused_half (stack_of_mem_listing hf)
  constructor
  · have hrel := hrecovers (zeroBlob 32)
    have hcontact : halfLast.contact RouterContact.plainHost (zeroBlob 32) =
        some (signedReachable (zeroBlob 32)) := by
      have hne : (zeroBlob 32 : PubKey) ≠ List.Vector.replicate 32 1 := by decide +kernel
      have hsig : (signedReachable (zeroBlob 32)).verifySig RouterContact.plainHost = true := by
        decide +kernel
      rw [Written.contact, halfLast, Function.update_of_ne hne, Function.update_self]
      exact if_pos hsig
    rw [hcontact] at hrel
    generalize restarted.db.entries.lookup (zeroBlob 32) = o at hrel ⊢
    cases hrel with
    | some hfound => exact ⟨_, rfl, hfound⟩
  · have hrel := hrecovers (List.Vector.replicate 32 1)
    rw [Written.contact, halfLast, Function.update_self] at hrel
    generalize restarted.db.entries.lookup (List.Vector.replicate 32 1) = o at hrel ⊢
    cases hrel
    rfl

end NodeDb

end Udap
