import Udap.Crypto
import Udap.NodeDb.Disk
import Udap.Router.Ledger

/-!
Starts of a router on one disk: its keys, its own contact, and the routers that read the contact.

A start reads three secret keys from files, and makes those that are not there. With them it makes a
contact, signs it, and writes it to a file, which may be given to other routers to connect to.

* `findOrCreate_lookup`: a key file that is there is left alone.
* `keys_survive_restarts`: once the key files are whole, every later start has the same keys, in
  the contact and in all its addresses.
* `contact_file_connects`: another router that is given the file connects to the first address of
  the contact that the last running start has made.
-/

namespace Udap

open ByteMem NodeDb

/-! ### Keys -/

/-- What a write leaves on the disk. -/
def NodeDb.WriteOutcome.write (outcome : WriteOutcome) (path : FilePath) (data : Bytes)
    (disk : Disk) : Disk :=
  match outcome with
  | .saved => disk.insert path data
  | .failed (some left) => disk.insert path left
  | .failed none => disk

/-- Whether the file is opened. -/
def NodeDb.WriteOutcome.opened : WriteOutcome → Bool
  | .failed none => false
  | _ => true

/-- What a start meets when it needs a key: the key that it would make, the memory that the key is
read into, what comes of writing it, and whether its file can be read. -/
structure KeyInput where
  fresh : SecretKey
  memory : SecretKey
  outcome : WriteOutcome
  readable : Bool

/-- `f.read` of a secret key; a file that is too short leaves the rest of the memory. -/
def readKey (contents : Bytes) (memory : SecretKey) : SecretKey :=
  ⟨contents.take 64 ++ memory.1.drop contents.length, by
    have := memory.2
    simp only [List.length_append, List.length_take, List.length_drop]
    omega⟩

/-- The key in a file. -/
def keyIn (k : KeyInput) (path : FilePath) (memory : SecretKey) (disk : Disk) : Option SecretKey :=
  if k.readable then (disk.lookup path).map fun contents => readKey contents memory else none

/-- A key is read from its file, which is written first if it is not there. -/
def findOrCreate (k : KeyInput) (path : FilePath) (disk : Disk) : Disk × Option SecretKey :=
  if path ∈ disk then (disk, keyIn k path k.memory disk)
  else
    let disk := k.outcome.write path k.fresh.1 disk
    (disk, keyIn k path k.fresh disk)

/-- `udap_findOrCreateIdentity`. -/
def findOrCreateIdentity : KeyInput → FilePath → Disk → Disk × Option SecretKey := findOrCreate

/-- `udap_findOrCreateEncryption`. -/
def findOrCreateEncryption : KeyInput → FilePath → Disk → Disk × Option SecretKey := findOrCreate

/-- `keygen` of a link: whether the file was opened. -/
def keygen (k : KeyInput) (fname : FilePath) (disk : Disk) : Disk × Bool :=
  (k.outcome.write fname k.fresh.1 disk, k.outcome.opened)

/-- `ensure_privkey`. -/
def ensurePrivkey (k : KeyInput) (keyfile : FilePath) (disk : Disk) : Disk × Option SecretKey :=
  if keyfile ∈ disk then (disk, keyIn k keyfile k.memory disk)
  else
    match keygen k keyfile disk with
    | (disk, false) => (disk, none)
    | (disk, true) => (disk, keyIn k keyfile k.fresh disk)

section Keys

variable {k : KeyInput} {path q : FilePath} {disk : Disk}

/-- A link gives up when it cannot open its file; the others then find no file to read. -/
lemma ensurePrivkey_eq : ensurePrivkey k path disk = findOrCreate k path disk := by
  rw [ensurePrivkey, findOrCreate]
  split_ifs with hmem
  · rfl
  · rw [keygen]
    cases houtcome : k.outcome with
    | saved => rfl
    | failed left =>
      cases left with
      | some left => rfl
      | none =>
        have hnone : disk.lookup path = none := AList.lookup_eq_none.mpr hmem
        have hkey : keyIn k path k.fresh disk = none := by
          rw [keyIn, hnone]
          exact ite_self _
        exact congrArg _ hkey.symm

lemma write_lookup (outcome : WriteOutcome) (data : Bytes) (hne : q ≠ path) :
    (outcome.write path data disk).lookup q = disk.lookup q := by
  cases outcome with
  | saved => exact AList.lookup_insert_ne hne
  | failed left =>
    cases left with
    | some left => exact AList.lookup_insert_ne hne
    | none => rfl

/-- Only the file of the key is written, and only if it is not there. -/
lemma findOrCreate_lookup (hq : q ≠ path ∨ q ∈ disk) :
    (findOrCreate k path disk).1.lookup q = disk.lookup q := by
  rw [findOrCreate]
  split_ifs with hmem
  · rfl
  · refine write_lookup k.outcome k.fresh.1 ?_
    rcases hq with hne | hin
    · exact hne
    · rintro rfl
      exact hmem hin

/-- A key that is returned is in the file. -/
lemma findOrCreate_key {key : SecretKey} (h : (findOrCreate k path disk).2 = some key) :
    ∃ contents memory, (findOrCreate k path disk).1.lookup path = some contents ∧
      key = readKey contents memory := by
  have hin {memory : SecretKey} {disk : Disk} (h : keyIn k path memory disk = some key) :
      ∃ contents memory, disk.lookup path = some contents ∧ key = readKey contents memory := by
    rw [keyIn] at h
    split_ifs at h
    obtain ⟨contents, hlookup, rfl⟩ := Option.map_eq_some_iff.mp h
    exact ⟨contents, memory, hlookup, rfl⟩
  rw [findOrCreate] at h ⊢
  split_ifs at h ⊢
  · exact hin h
  · exact hin h

/-- A file with a whole key. -/
def Whole (disk : Disk) (path : FilePath) : Prop :=
  ∃ contents, disk.lookup path = some contents ∧ 64 ≤ contents.length

lemma readKey_eq {contents : Bytes} (h : 64 ≤ contents.length) (memory memory' : SecretKey) :
    readKey contents memory = readKey contents memory' := by
  refine Subtype.ext ?_
  have hdrop (m : SecretKey) : m.1.drop contents.length = [] :=
    List.drop_eq_nil_of_le (m.2.le.trans h)
  exact congrArg (contents.take 64 ++ ·) ((hdrop memory).trans (hdrop memory').symm)

end Keys

/-! ### A start -/

/-- What a link meets that is configured: its key, whether it has an interface to bind to, and where
it is bound. -/
structure LinkInput where
  key : KeyInput
  bound : Bool
  ip : Blob 16
  port : UInt16

/-- `link_get_addr`. -/
def LinkInput.getAddr (l : LinkInput) (seckey : SecretKey) : AddressInfo where
  rank := 1
  dialect := ⟨[73, 87, 80, 0, 0, 0], rfl⟩
  encKey := seckey.toPublic
  ip := l.ip
  port := l.port

/-- `link_configure`, and the address that the link would tell. -/
def linkConfigure (keyfile : FilePath) (disk : Disk) (l : LinkInput) : Disk × Option AddressInfo :=
  match ensurePrivkey l.key keyfile disk with
  | (disk, key) => (disk, if l.bound then key.map l.getAddr else none)

/-- The links of the `bind` section: the addresses of those that are configured. -/
def configureLinks (keyfile : FilePath) : List LinkInput → Disk → Disk × List AddressInfo
  | [], disk => (disk, [])
  | l :: ls, disk =>
      match linkConfigure keyfile disk l with
      | (disk, addr) =>
          match configureLinks keyfile ls disk with
          | (disk, addrs) => (disk, addr.toList ++ addrs)

/-- The files of a router. -/
structure RouterFiles where
  identKeyfile : FilePath
  encryptionKeyfile : FilePath
  transportKeyfile : FilePath
  ourRCFile : FilePath

/-- The contact is not written over a key. -/
structure RouterFiles.Apart (files : RouterFiles) : Prop where
  ident : files.identKeyfile ≠ files.ourRCFile
  encryption : files.encryptionKeyfile ≠ files.ourRCFile
  transport : files.transportKeyfile ≠ files.ourRCFile

/-- What a start meets. The outbound link is tried for two address families. -/
structure StartInput where
  inbound : List LinkInput
  outbound : LinkInput × LinkInput
  encryption : KeyInput
  identity : KeyInput
  contact : WriteOutcome
  stack : ℕ → UInt8 := fun _ => 0

/-- A router that was started; `running` says whether it has started its links. -/
structure Started where
  identity : SecretKey
  encryption : SecretKey
  rc : RouterContact
  running : Bool

/-- `InitOutboundLink`. -/
def initOutboundLink (keyfile : FilePath) (links : LinkInput × LinkInput) (disk : Disk) :
    Disk × Bool :=
  match linkConfigure keyfile disk links.1 with
  | (disk, some _) => (disk, true)
  | (disk, none) =>
      match linkConfigure keyfile disk links.2 with
      | (disk, addr) => (disk, addr.isSome)

/-- `SaveRC`. A write that fails is not noticed. -/
def saveRC (lib : HostLib) (file : FilePath) (outcome : WriteOutcome) (rc : RouterContact)
    (disk : Disk) : Disk × Bool :=
  if rc.verifySig lib ∧ Encodes lib rc then
    (outcome.write file (writtenBytes lib rc) disk, outcome.opened)
  else (disk, false)

/-- The contact that `Run` makes and signs. -/
def ownContact (lib : HostLib) (crypto : SecretKey → Bytes → Blob 64) (stack : ℕ → UInt8)
    (addrs : List AddressInfo) (identity encryption : SecretKey) : RouterContact :=
  RouterContact.sign lib crypto stack identity
    { addrs := some addrs, enckey := encryption.toPublic, pubkey := identity.toPublic }

/-- `EnsureIdentity` and `Run`. -/
def ensureAndRun (lib : HostLib) (crypto : SecretKey → Bytes → Blob 64) (files : RouterFiles)
    (s : StartInput) (addrs : List AddressInfo) (disk : Disk) : Disk × Option Started :=
  match findOrCreateEncryption s.encryption files.encryptionKeyfile disk with
  | (disk, none) => (disk, none)
  | (disk, some encryption) =>
      match findOrCreateIdentity s.identity files.identKeyfile disk with
      | (disk, none) => (disk, none)
      | (disk, some identity) =>
          let rc := ownContact lib crypto s.stack addrs identity encryption
          match saveRC lib files.ourRCFile s.contact rc disk with
          | (disk, running) => (disk, some ⟨identity, encryption, rc, running⟩)

/-- `udap_configure_router` and `udap_run_router`. -/
def start (lib : HostLib) (crypto : SecretKey → Bytes → Blob 64) (files : RouterFiles)
    (s : StartInput) (disk : Disk) : Disk × Option Started :=
  match configureLinks files.transportKeyfile s.inbound disk with
  | (disk, addrs) =>
      match initOutboundLink files.transportKeyfile s.outbound disk with
      | (disk, false) => (disk, none)
      | (disk, true) => ensureAndRun lib crypto files s addrs disk

/-- One start after the other. -/
def starts (lib : HostLib) (crypto : SecretKey → Bytes → Blob 64) (files : RouterFiles) :
    List StartInput → Disk → Disk × List (Option Started)
  | [], disk => (disk, [])
  | s :: ss, disk =>
      match start lib crypto files s disk with
      | (disk, st) =>
          match starts lib crypto files ss disk with
          | (disk, sts) => (disk, st :: sts)

/-- `try_connect`: another router reads the file of a contact. A file that is too large leaves the
memory that it would be read into. -/
def Router.tryConnectFile {M : Type} (lib : HostLib) (u : Uninit) (f : StoredFile) (r : Router M) :
    Option (Router M) :=
  match f.contents with
  | none => some r
  | some data =>
      let mem := if data.length ≤ maxRCSize then fun i => data.getD i (f.stack i) else f.stack
      match RouterContact.bdecode lib u {} { mem := mem, cur := 0, sz := maxRCSize } with
      | (remote, some _) =>
          if remote.verifySig lib then (r.tryConnect remote 10).map Prod.fst else some r
      | (_, none) => some r

/-! ### What a start does to the files -/

/-- The keys that a start may need. -/
def StartInput.keys (s : StartInput) : List KeyInput :=
  s.encryption :: s.identity :: s.outbound.1.key :: s.outbound.2.key ::
    s.inbound.map LinkInput.key

/-- The files of the keys. -/
def RouterFiles.keyfiles (files : RouterFiles) : List FilePath :=
  [files.identKeyfile, files.encryptionKeyfile, files.transportKeyfile]

lemma RouterFiles.ident_mem (files : RouterFiles) : files.identKeyfile ∈ files.keyfiles :=
  List.mem_cons_self

lemma RouterFiles.encryption_mem (files : RouterFiles) :
    files.encryptionKeyfile ∈ files.keyfiles :=
  List.mem_cons_of_mem _ List.mem_cons_self

lemma RouterFiles.transport_mem (files : RouterFiles) :
    files.transportKeyfile ∈ files.keyfiles :=
  List.mem_cons_of_mem _ (List.mem_cons_of_mem _ List.mem_cons_self)

/-- Of the given files those that are there are left alone, and no others are written. -/
def Keeps (paths : List FilePath) (disk disk' : Disk) : Prop :=
  ∀ q, q ∉ paths ∨ q ∈ disk → disk'.lookup q = disk.lookup q

/-- The key is what the file has, as far as it goes. -/
def InFile (disk : Disk) (path : FilePath) (key : SecretKey) : Prop :=
  ∃ contents memory, disk.lookup path = some contents ∧ key = readKey contents memory

/-- The addresses are those of links with the transport key. -/
def Addressed (disk : Disk) (keyfile : FilePath) (links : List LinkInput)
    (addrs : List AddressInfo) : Prop :=
  ∀ ai ∈ addrs, ∃ l ∈ links, ∃ key, InFile disk keyfile key ∧ ai = l.getAddr key

section Files

variable {disk disk' disk'' : Disk} {paths : List FilePath} {files : RouterFiles}

lemma Keeps.refl (paths : List FilePath) (disk : Disk) : Keeps paths disk disk := fun _ _ => rfl

lemma mem_of_lookup {q : FilePath} (h : disk'.lookup q = disk.lookup q) (hq : q ∈ disk) :
    q ∈ disk' := by
  rw [← AList.lookup_isSome] at hq ⊢
  rw [h]
  exact hq

lemma Keeps.trans (h : Keeps paths disk disk') (h' : Keeps paths disk' disk'') :
    Keeps paths disk disk'' := by
  intro q hq
  rw [← h q hq]
  exact h' q (hq.imp_right fun hin => mem_of_lookup (h q hq) hin)

lemma InFile.mem {path : FilePath} {key : SecretKey} (h : InFile disk path key) : path ∈ disk := by
  obtain ⟨contents, -, hlookup, -⟩ := h
  rw [← AList.lookup_isSome, hlookup]
  rfl

lemma findOrCreate_inFile {k : KeyInput} {path : FilePath} {key : SecretKey}
    (h : findOrCreate k path disk = (disk', some key)) : InFile disk' path key := by
  obtain ⟨contents, memory, hlookup, heq⟩ := findOrCreate_key (congrArg Prod.snd h)
  rw [h] at hlookup
  exact ⟨contents, memory, hlookup, heq⟩

/-- A key stays in its file. -/
lemma InFile.keep {path : FilePath} {key : SecretKey} (h : InFile disk path key)
    (hk : path ∈ disk → disk'.lookup path = disk.lookup path) : InFile disk' path key := by
  rw [InFile, hk h.mem]
  exact h

lemma Addressed.keep {keyfile : FilePath} {links : List LinkInput} {addrs : List AddressInfo}
    (h : Addressed disk keyfile links addrs)
    (hk : keyfile ∈ disk → disk'.lookup keyfile = disk.lookup keyfile) :
    Addressed disk' keyfile links addrs := by
  intro ai hai
  obtain ⟨l, hl, key, hkey, rfl⟩ := h ai hai
  exact ⟨l, hl, key, hkey.keep hk, rfl⟩

/-- Keys are found or made, one after the other. -/
def Finds (keys : List KeyInput) (paths : List FilePath) : Disk → Disk → Prop :=
  Relation.ReflTransGen fun disk disk' =>
    ∃ k ∈ keys, ∃ path ∈ paths, disk' = (findOrCreate k path disk).1

variable {keys : List KeyInput}

lemma Finds.find {path : FilePath} {k : KeyInput} (hk : k ∈ keys) (hp : path ∈ paths)
    (disk : Disk) : Finds keys paths disk (findOrCreate k path disk).1 :=
  .single ⟨k, hk, path, hp, rfl⟩

lemma Finds.keeps (h : Finds keys paths disk disk') : Keeps paths disk disk' := by
  induction h with
  | refl => exact .refl _ _
  | @tail d d' _ hstep ih =>
    obtain ⟨k, -, path, hp, rfl⟩ := hstep
    refine ih.trans fun q hq => findOrCreate_lookup (hq.imp_left ?_)
    rintro hout rfl
    exact hout hp

lemma Finds.lookup (h : Finds keys paths disk disk') {q : FilePath} (hq : q ∈ disk) :
    disk'.lookup q = disk.lookup q :=
  h.keeps q (.inr hq)

/-- A key is kept whole when no write is torn. -/
lemma Finds.whole (h : Finds keys paths disk disk')
    (hclean : ∀ k ∈ keys, ∀ left, k.outcome ≠ .failed (some left))
    (hwhole : ∀ q ∈ paths, q ∈ disk → Whole disk q) : ∀ q ∈ paths, q ∈ disk' → Whole disk' q := by
  induction h with
  | refl => exact hwhole
  | @tail d d' _ hstep ih =>
    obtain ⟨k, hk, path, -, rfl⟩ := hstep
    intro q hq hin
    by_cases hold : q ∈ d
    · rw [Whole, findOrCreate_lookup (.inr hold)]
      exact ih q hq hold
    · have heq : q = path := by
        by_contra hne
        have hlookup : (findOrCreate k path d).1.lookup q = d.lookup q :=
          findOrCreate_lookup (.inl hne)
        exact hold (mem_of_lookup hlookup.symm hin)
      rw [heq] at hin hold ⊢
      rw [findOrCreate, if_neg hold] at hin ⊢
      cases houtcome : k.outcome with
      | saved => exact ⟨k.fresh.1, AList.lookup_insert _, k.fresh.2.ge⟩
      | failed left =>
        cases left with
        | some left => exact absurd houtcome (hclean k hk left)
        | none =>
          rw [houtcome] at hin
          exact absurd hin hold

lemma linkConfigure_spec {keyfile : FilePath} (hp : keyfile ∈ paths) {l : LinkInput}
    (hl : l.key ∈ keys) (disk : Disk) : Finds keys paths disk (linkConfigure keyfile disk l).1 ∧
      Addressed (linkConfigure keyfile disk l).1 keyfile [l]
        (linkConfigure keyfile disk l).2.toList := by
  have hdisk : (linkConfigure keyfile disk l).1 = (findOrCreate l.key keyfile disk).1 :=
    congrArg Prod.fst (ensurePrivkey_eq (k := l.key))
  have haddr : (linkConfigure keyfile disk l).2 = if l.bound then
      (findOrCreate l.key keyfile disk).2.map l.getAddr else none := by
    rw [← ensurePrivkey_eq]
    rfl
  rw [hdisk]
  refine ⟨.find hl hp disk, fun ai hai => ?_⟩
  rw [haddr] at hai
  split_ifs at hai with hbound
  · obtain ⟨key, hkey, rfl⟩ := Option.map_eq_some_iff.mp (Option.mem_toList.mp hai)
    exact ⟨l, List.mem_singleton_self l, key, findOrCreate_key hkey, rfl⟩
  · cases hai

lemma configureLinks_spec {keyfile : FilePath} (hp : keyfile ∈ paths) {links : List LinkInput}
    (hl : ∀ l ∈ links, l.key ∈ keys) (disk : Disk) :
    Finds keys paths disk (configureLinks keyfile links disk).1 ∧
      Addressed (configureLinks keyfile links disk).1 keyfile links
        (configureLinks keyfile links disk).2 := by
  induction links generalizing disk with
  | nil => exact ⟨.refl, fun ai hai => by cases hai⟩
  | cons l ls ih =>
    obtain ⟨hfinds, haddr⟩ := linkConfigure_spec hp (hl l List.mem_cons_self) disk
    obtain ⟨hfinds', haddrs⟩ :=
      ih (fun l' hl' => hl l' (List.mem_cons_of_mem l hl')) (linkConfigure keyfile disk l).1
    refine ⟨hfinds.trans hfinds', fun ai hai => ?_⟩
    rcases List.mem_append.mp hai with hai | hai
    · obtain ⟨l', hl', hrest⟩ := haddr.keep hfinds'.lookup ai hai
      rw [List.mem_singleton.mp hl'] at hrest
      exact ⟨l, List.mem_cons_self, hrest⟩
    · obtain ⟨l', hl', hrest⟩ := haddrs ai hai
      exact ⟨l', List.mem_cons_of_mem l hl', hrest⟩

lemma initOutboundLink_finds {keyfile : FilePath} (hp : keyfile ∈ paths)
    {links : LinkInput × LinkInput} (h₁ : links.1.key ∈ keys) (h₂ : links.2.key ∈ keys)
    (disk : Disk) : Finds keys paths disk (initOutboundLink keyfile links disk).1 := by
  have hfirst := (linkConfigure_spec hp h₁ disk).1
  rw [initOutboundLink]
  cases hc : linkConfigure keyfile disk links.1 with
  | mk disk₁ addr =>
    rw [hc] at hfirst
    cases addr with
    | some ai => exact hfirst
    | none => exact hfirst.trans (linkConfigure_spec hp h₂ disk₁).1

end Files

section Start

variable {lib : HostLib} {crypto : SecretKey → Bytes → Blob 64} {files : RouterFiles}
  {disk disk₁ : Disk} {s : StartInput}

/-- What a start has that gets to its contact: the keys in the files, and the contact that is made
of them. -/
structure Prepared (lib : HostLib) (crypto : SecretKey → Bytes → Blob 64) (files : RouterFiles)
    (s : StartInput) (disk₁ : Disk) (st : Started) : Prop where
  identity : InFile disk₁ files.identKeyfile st.identity
  encryption : InFile disk₁ files.encryptionKeyfile st.encryption
  contact : ∃ addrs, Addressed disk₁ files.transportKeyfile s.inbound addrs ∧
    st.rc = ownContact lib crypto s.stack addrs st.identity st.encryption

/-- A start ends before it has its keys, or it makes a contact of them and saves it. -/
def StartEnds (lib : HostLib) (crypto : SecretKey → Bytes → Blob 64) (files : RouterFiles)
    (s : StartInput) (disk : Disk) (res : Disk × Option Started) : Prop :=
  ∃ disk₁, Finds s.keys files.keyfiles disk disk₁ ∧
    (res = (disk₁, none) ∨
      ∃ st, Prepared lib crypto files s disk₁ st ∧
        st.running = (saveRC lib files.ourRCFile s.contact st.rc disk₁).2 ∧
        res = ((saveRC lib files.ourRCFile s.contact st.rc disk₁).1, some st))

lemma StartEnds.after {disk₀ : Disk} {res : Disk × Option Started}
    (h : StartEnds lib crypto files s disk res) (hf : Finds s.keys files.keyfiles disk₀ disk) :
    StartEnds lib crypto files s disk₀ res := by
  obtain ⟨disk₁, hfinds, hres⟩ := h
  exact ⟨disk₁, hf.trans hfinds, hres⟩

lemma ensureAndRun_spec {addrs : List AddressInfo}
    (haddrs : Addressed disk files.transportKeyfile s.inbound addrs) :
    StartEnds lib crypto files s disk (ensureAndRun lib crypto files s addrs disk) := by
  have hfinds : Finds s.keys files.keyfiles disk
      (findOrCreate s.encryption files.encryptionKeyfile disk).1 :=
    .find (by simp [StartInput.keys]) files.encryption_mem disk
  rw [ensureAndRun, findOrCreateEncryption, findOrCreateIdentity]
  cases he : findOrCreate s.encryption files.encryptionKeyfile disk with
  | mk disk₁ o =>
    rw [he] at hfinds
    cases o with
    | none => exact ⟨disk₁, hfinds, .inl rfl⟩
    | some encryption =>
      have hkey : InFile disk₁ files.encryptionKeyfile encryption := findOrCreate_inFile he
      have hfinds' : Finds s.keys files.keyfiles disk₁
          (findOrCreate s.identity files.identKeyfile disk₁).1 :=
        .find (by simp [StartInput.keys]) files.ident_mem disk₁
      dsimp only
      cases hi : findOrCreate s.identity files.identKeyfile disk₁ with
      | mk disk₂ o =>
        rw [hi] at hfinds'
        cases o with
        | none => exact ⟨disk₂, hfinds.trans hfinds', .inl rfl⟩
        | some identity =>
          have hkey' : InFile disk₂ files.identKeyfile identity := findOrCreate_inFile hi
          dsimp only
          generalize hrc : ownContact lib crypto s.stack addrs identity encryption = rc
          cases hs : saveRC lib files.ourRCFile s.contact rc disk₂ with
          | mk disk₃ running =>
            have hprepared : Prepared lib crypto files s disk₂
                ⟨identity, encryption, rc, running⟩ :=
              ⟨hkey', hkey.keep hfinds'.lookup, addrs,
                haddrs.keep (Finds.lookup (hfinds.trans hfinds')), hrc.symm⟩
            refine ⟨disk₂, hfinds.trans hfinds', .inr ⟨_, hprepared, ?_, ?_⟩⟩
            · exact congrArg Prod.snd hs.symm
            · exact congrArg (·, some _) (congrArg Prod.fst hs).symm

lemma start_spec : StartEnds lib crypto files s disk (start lib crypto files s disk) := by
  have hinbound (l : LinkInput) (hl : l ∈ s.inbound) : l.key ∈ s.keys := by
    simp only [StartInput.keys, List.mem_cons, List.mem_map]
    exact .inr (.inr (.inr (.inr ⟨l, hl, rfl⟩)))
  obtain ⟨hlinks, haddrs⟩ := configureLinks_spec files.transport_mem hinbound disk
  rw [start]
  cases hc : configureLinks files.transportKeyfile s.inbound disk with
  | mk disk₁ addrs =>
    rw [hc] at hlinks haddrs
    have hout : Finds s.keys files.keyfiles disk₁
        (initOutboundLink files.transportKeyfile s.outbound disk₁).1 :=
      initOutboundLink_finds files.transport_mem (by simp [StartInput.keys])
        (by simp [StartInput.keys]) disk₁
    dsimp only
    cases ho : initOutboundLink files.transportKeyfile s.outbound disk₁ with
    | mk disk₂ ready =>
      rw [ho] at hout
      cases ready with
      | false => exact ⟨disk₂, hlinks.trans hout, .inl rfl⟩
      | true => exact (ensureAndRun_spec (haddrs.keep hout.lookup)).after (hlinks.trans hout)

/-- Only the file of the contact is written when the contact is saved, and if it is not saved, not
even that. -/
lemma saveRC_lookup (file : FilePath) (outcome : WriteOutcome) (rc : RouterContact) (disk : Disk)
    {q : FilePath} (hq : q ≠ file ∨ (saveRC lib file outcome rc disk).2 = false) :
    (saveRC lib file outcome rc disk).1.lookup q = disk.lookup q := by
  rw [saveRC] at hq ⊢
  by_cases hgood : rc.verifySig lib ∧ Encodes lib rc
  · rw [if_pos hgood] at hq ⊢
    cases outcome with
    | saved => exact AList.lookup_insert_ne (hq.resolve_right fun h => by cases h)
    | failed left =>
      cases left with
      | some left => exact AList.lookup_insert_ne (hq.resolve_right fun h => by cases h)
      | none => rfl
  · rw [if_neg hgood]

/-- A contact that is saved is written to its file, if the write goes well. -/
lemma saveRC_running {file : FilePath} {outcome : WriteOutcome} {rc : RouterContact}
    (h : (saveRC lib file outcome rc disk).2 = true)
    (hclean : ∀ left, outcome ≠ .failed (some left)) :
    rc.verifySig lib = true ∧ Encodes lib rc ∧
      (saveRC lib file outcome rc disk).1.lookup file = some (writtenBytes lib rc) := by
  rw [saveRC] at h ⊢
  by_cases hgood : rc.verifySig lib ∧ Encodes lib rc
  · rw [if_pos hgood] at h ⊢
    refine ⟨hgood.1, hgood.2, ?_⟩
    cases outcome with
    | saved => exact AList.lookup_insert _
    | failed left =>
      cases left with
      | some left => exact absurd rfl (hclean left)
      | none => cases h
  · rw [if_neg hgood] at h
    cases h

lemma Prepared.keep {disk' : Disk} {st : Started} (h : Prepared lib crypto files s disk st)
    (hk : ∀ q ∈ files.keyfiles, q ∈ disk → disk'.lookup q = disk.lookup q) :
    Prepared lib crypto files s disk' st := by
  obtain ⟨addrs, haddrs, hrc⟩ := h.contact
  exact ⟨h.identity.keep (hk _ files.ident_mem), h.encryption.keep (hk _ files.encryption_mem),
    addrs, haddrs.keep (hk _ files.transport_mem), hrc⟩

lemma RouterFiles.Apart.ne (h : files.Apart) {q : FilePath} (hq : q ∈ files.keyfiles) :
    q ≠ files.ourRCFile := by
  simp only [RouterFiles.keyfiles, List.mem_cons, List.not_mem_nil, or_false] at hq
  rcases hq with rfl | rfl | rfl
  · exact h.ident
  · exact h.encryption
  · exact h.transport

/-- A start leaves the keys alone that are there. -/
lemma start_lookup (hapart : files.Apart) {q : FilePath} (hq : q ∈ files.keyfiles)
    (hin : q ∈ disk) : (start lib crypto files s disk).1.lookup q = disk.lookup q := by
  obtain ⟨disk₁, hfinds, hres⟩ : StartEnds lib crypto files s disk _ := start_spec
  obtain hres | ⟨st, -, -, hres⟩ := hres
  · rw [hres]
    exact hfinds.lookup hin
  · rw [hres, saveRC_lookup _ _ _ _ (.inl (hapart.ne hq))]
    exact hfinds.lookup hin

/-- No write of a key is torn. -/
def StartInput.Clean (s : StartInput) : Prop :=
  ∀ k ∈ s.keys, ∀ left, k.outcome ≠ .failed (some left)

/-- The key files that are there are whole. -/
def WholeKeys (files : RouterFiles) (disk : Disk) : Prop :=
  ∀ q ∈ files.keyfiles, q ∈ disk → Whole disk q

/-- After a start the key files are whole, and the keys of the start are in them. -/
lemma start_keys (lib : HostLib) (crypto : SecretKey → Bytes → Blob 64)
    (hapart : files.Apart) (hclean : s.Clean) (hwhole : WholeKeys files disk) :
    WholeKeys files (start lib crypto files s disk).1 ∧
      ∀ st, (start lib crypto files s disk).2 = some st →
        Prepared lib crypto files s (start lib crypto files s disk).1 st := by
  obtain ⟨disk₁, hfinds, hres⟩ : StartEnds lib crypto files s disk _ := start_spec
  have hwhole₁ : WholeKeys files disk₁ := hfinds.whole hclean hwhole
  obtain hres | ⟨st, hprepared, -, hres⟩ := hres
  · rw [hres]
    exact ⟨hwhole₁, fun st hst => by cases hst⟩
  · have hkeep : ∀ q ∈ files.keyfiles, (start lib crypto files s disk).1.lookup q =
        disk₁.lookup q := by
      intro q hq
      rw [hres]
      exact saveRC_lookup _ _ _ _ (.inl (hapart.ne hq))
    refine ⟨fun q hq hin => ?_, fun st' hst' => ?_⟩
    · rw [Whole, hkeep q hq]
      exact hwhole₁ q hq (mem_of_lookup (hkeep q hq).symm hin)
    · rw [hres, Option.some.injEq] at hst'
      subst hst'
      exact hprepared.keep fun q hq _ => hkeep q hq

end Start

/-! ### Restarts -/

section Restarts

variable {lib : HostLib} {crypto : SecretKey → Bytes → Blob 64} {files : RouterFiles}
  {disk : Disk} {ss : List StartInput}

lemma starts_lookup (hapart : files.Apart) {q : FilePath} (hq : q ∈ files.keyfiles)
    (hin : q ∈ disk) : (starts lib crypto files ss disk).1.lookup q = disk.lookup q := by
  induction ss generalizing disk with
  | nil => rfl
  | cons s ss ih =>
    have hstart : (start lib crypto files s disk).1.lookup q = disk.lookup q :=
      start_lookup hapart hq hin
    exact (ih (mem_of_lookup hstart hin)).trans hstart

/-- After a run of starts the keys of all of them are in the files. -/
lemma starts_keys (lib : HostLib) (crypto : SecretKey → Bytes → Blob 64)
    (hapart : files.Apart) (hclean : ∀ s ∈ ss, s.Clean)
    (hwhole : WholeKeys files disk) : WholeKeys files (starts lib crypto files ss disk).1 ∧
      ∀ st, some st ∈ (starts lib crypto files ss disk).2 →
        ∃ s ∈ ss, Prepared lib crypto files s (starts lib crypto files ss disk).1 st := by
  induction ss generalizing disk with
  | nil => exact ⟨hwhole, fun st hst => by cases hst⟩
  | cons s ss ih =>
    obtain ⟨hwhole₁, hkeys⟩ :=
      start_keys lib crypto hapart (hclean s List.mem_cons_self) hwhole
    obtain ⟨hwhole', hkeys'⟩ := ih (fun s' hs' => hclean s' (List.mem_cons_of_mem s hs')) hwhole₁
    refine ⟨hwhole', fun st hst => ?_⟩
    rcases List.mem_cons.mp hst with hst | hst
    · exact ⟨s, List.mem_cons_self, (hkeys st hst.symm).keep fun q hq hin =>
        starts_lookup hapart hq hin⟩
    · obtain ⟨s', hs', hprepared⟩ := hkeys' st hst
      exact ⟨s', List.mem_cons_of_mem s hs', hprepared⟩

lemma Whole.inFile_eq {path : FilePath} (h : Whole disk path) {key key' : SecretKey}
    (hkey : InFile disk path key) (hkey' : InFile disk path key') : key = key' := by
  obtain ⟨contents, hlookup, hlen⟩ := h
  obtain ⟨c, memory, hc, rfl⟩ := hkey
  obtain ⟨c', memory', hc', rfl⟩ := hkey'
  rw [hlookup, Option.some.injEq] at hc hc'
  subst hc hc'
  exact readKey_eq hlen memory memory'

/-- The signature apart, a contact is made of the keys and the addresses. -/
lemma ownContact_fields (lib : HostLib) (crypto : SecretKey → Bytes → Blob 64)
    (stack : ℕ → UInt8) (addrs : List AddressInfo)
    (identity encryption : SecretKey) :
    ∃ sig, ownContact lib crypto stack addrs identity encryption =
      { addrs := some addrs, enckey := encryption.toPublic, pubkey := identity.toPublic
        signature := sig } := by
  rw [ownContact, RouterContact.sign]
  dsimp only
  split
  · exact ⟨_, rfl⟩
  · exact ⟨_, rfl⟩

/-- Where no key file is torn, all starts of a run have the same identity and the same encryption
key, and tell them in their contacts, with the same transport key in all addresses. -/
theorem keys_survive_restarts (lib : HostLib) (crypto : SecretKey → Bytes → Blob 64)
    (files : RouterFiles) (hapart : files.Apart) (disk : Disk) (hwhole : WholeKeys files disk)
    (ss : List StartInput) (hclean : ∀ s ∈ ss, s.Clean) (st st' : Started)
    (hst : some st ∈ (starts lib crypto files ss disk).2)
    (hst' : some st' ∈ (starts lib crypto files ss disk).2) :
    st.identity = st'.identity ∧ st.encryption = st'.encryption ∧
      st.rc.pubkey = st.identity.toPublic ∧ st.rc.enckey = st.encryption.toPublic ∧
      ∀ ai ∈ st.rc.addrs.getD [], ∀ ai' ∈ st'.rc.addrs.getD [], ai.encKey = ai'.encKey := by
  obtain ⟨hwhole', hkeys⟩ := starts_keys lib crypto hapart hclean hwhole
  obtain ⟨s, -, hp⟩ := hkeys st hst
  obtain ⟨s', -, hp'⟩ := hkeys st' hst'
  have hsame {q : FilePath} (hq : q ∈ files.keyfiles) {key key' : SecretKey}
      (hkey : InFile (starts lib crypto files ss disk).1 q key)
      (hkey' : InFile (starts lib crypto files ss disk).1 q key') : key = key' :=
    (hwhole' q hq hkey.mem).inFile_eq hkey hkey'
  obtain ⟨addrs, haddrs, hrc⟩ := hp.contact
  obtain ⟨addrs', haddrs', hrc'⟩ := hp'.contact
  obtain ⟨sig, hfields⟩ := ownContact_fields lib crypto s.stack addrs st.identity st.encryption
  obtain ⟨sig', hfields'⟩ := ownContact_fields lib crypto s'.stack addrs'
    st'.identity st'.encryption
  rw [hfields] at hrc
  rw [hfields'] at hrc'
  refine ⟨hsame files.ident_mem hp.identity hp'.identity,
    hsame files.encryption_mem hp.encryption hp'.encryption, by rw [hrc], by rw [hrc],
    fun ai hai ai' hai' => ?_⟩
  rw [hrc] at hai
  rw [hrc'] at hai'
  obtain ⟨l, -, key, hkey, rfl⟩ := haddrs ai hai
  obtain ⟨l', -, key', hkey', rfl⟩ := haddrs' ai' hai'
  exact congrArg SecretKey.toPublic (hsame files.transport_mem hkey hkey')

end Restarts

/-! ### The contact file -/

section ContactFile

variable {lib : HostLib} {u : Uninit} {crypto : SecretKey → Bytes → Blob 64} {files : RouterFiles}
  {disk : Disk} {s : StartInput} {ss : List StartInput}

/-- The last start that has started its links. -/
def lastRunning : List (Option Started) → Option Started
  | [] => none
  | st :: sts => (lastRunning sts).or (st.filter (·.running))

/-- A contact that another router can read and accept. -/
structure Presentable (lib : HostLib) (rc : RouterContact) : Prop where
  verified : rc.verifySig lib = true
  encodes : Encodes lib rc
  durable : Durable rc
  addrs : rc.addrs.isSome = true

/-- The addresses of links with a port are accepted by the decoder. -/
lemma Prepared.durable {st : Started} (h : Prepared lib crypto files s disk st)
    (hports : ∀ l ∈ s.inbound, l.port ≠ 0) : Durable st.rc ∧ st.rc.addrs.isSome = true := by
  obtain ⟨addrs, haddrs, hrc⟩ := h.contact
  obtain ⟨sig, hfields⟩ := ownContact_fields lib crypto s.stack addrs st.identity st.encryption
  have htime : (0 : UInt64) ≠ -1 := by decide
  have hrank : (1 : UInt16) ≠ 0 := by decide
  rw [hrc, hfields]
  refine ⟨⟨?_, htime⟩, rfl⟩
  rintro _ ⟨⟩ ai hai
  obtain ⟨l, hl, key, -, rfl⟩ := haddrs ai hai
  exact ⟨hrank, hports l hl, by simp [LinkInput.getAddr]⟩

/-- The contact of a start that runs is in the file; another start leaves the file as it is. -/
lemma start_contact (lib : HostLib) (crypto : SecretKey → Bytes → Blob 64)
    (disk : Disk) (hapart : files.Apart) (hports : ∀ l ∈ s.inbound, l.port ≠ 0)
    (hclean : ∀ left, s.contact ≠ .failed (some left)) :
    (start lib crypto files s disk).1.lookup files.ourRCFile =
        (((start lib crypto files s disk).2.filter (·.running)).map
          fun st => writtenBytes lib st.rc).or (disk.lookup files.ourRCFile) ∧
      ∀ st ∈ (start lib crypto files s disk).2.filter (·.running), Presentable lib st.rc := by
  obtain ⟨disk₁, hfinds, hres⟩ : StartEnds lib crypto files s disk _ := start_spec
  have hkeep : disk₁.lookup files.ourRCFile = disk.lookup files.ourRCFile :=
    hfinds.keeps _ (.inl fun hmem => hapart.ne hmem rfl)
  obtain hres | ⟨st, hprepared, hrunning, hres⟩ := hres
  · rw [hres]
    exact ⟨hkeep, fun st hst => by cases hst⟩
  · rw [hres]
    cases hsaved : (saveRC lib files.ourRCFile s.contact st.rc disk₁).2 with
    | true =>
      obtain ⟨hverified, hencodes, hlookup⟩ := saveRC_running hsaved hclean
      have hfilter : (some st).filter (·.running) = some st :=
        Option.filter_eq_some_iff.mpr ⟨rfl, hrunning.trans hsaved⟩
      rw [hfilter]
      refine ⟨hlookup, ?_⟩
      rintro _ ⟨⟩
      obtain ⟨hdurable, haddrs⟩ := hprepared.durable hports
      exact ⟨hverified, hencodes, hdurable, haddrs⟩
    | false =>
      have hfilter : (some st).filter (·.running) = none := by
        simp [Option.filter, hrunning.trans hsaved]
      rw [hfilter]
      exact ⟨(saveRC_lookup _ _ _ _ (.inr hsaved)).trans hkeep, fun st hst => by cases hst⟩

lemma starts_contact (lib : HostLib) (crypto : SecretKey → Bytes → Blob 64)
    (disk : Disk) (hapart : files.Apart) (hports : ∀ s ∈ ss, ∀ l ∈ s.inbound, l.port ≠ 0)
    (hclean : ∀ s ∈ ss, ∀ left, s.contact ≠ .failed (some left)) :
    (starts lib crypto files ss disk).1.lookup files.ourRCFile =
        ((lastRunning (starts lib crypto files ss disk).2).map
          fun st => writtenBytes lib st.rc).or (disk.lookup files.ourRCFile) ∧
      ∀ st ∈ lastRunning (starts lib crypto files ss disk).2, Presentable lib st.rc := by
  induction ss generalizing disk with
  | nil => exact ⟨rfl, fun st hst => by cases hst⟩
  | cons s ss ih =>
    obtain ⟨hfile, hgood⟩ := start_contact lib crypto disk hapart
      (hports s List.mem_cons_self) (hclean s List.mem_cons_self)
    obtain ⟨hfile', hgood'⟩ := ih (start lib crypto files s disk).1
      (fun s' hs' => hports s' (List.mem_cons_of_mem s hs'))
      (fun s' hs' => hclean s' (List.mem_cons_of_mem s hs'))
    rw [hfile] at hfile'
    have hlast : lastRunning (starts lib crypto files (s :: ss) disk).2 =
        (lastRunning (starts lib crypto files ss (start lib crypto files s disk).1).2).or
          ((start lib crypto files s disk).2.filter (·.running)) := rfl
    rw [hlast]
    refine ⟨hfile'.trans ?_, fun st hst => ?_⟩
    · cases lastRunning (starts lib crypto files ss (start lib crypto files s disk).1).2 <;> rfl
    · rcases Option.or_eq_some_iff.mp hst with hst | ⟨-, hst⟩
      · exact hgood' st hst
      · exact hgood st hst

/-- A file that is not too large is read as `udap_rc_read` does. -/
lemma tryConnectFile_eq {M : Type} {data : Bytes} (hlen : data.length ≤ maxRCSize)
    (stack : ℕ → UInt8) (r : Router M) :
    r.tryConnectFile lib u { contents := some data, stack := stack } =
      match rcRead lib u { contents := some data, stack := stack } with
      | some remote =>
          if remote.verifySig lib then (r.tryConnect remote 10).map Prod.fst else some r
      | none => some r := by
  rw [Router.tryConnectFile, rcRead]
  dsimp only
  rw [if_pos hlen, if_neg (Nat.not_lt.mpr hlen)]
  cases RouterContact.bdecode lib u {}
    { mem := fun i => data.getD i (stack i), cur := 0, sz := maxRCSize } with
  | mk remote o => cases o <;> rfl

/-- The contact of the last start that runs is what another router connects to that is given the
file: to the first address, if it does not already work on a session to this router. -/
theorem contact_file_connects (lib : HostLib) (hlib : lib.Lawful) (u : Uninit)
    (crypto : SecretKey → Bytes → Blob 64) (files : RouterFiles) (hapart : files.Apart)
    (disk : Disk) (ss : List StartInput) (hports : ∀ s ∈ ss, ∀ l ∈ s.inbound, l.port ≠ 0)
    (hclean : ∀ s ∈ ss, ∀ left, s.contact ≠ .failed (some left)) (st : Started)
    (hlast : lastRunning (starts lib crypto files ss disk).2 = some st) {M : Type} (r : Router M)
    (stack : ℕ → UInt8) :
    let file : StoredFile :=
      { contents := (starts lib crypto files ss disk).1.lookup files.ourRCFile, stack := stack }
    (st.rc.pubkey ∈ r.pendingEstablishJobs → r.tryConnectFile lib u file = some r) ∧
      (st.rc.pubkey ∉ r.pendingEstablishJobs →
        match st.rc.addrs.getD [] with
        | [] => r.tryConnectFile lib u file = some r
        | ai :: _ => ∃ ai', ai.Same ai' ∧
            r.tryConnectFile lib u file = some (r.establish st.rc.pubkey ai' 10)) := by
  intro file
  obtain ⟨hfile, hgood⟩ := starts_contact lib crypto disk hapart hports hclean
  obtain ⟨hverified, hencodes, hdurable, haddrs⟩ := hgood st hlast
  have hcontents : file = { contents := some (writtenBytes lib st.rc), stack := stack } := by
    rw [hlast] at hfile
    exact congrArg (fun c => ({ contents := c, stack := stack } : StoredFile)) hfile
  have hlen : (writtenBytes lib st.rc).length ≤ maxRCSize := by
    obtain ⟨hfits, hwritten⟩ := RouterContact.bencode_stackBuffer hlib st.rc (fun _ => 0) maxRCSize
    exact (congrArg List.length (hwritten hencodes)).trans_le (hfits.mp hencodes)
  obtain ⟨remote, hread, hsame, hverify⟩ :=
    rcRead_writtenBytes (u := u) hlib hdurable hencodes stack
  have hconnect : r.tryConnectFile lib u file = (r.tryConnect remote 10).map Prod.fst := by
    rw [hcontents, tryConnectFile_eq hlen, hread]
    exact if_pos (hverify.trans hverified)
  rw [hconnect, Router.tryConnect, hsame.pubkey]
  refine ⟨fun hpending => by rw [if_pos hpending]; rfl, fun hpending => ?_⟩
  rw [if_neg hpending]
  obtain ⟨addrs, hsome⟩ := Option.isSome_iff_exists.mp haddrs
  have hrel := hsame.addrs
  rw [hsome] at hrel ⊢
  cases hremote : remote.addrs with
  | none =>
    rw [hremote] at hrel
    cases hrel
  | some addrs' =>
    rw [hremote] at hrel
    cases hrel with
    | some hall =>
      cases hall with
      | nil => rfl
      | cons hai hrest => exact ⟨_, hai, rfl⟩

end ContactFile

/-! ### A router that is started twice -/

/-- A key that is made of one byte and written well. -/
def plainKey (b : UInt8) : KeyInput where
  fresh := List.Vector.replicate 64 b
  memory := zeroBlob 64
  outcome := .saved
  readable := true

/-- A link with a port. -/
def plainLink (b : UInt8) : LinkInput :=
  { key := plainKey b, bound := true, ip := zeroBlob 16, port := 1090 }

/-- A start with one link, which would make its keys of the byte `b`. -/
def plainStart (b : UInt8) : StartInput where
  inbound := [plainLink b]
  outbound := (plainLink b, plainLink b)
  encryption := plainKey b
  identity := plainKey b
  contact := .saved

/-- Four files. -/
def plainFiles : RouterFiles := ⟨[[1]], [[2]], [[3]], [[4]]⟩

lemma plainFiles_apart : plainFiles.Apart := ⟨by decide, by decide, by decide⟩

lemma plainKey_clean (b : UInt8) (left : Bytes) : (plainKey b).outcome ≠ .failed (some left) :=
  fun h => by cases h

lemma plainStart_clean (b : UInt8) : (plainStart b).Clean := by
  intro k hk
  have hkey : k = plainKey b := by simpa [StartInput.keys, plainStart, plainLink] using hk
  rw [hkey]
  exact plainKey_clean b

/-- Two starts on an empty disk. -/
def plainRun : Disk × List (Option Started) :=
  starts RouterContact.plainHost RouterContact.headSign plainFiles [plainStart 1, plainStart 2] ∅

lemma plainRun_running : plainRun.2.map (·.map (·.running)) = [some true, some true] := by
  decide +kernel

theorem keys_survive_restarts_plain : ∃ st st' : Started,
    plainRun.2 = [some st, some st'] ∧ st.identity = st'.identity := by
  have hlen : ∃ st st', plainRun.2 = [some st, some st'] := by
    obtain ⟨o, rest, ho, hst, hrest⟩ := List.map_eq_cons_iff.mp plainRun_running
    obtain ⟨o', rest', ho', hst', hnil⟩ := List.map_eq_cons_iff.mp hrest
    obtain ⟨st, rfl, -⟩ := Option.map_eq_some_iff.mp hst
    obtain ⟨st', rfl, -⟩ := Option.map_eq_some_iff.mp hst'
    rw [List.map_eq_nil_iff.mp hnil] at ho'
    exact ⟨st, st', by rw [ho, ho']⟩
  obtain ⟨st, st', heq⟩ := hlen
  refine ⟨st, st', heq, ?_⟩
  have hclean (s : StartInput) (hs : s ∈ [plainStart 1, plainStart 2]) : s.Clean := by
    simp only [List.mem_cons, List.not_mem_nil, or_false] at hs
    rcases hs with rfl | rfl <;> exact plainStart_clean _
  refine (keys_survive_restarts RouterContact.plainHost RouterContact.headSign plainFiles
    plainFiles_apart ∅ (fun q _ hin => by cases hin) _ hclean st st' ?_ ?_).1
  · change some st ∈ plainRun.2
    rw [heq]
    exact List.mem_cons_self
  · change some st' ∈ plainRun.2
    rw [heq]
    exact List.mem_cons_of_mem _ List.mem_cons_self

theorem contact_file_connects_plain : ∃ (pubkey : PubKey) (ai : AddressInfo),
    Router.lonelyRouter.tryConnectFile RouterContact.plainHost RouterContact.zeroMemory
      { contents := plainRun.1.lookup plainFiles.ourRCFile } =
        some (Router.lonelyRouter.establish pubkey ai 10) := by
  have hsome : (lastRunning plainRun.2).map (fun st => (st.rc.addrs.getD []).length) = some 1 := by
    decide +kernel
  obtain ⟨st, hlast, hlength⟩ := Option.map_eq_some_iff.mp hsome
  have hmem (s : StartInput) (hs : s ∈ [plainStart 1, plainStart 2]) :
      ∃ b, s = plainStart b := by
    simp only [List.mem_cons, List.not_mem_nil, or_false] at hs
    rcases hs with rfl | rfl <;> exact ⟨_, rfl⟩
  have hconnect := (contact_file_connects RouterContact.plainHost RouterContact.plainHost_lawful
    RouterContact.zeroMemory RouterContact.headSign plainFiles plainFiles_apart ∅
    [plainStart 1, plainStart 2] (fun s hs l hl => ?_) (fun s hs left h => ?_) st hlast
    Router.lonelyRouter fun _ => 0).2 (by simp [Router.lonelyRouter])
  · cases haddrs : st.rc.addrs.getD [] with
    | nil =>
      rw [haddrs] at hlength
      cases hlength
    | cons ai rest =>
      rw [haddrs] at hconnect
      obtain ⟨ai', -, hai⟩ := hconnect
      exact ⟨_, ai', hai⟩
  · obtain ⟨b, rfl⟩ := hmem s hs
    rw [List.mem_singleton.mp hl]
    change (1090 : UInt16) ≠ 0
    decide
  · obtain ⟨b, rfl⟩ := hmem s hs
    cases h

end Udap
