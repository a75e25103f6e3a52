import Udap.Bencode.Keys
import Udap.ContactSignature
import Udap.LinkCodec
import Udap.Path.CommitRecord

/-!
The keys that the decoders of dictionaries let through.

Every decoder declares keys of one character and tests them with `udap_buffer_eq`, so that it looks
at the first byte of a key only.

* `Dictionary`, `Dictionary.Rejects`: the decoders, and that one of them rejects every dictionary in
  which a key occurs where it is not declared.
* `Dictionary.rejects_iff`: each rejects exactly the keys that do not go on behind a declared one.
-/

namespace Udap

open ByteMem

/-! ### Address entries, exit entries and contacts -/

namespace AddressInfo

/-- The keys that `udap_ai_decode_key` declares. -/
def keys : List Char := ['c', 'd', 'e', 'i', 'p', 'v']

variable {lib : HostLib}

lemma takesKeys (lib : HostLib) : TakesKeys (decodeKey lib) (fun _ => keys) keys := by
  refine takesKeys_of_refused (fun _ => keys) (fun _ c hc => ⟨hc, hc⟩) ?_
  intro key ai b hno
  simp only [keys, List.forall_mem_cons] at hno
  simp [decodeKey, hno, Reader.bad]

lemma looksAtFirst (lib : HostLib) : LooksAtFirst (decodeKey lib) := by
  intro x rest
  simp only [decodeKey, isKey_cons]

lemma rejectsKey (h : lib.Lawful) (ai : AddressInfo) (key : Bytes) :
    RejectsKey (decodeKey lib) (fun _ => keys) ai key ↔ ¬ Overlong keys key := by
  refine rejectsKey_iff (takesKeys lib) (looksAtFirst lib) (fun _ _ => rfl) ?_
  have hone : checkedPort (UInt64.ofNat 1) = some 1 := by decide
  have htext := (h.textOf (zeroBlob 16)).2.1
  simp only [keys, List.forall_mem_cons, List.not_mem_nil, false_imp_iff, implies_true, and_true]
  refine ⟨takes_integer 1 (by norm_num) fun ai => ?_, takes_string [] (by norm_num) fun _ => rfl,
    takes_blob (n := 32) (by norm_num) fun (ai : AddressInfo) k => { ai with encKey := k },
    takes_string (lib.textOf (zeroBlob 16)) (by omega) fun ai => ?_,
    takes_integer 1 (by norm_num) fun ai => ?_, takes_version⟩
  · rw [hone]
    rfl
  · rw [if_neg (by omega), pton_cString h]
    rfl
  · rw [hone]
    rfl

end AddressInfo

namespace ExitInfo

/-- The keys that `udap_xi_decode_dict` declares. -/
def keys : List Char := ['a', 'b', 'k', 'v']

variable {lib : HostLib}

lemma takesKeys (lib : HostLib) : TakesKeys (decodeDict lib) (fun _ => keys) keys := by
  refine takesKeys_of_refused (fun _ => keys) (fun _ c hc => ⟨hc, hc⟩) ?_
  intro key xi b hno
  simp only [keys, List.forall_mem_cons] at hno
  simp [decodeDict, hno, Reader.bad]

lemma looksAtFirst (lib : HostLib) : LooksAtFirst (decodeDict lib) := by
  intro x rest
  simp only [decodeDict, isKey_cons]

lemma rejectsKey (h : lib.Lawful) (xi : ExitInfo) (key : Bytes) :
    RejectsKey (decodeDict lib) (fun _ => keys) xi key ↔ ¬ Overlong keys key := by
  refine rejectsKey_iff (takesKeys lib) (looksAtFirst lib) (fun _ _ => rfl) ?_
  have htext := (h.textOf (zeroBlob 16)).2.1
  simp only [keys, List.forall_mem_cons, List.not_mem_nil, false_imp_iff, implies_true, and_true]
  refine ⟨takes_string (lib.textOf (zeroBlob 16)) (by omega) fun xi => ?_,
    takes_string (lib.textOf (zeroBlob 16)) (by omega) fun xi => ?_,
    takes_blob (n := 32) (by norm_num) fun (xi : ExitInfo) k => { xi with pubkey := k },
    takes_version⟩
  all_goals
    rw [if_neg (by omega), pton_cString h]
    rfl

end ExitInfo

namespace RouterContact

/-- The keys that `udap_rc_decode_dict` declares. -/
def keys : List Char := ['a', 'k', 'p', 'u', 'v', 'x', 'z']

lemma takesKeys (lib : HostLib) (u : Uninit) :
    TakesKeys (decodeDict lib u) (fun _ => keys) keys := by
  refine takesKeys_of_refused (fun _ => keys) (fun _ c hc => ⟨hc, hc⟩) ?_
  intro key rc b hno
  simp only [keys, List.forall_mem_cons] at hno
  simp [decodeDict, hno, Reader.bad]

lemma looksAtFirst (lib : HostLib) (u : Uninit) : LooksAtFirst (decodeDict lib u) := by
  intro x rest
  simp only [decodeDict, isKey_cons]

lemma rejectsKey (lib : HostLib) (u : Uninit) (rc : RouterContact) (key : Bytes) :
    RejectsKey (decodeDict lib u) (fun _ => keys) rc key ↔ ¬ Overlong keys key := by
  refine rejectsKey_iff (takesKeys lib u) (looksAtFirst lib u) (fun _ _ => rfl) ?_
  simp only [keys, List.forall_mem_cons, List.not_mem_nil, false_imp_iff, implies_true, and_true]
  have haddrs : Takes (aiListBdecode lib u) := takes_emptyList fun _ _ => rfl
  have hexits : Takes (xiListBdecode lib) := takes_bencodeReadList
  exact ⟨haddrs.part (f := fun (rc : RouterContact) l => { rc with addrs := some l }),
    takes_blob (n := 32) (by norm_num) fun (rc : RouterContact) k => { rc with pubkey := k },
    takes_blob (n := 32) (by norm_num) fun (rc : RouterContact) k => { rc with enckey := k },
    takes_readInteger.part, takes_version,
    hexits.part (f := fun (rc : RouterContact) l => { rc with exits := some l }),
    takes_blob (n := 64) (by norm_num) fun (rc : RouterContact) sig => { rc with signature := sig }⟩

end RouterContact

/-! ### Records -/

namespace LRCommitRecord

/-- The keys that `LR_CommitRecord::OnKey` declares. -/
def declaredKeys : List Char := ['c', 'i', 'n', 'r', 't', 'v', 'w']

/-- Those under which there can be a value: a proof of work does not decode. -/
def keys : List Char := ['c', 'i', 'n', 'r', 't', 'v']

lemma takesKeys : TakesKeys onKey (fun _ => declaredKeys) keys := by
  refine takesKeys_of_refused (fun _ => keys)
    (fun _ c hc => ⟨hc, List.mem_append_left ['w'] hc⟩) ?_
  intro key r b hno
  simp only [keys, List.forall_mem_cons] at hno
  cases hw : isKey key 'w' <;> simp [onKey, hno, hw, Reader.bad]

lemma looksAtFirst : LooksAtFirst onKey := by
  intro x rest
  simp only [onKey, isKey_cons]

lemma rejectsKey (r : LRCommitRecord) (key : Bytes) :
    RejectsKey onKey (fun _ => declaredKeys) r key ↔ ¬ Overlong keys key := by
  refine rejectsKey_iff takesKeys looksAtFirst (fun _ _ => rfl) ?_
  simp only [keys, List.forall_mem_cons, List.not_mem_nil, false_imp_iff, implies_true, and_true]
  exact ⟨⟨_, fun x => ⟨_, reads_commkey x r⟩⟩, ⟨_, fun x => ⟨_, reads_nextHop x r⟩⟩,
    ⟨_, fun x => ⟨_, reads_tunnelNonce x r⟩⟩, ⟨_, fun x => ⟨_, reads_rxid x r⟩⟩,
    ⟨_, fun x => ⟨_, reads_txid x r⟩⟩, takes_version⟩

end LRCommitRecord

/-! ### Link messages -/

/-- The keys that `DecodeKey` of the message declares. -/
def LinkMsg.declaredKeys : LinkMsg → List Char
  | intro => ['r', 'v']
  | relayDownstream _ => ['p', 'v', 'x', 'y']
  | relayUpstream _ => ['p', 'v', 'x', 'y']
  | dhtImmediate _ _ => ['m', 'v']
  | lrAck _ => []
  | lrCommit _ _ => ['c', 'v']
  | discard _ _ => ['v', 'z']

namespace InboundMessageParser

variable {ρ : Type}

/-- The keys that are declared where the parser is: the type first, and then those of the
message. -/
def declaredKeys (p : InboundMessageParser ρ) : List Char :=
  if p.firstkey then ['a']
  else
    match p.msg with
    | none => []
    | some msg => msg.declaredKeys

/-- All keys that are declared somewhere. -/
def keys : List Char := ['a', 'r', 'v', 'p', 'x', 'y', 'm', 'c', 'z']

variable {lib : HostLib} {u : Uninit} {handle : Handler ρ} {p : InboundMessageParser ρ}
  {key : Bytes} {msg : LinkMsg} {b : Buffer}

/-- The messages look at the first byte of a key only. -/
lemma decodeKey_cons (x : UInt8) (rest : Bytes) (msg : LinkMsg) :
    (decodeKey lib u (x :: rest) msg : Reader (InboundMessageParser ρ)) =
      decodeKey lib u [x] msg := by
  cases msg <;> simp only [decodeKey, introDecodeKey, RelayMessage.decodeKey, isKey_cons]

lemma decodeKey_refused (hno : ∀ c ∈ msg.declaredKeys, isKey key c = false) :
    (decodeKey lib u key msg p b).2 = none := by
  cases msg <;>
    simp only [LinkMsg.declaredKeys, List.forall_mem_cons] at hno <;>
    simp [decodeKey, introDecodeKey, RelayMessage.decodeKey, hno, Reader.part, Reader.bad]

lemma declaredKeys_subset (p : InboundMessageParser ρ) : p.declaredKeys ⊆ keys := by
  rw [declaredKeys]
  split_ifs
  · simp [keys]
  · split
    · exact List.nil_subset _
    · rename_i msg _
      cases msg <;> simp [keys, LinkMsg.declaredKeys]

lemma takesKeys (lib : HostLib) (u : Uninit) (handle : Handler ρ) :
    TakesKeys (onKey lib u handle) declaredKeys keys := by
  refine takesKeys_of_refused declaredKeys (fun p c hc => ⟨p.declaredKeys_subset hc, hc⟩) ?_
  intro key p b hno
  rw [declaredKeys] at hno
  simp only [onKey]
  split_ifs with hfirst hkey
  · rw [if_pos hfirst] at hno
    rw [hno 'a' (List.mem_singleton_self _)] at hkey
    cases hkey
  · rfl
  · rw [if_neg hfirst] at hno
    cases hm : p.msg with
    | none => rfl
    | some msg =>
        rw [hm] at hno
        exact decodeKey_refused hno

/-- A message is being read. -/
structure Pending (p : InboundMessageParser ρ) : Prop where
  firstkey : p.firstkey = false
  msg : p.msg ≠ none

/-- The dictionary may end where the message is taken. -/
lemma Pending.onKey_end (h : p.Pending) (hok : ∀ router msg, (handle router msg).2.1 = true)
    (b : Buffer) : ∃ p', onKey lib u handle none p b = (p', some b) := by
  obtain ⟨msg, hmsg⟩ := Option.ne_none_iff_exists'.mp h.msg
  have hverdict : (handleMessage handle p.router msg).2.1 = true := by
    cases msg with
    | intro | discard => rfl
    | _ => exact hok _ _
  refine ⟨(p.messageDone handle).1, ?_⟩
  have hresult : (p.messageDone handle).2 = true := by
    rw [messageDone, hmsg]
    exact hverdict
  simp only [onKey, h.firstkey, Bool.false_eq_true, if_false]
  rw [hresult]
  rfl

/-- A message that is decoded in a part is still being read behind an entry. -/
lemma pending_message {β : Type} {C : β → LinkMsg} {x : β} {r : Reader β} (h : Takes r)
    (hdec : decodeKey lib u key msg = .part (fun _ => x)
      (fun (p : InboundMessageParser ρ) y => { p with msg := some (C y) }) r) :
    ∃ s, Reads (decodeKey lib u key msg) (p.reading msg) s Pending := by
  obtain ⟨s, hs⟩ := h
  obtain ⟨P, hread⟩ := hs x
  rw [hdec]
  refine ⟨s, hread.part.imp ?_⟩
  rintro _ ⟨y, -, rfl⟩
  exact ⟨rfl, Option.some_ne_none _⟩

/-- And so is a link introduction, which is decoded into the contact. -/
lemma pending_intro (h : Takes (introDecodeKey lib u key)) :
    ∃ s, Reads (decodeKey lib u key .intro) (p.reading .intro) s Pending := by
  obtain ⟨s, hs⟩ := h
  obtain ⟨P, hread⟩ := hs p.remoteRouter
  have hpart := Reads.part (a := p.reading .intro)
    (g := fun q : InboundMessageParser ρ => q.remoteRouter)
    (f := fun (q : InboundMessageParser ρ) rc => { q with remoteRouter := rc }) hread
  refine ⟨s, hpart.imp ?_⟩
  rintro _ ⟨rc, -, rfl⟩
  exact ⟨rfl, Option.some_ne_none _⟩

section Admitted

variable (hok : ∀ router msg, (handle router msg).2.1 = true)
include hok

/-- An entry of a message behind its type. -/
lemma admits_entry (type : Char) (hlen : key.length < 10 ^ 9)
    (hnew : newMessage u p [ascii type] = some msg)
    (h : ∃ s, Reads (decodeKey lib u key msg) (p.reading msg) s Pending) :
    ∃ s, Admits (onKey lib u handle) key { p with firstkey := true } s := by
  obtain ⟨s, hread⟩ := h
  have htype : Reads (onKey lib u handle (some [ascii 'a'])) { p with firstkey := true }
      (strBytes [ascii type]) (· = p.reading msg) := reads_type (by norm_num) hnew
  have hlast : ∀ p', p' = p.reading msg →
      Admits (onKey lib u handle) key p' (strBytes key ++ s ++ [ascii 'e']) := by
    rintro _ rfl
    exact .last hlen (reads_entry hread) fun p' hp' => hp'.onKey_end hok
  exact ⟨_, .behind (by norm_num) htype hlast⟩

/-- A type under a key that goes on behind that of the type. -/
lemma admits_type {rest : Bytes} (hlen : (ascii 'a' :: rest).length < 10 ^ 9) :
    ∃ s, Admits (onKey lib u handle) (ascii 'a' :: rest) { p with firstkey := true } s := by
  have htype : Reads (onKey lib u handle (some [ascii 'a'])) { p with firstkey := true }
      (strBytes [ascii 'z']) (· = p.reading (.discard p.getCurrentFrom [])) :=
    reads_type (by norm_num) rfl
  have hread : Reads (onKey lib u handle (some (ascii 'a' :: rest))) { p with firstkey := true }
      (strBytes [ascii 'z']) (· = p.reading (.discard p.getCurrentFrom [])) := by
    intro b hb
    obtain ⟨p', hp', rfl⟩ := htype b hb
    refine ⟨_, ?_, rfl⟩
    rw [← hp']
    simp only [onKey, isKey_cons, if_true]
  refine ⟨_, .last hlen hread ?_⟩
  rintro _ rfl
  have hpending : (p.reading (.discard p.getCurrentFrom [])).Pending :=
    ⟨rfl, Option.some_ne_none _⟩
  exact hpending.onKey_end hok

lemma admits (c : Char) (hc : c ∈ keys) (rest : Bytes)
    (hlen : (ascii c :: rest).length < 10 ^ 9) :
    ∃ s, Admits (onKey lib u handle) (ascii c :: rest) { p with firstkey := true } s := by
  have hentry {c : Char} (type : Char) {msg : LinkMsg}
      (hnew : newMessage u p [ascii type] = some msg)
      (h : ∃ s, Reads (decodeKey lib u [ascii c] msg) (p.reading msg) s Pending)
      (hlen : (ascii c :: rest).length < 10 ^ 9) :
      ∃ s, Admits (onKey lib u handle) (ascii c :: rest) { p with firstkey := true } s :=
    admits_entry hok type hlen hnew (by rwa [decodeKey_cons])
  have hcontact : Takes (introDecodeKey lib u [ascii 'r']) := takes_emptyDict fun _ _ => rfl
  have hversion : Takes (introDecodeKey lib u [ascii 'v']) := takes_version
  have hpathid : Takes (RelayMessage.decodeKey [ascii 'p']) :=
    takes_blob (n := 16) (by norm_num) fun (m : RelayMessage) i => { m with pathid := i }
  have hbytes : Takes encryptedBdecode := takes_string [0] (by norm_num) fun _ => rfl
  have hX : Takes (RelayMessage.decodeKey [ascii 'x']) :=
    hbytes.part (f := fun (m : RelayMessage) d => { m with X := d })
  have hY : Takes (RelayMessage.decodeKey [ascii 'y']) :=
    takes_blob (n := 32) (by norm_num) fun (m : RelayMessage) y => { m with Y := y }
  have hmsgs : Takes (Dht.decodeMesssageList lib u p.getCurrentFrom) :=
    takes_emptyList fun _ _ => rfl
  have hframes : Takes (bencodeReadList (List.replicate 352 0) encryptedBdecode) :=
    takes_bencodeReadList
  have hpad : Takes (.string fun (_ : Bytes) str =>
      if str.length > maxDiscardSize then none else some str) :=
    takes_string [] (by norm_num) fun _ => rfl
  simp only [keys, List.mem_cons, List.not_mem_nil, or_false] at hc
  obtain rfl | rfl | rfl | rfl | rfl | rfl | rfl | rfl | rfl := hc
  · exact admits_type hok hlen
  · exact hentry 'i' rfl (pending_intro hcontact) hlen
  · exact hentry 'i' rfl (pending_intro hversion) hlen
  · exact hentry 'u' rfl (pending_message (C := .relayUpstream) hpathid rfl) hlen
  · exact hentry 'u' rfl (pending_message (C := .relayUpstream) hX rfl) hlen
  · exact hentry 'u' rfl (pending_message (C := .relayUpstream) hY rfl) hlen
  · exact hentry 'm' rfl (pending_message (C := .dhtImmediate _) hmsgs rfl) hlen
  · exact hentry 'c' rfl (pending_message (C := .lrCommit _) hframes rfl) hlen
  · exact hentry 'z' rfl (pending_message (C := .discard _) hpad rfl) hlen

end Admitted

lemma rejectsKey (lib : HostLib) (u : Uninit) (key : Bytes) :
    (∀ (ρ : Type) (handle : Handler ρ) (p : InboundMessageParser ρ),
      RejectsKey (onKey lib u handle) declaredKeys { p with firstkey := true } key) ↔
        ¬ Overlong keys key := by
  constructor
  · intro hrejects hkey
    -- the messages are given to a router that takes all of them
    let handle : Handler Unit := fun router _ => (router, true, [])
    let p : InboundMessageParser Unit :=
      { firstkey := true, msg := none, remoteRouter := {}, router := () }
    refine (rejectsKey_iff_of_admits (takesKeys lib u handle) ?_).mp (hrejects Unit handle p) hkey
    exact admits fun _ _ => rfl
  · intro hno ρ handle p
    exact (takesKeys lib u handle).rejectsKey hno _

end InboundMessageParser

/-! ### Messages of the DHT -/

namespace Dht

/-- The keys that `DecodeKey` of the message declares. -/
def Message.declaredKeys : Message → List Char
  | findRouter _ => ['I', 'K', 'T', 'V']
  | gotRouter _ => ['R', 'T', 'V']

/-- The messages look at the first byte of a key only. -/
lemma FindRouterMessage.decodeKey_cons (x : UInt8) (rest : Bytes) :
    decodeKey (x :: rest) = decodeKey [x] := by
  simp only [decodeKey, isKey_cons]

lemma GotRouterMessage.decodeKey_cons (lib : HostLib) (u : Uninit) (x : UInt8) (rest : Bytes) :
    decodeKey lib u (x :: rest) = decodeKey lib u [x] := by
  simp only [decodeKey, isKey_cons]

namespace MessageDecoder

/-- The keys that are declared where the decoder is: the type first, and then those of the
message. -/
def declaredKeys (dec : MessageDecoder) : List Char :=
  if dec.firstKey then ['A']
  else
    match dec.msg with
    | none => []
    | some msg => msg.declaredKeys

/-- All keys that are declared somewhere. -/
def keys : List Char := ['A', 'I', 'K', 'T', 'V', 'R']

variable {lib : HostLib} {u : Uninit} {From : PubKey} {key : Bytes}

lemma declaredKeys_subset (dec : MessageDecoder) : dec.declaredKeys ⊆ keys := by
  rw [declaredKeys]
  split_ifs
  · simp [keys]
  · split
    · exact List.nil_subset _
    · rename_i msg _
      cases msg <;> simp [keys, Message.declaredKeys]

lemma takesKeys (lib : HostLib) (u : Uninit) (From : PubKey) :
    TakesKeys (onKey lib u From) declaredKeys keys := by
  refine takesKeys_of_refused declaredKeys (fun dec c hc => ⟨dec.declaredKeys_subset hc, hc⟩) ?_
  intro key dec b hno
  obtain ⟨firstKey, msg⟩ := dec
  cases firstKey with
  | true =>
      have hfirst : isKey key 'A' = false := hno 'A' (List.mem_singleton_self _)
      simp [onKey, hfirst]
  | false =>
      cases msg with
      | none => rfl
      | some msg =>
          cases msg with
          | findRouter m =>
              simp only [declaredKeys, Message.declaredKeys, Bool.false_eq_true, if_false,
                List.forall_mem_cons] at hno
              simp [onKey, FindRouterMessage.decodeKey, hno, Reader.part, Reader.bad]
          | gotRouter m =>
              simp only [declaredKeys, Message.declaredKeys, Bool.false_eq_true, if_false,
                List.forall_mem_cons] at hno
              simp [onKey, GotRouterMessage.decodeKey, hno, Reader.part, Reader.bad]

/-- Behind the type a dictionary may end. -/
lemma onKey_end {dec : MessageDecoder} (h : dec.firstKey = false) (b : Buffer) :
    onKey lib u From none dec b = (dec, some b) := by
  simp [onKey, h]

/-- An entry of a message behind its type; each message is decoded in a part. -/
lemma admits_entry {β : Type} (type : Char) {C : β → Message} {x : ℕ → β} {r : Reader β}
    (hlen : key.length < 10 ^ 9)
    (hnew : ∀ cur, newMessage u From cur [ascii type] = some (C (x cur)))
    (hdec : ∀ x b, onKey lib u From (some key) ⟨false, some (C x)⟩ b =
      Reader.part (fun _ => x) (fun (dec : MessageDecoder) m => { dec with msg := some (C m) }) r
        ⟨false, some (C x)⟩ b)
    (h : Takes r) : ∃ s, Admits (onKey lib u From) key {} s := by
  obtain ⟨s, hs⟩ := h
  have htype : Reads (onKey lib u From (some [ascii 'A'])) {} (strBytes [ascii type])
      fun dec => ∃ cur, dec = ⟨false, some (C (x cur))⟩ :=
    reads_onKey_type (by norm_num) fun cur => ⟨C (x cur), hnew cur, cur, rfl⟩
  have hlast : ∀ dec : MessageDecoder, (∃ cur, dec = ⟨false, some (C (x cur))⟩) →
      Admits (onKey lib u From) key dec (strBytes key ++ s ++ [ascii 'e']) := by
    rintro _ ⟨cur, rfl⟩
    obtain ⟨P, hread⟩ := hs (x cur)
    have hentry : Reads (onKey lib u From (some key)) ⟨false, some (C (x cur))⟩ s
        fun dec => ∃ m, P m ∧ dec = ⟨false, some (C m)⟩ := by
      intro b hb
      rw [hdec]
      exact Reads.part (g := fun _ => x cur) (a := MessageDecoder.mk false (some (C (x cur))))
        (f := fun (dec : MessageDecoder) m => { dec with msg := some (C m) }) hread b hb
    refine .last hlen hentry ?_
    rintro _ ⟨m, -, rfl⟩ b
    exact ⟨_, onKey_end rfl b⟩
  exact ⟨_, .behind (by norm_num) htype hlast⟩

/-- A type under a key that goes on behind that of the type. -/
lemma admits_type {rest : Bytes} (hlen : (ascii 'A' :: rest).length < 10 ^ 9) :
    ∃ s, Admits (onKey lib u From) (ascii 'A' :: rest) {} s := by
  have htype : Reads (onKey lib u From (some [ascii 'A'])) {} (strBytes [ascii 'S'])
      fun dec => dec.firstKey = false :=
    reads_onKey_type (by norm_num) fun _ => ⟨.gotRouter { From := From }, rfl, rfl⟩
  have hread : Reads (onKey lib u From (some (ascii 'A' :: rest))) {} (strBytes [ascii 'S'])
      fun dec => dec.firstKey = false := by
    intro b hb
    obtain ⟨dec, hdec⟩ := htype b hb
    refine ⟨dec, ?_⟩
    simpa only [onKey, isKey_cons] using hdec
  exact ⟨_, .last hlen hread fun dec hdec b => ⟨dec, onKey_end hdec b⟩⟩

lemma rejectsKey (lib : HostLib) (u : Uninit) (From : PubKey) (key : Bytes) :
    RejectsKey (onKey lib u From) declaredKeys {} key ↔ ¬ Overlong keys key := by
  refine rejectsKey_iff_of_admits (takesKeys lib u From) ?_
  have hfind {c : Char} (h : Takes (FindRouterMessage.decodeKey [ascii c])) (rest : Bytes)
      (hlen : (ascii c :: rest).length < 10 ^ 9) :
      ∃ s, Admits (onKey lib u From) (ascii c :: rest) {} s := by
    rw [← FindRouterMessage.decodeKey_cons _ rest] at h
    exact admits_entry 'R' (x := fun cur => { From := From, K := u.key cur }) hlen
      (fun _ => rfl) (fun _ _ => rfl) h
  have hgot {c : Char} (h : Takes (GotRouterMessage.decodeKey lib u [ascii c])) (rest : Bytes)
      (hlen : (ascii c :: rest).length < 10 ^ 9) :
      ∃ s, Admits (onKey lib u From) (ascii c :: rest) {} s := by
    rw [← GotRouterMessage.decodeKey_cons _ _ _ rest] at h
    exact admits_entry 'S' (x := fun _ => { From := From }) hlen (fun _ => rfl) (fun _ _ => rfl) h
  have hiterative : Takes (FindRouterMessage.decodeKey [ascii 'I']) :=
    takes_integer (f := fun (m : FindRouterMessage) i => some { m with iterative := i ≠ 0 }) 0
      (by norm_num) fun _ => rfl
  have htarget : Takes (FindRouterMessage.decodeKey [ascii 'K']) :=
    takes_blob (n := 32) (by norm_num) fun (m : FindRouterMessage) k => { m with K := k }
  have htxid : Takes (FindRouterMessage.decodeKey [ascii 'T']) :=
    takes_readInteger.part (f := fun (m : FindRouterMessage) t => { m with txid := t })
  have hversion : Takes (FindRouterMessage.decodeKey [ascii 'V']) :=
    takes_readInteger.part (f := fun (m : FindRouterMessage) v => { m with version := v })
  have hlist : Takes (bencodeReadList {} (RouterContact.bdecode lib u)) := takes_bencodeReadList
  have hrouters : Takes (GotRouterMessage.decodeKey lib u [ascii 'R']) :=
    hlist.part (g := fun m : GotRouterMessage => m.R)
      (f := fun (m : GotRouterMessage) l => { m with R := l })
  simp only [keys, List.forall_mem_cons, List.not_mem_nil, false_imp_iff, implies_true, and_true]
  exact ⟨fun rest => admits_type, hfind hiterative, hfind htarget, hfind htxid, hfind hversion,
    hgot hrouters⟩

end MessageDecoder

end Dht

/-! ### All of them -/

/-- The dictionaries whose keys are tested with `udap_buffer_eq`. -/
inductive Dictionary where
  | link
  | dht
  | record
  | contact
  | address
  | exit

namespace Dictionary

/-- The keys that are declared and under which there can be a value. -/
def keys : Dictionary → List Char
  | link => InboundMessageParser.keys
  | dht => Dht.MessageDecoder.keys
  | record => LRCommitRecord.keys
  | contact => RouterContact.keys
  | address => AddressInfo.keys
  | exit => ExitInfo.keys

/-- The decoder rejects every dictionary that has the key where it is not declared. -/
def Rejects (lib : HostLib) (u : Uninit) (key : Bytes) : Dictionary → Prop
  | link => ∀ (ρ : Type) (handle : InboundMessageParser.Handler ρ) (p : InboundMessageParser ρ),
      RejectsKey (InboundMessageParser.onKey lib u handle) InboundMessageParser.declaredKeys
        { p with firstkey := true } key
  | dht => ∀ From, RejectsKey (Dht.MessageDecoder.onKey lib u From)
      Dht.MessageDecoder.declaredKeys {} key
  | record => ∀ r, RejectsKey LRCommitRecord.onKey (fun _ => LRCommitRecord.declaredKeys) r key
  | contact => ∀ rc, RejectsKey (RouterContact.decodeDict lib u) (fun _ => RouterContact.keys) rc
      key
  | address => ∀ ai, RejectsKey (AddressInfo.decodeKey lib) (fun _ => AddressInfo.keys) ai key
  | exit => ∀ xi, RejectsKey (ExitInfo.decodeDict lib) (fun _ => ExitInfo.keys) xi key

/-- What does not depend on the object holds of all objects if it holds of one. -/
lemma forall_iff_of {α : Type} {P : α → Prop} {Q : Prop} (a : α) (h : ∀ a, P a ↔ Q) :
    (∀ a, P a) ↔ Q :=
  ⟨fun hall => (h a).mp (hall a), fun hq a => (h a).mpr hq⟩

/-- The declared keys are plain characters. -/
lemma ascii_of_mem_keys {d : Dictionary} {c : Char} (hc : c ∈ d.keys) :
    ascii c ≠ 0 ∧ ascii c < 128 := by
  have hall : d.keys.all (fun c => decide (ascii c ≠ 0 ∧ ascii c < 128)) = true := by
    cases d <;> decide
  exact of_decide_eq_true (List.all_eq_true.mp hall c hc)

lemma rejects_iff {lib : HostLib} (h : lib.Lawful) (u : Uninit) (key : Bytes) (d : Dictionary) :
    d.Rejects lib u key ↔ ¬ Overlong d.keys key := by
  cases d with
  | link => exact InboundMessageParser.rejectsKey lib u key
  | dht => exact forall_iff_of (u.key 0) fun From => Dht.MessageDecoder.rejectsKey lib u From key
  | record =>
      exact forall_iff_of ⟨u.key 0, u.key 0, u.nonce, u.pathid, u.pathid, false⟩ fun r =>
        r.rejectsKey key
  | contact => exact forall_iff_of {} fun rc => rc.rejectsKey lib u key
  | address => exact forall_iff_of (u.ai 0) fun ai => ai.rejectsKey h key
  | exit => exact forall_iff_of {} fun xi => xi.rejectsKey h key

end Dictionary

/-- The comparison is exact unless the buffer goes on behind the string; of a key and a declared one
it looks only at the first character; and the decoders reject all keys but those that go on behind a
declared one. -/
theorem keys_compared_iff {lib : HostLib} (h : lib.Lawful) (u : Uninit) (signed : Bool)
    (b : Buffer) (str : Bytes) (d : Dictionary) (key : Bytes) :
    (b.ComparesExactly signed str ↔
      (Plain signed (cString str) → ¬ b.GoesOn (cString str)) ∧
        (¬ Plain signed (cString str) → b.bytes b.sizeLeft ≠ cString str)) ∧
      (∀ c ∈ d.keys, ∀ after, (Buffer.ofBytes key after).eq signed [ascii c] = isKey key c) ∧
      (d.Rejects lib u key ↔ ¬ Overlong d.keys key) := by
  refine ⟨Buffer.comparesExactly_iff, fun c hc after => ?_, Dictionary.rejects_iff h u key d⟩
  obtain ⟨hne, hlt⟩ := Dictionary.ascii_of_mem_keys hc
  exact Buffer.eq_ofBytes signed key after hne hlt

/-- A version entry of an address. -/
theorem keys_compared_iff_version :
    ((Buffer.ofBytes [118] fun _ => 0).ComparesExactly true [118] ↔
      (Plain true (cString [118]) → ¬ (Buffer.ofBytes [118] fun _ => 0).GoesOn (cString [118])) ∧
        (¬ Plain true (cString [118]) → (Buffer.ofBytes [118] fun _ => 0).bytes
          (Buffer.ofBytes [118] fun _ => 0).sizeLeft ≠ cString [118])) ∧
      (∀ c ∈ AddressInfo.keys, ∀ after,
        (Buffer.ofBytes [118, 120] after).eq true [ascii c] = isKey [118, 120] c) ∧
      (Dictionary.address.Rejects RouterContact.plainHost RouterContact.zeroMemory [118, 120] ↔
        ¬ Overlong AddressInfo.keys [118, 120]) :=
  keys_compared_iff RouterContact.plainHost_lawful RouterContact.zeroMemory true _ [118] .address
    [118, 120]

/-- An address whose version is under the key `vx`. -/
def overlongVersion : Bytes := [100, 50, 58, 118, 120, 105, 48, 101, 101]

/-- It is decoded, as the key is taken for `v`. -/
theorem not_keys_compared :
    ¬ (Buffer.ofBytes [118, 120] fun _ => 0).ComparesExactly true [118] ∧
      ¬ Dictionary.address.Rejects RouterContact.plainHost RouterContact.zeroMemory [118, 120] := by
  constructor
  · rw [Buffer.ComparesExactly]
    decide
  · intro hrejects
    let b : Buffer := .ofBytes overlongVersion fun _ => 0
    let ai : AddressInfo := RouterContact.zeroMemory.ai 0
    let onKey := AddressInfo.decodeKey RouterContact.plainHost
    have hkeys : (readCalls onKey ai b).map (·.key) = [some [118, 120], none] := by
      decide +kernel
    have hmem : some [118, 120] ∈ (readCalls onKey ai b).map (·.key) := by
      rw [hkeys]
      exact List.mem_cons_self
    obtain ⟨call, hcall, hkey⟩ := List.mem_map.mp hmem
    have hundeclared : Undeclared AddressInfo.keys [118, 120] := fun c _ h =>
      absurd (congrArg List.length h) (by simp)
    have haccepted : (readDict onKey ai b).2.isSome = true := by decide +kernel
    rw [hrejects ai b ⟨call, hcall, hkey, hundeclared⟩] at haccepted
    cases haccepted

end Udap
