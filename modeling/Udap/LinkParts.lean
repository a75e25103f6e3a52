import Udap.Bencode.Trace
import Udap.ContactSignature
import Udap.LinkMessage

/-!
Which parts of a link message the peer has supplied when it is handled.

`OnKey` hands a message to `HandleMessage` when the dictionary ends, whatever keys it had. The
handlers read parts that no entry may have set: memory that a constructor leaves alone, an empty
payload, no frames (`LR_CommitMessage::HandleMessage` alone counts them), and the replies of an
`LR_AckMessage`, for which `DecodeKey` knows no key at all.

* `Part`, `SetBy`: a part a handler reads, and that an entry of the byte string has set it.
* `Sourced`: while a message is read, every part whose key has occurred is set by an entry.
* `complete_iff`: the handler sees no missing part exactly if the keys of all parts occur.
-/

namespace Udap

open ByteMem Iwp

/-- A part of a link message, or of the session behind a link introduction. -/
inductive Part where
  | pathid | X | Y | frames | replies | msgs | contact
  deriving DecidableEq

/-- The key under which `DecodeKey` takes the part. -/
def Part.key : Part → Option Char
  | pathid => some 'p'
  | X => some 'x'
  | Y => some 'y'
  | frames => some 'c'
  | replies => none
  | msgs => some 'm'
  | contact => some 'r'

/-- The relay message, of either direction. -/
def LinkMsg.relay? : LinkMsg → Option RelayMessage
  | relayDownstream m => some m
  | relayUpstream m => some m
  | _ => none

/-- What `HandleMessage` reads. After a link introduction `CheckRCValid` reads the contact. -/
def LinkMsg.reads : LinkMsg → List Part
  | intro => [.contact]
  | relayDownstream _ => [.pathid, .X, .Y]
  | relayUpstream _ => [.pathid, .X, .Y]
  | dhtImmediate _ _ => [.msgs]
  | lrAck _ => [.replies]
  | lrCommit _ _ => [.frames]
  | discard _ _ => []

/-- The parts of a message by its type. -/
def partsOf (type : Bytes) : List Part :=
  if type = [ascii 'i'] then [.contact]
  else if type = [ascii 'd'] then [.pathid, .X, .Y]
  else if type = [ascii 'u'] then [.pathid, .X, .Y]
  else if type = [ascii 'm'] then [.msgs]
  else if type = [ascii 'a'] then [.replies]
  else if type = [ascii 'c'] then [.frames]
  else []

/-- The entry names the part. -/
def Entry.Names (e : Entry) (part : Part) : Prop := ∃ c, part.key = some c ∧ isKey e.key c

/-- The value of a part of a relay message. -/
def RelayMessage.value (m : RelayMessage) : Part → Bytes
  | .pathid => m.pathid.1
  | .X => m.X
  | .Y => m.Y.1
  | _ => []

/-- The entry names the part, and the part of the message, or the contact `rc`, is what was decoded
from it; a list or a contact may have had a value before. -/
def SetBy (lib : HostLib) (u : Uninit) (e : Entry) (msg : LinkMsg) (rc : RouterContact)
    (part : Part) : Prop :=
  e.Names part ∧
    match part with
    | .frames => ∃ remote old, msg = .lrCommit remote
        (bencodeReadList (List.replicate 352 0) encryptedBdecode old e.value).1
    | .msgs => ∃ remote old, msg = .dhtImmediate remote
        (Dht.decodeMesssageList lib u remote old e.value).1
    | .contact => ∃ old, rc = (RouterContact.bdecode lib u old e.value).1
    | part => ∃ m b, msg.relay? = some m ∧ e.value.readString = some (m.value part, b)

/-- The reader names a part exactly if the key has its character. -/
lemma names_iff {e : Entry} (part : Part) {c : Char} (hc : part.key = some c) :
    e.Names part ↔ isKey e.key c = true := by
  refine ⟨fun ⟨d, hd, hkey⟩ => ?_, fun hkey => ⟨c, hc, hkey⟩⟩
  rwa [Option.some.inj (hc.symm.trans hd)]

namespace InboundMessageParser

variable {ρ : Type} {lib : HostLib} {u : Uninit} {handle : Handler ρ}
  {p p' : InboundMessageParser ρ} {msg : LinkMsg} {b b' : Buffer} {key : Bytes}

/-- The type of the first entry says what the handler will read. -/
lemma reads_newMessage {type : Bytes} (h : newMessage u p type = some msg) :
    msg.reads = partsOf type := by
  simp only [newMessage] at h
  simp only [partsOf]
  split_ifs at h ⊢ <;> obtain rfl := Option.some.inj h <;> rfl

/-! ### One entry -/

/-- What the decode of an entry does to the message and the contact: it sets the part that the
entry names, and no other. -/
structure Decoded (lib : HostLib) (u : Uninit) (e : Entry) (p : InboundMessageParser ρ)
    (msg : LinkMsg) (p' : InboundMessageParser ρ) : Prop where
  firstkey : p'.firstkey = p.firstkey
  dispatched : p'.dispatched = p.dispatched
  msg : ∃ msg', p'.msg = some msg' ∧ msg'.reads = msg.reads ∧ ∀ part ∈ msg.reads,
    (e.Names part → SetBy lib u e msg' p'.remoteRouter part) ∧
    (¬ e.Names part → ∀ e', SetBy lib u e' msg p.remoteRouter part →
      SetBy lib u e' msg' p'.remoteRouter part)

/-- What a relay message decodes from an entry. -/
lemma relay_decodeKey_value {m m' : RelayMessage}
    (h : RelayMessage.decodeKey key m b = (m', some b')) :
    ∀ part ∈ [Part.pathid, .X, .Y],
      (Entry.Names ⟨key, b⟩ part → b.readString = some (m'.value part, b')) ∧
      (¬ Entry.Names ⟨key, b⟩ part → m'.value part = m.value part) := by
  simp only [List.forall_mem_cons, List.not_mem_nil, false_imp_iff, implies_true, and_true,
    names_iff .pathid rfl, names_iff .X rfl, names_iff .Y rfl]
  rw [RelayMessage.decodeKey] at h
  split_ifs at h with hp hv hx hy
  · obtain ⟨i, hs, rfl⟩ := Reader.blob_inv h
    simp [hp, isKey_eq_false (d := 'x') hp (by decide), isKey_eq_false (d := 'y') hp (by decide),
      hs, RelayMessage.value]
  · obtain rfl := Reader.version_inv h
    simp [hp, isKey_eq_false (d := 'x') hv (by decide), isKey_eq_false (d := 'y') hv (by decide)]
  · obtain ⟨x, hr, rfl⟩ := Reader.part_inv h
    obtain ⟨str, hs, hf⟩ := Reader.string_inv hr
    split_ifs at hf
    rw [Option.some.inj hf] at hs
    simp [hp, hx, isKey_eq_false (d := 'y') hx (by decide), hs, RelayMessage.value]
  · obtain ⟨y, hs, rfl⟩ := Reader.blob_inv h
    simp [hp, hx, hy, hs, RelayMessage.value]
  · cases h

/-- An entry of a relay message of either direction. -/
lemma Decoded.relay {C : RelayMessage → LinkMsg} (hC : ∀ m, (C m).relay? = some m)
    (hreads : ∀ m, (C m).reads = [.pathid, .X, .Y]) {m m' : RelayMessage}
    (h : RelayMessage.decodeKey key m b = (m', some b')) :
    Decoded lib u ⟨key, b⟩ p (C m) { p with msg := some (C m') } := by
  refine ⟨rfl, rfl, C m', rfl, by rw [hreads, hreads], fun part hpart => ?_⟩
  rw [hreads] at hpart
  obtain ⟨hnew, hold⟩ := relay_decodeKey_value h part hpart
  have hset : ∀ e m, e.Names part → (∃ b, e.value.readString = some (m.value part, b)) →
      SetBy lib u e (C m) p.remoteRouter part := by
    intro e m hnames ⟨b, hs⟩
    fin_cases hpart <;> exact ⟨hnames, m, b, hC m, hs⟩
  refine ⟨fun hnames => hset _ _ hnames ⟨b', hnew hnames⟩, fun hno e' hset' => ?_⟩
  refine hset _ _ hset'.1 ?_
  obtain ⟨m₁, b₁, hm₁, hs⟩ : ∃ m₁ b₁, (C m).relay? = some m₁ ∧
      e'.value.readString = some (m₁.value part, b₁) := by
    fin_cases hpart <;> exact hset'.2
  obtain rfl := Option.some.inj ((hC m).symm.trans hm₁)
  exact ⟨b₁, by rw [hold hno, hs]⟩

/-- A part that one reader decodes; the only other key is the version. -/
lemma single_inv {β : Type} {c : Char} {r : Reader β} {x y : β}
    (h : (if isKey key c then r else if isKey key 'v' then .version else .bad) x b =
      (y, some b')) :
    isKey key c = true ∧ y = (r x b).1 ∨ ¬ isKey key c = true ∧ y = x := by
  split_ifs at h with hc hv
  · exact .inl ⟨hc, by rw [h]⟩
  · exact .inr ⟨hc, Reader.version_inv h⟩
  · cases h

/-- A message with one part: the entry names it and sets it, or nothing changes. -/
lemma Decoded.single {part : Part} (hreads : msg.reads = [part]) (hfirst : p'.firstkey = p.firstkey)
    (hdisp : p'.dispatched = p.dispatched) {msg' : LinkMsg} (hmsg : p'.msg = some msg')
    (hreads' : msg'.reads = [part])
    (h : SetBy lib u ⟨key, b⟩ msg' p'.remoteRouter part ∨
      ¬ Entry.Names ⟨key, b⟩ part ∧ msg' = msg ∧ p'.remoteRouter = p.remoteRouter) :
    Decoded lib u ⟨key, b⟩ p msg p' := by
  refine ⟨hfirst, hdisp, msg', hmsg, by rw [hreads, hreads'], fun part' hpart => ?_⟩
  obtain rfl : part' = part := by simpa [hreads] using hpart
  obtain hset | ⟨hno, rfl, hrc⟩ := h
  · exact ⟨fun _ => hset, fun hno => absurd hset.1 hno⟩
  · exact ⟨fun hnames => absurd hnames hno, fun _ e' hset => by rwa [hrc]⟩

/-- Every successful decode of an entry sets the part that the entry names, and no other. -/
lemma decodeKey_decoded (hm : p.msg = some msg)
    (h : decodeKey lib u key msg p b = (p', some b')) : Decoded lib u ⟨key, b⟩ p msg p' := by
  cases msg with
  | intro =>
      rw [decodeKey] at h
      obtain ⟨rc, hr, rfl⟩ := Reader.part_inv h
      refine .single rfl rfl rfl hm rfl ?_
      obtain ⟨hkey, hrc⟩ | ⟨hkey, hrc⟩ := single_inv hr
      · exact .inl ⟨(names_iff _ rfl).mpr hkey, _, hrc⟩
      · exact .inr ⟨(names_iff _ rfl).not.mpr hkey, rfl, hrc⟩
  | relayDownstream m =>
      rw [decodeKey] at h
      obtain ⟨m', hr, rfl⟩ := Reader.part_inv h
      exact .relay (fun _ => rfl) (fun _ => rfl) hr
  | relayUpstream m =>
      rw [decodeKey] at h
      obtain ⟨m', hr, rfl⟩ := Reader.part_inv h
      exact .relay (fun _ => rfl) (fun _ => rfl) hr
  | dhtImmediate remote msgs =>
      rw [decodeKey] at h
      obtain ⟨msgs', hr, rfl⟩ := Reader.part_inv h
      refine .single rfl rfl rfl rfl rfl ?_
      obtain ⟨hkey, rfl⟩ | ⟨hkey, rfl⟩ := single_inv hr
      · exact .inl ⟨(names_iff _ rfl).mpr hkey, remote, _, rfl⟩
      · exact .inr ⟨(names_iff _ rfl).not.mpr hkey, rfl, rfl⟩
  | lrAck remote => cases h
  | lrCommit remote frames =>
      rw [decodeKey] at h
      obtain ⟨frames', hr, rfl⟩ := Reader.part_inv h
      refine .single rfl rfl rfl rfl rfl ?_
      obtain ⟨hkey, rfl⟩ | ⟨hkey, rfl⟩ := single_inv hr
      · exact .inl ⟨(names_iff _ rfl).mpr hkey, remote, _, rfl⟩
      · exact .inr ⟨(names_iff _ rfl).not.mpr hkey, rfl, rfl⟩
  | discard remote pad =>
      rw [decodeKey] at h
      obtain ⟨pad', -, rfl⟩ := Reader.part_inv h
      exact ⟨rfl, rfl, .discard remote pad', rfl, rfl, fun part hpart => by cases hpart⟩

/-! ### All entries -/

/-- The entries that have been read: none yet, or the type of the message first, and every part
whose key has occurred is set by one of them. -/
inductive Sourced (lib : HostLib) (u : Uninit) (D : List LinkMsg) :
    List Entry → InboundMessageParser ρ → Prop
  | start {p : InboundMessageParser ρ} : p.firstkey = true → p.dispatched = D → Sourced lib u D [] p
  | reading {p : InboundMessageParser ρ} {e : Entry} {es : List Entry} {type : Bytes} {b : Buffer}
      {msg : LinkMsg} : p.firstkey = false → p.dispatched = D →
      e.value.readString = some (type, b) → p.msg = some msg → msg.reads = partsOf type →
      (∀ part ∈ msg.reads, (∃ e' ∈ e :: es, e'.Names part) →
        ∃ e' ∈ e :: es, SetBy lib u e' msg p.remoteRouter part) →
      Sourced lib u D (e :: es) p

/-- No part is taken under the key of the type. -/
lemma not_names_type {e : Entry} (h : isKey e.key 'a' = true) (part : Part) : ¬ e.Names part := by
  rintro ⟨c, hc, hkey⟩
  have hne : ascii 'a' ≠ ascii c := by
    cases part <;> first | (obtain rfl := Option.some.inj hc; decide) | cases hc
  rw [isKey_eq_false h hne] at hkey
  cases hkey

/-- The first entry makes the message, the others set its parts. -/
lemma Sourced.entry {D : List LinkMsg} {es : List Entry} (h : Sourced lib u D es p)
    (hk : onKey lib u handle (some key) p b = (p', some b')) :
    Sourced lib u D (es ++ [⟨key, b⟩]) p' := by
  simp only [onKey] at hk
  cases h with
  | start hf hD =>
      rw [if_pos hf] at hk
      split_ifs at hk with ha
      · obtain ⟨type, hs, hnew⟩ := Reader.string_inv hk
        obtain ⟨msg, htype, rfl⟩ := Option.map_eq_some_iff.mp hnew
        refine .reading rfl hD hs rfl (reads_newMessage htype) fun part _ hsome => ?_
        obtain ⟨e', he', hnames⟩ := hsome
        rw [List.mem_singleton.mp he'] at hnames
        exact absurd hnames (not_names_type ha part)
      · cases hk
  | @reading _ e es type b₀ msg hf hD hs hmsg hreads hset =>
      rw [if_neg (by simp [hf]), hmsg] at hk
      obtain ⟨hf', hD', msg', hmsg', hreads', hparts⟩ := decodeKey_decoded hmsg hk
      rw [List.cons_append]
      refine .reading (hf'.trans hf) (hD'.trans hD) hs hmsg' (hreads'.trans hreads) ?_
      intro part hpart hsome
      rw [hreads'] at hpart
      obtain ⟨hnew, hold⟩ := hparts part hpart
      by_cases hnames : Entry.Names ⟨key, b⟩ part
      · exact ⟨⟨key, b⟩, by simp, hnew hnames⟩
      · obtain ⟨e', he', hnames'⟩ := hsome
        have he' : e' ∈ e :: es := by
          simp only [List.mem_cons, List.mem_append, List.not_mem_nil, or_false] at he' ⊢
          obtain h | h | rfl := he'
          · exact .inl h
          · exact .inr h
          · exact absurd hnames' hnames
        obtain ⟨e₁, he₁, hset₁⟩ := hset part hpart ⟨e', he', hnames'⟩
        have hmem : e₁ ∈ e :: es ++ [⟨key, b⟩] := List.mem_append_left _ he₁
        exact ⟨e₁, hmem, hold hnames e₁ hset₁⟩

/-- An entry hands no message over. -/
lemma onKey_some_dispatched (key : Bytes) (p : InboundMessageParser ρ) (b : Buffer) :
    (onKey lib u handle (some key) p b).1.dispatched = p.dispatched := by
  simp only [onKey]
  split_ifs
  · refine Reader.string_rule (P := fun q : InboundMessageParser ρ => q.dispatched = p.dispatched)
      (fun type q hq => ?_) rfl
    obtain ⟨msg, -, rfl⟩ := Option.map_eq_some_iff.mp hq
    rfl
  · rfl
  · split
    · rfl
    · exact decodeKey_rule (P := fun q : InboundMessageParser ρ => q.dispatched = p.dispatched)
        key _ rfl (fun _ _ => rfl) fun _ _ _ _ => rfl

/-! ### Missing parts -/

/-- The calls of `OnKey` for a byte string. -/
def calls (lib : HostLib) (u : Uninit) (handle : Handler ρ) (after : ℕ → UInt8) (msg : Bytes)
    (p : InboundMessageParser ρ) : List (KeyCall (InboundMessageParser ρ)) :=
  readCalls (onKey lib u handle) { p with firstkey := true } (.ofBytes msg after)

/-- The entries of a byte string, as far as `OnKey` gets them. -/
def entries (lib : HostLib) (u : Uninit) (handle : Handler ρ) (after : ℕ → UInt8) (msg : Bytes)
    (p : InboundMessageParser ρ) : List Entry := entriesOf (calls lib u handle after msg p)

/-- If a message is handed to `HandleMessage`, an entry of the byte string has set every part that
the handler reads. -/
def Complete (lib : HostLib) (u : Uninit) (handle : Handler ρ) (after : ℕ → UInt8) (msg : Bytes)
    (p : InboundMessageParser ρ) : Prop :=
  ∀ m, (processFrom lib u handle after msg p).1.dispatched = p.dispatched ++ [m] →
    ∀ part ∈ m.reads, ∃ e ∈ entries lib u handle after msg p,
      SetBy lib u e m (processFrom lib u handle after msg p).1.remoteRouter part

/-- There is an entry for every part of a message of the type that the first entry has. -/
def Provided : List Entry → Prop
  | [] => True
  | e :: es => ∀ type b, e.value.readString = some (type, b) →
      ∀ part ∈ partsOf type, ∃ e' ∈ e :: es, e'.Names part

section Missing

variable {after : ℕ → UInt8} {bytes : Bytes}

/-- At the end of the dictionary the message that was read is handed over. -/
lemma processFrom_of_end (hend : ReachesEnd (calls lib u handle after bytes p)) :
    ∃ q : InboundMessageParser ρ, ∃ b,
      Sourced lib u p.dispatched (entries lib u handle after bytes p) q ∧
      (processFrom lib u handle after bytes p).1 = (onKey lib u handle none q b).1 := by
  obtain ⟨c, hc, hnone⟩ := hend
  obtain ⟨hread, pre, hpre, hentries⟩ := readDict_of_end hc hnone
  refine ⟨c.object, c.buffer, ?_, ?_⟩
  · have hsourced := readCalls_rule (I := Sourced lib u p.dispatched)
      (fun es key a b a' b' h hk => h.entry hk)
      (.start (p := { p with firstkey := true }) rfl rfl) hpre
    rwa [hentries] at hsourced
  · rw [processFrom, hread]

/-- Without the end of the dictionary nothing is handed over. -/
lemma processFrom_of_not_end (hno : ¬ ReachesEnd (calls lib u handle after bytes p)) :
    (processFrom lib u handle after bytes p).1.dispatched = p.dispatched := by
  have hkept := readDict_of_not_end (P := fun q : InboundMessageParser ρ =>
    q.dispatched = p.dispatched) (fun key a b h => (onKey_some_dispatched key a b).trans h)
    (a := { p with firstkey := true }) rfl hno
  exact hkept.1

/-- What the end of the dictionary does to a message that is being read. -/
lemma onKey_none_reading (lib : HostLib) (u : Uninit) (handle : Handler ρ)
    {q : InboundMessageParser ρ} (hf : q.firstkey = false) (hm : q.msg = some msg) (b : Buffer) :
    (onKey lib u handle none q b).1.dispatched = q.dispatched ++ [msg] ∧
      (onKey lib u handle none q b).1.remoteRouter = q.remoteRouter := by
  simp only [onKey, hf, messageDone, hm]
  exact ⟨rfl, rfl⟩

/-- **A handler sees no missing part exactly if all keys occur.** For every byte string: if a
message is handed to `HandleMessage` then every part the handler reads was set by an entry, if and
only if the parser does not get to the end of the dictionary, or the dictionary has an entry for
every part of a message of its type. For the replies of an `LR_AckMessage` there is no key. -/
theorem complete_iff (lib : HostLib) (u : Uninit) (handle : Handler ρ) (after : ℕ → UInt8)
    (bytes : Bytes) (p : InboundMessageParser ρ) :
    Complete lib u handle after bytes p ↔
      (ReachesEnd (calls lib u handle after bytes p) →
        Provided (entries lib u handle after bytes p)) := by
  constructor
  · intro hcomplete hend
    obtain ⟨q, b, hsourced, hproc⟩ := processFrom_of_end hend
    rw [Complete, hproc] at hcomplete
    revert hcomplete hsourced
    generalize entries lib u handle after bytes p = es
    intro hcomplete hsourced
    cases hsourced with
    | start => trivial
    | reading hf hD hs hm hreads _ =>
        obtain ⟨hdisp, -⟩ := onKey_none_reading lib u handle hf hm b
        intro type b' hs' part hpart
        obtain ⟨rfl, -⟩ := Prod.mk.inj (Option.some.inj (hs.symm.trans hs'))
        rw [hD] at hdisp
        obtain ⟨e', he', hset⟩ := hcomplete _ hdisp part (hreads ▸ hpart)
        exact ⟨e', he', hset.1⟩
  · intro hprovided m hm
    by_cases hend : ReachesEnd (calls lib u handle after bytes p)
    · have hall := hprovided hend
      obtain ⟨q, b, hsourced, hproc⟩ := processFrom_of_end hend
      rw [hproc] at hm ⊢
      revert hall hsourced
      generalize entries lib u handle after bytes p = es
      intro hall hsourced
      cases hsourced with
      | start hf hD =>
          simp only [onKey, hf, if_true] at hm
          rw [hD] at hm
          simp at hm
      | reading hf hD hs hmsg hreads hset =>
          obtain ⟨hdisp, hrc⟩ := onKey_none_reading lib u handle hf hmsg b
          rw [hdisp, hD] at hm
          obtain rfl := List.singleton_inj.mp (List.append_cancel_left hm)
          intro part hpart
          rw [hrc]
          exact hset part hpart (hall _ _ hs part (hreads ▸ hpart))
    · rw [processFrom_of_not_end hend] at hm
      simp at hm

end Missing

/-- A relay message with its type and its version only. -/
def bareUpstream : Bytes := [100, 49, 58, 97, 49, 58, 117, 49, 58, 118, 105, 48, 101, 101]

/-- Its handler is given a `pathid` and a nonce that nobody has set. -/
theorem not_complete : ¬ ∀ (lib : HostLib) (u : Uninit) (handle : Handler Unit)
    (after : ℕ → UInt8) (bytes : Bytes) (p : InboundMessageParser Unit),
    Complete lib u handle after bytes p := by
  intro h
  let handle : Handler Unit := fun _ _ => ((), true, [])
  let p : InboundMessageParser Unit :=
    { firstkey := true, msg := none, remoteRouter := {}, router := () }
  let lib := RouterContact.plainHost
  let u := RouterContact.zeroMemory
  have hkeys : (entries lib u handle (fun _ => 0) bareUpstream p).map (·.key) =
      [[ascii 'a'], [ascii 'v']] := by decide +kernel
  obtain ⟨e, he, ⟨c, hc, hkey⟩, -⟩ := h lib u handle (fun _ => 0) bareUpstream p
    (.relayUpstream { remote := p.getCurrentFrom, pathid := u.pathid, Y := u.nonce })
    (by decide +kernel) .pathid (by decide)
  obtain rfl := Option.some.inj hc
  have hmem : e.key ∈ [[ascii 'a'], [ascii 'v']] := hkeys ▸ List.mem_map_of_mem he
  simp only [List.mem_cons, List.not_mem_nil, or_false] at hmem
  obtain hk | hk := hmem
  · rw [hk] at hkey
    exact absurd hkey (by decide)
  · rw [hk] at hkey
    exact absurd hkey (by decide)

end InboundMessageParser

end Udap
