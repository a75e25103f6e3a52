import Udap.LinkMessage
import Udap.Dht.MessageCodec

/-!
The encoders of the link messages, and what `InboundMessageParser` makes of what they write.

* `Dispatches`: the message that was encoded is handed to `HandleMessage`, whose verdict is that of
  the parser.
* `ends_relay` and its companions: what the parser does with each kind of message.
-/

namespace Udap

open ByteMem Iwp

/-! ### Encoders -/

/-- `RelayUpstreamMessage::BEncode` and `RelayDownstreamMessage::BEncode`. -/
def RelayMessage.bencode (type : Char) (m : RelayMessage) : Writer :=
  .all [startDict, writeDictMsgType 'a' type,
    writeDictEntry 'p' (writeBytestring m.pathid.1),
    writeDictInt 'v' protoVersion,
    writeDictEntry 'x' (writeBytestring m.X),
    writeDictEntry 'y' (writeBytestring m.Y.1),
    bencodeEnd]

/-- `RelayUpstreamMessage::BEncode`. -/
def relayUpstreamBencode (m : RelayMessage) : Writer := m.bencode 'u'

/-- `RelayDownstreamMessage::BEncode`. -/
def relayDownstreamBencode (m : RelayMessage) : Writer := m.bencode 'd'

/-- `LR_CommitMessage::BEncode`. -/
def lrCommitBencode (frames : List Bytes) : Writer :=
  .all [startDict, writeDictMsgType 'a' 'c', writeDictList 'c' writeBytestring frames,
    writeVersionEntry, bencodeEnd]

/-- `DiscardMessage::BEncode`. -/
def discardBencode (pad : Bytes) : Writer :=
  .all [startDict, writeKey 'a', writeBytestring [ascii 'z'], writeVersionEntry,
    writeKey 'z', writeBytestring pad, bencodeEnd]

/-- `LinkIntroMessage::BEncode`. -/
def linkIntroBencode (lib : HostLib) (RC : Option RouterContact) : Writer :=
  .all ([startDict, writeKey 'a', writeBytestring [ascii 'i']] ++
    (match RC with
      | none => []
      | some rc => [writeKey 'r', rc.bencode lib]) ++
    [writeVersionEntry, bencodeEnd])

/-- `DHTImmeidateMessage::BEncode`. -/
def dhtImmediateBencode (lib : HostLib) (msgs : List Dht.Message) : Writer :=
  .all ([startDict, writeKey 'a', writeBytestring [ascii 'm'], writeKey 'm', startList] ++
    msgs.map (Dht.Message.bencode lib) ++ [bencodeEnd, writeVersionEntry, bencodeEnd])

/-! ### What they write -/

section Writing

variable {lib : HostLib}

/-- `RelayMessage.bencode` in full. -/
def RelayMessage.encoding (type : Char) (m : RelayMessage) : Bytes :=
  [ascii 'd'] ++ (entryBytes 'a' (strBytes [ascii type]) ++
    (entryBytes 'p' (strBytes m.pathid.1) ++ (versionBytes ++
      (entryBytes 'x' (strBytes m.X) ++ (entryBytes 'y' (strBytes m.Y.1) ++ [ascii 'e'])))))

lemma RelayMessage.sure_bencode (type : Char) (m : RelayMessage) :
    Sure (m.bencode type) (m.encoding type) :=
  .cons (emits_bufferWrite _) <| .cons (emits_writeDictMsgType 'a' type) <|
    .cons (emits_writeDictEntry 'p' (emits_writeBytestring _)) <|
    .cons (emits_writeDictInt 'v' protoVersion) <|
    .cons (emits_writeDictEntry 'x' (emits_writeBytestring _)) <|
    .cons (emits_writeDictEntry 'y' (emits_writeBytestring _)) sure_bencodeEnd

lemma sure_lrCommitBencode (frames : List Bytes) : Sure (lrCommitBencode frames)
    ([ascii 'd'] ++ (entryBytes 'a' (strBytes [ascii 'c']) ++
      (entryBytes 'c' (listBytes (frames.map strBytes)) ++ (versionBytes ++ [ascii 'e'])))) :=
  .cons (emits_bufferWrite _) <| .cons (emits_writeDictMsgType 'a' 'c') <|
    .cons (emits_writeDictList 'c' fun f _ => emits_writeBytestring f) <|
    .cons emits_writeVersionEntry sure_bencodeEnd

lemma sure_discardBencode (pad : Bytes) : Sure (discardBencode pad)
    ([ascii 'd'] ++ (entryBytes 'a' (strBytes [ascii 'z']) ++ (versionBytes ++
      (entryBytes 'z' (strBytes pad) ++ [ascii 'e'])))) :=
  .cons (emits_bufferWrite _) <| .entry 'a' (emits_writeBytestring _) <|
    .cons emits_writeVersionEntry <| .entry 'z' (emits_writeBytestring _) sure_bencodeEnd

lemma sure_linkIntroBencode (h : lib.Lawful) (rc : RouterContact) :
    Sure (linkIntroBencode lib (some rc)) ([ascii 'd'] ++ (entryBytes 'a' (strBytes [ascii 'i']) ++
      (entryBytes 'r' (rc.encoding lib) ++ (versionBytes ++ [ascii 'e'])))) :=
  .cons (emits_bufferWrite _) <| .entry 'a' (emits_writeBytestring _) <|
    .entry 'r' (RouterContact.sure_bencode h rc).emits <|
    .cons emits_writeVersionEntry sure_bencodeEnd

lemma sure_dhtImmediateBencode (h : lib.Lawful) (msgs : List Dht.Message) :
    Sure (dhtImmediateBencode lib msgs) ([ascii 'd'] ++ (entryBytes 'a' (strBytes [ascii 'm']) ++
      (entryBytes 'm' (listBytes (msgs.map (Dht.Message.encoding lib))) ++
        (versionBytes ++ [ascii 'e'])))) := by
  have hitems := Sure.append_map (l := msgs) (fun m _ => (Dht.Message.sure_bencode h m).emits)
    (Sure.cons (emits_bufferWrite [ascii 'e']) (.cons emits_writeVersionEntry sure_bencodeEnd))
  have hall := Sure.cons (emits_bufferWrite [ascii 'd']) <|
    .entry 'a' (emits_writeBytestring [ascii 'm']) <| .cons (emits_writeKey 'm') <|
    .cons (emits_bufferWrite [ascii 'l']) hitems
  simp only [dhtImmediateBencode, entryBytes, listBytes, List.append_assoc] at hall ⊢
  exact hall

end Writing

/-! ### What the parser makes of it -/

namespace RelayMessage

lemma reads_pathid (x : RelayMessage) (pathid : Blob 16) :
    Reads (decodeKey [ascii 'p']) x (strBytes pathid.1) (· = { x with pathid := pathid }) :=
  reads_blob (f := fun (x : RelayMessage) (i : Blob 16) => { x with pathid := i }) pathid
    (by norm_num)

lemma reads_version (x : RelayMessage) :
    Reads (decodeKey [ascii 'v']) x (intBytes 0) (· = x) := Udap.reads_version

lemma reads_X {x : RelayMessage} {s data : Bytes}
    (h : Reads encryptedBdecode x.X s (· = data)) :
    Reads (decodeKey [ascii 'x']) x s (· = { x with X := data }) :=
  Reads.part_eq (g := fun x : RelayMessage => x.X)
    (f := fun (x : RelayMessage) d => { x with X := d }) h

lemma reads_Y (x : RelayMessage) (Y : Blob 32) :
    Reads (decodeKey [ascii 'y']) x (strBytes Y.1) (· = { x with Y := Y }) :=
  reads_blob (f := fun (x : RelayMessage) (y : Blob 32) => { x with Y := y }) Y (by norm_num)

end RelayMessage

namespace InboundMessageParser

variable {ρ : Type} {lib : HostLib} {u : Uninit} {handle : Handler ρ} {p : InboundMessageParser ρ}
  {s : Bytes} {good : LinkMsg → Prop}

/-- `ProcessFrom` on a buffer. -/
def parse (lib : HostLib) (u : Uninit) (handle : Handler ρ) : Reader (InboundMessageParser ρ) :=
  fun p b => readDict (onKey lib u handle) { p with firstkey := true } b

lemma processFrom_eq (after : ℕ → UInt8) (msg : Bytes) :
    processFrom lib u handle after msg p =
      ((parse lib u handle p (.ofBytes msg after)).1,
        (parse lib u handle p (.ofBytes msg after)).2.isSome) := rfl

/-- A message as `good` says is handed to `HandleMessage`, and its verdict is the verdict. -/
def Dispatches (handle : Handler ρ) (p : InboundMessageParser ρ) (good : LinkMsg → Prop)
    (p' : InboundMessageParser ρ) (ok : Bool) : Prop :=
  ∃ msg, good msg ∧ p'.dispatched = p.dispatched ++ [msg] ∧
    ok = (handleMessage handle p.router msg).2.1

/-- The parser behind the first entry. -/
def reading (msg : LinkMsg) (p : InboundMessageParser ρ) : InboundMessageParser ρ :=
  { p with firstkey := false, msg := some msg }

lemma reads_type {type : Bytes} {msg : LinkMsg} (hlen : type.length < 10 ^ 9)
    (hnew : newMessage u p type = some msg) :
    Reads (onKey lib u handle (some [ascii 'a'])) { p with firstkey := true } (strBytes type)
      (· = p.reading msg) := by
  intro b hb
  refine ⟨_, ?_, rfl⟩
  have hnew' : newMessage u { p with firstkey := true } type = some msg := hnew
  simp only [onKey, if_true]
  rw [if_pos (by decide), Reader.string, hb.readString hlen]
  simp only [hnew', Option.map_some]
  rfl

/-- An entry behind the first one goes to the message. -/
lemma reads_entry {key : Bytes} {msg : LinkMsg} {P : InboundMessageParser ρ → Prop}
    (h : Reads (decodeKey lib u key msg) (p.reading msg) s P) :
    Reads (onKey lib u handle (some key)) (p.reading msg) s P := h

/-- A message that is decoded in a part. -/
lemma reads_part {β : Type} {C : β → LinkMsg} {dec : Bytes → Reader β}
    (hC : ∀ key x, decodeKey lib u key (C x) =
      .part (fun _ => x) (fun (p : InboundMessageParser ρ) y => { p with msg := some (C y) })
        (dec key)) {key : Bytes} {x : β} {P : β → Prop} (h : Reads (dec key) x s P) :
    Reads (onKey lib u handle (some key)) (p.reading (C x)) s
      fun p' => ∃ y, P y ∧ p' = p.reading (C y) := by
  refine reads_entry ?_
  rw [hC]
  exact h.part

lemma reads_part_eq {β : Type} {C : β → LinkMsg} {dec : Bytes → Reader β}
    (hC : ∀ key x, decodeKey lib u key (C x) =
      .part (fun _ => x) (fun (p : InboundMessageParser ρ) y => { p with msg := some (C y) })
        (dec key)) {key : Bytes} {x y : β} (h : Reads (dec key) x s (· = y)) :
    Reads (onKey lib u handle (some key)) (p.reading (C x)) s (· = p.reading (C y)) := by
  refine (reads_part hC h).imp ?_
  rintro _ ⟨_, rfl, rfl⟩
  rfl

/-- At the end the message is handed over. -/
lemma ends_dispatch {msg : LinkMsg} (hgood : good msg) :
    Ends (onKey lib u handle none) (p.reading msg) [] (Dispatches handle p good) :=
  fun _ _ => ⟨_, _, rfl, msg, hgood, rfl, rfl⟩

lemma reads_encrypted {data : Bytes} (hne : data ≠ []) (hlen : data.length < 10 ^ 9) (x : Bytes) :
    Reads encryptedBdecode x (strBytes data) (· = data) := reads_string hlen (if_neg hne)

section Relay

variable {C : RelayMessage → LinkMsg}

/-- The two relay messages are decoded alike. -/
lemma ends_relay (type : Char)
    (hC : ∀ key m, decodeKey lib u key (C m) = .part (fun _ => m)
      (fun (p : InboundMessageParser ρ) m => { p with msg := some (C m) })
      (RelayMessage.decodeKey key))
    (hnew : newMessage u p [ascii type] =
      some (C { remote := p.remoteRouter.pubkey, pathid := u.pathid, Y := u.nonce }))
    (m : RelayMessage) (hne : m.X ≠ []) (hlen : m.X.length < 10 ^ 9) :
    Ends (parse lib u handle) p (m.encoding type)
      (Dispatches handle p (· = C { m with remote := p.remoteRouter.pubkey })) := by
  refine ends_readDict <| .entry (reads_type (by norm_num) hnew) <|
    .entry (reads_part_eq hC (RelayMessage.reads_pathid _ m.pathid)) <|
    .entry (reads_part_eq hC (RelayMessage.reads_version _)) <|
    .entry (reads_part_eq hC (RelayMessage.reads_X (reads_encrypted hne hlen _))) <|
    .entry (reads_part_eq hC (RelayMessage.reads_Y _ m.Y)) <| .nil <| ends_dispatch ?_
  rfl

/-- A relay message without a payload is refused, before the router sees it. -/
lemma ends_relay_nil (type : Char)
    (hC : ∀ key m, decodeKey lib u key (C m) = .part (fun _ => m)
      (fun (p : InboundMessageParser ρ) m => { p with msg := some (C m) })
      (RelayMessage.decodeKey key))
    (hnew : newMessage u p [ascii type] =
      some (C { remote := p.remoteRouter.pubkey, pathid := u.pathid, Y := u.nonce }))
    (m : RelayMessage) (hX : m.X = []) :
    Ends (parse lib u handle) p (m.encoding type) fun p' ok =>
      p'.router = p.router ∧ ok = false := by
  have hrefused (m' : RelayMessage) (b : Buffer) (hb : b.Holds (strBytes m.X)) :
      onKey lib u handle (some [ascii 'x']) (p.reading (C m')) b = (p.reading (C m'), none) := by
    have hvalue : encryptedBdecode m'.X b = (m'.X, none) := by
      rw [hX] at hb
      rw [encryptedBdecode, Reader.string, hb.readString (by norm_num)]
      rfl
    have hkey : onKey lib u handle (some [ascii 'x']) (p.reading (C m')) b =
        decodeKey lib u [ascii 'x'] (C m') (p.reading (C m')) b := rfl
    rw [hkey, hC, Reader.part, RelayMessage.decodeKey, if_neg (by decide), if_neg (by decide),
      if_pos (by decide), Reader.part, hvalue]
    rfl
  exact ends_readDict <| .entry (reads_type (by norm_num) hnew) <|
    .entry (reads_part_eq hC (RelayMessage.reads_pathid _ m.pathid)) <|
    .entry (reads_part_eq hC (RelayMessage.reads_version _)) <|
    .refused (hrefused _) ⟨rfl, rfl⟩

end Relay

lemma ends_lrCommit {frames : List Bytes} (hframes : ∀ f ∈ frames, f ≠ [] ∧ f.length < 10 ^ 9) :
    Ends (parse lib u handle) p ([ascii 'd'] ++ (entryBytes 'a' (strBytes [ascii 'c']) ++
      (entryBytes 'c' (listBytes (frames.map strBytes)) ++ (versionBytes ++ [ascii 'e']))))
      (Dispatches handle p (· = .lrCommit p.remoteRouter.pubkey frames)) := by
  let dec : Bytes → Reader (List Bytes) := fun key =>
    if isKey key 'c' then bencodeReadList (List.replicate 352 0) encryptedBdecode
    else if isKey key 'v' then .version else .bad
  have hC : ∀ key x, decodeKey lib u key (.lrCommit p.remoteRouter.pubkey x) = .part (fun _ => x)
      (fun (q : InboundMessageParser ρ) y =>
        { q with msg := some (.lrCommit p.remoteRouter.pubkey y) }) (dec key) := fun _ _ => rfl
  have hlist : Reads (dec [ascii 'c']) [] (listBytes (frames.map strBytes)) (· = frames) := by
    have hitem : ∀ f ∈ frames, Starts (strBytes f) ∧
        Reads encryptedBdecode (List.replicate 352 0) (strBytes f) (f = ·) := fun f hf =>
      ⟨starts_strBytes f,
        (reads_encrypted (hframes f hf).1 (hframes f hf).2 _).imp fun _ => Eq.symm⟩
    refine (reads_bencodeReadList hitem).imp ?_
    rintro l' ⟨l₁, hl₁, rfl⟩
    rw [List.forall₂_eq_eq_eq] at hl₁
    exact hl₁.symm
  have hversion : Reads (dec [ascii 'v']) frames (intBytes 0) (· = frames) := reads_version
  exact ends_readDict <| .entry (reads_type (p := p) (by norm_num) rfl) <|
    .entry (reads_part_eq hC hlist) <| .entry (reads_part_eq hC hversion) <|
    .nil <| ends_dispatch rfl

lemma ends_discard {pad : Bytes} (hpad : pad.length ≤ maxDiscardSize) :
    Ends (parse lib u handle) p ([ascii 'd'] ++ (entryBytes 'a' (strBytes [ascii 'z']) ++
      (versionBytes ++ (entryBytes 'z' (strBytes pad) ++ [ascii 'e']))))
      (Dispatches handle p (· = .discard p.remoteRouter.pubkey pad)) := by
  let dec : Bytes → Reader Bytes := fun key =>
    if isKey key 'v' then .version
    else if isKey key 'z' then
      .string fun _ str => if str.length > maxDiscardSize then none else some str
    else .bad
  have hC : ∀ key x, decodeKey lib u key (.discard p.remoteRouter.pubkey x) = .part (fun _ => x)
      (fun (q : InboundMessageParser ρ) y =>
        { q with msg := some (.discard p.remoteRouter.pubkey y) }) (dec key) := fun _ _ => rfl
  have hversion : Reads (dec [ascii 'v']) [] (intBytes 0) (· = []) := reads_version
  have hdata : Reads (dec [ascii 'z']) [] (strBytes pad) (· = pad) :=
    reads_string (hpad.trans_lt (by norm_num [maxDiscardSize])) (if_neg (not_lt.mpr hpad))
  exact ends_readDict <| .entry (reads_type (p := p) (by norm_num) rfl) <|
    .entry (reads_part_eq hC hversion) <| .entry (reads_part_eq hC hdata) <|
    .nil <| ends_dispatch rfl

lemma ends_dhtImmediate (h : lib.Lawful) {msgs : List Dht.Message}
    (hmsgs : ∀ m ∈ msgs, m.WellFormed) :
    Ends (parse lib u handle) p ([ascii 'd'] ++ (entryBytes 'a' (strBytes [ascii 'm']) ++
      (entryBytes 'm' (listBytes (msgs.map (Dht.Message.encoding lib))) ++
        (versionBytes ++ [ascii 'e']))))
      (Dispatches handle p fun msg => ∃ msgs',
        List.Forall₂ (Dht.Message.Same p.remoteRouter.pubkey) msgs msgs' ∧
          msg = .dhtImmediate p.remoteRouter.pubkey msgs') := by
  let dec : Bytes → Reader (List Dht.Message) := fun key =>
    if isKey key 'm' then Dht.decodeMesssageList lib u p.remoteRouter.pubkey
    else if isKey key 'v' then .version else .bad
  have hC : ∀ key x, decodeKey lib u key (.dhtImmediate p.remoteRouter.pubkey x) =
      .part (fun _ => x) (fun (q : InboundMessageParser ρ) y =>
        { q with msg := some (.dhtImmediate p.remoteRouter.pubkey y) }) (dec key) := fun _ _ => rfl
  have hlist : Reads (dec [ascii 'm']) [] (listBytes (msgs.map (Dht.Message.encoding lib)))
      fun l => ∃ msgs', List.Forall₂ (Dht.Message.Same p.remoteRouter.pubkey) msgs msgs' ∧
        l = [] ++ msgs' := Dht.reads_decodeMesssageList h hmsgs []
  have hversion (l : List Dht.Message) : Reads (dec [ascii 'v']) l (intBytes 0) (· = l) :=
    reads_version
  refine ends_readDict <| .entry (reads_type (p := p) (by norm_num) rfl) <|
    .cons (reads_part hC hlist) ?_
  rintro _ ⟨_, ⟨msgs', hsame, rfl⟩, rfl⟩
  exact .entry (reads_part_eq hC (hversion _)) <| .nil <| ends_dispatch ⟨_, hsame, rfl⟩

lemma ends_linkIntro (h : lib.Lawful) {rc : RouterContact} (hrc : rc.WellFormed)
    (htime : rc.lastUpdated ≠ -1) :
    Ends (parse lib u handle) p ([ascii 'd'] ++ (entryBytes 'a' (strBytes [ascii 'i']) ++
      (entryBytes 'r' (rc.encoding lib) ++ (versionBytes ++ [ascii 'e']))))
      fun p' ok => ok = true ∧ p'.dispatched = p.dispatched ++ [.intro] ∧
        (rc.decodedOver p.remoteRouter).Same p'.remoteRouter := by
  have hcontact : Reads (decodeKey lib u [ascii 'r'] .intro) (p.reading .intro) (rc.encoding lib)
      fun p' => ∃ rc', (rc.decodedOver p.remoteRouter).Same rc' ∧
        p' = { p.reading .intro with remoteRouter := rc' } :=
    Reads.part (g := fun q : InboundMessageParser ρ => q.remoteRouter)
      (f := fun (q : InboundMessageParser ρ) x => { q with remoteRouter := x })
      (RouterContact.reads_bdecode h hrc htime p.remoteRouter)
  have hversion (q : InboundMessageParser ρ) : Reads (decodeKey lib u [ascii 'v'] .intro) q
      (intBytes 0) (· = q) :=
    Reads.part_eq (g := fun q : InboundMessageParser ρ => q.remoteRouter)
      (f := fun (q : InboundMessageParser ρ) x => { q with remoteRouter := x }) reads_version
  refine ends_readDict <| .entry (reads_type (p := p) (by norm_num) rfl) <|
    .cons (reads_entry hcontact) ?_
  rintro _ ⟨rc', hsame, rfl⟩
  exact .entry (reads_entry (p := { p with remoteRouter := rc' }) (hversion _)) <|
    .nil fun b _ => ⟨_, true, rfl, rfl, rfl, hsame⟩

end InboundMessageParser

end Udap
