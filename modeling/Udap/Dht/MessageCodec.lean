import Udap.Dht.Message
import Udap.ContactCodec

/-!
The codec of the messages of the DHT, up to the list in a `DHTImmeidateMessage`.

The sender of a message is not encoded; the decoder takes the one of the link message.

* `sure_bencode`: an encoder reports success if and only if the message fits.
* `reads_decodeMesssageList`: the decoder makes the same messages of a list of them.
-/

namespace Udap.Dht

open ByteMem

/-- `FindRouterMessage::BEncode`. -/
def FindRouterMessage.bencode (m : FindRouterMessage) : Writer :=
  .all [startDict, writeKey 'A', writeBytestring [ascii 'R'],
    writeKey 'I', writeInt (if m.iterative then 1 else 0),
    writeKey 'K', writeBytestring m.K.1,
    writeKey 'T', writeUint64 m.txid,
    writeKey 'V', writeUint64 m.version,
    bencodeEnd]

/-- `GotRouterMessage::BEncode`. -/
def GotRouterMessage.bencode (lib : HostLib) (m : GotRouterMessage) : Writer :=
  .all [startDict, writeDictMsgType 'A' 'S',
    writeDictList 'R' (RouterContact.bencode lib) m.R,
    writeDictInt 'T' m.txid,
    writeDictInt 'V' m.version,
    bencodeEnd]

namespace Message

/-- `IMessage::BEncode`. -/
def bencode (lib : HostLib) : Message → Writer
  | findRouter m => m.bencode
  | gotRouter m => m.bencode lib

/-- `IMessage::BEncode` in full. -/
def encoding (lib : HostLib) : Message → Bytes
  | findRouter m => [ascii 'd'] ++ (entryBytes 'A' (strBytes [ascii 'R']) ++
      (entryBytes 'I' (intBytes (if m.iterative then 1 else 0)) ++
        (entryBytes 'K' (strBytes m.K.1) ++ (entryBytes 'T' (intBytes m.txid.toInt64.toInt) ++
          (entryBytes 'V' (intBytes m.version.toInt64.toInt) ++ [ascii 'e'])))))
  | gotRouter m => [ascii 'd'] ++ (entryBytes 'A' (strBytes [ascii 'S']) ++
      (entryBytes 'R' (listBytes (m.R.map (RouterContact.encoding lib))) ++
        (entryBytes 'T' (intBytes m.txid.toInt64.toInt) ++
          (entryBytes 'V' (intBytes m.version.toInt64.toInt) ++ [ascii 'e']))))

/-- A message with the protocol's version, contacts such as the decoder accepts, and integers
other than the one that the decoder takes for an error. -/
def WellFormed : Message → Prop
  | findRouter m => m.txid ≠ -1 ∧ m.version = protoVersion
  | gotRouter m => m.txid ≠ -1 ∧ m.version = protoVersion ∧
      ∀ rc ∈ m.R, rc.WellFormed ∧ rc.lastUpdated ≠ -1

/-- The same message from the sender `From`. -/
inductive Same (From : PubKey) : Message → Message → Prop
  | findRouter (m : FindRouterMessage) :
      Same From (findRouter m) (findRouter { m with From := From })
  | gotRouter (m : GotRouterMessage) {R : List RouterContact}
      (hR : List.Forall₂ RouterContact.Same m.R R) :
      Same From (gotRouter m) (gotRouter { m with From := From, R := R })

variable {lib : HostLib} {u : Uninit} {From : PubKey}

lemma sure_bencode (h : lib.Lawful) (m : Message) : Sure (m.bencode lib) (m.encoding lib) := by
  cases m with
  | findRouter m =>
      exact .cons (emits_bufferWrite _) <| .entry 'A' (emits_writeBytestring _) <|
        .entry 'I' (emits_writeInt _) <| .entry 'K' (emits_writeBytestring _) <|
        .entry 'T' (emits_writeUint64 _) <| .entry 'V' (emits_writeUint64 _) sure_bencodeEnd
  | gotRouter m =>
      exact .cons (emits_bufferWrite _) <| .cons (emits_writeDictMsgType 'A' 'S') <|
        .cons (emits_writeDictList 'R' fun rc _ => (RouterContact.sure_bencode h rc).emits) <|
        .cons (emits_writeDictInt 'T' _) <| .cons (emits_writeDictInt 'V' _) sure_bencodeEnd

lemma starts_encoding (lib : HostLib) (m : Message) : Starts (m.encoding lib) := by
  cases m with
  | findRouter m => exact ⟨_, _, rfl, by decide⟩
  | gotRouter m => exact ⟨_, _, rfl, by decide⟩

end Message

/-! ### Decoding -/

section Decoding

variable {lib : HostLib} {u : Uninit} {From : PubKey} {key s : Bytes}

/-- An entry behind the first one goes to the message. -/
lemma reads_onKey_findRouter {m m' : FindRouterMessage}
    (h : Reads (FindRouterMessage.decodeKey key) m s (· = m')) :
    Reads (MessageDecoder.onKey lib u From (some key)) ⟨false, some (.findRouter m)⟩ s
      (· = ⟨false, some (.findRouter m')⟩) := by
  have hpart := Reads.part_eq (g := fun _ => m)
    (a := MessageDecoder.mk false (some (.findRouter m)))
    (f := fun (dec : MessageDecoder) m => { dec with msg := some (.findRouter m) }) h
  exact fun b hb => hpart b hb

lemma reads_onKey_gotRouter {m : GotRouterMessage} {P : GotRouterMessage → Prop}
    (h : Reads (GotRouterMessage.decodeKey lib u key) m s P) :
    Reads (MessageDecoder.onKey lib u From (some key)) ⟨false, some (.gotRouter m)⟩ s
      fun dec => ∃ m', P m' ∧ dec = ⟨false, some (.gotRouter m')⟩ := by
  have hpart := Reads.part (g := fun _ => m) (a := MessageDecoder.mk false (some (.gotRouter m)))
    (f := fun (dec : MessageDecoder) m => { dec with msg := some (.gotRouter m) }) h
  exact fun b hb => hpart b hb

/-- The type in the first entry. -/
lemma reads_onKey_type {type : Bytes} {P : MessageDecoder → Prop} (hlen : type.length < 10 ^ 9)
    (hnew : ∀ cur, ∃ msg, newMessage u From cur type = some msg ∧ P ⟨false, some msg⟩) :
    Reads (MessageDecoder.onKey lib u From (some [ascii 'A'])) {} (strBytes type) P := by
  intro b hb
  obtain ⟨msg, hmsg, hp⟩ := hnew b.cur
  refine ⟨_, ?_, hp⟩
  change Reader.string (fun _ type => (newMessage u From b.cur type).map fun msg =>
    MessageDecoder.mk false (some msg)) {} b = _
  rw [Reader.string, hb.readString hlen]
  simp only [hmsg, Option.map_some]

/-- Of these bytes the decoder makes a message that is the same but for the sender. -/
lemma reads_message (h : lib.Lawful) {m : Message} (hm : m.WellFormed) :
    Reads (readDict (MessageDecoder.onKey lib u From)) {} (m.encoding lib)
      fun dec => ∃ m', m.Same From m' ∧ dec = ⟨false, some m'⟩ := by
  cases m with
  | findRouter m =>
      have htype : Reads (MessageDecoder.onKey lib u From (some [ascii 'A'])) {}
          (strBytes [ascii 'R'])
          fun dec => ∃ k, dec = ⟨false, some (.findRouter { From := From, K := k })⟩ :=
        reads_onKey_type (by norm_num) fun cur => ⟨_, rfl, u.key cur, rfl⟩
      -- one lemma for each entry; the entries are put together in the order of the writer
      have hiterative (x : FindRouterMessage) : Reads (FindRouterMessage.decodeKey [ascii 'I']) x
          (intBytes (if m.iterative then 1 else 0)) (· = { x with iterative := m.iterative }) := by
        have hread {n : ℕ} (hn : n < 2 ^ 63) :=
          reads_integer_natCast (f := fun (x : FindRouterMessage) i =>
            some { x with iterative := i ≠ 0 }) (a := x) hn rfl
        cases m.iterative with
        | true => exact hread (n := 1) (by norm_num)
        | false => exact hread (n := 0) (by norm_num)
      have hkey (x : FindRouterMessage) : Reads (FindRouterMessage.decodeKey [ascii 'K']) x
          (strBytes m.K.1) (· = { x with K := m.K }) :=
        reads_blob (f := fun (x : FindRouterMessage) (k : PubKey) => { x with K := k }) m.K
          (by norm_num)
      have htxid (x : FindRouterMessage) : Reads (FindRouterMessage.decodeKey [ascii 'T']) x
          (intBytes m.txid.toInt64.toInt) (· = { x with txid := m.txid }) :=
        Reads.part_eq (g := fun x : FindRouterMessage => x.txid)
          (f := fun (x : FindRouterMessage) t => { x with txid := t }) (reads_readInteger hm.1)
      have hversion (x : FindRouterMessage) : Reads (FindRouterMessage.decodeKey [ascii 'V']) x
          (intBytes m.version.toInt64.toInt) (· = { x with version := m.version }) :=
        Reads.part_eq (g := fun x : FindRouterMessage => x.version)
          (f := fun (x : FindRouterMessage) v => { x with version := v })
          (reads_readInteger (by rw [hm.2]; decide))
      refine reads_readDict <| .cons htype fun dec hdec => ?_
      obtain ⟨k, rfl⟩ := hdec
      exact .entry (reads_onKey_findRouter (hiterative _)) <|
        .entry (reads_onKey_findRouter (hkey _)) <| .entry (reads_onKey_findRouter (htxid _)) <|
        .entry (reads_onKey_findRouter (hversion _)) <|
        .nil <| ends_nil (fun _ => rfl) ⟨_, .findRouter m, rfl⟩
  | gotRouter m =>
      have htype : Reads (MessageDecoder.onKey lib u From (some [ascii 'A'])) {}
          (strBytes [ascii 'S']) (· = ⟨false, some (.gotRouter { From := From })⟩) :=
        reads_onKey_type (by norm_num) fun cur => ⟨_, rfl, rfl⟩
      have hlist (x : GotRouterMessage) : Reads (GotRouterMessage.decodeKey lib u [ascii 'R']) x
          (listBytes (m.R.map (RouterContact.encoding lib)))
          fun x' => ∃ l, (∃ R, List.Forall₂ RouterContact.Same m.R R ∧ l = x.R ++ R) ∧
            x' = { x with R := l } := by
        -- each contact is decoded over a cleared one
        have hitem : ∀ rc ∈ m.R, Starts (rc.encoding lib) ∧
            Reads (RouterContact.bdecode lib u) {} (rc.encoding lib) rc.Same := by
          refine fun rc hrc => ⟨rc.starts_encoding lib, ?_⟩
          obtain ⟨hwf, htime⟩ := hm.2.2 rc hrc
          have hread := RouterContact.reads_bdecode (u := u) h hwf htime {}
          rwa [RouterContact.decodedOver_empty] at hread
        exact Reads.part (g := fun x : GotRouterMessage => x.R)
          (f := fun (x : GotRouterMessage) l => { x with R := l }) (reads_bencodeReadList hitem)
      have htxid (x : GotRouterMessage) : Reads (GotRouterMessage.decodeKey lib u [ascii 'T']) x
          (intBytes m.txid.toInt64.toInt) (· = { x with txid := m.txid }) :=
        Reads.part_eq (g := fun x : GotRouterMessage => x.txid)
          (f := fun (x : GotRouterMessage) t => { x with txid := t }) (reads_readInteger hm.1)
      have hversion (x : GotRouterMessage) : Reads (GotRouterMessage.decodeKey lib u [ascii 'V']) x
          (intBytes m.version.toInt64.toInt) (· = { x with version := m.version }) := by
        have hread : Reads (fun v b => ((Buffer.readInteger v b).1,
            if (Buffer.readInteger v b).1 = protoVersion then (Buffer.readInteger v b).2 else none))
            x.version (intBytes m.version.toInt64.toInt) (· = m.version) := by
          refine fun b hb => ⟨m.version, ?_, rfl⟩
          have hne : m.version ≠ -1 := by
            rw [hm.2.1]
            decide
          simp only [hb.readInteger_uint64 hne, if_pos hm.2.1]
        exact Reads.part_eq (g := fun x : GotRouterMessage => x.version)
          (f := fun (x : GotRouterMessage) v => { x with version := v }) hread
      refine reads_readDict <| .entry htype <| .cons (reads_onKey_gotRouter (hlist _)) ?_
      rintro _ ⟨_, ⟨_, ⟨R, hR, rfl⟩, rfl⟩, rfl⟩
      refine .cons (reads_onKey_gotRouter (htxid _)) ?_
      rintro _ ⟨_, rfl, rfl⟩
      refine .cons (reads_onKey_gotRouter (hversion _)) ?_
      rintro _ ⟨_, rfl, rfl⟩
      exact .nil <| ends_nil (fun _ => rfl) ⟨_, .gotRouter m hR, rfl⟩

lemma reads_decodeMesssageList (h : lib.Lawful) {msgs : List Message}
    (hmsgs : ∀ m ∈ msgs, m.WellFormed) (l : List Message) :
    Reads (decodeMesssageList lib u From) l (listBytes (msgs.map (Message.encoding lib)))
      fun l' => ∃ msgs', List.Forall₂ (Message.Same From) msgs msgs' ∧ l' = l ++ msgs' := by
  refine reads_readList (fun m hm => ⟨m.starts_encoding lib, fun l b hb => ?_⟩)
    (fun l b _ => ⟨l, rfl, rfl⟩)
  obtain ⟨dec, hr, m', hsame, rfl⟩ := reads_message (u := u) h (hmsgs m hm) b hb
  refine ⟨l ++ [m'], ?_, m', hsame, rfl⟩
  simp only [if_true, hr]

end Decoding

end Udap.Dht
