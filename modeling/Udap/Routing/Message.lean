import Udap.Bencode.Reads

/-!
Routing messages, which travel over a path: `PathConfirmMessage` and `PathLatencyMessage` with
their codecs, and `routing::InboundMessageParser`.
-/

namespace Udap.Routing

open ByteMem

/-- `PathConfirmMessage`. -/
structure PathConfirmMessage where
  pathLifetime : UInt64 := 0
  pathCreated : UInt64 := 0
  deriving DecidableEq

/-- `PathLatencyMessage`. -/
structure PathLatencyMessage where
  T : UInt64 := 0
  L : UInt64 := 0
  deriving DecidableEq

/-- `routing::IMessage`. -/
inductive Message where
  | pathLatency (m : PathLatencyMessage)
  | pathConfirm (m : PathConfirmMessage)
  deriving DecidableEq

/-- `BEncodeMaybeReadDictInt` for a key that must be one of two. -/
def twoInts {α : Type} (key : Bytes) (c d : Char) (getC getD : α → UInt64)
    (setC setD : α → UInt64 → α) : Reader α :=
  if isKey key c then .part getC setC fun t b => b.readInteger t
  else if isKey key d then .part getD setD fun t b => b.readInteger t
  else .bad

/-- `PathConfirmMessage::DecodeKey`. -/
def PathConfirmMessage.decodeKey (key : Bytes) : Reader PathConfirmMessage :=
  twoInts key 'L' 'S' (·.pathLifetime) (·.pathCreated) (fun m t => { m with pathLifetime := t })
    fun m t => { m with pathCreated := t }

/-- `PathConfirmMessage::BEncode`. -/
def PathConfirmMessage.bencode (m : PathConfirmMessage) : Writer :=
  .all [startDict, writeDictMsgType 'A' 'P', writeDictInt 'L' m.pathLifetime,
    writeDictInt 'S' m.pathCreated, bencodeEnd]

/-- `PathLatencyMessage::DecodeKey`. -/
def PathLatencyMessage.decodeKey (key : Bytes) : Reader PathLatencyMessage :=
  twoInts key 'L' 'T' (·.L) (·.T) (fun m t => { m with L := t }) fun m t => { m with T := t }

/-- `PathLatencyMessage::BEncode`; a number that is zero is left out. -/
def PathLatencyMessage.bencode (m : PathLatencyMessage) : Writer :=
  .all ([startDict, writeDictMsgType 'A' 'L'] ++
    (if m.L = 0 then [] else [writeDictInt 'L' m.L]) ++
    (if m.T = 0 then [] else [writeDictInt 'T' m.T]) ++ [bencodeEnd])

/-- `routing::InboundMessageParser`. -/
structure InboundMessageParser where
  firstKey : Bool := true
  msg : Option Message := none

namespace InboundMessageParser

/-- The message that the type in the first entry asks for. -/
def newMessage (type : Bytes) : Option Message :=
  if type = [ascii 'L'] then some (.pathLatency {})
  else if type = [ascii 'P'] then some (.pathConfirm {})
  else none

/-- `OnKey`. -/
def onKey : Option Bytes → Reader InboundMessageParser
  | none => fun p b => (p, if p.firstKey then none else some b)
  | some key => fun p b =>
      if p.firstKey then
        if isKey key 'A' then
          match b.readString with
          | none => (p, none)
          | some (type, b) =>
              if type.length ≠ 1 then (p, none)
              else
                -- a type that is not known leaves `msg` as it was
                let p := ⟨false, (newMessage type).or p.msg⟩
                (p, if p.msg.isSome then some b else none)
        else (p, none)
      else
        match p.msg with
        | none => (p, none)
        | some (.pathLatency m) =>
            Reader.part (fun _ => m) (fun p m => { p with msg := some (.pathLatency m) })
              (PathLatencyMessage.decodeKey key) p b
        | some (.pathConfirm m) =>
            Reader.part (fun _ => m) (fun p m => { p with msg := some (.pathConfirm m) })
              (PathConfirmMessage.decodeKey key) p b

/-- The decode in `ParseMessageBuffer`. -/
def parse : Reader InboundMessageParser := fun _ => readDict onKey {}

/-- `ParseMessageBuffer`: a message that was decoded is handled. -/
def parseMessageBuffer (handle : Message → Bool) (p : InboundMessageParser) (b : Buffer) : Bool :=
  match parse p b with
  | (_, none) => false
  | (p, some _) => p.msg.any handle

end InboundMessageParser

/-! ### Round trips -/

/-- A number that is left out if it is zero. -/
def optionalInt (c : Char) (i : UInt64) : Bytes :=
  if i = 0 then [] else entryBytes c (intBytes i.toInt64.toInt)

/-- `PathConfirmMessage::BEncode` in full. -/
def PathConfirmMessage.encoding (m : PathConfirmMessage) : Bytes :=
  [ascii 'd'] ++ (entryBytes 'A' (strBytes [ascii 'P']) ++
    (entryBytes 'L' (intBytes m.pathLifetime.toInt64.toInt) ++
      (entryBytes 'S' (intBytes m.pathCreated.toInt64.toInt) ++ [ascii 'e'])))

/-- `PathLatencyMessage::BEncode` in full. -/
def PathLatencyMessage.encoding (m : PathLatencyMessage) : Bytes :=
  [ascii 'd'] ++ (entryBytes 'A' (strBytes [ascii 'L']) ++
    (optionalInt 'L' m.L ++ (optionalInt 'T' m.T ++ [ascii 'e'])))

lemma PathConfirmMessage.encoding_length_le (m : PathConfirmMessage) : m.encoding.length ≤ 60 := by
  have hlifetime := intBytes_length_le m.pathLifetime
  have hcreated := intBytes_length_le m.pathCreated
  have htype : (strBytes [ascii 'P']).length = 3 := by decide
  simp only [encoding, entryBytes, List.length_append, List.length_singleton, keyBytes_length,
    htype]
  omega

lemma optionalInt_length_le (c : Char) (i : UInt64) : (optionalInt c i).length ≤ 25 := by
  have hint := intBytes_length_le i
  rw [optionalInt]
  split_ifs
  · exact Nat.zero_le _
  · rw [entryBytes, List.length_append, keyBytes_length]
    omega

lemma PathLatencyMessage.encoding_length_le (m : PathLatencyMessage) : m.encoding.length ≤ 58 := by
  have hL := optionalInt_length_le 'L' m.L
  have hT := optionalInt_length_le 'T' m.T
  have htype : (strBytes [ascii 'L']).length = 3 := by decide
  simp only [encoding, entryBytes, List.length_append, List.length_singleton, keyBytes_length,
    htype]
  omega

lemma PathConfirmMessage.sure_bencode (m : PathConfirmMessage) : Sure m.bencode m.encoding :=
  .cons (emits_bufferWrite _) <| .cons (emits_writeDictMsgType 'A' 'P') <|
    .cons (emits_writeDictInt 'L' _) <| .cons (emits_writeDictInt 'S' _) sure_bencodeEnd

lemma sure_optionalInt {ws : List Writer} {t : Bytes} (c : Char) (i : UInt64)
    (h : Sure (.all ws) t) :
    Sure (.all ((if i = 0 then [] else [writeDictInt c i]) ++ ws)) (optionalInt c i ++ t) := by
  rw [optionalInt]
  split_ifs
  · exact h
  · exact .cons (emits_writeDictInt c i) h

lemma PathLatencyMessage.sure_bencode (m : PathLatencyMessage) : Sure m.bencode m.encoding := by
  have hsure := Sure.cons (emits_bufferWrite [ascii 'd']) <|
    .cons (emits_writeDictMsgType 'A' 'L') <|
    sure_optionalInt 'L' m.L <| sure_optionalInt 'T' m.T sure_bencodeEnd
  rw [bencode]
  simp only [List.append_assoc]
  exact hsure

namespace InboundMessageParser

variable {key s t : Bytes} {E : InboundMessageParser → Bool → Prop}

/-- The type in the first entry. -/
lemma reads_type {type : Bytes} {msg : Message} (hlen : type.length < 10 ^ 9)
    (hnew : newMessage type = some msg) :
    Reads (onKey (some [ascii 'A'])) {} (strBytes type) (· = ⟨false, some msg⟩) := by
  intro b hb
  refine ⟨_, ?_, rfl⟩
  have hone : type.length = 1 := by
    rw [newMessage] at hnew
    split_ifs at hnew with hL hP
    · rw [hL, List.length_singleton]
    · rw [hP, List.length_singleton]
  simp only [onKey, if_true]
  rw [if_pos (by decide), hb.readString hlen]
  simp [hone, hnew]

/-- An entry behind the first one goes to the message. -/
lemma reads_message {β : Type} {decode : Reader β} (message : β → Message) {m m' : β}
    (hkey : ∀ b, onKey (some key) ⟨false, some (message m)⟩ b =
      Reader.part (fun _ => m) (fun p m => { p with msg := some (message m) }) decode
        ⟨false, some (message m)⟩ b)
    (h : Reads decode m s (· = m')) :
    Reads (onKey (some key)) ⟨false, some (message m)⟩ s (· = ⟨false, some (message m')⟩) := by
  have hpart := Reads.part_eq (g := fun _ => m)
    (a := InboundMessageParser.mk false (some (message m)))
    (f := fun (p : InboundMessageParser) m => { p with msg := some (message m) }) h
  intro b hb
  rw [hkey]
  exact hpart b hb

lemma reads_pathConfirm {m m' : PathConfirmMessage}
    (h : Reads (PathConfirmMessage.decodeKey key) m s (· = m')) :
    Reads (onKey (some key)) ⟨false, some (.pathConfirm m)⟩ s
      (· = ⟨false, some (.pathConfirm m')⟩) :=
  reads_message .pathConfirm (fun _ => rfl) h

lemma reads_pathLatency {m m' : PathLatencyMessage}
    (h : Reads (PathLatencyMessage.decodeKey key) m s (· = m')) :
    Reads (onKey (some key)) ⟨false, some (.pathLatency m)⟩ s
      (· = ⟨false, some (.pathLatency m')⟩) :=
  reads_message .pathLatency (fun _ => rfl) h

lemma reads_parse_pathConfirm {m : PathConfirmMessage} (hL : m.pathLifetime ≠ -1)
    (hS : m.pathCreated ≠ -1) (p : InboundMessageParser) :
    Reads parse p m.encoding (·.msg = some (.pathConfirm m)) := by
  have hlifetime (x : PathConfirmMessage) : Reads (PathConfirmMessage.decodeKey [ascii 'L']) x
      (intBytes m.pathLifetime.toInt64.toInt) (· = { x with pathLifetime := m.pathLifetime }) :=
    Reads.part_eq (g := fun x : PathConfirmMessage => x.pathLifetime)
      (f := fun (x : PathConfirmMessage) t => { x with pathLifetime := t }) (reads_readInteger hL)
  have hcreated (x : PathConfirmMessage) : Reads (PathConfirmMessage.decodeKey [ascii 'S']) x
      (intBytes m.pathCreated.toInt64.toInt) (· = { x with pathCreated := m.pathCreated }) :=
    Reads.part_eq (g := fun x : PathConfirmMessage => x.pathCreated)
      (f := fun (x : PathConfirmMessage) t => { x with pathCreated := t }) (reads_readInteger hS)
  have hread : Reads (readDict onKey) {} m.encoding
      fun q : InboundMessageParser => q.msg = some (.pathConfirm m) :=
    reads_readDict <| .entry (reads_type (by norm_num) rfl) <|
      .entry (reads_pathConfirm (hlifetime _)) <| .entry (reads_pathConfirm (hcreated _)) <|
      .nil <| ends_nil (fun _ => rfl) rfl
  exact fun b hb => hread b hb

/-- A number that was left out stays zero. -/
lemma readsEntries_optionalInt {c : Char} {i : UInt64} {p : InboundMessageParser}
    (p' : InboundMessageParser) (hzero : i = 0 → p' = p)
    (h : i ≠ 0 → Reads (onKey (some [ascii c])) p (intBytes i.toInt64.toInt) (· = p'))
    (hrest : ReadsEntries onKey p' t E) : ReadsEntries onKey p (optionalInt c i ++ t) E := by
  rw [optionalInt]
  split_ifs with hi
  · rw [← hzero hi]
    exact hrest
  · exact .entry (h hi) hrest

lemma reads_parse_pathLatency {m : PathLatencyMessage} (hL : m.L ≠ -1) (hT : m.T ≠ -1)
    (p : InboundMessageParser) : Reads parse p m.encoding (·.msg = some (.pathLatency m)) := by
  have hreadL (x : PathLatencyMessage) : Reads (PathLatencyMessage.decodeKey [ascii 'L']) x
      (intBytes m.L.toInt64.toInt) (· = { x with L := m.L }) :=
    Reads.part_eq (g := fun x : PathLatencyMessage => x.L)
      (f := fun (x : PathLatencyMessage) t => { x with L := t }) (reads_readInteger hL)
  have hreadT (x : PathLatencyMessage) : Reads (PathLatencyMessage.decodeKey [ascii 'T']) x
      (intBytes m.T.toInt64.toInt) (· = { x with T := m.T }) :=
    Reads.part_eq (g := fun x : PathLatencyMessage => x.T)
      (f := fun (x : PathLatencyMessage) t => { x with T := t }) (reads_readInteger hT)
  have hread : Reads (readDict onKey) {} m.encoding
      fun q : InboundMessageParser => q.msg = some (.pathLatency m) := by
    refine reads_readDict <| .entry (reads_type (by norm_num) rfl) <|
      readsEntries_optionalInt ⟨false, some (.pathLatency { L := m.L })⟩ (fun hzero => ?_)
        (fun _ => reads_pathLatency (hreadL _)) <|
      readsEntries_optionalInt ⟨false, some (.pathLatency m)⟩ (fun hzero => ?_)
        (fun _ => reads_pathLatency (hreadT _)) <|
      .nil <| ends_nil (fun _ => rfl) rfl
    · rw [hzero]
    · rw [← hzero]
  exact fun b hb => hread b hb

end InboundMessageParser

end Udap.Routing
