import Udap.Lib.Decimal

/-!
`udap_buffer_t` and the bencode readers and writers over it.

A buffer is a window of `sz` bytes into memory with a position `cur`, both counted from the base
of the window. Reads at `cur` do not look at the size, so the memory after the window is part of
the model.

A decoder works on an object in place and keeps what it has written so far when it fails: a
`Reader α` takes the object and the buffer, and returns the object and, on success, the buffer
after it. Every failure in the source ends the whole decode, so the position after one is not
kept.
-/

namespace Udap

open ByteMem

/-- `UDAP_PROTO_VERSION`. -/
def protoVersion : UInt64 := 0

/-- The code of an ASCII character. -/
def ascii (c : Char) : UInt8 := c.toUInt8

/-- `udap_buffer_t`. -/
structure Buffer where
  mem : ℕ → UInt8
  cur : ℕ
  sz : ℕ

namespace Buffer

/-- A buffer around a byte string, rewound, before the memory `after`. -/
def ofBytes (data : Bytes) (after : ℕ → UInt8) : Buffer where
  mem i := data.getD i (after (i - data.length))
  cur := 0
  sz := data.length

/-- `udap_buffer_size_left`. -/
def sizeLeft (b : Buffer) : ℕ := b.sz - b.cur

/-- `*buff->cur`. -/
def peek (b : Buffer) : UInt8 := b.mem b.cur

/-- `buff->cur += n`. -/
def skip (b : Buffer) (n : ℕ) : Buffer := { b with cur := b.cur + n }

/-- The `n` bytes from the position on. -/
def bytes (b : Buffer) (n : ℕ) : Bytes := (List.range n).map fun i => b.mem (b.cur + i)

/-- What has been written since the buffer was rewound. -/
def written (b : Buffer) : Bytes := { b with cur := 0 }.bytes b.cur

/-- A copy of `data` to the position. -/
def store (b : Buffer) (data : Bytes) : Buffer :=
  { b with mem := fun i =>
      if b.cur ≤ i ∧ i < b.cur + data.length then data.getD (i - b.cur) 0 else b.mem i }

end Buffer

/-- `udap_buffer_eq` on a key that was just read: the string is a prefix of the key. -/
def bufferEq : Bytes → Bytes → Bool
  | _, [] => true
  | [], _ :: _ => false
  | k :: key, c :: str => k == c && bufferEq key str

/-- `udap_buffer_eq` with a string of one character. -/
def isKey (key : Bytes) (c : Char) : Bool := bufferEq key [ascii c]

/-! ### Writing -/

/-- A function that writes to a buffer and reports success. -/
def Writer := Buffer → Buffer × Bool

/-- Writers that run in turn until one fails. -/
def Writer.all : List Writer → Writer
  | [], b => (b, true)
  | w :: ws, b =>
      match w b with
      | (b, true) => Writer.all ws b
      | (b, false) => (b, false)

/-- `udap_buffer_write`. -/
def bufferWrite (data : Bytes) : Writer := fun b =>
  if data.length ≤ b.sizeLeft then ((b.store data).skip data.length, true) else (b, false)

/-- `udap_buffer_writef` of the formatted text: `vsnprintf` keeps the last byte of the room for
a terminator, and reports the length the text would have had. -/
def bufferWritef (text : Bytes) : Writer := fun b =>
  let b' := if b.sizeLeft = 0 then b else b.store (text.take (b.sizeLeft - 1) ++ [0])
  if text = [] then (b', false)
  else if b.sizeLeft < text.length then (b', false)
  else (b'.skip text.length, true)

/-- `bencode_write_bytestring`. -/
def writeBytestring (data : Bytes) : Writer :=
  .all [bufferWritef (decimal data.length ++ [ascii ':']), bufferWrite data]

/-- `bencode_write_int`, and with it `bencode_write_uint16` on a promoted argument. -/
def writeInt (i : ℤ) : Writer := bufferWritef ([ascii 'i'] ++ decimalInt i ++ [ascii 'e'])

/-- `bencode_write_uint16`. -/
def writeUint16 (i : UInt16) : Writer := writeInt i.toNat

/-- `bencode_write_uint64`: the format `%ld` takes the argument as a signed one. -/
def writeUint64 (i : UInt64) : Writer := writeInt i.toInt64.toInt

/-- `bencode_start_list`, `bencode_start_dict` and `bencode_end`. -/
def startList : Writer := bufferWrite [ascii 'l']
def startDict : Writer := bufferWrite [ascii 'd']
def bencodeEnd : Writer := bufferWrite [ascii 'e']

/-- The key of an entry. -/
def writeKey (c : Char) : Writer := writeBytestring [ascii c]

/-- `bencode_write_version_entry`. -/
def writeVersionEntry : Writer :=
  bufferWritef (decimal 1 ++ [ascii ':', ascii 'v', ascii 'i'] ++ decimal protoVersion.toNat ++
    [ascii 'e'])

/-- `BEncodeWriteDictMsgType`. -/
def writeDictMsgType (k t : Char) : Writer := .all [writeKey k, writeBytestring [ascii t]]

/-- `BEncodeWriteDictEntry`. -/
def writeDictEntry (k : Char) (w : Writer) : Writer := .all [writeKey k, w]

/-- `BEncodeWriteDictInt`. -/
def writeDictInt (k : Char) (i : UInt64) : Writer := .all [writeKey k, writeUint64 i]

/-- `BEncodeWriteList`. -/
def bencodeWriteList {α : Type} (encode : α → Writer) (l : List α) : Writer :=
  .all ([startList] ++ l.map encode ++ [bencodeEnd])

/-- `BEncodeWriteDictList`. -/
def writeDictList {α : Type} (k : Char) (encode : α → Writer) (l : List α) : Writer :=
  .all [writeKey k, bencodeWriteList encode l]

/-! ### Reading -/

namespace Buffer

/-- The loop of `udap_buffer_read_until`: what it copies, and where it stops. -/
def readUntil (delim : UInt8) : ℕ → Buffer → Bytes × Buffer
  | 0, b => ([], b)
  | n + 1, b =>
      if b.peek = delim ∨ b.cur = b.sz then ([], b)
      else
        let more := readUntil delim n (b.skip 1)
        (b.peek :: more.1, more.2)

/-- `udap_buffer_read_until`; the length it reports is `0` at the end of the buffer. -/
def readNumber (delim : UInt8) (resultsize : ℕ) (b : Buffer) : Option (Bytes × Buffer) :=
  let r := b.readUntil delim resultsize
  if r.1 = [] ∨ r.2.sizeLeft = 0 then none else some r

/-- `bencode_read_integer`: the value is stored even where the verdict is false. -/
def readInteger (result : UInt64) (b : Buffer) : UInt64 × Option Buffer :=
  if b.peek ≠ ascii 'i' then (result, none)
  else
    match (b.skip 1).readNumber (ascii 'e') 31 with
    | none => (result, none)
    | some (numbuf, b) =>
        let value := UInt64.ofInt (strtol numbuf)
        (value, if value = UInt64.ofInt (-1) then none else some (b.skip 1))

/-- `bencode_read_string`. -/
def readString (b : Buffer) : Option (Bytes × Buffer) :=
  match b.readNumber (ascii ':') 9 with
  | none => none
  | some (numbuf, b) =>
      let num := strtol numbuf
      let b := b.skip 1
      if num < 0 then none
      else if b.sizeLeft < num.toNat then none
      else some (b.bytes num.toNat, b.skip num.toNat)

end Buffer

/-- A decoder of an object in place. -/
def Reader (α : Type) := α → Buffer → α × Option Buffer

namespace Reader

variable {α β : Type}

/-- The decode of an entry that is a string. -/
def string (f : α → Bytes → Option α) : Reader α := fun a b =>
  match b.readString with
  | none => (a, none)
  | some (str, b) =>
      match f a str with
      | none => (a, none)
      | some a => (a, some b)

/-- The decode of an entry that is an integer, through a local variable. -/
def integer (f : α → UInt64 → Option α) : Reader α := fun a b =>
  match b.readInteger 0 with
  | (_, none) => (a, none)
  | (i, some b) =>
      match f a i with
      | none => (a, none)
      | some a => (a, some b)

/-- The decode of an entry that must be the protocol version. -/
def version : Reader α := integer fun a v => if v = protoVersion then some a else none

/-- The decode of an entry that is a string of `n` bytes. -/
def blob (n : ℕ) (f : α → Blob n → α) : Reader α :=
  string fun a str => if str.length = n then some (f a (sliceBlob str 0 n)) else none

/-- A decoder of a part of an object. -/
def part (get : α → β) (set : α → β → α) (r : Reader β) : Reader α := fun a b =>
  match r (get a) b with
  | (x, b) => (set a x, b)

/-- A failing decoder. -/
def bad : Reader α := fun a _ => (a, none)

end Reader

variable {α : Type}

/-- The loop of `bencode_read_dict`; every round moves on, so that the bytes left are rounds
enough. -/
def dictLoop (onKey : Option Bytes → Reader α) : ℕ → Reader α
  | 0, a, _ => (a, none)
  | fuel + 1, a, b =>
      if b.sizeLeft ≠ 0 ∧ b.peek ≠ ascii 'e' then
        match b.readString with
        | none => (a, none)
        | some (key, b) =>
            match onKey (some key) a b with
            | (a, none) => (a, none)
            | (a, some b) => dictLoop onKey fuel a b
      else if b.peek ≠ ascii 'e' then (a, none)
      else onKey none a (b.skip 1)

/-- `bencode_read_dict`. -/
def readDict (onKey : Option Bytes → Reader α) : Reader α := fun a b =>
  if b.peek ≠ ascii 'd' then (a, none)
  else dictLoop onKey ((b.skip 1).sizeLeft + 1) a (b.skip 1)

/-- The loop of `bencode_read_list`. -/
def listLoop (onItem : Bool → Reader α) : ℕ → Reader α
  | 0, a, _ => (a, none)
  | fuel + 1, a, b =>
      if b.sizeLeft ≠ 0 ∧ b.peek ≠ ascii 'e' then
        match onItem true a b with
        | (a, none) => (a, none)
        | (a, some b) => listLoop onItem fuel a b
      else if b.peek ≠ ascii 'e' then (a, none)
      else onItem false a (b.skip 1)

/-- `bencode_read_list`. -/
def readList (onItem : Bool → Reader α) : Reader α := fun a b =>
  if b.peek ≠ ascii 'l' then (a, none)
  else listLoop onItem ((b.skip 1).sizeLeft + 1) a (b.skip 1)

/-- `BEncodeReadList`: each item is decoded in the place it gets at the end of the list. -/
def bencodeReadList (item : α) (decode : Reader α) : Reader (List α) :=
  readList fun more l b =>
    if more then
      match decode item b with
      | (x, b) => (l ++ [x], b)
    else (l, some b)

/-! ### Rules -/

section Rules

variable {P : α → Prop} {a : α} {b : Buffer}

/-- What every call of `on_key` keeps holds of the object when the loop ends, well or not. -/
lemma dictLoop_rule {onKey : Option Bytes → Reader α}
    (h : ∀ key a b, P a → P (onKey key a b).1) (fuel : ℕ) (ha : P a) :
    P (dictLoop onKey fuel a b).1 := by
  induction fuel generalizing a b with
  | zero => exact ha
  | succ fuel ih =>
      rw [dictLoop]
      split_ifs
      · split
        · exact ha
        · rename_i key b' _
          have hk := h (some key) a b' ha
          split
          · rename_i heq
            rw [heq] at hk
            exact hk
          · rename_i heq
            rw [heq] at hk
            exact ih hk
      · exact ha
      · exact h none a (b.skip 1) ha

/-- The same rule for `bencode_read_dict`. -/
lemma readDict_rule {onKey : Option Bytes → Reader α}
    (h : ∀ key a b, P a → P (onKey key a b).1) (ha : P a) : P (readDict onKey a b).1 := by
  rw [readDict]
  split_ifs
  · exact ha
  · exact dictLoop_rule h _ ha

/-- A decoder of a string keeps what the use of the string keeps. -/
lemma Reader.string_rule {f : α → Bytes → Option α} (h : ∀ str a', f a str = some a' → P a')
    (ha : P a) : P (Reader.string f a b).1 := by
  rw [Reader.string]
  split
  · exact ha
  · rename_i str b' _
    split
    · exact ha
    · rename_i a' heq
      exact h str a' heq

lemma Reader.blob_rule {n : ℕ} {f : α → Blob n → α} (h : ∀ x, P (f a x)) (ha : P a) :
    P (Reader.blob n f a b).1 := by
  refine Reader.string_rule (fun str a' heq => ?_) ha
  split_ifs at heq
  obtain rfl := Option.some.inj heq
  exact h _

/-- A version is checked, and not stored. -/
lemma Reader.version_fst (a : α) (b : Buffer) : (Reader.version a b).1 = a := by
  rw [Reader.version, Reader.integer]
  split
  · rfl
  · split
    · rfl
    · rename_i heq
      split_ifs at heq
      exact (Option.some.inj heq).symm

lemma Reader.version_rule (ha : P a) : P (Reader.version a b).1 := by
  rw [Reader.version_fst]
  exact ha

variable {β : Type} {a' : α} {b' : Buffer}

/-- What a successful decode of a string has read. -/
lemma Reader.string_inv {f : α → Bytes → Option α} (h : Reader.string f a b = (a', some b')) :
    ∃ str, b.readString = some (str, b') ∧ f a str = some a' := by
  rw [Reader.string] at h
  cases hs : b.readString with
  | none => simp [hs] at h
  | some r =>
      obtain ⟨str, b₁⟩ := r
      cases hf : f a str with
      | none => simp [hs, hf] at h
      | some x =>
          simp only [hs, hf, Prod.mk.injEq, Option.some.injEq] at h
          obtain ⟨rfl, rfl⟩ := h
          exact ⟨str, rfl, hf⟩

lemma Reader.blob_inv {n : ℕ} {f : α → Blob n → α} (h : Reader.blob n f a b = (a', some b')) :
    ∃ x : Blob n, b.readString = some (x.1, b') ∧ a' = f a x := by
  obtain ⟨str, hs, hf⟩ := Reader.string_inv h
  split_ifs at hf with hlen
  refine ⟨sliceBlob str 0 n, ?_, (Option.some.inj hf).symm⟩
  rw [hs, sliceBlob_val, ← hlen, slice_self]

lemma Reader.version_inv (h : Reader.version a b = (a', some b')) : a' = a :=
  (congrArg Prod.fst h).symm.trans (Reader.version_fst a b)

lemma Reader.part_inv {get : α → β} {set : α → β → α} {r : Reader β}
    (h : Reader.part get set r a b = (a', some b')) :
    ∃ x, r (get a) b = (x, some b') ∧ a' = set a x := by
  rw [Reader.part] at h
  obtain ⟨x, ob, hr⟩ : ∃ x ob, r (get a) b = (x, ob) := ⟨_, _, rfl⟩
  simp only [hr, Prod.mk.injEq] at h
  exact ⟨x, hr.trans (by rw [h.2]), h.1.symm⟩

end Rules

end Udap
