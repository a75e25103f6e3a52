import Udap.Bencode.Emits

/-!
What the readers do on bytes of the forms that the writers produce, whatever follows them.

* `Reads r a s Q`: on a buffer that goes on with `s` the decoder `r` of the object `a` succeeds,
  stops at the end of `s`, and leaves an object with `Q`.
* `reads_readDict`, `reads_readList`: dictionaries entry by entry, and lists item by item.
-/

namespace Udap

open ByteMem

namespace Buffer

/-- The buffer goes on with `s`. -/
structure Holds (b : Buffer) (s : Bytes) : Prop where
  room : b.cur + s.length ≤ b.sz
  bytes : b.bytes s.length = s

variable {b : Buffer} {s t : Bytes} {c : UInt8}

@[simp] lemma skip_zero (b : Buffer) : b.skip 0 = b := rfl

@[simp] lemma skip_skip (b : Buffer) (m n : ℕ) : (b.skip m).skip n = b.skip (m + n) := by
  rw [skip, skip, skip]
  congr 1
  exact Nat.add_assoc ..

lemma bytes_add (b : Buffer) (m n : ℕ) : b.bytes (m + n) = b.bytes m ++ (b.skip m).bytes n := by
  rw [Buffer.bytes, List.range_add, List.map_append, List.map_map]
  congr 1
  refine List.map_congr_left fun i _ => congrArg b.mem ?_
  exact (Nat.add_assoc ..).symm

lemma bytes_length (b : Buffer) (n : ℕ) : (b.bytes n).length = n := by
  rw [Buffer.bytes, List.length_map, List.length_range]

lemma Holds.left (h : b.Holds (s ++ t)) : b.Holds s := by
  have hroom := h.room
  have hbytes := h.bytes
  rw [List.length_append] at hroom hbytes
  rw [bytes_add] at hbytes
  exact ⟨by omega, List.append_inj_left hbytes (bytes_length ..)⟩

lemma Holds.right (h : b.Holds (s ++ t)) : (b.skip s.length).Holds t := by
  have hroom := h.room
  have hbytes := h.bytes
  rw [List.length_append] at hroom hbytes
  rw [bytes_add] at hbytes
  refine ⟨?_, List.append_inj_right hbytes (bytes_length ..)⟩
  change b.cur + s.length + t.length ≤ b.sz
  omega

lemma Holds.tail (h : b.Holds (c :: s)) : (b.skip 1).Holds s := Holds.right (s := [c]) h

lemma Holds.peek (h : b.Holds (c :: s)) : b.peek = c :=
  List.head_eq_of_cons_eq (Holds.left (s := [c]) h).bytes

lemma Holds.lt (h : b.Holds (c :: s)) : b.cur < b.sz := by
  have hroom := h.room
  rw [List.length_cons] at hroom
  omega

lemma Holds.length_le (h : b.Holds s) : s.length ≤ b.sizeLeft := by
  have hroom := h.room
  rw [Buffer.sizeLeft]
  omega

lemma Holds.sizeLeft_ne_zero (h : b.Holds (c :: s)) : b.sizeLeft ≠ 0 := by
  have hlen := h.length_le
  rw [List.length_cons] at hlen
  omega

lemma holds_ofBytes (data : Bytes) (after : ℕ → UInt8) : (ofBytes data after).Holds data where
  room := (Nat.zero_add _).le
  bytes := by
    refine List.ext_getElem (bytes_length ..) fun i hi hi' => ?_
    simp only [Buffer.bytes, List.getElem_map, List.getElem_range, ofBytes, Nat.zero_add]
    rw [List.getD_eq_getElem?_getD, List.getElem?_eq_getElem hi', Option.getD_some]

/-! ### Numbers and strings -/

/-- The loop goes on behind bytes without the delimiter. -/
lemma Holds.readUntil_add {delim : UInt8} (h : b.Holds s) (hs : delim ∉ s) (n : ℕ) :
    b.readUntil delim (s.length + n) =
      (s ++ ((b.skip s.length).readUntil delim n).1, ((b.skip s.length).readUntil delim n).2) := by
  induction s generalizing b with
  | nil => rw [List.length_nil, Nat.zero_add, skip_zero, List.nil_append]
  | cons c s ih =>
      have hc : c ≠ delim := fun heq => hs (heq ▸ List.mem_cons_self)
      have hmore := ih h.tail fun hmem => hs (List.mem_cons_of_mem c hmem)
      rw [List.length_cons, Nat.add_right_comm, Buffer.readUntil,
        if_neg (not_or.mpr ⟨h.peek ▸ hc, h.lt.ne⟩), hmore, skip_skip, Nat.add_comm 1, h.peek]
      rfl

lemma Holds.readUntil {delim : UInt8} (h : b.Holds (s ++ delim :: t)) (hs : delim ∉ s) {n : ℕ}
    (hn : s.length ≤ n) : b.readUntil delim n = (s, b.skip s.length) := by
  obtain ⟨k, rfl⟩ := Nat.exists_eq_add_of_le hn
  have hstop : (b.skip s.length).readUntil delim k = ([], b.skip s.length) := by
    cases k with
    | zero => rfl
    | succ k => exact if_pos (.inl h.right.peek)
  rw [h.left.readUntil_add hs, hstop, List.append_nil]

lemma Holds.readNumber {delim : UInt8} (h : b.Holds (s ++ delim :: t)) (hs : delim ∉ s)
    (hne : s ≠ []) {n : ℕ} (hn : s.length ≤ n) :
    b.readNumber delim n = some (s, b.skip s.length) := by
  rw [Buffer.readNumber, h.readUntil hs hn]
  exact if_neg (not_or.mpr ⟨hne, h.right.sizeLeft_ne_zero⟩)

/-- The length of a byte string is read from a buffer of nine characters. -/
lemma Holds.readString {data : Bytes} (h : b.Holds (strBytes data))
    (hlen : data.length < 10 ^ 9) :
    b.readString = some (data, b.skip (strBytes data).length) := by
  have hcolon : ascii ':' ∉ decimal data.length := fun hmem =>
    absurd (isdigit_of_mem_decimal hmem) (by decide)
  have hform : strBytes data = decimal data.length ++ ascii ':' :: data := by
    rw [strBytes, List.append_assoc]
    rfl
  rw [hform] at h ⊢
  have hnum : strtol (decimal data.length) = data.length :=
    strtol_decimal (hlen.trans (by norm_num))
  have hdata := h.right.tail
  rw [skip_skip] at hdata
  rw [Buffer.readString, h.readNumber hcolon (decimal_ne_nil _)
    (decimal_length_le (by norm_num) hlen)]
  simp only [hnum, skip_skip, Int.toNat_natCast]
  rw [if_neg (by omega), if_neg (not_lt.mpr hdata.length_le), hdata.bytes, List.length_append,
    List.length_cons, Nat.add_assoc, Nat.add_comm 1]

lemma Holds.readInteger {z : ℤ} (h : b.Holds (intBytes z)) (hz : -2 ^ 63 ≤ z)
    (hz' : z < 2 ^ 63) (hne : UInt64.ofInt z ≠ UInt64.ofInt (-1)) (result : UInt64) :
    b.readInteger result = (UInt64.ofInt z, some (b.skip (intBytes z).length)) := by
  have hend : ascii 'e' ∉ decimalInt z := fun hmem =>
    (of_mem_decimalInt hmem).elim (by decide) (fun hdigit => absurd hdigit (by decide))
  have hform : intBytes z = ascii 'i' :: (decimalInt z ++ [ascii 'e']) := rfl
  have habs : (decimalInt z).length ≤ 19 + 1 :=
    decimalInt_length_le (by norm_num) (by omega)
  rw [hform] at h
  rw [Buffer.readInteger, if_neg (not_not.mpr h.peek),
    h.tail.readNumber hend (decimalInt_ne_nil z) (habs.trans (by norm_num))]
  simp only [strtol_decimalInt hz hz', skip_skip]
  rw [if_neg hne, hform, List.length_cons, List.length_append, List.length_singleton]
  congr 3
  omega

/-- A signed number converts back to the unsigned one. -/
lemma ofInt_toInt64 (i : UInt64) : UInt64.ofInt i.toInt64.toInt = i := by
  have hbits : i.toInt64.toInt = (i.toNat : ℤ).bmod (2 ^ 64) :=
    BitVec.toInt_eq_toNat_bmod i.toBitVec
  have hcast : ((2 ^ 64 : ℕ) : ℤ) = 2 ^ 64 := by norm_num
  have hmod : i.toInt64.toInt % 2 ^ 64 = i.toNat := by
    have hlt := i.toNat_lt
    rw [hbits, ← hcast, Int.bmod_emod]
    omega
  rw [UInt64.ofInt, hmod, Int.toNat_natCast, UInt64.ofNat_toNat]

lemma Holds.readInteger_uint64 {i : UInt64} (h : b.Holds (intBytes i.toInt64.toInt)) (hi : i ≠ -1)
    (result : UInt64) :
    b.readInteger result = (i, some (b.skip (intBytes i.toInt64.toInt).length)) := by
  have hread := h.readInteger (Int64.le_toInt _) (Int64.toInt_lt _)
    (by rwa [ofInt_toInt64]) result
  rwa [ofInt_toInt64] at hread

lemma Holds.readInteger_natCast {n : ℕ} (h : b.Holds (intBytes n)) (hn : n < 2 ^ 63)
    (result : UInt64) :
    b.readInteger result = (UInt64.ofNat n, some (b.skip (intBytes n).length)) := by
  have hcast : UInt64.ofInt (n : ℤ) = UInt64.ofNat n := by
    have hmod : (n : ℤ) % 2 ^ 64 = n := Int.emod_eq_of_lt (by omega) (by omega)
    rw [UInt64.ofInt, hmod, Int.toNat_natCast]
  rw [← hcast]
  refine h.readInteger (by omega) (by exact_mod_cast hn) ?_ result
  rw [hcast]
  intro heq
  have hval := congrArg UInt64.toNat heq
  rw [UInt64.toNat_ofNat_of_lt' (hn.trans (by norm_num))] at hval
  rw [hval] at hn
  exact absurd hn (by decide)

end Buffer

/-- The room a number takes. -/
lemma intBytes_length_le (i : UInt64) : (intBytes i.toInt64.toInt).length ≤ 22 := by
  have hle := i.toInt64.toInt_lt
  have hge := i.toInt64.le_toInt
  have hlen := decimalInt_length_le (z := i.toInt64.toInt) (k := 19) (by norm_num) (by omega)
  simp only [intBytes, List.length_append, List.length_singleton]
  omega

/-! ### Decoders -/

/-- On a buffer that goes on with `s` the decoder succeeds behind `s`, with an object as `Q`
says. -/
def Reads {α : Type} (r : Reader α) (a : α) (s : Bytes) (Q : α → Prop) : Prop :=
  ∀ b : Buffer, b.Holds s → ∃ a', r a b = (a', some (b.skip s.length)) ∧ Q a'

/-- The decoder comes to the end of `s`, and `Q` says what object it leaves with what verdict. -/
def Ends {α : Type} (r : Reader α) (a : α) (s : Bytes) (Q : α → Bool → Prop) : Prop :=
  ∀ b : Buffer, b.Holds s →
    ∃ a' ok, r a b = (a', if ok then some (b.skip s.length) else none) ∧ Q a' ok

section Decoders

variable {α β : Type} {r : Reader α} {a : α} {s t : Bytes} {Q Q' : α → Prop}
  {E : α → Bool → Prop}

lemma Reads.imp (h : Reads r a s Q) (himp : ∀ a', Q a' → Q' a') : Reads r a s Q' := by
  intro b hb
  obtain ⟨a', hr, hq⟩ := h b hb
  exact ⟨a', hr, himp a' hq⟩

lemma reads_string {f : α → Bytes → Option α} {data : Bytes} {a' : α}
    (hlen : data.length < 10 ^ 9) (hf : f a data = some a') :
    Reads (.string f) a (strBytes data) (· = a') := by
  intro b hb
  refine ⟨a', ?_, rfl⟩
  rw [Reader.string, hb.readString hlen]
  simp only [hf]

lemma reads_blob {n : ℕ} {f : α → Blob n → α} (x : Blob n) (hn : n < 10 ^ 9) :
    Reads (.blob n f) a (strBytes x.1) (· = f a x) := by
  refine reads_string (by rwa [x.2]) ?_
  have hslice : sliceBlob x.1 0 n = x := by
    refine Subtype.ext ?_
    have hhead := slice_head (c := []) x.2
    rwa [List.append_nil] at hhead
  rw [if_pos x.2, hslice]

lemma reads_integer_natCast {f : α → UInt64 → Option α} {n : ℕ} {a' : α} (hn : n < 2 ^ 63)
    (hf : f a (UInt64.ofNat n) = some a') : Reads (.integer f) a (intBytes n) (· = a') := by
  intro b hb
  refine ⟨a', ?_, rfl⟩
  rw [Reader.integer, hb.readInteger_natCast hn]
  simp only [hf]

lemma reads_version : Reads Reader.version a (intBytes 0) (· = a) :=
  reads_integer_natCast (n := 0) (by norm_num) (if_pos rfl)

/-- A decoder of an integer that stores it at once. -/
lemma reads_readInteger {i j : UInt64} (hi : i ≠ -1) :
    Reads (fun t b => b.readInteger t) j (intBytes i.toInt64.toInt) (· = i) :=
  fun _ hb => ⟨i, hb.readInteger_uint64 hi j, rfl⟩

/-- A decoder of a part stores what the decoder of the part leaves. -/
lemma Reads.part {g : α → β} {f : α → β → α} {rb : Reader β} {P : β → Prop}
    (h : Reads rb (g a) s P) : Reads (.part g f rb) a s (fun a' => ∃ x, P x ∧ a' = f a x) := by
  intro b hb
  obtain ⟨x, hr, hx⟩ := h b hb
  refine ⟨f a x, ?_, x, hx, rfl⟩
  rw [Reader.part, hr]

lemma Reads.part_eq {g : α → β} {f : α → β → α} {rb : Reader β} {x : β}
    (h : Reads rb (g a) s (· = x)) : Reads (.part g f rb) a s (· = f a x) := by
  refine h.part.imp ?_
  rintro _ ⟨_, rfl, rfl⟩
  rfl

/-! ### Dictionaries -/

/-- An item of a list is not taken for its end. -/
def Starts (s : Bytes) : Prop := ∃ c t, s = c :: t ∧ c ≠ ascii 'e'

/-- A byte string begins with the digits of its length. -/
lemma starts_strBytes (data : Bytes) : Starts (strBytes data) := by
  obtain ⟨c, cs, hform⟩ := List.exists_cons_of_ne_nil (decimal_ne_nil data.length)
  refine ⟨c, cs ++ ([ascii ':'] ++ data), ?_, ?_⟩
  · rw [strBytes, hform, List.append_assoc]
    rfl
  · have hdigit : isdigit c = true := isdigit_of_mem_decimal (hform ▸ List.mem_cons_self)
    rintro rfl
    exact absurd hdigit (by decide)

lemma strBytes_length_pos (data : Bytes) : 0 < (strBytes data).length := by
  obtain ⟨c, t, hform, -⟩ := starts_strBytes data
  rw [hform]
  exact Nat.succ_pos _

/-- The loop of a dictionary on the entries and the end `s`. -/
def ReadsEntries (onKey : Option Bytes → Reader α) (a : α) (s : Bytes) (E : α → Bool → Prop) :
    Prop := ∀ fuel ≥ s.length, Ends (dictLoop onKey fuel) a s E

variable {onKey : Option Bytes → Reader α}

lemma keyBytes_eq (c : Char) : keyBytes c = 49 :: ascii ':' :: [ascii c] := by
  have hone : decimal 1 = [49] := by decide
  rw [keyBytes, strBytes, List.length_singleton, hone]
  rfl

/-- Where a key begins, the loop goes on and reads it. -/
lemma Buffer.Holds.key {key : Bytes} {b : Buffer} (hb : b.Holds (strBytes key ++ s))
    (hlen : key.length < 10 ^ 9) :
    (b.sizeLeft ≠ 0 ∧ b.peek ≠ ascii 'e') ∧
      b.readString = some (key, b.skip (strBytes key).length) := by
  have hkey := hb.left
  obtain ⟨c, t, hform, hc⟩ := starts_strBytes key
  refine ⟨?_, hkey.readString hlen⟩
  rw [hform] at hkey
  exact ⟨hkey.sizeLeft_ne_zero, by rwa [hkey.peek]⟩

/-- One round of the loop. -/
lemma dictLoop_key {key : Bytes} {b : Buffer} (hb : b.Holds (strBytes key ++ s))
    (hlen : key.length < 10 ^ 9) (fuel : ℕ) :
    dictLoop onKey (fuel + 1) a b =
      match onKey (some key) a (b.skip (strBytes key).length) with
      | (a, none) => (a, none)
      | (a, some b) => dictLoop onKey fuel a b := by
  obtain ⟨hmore, hread⟩ := hb.key hlen
  obtain ⟨a₁, rest, hr⟩ : ∃ a₁ rest, onKey (some key) a (b.skip (strBytes key).length) =
    (a₁, rest) := ⟨_, _, rfl⟩
  cases rest with
  | none => simp only [dictLoop, if_pos hmore, hread, hr]
  | some b₁ => simp only [dictLoop, if_pos hmore, hread, hr]

lemma keyBytes_length (c : Char) : (keyBytes c).length = 3 := by
  rw [keyBytes_eq]
  rfl

/-- An entry that is accepted, under any key. -/
lemma ReadsEntries.under {key : Bytes} {P : α → Prop} (hlen : key.length < 10 ^ 9)
    (h : Reads (onKey (some key)) a s P) (h' : ∀ a₁, P a₁ → ReadsEntries onKey a₁ t E) :
    ReadsEntries onKey a (strBytes key ++ s ++ t) E := by
  intro fuel hfuel b hb
  rw [List.append_assoc] at hb hfuel ⊢
  rw [List.length_append, List.length_append] at hfuel
  have hpos := strBytes_length_pos key
  obtain ⟨fuel, rfl⟩ : ∃ k, fuel = k + 1 := ⟨fuel - 1, by omega⟩
  obtain ⟨a₁, hr₁, hp⟩ := h _ hb.right.left
  obtain ⟨a', ok, hr, hq⟩ := h' a₁ hp fuel (by omega) _ hb.right.right
  refine ⟨a', ok, ?_, hq⟩
  rw [dictLoop_key hb hlen, hr₁]
  dsimp only
  rw [hr, Buffer.skip_skip, Buffer.skip_skip, List.length_append, List.length_append]

/-- An entry that is accepted. -/
lemma ReadsEntries.cons {c : Char} {P : α → Prop} (h : Reads (onKey (some [ascii c])) a s P)
    (h' : ∀ a₁, P a₁ → ReadsEntries onKey a₁ t E) :
    ReadsEntries onKey a (entryBytes c s ++ t) E :=
  .under (by rw [List.length_singleton]; norm_num) h h'

/-- An entry that is refused. -/
lemma ReadsEntries.refused {c : Char} {a₁ : α}
    (h : ∀ b : Buffer, b.Holds s → onKey (some [ascii c]) a b = (a₁, none)) (hE : E a₁ false) :
    ReadsEntries onKey a (entryBytes c s ++ t) E := by
  intro fuel hfuel b hb
  rw [entryBytes, List.append_assoc] at hb hfuel
  rw [List.length_append, keyBytes_length] at hfuel
  obtain ⟨fuel, rfl⟩ : ∃ k, fuel = k + 1 := ⟨fuel - 1, by omega⟩
  refine ⟨a₁, false, ?_, hE⟩
  have hvalue : (b.skip (strBytes [ascii c]).length).Holds s := hb.right.left
  rw [dictLoop_key hb (by rw [List.length_singleton]; norm_num), h _ hvalue]
  rfl

lemma ReadsEntries.entry {c : Char} {a₁ : α} (h : Reads (onKey (some [ascii c])) a s (· = a₁))
    (h' : ReadsEntries onKey a₁ t E) : ReadsEntries onKey a (entryBytes c s ++ t) E :=
  .cons h fun _ heq => heq ▸ h'

/-- The end of the loop has the last word. -/
lemma ReadsEntries.nil (h : Ends (onKey none) a [] E) : ReadsEntries onKey a [ascii 'e'] E := by
  intro fuel hfuel b hb
  rw [List.length_singleton] at hfuel
  obtain ⟨fuel, rfl⟩ : ∃ k, fuel = k + 1 := ⟨fuel - 1, by omega⟩
  have hend : b.peek = ascii 'e' := hb.peek
  obtain ⟨a', ok, hr, hq⟩ := h (b.skip 1) ⟨hb.room, rfl⟩
  refine ⟨a', ok, ?_, hq⟩
  rw [dictLoop, if_neg fun hmore => hmore.2 hend, if_neg (not_not.mpr hend), hr]
  rfl

lemma Reads.ends (h : Reads r a s Q) : Ends r a s fun a' ok => ok = true ∧ Q a' := by
  intro b hb
  obtain ⟨a', hr, hq⟩ := h b hb
  exact ⟨a', true, hr, rfl, hq⟩

lemma Ends.reads (h : Ends r a s fun a' ok => ok = true ∧ Q a') : Reads r a s Q := by
  intro b hb
  obtain ⟨a', _, hr, rfl, hq⟩ := h b hb
  exact ⟨a', hr, hq⟩

lemma ends_readDict (h : ReadsEntries onKey a s E) :
    Ends (readDict onKey) a ([ascii 'd'] ++ s) E := by
  intro b hb
  have hs : (b.skip 1).Holds s := hb.right
  obtain ⟨a', ok, hr, hq⟩ := h ((b.skip 1).sizeLeft + 1) (hs.length_le.trans (Nat.le_succ _)) _ hs
  refine ⟨a', ok, ?_, hq⟩
  rw [readDict, if_neg (not_not.mpr (Buffer.Holds.peek hb)), hr, Buffer.skip_skip,
    List.length_append]
  rfl

lemma reads_readDict (h : ReadsEntries onKey a s fun a' ok => ok = true ∧ Q a') :
    Reads (readDict onKey) a ([ascii 'd'] ++ s) Q := (ends_readDict h).reads

/-- An end that accepts. -/
lemma ends_nil (h : ∀ b, onKey none a b = (a, some b)) (hq : Q a) :
    Ends (onKey none) a [] fun a' ok => ok = true ∧ Q a' := fun b _ => ⟨a, true, h b, rfl, hq⟩

/-! ### Lists -/

variable {γ : Type} {onItem : Bool → Reader (List β)} {bytes : γ → Bytes} {R : γ → β → Prop}

lemma reads_listLoop {items : List γ} {l : List β}
    (hitem : ∀ x ∈ items, Starts (bytes x) ∧
      ∀ l, Reads (onItem true) l (bytes x) fun l' => ∃ y, R x y ∧ l' = l ++ [y])
    (hend : ∀ l, Reads (onItem false) l [] (· = l)) {fuel : ℕ}
    (hfuel : ((items.map bytes).flatten ++ [ascii 'e']).length ≤ fuel) :
    Reads (listLoop onItem fuel) l ((items.map bytes).flatten ++ [ascii 'e'])
      fun l' => ∃ ys, List.Forall₂ R items ys ∧ l' = l ++ ys := by
  induction items generalizing l fuel with
  | nil =>
      intro b hb
      obtain ⟨fuel, rfl⟩ : ∃ k, fuel = k + 1 := ⟨fuel - 1, by simp at hfuel; omega⟩
      have hpeek : b.peek = ascii 'e' := Buffer.Holds.peek hb
      obtain ⟨l', hr, rfl⟩ := hend l (b.skip 1) ⟨hb.room, rfl⟩
      refine ⟨l', ?_, [], .nil, (List.append_nil l').symm⟩
      rw [listLoop, if_neg fun hmore => hmore.2 hpeek, if_neg (not_not.mpr hpeek), hr]
      rfl
  | cons x items ih =>
      intro b hb
      obtain ⟨⟨c, t, hx, hc⟩, hreads⟩ := hitem x List.mem_cons_self
      have hsplit : ((x :: items).map bytes).flatten ++ [ascii 'e'] =
          bytes x ++ ((items.map bytes).flatten ++ [ascii 'e']) := by
        rw [List.map_cons, List.flatten_cons, List.append_assoc]
      rw [hsplit] at hb hfuel ⊢
      rw [List.length_append, hx, List.length_cons] at hfuel
      obtain ⟨fuel, rfl⟩ : ∃ k, fuel = k + 1 := ⟨fuel - 1, by omega⟩
      have hhead := hb.left
      rw [hx] at hhead
      have hmore : b.sizeLeft ≠ 0 ∧ b.peek ≠ ascii 'e' :=
        ⟨hhead.sizeLeft_ne_zero, by rwa [hhead.peek]⟩
      obtain ⟨l₁, hr₁, y, hy, rfl⟩ := hreads l b hb.left
      have hrest : ((items.map bytes).flatten ++ [ascii 'e']).length ≤ fuel := by omega
      obtain ⟨l', hr, ys, hys, rfl⟩ := ih (l := l ++ [y])
        (fun z hz => hitem z (List.mem_cons_of_mem x hz)) hrest _ hb.right
      refine ⟨l ++ [y] ++ ys, ?_, y :: ys, .cons hy hys, List.append_assoc ..⟩
      rw [listLoop, if_pos hmore, hr₁]
      simp only [hr, Buffer.skip_skip, List.length_append]

lemma reads_readList {items : List γ} {l : List β}
    (hitem : ∀ x ∈ items, Starts (bytes x) ∧
      ∀ l, Reads (onItem true) l (bytes x) fun l' => ∃ y, R x y ∧ l' = l ++ [y])
    (hend : ∀ l, Reads (onItem false) l [] (· = l)) :
    Reads (readList onItem) l (listBytes (items.map bytes))
      fun l' => ∃ ys, List.Forall₂ R items ys ∧ l' = l ++ ys := by
  intro b hb
  have hs : (b.skip 1).Holds ((items.map bytes).flatten ++ [ascii 'e']) := hb.right
  obtain ⟨l', hr, hq⟩ := reads_listLoop hitem hend (hs.length_le.trans (Nat.le_succ _)) _ hs
  refine ⟨l', ?_, hq⟩
  rw [readList, if_neg (not_not.mpr (Buffer.Holds.peek hb)), hr, Buffer.skip_skip, listBytes]
  simp only [List.length_append]
  rfl

/-- `BEncodeReadList` decodes every item in a new place. -/
lemma reads_bencodeReadList {item : β} {decode : Reader β} {items : List γ} {l : List β}
    (hitem : ∀ x ∈ items, Starts (bytes x) ∧ Reads decode item (bytes x) (R x)) :
    Reads (bencodeReadList item decode) l (listBytes (items.map bytes))
      fun l' => ∃ ys, List.Forall₂ R items ys ∧ l' = l ++ ys := by
  refine reads_readList (fun x hx => ⟨(hitem x hx).1, fun l b hb => ?_⟩)
    (fun l b _ => ⟨l, rfl, rfl⟩)
  obtain ⟨y, hr, hy⟩ := (hitem x hx).2 b hb
  refine ⟨l ++ [y], ?_, y, hy, rfl⟩
  simp only [if_true]
  rw [hr]

/-! ### Round trips -/

/-- Whenever the encoder reports success, the decoder comes to the end of what it wrote, whatever
follows, and `E` says what object it leaves with what verdict. -/
def RoundTrips (encode : Writer) (parse : Reader α) (a : α) (E : α → Bool → Prop) : Prop :=
  ∀ b : Buffer, b.Inside → (encode b).2 = true →
    ∃ s, b.Wrote s (encode b).1 ∧ Ends parse a s E

lemma Sure.roundTrips {w : Writer} (h : Sure w s) (hr : Ends r a s E) : RoundTrips w r a E :=
  fun b hb hw => ⟨s, h.wrote b hb hw, hr⟩

end Decoders

end Udap
