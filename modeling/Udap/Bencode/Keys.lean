import Udap.Bencode.Accepts
import Udap.ContactCodec

/-!
Comparing the keys of dictionaries.

* `Buffer.eq`: `udap_buffer_eq`, which stops at the end of the string or of the buffer and asks only
  whether the string has ended.
* `Buffer.eq_iff`: so the buffer may go on behind the string.
* `Buffer.comparesExactly_iff`: the comparison is right exactly if it does not.
* `Buffer.eq_ofBytes`: on a key with a character this is `isKey`.
* `RejectsKey`: a decoder rejects every dictionary that has a key which it does not declare.
* `TakesKeys.rejectsKey`: it does so for keys that do not go on behind a declared one.
* `Admits.not_rejectsKey`: where the entry under a declared key is taken, it is taken under every
  key that goes on behind it.
-/

namespace Udap

open ByteMem

/-- The value of a `char`, which is signed on some machines. -/
def charValue (signed : Bool) (c : UInt8) : ℤ :=
  if signed = true ∧ 128 ≤ c then (c.toNat : ℤ) - 256 else c.toNat

/-- The characters of the string have the values of their bytes. -/
def Plain (signed : Bool) (s : Bytes) : Prop := signed = true → ∀ c ∈ s, c < 128

lemma charValue_eq_zero {signed : Bool} {c : UInt8} : charValue signed c = 0 ↔ c = 0 := by
  have hlt := c.toNat_lt
  have hzero : c = 0 ↔ c.toNat = 0 := UInt8.toNat_inj.symm
  rw [charValue, hzero]
  split_ifs with h
  · have hlarge : 128 ≤ c.toNat := UInt8.le_iff_toNat_le.mp h.2
    exact iff_of_false (by omega) (by omega)
  · exact Nat.cast_eq_zero

/-- A byte equals a `char` only if this is no negative one. -/
lemma eq_charValue_iff {signed : Bool} {x c : UInt8} :
    (x.toNat : ℤ) = charValue signed c ↔ x = c ∧ (signed = true → c < 128) := by
  have hlt := c.toNat_lt
  rw [charValue, ← UInt8.toNat_inj]
  split_ifs with h
  · refine iff_of_false (by omega) ?_
    rintro ⟨-, hsmall⟩
    exact absurd (hsmall h.1) (UInt8.not_lt.mpr h.2)
  · rw [Nat.cast_inj]
    refine (and_iff_left fun hsigned => UInt8.not_le.mp fun hle => h ⟨hsigned, hle⟩).symm

namespace Buffer

/-- `udap_buffer_eq` with the array `str`, behind which there is a terminator. -/
def eq (signed : Bool) : Buffer → Bytes → Bool
  | _, [] => true
  | b, c :: str =>
      if charValue signed c ≠ 0 ∧ b.cur ≠ b.sz then
        if (b.peek.toNat : ℤ) ≠ charValue signed c then false
        else eq signed (b.skip 1) str
      else charValue signed c = 0

variable {signed : Bool} {b : Buffer} {s str : Bytes} {c : UInt8}

lemma bytes_succ (b : Buffer) (n : ℕ) : b.bytes (n + 1) = b.peek :: (b.skip 1).bytes n := by
  rw [Nat.add_comm, bytes_add]
  rfl

/-- What `udap_buffer_eq` tests: that the bytes from the position on begin with the string, and that
this does not go past the end of the buffer. -/
lemma eq_iff : b.eq signed str = true ↔ Plain signed (cString str) ∧
    b.bytes (cString str).length = cString str ∧
      (b.cur ≤ b.sz → b.cur + (cString str).length ≤ b.sz) := by
  induction str generalizing b with
  | nil => exact iff_of_true rfl ⟨fun _ c hc => absurd hc List.not_mem_nil, rfl, id⟩
  | cons c str ih =>
      rw [eq]
      by_cases hzero : c = 0
      · -- the string ends here
        have hvalue : charValue signed c = 0 := charValue_eq_zero.mpr hzero
        have hstring : cString (c :: str) = [] := by
          rw [cString, hzero]
          rfl
        rw [if_neg fun h => h.1 hvalue, hstring]
        exact iff_of_true (decide_eq_true hvalue)
          ⟨fun _ d hd => absurd hd List.not_mem_nil, rfl, id⟩
      · have hvalue : charValue signed c ≠ 0 := charValue_eq_zero.not.mpr hzero
        have hstring : cString (c :: str) = c :: cString str :=
          List.takeWhile_cons_of_pos (bne_iff_ne.mpr hzero)
        rw [hstring, List.length_cons, bytes_succ, Plain]
        simp only [List.forall_mem_cons, List.cons.injEq]
        by_cases hend : b.cur = b.sz
        · -- the buffer ends here
          rw [if_neg fun h => h.2 hend]
          refine iff_of_false (by simpa using hvalue) ?_
          rintro ⟨-, -, hroom⟩
          have := hroom hend.le
          omega
        · rw [if_pos ⟨hvalue, hend⟩]
          by_cases hpeek : (b.peek.toNat : ℤ) = charValue signed c
          · obtain ⟨hbyte, hsmall⟩ := eq_charValue_iff.mp hpeek
            have hroom : ((b.skip 1).cur ≤ (b.skip 1).sz →
                (b.skip 1).cur + (cString str).length ≤ (b.skip 1).sz) ↔
                (b.cur ≤ b.sz → b.cur + ((cString str).length + 1) ≤ b.sz) := by
              simp only [skip]
              omega
            rw [if_neg (not_not.mpr hpeek), ih, Plain, hroom]
            refine and_congr ⟨fun h hs => ⟨hsmall hs, h hs⟩, fun h hs => (h hs).2⟩ ?_
            exact and_congr_left fun _ => (and_iff_right hbyte).symm
          · rw [if_pos hpeek]
            refine iff_of_false Bool.false_ne_true ?_
            rintro ⟨hplain, ⟨hbyte, -⟩, -⟩
            exact hpeek (eq_charValue_iff.mpr ⟨hbyte, fun hs => (hplain hs).1⟩)

/-- `udap_buffer_eq` tells whether the bytes from the position to the end are the characters of the
string. -/
def ComparesExactly (signed : Bool) (b : Buffer) (str : Bytes) : Prop :=
  b.eq signed str = true ↔ b.bytes b.sizeLeft = cString str

/-- The buffer begins with the string and goes on behind it, or its position is past its end. -/
def GoesOn (b : Buffer) (s : Bytes) : Prop :=
  b.bytes s.length = s ∧ (b.cur + s.length < b.sz ∨ b.sz < b.cur ∧ s ≠ [])

lemma bytes_sizeLeft_iff :
    b.bytes b.sizeLeft = s ↔ s.length = b.sizeLeft ∧ b.bytes s.length = s := by
  constructor
  · rintro rfl
    rw [bytes_length]
    exact ⟨rfl, rfl⟩
  · rintro ⟨hlen, hbytes⟩
    rwa [hlen] at hbytes

/-- The comparison is exact if and only if the buffer does not go on behind the string; a string
with characters that are negative must be another one than that of the buffer. -/
lemma comparesExactly_iff : b.ComparesExactly signed str ↔
    (Plain signed (cString str) → ¬ b.GoesOn (cString str)) ∧
      (¬ Plain signed (cString str) → b.bytes b.sizeLeft ≠ cString str) := by
  rw [ComparesExactly, eq_iff, GoesOn, bytes_sizeLeft_iff, sizeLeft]
  by_cases hplain : Plain signed (cString str)
  · have hnil : cString str ≠ [] ↔ (cString str).length ≠ 0 := List.length_eq_zero_iff.not.symm
    simp only [hplain, true_and, not_true_eq_false, false_imp_iff, and_true, true_imp_iff, hnil]
    by_cases hbytes : b.bytes (cString str).length = cString str
    · simp only [hbytes, true_and, and_true]
      omega
    · simp only [hbytes, false_and, and_false, not_false_eq_true]
  · simp only [hplain, false_and, false_iff, false_imp_iff, true_and, not_false_eq_true,
      true_imp_iff]
    exact not_congr bytes_sizeLeft_iff.symm

end Buffer

/-! ### Keys -/

lemma isKey_cons (x : UInt8) (rest : Bytes) (c : Char) : isKey (x :: rest) c = (x == ascii c) := by
  simp [isKey, bufferEq]

lemma isKey_iff {key : Bytes} {c : Char} : isKey key c = true ↔ ∃ rest, key = ascii c :: rest := by
  cases key with
  | nil => exact iff_of_false Bool.false_ne_true (by simp)
  | cons x rest => simp [isKey_cons]

/-- On a key that was read, `udap_buffer_eq` with a character is the test of the decoders. -/
lemma Buffer.eq_ofBytes (signed : Bool) (key : Bytes) (after : ℕ → UInt8) {c : Char}
    (hne : ascii c ≠ 0) (hlt : ascii c < 128) :
    (Buffer.ofBytes key after).eq signed [ascii c] = isKey key c := by
  have hvalue : charValue signed (ascii c) ≠ 0 := charValue_eq_zero.not.mpr hne
  cases key with
  | nil =>
      rw [Buffer.eq, if_neg fun h => h.2 rfl]
      exact decide_eq_false hvalue
  | cons x key =>
      have hmore : (ofBytes (x :: key) after).cur ≠ (ofBytes (x :: key) after).sz :=
        (Nat.succ_ne_zero _).symm
      have hpeek : (ofBytes (x :: key) after).peek = x := rfl
      rw [Buffer.eq, if_pos ⟨hvalue, hmore⟩, hpeek, isKey_cons]
      by_cases hx : x = ascii c
      · have heq : (x.toNat : ℤ) = charValue signed (ascii c) :=
          eq_charValue_iff.mpr ⟨hx, fun _ => hlt⟩
        rw [if_neg (not_not.mpr heq), Buffer.eq, hx, beq_self_eq_true]
      · have heq : (x.toNat : ℤ) ≠ charValue signed (ascii c) :=
          fun h => hx (eq_charValue_iff.mp h).1
        rw [if_pos heq, beq_eq_false_iff_ne.mpr hx]

/-- The key is none of the declared ones. -/
def Undeclared (declared : List Char) (key : Bytes) : Prop := ∀ c ∈ declared, key ≠ [ascii c]

/-- The key begins as one of these and goes on, and it is short enough to be read. -/
def Overlong (keys : List Char) (key : Bytes) : Prop :=
  1 < key.length ∧ key.length < 10 ^ 9 ∧ ∃ c ∈ keys, key.head? = some (ascii c)

lemma Overlong.undeclared {keys : List Char} {key : Bytes} (h : Overlong keys key)
    (declared : List Char) : Undeclared declared key := by
  rintro c - rfl
  exact absurd h.1 (by simp)

/-- The length of a string is read from nine characters. -/
lemma Buffer.readString_length_lt {b b' : Buffer} {str : Bytes}
    (h : b.readString = some (str, b')) : str.length < 10 ^ 9 := by
  rw [readString] at h
  cases hnumber : b.readNumber (ascii ':') 9 with
  | none =>
      rw [hnumber] at h
      cases h
  | some r =>
      obtain ⟨text, rest⟩ := r
      obtain ⟨⟨c, hc⟩, -⟩ := readNumber_iff.mp hnumber
      have hlt := strtol_lt hc.length_le
      simp only [hnumber] at h
      split_ifs at h
      obtain ⟨rfl, -⟩ := Prod.mk.inj (Option.some.inj h)
      rw [bytes_length]
      omega

/-! ### Dictionaries -/

section Dictionaries

variable {α : Type} {onKey : Option Bytes → Reader α} {declared : α → List Char}
  {keys : List Char} {key : Bytes} {a : α} {b : Buffer} {call : KeyCall α}

/-- Every dictionary that has the key, where this is not declared, is rejected. -/
def RejectsKey (onKey : Option Bytes → Reader α) (declared : α → List Char) (a : α)
    (key : Bytes) : Prop :=
  ∀ b, (∃ call ∈ readCalls onKey a b, call.key = some key ∧
    Undeclared (declared call.object) key) → (readDict onKey a b).2 = none

/-- In a dictionary that is accepted every entry is, and its key was short enough to be read. -/
lemma dictCalls_accepted (fuel : ℕ) (h : (dictLoop onKey fuel a b).2 ≠ none)
    (hcall : call ∈ dictCalls onKey fuel a b) (hkey : call.key = some key) :
    (onKey (some key) call.object call.buffer).2 ≠ none ∧ key.length < 10 ^ 9 := by
  induction fuel generalizing a b with
  | zero => exact absurd hcall List.not_mem_nil
  | succ fuel ih =>
      rw [dictLoop] at h
      rw [dictCalls] at hcall
      split_ifs at h hcall
      · cases hs : b.readString with
        | none => simp [hs] at hcall
        | some r =>
            obtain ⟨key', b₁⟩ := r
            obtain ⟨a', ob, hk⟩ : ∃ a' ob, onKey (some key') a b₁ = (a', ob) := ⟨_, _, rfl⟩
            cases ob with
            | none => simp [hs, hk] at h
            | some b' =>
                simp only [hs, hk] at h hcall
                obtain rfl | hcall := List.mem_cons.mp hcall
                · obtain rfl := Option.some.inj hkey
                  refine ⟨?_, Buffer.readString_length_lt hs⟩
                  rw [hk]
                  exact Option.some_ne_none b'
                · exact ih h hcall
      · exact absurd hcall List.not_mem_nil
      · rw [List.mem_singleton.mp hcall] at hkey
        cases hkey

/-- The decoder takes an entry only under a key that begins as one of these, which is declared. -/
def TakesKeys (onKey : Option Bytes → Reader α) (declared : α → List Char)
    (keys : List Char) : Prop :=
  ∀ key a b, (onKey (some key) a b).2 ≠ none →
    ∃ c ∈ keys, c ∈ declared a ∧ isKey key c = true

/-- What is accepted has overlong keys only, besides the declared ones. -/
lemma TakesKeys.rejectsKey (h : TakesKeys onKey declared keys) (hno : ¬ Overlong keys key) (a : α) :
    RejectsKey onKey declared a key := by
  rintro b ⟨call, hcall, hkey, hundeclared⟩
  by_contra haccepted
  rw [readDict] at haccepted
  rw [readCalls] at hcall
  split_ifs at haccepted hcall
  · exact haccepted rfl
  · obtain ⟨htaken, hlen⟩ := dictCalls_accepted _ haccepted hcall hkey
    obtain ⟨c, hc, hdeclared, hstart⟩ := h key _ _ htaken
    obtain ⟨rest, rfl⟩ := isKey_iff.mp hstart
    have hrest : rest ≠ [] := by
      rintro rfl
      exact hundeclared c hdeclared rfl
    have hlong : 1 < (ascii c :: rest).length :=
      Nat.succ_lt_succ (List.length_pos_iff.mpr hrest)
    exact hno ⟨hlong, hlen, c, hc, rfl⟩

/-- A dictionary with the entries `s` is accepted, and one of its entries is under the key. -/
structure Admits (onKey : Option Bytes → Reader α) (key : Bytes) (a : α) (s : Bytes) : Prop where
  accepted : ReadsEntries onKey a s fun _ ok => ok = true
  entry : ∀ fuel ≥ s.length, ∀ b : Buffer, b.Holds s →
    ∃ call ∈ dictCalls onKey fuel a b, call.key = some key

variable {s t : Bytes} {P : α → Prop}

lemma dictCalls_key (hb : b.Holds (strBytes key ++ s)) (hlen : key.length < 10 ^ 9) (fuel : ℕ) :
    dictCalls onKey (fuel + 1) a b =
      ⟨some key, a, b.skip (strBytes key).length⟩ ::
        match onKey (some key) a (b.skip (strBytes key).length) with
        | (_, none) => []
        | (a, some b) => dictCalls onKey fuel a b := by
  obtain ⟨hmore, hread⟩ := hb.key hlen
  rw [dictCalls, if_pos hmore]
  generalize b.readString = r at hread ⊢
  subst hread
  rfl

/-- The entry is the last one. -/
lemma Admits.last (hlen : key.length < 10 ^ 9) (h : Reads (onKey (some key)) a s P)
    (hend : ∀ a', P a' → ∀ b, ∃ a'', onKey none a' b = (a'', some b)) :
    Admits onKey key a (strBytes key ++ s ++ [ascii 'e']) where
  accepted := by
    refine .under hlen h fun a' ha' => .nil fun b _ => ?_
    obtain ⟨a'', hlast⟩ := hend a' ha' b
    exact ⟨a'', true, hlast, rfl⟩
  entry fuel hfuel b hb := by
    rw [List.append_assoc] at hb hfuel
    obtain ⟨fuel, rfl⟩ : ∃ k, fuel = k + 1 := ⟨fuel - 1, by simp at hfuel; omega⟩
    rw [dictCalls_key hb hlen]
    exact ⟨_, List.mem_cons_self, rfl⟩

/-- The entry comes behind one that is accepted. -/
lemma Admits.behind {first : Bytes} (hlen : first.length < 10 ^ 9)
    (h : Reads (onKey (some first)) a s P) (h' : ∀ a', P a' → Admits onKey key a' t) :
    Admits onKey key a (strBytes first ++ s ++ t) where
  accepted := .under hlen h fun a' ha' => (h' a' ha').accepted
  entry fuel hfuel b hb := by
    rw [List.append_assoc] at hb hfuel
    rw [List.length_append, List.length_append] at hfuel
    have hpos := strBytes_length_pos first
    obtain ⟨fuel, rfl⟩ : ∃ k, fuel = k + 1 := ⟨fuel - 1, by omega⟩
    obtain ⟨a', hread, ha'⟩ := h _ hb.right.left
    obtain ⟨call, hcall, hkey⟩ := (h' a' ha').entry fuel (by omega) _ hb.right.right
    refine ⟨call, ?_, hkey⟩
    rw [dictCalls_key hb hlen, hread]
    exact List.mem_cons_of_mem _ hcall

/-- A dictionary that is accepted with an overlong key. -/
lemma Admits.not_rejectsKey (h : Admits onKey key a s) (hkey : Overlong keys key)
    (declared : α → List Char) : ¬ RejectsKey onKey declared a key := by
  intro hrejects
  have hb : (Buffer.ofBytes ([ascii 'd'] ++ s) fun _ => 0).Holds ([ascii 'd'] ++ s) :=
    Buffer.holds_ofBytes _ _
  have hs := hb.right
  obtain ⟨a', ok, hread, rfl⟩ := ends_readDict h.accepted _ hb
  obtain ⟨call, hcall, hcallkey⟩ := h.entry _ (hs.length_le.trans (Nat.le_succ _)) _ hs
  have hnone := hrejects (Buffer.ofBytes ([ascii 'd'] ++ s) fun _ => 0)
    ⟨call, ?_, hcallkey, hkey.undeclared _⟩
  · rw [hread] at hnone
    cases hnone
  · rwa [readCalls, if_neg (not_not.mpr (Buffer.Holds.peek hb))]

/-- The decoder looks at the first byte of a key only. -/
def LooksAtFirst (onKey : Option Bytes → Reader α) : Prop :=
  ∀ x rest, onKey (some (x :: rest)) = onKey (some [x])

/-- A decoder that refuses the other keys. -/
lemma takesKeys_of_refused (taken : α → List Char)
    (htaken : ∀ a, ∀ c ∈ taken a, c ∈ keys ∧ c ∈ declared a)
    (h : ∀ key a b, (∀ c ∈ taken a, isKey key c = false) → (onKey (some key) a b).2 = none) :
    TakesKeys onKey declared keys := by
  intro key a b hsome
  by_contra hno
  refine hsome (h key a b fun c hc => Bool.eq_false_iff.mpr fun hkey => hno ?_)
  obtain ⟨hkeys, hdeclared⟩ := htaken a c hc
  exact ⟨c, hkeys, hdeclared, hkey⟩

/-- If an entry under each of the keys can be accepted, exactly the overlong keys slip through. -/
lemma rejectsKey_iff_of_admits (htakes : TakesKeys onKey declared keys)
    (hadmits : ∀ c ∈ keys, ∀ rest : Bytes, (ascii c :: rest).length < 10 ^ 9 →
      ∃ s, Admits onKey (ascii c :: rest) a s) :
    RejectsKey onKey declared a key ↔ ¬ Overlong keys key := by
  constructor
  · intro hrejects hkey
    obtain ⟨-, hlen, c, hc, hhead⟩ := id hkey
    obtain ⟨rest, rfl⟩ := List.head?_eq_some_iff.mp hhead
    obtain ⟨s, hs⟩ := hadmits c hc rest hlen
    exact hs.not_rejectsKey hkey declared hrejects
  · intro hno
    exact htakes.rejectsKey hno a

/-- There is a value that is read whatever the object is. -/
def Takes (r : Reader α) : Prop := ∃ s, ∀ a, ∃ P, Reads r a s P

/-- A decoder that accepts the end of the dictionary at once. -/
lemma rejectsKey_iff (htakes : TakesKeys onKey declared keys) (hfirst : LooksAtFirst onKey)
    (hend : ∀ a b, onKey none a b = (a, some b))
    (hreads : ∀ c ∈ keys, Takes (onKey (some [ascii c]))) :
    RejectsKey onKey declared a key ↔ ¬ Overlong keys key := by
  refine rejectsKey_iff_of_admits htakes fun c hc rest hlen => ?_
  obtain ⟨s, hs⟩ := hreads c hc
  obtain ⟨P, hread⟩ := hs a
  rw [← hfirst (ascii c) rest] at hread
  exact ⟨_, .last hlen hread fun a' _ b => ⟨a', hend a' b⟩⟩

lemma takes_string {f : α → Bytes → Option α} (data : Bytes) (hlen : data.length < 10 ^ 9)
    (hf : ∀ a, (f a data).isSome = true) : Takes (.string f) := by
  refine ⟨strBytes data, fun a => ?_⟩
  obtain ⟨a', ha'⟩ := Option.isSome_iff_exists.mp (hf a)
  exact ⟨_, reads_string hlen ha'⟩

lemma takes_blob {n : ℕ} (hn : n < 10 ^ 9) (f : α → Blob n → α) : Takes (.blob n f) :=
  ⟨_, fun _ => ⟨_, reads_blob (zeroBlob n) hn⟩⟩

lemma takes_integer {f : α → UInt64 → Option α} (n : ℕ) (hn : n < 2 ^ 63)
    (hf : ∀ a, (f a (UInt64.ofNat n)).isSome = true) : Takes (.integer f) := by
  refine ⟨intBytes n, fun a => ?_⟩
  obtain ⟨a', ha'⟩ := Option.isSome_iff_exists.mp (hf a)
  exact ⟨_, reads_integer_natCast hn ha'⟩

lemma takes_version : Takes (.version : Reader α) := ⟨_, fun _ => ⟨_, reads_version⟩⟩

lemma takes_readInteger : Takes fun t b => b.readInteger t :=
  ⟨_, fun _ => ⟨_, reads_readInteger (i := 0) (by decide)⟩⟩

variable {β : Type} {r : Reader β}

lemma Takes.part {g : α → β} {f : α → β → α} (h : Takes r) : Takes (.part g f r) := by
  obtain ⟨s, hs⟩ := h
  refine ⟨s, fun a => ?_⟩
  obtain ⟨P, hread⟩ := hs (g a)
  exact ⟨_, hread.part⟩

lemma takes_emptyList {onItem : Bool → Reader (List β)}
    (hend : ∀ l b, onItem false l b = (l, some b)) : Takes (readList onItem) := by
  let bytes : Unit → Bytes := fun _ => []
  have hread (l : List β) : Reads (readList onItem) l (listBytes (([] : List Unit).map bytes))
      fun l' => ∃ l₁, List.Forall₂ (fun _ _ => True) ([] : List Unit) l₁ ∧ l' = l ++ l₁ :=
    reads_readList (fun _ hx => absurd hx List.not_mem_nil) fun l b _ => ⟨l, hend l b, rfl⟩
  exact ⟨_, fun l => ⟨_, hread l⟩⟩

lemma takes_bencodeReadList {item : β} {decode : Reader β} : Takes (bencodeReadList item decode) :=
  takes_emptyList fun _ _ => rfl

lemma takes_emptyDict {onKey : Option Bytes → Reader β}
    (hend : ∀ a b, onKey none a b = (a, some b)) : Takes (readDict onKey) :=
  ⟨_, fun x => ⟨fun _ => True, reads_readDict (.nil (ends_nil (hend x) trivial))⟩⟩

end Dictionaries

end Udap
