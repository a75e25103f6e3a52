import Udap.Bencode.Window
import Udap.ContactFields

/-!
Ranks and ports of address entries, from the text to the stored number.

* `readUntil_eq`: what the reader of numbers copies, if the number ends in the buffer.
* `readPort_spec`: what is stored is the integer of the first 31 characters, in 16 bits.
* `AddressInfo.unaltered_iff`: every rank and port is stored as it is written if and only if both
  are written, none is `65536`, and none is in a text whose end is cut off.
-/

namespace Udap

open ByteMem

/-! ### Texts of numbers -/

/-- The text of the integer at the position: what follows its letter, up to the closing one. -/
def writtenText (b : Buffer) : Bytes :=
  ((b.skip 1).bytes (b.skip 1).sizeLeft).takeWhile (· != ascii 'e')

/-- The integer that is written at the position. -/
def writtenInteger (b : Buffer) : ℤ := integerOf (writtenText b)

lemma bytes_sizeLeft {b : Buffer} (h : b.cur < b.sz) :
    b.bytes b.sizeLeft = b.peek :: (b.skip 1).bytes (b.skip 1).sizeLeft := by
  have hleft : b.sizeLeft = 1 + (b.skip 1).sizeLeft := by
    simp only [Buffer.sizeLeft, Buffer.skip]
    omega
  rw [hleft, Buffer.bytes_add]
  rfl

/-- What is copied of a number that ends in the buffer. -/
lemma readUntil_eq (delim : UInt8) (n : ℕ) {b : Buffer}
    (h : (b.readUntil delim n).2.sizeLeft ≠ 0) :
    (b.readUntil delim n).1 = ((b.bytes b.sizeLeft).takeWhile (· != delim)).take n := by
  induction n generalizing b with
  | zero => rw [Buffer.readUntil, List.take_zero]
  | succ n ih =>
      have hlt : b.cur < b.sz := by
        obtain ⟨hcur, hsz⟩ := readUntil_le delim (n + 1) b
        rw [Buffer.sizeLeft, hsz] at h
        omega
      rw [bytes_sizeLeft hlt, List.takeWhile_cons]
      rw [Buffer.readUntil] at h ⊢
      by_cases hdelim : b.peek = delim
      · rw [if_pos (.inl hdelim), hdelim]
        simp
      · have hgo : ¬ (b.peek = delim ∨ b.cur = b.sz) := not_or.mpr ⟨hdelim, hlt.ne⟩
        rw [if_neg hgo] at h ⊢
        rw [if_pos (bne_iff_ne.mpr hdelim), List.take_succ_cons]
        exact congrArg (b.peek :: ·) (ih h)

/-- The number that is stored is the one of the first 31 characters. -/
lemma readPort_spec {b : Buffer} {v : UInt16} (h : readPort b = some v) :
    1 ≤ integerOf ((writtenText b).take 31) ∧ integerOf ((writtenText b).take 31) ≤ 65536 ∧
      (v.toNat : ℤ) = integerOf ((writtenText b).take 31) % 65536 := by
  obtain ⟨b', hb, hport⟩ := Option.bind_eq_some_iff.mp h
  obtain ⟨-, text, rest, hnumber, hi, -, -⟩ := Buffer.readInteger_inv (Prod.ext rfl hb)
  have htext : text = (writtenText b).take 31 := by
    rw [Buffer.readNumber] at hnumber
    split_ifs at hnumber with hnone
    obtain ⟨rfl, rfl⟩ := Prod.mk.inj (Option.some.inj hnumber)
    exact readUntil_eq _ _ (not_or.mp hnone).2
  rw [AddressInfo.checkedPort] at hport
  split_ifs at hport with hrange
  obtain ⟨hle, hpos⟩ := not_or.mp hrange
  have hle : (b.readInteger 0).1.toNat ≤ 65536 := not_lt.mp hle
  have hpos : 0 < (b.readInteger 0).1.toNat := not_le.mp hpos
  have hvalue : integerOf text = (b.readInteger 0).1.toNat :=
    integerOf_of_strtol (congrArg UInt64.toNat hi.symm) (by omega)
  obtain rfl := Option.some.inj hport
  rw [← htext, hvalue]
  refine ⟨by omega, by omega, ?_⟩
  rw [UInt64.toNat_toUInt16]
  rfl

/-! ### Address entries -/

namespace AddressInfo

/-- The entry is stored as it is written, and it is in the range of a rank or a port. -/
structure Kept (b : Buffer) : Prop where
  pos : 1 ≤ writtenInteger b
  le : writtenInteger b ≤ 65535
  stored : ∃ v, readPort b = some v ∧ (v.toNat : ℤ) = writtenInteger b

/-- The entries under a key are stored as they are written, and the number that is left is the one
of the last of them. -/
structure KeptUnder (c : Char) (es : List Entry) (x : UInt16) : Prop where
  last : ∃ e, lastEntry c es = some e ∧ (x.toNat : ℤ) = writtenInteger e.value
  all : ∀ e ∈ es, isKey e.key c = true → Kept e.value

/-- The decode does not alter ranks and ports. -/
structure Unaltered (es : List Entry) (ai : AddressInfo) : Prop where
  rank : KeptUnder 'c' es ai.rank
  port : KeptUnder 'p' es ai.port

/-- There is an entry under the key, and each is an integer other than `65536` whose value is in
the first 31 characters of its text. -/
structure Plain (c : Char) (es : List Entry) : Prop where
  key : ∃ e ∈ es, isKey e.key c = true
  ne : ∀ e ∈ es, isKey e.key c = true → writtenInteger e.value ≠ 65536
  short : ∀ e ∈ es, isKey e.key c = true →
    integerOf ((writtenText e.value).take 31) = writtenInteger e.value

variable {lib : HostLib} {es : List Entry} {before ai : AddressInfo} {c : Char} {x : UInt16}
  {b b' : Buffer}

/-- One entry that was accepted. -/
lemma kept_iff {v : UInt16} (h : readPort b = some v) :
    Kept b ↔ writtenInteger b ≠ 65536 ∧
      integerOf ((writtenText b).take 31) = writtenInteger b := by
  obtain ⟨hpos, hle, hstored⟩ := readPort_spec h
  constructor
  · rintro ⟨hpos', hle', w, hw, heq⟩
    obtain rfl := Option.some.inj (h.symm.trans hw)
    omega
  · rintro ⟨hne, hshort⟩
    exact ⟨by omega, by omega, v, h, by omega⟩

/-- Every rank and every port of an accepted dictionary was accepted. -/
lemma readPort_of_mem (h : bdecode lib before b = (ai, some b')) :
    ∀ e ∈ entries lib before b, isKey e.key 'c' = true ∨ isKey e.key 'p' = true →
      ∃ v, readPort e.value = some v := by
  refine readDict_entries_rule (I := fun es _ => ∀ e ∈ es,
    isKey e.key 'c' = true ∨ isKey e.key 'p' = true → ∃ v, readPort e.value = some v)
    (fun es key x y x' y' hI hk e he hkey => ?_) (fun _ _ _ hI => hI)
    (fun e he => absurd he List.not_mem_nil) h
  obtain he | he := List.mem_append.mp he
  · exact hI e he hkey
  · obtain rfl := List.mem_singleton.mp he
    rw [decodeKey] at hk
    obtain hc | hp := hkey
    · rw [if_pos hc] at hk
      obtain ⟨v, hv, -⟩ := readPort_of_integer hk
      exact ⟨v, hv⟩
    · have hother {d : Char} (hd : ascii 'p' ≠ ascii d) : ¬ isKey key d = true := by
        rw [isKey_eq_false hp hd]
        exact Bool.false_ne_true
      rw [if_neg (hother (by decide)), if_neg (hother (by decide)), if_neg (hother (by decide)),
        if_neg (hother (by decide)), if_pos hp] at hk
      obtain ⟨v, hv, -⟩ := readPort_of_integer hk
      exact ⟨v, hv⟩

lemma keptUnder_iff {old : UInt16} (hlast : Says c es readPort old x)
    (hread : ∀ e ∈ es, isKey e.key c = true → ∃ v, readPort e.value = some v) :
    KeptUnder c es x ↔ Plain c es := by
  constructor
  · rintro ⟨⟨e, he, -⟩, hall⟩
    refine ⟨lastEntry_isSome.mp (he ▸ rfl), fun e' he' hkey => ?_, fun e' he' hkey => ?_⟩
    · obtain ⟨v, hv⟩ := hread e' he' hkey
      exact ((kept_iff hv).mp (hall e' he' hkey)).1
    · obtain ⟨v, hv⟩ := hread e' he' hkey
      exact ((kept_iff hv).mp (hall e' he' hkey)).2
  · intro hplain
    have hall : ∀ e ∈ es, isKey e.key c = true → Kept e.value := fun e he hkey => by
      obtain ⟨v, hv⟩ := hread e he hkey
      exact (kept_iff hv).mpr ⟨hplain.ne e he hkey, hplain.short e he hkey⟩
    obtain ⟨e, he⟩ := Option.isSome_iff_exists.mp (lastEntry_isSome.mpr hplain.key)
    rw [Says, he] at hlast
    obtain ⟨v, hv, heq⟩ := (hall e (lastEntry_mem he).1 (lastEntry_mem he).2).stored
    obtain rfl : x = v := Option.some.inj (hlast.symm.trans hv)
    exact ⟨⟨e, he, heq⟩, hall⟩

/-- **Ranks and ports are stored as they are written exactly if they are plain.** For every address
entry that is accepted, whatever the object was before. -/
theorem unaltered_iff (lib : HostLib) (before ai : AddressInfo) (b b' : Buffer)
    (h : bdecode lib before b = (ai, some b')) :
    Unaltered (entries lib before b) ai ↔
      Plain 'c' (entries lib before b) ∧ Plain 'p' (entries lib before b) := by
  have hread := read_of_bdecode h
  have hmem := readPort_of_mem h
  have hrank := keptUnder_iff hread.rank fun e he hkey => hmem e he (.inl hkey)
  have hport := keptUnder_iff hread.port fun e he hkey => hmem e he (.inr hkey)
  exact ⟨fun hun => ⟨hrank.mp hun.rank, hport.mp hun.port⟩,
    fun hplain => ⟨hrank.mpr hplain.1, hport.mpr hplain.2⟩⟩

/-- A rank of seven and a port of eight. -/
def sevenEight : Buffer :=
  .ofBytes ([ascii 'd', 49, 58, ascii 'c', ascii 'i', 55, ascii 'e', 49, 58, ascii 'p', ascii 'i',
    56, ascii 'e', ascii 'e']) fun _ => 0

theorem unaltered_iff_sevenEight : ∃ ai b',
    bdecode RouterContact.plainHost (RouterContact.zeroMemory.ai 0) sevenEight = (ai, some b') ∧
    (Unaltered (entries RouterContact.plainHost (RouterContact.zeroMemory.ai 0) sevenEight) ai ↔
      Plain 'c' (entries RouterContact.plainHost (RouterContact.zeroMemory.ai 0) sevenEight) ∧
      Plain 'p' (entries RouterContact.plainHost (RouterContact.zeroMemory.ai 0) sevenEight)) := by
  have hsome : (bdecode RouterContact.plainHost (RouterContact.zeroMemory.ai 0)
      sevenEight).2.isSome = true := by decide +kernel
  obtain ⟨b', hb⟩ := Option.isSome_iff_exists.mp hsome
  exact ⟨_, b', Prod.ext rfl hb, unaltered_iff _ _ _ _ b' (Prod.ext rfl hb)⟩

/-- A rank of `65536`. -/
def largestRank : Buffer :=
  .ofBytes ([ascii 'd', 49, 58, ascii 'c', ascii 'i', 54, 53, 53, 51, 54, ascii 'e', 49, 58,
    ascii 'p', ascii 'i', 56, ascii 'e', ascii 'e']) fun _ => 0

/-- It is accepted, and what is stored is zero. -/
theorem not_unaltered : ¬ ∀ (lib : HostLib) (before ai : AddressInfo) (b b' : Buffer),
    bdecode lib before b = (ai, some b') → Unaltered (entries lib before b) ai := by
  intro h
  let result := bdecode RouterContact.plainHost (RouterContact.zeroMemory.ai 0) largestRank
  have hsome : result.2.isSome = true := by decide +kernel
  have hrank : result.1.rank = 0 := by decide +kernel
  obtain ⟨b', hb⟩ := Option.isSome_iff_exists.mp hsome
  have hun := h RouterContact.plainHost (RouterContact.zeroMemory.ai 0) result.1 largestRank b'
    (Prod.ext rfl hb)
  obtain ⟨e, he, heq⟩ := hun.rank.last
  have hpos := (hun.rank.all e (lastEntry_mem he).1 (lastEntry_mem he).2).pos
  rw [← heq, hrank] at hpos
  exact absurd hpos (by decide)

end AddressInfo

end Udap
