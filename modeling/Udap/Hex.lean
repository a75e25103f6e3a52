import Udap.Bencode.Codec

/-!
`HexEncode` and `HexDecode`.

* `hexDecode_hexEncode`: what was encoded is decoded.
* `hexEncode_injective`: so two byte strings have two texts.
-/

namespace Udap

open ByteMem

/-- A digit of `%x`. -/
def hexDigit (n : UInt8) : UInt8 := if n < 10 then ascii '0' + n else ascii 'a' + (n - 10)

/-- `HexEncode`, up to the zero that ends it. -/
def hexEncode (value : Bytes) : Bytes :=
  value.flatMap fun c => [hexDigit (c / 16), hexDigit (c % 16)]

/-- `char2int`, or what it throws. -/
def char2int (input : UInt8) : Option UInt8 :=
  if ascii '0' ≤ input ∧ input ≤ ascii '9' then some (input - ascii '0')
  else if ascii 'A' ≤ input ∧ input ≤ ascii 'F' then some (input - ascii 'A' + 10)
  else if ascii 'a' ≤ input ∧ input ≤ ascii 'f' then some (input - ascii 'a' + 10)
  else none

/-- `HexDecode` of a C string. -/
def hexDecode : Bytes → Option Bytes
  | a :: b :: src =>
      (char2int a).bind fun x => (char2int b).bind fun y =>
        (hexDecode src).map fun target => (x * 16 + y) :: target
  | _ => some []

/-! ### Digits -/

/-- Every byte is one of the 256. -/
lemma forall_byte {P : UInt8 → Prop} (h : ∀ n : Fin 256, P (UInt8.ofNat n)) (c : UInt8) : P c := by
  have := h ⟨c.toNat, c.toNat_lt⟩
  rwa [UInt8.ofNat_toNat] at this

/-- Every digit is one of the 16. -/
lemma forall_digit {P : UInt8 → Prop} (h : ∀ n : Fin 16, P (UInt8.ofNat n)) {c : UInt8}
    (hc : c < 16) : P c := by
  have := h ⟨c.toNat, by simpa using UInt8.lt_iff_toNat_lt.mp hc⟩
  rwa [UInt8.ofNat_toNat] at this

/-- The sixteen digits are read back. -/
lemma char2int_hexDigit {n : UInt8} (hn : n < 16) : char2int (hexDigit n) = some n :=
  forall_digit (P := fun n => char2int (hexDigit n) = some n) (by decide) hn

/-- A byte and its digits. -/
lemma byte_digits (c : UInt8) : c / 16 < 16 ∧ c % 16 < 16 ∧ c / 16 * 16 + c % 16 = c := by
  refine forall_byte (P := fun c => c / 16 < 16 ∧ c % 16 < 16 ∧ c / 16 * 16 + c % 16 = c) ?_ c
  decide +kernel

/-! ### Texts -/

@[simp] lemma hexEncode_nil : hexEncode [] = [] := rfl

@[simp] lemma hexEncode_cons (c : UInt8) (value : Bytes) :
    hexEncode (c :: value) = hexDigit (c / 16) :: hexDigit (c % 16) :: hexEncode value := rfl

/-- What was encoded is decoded. -/
lemma hexDecode_hexEncode (value : Bytes) : hexDecode (hexEncode value) = some value := by
  induction value with
  | nil => rfl
  | cons c value ih =>
    obtain ⟨hhigh, hlow, hbyte⟩ := byte_digits c
    rw [hexEncode_cons, hexDecode, char2int_hexDigit hhigh, char2int_hexDigit hlow, ih]
    simp [hbyte]

lemma hexEncode_injective : Function.Injective hexEncode := fun a b h => by
  have := congrArg hexDecode h
  rwa [hexDecode_hexEncode, hexDecode_hexEncode, Option.some_inj] at this

end Udap
