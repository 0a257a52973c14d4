import Restate.Lib.Radix

/-! Base62 with the alternative alphabet `0-9a-zA-Z`. The codec is a parameter, `Codec`: a number
is written as its digits in base 62, one ASCII character each, most significant first, with no
leading zeros (zero is the single digit `0`), and reading back what was written gives a 128-bit
number back; the empty input is an error of its own. Writing into a buffer fails when the buffer
is shorter than the digits. `reference` is one codec, a table lookup per digit. -/

namespace Base62

inductive DecodeError
  | arithmeticOverflow
  | emptyInput
  | invalidBase62Byte (byte : UInt8) (index : Nat)
  deriving DecidableEq, Repr

inductive EncodeError
  | bufferTooSmall
  deriving DecidableEq, Repr

/-- encode_alternative and decode_alternative, with what their callers rely on. -/
class Codec where
  encodeAlternative : Nat → List UInt8
  decodeAlternative : List UInt8 → Except DecodeError Nat
  length_encodeAlternative : ∀ value,
    (encodeAlternative value).length = (Radix.digits 62 value).length
  encodeAlternative_ascii : ∀ value, ∀ byte ∈ encodeAlternative value, byte < 128
  encodeAlternative_zero : encodeAlternative 0 = [48]
  head_encodeAlternative : ∀ value, value ≠ 0 → (encodeAlternative value).head? ≠ some 48
  decodeAlternative_encodeAlternative : ∀ value, value < 2 ^ 128 →
    decodeAlternative (encodeAlternative value) = .ok value
  decodeAlternative_nil : decodeAlternative [] = .error .emptyInput

section Codec

variable [Codec]

/-- encode_alternative_bytes: the digits at the front of the buffer, and how many there are. -/
def encodeAlternativeBytes (value : Nat) (buffer : List UInt8) :
    Except EncodeError (List UInt8 × Nat) :=
  let encoded := Codec.encodeAlternative value
  if buffer.length < encoded.length then .error .bufferTooSmall
  else .ok (encoded ++ buffer.drop encoded.length, encoded.length)

theorem dropWhile_zeros_encodeAlternative (count value : Nat) :
    (List.replicate count 48 ++ Codec.encodeAlternative value).dropWhile (· == 48) =
      if value = 0 then [] else Codec.encodeAlternative value := by
  rw [List.dropWhile_append_of_pos (by simp)]
  split
  · rename_i zero
    rw [zero, Codec.encodeAlternative_zero]
    rfl
  · rename_i positive
    have leading := Codec.head_encodeAlternative value positive
    cases written : Codec.encodeAlternative value with
    | nil => rfl
    | cons first rest =>
      rw [written, List.head?_cons, ne_eq, Option.some.injEq] at leading
      simp [leading]

end Codec

namespace Reference

def alternativeByte (digit : Nat) : UInt8 :=
  if digit < 10 then (48 + digit).toUInt8
  else if digit < 36 then (97 + (digit - 10)).toUInt8
  else (65 + (digit - 36)).toUInt8

def alternativeDigit (byte : UInt8) : Option Nat :=
  if 48 ≤ byte ∧ byte ≤ 57 then some (byte.toNat - 48)
  else if 97 ≤ byte ∧ byte ≤ 122 then some (byte.toNat - 97 + 10)
  else if 65 ≤ byte ∧ byte ≤ 90 then some (byte.toNat - 65 + 36)
  else none

theorem alternativeDigit_byte : ∀ digit < 62, alternativeDigit (alternativeByte digit) = some digit := by
  decide

theorem alternativeByte_ascii : ∀ digit < 62, alternativeByte digit < 128 := by
  decide

theorem alternativeByte_eq_zero_char : ∀ digit < 62, alternativeByte digit = 48 → digit = 0 := by
  decide

def encodeAlternative (value : Nat) : List UInt8 := (Radix.digits 62 value).map alternativeByte

/-- The digits of the bytes from `index` on; the first byte outside the alphabet is an error. -/
def decodeDigits (index : Nat) : List UInt8 → Except DecodeError (List Nat)
  | [] => .ok []
  | byte :: rest =>
    match alternativeDigit byte with
    | some digit => (digit :: ·) <$> decodeDigits (index + 1) rest
    | none => .error (.invalidBase62Byte byte index)

def decodeAlternative (input : List UInt8) : Except DecodeError Nat :=
  if input.isEmpty then .error .emptyInput
  else do
    let value := Radix.value 62 (← decodeDigits 0 input)
    if value < 2 ^ 128 then pure value else throw .arithmeticOverflow

theorem encodeAlternative_ascii (value : Nat) : ∀ byte ∈ encodeAlternative value, byte < 128 := by
  intro byte member
  obtain ⟨digit, digitMember, written⟩ := List.mem_map.mp member
  exact written ▸ alternativeByte_ascii digit (Radix.digits_lt (by decide) value digit digitMember)

theorem head_encodeAlternative (value : Nat) (positive : value ≠ 0) :
    (encodeAlternative value).head? ≠ some 48 := by
  obtain ⟨first, rest, written, nonZero⟩ := @Radix.digits_head 62 value positive
  have firstSmall : first < 62 := Radix.digits_lt (by decide) value first (by simp [written])
  rw [encodeAlternative, written, List.map_cons, List.head?_cons, ne_eq, Option.some.injEq]
  exact fun zeroChar => nonZero (alternativeByte_eq_zero_char first firstSmall zeroChar)

theorem decodeDigits_map (index : Nat) {digits : List Nat} (small : ∀ digit ∈ digits, digit < 62) :
    decodeDigits index (digits.map alternativeByte) = .ok digits := by
  induction digits generalizing index with
  | nil => rfl
  | cons digit rest ih =>
    rw [List.map_cons, decodeDigits, alternativeDigit_byte digit (small digit List.mem_cons_self),
      ih (index + 1) (fun later member => small later (List.mem_cons_of_mem _ member))]
    rfl

theorem decodeAlternative_encodeAlternative (value : Nat) (fits : value < 2 ^ 128) :
    decodeAlternative (encodeAlternative value) = .ok value := by
  have nonEmpty : (encodeAlternative value).isEmpty = false := by
    simp [encodeAlternative, Radix.digits_ne_nil]
  rw [decodeAlternative, if_neg (by simp [nonEmpty]), encodeAlternative,
    decodeDigits_map 0 (Radix.digits_lt (by decide) value)]
  simp only [bind, Except.bind, Radix.value_digits, if_pos fits]
  rfl

end Reference

/-- The table-lookup codec is a base62 codec. -/
@[reducible] def reference : Codec where
  encodeAlternative := Reference.encodeAlternative
  decodeAlternative := Reference.decodeAlternative
  length_encodeAlternative _ := List.length_map _
  encodeAlternative_ascii := Reference.encodeAlternative_ascii
  encodeAlternative_zero := rfl
  head_encodeAlternative := Reference.head_encodeAlternative
  decodeAlternative_encodeAlternative := Reference.decodeAlternative_encodeAlternative
  decodeAlternative_nil := rfl

end Base62
