import Restate.Lib.ByteReader
import Mathlib.Data.Nat.Log

/-! Varints of unsigned 64-bit values. A codec that uses a varint library takes it as a
`VarintCodec`: a writer, a reader and a length function, with the two facts the library documents of
them, that the length function gives the length of what the writer writes and that the reader reads
that back, leaving whatever follows. One such codec is the base-128 format protobuf describes: seven
bits per byte, least significant first, the high bit set on every byte but the last; the reader takes
at most ten bytes and refuses a tenth byte that would overflow 64 bits. -/

/-- A varint library, as a codec of 64-bit values written as bytes, with the errors `ε` of its
reader. -/
class VarintCodec (ε : outParam Type) where
  encode : Nat → List UInt8
  decode : ByteReader ε Nat
  encodedLen : Nat → Nat
  length_encode : ∀ value, value < 2 ^ 64 → (encode value).length = encodedLen value
  reads_encode : ∀ value, value < 2 ^ 64 → ByteReader.Reads decode value (encode value)

namespace Varint

/-- The writer's loop, unrolled over the at most ten bytes of a 64-bit value. -/
def encodeGo : Nat → Nat → List UInt8
  | 0, value => [value.toUInt8]
  | fuel + 1, value =>
    if value < 128 then [value.toUInt8]
    else (value % 128 + 128).toUInt8 :: encodeGo fuel (value / 128)

def encode (value : Nat) : List UInt8 := encodeGo 9 value

/-- The rest of a varint of which `count` bytes were read. -/
def decodeGo {ε : Type} (invalid : ε) (count : Nat) : List UInt8 → Except ε (Nat × List UInt8)
  | [] => .error invalid
  | byte :: rest =>
    if byte.toNat < 128 then
      if count = 9 ∧ 2 ≤ byte.toNat then .error invalid else .ok (byte.toNat, rest)
    else if count = 9 then .error invalid
    else
      match decodeGo invalid (count + 1) rest with
      | .ok (value, rest') => .ok (byte.toNat % 128 + 128 * value, rest')
      | .error e => .error e

def decode {ε : Type} (invalid : ε) : ByteReader ε Nat := fun bytes => decodeGo invalid 0 bytes

/-- The encoded length: for a 64-bit value, 63 xor the leading zeros of value | 1 is the index of
its highest set bit. -/
def encodedLen (value : Nat) : Nat := (Nat.log2 (value ||| 1) * 9 + 73) / 64

theorem toNat_toUInt8 {n : Nat} (small : n < 256) : n.toUInt8.toNat = n := by
  simp [Nat.mod_eq_of_lt small]

theorem length_encodeGo : ∀ (fuel value k : Nat), value < 128 ^ (k + 1) →
    (k = 0 ∨ 128 ^ k ≤ value) → k ≤ fuel → (encodeGo fuel value).length = k + 1
  | 0, value, k, _, _, enough => by
    have : k = 0 := by omega
    subst this
    rfl
  | fuel + 1, value, k, below, above, enough => by
    by_cases small : value < 128
    · -- one byte: the value has a single group
      have : k = 0 := by
        rcases above with zero | above
        · exact zero
        · by_contra nonzero
          have : 128 ≤ 128 ^ k := Nat.le_self_pow nonzero 128
          omega
      simp [encodeGo, small, this]
    · have positive : k ≠ 0 := by
        rintro rfl
        omega
      obtain ⟨j, rfl⟩ : ∃ j, k = j + 1 := Nat.exists_eq_succ_of_ne_zero positive
      have below' : value / 128 < 128 ^ (j + 1) := by
        rw [Nat.div_lt_iff_lt_mul (by decide), ← Nat.pow_succ]
        exact below
      have above' : j = 0 ∨ 128 ^ j ≤ value / 128 := by
        rcases above with zero | above
        · omega
        · right
          rw [Nat.le_div_iff_mul_le (by decide), ← Nat.pow_succ]
          exact above
      simp only [encodeGo, small, if_false, List.length_cons]
      rw [length_encodeGo fuel (value / 128) j below' above' (by omega)]

theorem log2_or_one {value : Nat} (positive : value ≠ 0) :
    Nat.log2 (value ||| 1) = Nat.log2 value := by
  have top : value < 2 ^ (value.log2 + 1) := Nat.lt_log2_self
  have orBelow : value ||| 1 < 2 ^ (value.log2 + 1) :=
    Nat.or_lt_two_pow top (Nat.one_lt_two_pow (by omega))
  have orAbove : 2 ^ value.log2 ≤ value ||| 1 :=
    le_trans (Nat.log2_self_le positive) Nat.left_le_or
  have orPositive : value ||| 1 ≠ 0 :=
    Nat.pos_iff_ne_zero.mp (lt_of_lt_of_le (Nat.two_pow_pos _) orAbove)
  have upper := (Nat.log2_lt orPositive).mpr orBelow
  have lower : ¬Nat.log2 (value ||| 1) < value.log2 := fun less =>
    absurd orAbove (not_le.mpr ((Nat.log2_lt orPositive).mp less))
  omega

theorem length_encode {value : Nat} (fits : value < 2 ^ 64) :
    (encode value).length = encodedLen value := by
  by_cases zero : value = 0
  · subst zero
    rfl
  have log2Bound : value.log2 < 64 := (Nat.log2_lt zero).mpr fits
  have formula : ∀ bits : Fin 64, (bits.val * 9 + 73) / 64 = bits.val / 7 + 1 := by decide
  rw [encodedLen, log2_or_one zero, formula ⟨value.log2, log2Bound⟩]
  have groups : 7 * (value.log2 / 7) ≤ value.log2 := Nat.mul_div_le _ _
  have groups' : value.log2 < 7 * (value.log2 / 7 + 1) := by omega
  apply length_encodeGo 9 value (value.log2 / 7)
  · calc value < 2 ^ (value.log2 + 1) := Nat.lt_log2_self
      _ ≤ 2 ^ (7 * (value.log2 / 7 + 1)) := Nat.pow_le_pow_right (by decide) groups'
      _ = 128 ^ (value.log2 / 7 + 1) := by rw [Nat.pow_mul]
  · right
    calc 128 ^ (value.log2 / 7) = 2 ^ (7 * (value.log2 / 7)) := by rw [Nat.pow_mul]
      _ ≤ 2 ^ value.log2 := Nat.pow_le_pow_right (by decide) groups
      _ ≤ value := Nat.log2_self_le zero
  · omega

theorem decodeGo_encodeGo {ε : Type} (invalid : ε) : ∀ (fuel value count : Nat) (rest : List UInt8),
    count + fuel = 9 → value < 2 * 128 ^ fuel →
      decodeGo invalid count (encodeGo fuel value ++ rest) = .ok (value, rest)
  | 0, value, count, rest, last, below => by
    have small : value < 2 := by simpa using below
    have byte := toNat_toUInt8 (show value < 256 by omega)
    simp only [encodeGo, List.cons_append, List.nil_append, decodeGo, byte]
    rw [if_pos (by omega), if_neg (by omega)]
  | fuel + 1, value, count, rest, notLast, below => by
    by_cases small : value < 128
    · have byte := toNat_toUInt8 (show value < 256 by omega)
      simp only [encodeGo, small, if_true, List.cons_append, List.nil_append, decodeGo, byte]
      rw [if_neg (by omega)]
    · have byte := toNat_toUInt8 (show value % 128 + 128 < 256 by omega)
      have below' : value / 128 < 2 * 128 ^ fuel := by
        rw [Nat.div_lt_iff_lt_mul (by decide), Nat.mul_assoc, ← Nat.pow_succ]
        exact below
      have inner := decodeGo_encodeGo invalid fuel (value / 128) (count + 1) rest (by omega) below'
      simp only [encodeGo, small, if_false, List.cons_append, decodeGo, byte, inner]
      rw [if_neg (by omega), if_neg (by omega)]
      congr 2
      omega

theorem reads_encode {ε : Type} (invalid : ε) {value : Nat} (fits : value < 2 ^ 64) :
    ByteReader.Reads (decode invalid) value (encode value) := fun rest =>
  decodeGo_encodeGo invalid 9 value 0 rest rfl (by omega)

/-- The base-128 format is a varint codec, whose reader fails with `invalid`. -/
@[reducible] def leb128 {ε : Type} (invalid : ε) : VarintCodec ε where
  encode := encode
  decode := decode invalid
  encodedLen := encodedLen
  length_encode _ fits := length_encode fits
  reads_encode _ fits := reads_encode invalid fits

end Varint
