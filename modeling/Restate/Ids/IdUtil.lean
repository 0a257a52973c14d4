import Restate.Lib.Base62
import Restate.Lib.StrBytes
import Restate.Storage.KeyCodec

/-! The string form of resource ids, from base62_util.rs and id_util.rs. An id string is the
resource type's prefix, the separator `_`, the scheme version `1`, then the id's fields. An
integer field is written in base62 at a fixed width: its big-endian value, right-aligned, with
`0` characters in front; reading it back trims the zeros and takes nothing left as zero.
`digit_count` finds the number of base62 digits from the binary logarithm and a table of powers
of 62; `digitCount_eq_length` proves it exact below 2^128, which the fixed-width writer relies on:
it leaves a slice of exactly that many bytes for the digits.

The integers' `to_be` and `from_be` are byte swaps, as on the little-endian targets the source
is built for. Strings are their UTF-8 bytes. -/

namespace Restate

/-- base62_max_length_for_type: the base62 characters an integer of `bytes` bytes needs at most
(the division rounds up). -/
def base62MaxLengthForType (bytes : Nat) : Nat := (bytes * 8 + 5) / 6

/-- THRESHOLDS of digit_count: `62 ^ e - 1` for `e` up to 21, and u128::MAX. -/
def digitCountThresholds : List Nat :=
  (List.range 22).map (fun exponent => 62 ^ exponent - 1) ++ [2 ^ 128 - 1]

/-- digit_count of a u128: the estimate `⌊ilog2 n * 43 / 256⌋ + 1`, bumped by one when `n` passes
the threshold at the estimate. -/
def digitCount (n : Nat) : Nat :=
  if n = 0 then 1
  else
    let estimate := (Nat.log2 n * 43) >>> 8 + 1
    estimate + if n > digitCountThresholds.getD estimate 0 then 1 else 0

theorem digitCountThresholds_getD_of_le {exponent : Nat} (small : exponent ≤ 21) :
    digitCountThresholds.getD exponent 0 = 62 ^ exponent - 1 := by
  rw [digitCountThresholds, List.getD_eq_getElem?_getD, List.getElem?_append_left (by simp; omega)]
  simp [show exponent < 22 by omega]

theorem digitCountThresholds_getD_sentinel : digitCountThresholds.getD 22 0 = 2 ^ 128 - 1 := by
  decide

@[simp] theorem length_digitCountThresholds : digitCountThresholds.length = 23 := by
  simp [digitCountThresholds]

theorem shiftRight_eq_log_two_pow : ∀ log2 < 128, (log2 * 43) >>> 8 = Nat.log 62 (2 ^ log2) := by
  have table : ∀ log2 < 128,
      62 ^ ((log2 * 43) >>> 8) ≤ 2 ^ log2 ∧ 2 ^ log2 < 62 ^ ((log2 * 43) >>> 8 + 1) := by
    decide
  intro log2 small
  exact ((Nat.log_eq_iff (Or.inr ⟨by decide, (Nat.pow_pos (by decide)).ne'⟩)).mpr (table log2 small)).symm

theorem shiftRight_lt_of_lt_128 {log2 : Nat} (small : log2 < 128) : (log2 * 43) >>> 8 < 22 := by
  rw [Nat.shiftRight_eq_div_pow]
  omega

theorem log_mem_estimate {n : Nat} (positive : n ≠ 0) (fits : n < 2 ^ 128) :
    (Nat.log2 n * 43) >>> 8 ≤ Nat.log 62 n ∧ Nat.log 62 n ≤ (Nat.log2 n * 43) >>> 8 + 1 := by
  have lower : 2 ^ Nat.log2 n ≤ n := Nat.log2_self_le positive
  have upper : n < 2 ^ (Nat.log2 n + 1) := Nat.lt_log2_self
  rw [shiftRight_eq_log_two_pow (Nat.log2 n) ((Nat.log2_lt positive).mpr fits)]
  refine ⟨Nat.log_mono_right lower, ?_⟩
  calc Nat.log 62 n ≤ Nat.log 62 (2 ^ Nat.log2 n * 62) := Nat.log_mono_right (by rw [Nat.pow_succ] at upper; omega)
    _ = Nat.log 62 (2 ^ Nat.log2 n) + 1 := Nat.log_mul_base (by decide) (Nat.pow_pos (by decide)).ne'

theorem digitCount_eq_log {n : Nat} (positive : n ≠ 0) (fits : n < 2 ^ 128) :
    digitCount n = Nat.log 62 n + 1 := by
  obtain ⟨atLeast, atMost⟩ := log_mem_estimate positive fits
  have inTable := shiftRight_lt_of_lt_128 ((Nat.log2_lt positive).mpr fits)
  have logBelow : Nat.log 62 n < 22 :=
    Nat.log_lt_of_lt_pow positive (Nat.lt_of_lt_of_le fits (by decide))
  rw [digitCount, if_neg positive]
  dsimp only
  generalize (Nat.log2 n * 43) >>> 8 = estimate at atLeast atMost inTable ⊢
  -- the estimate undercounts by one exactly when n reaches the next power of 62
  by_cases reached : 62 ^ (estimate + 1) ≤ n
  · have logEq : Nat.log 62 n = estimate + 1 := le_antisymm atMost (Nat.le_log_of_pow_le (by decide) reached)
    rw [digitCountThresholds_getD_of_le (by omega), if_pos (by omega), logEq]
  · have logEq : Nat.log 62 n = estimate :=
      le_antisymm (Nat.lt_succ_iff.mp (Nat.log_lt_of_lt_pow positive (Nat.lt_of_not_le reached))) atLeast
    have notAbove : ¬ n > digitCountThresholds.getD (estimate + 1) 0 := by
      rcases Nat.lt_or_ge estimate 21 with below | sentinel
      · rw [digitCountThresholds_getD_of_le (by omega)]
        omega
      · rw [show estimate + 1 = 22 by omega, digitCountThresholds_getD_sentinel]
        omega
    rw [if_neg notAbove, logEq]

theorem digitCount_eq_length {n : Nat} (fits : n < 2 ^ 128) :
    digitCount n = (Radix.digits 62 n).length := by
  by_cases zero : n = 0
  · simp [zero, digitCount, Radix.digits]
  · rw [digitCount_eq_log zero fits, Radix.length_digits (by decide) zero]

theorem digit_count_is_exact (n : BitVec 128) :
    digitCount n.toNat = (Radix.digits 62 n.toNat).length ∧
      IsLeast {d | 1 ≤ d ∧ n.toNat < 62 ^ d} (digitCount n.toNat) ∧
      (Nat.log2 n.toNat * 43) >>> 8 + 1 ≤ digitCount n.toNat ∧
      digitCount n.toNat ≤ (Nat.log2 n.toNat * 43) >>> 8 + 1 + 1 ∧
      (Nat.log2 n.toNat * 43) >>> 8 + 1 < digitCountThresholds.length := by
  have exact := digitCount_eq_length n.isLt
  refine ⟨exact, ?_, ?_⟩
  · rw [exact]
    exact Radix.isLeast_length_digits (by decide) n.toNat
  · rw [length_digitCountThresholds]
    by_cases zero : n.toNat = 0
    · -- zero returns before the estimate, which is one there as well
      simp [zero, digitCount]
    · obtain ⟨atLeast, atMost⟩ := log_mem_estimate zero n.isLt
      have inTable := shiftRight_lt_of_lt_128 ((Nat.log2_lt zero).mpr n.isLt)
      rw [digitCount_eq_log zero n.isLt]
      omega

/-- base62_encode_fixed_width_u64 and _u128 for an integer of `width` bytes: the base62 digits of
its big-endian value written right-aligned into the first max-length bytes of out, whose other
bytes the caller has set to `0`. -/
def base62EncodeFixedWidth [Base62.Codec] (width : Nat) (i : BitVec (8 * width)) (out : List UInt8) :
    Option (List UInt8 × Nat) :=
  let maxLength := base62MaxLengthForType width
  let i := BigEndian.swapBytes width i.toNat
  let digits := digitCount i
  -- the offset underflows, or the slice runs past out: both panic
  if digits ≤ maxLength ∧ maxLength ≤ out.length then
    let offset := maxLength - digits
    match Base62.encodeAlternativeBytes i ((out.drop offset).take digits) with
    | .ok (written, _) => some (StrBytes.copyInto out offset written, maxLength)
    | .error _ => none
  else none

def base62EncodeFixedWidthU64 [Base62.Codec] (i : BitVec 64) (out : List UInt8) : Option (List UInt8 × Nat) :=
  base62EncodeFixedWidth 8 i out

def base62EncodeFixedWidthU128 [Base62.Codec] (i : BitVec 128) (out : List UInt8) : Option (List UInt8 × Nat) :=
  base62EncodeFixedWidth 16 i out

inductive IdDecodeError
  | length
  | codec
  | format
  | version
  | typeMismatch
  | unrecognizedType (value : List UInt8)
  deriving DecidableEq, Repr

inductive IdResourceType
  | invocation
  | deployment
  | subscription
  | awakeable
  | signal
  | snapshot
  | stateMutation
  | vQueue
  deriving DecidableEq, Repr

def IdResourceType.asStr : IdResourceType → String
  | invocation => "inv"
  | deployment => "dp"
  | subscription => "sub"
  | awakeable => "prom"
  | signal => "sign"
  | snapshot => "snap"
  | stateMutation => "mut"
  | vQueue => "vq"

/-- The variants in declaration order, as iter() lists them. -/
def IdResourceType.all : List IdResourceType :=
  [invocation, deployment, subscription, awakeable, signal, snapshot, stateMutation, vQueue]

/-- FromStr: the first variant whose prefix the value is. -/
def IdResourceType.fromStr (value : List UInt8) : Except IdDecodeError IdResourceType :=
  match IdResourceType.all.find? (fun resourceType => utf8 resourceType.asStr == value) with
  | some resourceType => .ok resourceType
  | none => .error (.unrecognizedType value)

inductive IdSchemeVersion
  | v1
  deriving DecidableEq, Repr

def IdSchemeVersion.latest : IdSchemeVersion := .v1

def IdSchemeVersion.asChar : IdSchemeVersion → Char
  | v1 => '1'

def IdSchemeVersion.fromStr (value : List UInt8) : Except IdDecodeError IdSchemeVersion :=
  if value = utf8 "1" then .ok .v1 else .error .version

theorem IdResourceType.fromStr_asStr (resourceType : IdResourceType) :
    IdResourceType.fromStr (utf8 resourceType.asStr) = .ok resourceType := by
  cases resourceType <;> decide

theorem IdResourceType.asStr_ascii (resourceType : IdResourceType) :
    (∀ byte ∈ utf8 resourceType.asStr, byte < 128) ∧ 95 ∉ utf8 resourceType.asStr := by
  cases resourceType <;> decide +kernel

def idResourceSeparator : Char := '_'

structure IdStrCursor where
  inner : List UInt8
  offset : Nat
  deriving DecidableEq, Repr

def IdStrCursor.new (inner : List UInt8) : IdStrCursor := ⟨inner, 0⟩

/-- The value of a fixed-width field, as decode_next reads it: base62 after the leading zeros,
and zero when nothing but zeros is there. -/
def decodePadded [Base62.Codec] (slicedView : List UInt8) : Except IdDecodeError Nat :=
  match Base62.Codec.decodeAlternative (slicedView.dropWhile (· == '0'.toNat.toUInt8)) with
  | .ok value => .ok value
  | .error .emptyInput => .ok 0
  | .error _ => .error .codec

/-- decode_next for an integer type of `width` bytes; the cursor moves past the field. -/
def IdStrCursor.decodeNext [Base62.Codec] (width : Nat) (cursor : IdStrCursor) :
    Except IdDecodeError (BitVec (8 * width) × IdStrCursor) := do
  let sizeToRead := base62MaxLengthForType width
  let slicedView ← (StrBytes.get cursor.inner cursor.offset (cursor.offset + sizeToRead)).elim
    (throw .length) pure
  let decoded ← decodePadded slicedView
  if decoded < 2 ^ (8 * width) then
    pure (BitVec.ofNat _ (BigEndian.swapBytes width decoded),
      { cursor with offset := cursor.offset + sizeToRead })
  else throw .codec

def IdStrCursor.nextStrExact (length : Nat) (cursor : IdStrCursor) :
    Except IdDecodeError (List UInt8 × IdStrCursor) := do
  let out ← (StrBytes.get cursor.inner cursor.offset (cursor.offset + length)).elim
    (throw .length) pure
  pure (out, { cursor with offset := cursor.offset + length })

def IdStrCursor.takeRemaining (cursor : IdStrCursor) : Except IdDecodeError (List UInt8) :=
  (StrBytes.getFrom cursor.inner cursor.offset).elim (throw .length) pure

/-- remaining: the bytes after the offset, the subtraction saturating at zero. -/
def IdStrCursor.remaining (cursor : IdStrCursor) : Nat := cursor.inner.length - cursor.offset

structure IdDecoder where
  version : IdSchemeVersion
  resourceType : IdResourceType
  cursor : IdStrCursor

def IdDecoder.newIgnorePrefix (version : IdSchemeVersion) (resourceType : IdResourceType)
    (input : List UInt8) : Except IdDecodeError IdDecoder :=
  .ok ⟨version, resourceType, .new input⟩

def IdDecoder.new (input : List UInt8) : Except IdDecodeError IdDecoder := do
  if input.isEmpty then throw .length
  let (resourcePrefix, idPart) ←
    (StrBytes.splitOnce idResourceSeparator.toNat.toUInt8 input).elim (throw .format) pure
  let resourceType ← IdResourceType.fromStr resourcePrefix
  let (version, cursor) ← (IdStrCursor.new idPart).nextStrExact 1
  let version ← IdSchemeVersion.fromStr version
  pure ⟨version, resourceType, cursor⟩

structure IdEncoder where
  buf : List UInt8
  pos : Nat
  deriving DecidableEq, Repr

/-- IdEncoder::new for a resource whose strings take `strEncodedLen` bytes: a buffer of `0`
characters, with the prefix, the separator and the scheme version written at its start. -/
def IdEncoder.new (resourceType : IdResourceType) (strEncodedLen : Nat) : IdEncoder :=
  let header := utf8 resourceType.asStr ++
    [idResourceSeparator.toNat.toUInt8, IdSchemeVersion.latest.asChar.toNat.toUInt8]
  -- write_vectored into a byte slice writes what fits and reports how much that was
  let written := header.take strEncodedLen
  ⟨StrBytes.copyInto (List.replicate strEncodedLen '0'.toNat.toUInt8) 0 written, written.length⟩

/-- push_u64 and push_u128: a fixed-width field after what the encoder holds. -/
def IdEncoder.pushFixedWidth [Base62.Codec] (width : Nat) (i : BitVec (8 * width)) (encoder : IdEncoder) :
    Option IdEncoder :=
  if encoder.pos ≤ encoder.buf.length then
    (base62EncodeFixedWidth width i (encoder.buf.drop encoder.pos)).map fun (tail, written) =>
      ⟨encoder.buf.take encoder.pos ++ tail, encoder.pos + written⟩
  else none

def IdEncoder.pushU64 [Base62.Codec] (i : BitVec 64) (encoder : IdEncoder) : Option IdEncoder :=
  encoder.pushFixedWidth 8 i

def IdEncoder.pushU128 [Base62.Codec] (i : BitVec 128) (encoder : IdEncoder) : Option IdEncoder :=
  encoder.pushFixedWidth 16 i

/-- remaining_mut: the bytes after the position; what is written into them goes back to the
buffer through `withRemainingMut`. -/
def IdEncoder.remainingMut (encoder : IdEncoder) : List UInt8 := encoder.buf.drop encoder.pos

def IdEncoder.withRemainingMut (encoder : IdEncoder) (remaining : List UInt8) : IdEncoder :=
  { encoder with buf := encoder.buf.take encoder.pos ++ remaining }

def IdEncoder.advance (cnt : Nat) (encoder : IdEncoder) : IdEncoder :=
  { encoder with pos := encoder.pos + cnt }

def IdEncoder.asStr (encoder : IdEncoder) : List UInt8 := encoder.buf.take encoder.pos

theorem IdDecoder.new_header (resourceType : IdResourceType) {rest : List UInt8}
    (ascii : ∀ byte ∈ rest, byte < 128) :
    IdDecoder.new (utf8 resourceType.asStr ++ 95 :: 49 :: rest) =
      .ok ⟨.v1, resourceType, ⟨49 :: rest, 1⟩⟩ := by
  obtain ⟨-, noSeparator⟩ := resourceType.asStr_ascii
  have split : StrBytes.splitOnce idResourceSeparator.toNat.toUInt8
      (utf8 resourceType.asStr ++ 95 :: 49 :: rest) = some (utf8 resourceType.asStr, 49 :: rest) :=
    StrBytes.splitOnce_append 95 noSeparator _
  have versionAscii : ∀ byte ∈ (49 :: rest : List UInt8), byte < 128 := by
    intro byte member
    rcases List.mem_cons.mp member with first | later
    · rw [first]
      decide
    · exact ascii byte later
  have version : StrBytes.get (49 :: rest) 0 (0 + 1) = some [49] := by
    rw [StrBytes.get_of_ascii versionAscii (by omega) (by simp)]
    simp
  have nonEmpty : (utf8 resourceType.asStr ++ 95 :: 49 :: rest).isEmpty = false := by simp
  simp only [IdDecoder.new, nonEmpty, Bool.false_eq_true, if_false, split, Option.elim, bind,
    Except.bind, pure, Except.pure, IdResourceType.fromStr_asStr, IdStrCursor.new,
    IdStrCursor.nextStrExact, version]
  rfl

/-- An encoder that has written `written` and holds `spare` bytes of `0` after it. -/
def IdEncoder.holding (written : List UInt8) (spare : Nat) : IdEncoder :=
  ⟨written ++ List.replicate spare '0'.toNat.toUInt8, written.length⟩

theorem IdEncoder.new_holding (resourceType : IdResourceType) {strEncodedLen : Nat}
    (room : (utf8 resourceType.asStr).length + 2 ≤ strEncodedLen) :
    IdEncoder.new resourceType strEncodedLen = .holding (utf8 resourceType.asStr ++ [95, 49])
      (strEncodedLen - (utf8 resourceType.asStr).length - 2) := by
  have header : utf8 resourceType.asStr ++
      [idResourceSeparator.toNat.toUInt8, IdSchemeVersion.latest.asChar.toNat.toUInt8] =
        utf8 resourceType.asStr ++ [95, 49] := rfl
  have fits : 0 + (utf8 resourceType.asStr ++ [95, 49]).length ≤ strEncodedLen := by
    simp only [List.length_append, List.length_cons, List.length_nil]
    omega
  rw [IdEncoder.new, header, List.take_of_length_le (by omega), ← List.append_nil (List.replicate _ _),
    StrBytes.copyInto_replicate _ fits]
  simp only [List.replicate_zero, List.nil_append, List.append_nil, IdEncoder.holding,
    List.length_append, List.length_cons, List.length_nil]
  congr 3

@[simp] theorem IdEncoder.asStr_holding (written : List UInt8) (spare : Nat) :
    (IdEncoder.holding written spare).asStr = written := by
  simp [IdEncoder.asStr, IdEncoder.holding]

@[simp] theorem IdEncoder.remainingMut_holding (written : List UInt8) (spare : Nat) :
    (IdEncoder.holding written spare).remainingMut = List.replicate spare '0'.toNat.toUInt8 := by
  simp [IdEncoder.remainingMut, IdEncoder.holding]

theorem IdEncoder.advance_withRemainingMut_holding (written bytes : List UInt8) (spare : Nat) :
    ((IdEncoder.holding written spare).withRemainingMut
        (bytes ++ (List.replicate spare '0'.toNat.toUInt8).drop bytes.length)).advance bytes.length =
      .holding (written ++ bytes) (spare - bytes.length) := by
  simp [IdEncoder.advance, IdEncoder.withRemainingMut, IdEncoder.holding, List.drop_replicate]

/-- What base62EncodeFixedWidth writes for an integer of `width` bytes: the base62 digits of its
big-endian value after as many `0` characters as make up the max length. -/
def paddedField [Base62.Codec] (width value : Nat) : List UInt8 :=
  let encoded := Base62.Codec.encodeAlternative (BigEndian.swapBytes width value)
  List.replicate (base62MaxLengthForType width - encoded.length) '0'.toNat.toUInt8 ++ encoded

/-- The widths the fixed-width writer serves: every value of the width is a u128 and takes at
most the max length of base62 digits. -/
def FixedWidthFits (width : Nat) : Prop :=
  0 < width ∧ 256 ^ width ≤ 2 ^ 128 ∧ 256 ^ width ≤ 62 ^ base62MaxLengthForType width

instance : DecidablePred FixedWidthFits := fun _ => inferInstanceAs (Decidable (_ ∧ _ ∧ _))

theorem fixedWidthFits_u64 : FixedWidthFits 8 := by decide

theorem fixedWidthFits_u128 : FixedWidthFits 16 := by decide

theorem FixedWidthFits.swapBytes_lt {width : Nat} (fits : FixedWidthFits width) (value : Nat) :
    BigEndian.swapBytes width value < 2 ^ 128 :=
  Nat.lt_of_lt_of_le (BigEndian.swapBytes_lt width value) fits.2.1

section FixedWidth

variable [Base62.Codec] {width : Nat}

theorem FixedWidthFits.length_le (fits : FixedWidthFits width) (value : Nat) :
    (Base62.Codec.encodeAlternative (BigEndian.swapBytes width value)).length ≤
      base62MaxLengthForType width := by
  have positive : 0 < base62MaxLengthForType width := by
    have := fits.1
    unfold base62MaxLengthForType
    omega
  rw [Base62.Codec.length_encodeAlternative]
  exact Radix.length_digits_le (by decide) positive
    (Nat.lt_of_lt_of_le (BigEndian.swapBytes_lt width value) fits.2.2)

@[simp] theorem length_paddedField (fits : FixedWidthFits width) (value : Nat) :
    (paddedField width value).length = base62MaxLengthForType width := by
  have short := fits.length_le value
  simp only [paddedField, List.length_append, List.length_replicate]
  omega

theorem paddedField_ascii (width value : Nat) : ∀ byte ∈ paddedField width value, byte < 128 := by
  intro byte member
  rcases List.mem_append.mp member with zero | digit
  · rw [List.eq_of_mem_replicate zero]
    decide
  · exact Base62.Codec.encodeAlternative_ascii _ byte digit

theorem base62EncodeFixedWidth_zeros (fits : FixedWidthFits width) (i : BitVec (8 * width))
    (rest : List UInt8) :
    base62EncodeFixedWidth width i
        (List.replicate (base62MaxLengthForType width) '0'.toNat.toUInt8 ++ rest) =
      some (paddedField width i.toNat ++ rest, base62MaxLengthForType width) := by
  have counted : digitCount (BigEndian.swapBytes width i.toNat) =
      (Base62.Codec.encodeAlternative (BigEndian.swapBytes width i.toNat)).length := by
    rw [Base62.Codec.length_encodeAlternative, digitCount_eq_length (fits.swapBytes_lt i.toNat)]
  have short := fits.length_le i.toNat
  unfold base62EncodeFixedWidth
  dsimp only
  rw [counted, if_pos ⟨short, by simp⟩]
  simp only [Base62.encodeAlternativeBytes, paddedField]
  generalize Base62.Codec.encodeAlternative (BigEndian.swapBytes width i.toNat) = encoded at short ⊢
  generalize base62MaxLengthForType width = maxLength at short ⊢
  have slice : ((List.replicate maxLength '0'.toNat.toUInt8 ++ rest).drop (maxLength - encoded.length)).take
      encoded.length = List.replicate encoded.length '0'.toNat.toUInt8 := by
    rw [List.drop_append_of_le_length (by simp only [List.length_replicate]; omega),
      List.drop_replicate, List.take_append_of_le_length (by simp only [List.length_replicate]; omega),
      List.take_replicate]
    congr 1
    omega
  rw [slice, if_neg (by simp)]
  dsimp only
  rw [List.drop_replicate, Nat.sub_self, List.replicate_zero, List.append_nil,
    StrBytes.copyInto_replicate _ (by omega)]
  simp only [Option.some.injEq, Prod.mk.injEq, and_true]
  have noSpare : maxLength - (maxLength - encoded.length) - encoded.length = 0 := by omega
  rw [noSpare, List.replicate_zero, List.append_nil]

theorem decodePadded_paddedField (fits : FixedWidthFits width) (value : Nat) :
    decodePadded (paddedField width value) = .ok (BigEndian.swapBytes width value) := by
  have zeroChar : '0'.toNat.toUInt8 = 48 := rfl
  simp only [decodePadded, paddedField, zeroChar, Base62.dropWhile_zeros_encodeAlternative]
  by_cases zero : BigEndian.swapBytes width value = 0
  · rw [if_pos zero, zero, Base62.Codec.decodeAlternative_nil]
  · rw [if_neg zero, Base62.Codec.decodeAlternative_encodeAlternative _ (fits.swapBytes_lt value)]

theorem decodeNext_paddedField (fits : FixedWidthFits width) (i : BitVec (8 * width))
    {cursor : IdStrCursor} (before after : List UInt8)
    (split : cursor.inner = before ++ paddedField width i.toNat ++ after)
    (atField : cursor.offset = before.length) (ascii : ∀ byte ∈ cursor.inner, byte < 128) :
    cursor.decodeNext width =
      .ok (i, { cursor with offset := cursor.offset + base62MaxLengthForType width }) := by
  have sliced : StrBytes.get cursor.inner cursor.offset
      (cursor.offset + base62MaxLengthForType width) = some (paddedField width i.toNat) := by
    have within : cursor.offset + base62MaxLengthForType width ≤ cursor.inner.length := by
      simp [split, atField, length_paddedField fits]
    rw [StrBytes.get_of_ascii ascii (by omega) within, split, atField]
    simp [length_paddedField fits]
  have swapped : BigEndian.swapBytes width i.toNat < 2 ^ (8 * width) := by
    rw [Nat.pow_mul]
    exact BigEndian.swapBytes_lt width i.toNat
  have below : i.toNat < 256 ^ width := by
    have bound := i.isLt
    rwa [Nat.pow_mul] at bound
  simp only [IdStrCursor.decodeNext, sliced, Option.elim, decodePadded_paddedField fits, bind,
    Except.bind, pure, Except.pure]
  rw [if_pos swapped, BigEndian.swapBytes_swapBytes below]
  simp

theorem IdEncoder.pushFixedWidth_holding (fits : FixedWidthFits width) (i : BitVec (8 * width))
    {written : List UInt8} {spare : Nat} (room : base62MaxLengthForType width ≤ spare) :
    (IdEncoder.holding written spare).pushFixedWidth width i =
      some (.holding (written ++ paddedField width i.toNat) (spare - base62MaxLengthForType width)) := by
  have tail : List.replicate spare '0'.toNat.toUInt8 =
      List.replicate (base62MaxLengthForType width) '0'.toNat.toUInt8 ++
        List.replicate (spare - base62MaxLengthForType width) '0'.toNat.toUInt8 := by
    rw [← List.replicate_add]
    congr 1
    omega
  simp only [IdEncoder.pushFixedWidth, IdEncoder.holding, List.length_append, List.length_replicate,
    List.drop_left, List.take_left]
  rw [if_pos (by omega), tail, base62EncodeFixedWidth_zeros fits]
  simp [length_paddedField fits]

end FixedWidth

end Restate
