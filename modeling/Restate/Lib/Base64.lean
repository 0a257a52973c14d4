import Mathlib.Data.List.Basic

/-! Base64 without padding, as the ids use the base64 crate's URL-safe engine. The engine is a
parameter, `Engine`: three bytes become four characters, a last group of one or two bytes becomes
two or three, and every character is ASCII. A `Decoder` is anything that reads back what the
engine writes. `urlSafe` is one engine, with the URL-safe alphabet of RFC 4648 §5, and
`reference` a decoder for it. -/

namespace Base64

/-- encoded_len without padding: four characters for each group of three bytes, and two or three
for the one or two bytes left. -/
def encodedLen (bytesLen : Nat) : Nat :=
  bytesLen / 3 * 4 + match bytesLen % 3 with
    | 0 => 0
    | 1 => 2
    | _ => 3

/-- The engine's encode, with what the id strings rely on. -/
class Engine where
  encode : List UInt8 → List UInt8
  length_encode : ∀ bytes, (encode bytes).length = encodedLen bytes.length
  encode_ascii : ∀ bytes, ∀ c ∈ encode bytes, c < 128

inductive EncodeSliceError
  | outputSliceTooSmall
  deriving DecidableEq, Repr

section Engine

variable [Engine]

/-- encode_slice: the characters at the front of the output, and how many there are. -/
def encodeSlice (input output : List UInt8) : Except EncodeSliceError (List UInt8 × Nat) :=
  let encoded := Engine.encode input
  if output.length < encoded.length then .error .outputSliceTooSmall
  else .ok (encoded ++ output.drop encoded.length, encoded.length)

/-- A decoder that reads back what the engine writes. -/
structure Decoder where
  decode : List UInt8 → Option (List UInt8)
  decode_encode : ∀ bytes, decode (Engine.encode bytes) = some bytes

end Engine

namespace UrlSafe

/-- `A-Z`, `a-z`, `0-9`, `-` and `_` for the sextets 0 to 63. -/
def alphabet (sextet : Nat) : UInt8 :=
  if sextet < 26 then (65 + sextet).toUInt8
  else if sextet < 52 then (97 + (sextet - 26)).toUInt8
  else if sextet < 62 then (48 + (sextet - 52)).toUInt8
  else if sextet = 62 then 45
  else 95

def sextet (c : UInt8) : Option Nat :=
  if 65 ≤ c ∧ c ≤ 90 then some (c.toNat - 65)
  else if 97 ≤ c ∧ c ≤ 122 then some (c.toNat - 97 + 26)
  else if 48 ≤ c ∧ c ≤ 57 then some (c.toNat - 48 + 52)
  else if c = 45 then some 62
  else if c = 95 then some 63
  else none

theorem sextet_alphabet : ∀ value < 64, sextet (alphabet value) = some value := by
  decide

theorem alphabet_ascii : ∀ value < 64, alphabet value < 128 := by
  decide

@[simp] theorem sextet_alphabet_mod (value : Nat) : sextet (alphabet (value % 64)) = some (value % 64) :=
  sextet_alphabet _ (Nat.mod_lt _ (by decide))

theorem alphabet_mod_ascii (value : Nat) : alphabet (value % 64) < 128 :=
  alphabet_ascii _ (Nat.mod_lt _ (by decide))

def encode : List UInt8 → List UInt8
  | first :: second :: third :: rest =>
    let group := first.toNat * 65536 + second.toNat * 256 + third.toNat
    alphabet (group / 262144 % 64) :: alphabet (group / 4096 % 64) :: alphabet (group / 64 % 64) ::
      alphabet (group % 64) :: encode rest
  | [first, second] =>
    let group := first.toNat * 256 + second.toNat
    [alphabet (group / 1024 % 64), alphabet (group / 16 % 64), alphabet (group % 16 * 4 % 64)]
  | [first] => [alphabet (first.toNat / 4 % 64), alphabet (first.toNat % 4 * 16 % 64)]
  | [] => []

/-- A decoder for the output of `encode`; it does not check that unused bits are zero. -/
def decodeReference : List UInt8 → Option (List UInt8)
  | c₀ :: c₁ :: c₂ :: c₃ :: rest => do
    let group := (← sextet c₀) * 262144 + (← sextet c₁) * 4096 + (← sextet c₂) * 64 + (← sextet c₃)
    let rest ← decodeReference rest
    pure ((group / 65536).toUInt8 :: (group / 256 % 256).toUInt8 :: (group % 256).toUInt8 :: rest)
  | [c₀, c₁, c₂] => do
    let group := (← sextet c₀) * 1024 + (← sextet c₁) * 16 + (← sextet c₂) / 4
    pure [(group / 256).toUInt8, (group % 256).toUInt8]
  | [c₀, c₁] => do
    pure [((← sextet c₀) * 4 + (← sextet c₁) / 16).toUInt8]
  | [_] => none
  | [] => some []

theorem toUInt8_toNat {byte : UInt8} {value : Nat} (same : value = byte.toNat) :
    value.toUInt8 = byte := by
  rw [same]
  simp

theorem decodeReference_encode : ∀ bytes, decodeReference (encode bytes) = some bytes
  | first :: second :: third :: rest => by
    have bounds := And.intro first.toNat_lt (And.intro second.toNat_lt third.toNat_lt)
    simp only [encode, decodeReference, sextet_alphabet_mod, Option.bind_eq_bind,
      Option.bind_some, decodeReference_encode rest, Option.pure_def, Option.some.injEq,
      List.cons.injEq, and_true]
    refine ⟨toUInt8_toNat ?_, toUInt8_toNat ?_, toUInt8_toNat ?_⟩ <;> omega
  | [first, second] => by
    have bounds := And.intro first.toNat_lt second.toNat_lt
    simp only [encode, decodeReference, sextet_alphabet_mod, Option.bind_eq_bind,
      Option.bind_some, Option.pure_def, Option.some.injEq, List.cons.injEq, and_true]
    refine ⟨toUInt8_toNat ?_, toUInt8_toNat ?_⟩ <;> omega
  | [first] => by
    have bound := first.toNat_lt
    simp only [encode, decodeReference, sextet_alphabet_mod, Option.bind_eq_bind,
      Option.bind_some, Option.pure_def, Option.some.injEq, List.cons.injEq, and_true]
    exact toUInt8_toNat (by omega)
  | [] => rfl

theorem length_encode : ∀ bytes, (encode bytes).length = (4 * bytes.length + 2) / 3
  | _ :: _ :: _ :: rest => by
    simp only [encode, List.length_cons, length_encode rest]
    omega
  | [_, _] | [_] | [] => by simp [encode]

theorem length_encode_eq_encodedLen (bytes : List UInt8) :
    (encode bytes).length = encodedLen bytes.length := by
  rw [length_encode, encodedLen]
  have remainders : bytes.length % 3 = 0 ∨ bytes.length % 3 = 1 ∨ bytes.length % 3 = 2 := by omega
  rcases remainders with remainder | remainder | remainder <;> simp only [remainder] <;> omega

theorem encode_ascii : ∀ bytes, ∀ c ∈ encode bytes, c < 128
  | _ :: _ :: _ :: rest => by
    simp only [encode, List.mem_cons]
    rintro c (same | same | same | same | later)
    all_goals first
      | exact encode_ascii rest c later
      | exact same ▸ alphabet_mod_ascii _
  | [_, _] => by
    simp only [encode, List.mem_cons, List.not_mem_nil, or_false]
    rintro c (same | same | same) <;> exact same ▸ alphabet_mod_ascii _
  | [_] => by
    simp only [encode, List.mem_cons, List.not_mem_nil, or_false]
    rintro c (same | same) <;> exact same ▸ alphabet_mod_ascii _
  | [] => by simp [encode]

end UrlSafe

/-- The URL-safe alphabet without padding is an engine. -/
@[reducible] def urlSafe : Engine := ⟨UrlSafe.encode, UrlSafe.length_encode_eq_encodedLen, UrlSafe.encode_ascii⟩

def reference : @Decoder urlSafe := @Decoder.mk urlSafe UrlSafe.decodeReference UrlSafe.decodeReference_encode

end Base64
