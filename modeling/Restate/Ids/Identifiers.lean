import Restate.Ids.IdUtil
import Restate.Lib.Base64

/-! The identifiers of identifiers.rs with their string and byte forms. An invocation id is a
partition key and an invocation uuid; its string is `inv_1` followed by the two integers as
fixed-width base62 fields, and its bytes are the two integers big-endian. Awakeable and signal
identifiers add a 32-bit index to an invocation id and write the 28 bytes of both in URL-safe
base64 after `prom_1` or `sign_1`.

The base62 and base64 crates are parameters, `Base62.Codec` and `Base64.Engine`. Reading back what
is written gives the identifier, and every string is ASCII of the length its type declares. For the
base64 forms this rests on the decoder reading back what the engine writes, which is what a
`Base64.Decoder` carries. `InvocationUuid::from_u128` holds a debug assertion that the value is
not zero; as in release builds, it is not checked here. -/

namespace Restate

abbrev EntryIndex := BitVec 32

/-- The ResourceId trait: the length of the raw bytes, the resource type, the length of the string
form, and how the fields are pushed to an encoder. -/
structure ResourceId (α : Type) where
  rawBytesLen : Nat
  resourceType : IdResourceType
  strEncodedLen : Nat
  pushToEncoder : α → IdEncoder → Option IdEncoder

/-- The Display implementations of resource ids: the fields pushed to a fresh encoder. -/
def ResourceId.display (resource : ResourceId α) (id : α) : Option (List UInt8) := do
  let encoder ← resource.pushToEncoder id (IdEncoder.new resource.resourceType resource.strEncodedLen)
  pure encoder.asStr

namespace InvocationUuid

def rawBytesLen : Nat := 16

def toBytes (uuid : InvocationUuid) : List UInt8 := BigEndian.encode rawBytesLen uuid.value.toNat

/-- from_bytes: from_u128 of the big-endian value. -/
def fromBytes (b : List UInt8) : InvocationUuid := ⟨BitVec.ofNat 128 (BigEndian.decode b)⟩

/-- from_slice: the conversion to an array of RAW_BYTES_LEN bytes fails on any other length. -/
def fromSlice (b : List UInt8) : Except IdDecodeError InvocationUuid :=
  if b.length = rawBytesLen then .ok (fromBytes b) else .error .length

/-- Display: the fixed-width field written into a buffer of `0` characters. -/
def display [Base62.Codec] (uuid : InvocationUuid) : Option (List UInt8) :=
  (base62EncodeFixedWidthU128 uuid.value
      (List.replicate (base62MaxLengthForType 16) '0'.toNat.toUInt8)).map
    fun (buf, written) => buf.take written

def fromStr [Base62.Codec] (input : List UInt8) : Except IdDecodeError InvocationUuid := do
  let decoder ← IdDecoder.newIgnorePrefix .latest .invocation input
  let (rawUlid, cursor) ← decoder.cursor.decodeNext 16
  if cursor.remaining ≠ 0 then throw .length
  pure ⟨rawUlid⟩

end InvocationUuid

structure InvocationId where
  partitionKey : PartitionKey
  inner : InvocationUuid
  deriving DecidableEq, Repr

namespace InvocationId

def rawBytesLen : Nat := 8 + InvocationUuid.rawBytesLen

/-- encode_raw_bytes: the partition key and the uuid, big-endian, as written into a buffer of
RAW_BYTES_LEN bytes. -/
def encodeRawBytes (id : InvocationId) : List UInt8 :=
  BigEndian.encode 8 id.partitionKey.toNat ++ id.inner.toBytes

def toBytes (id : InvocationId) : List UInt8 := id.encodeRawBytes

/-- From<EncodedInvocationId>: the partition key from the first eight bytes, the uuid from the
next sixteen. -/
def fromEncoded (encodedId : List UInt8) : InvocationId :=
  ⟨BitVec.ofNat 64 (BigEndian.decode (encodedId.take 8)),
    InvocationUuid.fromBytes ((encodedId.drop 8).take InvocationUuid.rawBytesLen)⟩

/-- TryFrom<&[u8]>: too short, and then any other length than RAW_BYTES_LEN, is a length error. -/
def tryFrom (encodedId : List UInt8) : Except IdDecodeError InvocationId :=
  if encodedId.length < rawBytesLen then .error .length
  else if encodedId.length ≠ rawBytesLen then .error .length
  else .ok (fromEncoded encodedId)

def fromSlice (b : List UInt8) : Except IdDecodeError InvocationId := tryFrom b

def resourceId [Base62.Codec] : ResourceId InvocationId where
  rawBytesLen := rawBytesLen
  resourceType := .invocation
  -- prefix, separator and version, then a u64 and a u128 field
  strEncodedLen :=
    (utf8 IdResourceType.invocation.asStr).length + 2 + base62MaxLengthForType 8 +
      base62MaxLengthForType 16
  pushToEncoder id encoder := do
    let encoder ← encoder.pushU64 id.partitionKey
    encoder.pushU128 id.inner.value

def strEncodedLen [Base62.Codec] : Nat := resourceId.strEncodedLen

theorem strEncodedLen_eq [Base62.Codec] : strEncodedLen = 38 := rfl

def display [Base62.Codec] (id : InvocationId) : Option (List UInt8) := resourceId.display id

def fromStr [Base62.Codec] (input : List UInt8) : Except IdDecodeError InvocationId := do
  let decoder ← IdDecoder.new input
  if decoder.resourceType ≠ resourceId.resourceType then throw .typeMismatch
  let (partitionKey, cursor) ← decoder.cursor.decodeNext 8
  let (rawUlid, cursor) ← cursor.decodeNext 16
  if cursor.remaining ≠ 0 then throw .length
  pure ⟨partitionKey, ⟨rawUlid⟩⟩

end InvocationId

/-- push_to_encoder of awakeable and signal identifiers: the invocation id's raw bytes and the
index big-endian, in URL-safe base64 into the rest of the encoder's buffer. -/
def pushIndexedToEncoder [Base64.Engine] (invocationId : InvocationId) (index : BitVec 32) (encoder : IdEncoder) :
    Option IdEncoder :=
  let inputBuf := invocationId.encodeRawBytes ++ BigEndian.encode 4 index.toNat
  match Base64.encodeSlice inputBuf encoder.remainingMut with
  | .ok (remaining, written) => some ((encoder.withRemainingMut remaining).advance written)
  | .error _ => none

/-- The ResourceId implementations of awakeable and signal identifiers. -/
def indexedResourceId [Base64.Engine] (resourceType : IdResourceType) (invocationId : α → InvocationId)
    (index : α → BitVec 32) : ResourceId α where
  rawBytesLen := InvocationId.rawBytesLen + 4
  resourceType := resourceType
  -- prefix, separator and version, then the raw bytes in base64 without padding
  strEncodedLen := (utf8 resourceType.asStr).length + 2 + Base64.encodedLen (InvocationId.rawBytesLen + 4)
  pushToEncoder id := pushIndexedToEncoder (invocationId id) (index id)

/-- FromStr of awakeable and signal identifiers: the invocation id and the index. -/
def fromStrIndexed [Base64.Engine] (decoder : Base64.Decoder) (resourceType : IdResourceType) (input : List UInt8) :
    Except IdDecodeError (InvocationId × BitVec 32) := do
  let idDecoder ← IdDecoder.new input
  if idDecoder.resourceType ≠ resourceType then throw .typeMismatch
  let remaining ← idDecoder.cursor.takeRemaining
  let buffer ← (decoder.decode remaining).elim (throw .codec) pure
  if buffer.length ≠ InvocationId.rawBytesLen + 4 then throw .length
  let invocationId ← InvocationId.fromSlice (buffer.take InvocationId.rawBytesLen)
  pure (invocationId, BitVec.ofNat 32 (BigEndian.decode (buffer.drop InvocationId.rawBytesLen)))

structure AwakeableIdentifier where
  invocationId : InvocationId
  entryIndex : EntryIndex
  deriving DecidableEq, Repr

namespace AwakeableIdentifier

def resourceId [Base64.Engine] : ResourceId AwakeableIdentifier :=
  indexedResourceId .awakeable AwakeableIdentifier.invocationId AwakeableIdentifier.entryIndex

def strEncodedLen [Base64.Engine] : Nat := resourceId.strEncodedLen

def display [Base64.Engine] (id : AwakeableIdentifier) : Option (List UInt8) := resourceId.display id

def fromStr [Base64.Engine] (decoder : Base64.Decoder) (input : List UInt8) :
    Except IdDecodeError AwakeableIdentifier :=
  (fromStrIndexed decoder resourceId.resourceType input).map fun (invocationId, entryIndex) =>
    ⟨invocationId, entryIndex⟩

end AwakeableIdentifier

structure ExternalSignalIdentifier where
  invocationId : InvocationId
  signalIndex : BitVec 32
  deriving DecidableEq, Repr

namespace ExternalSignalIdentifier

def resourceId [Base64.Engine] : ResourceId ExternalSignalIdentifier :=
  indexedResourceId .signal ExternalSignalIdentifier.invocationId ExternalSignalIdentifier.signalIndex

def strEncodedLen [Base64.Engine] : Nat := resourceId.strEncodedLen

def display [Base64.Engine] (id : ExternalSignalIdentifier) : Option (List UInt8) := resourceId.display id

def fromStr [Base64.Engine] (decoder : Base64.Decoder) (input : List UInt8) :
    Except IdDecodeError ExternalSignalIdentifier :=
  (fromStrIndexed decoder resourceId.resourceType input).map fun (invocationId, signalIndex) =>
    ⟨invocationId, signalIndex⟩

end ExternalSignalIdentifier

theorem InvocationUuid.fromSlice_toBytes (uuid : InvocationUuid) :
    InvocationUuid.fromSlice uuid.toBytes = .ok uuid := by
  have read : InvocationUuid.fromBytes uuid.toBytes = uuid := by
    rw [InvocationUuid.fromBytes, InvocationUuid.toBytes, InvocationUuid.rawBytesLen,
      @BigEndian.ofNat_decode_encode 16 uuid.value]
  rw [InvocationUuid.fromSlice, if_pos (by simp [InvocationUuid.toBytes]), read]

theorem InvocationId.fromSlice_toBytes (id : InvocationId) :
    InvocationId.fromSlice id.toBytes = .ok id := by
  have length : id.toBytes.length = rawBytesLen := by
    simp [toBytes, encodeRawBytes, InvocationUuid.toBytes, rawBytesLen]
  have read : fromEncoded id.toBytes = id := by
    simp only [fromEncoded, toBytes, encodeRawBytes, InvocationUuid.toBytes, InvocationUuid.rawBytesLen]
    rw [List.take_left' (by simp), List.drop_left' (by simp), List.take_of_length_le (by simp),
      @BigEndian.ofNat_decode_encode 8 id.partitionKey, InvocationUuid.fromBytes,
      @BigEndian.ofNat_decode_encode 16 id.inner.value]
  rw [fromSlice, tryFrom, if_neg (by omega), if_neg (by omega), read]

theorem InvocationUuid.display_eq [Base62.Codec] (uuid : InvocationUuid) :
    uuid.display = some (paddedField 16 uuid.value.toNat) := by
  rw [InvocationUuid.display, base62EncodeFixedWidthU128, ← List.append_nil (List.replicate _ _),
    base62EncodeFixedWidth_zeros fixedWidthFits_u128]
  simp [length_paddedField fixedWidthFits_u128]

theorem InvocationUuid.fromStr_paddedField [Base62.Codec] (uuid : InvocationUuid) :
    InvocationUuid.fromStr (paddedField 16 uuid.value.toNat) = .ok uuid := by
  have read : IdStrCursor.decodeNext 16 ⟨paddedField 16 uuid.value.toNat, 0⟩ =
      .ok (uuid.value, ⟨paddedField 16 uuid.value.toNat, 0 + base62MaxLengthForType 16⟩) :=
    decodeNext_paddedField fixedWidthFits_u128 uuid.value [] [] (by simp) rfl (paddedField_ascii 16 _)
  have remaining : IdStrCursor.remaining ⟨paddedField 16 uuid.value.toNat,
      0 + base62MaxLengthForType 16⟩ = 0 := by
    simp [IdStrCursor.remaining, length_paddedField fixedWidthFits_u128]
  simp only [InvocationUuid.fromStr, IdDecoder.newIgnorePrefix, IdStrCursor.new, bind, Except.bind,
    read, remaining]
  rfl

theorem InvocationId.display_eq [Base62.Codec] (id : InvocationId) :
    id.display = some (utf8 IdResourceType.invocation.asStr ++ [95, 49] ++
      paddedField 8 id.partitionKey.toNat ++ paddedField 16 id.inner.value.toNat) := by
  have start : IdEncoder.new .invocation strEncodedLen =
      .holding (utf8 IdResourceType.invocation.asStr ++ [95, 49]) 33 :=
    IdEncoder.new_holding .invocation (by rw [strEncodedLen_eq]; decide)
  have first : (IdEncoder.holding (utf8 IdResourceType.invocation.asStr ++ [95, 49]) 33).pushU64
      id.partitionKey = some (.holding (utf8 IdResourceType.invocation.asStr ++ [95, 49] ++
        paddedField 8 id.partitionKey.toNat) 22) :=
    IdEncoder.pushFixedWidth_holding fixedWidthFits_u64 id.partitionKey (by decide)
  have second : (IdEncoder.holding (utf8 IdResourceType.invocation.asStr ++ [95, 49] ++
      paddedField 8 id.partitionKey.toNat) 22).pushU128 id.inner.value =
        some (.holding (utf8 IdResourceType.invocation.asStr ++ [95, 49] ++
          paddedField 8 id.partitionKey.toNat ++ paddedField 16 id.inner.value.toNat) 0) :=
    IdEncoder.pushFixedWidth_holding fixedWidthFits_u128 id.inner.value (by decide)
  simp only [display, ResourceId.display, resourceId]
  rw [show (utf8 IdResourceType.invocation.asStr).length + 2 + base62MaxLengthForType 8 +
    base62MaxLengthForType 16 = strEncodedLen from rfl, start]
  simp only [bind, Option.bind, first, second, pure, IdEncoder.asStr_holding]

theorem InvocationId.fromStr_display_eq [Base62.Codec] (id : InvocationId) :
    InvocationId.fromStr (utf8 IdResourceType.invocation.asStr ++ [95, 49] ++
      paddedField 8 id.partitionKey.toNat ++ paddedField 16 id.inner.value.toNat) = .ok id := by
  generalize fieldsDef : paddedField 8 id.partitionKey.toNat ++ paddedField 16 id.inner.value.toNat =
    fields
  have shape : utf8 IdResourceType.invocation.asStr ++ [95, 49] ++ paddedField 8 id.partitionKey.toNat ++
      paddedField 16 id.inner.value.toNat = utf8 IdResourceType.invocation.asStr ++ 95 :: 49 :: fields := by
    simp [← fieldsDef]
  have fieldsAscii : ∀ byte ∈ fields, byte < 128 := by
    rw [← fieldsDef]
    intro byte member
    rcases List.mem_append.mp member with early | late
    · exact paddedField_ascii 8 _ byte early
    · exact paddedField_ascii 16 _ byte late
  have ascii : ∀ byte ∈ (49 :: fields : List UInt8), byte < 128 := by
    intro byte member
    rcases List.mem_cons.mp member with version | field
    · rw [version]
      decide
    · exact fieldsAscii byte field
  have first : IdStrCursor.decodeNext 8 ⟨49 :: fields, 1⟩ =
      .ok (id.partitionKey, ⟨49 :: fields, 1 + base62MaxLengthForType 8⟩) :=
    decodeNext_paddedField fixedWidthFits_u64 id.partitionKey [49] (paddedField 16 id.inner.value.toNat)
      (by simp [← fieldsDef]) rfl ascii
  have second : IdStrCursor.decodeNext 16 ⟨49 :: fields, 1 + base62MaxLengthForType 8⟩ =
      .ok (id.inner.value, ⟨49 :: fields, 1 + base62MaxLengthForType 8 + base62MaxLengthForType 16⟩) :=
    decodeNext_paddedField fixedWidthFits_u128 id.inner.value (49 :: paddedField 8 id.partitionKey.toNat) []
      (by simp [← fieldsDef]) (by simp [length_paddedField fixedWidthFits_u64]; omega) ascii
  have remaining : IdStrCursor.remaining ⟨49 :: fields,
      1 + base62MaxLengthForType 8 + base62MaxLengthForType 16⟩ = 0 := by
    simp [IdStrCursor.remaining, ← fieldsDef, length_paddedField fixedWidthFits_u64,
      length_paddedField fixedWidthFits_u128]
  rw [shape]
  simp only [fromStr, IdDecoder.new_header _ fieldsAscii, bind, Except.bind, resourceId, first, second,
    remaining]
  rfl

theorem length_encodeRawBytes_index (invocationId : InvocationId) (index : BitVec 32) :
    (invocationId.encodeRawBytes ++ BigEndian.encode 4 index.toNat).length =
      InvocationId.rawBytesLen + 4 := by
  simp only [InvocationId.encodeRawBytes, InvocationUuid.toBytes, InvocationId.rawBytesLen,
    List.length_append, BigEndian.length_encode]

theorem indexedResourceId_display [Base64.Engine] (resourceType : IdResourceType) (invocationId : α → InvocationId)
    (index : α → BitVec 32) (id : α) :
    (indexedResourceId resourceType invocationId index).display id =
      some (utf8 resourceType.asStr ++ [95, 49] ++
        Base64.Engine.encode ((invocationId id).encodeRawBytes ++ BigEndian.encode 4 (index id).toNat)) := by
  generalize inputDef : (invocationId id).encodeRawBytes ++ BigEndian.encode 4 (index id).toNat = input
  have encodedLength : (Base64.Engine.encode input).length = 38 := by
    rw [Base64.Engine.length_encode, ← inputDef, length_encodeRawBytes_index]
    rfl
  have start : IdEncoder.new resourceType ((utf8 resourceType.asStr).length + 2 +
      Base64.encodedLen (InvocationId.rawBytesLen + 4)) = .holding (utf8 resourceType.asStr ++ [95, 49]) 38 := by
    have base64Length : Base64.encodedLen (InvocationId.rawBytesLen + 4) = 38 := by decide
    rw [IdEncoder.new_holding resourceType (by omega), base64Length]
    congr 1
    omega
  have push : pushIndexedToEncoder (invocationId id) (index id)
      (.holding (utf8 resourceType.asStr ++ [95, 49]) 38) =
        some (.holding (utf8 resourceType.asStr ++ [95, 49] ++ Base64.Engine.encode input) 0) := by
    simp only [pushIndexedToEncoder, inputDef, IdEncoder.remainingMut_holding, Base64.encodeSlice]
    rw [if_neg (by simp [encodedLength])]
    dsimp only
    rw [IdEncoder.advance_withRemainingMut_holding, encodedLength]
  simp only [ResourceId.display, indexedResourceId, start, push, bind, Option.bind, pure,
    IdEncoder.asStr_holding]

theorem fromStrIndexed_display [Base64.Engine] (decoder : Base64.Decoder) (resourceType : IdResourceType)
    (invocationId : InvocationId) (index : BitVec 32) :
    fromStrIndexed decoder resourceType (utf8 resourceType.asStr ++ [95, 49] ++
      Base64.Engine.encode (invocationId.encodeRawBytes ++ BigEndian.encode 4 index.toNat)) =
        .ok (invocationId, index) := by
  have inputLength := length_encodeRawBytes_index invocationId index
  have idLength : invocationId.encodeRawBytes.length = InvocationId.rawBytesLen := by
    simp [InvocationId.encodeRawBytes, InvocationUuid.toBytes, InvocationId.rawBytesLen]
  generalize inputDef : invocationId.encodeRawBytes ++ BigEndian.encode 4 index.toNat = input
    at inputLength
  have shape : utf8 resourceType.asStr ++ [95, 49] ++ Base64.Engine.encode input =
      utf8 resourceType.asStr ++ 95 :: 49 :: Base64.Engine.encode input := by
    simp
  have ascii : ∀ byte ∈ (49 :: Base64.Engine.encode input : List UInt8), byte < 128 := by
    intro byte member
    rcases List.mem_cons.mp member with version | encoded
    · rw [version]
      decide
    · exact Base64.Engine.encode_ascii input byte encoded
  have remaining : IdStrCursor.takeRemaining ⟨49 :: Base64.Engine.encode input, 1⟩ = .ok (Base64.Engine.encode input) := by
    rw [IdStrCursor.takeRemaining, @StrBytes.getFrom_of_ascii (49 :: Base64.Engine.encode input) ascii 1 (by simp)]
    rfl
  have invocationRead : InvocationId.fromSlice (input.take InvocationId.rawBytesLen) = .ok invocationId := by
    rw [← inputDef, List.take_left' idLength]
    exact invocationId.fromSlice_toBytes
  have indexRead : BitVec.ofNat 32 (BigEndian.decode (input.drop InvocationId.rawBytesLen)) = index := by
    rw [← inputDef, List.drop_left' idLength]
    exact @BigEndian.ofNat_decode_encode 4 index
  rw [shape]
  simp only [fromStrIndexed, IdDecoder.new_header _ (fun byte member => ascii byte (List.mem_cons_of_mem _ member)),
    bind, Except.bind, remaining, decoder.decode_encode, Option.elim, pure, Except.pure, inputLength,
    invocationRead, indexRead, ne_eq, not_true_eq_false, ↓reduceIte]

theorem length_indexedDisplay [Base64.Engine] (resourceType : IdResourceType) (invocationId : InvocationId)
    (index : BitVec 32) :
    (utf8 resourceType.asStr ++ [95, 49] ++
      Base64.Engine.encode (invocationId.encodeRawBytes ++ BigEndian.encode 4 index.toNat)).length =
        (utf8 resourceType.asStr).length + 2 + Base64.encodedLen (InvocationId.rawBytesLen + 4) := by
  rw [List.length_append, Base64.Engine.length_encode, length_encodeRawBytes_index]
  simp

theorem resource_id_codecs_round_trip [Base62.Codec] [Base64.Engine] (decoder : Base64.Decoder) :
    InvocationId.strEncodedLen = 38 ∧
    (∀ id : InvocationId,
      (∃ text, id.display = some text ∧ text.length = InvocationId.strEncodedLen ∧
        (∀ byte ∈ text, byte < 128) ∧ InvocationId.fromStr text = .ok id) ∧
      InvocationId.fromSlice id.toBytes = .ok id) ∧
    (∀ uuid : InvocationUuid,
      (∃ text, uuid.display = some text ∧ InvocationUuid.fromStr text = .ok uuid) ∧
      InvocationUuid.fromSlice uuid.toBytes = .ok uuid) ∧
    (∀ id : AwakeableIdentifier, ∃ text, id.display = some text ∧
      text.length = AwakeableIdentifier.strEncodedLen ∧ AwakeableIdentifier.fromStr decoder text = .ok id) ∧
    (∀ id : ExternalSignalIdentifier, ∃ text, id.display = some text ∧
      text.length = ExternalSignalIdentifier.strEncodedLen ∧
        ExternalSignalIdentifier.fromStr decoder text = .ok id) := by
  have invocationText (id : InvocationId) :
      (utf8 IdResourceType.invocation.asStr ++ [95, 49] ++ paddedField 8 id.partitionKey.toNat ++
        paddedField 16 id.inner.value.toNat).length = InvocationId.strEncodedLen ∧
      ∀ byte ∈ utf8 IdResourceType.invocation.asStr ++ [95, 49] ++ paddedField 8 id.partitionKey.toNat ++
        paddedField 16 id.inner.value.toNat, byte < 128 := by
    constructor
    · simp only [List.length_append, length_paddedField fixedWidthFits_u64,
        length_paddedField fixedWidthFits_u128]
      rfl
    · intro byte member
      simp only [List.mem_append] at member
      rcases member with ((header | separator) | early) | late
      · exact IdResourceType.invocation.asStr_ascii.1 byte header
      · simp only [List.mem_cons, List.not_mem_nil, or_false] at separator
        rcases separator with same | same <;> rw [same] <;> decide
      · exact paddedField_ascii 8 _ byte early
      · exact paddedField_ascii 16 _ byte late
  refine ⟨InvocationId.strEncodedLen_eq, fun id => ?_, fun uuid => ?_, fun id => ?_, fun id => ?_⟩
  · obtain ⟨length, ascii⟩ := invocationText id
    exact ⟨⟨_, id.display_eq, length, ascii, id.fromStr_display_eq⟩, id.fromSlice_toBytes⟩
  · exact ⟨⟨_, uuid.display_eq, uuid.fromStr_paddedField⟩, uuid.fromSlice_toBytes⟩
  · refine ⟨_, indexedResourceId_display _ _ _ id, length_indexedDisplay _ _ _, ?_⟩
    rw [AwakeableIdentifier.fromStr,
      show AwakeableIdentifier.resourceId.resourceType = .awakeable from rfl, fromStrIndexed_display]
    rfl
  · refine ⟨_, indexedResourceId_display _ _ _ id, length_indexedDisplay _ _ _, ?_⟩
    rw [ExternalSignalIdentifier.fromStr,
      show ExternalSignalIdentifier.resourceId.resourceType = .signal from rfl, fromStrIndexed_display]
    rfl

instance referenceBase62 : Base62.Codec := Base62.reference

-- the rejected strings of the source's bad_invocation_id_str test
example : InvocationId.fromStr [] = .error .length := by decide
example : InvocationId.fromStr (utf8 "mxvgUOrwIb8") = .error .format := by decide
example : InvocationId.fromStr (utf8 "inv_ub23411ba") = .error .version := by decide
example : InvocationId.fromStr (utf8 "inv_1b234d1ba") = .error .length := by decide

end Restate
