import Restate.Storage.KeyKind
import Restate.Lib.Varint

/-! The codecs of the fields of partition-store keys: the KeyEncode and KeyDecode implementations
of keys.rs, locks_table/mod.rs and vqueue_table/key_codec.rs. Integers are written big-endian at
their width; byte strings and strings are written after their length as a varint; tagged values
start with a discriminator byte. A lock name and a signal name are written without a length, so
they are only read as the last field of a key. -/

namespace Restate

/-- A type's KeyEncode and KeyDecode implementations. -/
structure KeyCodec (α : Type) where
  encode : α → List UInt8
  serializedLength : α → Nat
  decode : KeyDecoder α

/-- The UTF-8 bytes of a string. -/
def utf8 (value : String) : List UInt8 := value.toUTF8.data.toList

/-- Bytes the source turns into a string without checking them. -/
def utf8Unchecked (bytes : List UInt8) : KeyDecoder String :=
  match String.fromUTF8? ⟨bytes.toArray⟩ with
  | some value => pure value
  | none => throw .unchecked

/-- The characters a restricted value may hold: ASCII letters and digits, underscore, dot, dash. -/
def restrictedByte (byte : UInt8) : Bool :=
  let c := Char.ofNat byte.toNat
  c.isAlphanum || c = '_' || c = '.' || c = '-'

/-- restricted_value::validate: non-empty, at most 36 bytes, restricted characters only. -/
def restrictedValueValid (value : String) : Bool :=
  !(utf8 value).isEmpty && (utf8 value).length ≤ 36 && (utf8 value).all restrictedByte

structure Scope where
  value : String
  valid : restrictedValueValid value = true

abbrev PartitionKey := BitVec 64

structure PaddedPartitionId where
  value : BitVec 64
  deriving DecidableEq, Repr

structure InvocationUuid where
  value : BitVec 128
  deriving DecidableEq, Repr

structure Seq where
  value : BitVec 64
  deriving DecidableEq, Repr

/-- A lock name is made from components that are not checked. -/
structure LockName where
  serviceName : String
  key : String
  deriving DecidableEq, Repr

inductive LockNameParseError
  | malformed (data : String)
  | empty
  | emptyKey (data : String)
  | emptyServiceName (data : String)
  deriving DecidableEq, Repr

def LockNameParseError.message : LockNameParseError → String
  | .malformed data => "malformed lock name: " ++ data
  | .empty => "lock name cannot be empty"
  | .emptyKey data => "lock name must have a non-empty key: " ++ data
  | .emptyServiceName data => "lock name must have a non-empty service name: " ++ data

/-- Split at the first slash; both segments must be non-empty. -/
def LockName.parse (data : String) : Except LockNameParseError LockName :=
  match data.toList.span (· ≠ '/') with
  | (_, []) => .error (.malformed data)
  | (serviceName, _ :: key) =>
    if serviceName.isEmpty then .error (.emptyServiceName data)
    else if key.isEmpty then .error (.emptyKey data)
    else .ok ⟨String.ofList serviceName, String.ofList key⟩

inductive ProducerId
  | partition (partitionId : BitVec 16)
  | other (name : String)
  /-- The source keeps the u128 as two u64 halves, which convert back without loss. -/
  | producer (id : BitVec 128)
  deriving DecidableEq, Repr

inductive TimerKeyKind
  | invoke (invocationUuid : InvocationUuid)
  | neoInvoke (invocationUuid : InvocationUuid)
  | completeJournalEntry (invocationUuid : InvocationUuid) (journalIndex : BitVec 32)
  | cleanInvocationStatus (invocationUuid : InvocationUuid)
  deriving DecidableEq, Repr

inductive NotificationId
  | completionId (id : BitVec 32)
  | signalIndex (index : BitVec 32)
  | signalName (name : String)
  deriving DecidableEq, Repr

inductive EntryKind
  | unknown
  | invocation
  | stateMutation
  deriving DecidableEq, Repr

def EntryKind.toByte : EntryKind → UInt8
  | .unknown => 0x0
  | .invocation => 0x69
  | .stateMutation => 0x73

def EntryKind.fromRepr (byte : UInt8) : Option EntryKind :=
  if byte = 0x0 then some .unknown
  else if byte = 0x69 then some .invocation
  else if byte = 0x73 then some .stateMutation
  else none

/-- EntryId::new asserts that the kind is known. -/
structure EntryId where
  kind : EntryKind
  remainder : {bytes : List UInt8 // bytes.length = 16}
  known : kind ≠ .unknown

structure VQueueId where
  raw : {bytes : List UInt8 // bytes.length = 25}

structure HasLock where
  held : Bool
  deriving DecidableEq, Repr

/-- Seconds since the Restate epoch; the source stores them plus one in a NonZeroU32. -/
structure RoughTimestamp where
  secs : Nat
  secs_lt : secs < 2 ^ 32 - 1
  deriving DecidableEq

/-- The addition of one saturates. -/
def RoughTimestamp.new (secs : Nat) : RoughTimestamp := ⟨min secs (2 ^ 32 - 2), by omega⟩

namespace KeyCodec

/-- put_uN and get_uN; the get panics on a short buffer. -/
def fixedWidth (width : Nat) : KeyCodec (BitVec (8 * width)) where
  encode value := BigEndian.encode width value.toNat
  serializedLength _ := width
  decode := do
    let bytes ← ByteReader.readBytes .panic width
    pure (BitVec.ofNat (8 * width) (BigEndian.decode bytes))

def u8 : KeyCodec (BitVec 8) := fixedWidth 1

def u32 : KeyCodec (BitVec 32) := fixedWidth 4

def u64 : KeyCodec (BitVec 64) := fixedWidth 8

def u128 : KeyCodec (BitVec 128) := fixedWidth 16

def partitionKey : KeyCodec PartitionKey := u64

def paddedPartitionId : KeyCodec PaddedPartitionId where
  encode id := u64.encode id.value
  serializedLength _ := 8
  decode := PaddedPartitionId.mk <$> u64.decode

def seq : KeyCodec Seq where
  encode seq := u64.encode seq.value
  serializedLength _ := 8
  decode := Seq.mk <$> u64.decode

/-- Unlike the plain integers, a short buffer is a data integrity error here. -/
def invocationUuid : KeyCodec InvocationUuid where
  encode uuid := u128.encode uuid.value
  serializedLength _ := 16
  decode :=
    ByteReader.requireLength (.storage .dataIntegrityError) 16 (InvocationUuid.mk <$> u128.decode)

/-- The error prost's decode_varint gives, as the partition store reports it. -/
def varintError : DecodeError := .storage (.generic "failed to decode Protobuf message: invalid varint")

section Delimited

-- prost's encode_varint, decode_varint and encoded_len_varint
variable [VarintCodec DecodeError]

/-- write_delimited: the length as a varint, then the bytes. -/
def writeDelimited (bytes : List UInt8) : List UInt8 := VarintCodec.encode bytes.length ++ bytes

/-- read_delimited; copy_to_bytes panics on a short buffer. -/
def readDelimited : KeyDecoder (List UInt8) := do
  let len ← VarintCodec.decode
  ByteReader.readBytes .panic len

def bytes : KeyCodec (List UInt8) where
  encode := writeDelimited
  serializedLength value := value.length + VarintCodec.encodedLen value.length
  decode := readDelimited

def byteString : KeyCodec String where
  encode value := writeDelimited (utf8 value)
  serializedLength value := (utf8 value).length + VarintCodec.encodedLen (utf8 value).length
  decode := do utf8Unchecked (← readDelimited)

/-- impl_string_key_codec, for ReString and ServiceName: the varint, then the bytes taken from the
buffer, which panics when fewer are left. -/
def stringKeyCodec : KeyCodec String where
  encode value := writeDelimited (utf8 value)
  serializedLength value := VarintCodec.encodedLen (utf8 value).length + (utf8 value).length
  decode := do
    let len ← VarintCodec.decode
    utf8Unchecked (← ByteReader.readBytes .panic len)

def reString : KeyCodec String := stringKeyCodec

def serviceName : KeyCodec String := stringKeyCodec

/-- The scope is written after the byte s and its length as a u32, or as the byte u alone. -/
def optionScope : KeyCodec (Option Scope) where
  encode
    | some scope => charByte 's' :: (u32.encode (BitVec.ofNat 32 (utf8 scope.value).length) ++
        utf8 scope.value)
    | none => [charByte 'u']
  serializedLength
    | some scope => 1 + 4 + (utf8 scope.value).length
    | none => 1
  decode := do
    let tag ← ByteReader.readByte .panic
    if tag = charByte 's' then
      let scopeLen := (← u32.decode).toNat
      if scopeLen = 0 then throw (.storage (.generic "empty scope"))
      let raw ← utf8Unchecked (← ByteReader.readBytes .panic scopeLen)
      if valid : restrictedValueValid raw = true then pure (some ⟨raw, valid⟩)
      else throw .unchecked
    else if tag = charByte 'u' then pure none
    else throw (.storage (.generic ("unknown scope prefix: " ++ hexByte tag)))

/-- The lock name must be the last field of a key: it is not length-prefixed. -/
def lockName : KeyCodec LockName where
  encode name := utf8 name.serviceName ++ charByte '/' :: utf8 name.key
  serializedLength name := (utf8 name.serviceName).length + 1 + (utf8 name.key).length
  decode := do
    let raw ← utf8Unchecked (← ByteReader.readRest)
    match LockName.parse raw with
    | .ok name => pure name
    | .error e => throw (.storage (.generic e.message))

def producerId : KeyCodec ProducerId where
  encode
    | .partition p => 0 :: paddedPartitionId.encode ⟨p.setWidth 64⟩
    | .other name => 1 :: byteString.encode name
    | .producer id => 2 :: u128.encode id
  serializedLength
    | .partition _ => 1 + 8
    | .other name => 1 + byteString.serializedLength name
    | .producer _ => 1 + 16
  decode := do
    match ← ByteReader.readByte .panic with
    | 0 =>
      let padded ← paddedPartitionId.decode
      -- the conversion to a partition id expects the value to fit in u16
      if padded.value.toNat < 2 ^ 16 then pure (.partition (padded.value.setWidth 16))
      else throw .panic
    | 1 => .other <$> byteString.decode
    | 2 => .producer <$> u128.decode
    | i => throw (.storage (.generic
        ("Unexpected wrong discriminator for SequenceNumberSource: " ++ toString i.toNat)))

end Delimited

def timerKeyKind : KeyCodec TimerKeyKind where
  encode
    | .invoke uuid => 0 :: invocationUuid.encode uuid
    | .completeJournalEntry uuid journalIndex =>
      1 :: (invocationUuid.encode uuid ++ u32.encode journalIndex)
    | .cleanInvocationStatus uuid => 2 :: invocationUuid.encode uuid
    | .neoInvoke uuid => 3 :: invocationUuid.encode uuid
  serializedLength
    | .invoke _ => 1 + 16
    | .neoInvoke _ => 1 + 16
    | .completeJournalEntry _ _ => 1 + (16 + 4)
    | .cleanInvocationStatus _ => 1 + 16
  decode := ByteReader.requireLength (.storage (.generic "TimerKind discriminator byte is missing")) 1
    do
      match ← ByteReader.readByte .panic with
      | 0 => .invoke <$> invocationUuid.decode
      | 1 =>
        let uuid ← invocationUuid.decode
        let journalIndex ← u32.decode
        pure (.completeJournalEntry uuid journalIndex)
      | 2 => .cleanInvocationStatus <$> invocationUuid.decode
      | 3 => .neoInvoke <$> invocationUuid.decode
      | i => throw (.storage (.generic
          ("Unknown discriminator for TimerKind: \x27" ++ toString i.toNat ++ "\x27")))

/-- A signal name takes the rest of the buffer, checked to be UTF-8. -/
def notificationId : KeyCodec NotificationId where
  encode
    | .completionId id => 0 :: u32.encode id
    | .signalIndex index => 1 :: u32.encode index
    | .signalName name => 2 :: utf8 name
  serializedLength
    | .completionId _ => 1 + 4
    | .signalIndex _ => 1 + 4
    | .signalName name => 1 + (utf8 name).length
  decode :=
    ByteReader.requireLength (.storage (.generic "NotificationId discriminator byte is missing")) 1
    do
      match ← ByteReader.readByte .panic with
      | 0 => .completionId <$> u32.decode
      | 1 => .signalIndex <$> u32.decode
      | 2 =>
        let raw ← ByteReader.readRest
        match String.fromUTF8? ⟨raw.toArray⟩ with
        | some name => pure (.signalName name)
        | none => throw (.storage (.generic "invalid utf-8 sequence"))
      | i => throw (.storage (.generic
          ("Unknown discriminator for NotificationId: \x27" ++ toString i.toNat ++ "\x27")))

def entryId : KeyCodec EntryId where
  encode id := id.kind.toByte :: id.remainder.val
  serializedLength _ := 1 + 16
  decode := do
    let kindByte ← ByteReader.readByte .panic
    match EntryKind.fromRepr kindByte with
    | none => throw (.storage (.generic ("unknown entry kind: " ++ toString kindByte.toNat)))
    | some kind =>
      let remainder ← ByteReader.readFixed .panic 16
      -- EntryId::new asserts that the kind is known
      if known : kind ≠ .unknown then pure ⟨kind, remainder, known⟩ else throw .panic

def vQueueId : KeyCodec VQueueId where
  encode id := id.raw.val
  serializedLength _ := 25
  decode := VQueueId.mk <$> ByteReader.readFixed .panic 25

/-- Holding the lock is written as 0, so that keys with the lock sort first. -/
def hasLock : KeyCodec HasLock where
  encode lock := [if lock.held then 0 else 1]
  serializedLength _ := 1
  decode := do
    let raw ← ByteReader.readByte .panic
    pure ⟨raw = 0⟩

/-- Written in milliseconds; read back floored to seconds, clamped to the u32 range. -/
def roughTimestamp : KeyCodec RoughTimestamp where
  encode timestamp := u64.encode (BitVec.ofNat 64 (timestamp.secs * 1000))
  serializedLength _ := 8
  decode := do
    let rawMs := (← u64.decode).toNat
    pure (RoughTimestamp.new (min (rawMs / 1000) (2 ^ 32 - 1)))

theorem roughTimestamp_millis (timestamp : RoughTimestamp) :
    (BitVec.ofNat 64 (timestamp.secs * 1000)).toNat = timestamp.secs * 1000 := by
  have := timestamp.secs_lt
  rw [BitVec.toNat_ofNat]
  omega

end KeyCodec

end Restate
