import Mathlib
import Restate.Storage.TableKey

/-! Round trips of the partition-store keys. A field codec is lawful at a value when it writes
`serializedLength` bytes that its decoder reads back whatever follows; the last field of a key need
only be read back to the end. Each codec is lawful at every value whose encoding is shorter than
2^64 bytes (the varint lengths are u64s), except that a lock name is read back only when its
service name is non-empty and free of slashes and its key is non-empty. Keys of lawful fields
round-trip, so every table key does, and a lock key exactly when its lock name parses. -/

namespace Restate

open ByteReader

namespace KeyCodec

variable {α : Type}

structure LawfulAt (codec : KeyCodec α) (value : α) : Prop where
  length : (codec.encode value).length = codec.serializedLength value
  reads : Reads codec.decode value (codec.encode value)

/-- For the last field of a key, which may read to the end. -/
structure LawfulLastAt (codec : KeyCodec α) (value : α) : Prop where
  length : (codec.encode value).length = codec.serializedLength value
  readsAll : ReadsAll codec.decode value (codec.encode value)

theorem LawfulAt.last {codec : KeyCodec α} {value : α} (lawful : LawfulAt codec value) :
    LawfulLastAt codec value :=
  ⟨lawful.length, lawful.reads.readsAll⟩

theorem fixedWidth_lawful (width : Nat) (value : BitVec (8 * width)) :
    LawfulAt (fixedWidth width) value := by
  refine ⟨BigEndian.length_encode width value.toNat, ?_⟩
  have read := (reads_readBytes DecodeError.panic (BigEndian.encode width value.toNat)).bind_pure
    (f := fun bytes => BitVec.ofNat (8 * width) (BigEndian.decode bytes))
  have pow : 256 ^ width = 2 ^ (8 * width) := by rw [Nat.pow_mul]
  rw [BigEndian.length_encode, BigEndian.decode_encode, pow, Nat.mod_eq_of_lt value.isLt,
    BitVec.ofNat_toNat, BitVec.setWidth_eq] at read
  exact read

theorem u8_lawful (value : BitVec 8) : LawfulAt u8 value := fixedWidth_lawful 1 value

theorem u32_lawful (value : BitVec 32) : LawfulAt u32 value := fixedWidth_lawful 4 value

theorem u64_lawful (value : BitVec 64) : LawfulAt u64 value := fixedWidth_lawful 8 value

theorem u128_lawful (value : BitVec 128) : LawfulAt u128 value := fixedWidth_lawful 16 value

@[simp] theorem length_u32_encode (value : BitVec 32) : (u32.encode value).length = 4 :=
  (u32_lawful value).length

@[simp] theorem length_u64_encode (value : BitVec 64) : (u64.encode value).length = 8 :=
  (u64_lawful value).length

@[simp] theorem length_u128_encode (value : BitVec 128) : (u128.encode value).length = 16 :=
  (u128_lawful value).length

theorem paddedPartitionId_lawful (id : PaddedPartitionId) : LawfulAt paddedPartitionId id :=
  ⟨(u64_lawful id.value).length, (u64_lawful id.value).reads.map⟩

theorem seq_lawful (seq : Seq) : LawfulAt KeyCodec.seq seq :=
  ⟨(u64_lawful seq.value).length, (u64_lawful seq.value).reads.map⟩

theorem invocationUuid_lawful (uuid : InvocationUuid) : LawfulAt invocationUuid uuid := by
  have lawful := u128_lawful uuid.value
  refine ⟨lawful.length, Reads.requireLength ?_ lawful.reads.map⟩
  simp [invocationUuid]

theorem utf8_append (s t : String) : utf8 (s ++ t) = utf8 s ++ utf8 t := by
  simp [utf8, String.toByteArray_append]

theorem fromUTF8_utf8 (value : String) : String.fromUTF8? ⟨(utf8 value).toArray⟩ = some value := by
  simp [utf8, String.fromUTF8?, value.isValidUTF8]
  rfl

theorem reads_utf8Unchecked (value : String) : Reads (utf8Unchecked (utf8 value)) value [] := by
  intro rest
  simp only [utf8Unchecked, fromUTF8_utf8]
  rfl

section Delimited

variable [VarintCodec DecodeError]

theorem length_writeDelimited {bytes : List UInt8} (short : bytes.length < 2 ^ 64) :
    (writeDelimited bytes).length = bytes.length + VarintCodec.encodedLen bytes.length := by
  rw [writeDelimited, List.length_append, VarintCodec.length_encode _ short, Nat.add_comm]

theorem length_le_writeDelimited (bytes : List UInt8) : bytes.length ≤ (writeDelimited bytes).length := by
  simp [writeDelimited]

theorem reads_readDelimited {bytes : List UInt8} (short : bytes.length < 2 ^ 64) :
    Reads readDelimited bytes (writeDelimited bytes) :=
  (VarintCodec.reads_encode _ short).bind (reads_readBytes DecodeError.panic bytes)

theorem bytes_lawful {value : List UInt8} (short : value.length < 2 ^ 64) :
    LawfulAt KeyCodec.bytes value :=
  ⟨length_writeDelimited short, reads_readDelimited short⟩

theorem byteString_lawful {value : String} (short : (utf8 value).length < 2 ^ 64) :
    LawfulAt byteString value := by
  refine ⟨length_writeDelimited short, ?_⟩
  have read := (reads_readDelimited short).bind (reads_utf8Unchecked value)
  rwa [List.append_nil] at read

theorem stringKeyCodec_lawful {value : String} (short : (utf8 value).length < 2 ^ 64) :
    LawfulAt stringKeyCodec value := by
  refine ⟨(length_writeDelimited short).trans (Nat.add_comm _ _), ?_⟩
  have inner : Reads (readBytes DecodeError.panic (utf8 value).length >>= utf8Unchecked) value
      (utf8 value) := by
    simpa using (reads_readBytes DecodeError.panic (utf8 value)).bind (reads_utf8Unchecked value)
  exact (VarintCodec.reads_encode _ short).bind inner

end Delimited

theorem optionScope_lawful (scope : Option Scope) : LawfulAt optionScope scope := by
  cases scope with
  | none =>
    refine ⟨rfl, (reads_readByte _ _).bind_nil ?_⟩
    rw [if_neg (by decide), if_pos rfl]
    exact reads_pure none
  | some scope =>
    obtain ⟨value, valid⟩ := scope
    have bounds : (utf8 value).length ≠ 0 ∧ (utf8 value).length ≤ 36 := by
      simp only [restrictedValueValid, Bool.and_eq_true, Bool.not_eq_true', List.isEmpty_eq_false_iff,
        decide_eq_true_eq] at valid
      exact ⟨by simpa using valid.1.1, valid.1.2⟩
    have len : (BitVec.ofNat 32 (utf8 value).length).toNat = (utf8 value).length := by
      rw [BitVec.toNat_ofNat]
      omega
    refine ⟨by simp [optionScope]; omega, ?_⟩
    refine (reads_readByte _ (charByte 's')).bind ?_
    rw [if_pos rfl]
    refine (u32_lawful _).reads.bind ?_
    simp only [len, if_neg bounds.1]
    refine (reads_readBytes _ (utf8 value)).bind_nil ((reads_utf8Unchecked value).bind_nil ?_)
    rw [dif_pos valid]
    exact reads_pure _

end KeyCodec

/-- The lock names that LockName::parse reads back from their display form. -/
def LockName.Parses (name : LockName) : Prop :=
  name.serviceName ≠ "" ∧ '/' ∉ name.serviceName.toList ∧ name.key ≠ ""

namespace LockName

theorem parses_of_parse {data : String} {name : LockName} (parsed : parse data = .ok name) :
    name.Parses := by
  unfold parse at parsed
  split at parsed
  · cases parsed
  · rename_i serviceName _ key split
    rw [List.span_eq_takeWhile_dropWhile, Prod.mk.injEq] at split
    split at parsed
    · cases parsed
    split at parsed
    · cases parsed
    rename_i nonEmpty nonEmptyKey
    cases parsed
    refine ⟨?_, ?_, ?_⟩
    · simpa [← String.toList_inj] using nonEmpty
    · intro slash
      have := List.mem_takeWhile_imp (split.1 ▸ String.toList_ofList ▸ slash)
      simp at this
    · simpa [← String.toList_inj] using nonEmptyKey

theorem parse_display {name : LockName} (parses : name.Parses) :
    parse (name.serviceName ++ "/" ++ name.key) = .ok name := by
  obtain ⟨nonEmpty, noSlash, nonEmptyKey⟩ := parses
  have before : ∀ c ∈ name.serviceName.toList, decide (c ≠ '/') = true := by
    intro c mem
    have notSlash : c ≠ '/' := fun same => noSlash (same ▸ mem)
    simpa using notSlash
  have split : (name.serviceName ++ "/" ++ name.key).toList.span (· ≠ '/') =
      (name.serviceName.toList, '/' :: name.key.toList) := by
    simp only [String.toList_append, List.span_eq_takeWhile_dropWhile, List.append_assoc]
    rw [List.takeWhile_append_of_pos before, List.dropWhile_append_of_pos before]
    simp
  unfold parse
  rw [split]
  have serviceName : name.serviceName.toList.isEmpty = false := by
    simpa [String.toList_eq_nil_iff] using nonEmpty
  have key : name.key.toList.isEmpty = false := by
    simpa [String.toList_eq_nil_iff] using nonEmptyKey
  simp [serviceName, key, String.ofList_toList]

theorem parse_display_iff (name : LockName) :
    parse (name.serviceName ++ "/" ++ name.key) = .ok name ↔ name.Parses :=
  ⟨parses_of_parse, parse_display⟩

end LockName

namespace KeyCodec

theorem lockName_encode (name : LockName) :
    lockName.encode name = utf8 (name.serviceName ++ "/" ++ name.key) := by
  have slash : utf8 "/" = [charByte '/'] := by decide
  simp [lockName, utf8_append, slash]

theorem length_lockName_encode (name : LockName) :
    (lockName.encode name).length = lockName.serializedLength name := by
  simp [lockName]
  omega

theorem lockName_readsAll_iff (name : LockName) :
    ReadsAll lockName.decode name (lockName.encode name) ↔ name.Parses := by
  rw [← LockName.parse_display_iff, lockName_encode]
  refine (readsAll_readRest_bind_iff).trans ?_
  refine (reads_utf8Unchecked _).readsAll_bind_iff.trans ?_
  cases LockName.parse (name.serviceName ++ "/" ++ name.key) with
  | error e => simp [ReadsAll, StateT.run, throw, throwThe, MonadExceptOf.throw, StateT.lift]
  | ok parsed => simp [ReadsAll, StateT.run, pure, StateT.pure, Except.pure]

theorem producerId_lawful [VarintCodec DecodeError] (id : ProducerId) (short : (producerId.encode id).length < 2 ^ 64) :
    LawfulAt producerId id := by
  cases id with
  | partition partitionId =>
    refine ⟨by simp [producerId, paddedPartitionId], (reads_readByte _ 0).bind ?_⟩
    have fits : (partitionId.setWidth 64).toNat < 2 ^ 16 := by
      have bound := partitionId.isLt
      rw [BitVec.toNat_setWidth]
      omega
    refine (paddedPartitionId_lawful _).reads.bind_nil ?_
    simp only [if_pos fits, BitVec.setWidth_setWidth_of_le _ (by decide : 16 ≤ 64),
      BitVec.setWidth_eq]
    exact reads_pure _
  | other name =>
    have short : (utf8 name).length < 2 ^ 64 := by
      have within := length_le_writeDelimited (utf8 name)
      simp only [producerId, byteString, List.length_cons] at short
      omega
    have lawful := byteString_lawful short
    refine ⟨?_, (reads_readByte _ 1).bind lawful.reads.map⟩
    simp only [producerId, List.length_cons, lawful.length]
    omega
  | producer id =>
    exact ⟨by simp [producerId], (reads_readByte _ 2).bind (u128_lawful id).reads.map⟩

theorem timerKeyKind_lawful (kind : TimerKeyKind) : LawfulAt timerKeyKind kind := by
  refine ⟨?length, Reads.requireLength ?long ?reads⟩
  case length => cases kind <;> simp [timerKeyKind, invocationUuid]
  case long => cases kind <;> simp [timerKeyKind]
  case reads =>
    cases kind with
    | invoke uuid => exact (reads_readByte _ 0).bind (invocationUuid_lawful uuid).reads.map
    | neoInvoke uuid => exact (reads_readByte _ 3).bind (invocationUuid_lawful uuid).reads.map
    | completeJournalEntry uuid journalIndex =>
      refine (reads_readByte _ 1).bind ((invocationUuid_lawful uuid).reads.bind ?_)
      exact (u32_lawful journalIndex).reads.bind_pure
    | cleanInvocationStatus uuid =>
      exact (reads_readByte _ 2).bind (invocationUuid_lawful uuid).reads.map

theorem notificationId_lawfulLast (id : NotificationId) : LawfulLastAt notificationId id := by
  refine ⟨?length, ReadsAll.requireLength ?long ?reads⟩
  case length =>
    cases id <;> simp [notificationId]
    omega
  case long => cases id <;> simp [notificationId]
  case reads =>
    cases id with
    | completionId id => exact ((reads_readByte _ 0).bind (u32_lawful id).reads.map).readsAll
    | signalIndex index => exact ((reads_readByte _ 1).bind (u32_lawful index).reads.map).readsAll
    | signalName name =>
      refine (reads_readByte _ 2).readsAll_bind_iff.mpr (readsAll_readRest_bind_iff.mpr ?_)
      rw [show name.toUTF8.data.toList = utf8 name from rfl, fromUTF8_utf8]
      rfl

theorem fromRepr_toByte (kind : EntryKind) : EntryKind.fromRepr kind.toByte = some kind := by
  cases kind <;> rfl

theorem entryId_lawful (id : EntryId) : LawfulAt entryId id := by
  obtain ⟨kind, remainder, known⟩ := id
  refine ⟨by simp [entryId, remainder.property], (reads_readByte _ kind.toByte).bind ?_⟩
  rw [fromRepr_toByte]
  refine (reads_readFixed _ remainder).bind_nil ?_
  rw [dif_pos known]
  exact reads_pure _

theorem vQueueId_lawful (id : VQueueId) : LawfulAt vQueueId id :=
  ⟨id.raw.property, (reads_readFixed _ id.raw).map⟩

theorem hasLock_lawful (lock : HasLock) : LawfulAt hasLock lock := by
  obtain ⟨held⟩ := lock
  refine ⟨rfl, ?_⟩
  have read := (reads_readByte DecodeError.panic (if held then 0 else 1)).bind_pure
    (f := fun raw => HasLock.mk (raw = 0))
  cases held <;> exact read

theorem roughTimestamp_lawful (timestamp : RoughTimestamp) : LawfulAt roughTimestamp timestamp := by
  obtain ⟨secs, secs_lt⟩ := timestamp
  refine ⟨by simp [roughTimestamp], ?_⟩
  have read := (u64_lawful (BitVec.ofNat 64 (secs * 1000))).reads.bind_pure
    (f := fun raw => RoughTimestamp.new (min (raw.toNat / 1000) (2 ^ 32 - 1)))
  have millis := roughTimestamp_millis ⟨secs, secs_lt⟩
  have floored : RoughTimestamp.new (min (secs * 1000 / 1000) (2 ^ 32 - 1)) = ⟨secs, secs_lt⟩ := by
    simp only [RoughTimestamp.new, RoughTimestamp.mk.injEq]
    omega
  rw [millis, floored] at read
  exact read

end KeyCodec

namespace KeyField

open KeyCodec

/-- A field whose codec is lawful at every value it writes; what it writes is a buffer's worth,
shorter than 2^64 bytes. -/
def Lawful (field : KeyField) : Prop :=
  ∀ value, (field.codec.encode value).length < 2 ^ 64 → field.codec.LawfulAt value

def LawfulLast (field : KeyField) : Prop :=
  ∀ value, (field.codec.encode value).length < 2 ^ 64 → field.codec.LawfulLastAt value

theorem Lawful.last {field : KeyField} (lawful : field.Lawful) : field.LawfulLast :=
  fun value short => (lawful value short).last

/-- Every field but the last is lawful, and the last is lawful as the last. -/
def Sound : List KeyField → Prop
  | [] => True
  | [field] => field.LawfulLast
  | field :: next :: fields => field.Lawful ∧ Sound (next :: fields)

/-- Sound at one key's values. -/
def SoundAt : (fields : List KeyField) → Values fields → Prop
  | [], () => True
  | [field], (value, ()) => field.codec.LawfulLastAt value
  | field :: next :: fields, (value, values) =>
    field.codec.LawfulAt value ∧ SoundAt (next :: fields) values

theorem Sound.soundAt : ∀ {fields : List KeyField} {values : Values fields}, Sound fields →
    (encodeAll fields values).length < 2 ^ 64 → SoundAt fields values
  | [], (), _, _ => trivial
  | [_], (value, ()), lawful, short => lawful value (by simpa [encodeAll] using short)
  | _ :: _ :: _, (value, values), ⟨lawful, sound⟩, short => by
    simp only [encodeAll, List.length_append] at short
    exact ⟨lawful value (by omega), sound.soundAt (by omega)⟩

theorem readsAll_decodeAll_cons_iff {field : KeyField} {fields : List KeyField} {value : field.Value}
    {values : Values fields} (lawful : field.codec.LawfulAt value) :
    ReadsAll (decodeAll (field :: fields)) (value, values)
        (encodeAll (field :: fields) (value, values)) ↔
      ReadsAll (decodeAll fields) values (encodeAll fields values) :=
  lawful.reads.readsAll_bind_iff.trans (readsAll_bind_pure_iff (Prod.mk_right_injective value))

theorem readsAll_decodeAll_single_iff {field : KeyField} {value : field.Value} :
    ReadsAll (decodeAll [field]) (value, ()) (encodeAll [field] (value, ())) ↔
      ReadsAll field.codec.decode value (field.codec.encode value) := by
  simp only [decodeAll, encodeAll, List.append_nil]
  exact readsAll_bind_pure_iff (Prod.mk_left_injective ())

theorem SoundAt.roundTrip : ∀ {fields : List KeyField} {values : Values fields}, SoundAt fields values →
    ReadsAll (decodeAll fields) values (encodeAll fields values) ∧
      (encodeAll fields values).length = lengthAll fields values
  | [], (), _ => ⟨rfl, rfl⟩
  | [_], (_, ()), lawful => by
    refine ⟨readsAll_decodeAll_single_iff.mpr lawful.readsAll, ?_⟩
    simp [encodeAll, lengthAll, lawful.length]
  | _ :: _ :: _, (_, _), ⟨lawful, sound⟩ => by
    obtain ⟨reads, length⟩ := sound.roundTrip
    refine ⟨(readsAll_decodeAll_cons_iff lawful).mpr reads, ?_⟩
    rw [encodeAll, lengthAll, List.length_append, lawful.length, length]

theorem utf8_short [VarintCodec DecodeError] {bytes : List UInt8} (short : (writeDelimited bytes).length < 2 ^ 64) :
    bytes.length < 2 ^ 64 :=
  Nat.lt_of_le_of_lt (length_le_writeDelimited bytes) short

@[simp] theorem partitionKey_lawful : partitionKey.Lawful := fun value _ => u64_lawful value

@[simp] theorem paddedPartitionId_lawful : paddedPartitionId.Lawful :=
  fun id _ => KeyCodec.paddedPartitionId_lawful id

@[simp] theorem u8_lawful : u8.Lawful := fun value _ => KeyCodec.u8_lawful value

@[simp] theorem u32_lawful : u32.Lawful := fun value _ => KeyCodec.u32_lawful value

@[simp] theorem u64_lawful : u64.Lawful := fun value _ => KeyCodec.u64_lawful value

@[simp] theorem bytes_lawful [VarintCodec DecodeError] : bytes.Lawful := fun _ short => KeyCodec.bytes_lawful (utf8_short short)

@[simp] theorem byteString_lawful [VarintCodec DecodeError] : byteString.Lawful :=
  fun _ short => KeyCodec.byteString_lawful (utf8_short short)

@[simp] theorem reString_lawful [VarintCodec DecodeError] : reString.Lawful :=
  fun _ short => stringKeyCodec_lawful (utf8_short short)

@[simp] theorem serviceName_lawful [VarintCodec DecodeError] : serviceName.Lawful :=
  fun _ short => stringKeyCodec_lawful (utf8_short short)

@[simp] theorem invocationUuid_lawful : invocationUuid.Lawful :=
  fun uuid _ => KeyCodec.invocationUuid_lawful uuid

@[simp] theorem optionScope_lawful : optionScope.Lawful :=
  fun scope _ => KeyCodec.optionScope_lawful scope

@[simp] theorem producerId_lawful [VarintCodec DecodeError] : producerId.Lawful := KeyCodec.producerId_lawful

@[simp] theorem timerKeyKind_lawful : timerKeyKind.Lawful :=
  fun kind _ => KeyCodec.timerKeyKind_lawful kind

@[simp] theorem notificationId_lawfulLast : notificationId.LawfulLast :=
  fun id _ => KeyCodec.notificationId_lawfulLast id

@[simp] theorem vQueueId_lawful : vQueueId.Lawful := fun id _ => KeyCodec.vQueueId_lawful id

@[simp] theorem seq_lawful : seq.Lawful := fun seq _ => KeyCodec.seq_lawful seq

@[simp] theorem entryId_lawful : entryId.Lawful := fun id _ => KeyCodec.entryId_lawful id

@[simp] theorem hasLock_lawful : hasLock.Lawful := fun lock _ => KeyCodec.hasLock_lawful lock

@[simp] theorem roughTimestamp_lawful : roughTimestamp.Lawful :=
  fun timestamp _ => KeyCodec.roughTimestamp_lawful timestamp

@[simp] theorem lawfulLast_of_lawful {field : KeyField} (lawful : field.Lawful) : field.LawfulLast :=
  lawful.last

end KeyField

namespace KeyKind

theorem fromBytes_asBytes (kind : KeyKind) :
    fromBytes (charByte kind.asBytes.1, charByte kind.asBytes.2) = some kind := by
  cases kind <;> rfl

theorem reads_deserialize (kind : KeyKind) : ByteReader.Reads deserialize kind kind.serialize := by
  intro rest
  show deserialize (charByte kind.asBytes.1 :: charByte kind.asBytes.2 :: rest) = _
  simp only [deserialize, fromBytes_asBytes]

end KeyKind

namespace TableKey

open KeyField

theorem readsAll_deserializeFrom_iff (key : TableKey) (values : Values key.fields) :
    ReadsAll key.deserializeFrom values (key.serializeTo values) ↔
      ReadsAll (decodeAll key.fields) values (encodeAll key.fields values) := by
  refine (KeyKind.reads_deserialize key.kind).readsAll_bind_iff.trans ?_
  rw [if_neg (not_not.mpr rfl)]

theorem length_serializeTo (key : TableKey) (values : Values key.fields) :
    (key.serializeTo values).length = KeyKind.serializedLength + (encodeAll key.fields values).length := by
  simp [serializeTo, KeyKind.serialize, KeyKind.serializedLength]
  omega

theorem SoundAt.roundTrip {key : TableKey} {values : Values key.fields}
    (sound : SoundAt key.fields values) :
    (key.serializeTo values).length = key.serializedLength values ∧
      key.kind.serialize <+: key.serializeTo values ∧
      ReadsAll key.deserializeFrom values (key.serializeTo values) := by
  obtain ⟨reads, length⟩ := sound.roundTrip
  refine ⟨?_, List.prefix_append _ _, (readsAll_deserializeFrom_iff key values).mpr reads⟩
  rw [length_serializeTo, length, serializedLength]

end TableKey

theorem allTableKeys_sound [VarintCodec DecodeError] :
    ∀ key ∈ allTableKeys, key.kind ≠ .lock → KeyField.Sound key.fields := by
  simp [allTableKeys, KeyField.Sound, promiseKey, scopedPromiseKey, partitionStateMachineKey,
    deduplicationKey, invocationStatusKey, lockKey, inputPayloadKey, entryStatusKey, metaKey,
    activeKey, inboxStageKey, runningKey, suspendedKey, pausedKey, finishedKey, stageKey,
    serviceStatusKey, journalKey, stateKey, scopedStateKey, journalV2Key,
    journalCompletionIdToCommandIndexKey, journalNotificationIdToNotificationIndexKey,
    journalEventKey, timersKey, outboxKey, inboxKey]

theorem length_lockKey_serializeTo (partitionKey : PartitionKey) (scope : Option Scope)
    (name : LockName) :
    (lockKey.serializeTo (partitionKey, scope, name, ())).length =
      lockKey.serializedLength (partitionKey, scope, name, ()) := by
  have keyLength : (KeyField.partitionKey.codec.encode partitionKey).length =
      KeyField.partitionKey.codec.serializedLength partitionKey :=
    (KeyCodec.u64_lawful partitionKey).length
  have scopeLength : (KeyField.optionScope.codec.encode scope).length =
      KeyField.optionScope.codec.serializedLength scope :=
    (KeyCodec.optionScope_lawful scope).length
  have nameLength : (KeyField.lockName.codec.encode name).length =
      KeyField.lockName.codec.serializedLength name :=
    KeyCodec.length_lockName_encode name
  refine (TableKey.length_serializeTo lockKey _).trans ?_
  simp [TableKey.serializedLength, lockKey, KeyField.encodeAll, KeyField.lengthAll, keyLength,
    scopeLength, nameLength]

theorem lockKey_readsAll_iff (partitionKey : PartitionKey) (scope : Option Scope) (name : LockName) :
    ReadsAll lockKey.deserializeFrom (partitionKey, scope, name, ())
        (lockKey.serializeTo (partitionKey, scope, name, ())) ↔ name.Parses := by
  refine (TableKey.readsAll_deserializeFrom_iff lockKey _).trans ?_
  refine (KeyField.readsAll_decodeAll_cons_iff (KeyCodec.u64_lawful partitionKey)).trans ?_
  refine (KeyField.readsAll_decodeAll_cons_iff (KeyCodec.optionScope_lawful scope)).trans ?_
  exact KeyField.readsAll_decodeAll_single_iff.trans (KeyCodec.lockName_readsAll_iff name)

theorem table_keys_round_trip [VarintCodec DecodeError] :
    (∀ kind : KeyKind,
        KeyKind.fromBytes (charByte kind.asBytes.1, charByte kind.asBytes.2) = some kind) ∧
      (∀ key ∈ allTableKeys, key.kind ≠ .lock → ∀ values : KeyField.Values key.fields,
        (key.serializeTo values).length < 2 ^ 64 →
          (key.serializeTo values).length = key.serializedLength values ∧
            key.kind.serialize <+: key.serializeTo values ∧
            ReadsAll key.deserializeFrom values (key.serializeTo values)) ∧
      (∀ (partitionKey : PartitionKey) (scope : Option Scope) (name : LockName),
        let values : KeyField.Values lockKey.fields := (partitionKey, scope, name, ())
        (lockKey.serializeTo values).length = lockKey.serializedLength values ∧
          lockKey.kind.serialize <+: lockKey.serializeTo values ∧
          (ReadsAll lockKey.deserializeFrom values (lockKey.serializeTo values) ↔ name.Parses)) := by
  refine ⟨KeyKind.fromBytes_asBytes, ?_, ?_⟩
  · intro key mem notLock values short
    rw [TableKey.length_serializeTo] at short
    exact TableKey.SoundAt.roundTrip ((allTableKeys_sound key mem notLock).soundAt (by omega))
  · intro partitionKey scope name
    exact ⟨length_lockKey_serializeTo partitionKey scope name, List.prefix_append _ _,
      lockKey_readsAll_iff partitionKey scope name⟩

end Restate
