import Restate.Storage.KeyCodec

/-! The table keys of the partition store. The define_table_key! macro of keys.rs takes a key kind
and a list of typed fields; it makes the key, written as the kind's two bytes followed by each
field in turn, and a prefix builder in which each field is optional and which is written up to its
first unset field, for prefix scans. Decoding checks the kind and reads the fields in order. The
model states the macro once over a list of fields, and each table key as its instance. -/

namespace Restate

variable [VarintCodec DecodeError]

/-- A field of a table key: its type and that type's codec. -/
structure KeyField where
  Value : Type
  codec : KeyCodec Value

namespace KeyField

/-- The values of a list of fields: a key. -/
def Values : List KeyField → Type
  | [] => Unit
  | field :: fields => field.Value × Values fields

/-- The prefix builder's fields, each optional. -/
def Builder : List KeyField → Type
  | [] => Unit
  | field :: fields => Option field.Value × Builder fields

def encodeAll : (fields : List KeyField) → Values fields → List UInt8
  | [], () => []
  | field :: fields, (value, values) => field.codec.encode value ++ encodeAll fields values

def lengthAll : (fields : List KeyField) → Values fields → Nat
  | [], () => 0
  | field :: fields, (value, values) => field.codec.serializedLength value + lengthAll fields values

def decodeAll : (fields : List KeyField) → KeyDecoder (Values fields)
  | [] => pure ()
  | field :: fields => do
    let value ← field.codec.decode
    let values ← decodeAll fields
    pure (value, values)

/-- The builder is written up to its first unset field, since this is a prefix scan. -/
def encodePrefix : (fields : List KeyField) → Builder fields → List UInt8
  | [], () => []
  | field :: fields, (some value, builder) => field.codec.encode value ++ encodePrefix fields builder
  | _ :: _, (none, _) => []

def prefixLength : (fields : List KeyField) → Builder fields → Nat
  | [], () => 0
  | field :: fields, (some value, builder) =>
    field.codec.serializedLength value + prefixLength fields builder
  | _ :: _, (none, _) => 0

/-- builder(): every field unset. -/
def emptyBuilder : (fields : List KeyField) → Builder fields
  | [] => ()
  | _ :: fields => (none, emptyBuilder fields)

/-- into_builder: every field set. -/
def intoBuilder : (fields : List KeyField) → Values fields → Builder fields
  | [], () => ()
  | _ :: fields, (value, values) => (some value, intoBuilder fields values)

end KeyField

/-- A define_table_key! instance: the key kind and the fields in order. -/
structure TableKey where
  kind : KeyKind
  fields : List KeyField

namespace TableKey

def serializeTo (key : TableKey) (value : KeyField.Values key.fields) : List UInt8 :=
  key.kind.serialize ++ KeyField.encodeAll key.fields value

def serializedLength (key : TableKey) (value : KeyField.Values key.fields) : Nat :=
  KeyKind.serializedLength + KeyField.lengthAll key.fields value

def deserializeFrom (key : TableKey) : KeyDecoder (KeyField.Values key.fields) := do
  let kind ← KeyKind.deserialize
  if kind ≠ key.kind then
    throw (.storage (.generic ("supported key kind \x27" ++ key.kind.name ++
      "\x27 but found key kind \x27" ++ kind.name ++ "\x27")))
  KeyField.decodeAll key.fields

/-- The prefix builder's serialize. -/
def serializePrefix (key : TableKey) (builder : KeyField.Builder key.fields) : List UInt8 :=
  key.kind.serialize ++ KeyField.encodePrefix key.fields builder

def prefixLength (key : TableKey) (builder : KeyField.Builder key.fields) : Nat :=
  KeyKind.serializedLength + KeyField.prefixLength key.fields builder

end TableKey

namespace KeyField

def partitionKey : KeyField := ⟨_, KeyCodec.partitionKey⟩
def paddedPartitionId : KeyField := ⟨_, KeyCodec.paddedPartitionId⟩
def u8 : KeyField := ⟨_, KeyCodec.u8⟩
def u32 : KeyField := ⟨_, KeyCodec.u32⟩
def u64 : KeyField := ⟨_, KeyCodec.u64⟩
def bytes : KeyField := ⟨_, KeyCodec.bytes⟩
def byteString : KeyField := ⟨_, KeyCodec.byteString⟩
def reString : KeyField := ⟨_, KeyCodec.reString⟩
def serviceName : KeyField := ⟨_, KeyCodec.serviceName⟩
def invocationUuid : KeyField := ⟨_, KeyCodec.invocationUuid⟩
def optionScope : KeyField := ⟨_, KeyCodec.optionScope⟩
def lockName : KeyField := ⟨_, KeyCodec.lockName⟩
def producerId : KeyField := ⟨_, KeyCodec.producerId⟩
def timerKeyKind : KeyField := ⟨_, KeyCodec.timerKeyKind⟩
def notificationId : KeyField := ⟨_, KeyCodec.notificationId⟩
def vQueueId : KeyField := ⟨_, KeyCodec.vQueueId⟩
def seq : KeyField := ⟨_, KeyCodec.seq⟩
def entryId : KeyField := ⟨_, KeyCodec.entryId⟩
def hasLock : KeyField := ⟨_, KeyCodec.hasLock⟩
def roughTimestamp : KeyField := ⟨_, KeyCodec.roughTimestamp⟩

end KeyField

/-! The define_table_key! instances, with their fields' names from the source. -/

/-- partition_key, service_name, service_key, key. -/
def promiseKey : TableKey :=
  ⟨.promise, [.partitionKey, .byteString, .bytes, .byteString]⟩

/-- partition_key, scope, service_name, service_key, key. -/
def scopedPromiseKey : TableKey :=
  ⟨.scopedPromise, [.partitionKey, .optionScope, .serviceName, .reString, .reString]⟩

/-- partition_id, state_id. -/
def partitionStateMachineKey : TableKey := ⟨.fsm, [.paddedPartitionId, .u64]⟩

/-- partition_id, producer_id. -/
def deduplicationKey : TableKey := ⟨.deduplication, [.paddedPartitionId, .producerId]⟩

/-- partition_key, invocation_uuid. -/
def invocationStatusKey : TableKey := ⟨.invocationStatus, [.partitionKey, .invocationUuid]⟩

/-- partition_key, optional_scope, lock_name. -/
def lockKey : TableKey := ⟨.lock, [.partitionKey, .optionScope, .lockName]⟩

/-- qid, seq, id. -/
def inputPayloadKey : TableKey := ⟨.vQueueInput, [.vQueueId, .seq, .entryId]⟩

/-- partition_key, id. -/
def entryStatusKey : TableKey := ⟨.vQueueEntryStatus, [.partitionKey, .entryId]⟩

def metaKey : TableKey := ⟨.vQueueMeta, [.vQueueId]⟩

def activeKey : TableKey := ⟨.vQueueActive, [.vQueueId]⟩

/-- define_stage_keys!: qid, has_lock, run_at, seq, entry_id under the stage's kind. -/
def stageKey (kind : KeyKind) : TableKey :=
  ⟨kind, [.vQueueId, .hasLock, .roughTimestamp, .seq, .entryId]⟩

def inboxStageKey : TableKey := stageKey .vQueueInboxStage
def runningKey : TableKey := stageKey .vQueueRunningStage
def suspendedKey : TableKey := stageKey .vQueueSuspendedStage
def pausedKey : TableKey := stageKey .vQueuePausedStage
def finishedKey : TableKey := stageKey .vQueueFinishedStage

/-- partition_key, service_name, service_key. -/
def serviceStatusKey : TableKey := ⟨.serviceStatus, [.partitionKey, .byteString, .byteString]⟩

/-- partition_key, invocation_uuid, journal_index. -/
def journalKey : TableKey := ⟨.journal, [.partitionKey, .invocationUuid, .u32]⟩

/-- partition_key, service_name, service_key, state_key. -/
def stateKey : TableKey := ⟨.state, [.partitionKey, .byteString, .byteString, .bytes]⟩

/-- partition_key, scope, service_name, service_key, state_key. -/
def scopedStateKey : TableKey :=
  ⟨.scopedState, [.partitionKey, .optionScope, .serviceName, .reString, .bytes]⟩

/-- partition_key, invocation_uuid, journal_index. -/
def journalV2Key : TableKey := ⟨.journalV2, [.partitionKey, .invocationUuid, .u32]⟩

/-- partition_key, invocation_uuid, completion_id. -/
def journalCompletionIdToCommandIndexKey : TableKey :=
  ⟨.journalV2CompletionIdToCommandIndex, [.partitionKey, .invocationUuid, .u32]⟩

/-- partition_key, invocation_uuid, notification_id. -/
def journalNotificationIdToNotificationIndexKey : TableKey :=
  ⟨.journalV2NotificationIdToNotificationIndex, [.partitionKey, .invocationUuid, .notificationId]⟩

/-- partition_key, invocation_uuid, event_type, timestamp, lsn. -/
def journalEventKey : TableKey :=
  ⟨.journalEvent, [.partitionKey, .invocationUuid, .u8, .u64, .u64]⟩

/-- partition_id, timestamp, kind. -/
def timersKey : TableKey := ⟨.timers, [.paddedPartitionId, .u64, .timerKeyKind]⟩

/-- partition_id, message_index. -/
def outboxKey : TableKey := ⟨.outbox, [.paddedPartitionId, .u64]⟩

/-- partition_key, service_name, service_key, sequence_number. -/
def inboxKey : TableKey := ⟨.inbox, [.partitionKey, .byteString, .byteString, .u64]⟩

def allTableKeys : List TableKey :=
  [promiseKey, scopedPromiseKey, partitionStateMachineKey, deduplicationKey, invocationStatusKey,
    lockKey, inputPayloadKey, entryStatusKey, metaKey, activeKey, inboxStageKey, runningKey,
    suspendedKey, pausedKey, finishedKey, serviceStatusKey, journalKey, stateKey, scopedStateKey,
    journalV2Key, journalCompletionIdToCommandIndexKey, journalNotificationIdToNotificationIndexKey,
    journalEventKey, timersKey, outboxKey, inboxKey]

end Restate
