import Restate.Storage.KeyRoundTrip

/-! Prefix scans over the partition-store keys. A scan takes a prefix builder with its first fields
set and reads every key whose bytes start with the builder's bytes. Where every set field is written
so that no encoding is a proper prefix of another (fixed widths, varint lengths, tags), the bytes
of the builder are a prefix of a key's bytes exactly when the key's first fields are the builder's.
A lock name and a signal name are written without a length, so a builder that sets one also
matches the keys whose name extends it. -/

namespace Restate

open ByteReader


namespace KeyField

/-- The prefix builder with the first `count` fields of a key set and the rest unset. -/
def firstFields : (fields : List KeyField) → Nat → Values fields → Builder fields
  | [], _, () => ()
  | _ :: fields, 0, _ => (none, emptyBuilder fields)
  | _ :: fields, count + 1, (value, values) => (some value, firstFields fields count values)

/-- The fields a builder of `count` set fields writes are lawful. -/
def SetLawful (fields : List KeyField) (count : Nat) : Prop :=
  ∀ field ∈ fields.take count, field.Lawful

theorem SetLawful.cons {field : KeyField} {fields : List KeyField} {count : Nat}
    (setLawful : SetLawful (field :: fields) (count + 1)) : field.Lawful ∧ SetLawful fields count := by
  simp only [SetLawful, List.take_succ_cons, List.forall_mem_cons] at setLawful
  exact setLawful

/-- A write of the value is told apart from the write of any other value of the field, whatever
follows each: where the two byte strings agree, the values and what follows them agree. -/
def SplitsAt (field : KeyField) (value : field.Value) : Prop :=
  ∀ (other : field.Value) (rest rest' : List UInt8), (field.codec.encode other).length < 2 ^ 64 →
    field.codec.encode value ++ rest = field.codec.encode other ++ rest' → value = other ∧ rest = rest'

theorem Lawful.splitsAt {field : KeyField} (lawful : field.Lawful) {value : field.Value}
    (short : (field.codec.encode value).length < 2 ^ 64) : field.SplitsAt value := by
  intro other rest rest' shortOther same
  obtain ⟨equal, -, rests⟩ := (lawful value short).reads.unique (lawful other shortOther).reads same
  exact ⟨equal, rests⟩

/-- Each value a builder of `count` set fields writes splits its field. -/
def SetSplits : (fields : List KeyField) → Nat → Values fields → Prop
  | [], _, () => True
  | _ :: _, 0, _ => True
  | field :: fields, count + 1, (value, values) => field.SplitsAt value ∧ SetSplits fields count values

theorem SetLawful.setSplits : ∀ {fields : List KeyField} {count : Nat} {values : Values fields},
    SetLawful fields count → (encodePrefix fields (firstFields fields count values)).length < 2 ^ 64 →
    SetSplits fields count values
  | [], _, (), _, _ => trivial
  | _ :: _, 0, _, _, _ => trivial
  | _ :: _, _ + 1, (_, _), setLawful, short => by
    obtain ⟨lawful, setLawful⟩ := setLawful.cons
    simp only [encodePrefix, firstFields, List.length_append] at short
    exact ⟨lawful.splitsAt (by omega), setLawful.setSplits (by omega)⟩

theorem encodePrefix_prefix_iff : ∀ {fields : List KeyField} {count : Nat} {complete values : Values fields},
    SetSplits fields count values → (encodeAll fields complete).length < 2 ^ 64 →
    (encodePrefix fields (firstFields fields count values) <+: encodeAll fields complete ↔
      firstFields fields count complete = firstFields fields count values)
  | [], _, (), (), _, _ => ⟨fun _ => rfl, fun _ => List.nil_prefix⟩
  | _ :: _, 0, _, _, _, _ => ⟨fun _ => rfl, fun _ => List.nil_prefix⟩
  | _ :: _, _ + 1, (complete, completes), (value, values), ⟨splits, setSplits⟩, short => by
    simp only [encodeAll, encodePrefix, firstFields, List.length_append] at short ⊢
    have rest := @encodePrefix_prefix_iff _ _ completes values setSplits (by omega)
    constructor
    · rintro ⟨suffix, same⟩
      rw [List.append_assoc] at same
      obtain ⟨rfl, restSame⟩ := splits complete _ _ (by omega) same
      rw [rest.mp ⟨suffix, restSame⟩]
    · intro same
      obtain ⟨first, restSame⟩ := Prod.mk.inj same
      cases Option.some.inj first
      exact List.prefix_append_right_inj _ |>.mpr (rest.mpr restSame)

theorem setLawful_of_lawful {fields : List KeyField} (lawful : ∀ field ∈ fields, field.Lawful)
    (count : Nat) : SetLawful fields count :=
  fun field mem => lawful field (List.mem_of_mem_take mem)

theorem setLawful_of_dropLast {fields : List KeyField} (lawful : ∀ field ∈ fields.dropLast, field.Lawful)
    {count : Nat} (unset : count < fields.length) : SetLawful fields count := by
  intro field mem
  have before : fields.take count <+: fields.dropLast := by
    rw [List.dropLast_eq_take]
    exact List.take_prefix_take_left (by omega)
  exact lawful field (before.subset mem)

theorem notificationId_splitsAt {id : NotificationId} (named : ∀ name, id ≠ .signalName name) :
    notificationId.SplitsAt id := by
  intro other rest rest' _ same
  simp only [notificationId] at same
  have u32Splits : ∀ {index index' : BitVec 32} {rest rest' : List UInt8},
      KeyCodec.u32.encode index ++ rest = KeyCodec.u32.encode index' ++ rest' →
        index = index' ∧ rest = rest' := fun same => by
    obtain ⟨equal, -, rests⟩ := (KeyCodec.u32_lawful _).reads.unique (KeyCodec.u32_lawful _).reads same
    exact ⟨equal, rests⟩
  -- the tag byte tells the variants apart, and the u32 after it is read back
  cases id with
  | signalName name => exact absurd rfl (named name)
  | completionId index =>
    cases other with
    | completionId index' =>
      simp only [KeyCodec.notificationId, List.cons_append, List.cons.injEq, true_and] at same
      exact (u32Splits same).imp (congrArg _) id
    | signalIndex _ => simp [KeyCodec.notificationId] at same
    | signalName _ => simp [KeyCodec.notificationId] at same
  | signalIndex index =>
    cases other with
    | signalIndex index' =>
      simp only [KeyCodec.notificationId, List.cons_append, List.cons.injEq, true_and] at same
      exact (u32Splits same).imp (congrArg _) id
    | completionId _ => simp [KeyCodec.notificationId] at same
    | signalName _ => simp [KeyCodec.notificationId] at same

end KeyField

namespace TableKey

open KeyField

theorem serializePrefix_prefix_iff {key : TableKey} {count : Nat} {complete values : Values key.fields}
    (setSplits : SetSplits key.fields count values) (short : (key.serializeTo complete).length < 2 ^ 64) :
    key.serializePrefix (firstFields key.fields count values) <+: key.serializeTo complete ↔
      firstFields key.fields count complete = firstFields key.fields count values := by
  simp only [serializePrefix, serializeTo, List.length_append] at short ⊢
  rw [List.prefix_append_right_inj]
  exact encodePrefix_prefix_iff setSplits (by omega)

end TableKey

theorem allTableKeys_dropLast_lawful [VarintCodec DecodeError] : ∀ key ∈ allTableKeys, ∀ field ∈ key.fields.dropLast, field.Lawful := by
  simp [allTableKeys, promiseKey, scopedPromiseKey, partitionStateMachineKey,
    deduplicationKey, invocationStatusKey, lockKey, inputPayloadKey, entryStatusKey, metaKey,
    activeKey, inboxStageKey, runningKey, suspendedKey, pausedKey, finishedKey, stageKey,
    serviceStatusKey, journalKey, stateKey, scopedStateKey, journalV2Key,
    journalCompletionIdToCommandIndexKey, journalNotificationIdToNotificationIndexKey,
    journalEventKey, timersKey, outboxKey, inboxKey]

theorem allTableKeys_lawful [VarintCodec DecodeError] : ∀ key ∈ allTableKeys, key.kind ≠ .lock →
    key.kind ≠ .journalV2NotificationIdToNotificationIndex → ∀ field ∈ key.fields, field.Lawful := by
  simp [allTableKeys, promiseKey, scopedPromiseKey, partitionStateMachineKey,
    deduplicationKey, invocationStatusKey, lockKey, inputPayloadKey, entryStatusKey, metaKey,
    activeKey, inboxStageKey, runningKey, suspendedKey, pausedKey, finishedKey, stageKey,
    serviceStatusKey, journalKey, stateKey, scopedStateKey, journalV2Key,
    journalCompletionIdToCommandIndexKey, journalNotificationIdToNotificationIndexKey,
    journalEventKey, timersKey, outboxKey, inboxKey]

theorem notificationIndexKey_setSplits {count : Nat} {partitionKey : PartitionKey} {uuid : InvocationUuid}
    {id : NotificationId} (named : ∀ name, id ≠ .signalName name) :
    KeyField.SetSplits journalNotificationIdToNotificationIndexKey.fields count (partitionKey, uuid, id, ()) := by
  have keyShort : (KeyField.partitionKey.codec.encode partitionKey).length < 2 ^ 64 := by
    rw [show KeyField.partitionKey.codec.encode partitionKey = KeyCodec.u64.encode partitionKey from rfl,
      (KeyCodec.u64_lawful partitionKey).length]
    show 8 < 2 ^ 64
    decide
  have uuidShort : (KeyField.invocationUuid.codec.encode uuid).length < 2 ^ 64 := by
    rw [show KeyField.invocationUuid.codec.encode uuid = KeyCodec.invocationUuid.encode uuid from rfl,
      (KeyCodec.invocationUuid_lawful uuid).length]
    show 16 < 2 ^ 64
    decide
  have keySplits := KeyField.partitionKey_lawful.splitsAt keyShort
  have uuidSplits := KeyField.invocationUuid_lawful.splitsAt uuidShort
  match count with
  | 0 => trivial
  | 1 => exact ⟨keySplits, trivial⟩
  | 2 => exact ⟨keySplits, uuidSplits, trivial⟩
  | _ + 3 => exact ⟨keySplits, uuidSplits, KeyField.notificationId_splitsAt named, trivial⟩

theorem prefix_scans_match [VarintCodec DecodeError] :
    (∀ key ∈ allTableKeys, ∀ (count : Nat) (complete values : KeyField.Values key.fields),
      (key.kind = .lock ∨ key.kind = .journalV2NotificationIdToNotificationIndex →
        count < key.fields.length) →
      (key.serializeTo complete).length < 2 ^ 64 →
      (key.serializePrefix (KeyField.firstFields key.fields count values)).length < 2 ^ 64 →
      (key.serializePrefix (KeyField.firstFields key.fields count values) <+:
          key.serializeTo complete ↔
        KeyField.firstFields key.fields count complete =
          KeyField.firstFields key.fields count values)) ∧
    ∀ (count : Nat) (partitionKey : PartitionKey) (uuid : InvocationUuid) (id : NotificationId)
      (complete : KeyField.Values journalNotificationIdToNotificationIndexKey.fields),
      (∀ name, id ≠ .signalName name) →
      (journalNotificationIdToNotificationIndexKey.serializeTo complete).length < 2 ^ 64 →
      (journalNotificationIdToNotificationIndexKey.serializePrefix
          (KeyField.firstFields journalNotificationIdToNotificationIndexKey.fields count
            (partitionKey, uuid, id, ())) <+:
          journalNotificationIdToNotificationIndexKey.serializeTo complete ↔
        KeyField.firstFields journalNotificationIdToNotificationIndexKey.fields count complete =
          KeyField.firstFields journalNotificationIdToNotificationIndexKey.fields count
            (partitionKey, uuid, id, ())) := by
  refine ⟨?_, fun count partitionKey uuid id complete named short =>
    TableKey.serializePrefix_prefix_iff (notificationIndexKey_setSplits named) short⟩
  intro key mem count complete values undelimited short shortPrefix
  refine TableKey.serializePrefix_prefix_iff ?_ short
  simp only [TableKey.serializePrefix, List.length_append] at shortPrefix
  refine KeyField.SetLawful.setSplits ?_ (by omega)
  -- a builder that sets the last field of a key needs that field lawful too
  by_cases unset : count < key.fields.length
  · exact KeyField.setLawful_of_dropLast (allTableKeys_dropLast_lawful key mem) unset
  · have delimited := mt undelimited unset
    simp only [not_or] at delimited
    exact KeyField.setLawful_of_lawful (allTableKeys_lawful key mem delimited.1 delimited.2) count

/-- The base-128 varints of protobuf, to run the scans on. -/
instance leb128Varint : VarintCodec DecodeError := Varint.leb128 KeyCodec.varintError

/-- An inbox scan by service finds the keys of its service and no other; a scan of the notification
index by completion id finds that completion and no signal. -/
theorem inboxScan_by_service :
    (inboxKey.serializePrefix (KeyField.firstFields inboxKey.fields 2
        ((7 : PartitionKey), "Counter", "bob", (0 : BitVec 64), ())) <+:
        inboxKey.serializeTo ((7 : PartitionKey), "Counter", "alice", (3 : BitVec 64), ()) ↔
      KeyField.firstFields inboxKey.fields 2
          ((7 : PartitionKey), "Counter", "alice", (3 : BitVec 64), ()) =
        KeyField.firstFields inboxKey.fields 2
          ((7 : PartitionKey), "Counter", "bob", (0 : BitVec 64), ())) ∧
    (journalNotificationIdToNotificationIndexKey.serializePrefix
        (KeyField.firstFields journalNotificationIdToNotificationIndexKey.fields 3
          ((7 : PartitionKey), ⟨5⟩, .completionId 1, ())) <+:
        journalNotificationIdToNotificationIndexKey.serializeTo
          ((7 : PartitionKey), ⟨5⟩, .signalName "ab", ()) ↔
      KeyField.firstFields journalNotificationIdToNotificationIndexKey.fields 3
          ((7 : PartitionKey), ⟨5⟩, .signalName "ab", ()) =
        KeyField.firstFields journalNotificationIdToNotificationIndexKey.fields 3
          ((7 : PartitionKey), ⟨5⟩, .completionId 1, ())) :=
  ⟨prefix_scans_match.1 inboxKey (by simp [allTableKeys]) 2 _ _ (by decide) (by decide) (by decide),
    prefix_scans_match.2 3 (7 : PartitionKey) ⟨5⟩ (.completionId 1) _ (fun _ => by simp) (by decide)⟩

/-- A builder with the lock name Counter/a set matches the lock Counter/ab. -/
theorem lockNamePrefix_overmatches :
    lockKey.serializePrefix (KeyField.firstFields lockKey.fields 3
        ((0 : PartitionKey), none, ⟨"Counter", "a"⟩, ())) <+:
        lockKey.serializeTo ((0 : PartitionKey), none, ⟨"Counter", "ab"⟩, ()) ∧
      KeyField.firstFields lockKey.fields 3 ((0 : PartitionKey), none, ⟨"Counter", "ab"⟩, ()) ≠
        KeyField.firstFields lockKey.fields 3 ((0 : PartitionKey), none, ⟨"Counter", "a"⟩, ()) := by
  refine ⟨⟨[charByte 'b'], rfl⟩, fun same => ?_⟩
  obtain ⟨-, same⟩ := Prod.mk.inj same
  obtain ⟨-, same⟩ := Prod.mk.inj same
  obtain ⟨same, -⟩ := Prod.mk.inj same
  have keys : ("ab" : String) = "a" := congrArg LockName.key (Option.some.inj same)
  exact absurd keys (by decide)

end Restate
