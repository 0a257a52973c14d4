import Restate.Storage.KeyRoundTrip
import Restate.Lib.LexCompare

/-! The order of vqueue entry keys. The scheduler keeps entries in memory under EntryKey's
hand-written Ord (entries holding a lock first, then by run_at, seq and entry_id), while the
partition store iterates the stage keys of a vqueue in the byte order of their KeyEncode
encodings, in which the lock flag is inverted (0 for held) and run_at is written in milliseconds.
Every field is written at a fixed width, so the bytes compare field by field, and each field's
bytes compare as the field: the two orders agree on every pair of keys. -/

namespace Restate

/-- The derived Ord of a fieldless enum with explicit discriminants orders by the discriminants. -/
instance : Ord EntryKind := ⟨fun a b => compare a.toByte b.toByte⟩

/-- Derived: the kind, then the remainder bytes. -/
instance : Ord EntryId := ⟨fun a b => (compare a.kind b.kind).then (compare a.remainder.val b.remainder.val)⟩

/-- Derived on the NonZeroU32 that holds the seconds plus one. -/
instance : Ord RoughTimestamp := ⟨fun a b => compare (a.secs + 1) (b.secs + 1)⟩

/-- Derived on the u64. -/
instance : Ord Seq := ⟨fun a b => compare a.value.toNat b.value.toNat⟩

/-- A vqueue entry as the scheduler and the stage tables key it; EntryKey::new asserts the kind is
known, which the entry id already carries. -/
structure EntryKey where
  hasLock : Bool
  runAt : RoughTimestamp
  seq : Seq
  entryId : EntryId

namespace EntryKey

/-- Ord for EntryKey: the lock flag reversed, so that entries holding a lock come first, then
run_at, seq and entry_id. -/
def cmp (self other : EntryKey) : Ordering :=
  (((compare self.hasLock other.hasLock).swap.then (compare self.runAt other.runAt)).then
    (compare self.seq other.seq)).then (compare self.entryId other.entryId)

instance : Ord EntryKey := ⟨cmp⟩

end EntryKey

namespace KeyCodec

/-- KeyEncode and KeyDecode for EntryKey: has_lock, run_at, seq and entry_id in turn. -/
def entryKey : KeyCodec EntryKey where
  encode key := hasLock.encode ⟨key.hasLock⟩ ++ roughTimestamp.encode key.runAt ++ KeyCodec.seq.encode key.seq ++
    entryId.encode key.entryId
  serializedLength _ := 1 + 8 + 8 + (1 + 16)
  decode := do
    let lock ← hasLock.decode
    let runAt ← roughTimestamp.decode
    let seq ← KeyCodec.seq.decode
    let entryId ← entryId.decode
    pure ⟨lock.held, runAt, seq, entryId⟩

end KeyCodec

/-- The stages of a vqueue entry, each with a table of its own. -/
inductive Stage
  | unknown
  | inbox
  | running
  | suspended
  | paused
  | finished
  deriving DecidableEq, Repr

/-- The key kind of a stage's table; the unknown stage is unreachable. -/
def Stage.keyKind : Stage → Option KeyKind
  | .unknown => none
  | .inbox => some .vQueueInboxStage
  | .running => some .vQueueRunningStage
  | .suspended => some .vQueueSuspendedStage
  | .paused => some .vQueuePausedStage
  | .finished => some .vQueueFinishedStage

/-- encode_stage_key: the stage's key kind, the vqueue id and the entry key. -/
def encodeStageKey (stage : Stage) (qid : VQueueId) (entryKey : EntryKey) : Option (List UInt8) :=
  stage.keyKind.map fun kind => kind.serialize ++ KeyCodec.vQueueId.encode qid ++ KeyCodec.entryKey.encode entryKey

namespace KeyCodec

theorem length_hasLock (lock : HasLock) : (hasLock.encode lock).length = 1 := rfl

theorem length_roughTimestamp (timestamp : RoughTimestamp) : (roughTimestamp.encode timestamp).length = 8 :=
  BigEndian.length_encode 8 _

theorem length_seq (seq : Seq) : (KeyCodec.seq.encode seq).length = 8 :=
  BigEndian.length_encode 8 _

theorem compare_hasLock (a b : Bool) : compare (hasLock.encode ⟨a⟩) (hasLock.encode ⟨b⟩) = (compare a b).swap := by
  cases a <;> cases b <;> decide

theorem compare_roughTimestamp (a b : RoughTimestamp) :
    compare (roughTimestamp.encode a) (roughTimestamp.encode b) = compare a b := by
  have fits : ∀ timestamp : RoughTimestamp, timestamp.secs * 1000 < 256 ^ 8 := by
    intro timestamp
    have := timestamp.secs_lt
    omega
  have scaled : StrictMono fun secs : ℕ => secs * 1000 := fun _ _ lt => Nat.mul_lt_mul_of_pos_right lt (by decide)
  have shifted : StrictMono fun secs : ℕ => secs + 1 := fun _ _ lt => Nat.add_lt_add_right lt 1
  show compare (BigEndian.encode 8 _) (BigEndian.encode 8 _) = compare (a.secs + 1) (b.secs + 1)
  rw [roughTimestamp_millis, roughTimestamp_millis, BigEndian.compare_encode_of_lt (fits a) (fits b), scaled.compare_apply, shifted.compare_apply]

theorem compare_seq (a b : Seq) : compare (KeyCodec.seq.encode a) (KeyCodec.seq.encode b) = compare a b := by
  have fits : ∀ seq : Seq, seq.value.toNat < 256 ^ 8 := fun seq => seq.value.isLt
  exact BigEndian.compare_encode_of_lt (fits a) (fits b)

theorem compare_entryId (a b : EntryId) : compare (entryId.encode a) (entryId.encode b) = compare a b :=
  List.compare_cons_cons

end KeyCodec

namespace EntryKey

theorem compare_encode (a b : EntryKey) :
    compare (KeyCodec.entryKey.encode a) (KeyCodec.entryKey.encode b) =
      (((compare (KeyCodec.hasLock.encode ⟨a.hasLock⟩) (KeyCodec.hasLock.encode ⟨b.hasLock⟩)).then
        (compare (KeyCodec.roughTimestamp.encode a.runAt) (KeyCodec.roughTimestamp.encode b.runAt))).then
        (compare (KeyCodec.seq.encode a.seq) (KeyCodec.seq.encode b.seq))).then
        (compare (KeyCodec.entryId.encode a.entryId) (KeyCodec.entryId.encode b.entryId)) := by
  simp only [KeyCodec.entryKey]
  rw [List.compare_append_of_length_eq (by simp only [List.length_append, KeyCodec.length_hasLock,
      KeyCodec.length_roughTimestamp, KeyCodec.length_seq]),
    List.compare_append_of_length_eq (by simp only [List.length_append, KeyCodec.length_hasLock,
      KeyCodec.length_roughTimestamp]),
    List.compare_append_of_length_eq (by simp only [KeyCodec.length_hasLock])]

theorem cmp_eq_compare_encode (a b : EntryKey) :
    a.cmp b = compare (KeyCodec.entryKey.encode a) (KeyCodec.entryKey.encode b) := by
  rw [compare_encode, KeyCodec.compare_hasLock, KeyCodec.compare_roughTimestamp, KeyCodec.compare_seq,
    KeyCodec.compare_entryId]
  rfl

end EntryKey

namespace KeyCodec

open ByteReader

end KeyCodec

theorem compare_encodeStageKey {stage : Stage} {qid : VQueueId} {a b : EntryKey} {keyA keyB : List UInt8}
    (encodedA : encodeStageKey stage qid a = some keyA) (encodedB : encodeStageKey stage qid b = some keyB) :
    compare keyA keyB = a.cmp b := by
  obtain ⟨kind, known, rfl⟩ := Option.map_eq_some_iff.mp encodedA
  obtain ⟨kind', known', rfl⟩ := Option.map_eq_some_iff.mp encodedB
  obtain rfl : kind = kind' := Option.some.inj (known.symm.trans known')
  rw [List.compare_append_left, EntryKey.cmp_eq_compare_encode]

/-- For all entry keys a and b (the kind known and run_at within RoughTimestamp's range, as the
types hold them), EntryKey's Ord compares them as the bytes of their KeyEncode encodings compare
lexicographically; so within a stage table of one vqueue, the partition store's byte order of the
stage keys is the scheduler's order of the entries. -/
theorem entry_key_order_matches_encoding (a b : EntryKey) :
    a.cmp b = compare (KeyCodec.entryKey.encode a) (KeyCodec.entryKey.encode b) ∧
      ∀ (stage : Stage) (qid : VQueueId) (keyA keyB : List UInt8),
        encodeStageKey stage qid a = some keyA → encodeStageKey stage qid b = some keyB →
          compare keyA keyB = a.cmp b :=
  ⟨EntryKey.cmp_eq_compare_encode a b, fun _ _ _ _ encodedA encodedB => compare_encodeStageKey encodedA encodedB⟩

end Restate
