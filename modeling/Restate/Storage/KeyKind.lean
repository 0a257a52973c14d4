import Restate.Lib.ByteReader

/-! Key kinds of the partition store (crates/partition-store/src/keys.rs). Every table key starts
with the two bytes of its kind, so that several tables can share a column family. The bytes of a
kind and the kind of two bytes are two separate tables in the source. Decoding runs in a reader
whose errors are the source's storage errors, the panics of the bytes crate on a read past the end,
and the places where the source trusts bytes it wrote itself without checking them. -/

namespace Restate

inductive StorageError
  | generic (message : String)
  | conversion (message : String)
  | dataIntegrityError
  deriving DecidableEq, Repr

inductive DecodeError
  | storage (error : StorageError)
  /-- The bytes crate panics on a read past the end of the buffer, as does a failed expect. -/
  | panic
  /-- The source converts these bytes unchecked (from_utf8_unchecked, new_unchecked), trusting
  that it wrote them; other bytes are undefined behaviour there. -/
  | unchecked
  deriving DecidableEq, Repr

abbrev KeyDecoder (α : Type) := ByteReader DecodeError α

/-- A byte in the hexadecimal debug format. -/
def hexByte (byte : UInt8) : String := String.ofList (Nat.toDigits 16 byte.toNat)

def hexBytes (bytes : List UInt8) : String := "[" ++ ", ".intercalate (bytes.map hexByte) ++ "]"

/-- A byte string literal's byte. -/
def charByte (c : Char) : UInt8 := c.toNat.toUInt8

inductive KeyKind
  | deduplication
  | fsm
  | idempotency
  | inbox
  | invocationStatusV1
  | invocationStatus
  | journal
  | journalV2
  | journalV2NotificationIdToNotificationIndex
  | journalV2CompletionIdToCommandIndex
  | journalEvent
  | outbox
  | serviceStatus
  | state
  | scopedState
  | timers
  | promise
  | scopedPromise
  | vQueueActive
  | vQueueMeta
  | vQueueInboxStage
  | vQueueRunningStage
  | vQueueSuspendedStage
  | vQueuePausedStage
  | vQueueFinishedStage
  | vQueueEntryStatus
  | vQueueInput
  | lock
  deriving DecidableEq, Repr

namespace KeyKind

def serializedLength : Nat := 2

/-- The byte string literal of each kind. -/
def asBytes : KeyKind → Char × Char
  | .deduplication => ('d', 'e')
  | .fsm => ('f', 's')
  | .idempotency => ('i', 'p')
  | .inbox => ('i', 'b')
  | .invocationStatusV1 => ('i', 's')
  | .invocationStatus => ('i', 'S')
  | .journal => ('j', 'o')
  | .journalV2NotificationIdToNotificationIndex => ('j', 'n')
  | .journalV2CompletionIdToCommandIndex => ('j', 'c')
  | .journalV2 => ('j', '2')
  | .journalEvent => ('j', 'e')
  | .lock => ('l', 'o')
  | .outbox => ('o', 'b')
  | .serviceStatus => ('s', 's')
  | .state => ('s', 't')
  | .scopedState => ('s', 'S')
  | .timers => ('t', 'i')
  | .promise => ('p', 'r')
  | .scopedPromise => ('s', 'P')
  | .vQueueActive => ('q', 'a')
  | .vQueueMeta => ('q', 'm')
  | .vQueueInput => ('q', 'i')
  | .vQueueEntryStatus => ('q', 's')
  | .vQueueInboxStage => ('q', 'I')
  | .vQueueRunningStage => ('q', 'R')
  | .vQueueSuspendedStage => ('q', 'S')
  | .vQueuePausedStage => ('q', 'P')
  | .vQueueFinishedStage => ('q', 'F')

/-- Bytes are compared as characters: below 256 the two are in one-to-one correspondence. -/
def fromBytes (bytes : UInt8 × UInt8) : Option KeyKind :=
  match Char.ofNat bytes.1.toNat, Char.ofNat bytes.2.toNat with
  | 'd', 'e' => some .deduplication
  | 'f', 's' => some .fsm
  | 'i', 'p' => some .idempotency
  | 'i', 'b' => some .inbox
  | 'i', 's' => some .invocationStatusV1
  | 'i', 'S' => some .invocationStatus
  | 'j', 'o' => some .journal
  | 'j', '2' => some .journalV2
  | 'j', 'e' => some .journalEvent
  | 'j', 'n' => some .journalV2NotificationIdToNotificationIndex
  | 'j', 'c' => some .journalV2CompletionIdToCommandIndex
  | 'l', 'o' => some .lock
  | 'o', 'b' => some .outbox
  | 's', 's' => some .serviceStatus
  | 's', 't' => some .state
  | 's', 'S' => some .scopedState
  | 't', 'i' => some .timers
  | 'p', 'r' => some .promise
  | 's', 'P' => some .scopedPromise
  | 'q', 'a' => some .vQueueActive
  | 'q', 'i' => some .vQueueInput
  | 'q', 'm' => some .vQueueMeta
  | 'q', 's' => some .vQueueEntryStatus
  | 'q', 'I' => some .vQueueInboxStage
  | 'q', 'R' => some .vQueueRunningStage
  | 'q', 'S' => some .vQueueSuspendedStage
  | 'q', 'P' => some .vQueuePausedStage
  | 'q', 'F' => some .vQueueFinishedStage
  | _, _ => none

/-- The variant name, as the derived display writes it. -/
def name : KeyKind → String
  | .deduplication => "Deduplication"
  | .fsm => "Fsm"
  | .idempotency => "Idempotency"
  | .inbox => "Inbox"
  | .invocationStatusV1 => "InvocationStatusV1"
  | .invocationStatus => "InvocationStatus"
  | .journal => "Journal"
  | .journalV2 => "JournalV2"
  | .journalV2NotificationIdToNotificationIndex => "JournalV2NotificationIdToNotificationIndex"
  | .journalV2CompletionIdToCommandIndex => "JournalV2CompletionIdToCommandIndex"
  | .journalEvent => "JournalEvent"
  | .outbox => "Outbox"
  | .serviceStatus => "ServiceStatus"
  | .state => "State"
  | .scopedState => "ScopedState"
  | .timers => "Timers"
  | .promise => "Promise"
  | .scopedPromise => "ScopedPromise"
  | .vQueueActive => "VQueueActive"
  | .vQueueMeta => "VQueueMeta"
  | .vQueueInboxStage => "VQueueInboxStage"
  | .vQueueRunningStage => "VQueueRunningStage"
  | .vQueueSuspendedStage => "VQueueSuspendedStage"
  | .vQueuePausedStage => "VQueuePausedStage"
  | .vQueueFinishedStage => "VQueueFinishedStage"
  | .vQueueEntryStatus => "VQueueEntryStatus"
  | .vQueueInput => "VQueueInput"
  | .lock => "Lock"

def serialize (kind : KeyKind) : List UInt8 := [charByte kind.asBytes.1, charByte kind.asBytes.2]

def deserialize : KeyDecoder KeyKind := fun
  | first :: second :: rest =>
    match fromBytes (first, second) with
    | some kind => .ok (kind, rest)
    | none => .error (.storage (.generic ("unknown key kind: " ++ hexBytes [first, second])))
  | _ => .error (.storage .dataIntegrityError)

end KeyKind

end Restate
