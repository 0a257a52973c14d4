import Mathlib

/-! The message types of the service protocol and the frame header, from message_codec/mod.rs
and message_codec/header.rs. A header is one u64: the type id in the top 16 bits, the
requested-ack flag in bit 47 and the frame length in the low 32 bits. Type ids are read back
by the table of named types first; an id outside it is a custom type when it has a bit of
CUSTOM_MESSAGE_MASK, and unknown otherwise. So a custom type is read back as itself only when
its id has such a bit and names no other type. -/

namespace Restate

inductive MessageType
  | start
  | suspension
  | error
  | «end»
  | commandAck
  | proposeRunCompletion
  | awaitingOn
  | proposeRunCompletionAck
  | inputCommand
  | outputCommand
  | getLazyStateCommand
  | getLazyStateCompletionNotification
  | setStateCommand
  | clearStateCommand
  | clearAllStateCommand
  | getLazyStateKeysCommand
  | getLazyStateKeysCompletionNotification
  | getEagerStateCommand
  | getEagerStateKeysCommand
  | getPromiseCommand
  | getPromiseCompletionNotification
  | peekPromiseCommand
  | peekPromiseCompletionNotification
  | completePromiseCommand
  | completePromiseCompletionNotification
  | sleepCommand
  | sleepCompletionNotification
  | callCommand
  | callInvocationIdCompletionNotification
  | callCompletionNotification
  | oneWayCallCommand
  | sendSignalCommand
  | runCommand
  | runCompletionNotification
  | attachInvocationCommand
  | attachInvocationCompletionNotification
  | getInvocationOutputCommand
  | getInvocationOutputCompletionNotification
  | completeAwakeableCommand
  | signalNotification
  | custom (id : BitVec 16)
  deriving DecidableEq, Repr

namespace MessageType

/-- From<MessageType> for MessageTypeId: the ids of the gen_message! table. -/
def id : MessageType → BitVec 16
  | start => 0x0000
  | suspension => 0x0001
  | error => 0x0002
  | «end» => 0x0003
  | commandAck => 0x0004
  | proposeRunCompletion => 0x0005
  | awaitingOn => 0x0006
  | proposeRunCompletionAck => 0x0007
  | inputCommand => 0x0400
  | outputCommand => 0x0401
  | getLazyStateCommand => 0x0402
  | getLazyStateCompletionNotification => 0x8002
  | setStateCommand => 0x0403
  | clearStateCommand => 0x0404
  | clearAllStateCommand => 0x0405
  | getLazyStateKeysCommand => 0x0406
  | getLazyStateKeysCompletionNotification => 0x8006
  | getEagerStateCommand => 0x0407
  | getEagerStateKeysCommand => 0x0408
  | getPromiseCommand => 0x0409
  | getPromiseCompletionNotification => 0x8009
  | peekPromiseCommand => 0x040A
  | peekPromiseCompletionNotification => 0x800A
  | completePromiseCommand => 0x040B
  | completePromiseCompletionNotification => 0x800B
  | sleepCommand => 0x040C
  | sleepCompletionNotification => 0x800C
  | callCommand => 0x040D
  | callInvocationIdCompletionNotification => 0x800E
  | callCompletionNotification => 0x800D
  | oneWayCallCommand => 0x040E
  | sendSignalCommand => 0x0410
  | runCommand => 0x0411
  | runCompletionNotification => 0x8011
  | attachInvocationCommand => 0x0412
  | attachInvocationCompletionNotification => 0x8012
  | getInvocationOutputCommand => 0x0413
  | getInvocationOutputCompletionNotification => 0x8013
  | completeAwakeableCommand => 0x0414
  | signalNotification => 0xFBFF
  | custom id => id

/-- The named types in the order of the table. -/
def named : List MessageType :=
  [start, suspension, error, «end», commandAck, proposeRunCompletion, awaitingOn,
    proposeRunCompletionAck, inputCommand, outputCommand, getLazyStateCommand,
    getLazyStateCompletionNotification, setStateCommand, clearStateCommand, clearAllStateCommand,
    getLazyStateKeysCommand, getLazyStateKeysCompletionNotification, getEagerStateCommand,
    getEagerStateKeysCommand, getPromiseCommand, getPromiseCompletionNotification,
    peekPromiseCommand, peekPromiseCompletionNotification, completePromiseCommand,
    completePromiseCompletionNotification, sleepCommand, sleepCompletionNotification, callCommand,
    callInvocationIdCompletionNotification, callCompletionNotification, oneWayCallCommand,
    sendSignalCommand, runCommand, runCompletionNotification, attachInvocationCommand,
    attachInvocationCompletionNotification, getInvocationOutputCommand,
    getInvocationOutputCompletionNotification, completeAwakeableCommand, signalNotification]

/-- allows_ack: the types marked allows_ack in the table, and custom types. -/
def allowsAck : MessageType → Bool
  | proposeRunCompletion | inputCommand | outputCommand | getLazyStateCommand | setStateCommand
  | clearStateCommand | clearAllStateCommand | getLazyStateKeysCommand | getEagerStateCommand
  | getEagerStateKeysCommand | getPromiseCommand | peekPromiseCommand | completePromiseCommand
  | sleepCommand | callCommand | oneWayCallCommand | sendSignalCommand | runCommand
  | attachInvocationCommand | getInvocationOutputCommand | completeAwakeableCommand | custom _ => true
  | _ => false

end MessageType

def customMessageMask : BitVec 16 := 0xFC00

structure UnknownMessageType where
  id : BitVec 16
  deriving DecidableEq, Repr

/-- TryFrom<MessageTypeId> for MessageType: the named type of the id, else a custom type when
the id has a bit of the mask. -/
def MessageType.tryFrom (value : BitVec 16) : Except UnknownMessageType MessageType :=
  match MessageType.named.find? (fun ty => ty.id == value) with
  | some ty => .ok ty
  | none => if value &&& customMessageMask != 0 then .ok (.custom value) else .error ⟨value⟩

/-- A type whose id reads back as itself: a named type, or a custom id with a bit of the mask
that no named type has. -/
def MessageType.Readable : MessageType → Prop
  | custom id => id &&& customMessageMask ≠ 0 ∧ ∀ ty ∈ MessageType.named, ty.id ≠ id
  | _ => True

theorem MessageType.named_id_injective :
    ∀ ty ∈ MessageType.named, MessageType.named.find? (fun other => other.id == ty.id) = some ty := by
  decide

theorem MessageType.mem_named_of_not_custom (ty : MessageType) (notCustom : ∀ id, ty ≠ .custom id) :
    ty ∈ MessageType.named := by
  cases ty <;> first | decide | exact absurd rfl (notCustom _)

theorem MessageType.tryFrom_id {ty : MessageType} (readable : ty.Readable) :
    MessageType.tryFrom ty.id = .ok ty := by
  cases ty
  case custom id =>
    obtain ⟨masked, unnamed⟩ := readable
    have missing : MessageType.named.find? (fun other => other.id == id) = none := by
      rw [List.find?_eq_none]
      intro other member
      simpa using unnamed other member
    show MessageType.tryFrom id = _
    rw [MessageType.tryFrom, missing]
    simpa using masked
  all_goals
    rw [MessageType.tryFrom, MessageType.named_id_injective _ (MessageType.mem_named_of_not_custom _
      (fun _ same => MessageType.noConfusion same))]

structure MessageHeader where
  ty : MessageType
  length : BitVec 32
  requestedAckFlag : Option Bool
  deriving DecidableEq, Repr

def MessageHeader.new (ty : MessageType) (length : BitVec 32) : MessageHeader := ⟨ty, length, none⟩

/-- REQUESTED_ACK_MASK: bit 47. -/
def requestedAckMask : BitVec 64 := 0x800000000000

/-- From<MessageHeader> for u64: only a flag that is Some(true) sets the bit. -/
def MessageHeader.toU64 (header : MessageHeader) : BitVec 64 :=
  let res := (header.ty.id.setWidth 64 <<< 48) ||| header.length.setWidth 64
  if header.requestedAckFlag = some true then res ||| requestedAckMask else res

/-- TryFrom<u64> for MessageHeader: the flag is read only for types that allow an ack. -/
def MessageHeader.tryFromU64 (value : BitVec 64) : Except UnknownMessageType MessageHeader := do
  let ty ← MessageType.tryFrom ((value >>> 48).setWidth 16)
  let requestedAckFlag := if ty.allowsAck then some (value &&& requestedAckMask != 0) else none
  pure ⟨ty, value.setWidth 32, requestedAckFlag⟩

/-- What reading back a header gives: the flag becomes whether it was set, for the types that
allow an ack, and is dropped for the others. -/
def MessageHeader.normalized (header : MessageHeader) : MessageHeader :=
  { header with
    requestedAckFlag := if header.ty.allowsAck then some (header.requestedAckFlag = some true) else none }

/-- The low 48 bits of a header: the flag bit and the length. -/
def MessageHeader.lowBits (header : MessageHeader) : Nat :=
  (if header.requestedAckFlag = some true then 2 ^ 47 else 0) + header.length.toNat

theorem MessageHeader.lowBits_lt (header : MessageHeader) : header.lowBits < 2 ^ 48 := by
  have := header.length.isLt
  unfold MessageHeader.lowBits
  split <;> omega

theorem MessageHeader.toU64_eq_or (header : MessageHeader) :
    header.toU64 = (header.ty.id.setWidth 64 <<< 48) |||
      ((if header.requestedAckFlag = some true then requestedAckMask else 0) ||| header.length.setWidth 64) := by
  unfold MessageHeader.toU64
  split <;> simp [BitVec.or_assoc, BitVec.or_comm]

theorem MessageHeader.toNat_toU64 (header : MessageHeader) :
    header.toU64.toNat = header.ty.id.toNat * 2 ^ 48 + header.lowBits := by
  have idBound := header.ty.id.isLt
  have lengthBound := header.length.isLt
  have low : ((if header.requestedAckFlag = some true then requestedAckMask else 0) |||
      header.length.setWidth 64).toNat = header.lowBits := by
    rw [BitVec.toNat_or, BitVec.toNat_setWidth, Nat.mod_eq_of_lt (by omega), MessageHeader.lowBits]
    split
    · have flagged := Nat.two_pow_add_eq_or_of_lt (show header.length.toNat < 2 ^ 47 by omega) 1
      rw [Nat.mul_one] at flagged
      rw [show requestedAckMask.toNat = 2 ^ 47 from rfl, flagged]
    · simp
  rw [MessageHeader.toU64_eq_or, BitVec.toNat_or, BitVec.toNat_shiftLeft, BitVec.toNat_setWidth, low,
    Nat.mod_eq_of_lt (show header.ty.id.toNat < 2 ^ 64 by omega),
    Nat.mod_eq_of_lt (show header.ty.id.toNat <<< 48 < 2 ^ 64 by rw [Nat.shiftLeft_eq]; omega),
    ← Nat.shiftLeft_add_eq_or_of_lt header.lowBits_lt, Nat.shiftLeft_eq]

theorem MessageHeader.typeBits_toU64 (header : MessageHeader) :
    (header.toU64 >>> 48).setWidth 16 = header.ty.id := by
  have idBound := header.ty.id.isLt
  have lowBound := header.lowBits_lt
  apply BitVec.eq_of_toNat_eq
  rw [BitVec.toNat_setWidth, BitVec.toNat_ushiftRight, MessageHeader.toNat_toU64, Nat.shiftRight_eq_div_pow]
  omega

theorem MessageHeader.lengthBits_toU64 (header : MessageHeader) :
    header.toU64.setWidth 32 = header.length := by
  have lengthBound := header.length.isLt
  apply BitVec.eq_of_toNat_eq
  rw [BitVec.toNat_setWidth, MessageHeader.toNat_toU64, MessageHeader.lowBits]
  split <;> omega

theorem MessageHeader.flagBit_toU64 (header : MessageHeader) :
    (header.toU64 &&& requestedAckMask != 0) = decide (header.requestedAckFlag = some true) := by
  have lengthBound := header.length.isLt
  have bit : header.toU64.getLsbD 47 = decide (header.requestedAckFlag = some true) := by
    rw [BitVec.getLsbD, MessageHeader.toNat_toU64, Nat.testBit_eq_decide_div_mod_eq, MessageHeader.lowBits]
    split <;> simp only [*, decide_true, decide_false, decide_eq_true_eq, decide_eq_false_iff_not] <;> omega
  have nonzero : BitVec.twoPow 64 47 ≠ 0#64 := by decide
  rw [show requestedAckMask = BitVec.twoPow 64 47 from rfl, BitVec.and_twoPow, bit]
  split <;> simp_all

theorem MessageHeader.tryFromU64_toU64 {header : MessageHeader} (readable : header.ty.Readable) :
    MessageHeader.tryFromU64 header.toU64 = .ok header.normalized := by
  simp only [MessageHeader.tryFromU64, MessageHeader.typeBits_toU64, MessageType.tryFrom_id readable,
    MessageHeader.flagBit_toU64, MessageHeader.lengthBits_toU64, bind, Except.bind, pure, Except.pure]
  rfl

end Restate
