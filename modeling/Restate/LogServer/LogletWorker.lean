import Mathlib

/-! The loglet worker of a log-server, from log-server/src/loglet_worker.rs: the single task that
serializes the writes of one loglet to the log-store. It keeps a staging local tail that runs ahead
of the durable local tail by the stores it enqueued, and the highest global tail it heard of. The
durable local tail and the trim point live in the LogletState watches; the writer of the log-store
advances the local tail as it commits what it was sent, in order.

A state holds the worker's fields, the two watches and the commands sent to the writer and not yet
committed. Each handler of the worker is one step that reads the watches once, as the source does
at its start; the writer's commits and the worker's reaction to a change of the local tail are
steps of their own, so they interleave with the handlers in any order. Offsets are u32 values
whose `next` and `prev` saturate. -/

namespace Restate

namespace LogletOffset

def invalid : Nat := 0

def oldest : Nat := 1

def maxValue : Nat := 2 ^ 32 - 1

/-- next: saturates at u32::MAX. -/
def next (offset : Nat) : Nat := min (offset + 1) maxValue

/-- prev: saturates at OLDEST. -/
def prev (offset : Nat) : Nat := max oldest (offset - 1)

end LogletOffset

/-- TailState: an offset, and whether the loglet is sealed at it. -/
structure TailState where
  offset : Nat
  sealed : Bool
  deriving DecidableEq, Repr

/-- combine: offsets only move forward and a seal is never undone. -/
def TailState.combine (tail : TailState) (sealed : Bool) (offset : Nat) : TailState :=
  ⟨max tail.offset offset, tail.sealed || sealed⟩

def TailState.seal (tail : TailState) : TailState := { tail with sealed := true }

@[simp] theorem TailState.combine_offset (tail : TailState) (sealed : Bool) (offset : Nat) :
    (tail.combine sealed offset).offset = max tail.offset offset := rfl

@[simp] theorem TailState.combine_sealed (tail : TailState) (sealed : Bool) (offset : Nat) :
    (tail.combine sealed offset).sealed = (tail.sealed || sealed) := rfl

@[simp] theorem TailState.seal_offset (tail : TailState) : tail.seal.offset = tail.offset := rfl

@[simp] theorem TailState.seal_sealed (tail : TailState) : tail.seal.sealed = true := rfl

inductive Status
  | ok
  | disabled
  | dropped
  | sealed
  | sealing
  | sequencerMismatch
  | outOfBounds
  | malformed
  deriving DecidableEq, Repr

/-- The fields of a Store that process_store reads. `expired` is whether its timeout passed when
it is processed; `peer` is the node it came from. -/
structure Store where
  knownGlobalTail : Nat
  ignoreSeal : Bool
  sequencer : Nat
  peer : Nat
  firstOffset : Nat
  payloadCount : Nat
  expired : Bool
  deriving DecidableEq, Repr

/-- Store::last_offset: none when the count does not fit in u32 or the sum overflows. The
subtraction wraps, as in a release build. -/
def Store.lastOffset (store : Store) : Option Nat :=
  if 2 ^ 32 ≤ store.payloadCount then none
  else
    let last := store.firstOffset + (store.payloadCount + 2 ^ 32 - 1) % 2 ^ 32
    if last < 2 ^ 32 then some last else none

/-- What the worker sends to the log-store writer. -/
inductive WriteCommand
  | store (firstOffset lastOffset : Nat)
  | seal
  | trim (trimPoint : Nat)
  deriving DecidableEq, Repr

structure LogletWorker where
  /-- The durable local tail: LogletState::local_tail. -/
  localTail : TailState
  /-- LogletState::trim_point. -/
  trimPoint : Nat
  sealEnqueued : Bool
  acceptingWrites : Bool
  stagingLocalTail : Nat
  globalTail : Nat
  knownSequencer : Option Nat
  /-- The loglet writer is Active, not Disabled. -/
  writerActive : Bool
  /-- The commands sent to the writer and not yet committed, oldest first. -/
  queued : List WriteCommand
  /-- The log-store disabled writes: nothing more is committed. -/
  storeDisabled : Bool
  deriving DecidableEq, Repr

namespace LogletWorker

/-- LogletWorker::start, on a loglet state. -/
def start (localTail : TailState) (trimPoint knownGlobalTail : Nat) (sequencer : Option Nat) : LogletWorker where
  localTail := localTail
  trimPoint := trimPoint
  sealEnqueued := false
  acceptingWrites := true
  stagingLocalTail := localTail.offset
  globalTail := knownGlobalTail
  knownSequencer := sequencer
  writerActive := true
  queued := []
  storeDisabled := false

/-- update_global_tail: the worker and the known global tail it returns. -/
def updateGlobalTail (worker : LogletWorker) (newTail : Nat) : LogletWorker × Nat :=
  if worker.globalTail < newTail then ({ worker with globalTail := newTail }, newTail)
  else (worker, worker.globalTail)

/-- The writer's enqueue of a command: accepted unless the writer is Disabled. -/
def enqueue (worker : LogletWorker) (command : WriteCommand) : Option LogletWorker :=
  if worker.writerActive then some { worker with queued := worker.queued ++ [command] } else none

/-- What process_store does with a store. -/
inductive StoreOutcome
  | replied (status : Status)
  /-- The store waits for the local or the global tail to pass it. -/
  | latched
  | enqueued
  /-- The writer refused the store, and the worker stops accepting writes. -/
  | writerDisabled
  deriving DecidableEq, Repr

/-- The guards of process_store, in the source's order: the answer to a store that stops at one,
or the store's last offset when it passes them all. `localTail` is the local tail read when the
store came in. -/
def storeGuards (worker : LogletWorker) (localTail : TailState) (knownGlobalTail : Nat) (store : Store) :
    Except StoreOutcome Nat :=
  let isRepair := store.ignoreSeal
  let nextOkOffset := max worker.stagingLocalTail knownGlobalTail
  match store.lastOffset with
  | none => .error (.replied .malformed)
  | some lastOffset =>
    if store.payloadCount = 0 ∨ store.firstOffset = LogletOffset.invalid then .error (.replied .malformed)
    else if !isRepair ∧ localTail.sealed then .error (.replied .sealed)
    else if !worker.acceptingWrites then .error (.replied .disabled)
    else if worker.knownSequencer.any (· ≠ store.sequencer) then .error (.replied .sequencerMismatch)
    else if store.firstOffset < nextOkOffset ∧ store.peer ≠ store.sequencer ∧ !store.ignoreSeal then
      .error (.replied .sequencerMismatch)
    else if nextOkOffset < store.firstOffset then .error (.replied .outOfBounds)
    else if store.expired then .error (.replied .dropped)
    -- the duplicate fast path, for stores that are not repairs
    else if !isRepair ∧ lastOffset < localTail.offset then .error (.replied .ok)
    else if !isRepair ∧ lastOffset < worker.stagingLocalTail then .error .latched
    -- a seal in flight holds back every store
    else if worker.sealEnqueued ∧ !localTail.sealed then
      .error (if isRepair then .replied .sealing else .latched)
    else .ok lastOffset

/-- process_store: a store that passes the guards goes to the writer, and the staging local tail
moves past it. -/
def processStore (worker : LogletWorker) (store : Store) : StoreOutcome × LogletWorker :=
  let localTail := worker.localTail
  let (worker, knownGlobalTail) := worker.updateGlobalTail store.knownGlobalTail
  match worker.storeGuards localTail knownGlobalTail store with
  | .error outcome => (outcome, worker)
  | .ok lastOffset =>
    let worker := if worker.knownSequencer.isNone then { worker with knownSequencer := some store.sequencer }
      else worker
    match worker.enqueue (.store store.firstOffset lastOffset) with
    | some enqueued =>
      (.enqueued, { enqueued with
        stagingLocalTail := max enqueued.stagingLocalTail (LogletOffset.next lastOffset) })
    | none => (.writerDisabled, { worker with acceptingWrites := false })

/-- What process_seal does with a seal. -/
inductive SealOutcome
  | replied (status : Status)
  /-- The seal joins those waiting for the seal in flight. -/
  | joined
  | enqueued
  | writerDisabled
  deriving DecidableEq, Repr

/-- process_seal: a seal is enqueued once; later ones wait for it. -/
def processSeal (worker : LogletWorker) (knownGlobalTail : Nat) : SealOutcome × LogletWorker :=
  let worker := (worker.updateGlobalTail knownGlobalTail).1
  if worker.localTail.sealed then (.replied .ok, { worker with sealEnqueued := false })
  else if worker.sealEnqueued then (.joined, worker)
  else
    match worker.enqueue .seal with
    | some enqueued => (.enqueued, { enqueued with sealEnqueued := true })
    | none => (.writerDisabled, { worker with sealEnqueued := false })

/-- LogletState::update_trim_point: the trim point only moves forward. -/
def updateTrimPoint (worker : LogletWorker) (newTrimPoint : Nat) : LogletWorker :=
  if worker.trimPoint < newTrimPoint then { worker with trimPoint := newTrimPoint } else worker

/-- process_trim: a trim point below the higher of the two tails, clipped below the local tail. -/
def processTrim (worker : LogletWorker) (knownGlobalTail trimPoint : Nat) : Status × LogletWorker :=
  let (worker, knownGlobalTail) := worker.updateGlobalTail knownGlobalTail
  let localTail := worker.localTail
  let highWatermark := max knownGlobalTail localTail.offset
  if trimPoint < LogletOffset.oldest ∨ highWatermark ≤ trimPoint then (.malformed, worker)
  else
    let clippedTrimPoint := min trimPoint (LogletOffset.prev localTail.offset)
    if clippedTrimPoint ≤ worker.trimPoint then (.ok, worker)
    else
      let worker := worker.updateTrimPoint clippedTrimPoint
      -- the reply waits for the trim to be durable; a Disabled writer drops it
      (.ok, ((worker.enqueue (.trim clippedTrimPoint)).getD worker))

/-- on_local_tail_change, with the local tail the worker reads from the watch. -/
def onLocalTailChange (worker : LogletWorker) : LogletWorker :=
  if worker.localTail.sealed ∧ worker.sealEnqueued then
    { worker with sealEnqueued := false, stagingLocalTail := worker.localTail.offset }
  else worker

/-- on_writes_disabled: staging falls back to the durable local tail and the writer is closed. -/
def onWritesDisabled (worker : LogletWorker) : LogletWorker :=
  { worker with
    acceptingWrites := false
    stagingLocalTail := worker.localTail.offset
    sealEnqueued := false
    writerActive := false }

/-- The writer commits the oldest command it was sent and advances the tail watch. -/
def commit (worker : LogletWorker) : LogletWorker :=
  match worker.queued with
  | [] => worker
  | command :: rest =>
    if worker.storeDisabled then worker
    else
      let localTail := match command with
        | .store _ lastOffset => worker.localTail.combine false (LogletOffset.next lastOffset)
        | .seal => worker.localTail.seal
        | .trim _ => worker.localTail
      { worker with localTail, queued := rest }

end LogletWorker

/-- The messages of the meta service that only raise the known global tail: Release,
GetLogletInfo and WaitForTail, and GetRecords and GetDigest of the data service. -/
inductive TailHeaderMessage
  | release
  | getLogletInfo
  | waitForTail
  | getRecords
  | getDigest
  deriving DecidableEq, Repr

/-- One step of a loglet worker and its log-store. -/
inductive WorkerEvent
  | store (store : Store)
  | seal (knownGlobalTail : Nat)
  | trim (knownGlobalTail trimPoint : Nat)
  | header (message : TailHeaderMessage) (knownGlobalTail : Nat)
  /-- The worker sees the local tail watch change. -/
  | localTailChanged
  /-- The worker sees that the log-store disabled writes. -/
  | writesDisabled
  /-- The writer commits the oldest command. -/
  | commit
  /-- The log-store disables writes. -/
  | disableStore
  deriving DecidableEq, Repr

namespace LogletWorker

def step (worker : LogletWorker) : WorkerEvent → LogletWorker
  | .store store => (worker.processStore store).2
  | .seal knownGlobalTail => (worker.processSeal knownGlobalTail).2
  | .trim knownGlobalTail trimPoint => (worker.processTrim knownGlobalTail trimPoint).2
  | .header _ knownGlobalTail => (worker.updateGlobalTail knownGlobalTail).1
  | .localTailChanged => worker.onLocalTailChange
  -- the select branch is enabled while the worker accepts writes
  | .writesDisabled =>
    if worker.acceptingWrites ∧ worker.storeDisabled then worker.onWritesDisabled else worker
  | .commit => worker.commit
  | .disableStore => { worker with storeDisabled := true }

def run (worker : LogletWorker) (events : List WorkerEvent) : LogletWorker :=
  events.foldl step worker

@[simp] theorem run_nil (worker : LogletWorker) : worker.run [] = worker := rfl

@[simp] theorem run_cons (worker : LogletWorker) (event : WorkerEvent) (events : List WorkerEvent) :
    worker.run (event :: events) = (worker.step event).run events := rfl

end LogletWorker

end Restate

namespace Restate.LogletWorker

@[simp] theorem updateGlobalTail_fst (worker : LogletWorker) (newTail : Nat) :
    (worker.updateGlobalTail newTail).1 = { worker with globalTail := max worker.globalTail newTail } := by
  cases worker
  unfold updateGlobalTail
  split
  · rename_i raised
    dsimp only at raised ⊢
    congr 1
    omega
  · rename_i kept
    dsimp only at kept ⊢
    congr 1
    omega

@[simp] theorem updateGlobalTail_snd (worker : LogletWorker) (newTail : Nat) :
    (worker.updateGlobalTail newTail).2 = max worker.globalTail newTail := by
  unfold updateGlobalTail
  split <;> omega

theorem ite_error_eq_ok {p : Prop} [Decidable p] {error : ε} {rest : Except ε α} {value : α} :
    (if p then .error error else rest) = .ok value ↔ ¬p ∧ rest = .ok value := by
  by_cases holds : p <;> simp [holds]

theorem storeGuards_ok {worker : LogletWorker} {localTail : TailState} {knownGlobalTail : Nat}
    {store : Store} {lastOffset : Nat} (passed : worker.storeGuards localTail knownGlobalTail store = .ok lastOffset) :
    store.lastOffset = some lastOffset ∧ 0 < store.payloadCount ∧ LogletOffset.oldest ≤ store.firstOffset ∧
      (store.ignoreSeal = true ∨ localTail.sealed = false) ∧ worker.acceptingWrites = true ∧
      store.firstOffset ≤ max worker.stagingLocalTail knownGlobalTail ∧
      (worker.sealEnqueued = false ∨ localTail.sealed = true) := by
  unfold storeGuards at passed
  split at passed
  · cases passed
  · rename_i last lastOffsetEq
    simp only [ite_error_eq_ok] at passed
    obtain ⟨malformed, sealed, disabled, -, -, outOfBounds, -, -, -, sealing, done⟩ := passed
    cases done
    simp only [not_or, LogletOffset.invalid] at malformed
    refine ⟨lastOffsetEq, by omega, by rw [LogletOffset.oldest]; omega, ?_, by simpa using disabled,
      Nat.not_lt.mp outOfBounds, ?_⟩
    · revert sealed
      cases store.ignoreSeal <;> cases localTail.sealed <;> decide
    · revert sealing
      cases worker.sealEnqueued <;> cases localTail.sealed <;> decide

end Restate.LogletWorker
