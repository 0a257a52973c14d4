import Restate.LogServer.LogletWorker
import Restate.FuturesUtil.WaiterQueue

/-! The replies of a loglet worker, from log-server/src/loglet_worker.rs and tasks/. Every RPC's
reciprocal is held by one responder until it is answered: a storage task (store, seal or trim), a
tail-update notifier, or the worker itself for what it answers at once. A responder the worker
cannot answer yet waits in PendingWaiters (the seals waiting for a seal in flight, and three
WaiterQueues keyed by the tail they wait for) or travels with its command in the writer's queue,
which completes it after the commit. A task the writer drops answers from its Drop, with an empty
header, and a seal task, which has no Drop, not at all.

The state extends the worker model with the waiters, the task of each queued command, the id the
next RPC gets, and the log of the replies sent, each with the local tail and the known global tail
of the worker when it left. The spawned reads of GetRecords and GetDigest are taken to run at once;
the global tail watch holds the worker's known global tail, which only the worker raises. -/

namespace Restate

/-- TailState::invalid: an open tail at INVALID, the tail of a header the worker does not fill. -/
def TailState.invalid : TailState := ⟨LogletOffset.invalid, false⟩

/-- WaitForTail's query. -/
inductive TailUpdateQuery
  | unknown
  | localTail (target : Nat)
  | globalTail (target : Nat)
  | localOrGlobal (target : Nat)
  deriving DecidableEq, Repr

/-- Whoever holds an RPC's reciprocal and will answer it, with the RPC's id and what it asked. -/
inductive Responder
  /-- StoreStorageTask. -/
  | store (rpc : Nat) (store : Store)
  /-- SealStorageTask. -/
  | seal (rpc : Nat)
  /-- TrimStorageTask. -/
  | trim (rpc : Nat)
  /-- NotifyTailUpdate, for a WaitForTail. -/
  | tailUpdate (rpc : Nat) (query : TailUpdateQuery)
  | records (rpc : Nat)
  | digest (rpc : Nat)
  | logletInfo (rpc : Nat)
  deriving DecidableEq, Repr

def Responder.rpc : Responder → Nat
  | .store rpc _ | .seal rpc | .trim rpc | .tailUpdate rpc _ | .records rpc | .digest rpc | .logletInfo rpc => rpc

/-- A response header on its way to the RPC it answers. -/
structure Reply where
  responder : Responder
  localTail : TailState
  globalTail : Nat
  status : Status
  deriving DecidableEq, Repr

/-- OnComplete::on_complete: the responder sends its one header. A seal task answered Ok also
notifies the seal on the tail watch, which is sealed already whenever that happens. -/
def Responder.complete (responder : Responder) (localTail : TailState) (globalTail : Nat) (status : Status) : Reply :=
  ⟨responder, localTail, globalTail, status⟩

/-- What a task dropped unanswered sends: the Drop of StoreStorageTask and TrimStorageTask answers
Disabled with an open tail at INVALID and the global tail INVALID; SealStorageTask has no Drop. -/
def Responder.onDrop : Responder → List Reply
  | responder@(.store _ _) | responder@(.trim _) =>
    [responder.complete TailState.invalid LogletOffset.invalid .disabled]
  | _ => []

/-- Answers every responder with one header. -/
def answer (responders : List Responder) (currentTail : TailState) (globalTail : Nat) (status : Status) : List Reply :=
  responders.map fun responder => responder.complete currentTail globalTail status

structure PendingWaiters where
  /-- The seals waiting for the seal in flight. -/
  seals : List Responder
  /-- Resolved when the local tail reaches the target, or on a seal. -/
  localTailWaiters : WaiterQueue Nat Responder
  /-- Resolved when the global tail reaches the target, or on a seal. -/
  globalTailWaiters : WaiterQueue Nat Responder
  /-- Resolved when the local or the global tail reaches the target. -/
  localOrGlobalTailWaiters : WaiterQueue Nat Responder

namespace PendingWaiters

def empty : PendingWaiters := ⟨[], .empty, .empty, .empty⟩

def hasWaitingForGlobalTailUpdates (pending : PendingWaiters) : Bool :=
  !pending.localOrGlobalTailWaiters.isEmpty || !pending.globalTailWaiters.isEmpty

/-- on_local_tail_change: a sealed tail answers the seals Ok and every tail waiter Sealed; an open
one releases the local-tail and the local-or-global waiters it reached. -/
def onLocalTailChange (pending : PendingWaiters) (currentTail : TailState) (globalTail : Nat) :
    PendingWaiters × List Reply :=
  if currentTail.sealed then
    let (localTailReleased, localTailWaiters) := pending.localTailWaiters.drainAll
    let (globalTailReleased, globalTailWaiters) := pending.globalTailWaiters.drainAll
    let (localOrGlobalReleased, localOrGlobalTailWaiters) := pending.localOrGlobalTailWaiters.drainAll
    (⟨[], localTailWaiters, globalTailWaiters, localOrGlobalTailWaiters⟩,
      answer pending.seals currentTail globalTail .ok ++ answer localTailReleased currentTail globalTail .sealed ++
        answer globalTailReleased currentTail globalTail .sealed ++
        answer localOrGlobalReleased currentTail globalTail .sealed)
  else
    let (localTailReleased, localTailWaiters) := pending.localTailWaiters.drainUpTo currentTail.offset
    let (localOrGlobalReleased, localOrGlobalTailWaiters) :=
      pending.localOrGlobalTailWaiters.drainUpTo currentTail.offset
    ({ pending with localTailWaiters, localOrGlobalTailWaiters },
      answer localTailReleased currentTail globalTail .ok ++ answer localOrGlobalReleased currentTail globalTail .ok)

/-- on_global_tail_change: releases the global-tail and the local-or-global waiters the global tail
reached, Sealed if the local tail is sealed. -/
def onGlobalTailChange (pending : PendingWaiters) (currentTail : TailState) (globalTail : Nat) :
    PendingWaiters × List Reply :=
  let status := if currentTail.sealed then Status.sealed else .ok
  let (globalTailReleased, globalTailWaiters) := pending.globalTailWaiters.drainUpTo globalTail
  let (localOrGlobalReleased, localOrGlobalTailWaiters) := pending.localOrGlobalTailWaiters.drainUpTo globalTail
  ({ pending with globalTailWaiters, localOrGlobalTailWaiters },
    answer globalTailReleased currentTail globalTail status ++ answer localOrGlobalReleased currentTail globalTail status)

def drainLocalTailWaiters (pending : PendingWaiters) (currentTail : TailState) (globalTail : Nat) (status : Status) :
    PendingWaiters × List Reply :=
  let (released, localTailWaiters) := pending.localTailWaiters.drainAll
  ({ pending with localTailWaiters }, answer released currentTail globalTail status)

def drainWaitingSeal (pending : PendingWaiters) (currentTail : TailState) (globalTail : Nat) (status : Status) :
    PendingWaiters × List Reply :=
  ({ pending with seals := [] }, answer pending.seals currentTail globalTail status)

end PendingWaiters

/-- What process_trim does with the trim's task: the guards of process_trim, in its order. -/
inductive TrimOutcome
  | replied (status : Status)
  | enqueued
  /-- enqueue_trim on a Disabled writer drops the task. -/
  | dropped
  deriving DecidableEq, Repr

def LogletWorker.trimOutcome (worker : LogletWorker) (knownGlobalTail trimPoint : Nat) : TrimOutcome :=
  let (worker, knownGlobalTail) := worker.updateGlobalTail knownGlobalTail
  let localTail := worker.localTail
  let highWatermark := max knownGlobalTail localTail.offset
  if trimPoint < LogletOffset.oldest ∨ highWatermark ≤ trimPoint then .replied .malformed
  else
    let clippedTrimPoint := min trimPoint (LogletOffset.prev localTail.offset)
    if clippedTrimPoint ≤ worker.trimPoint then .replied .ok
    else if worker.writerActive then .enqueued else .dropped

/-- A reply as it left, with the worker's local tail and known global tail at that moment. -/
structure Sent where
  reply : Reply
  localTail : TailState
  globalTail : Nat

/-- A loglet worker with what it answers through: its pending waiters, the task of each command in
the writer's queue (in the queue's order), the id the next RPC gets, and the replies sent so far,
oldest first. -/
structure ReplyingWorker where
  worker : LogletWorker
  pending : PendingWaiters
  tasks : List Responder
  nextRpc : Nat
  sent : List Sent

/-- What a loglet worker and its writer can do next. -/
inductive LogletEvent
  | store (store : Store)
  | seal (knownGlobalTail : Nat)
  | trim (knownGlobalTail trimPoint : Nat)
  | waitForTail (knownGlobalTail : Nat) (query : TailUpdateQuery)
  /-- A GetRecords, and whether the log-store read fails. -/
  | getRecords (knownGlobalTail fromOffset toOffset : Nat) (readFails : Bool)
  | getDigest (knownGlobalTail fromOffset toOffset : Nat) (readFails : Bool)
  | getLogletInfo (knownGlobalTail : Nat)
  /-- A Release, which has no reply. -/
  | release (knownGlobalTail : Nat)
  | localTailChanged
  /-- The global tail watch fires. -/
  | globalTailChanged
  | writesDisabled
  | commit
  /-- The log-store disables writes. -/
  | disableStore
  /-- The writer, stopped once writes are disabled, drops the oldest command it still holds. -/
  | dropCommand
  deriving DecidableEq, Repr

namespace ReplyingWorker

def start (localTail : TailState) (trimPoint knownGlobalTail : Nat) (sequencer : Option Nat) : ReplyingWorker :=
  ⟨LogletWorker.start localTail trimPoint knownGlobalTail sequencer, .empty, [], 0, []⟩

/-- process_store: the store's task is answered with the local tail read as the store came in, or
waits for the local or the global tail to pass the store, or goes to the writer with the store, or
is dropped by a Disabled writer. -/
def processStore (served : ReplyingWorker) (store : Store) : ReplyingWorker × List Reply :=
  let task := Responder.store served.nextRpc store
  let localTail := served.worker.localTail
  let (outcome, worker) := served.worker.processStore store
  let served := { served with worker, nextRpc := served.nextRpc + 1 }
  match outcome with
  | .replied status => (served, [task.complete localTail worker.globalTail status])
  -- a latched store passed the last-offset guard; tail waiters watch the offset after the store
  | .latched =>
    ({ served with pending := { served.pending with
        localOrGlobalTailWaiters :=
          served.pending.localOrGlobalTailWaiters.push (LogletOffset.next (store.lastOffset.getD LogletOffset.invalid)) task } },
      [])
  | .enqueued => ({ served with tasks := served.tasks ++ [task] }, [])
  | .writerDisabled => (served, task.onDrop)

/-- process_seal: a sealed loglet is answered at once; a seal joins the one in flight, or goes to
the writer; a Disabled writer answers it with the invalid tail. -/
def processSeal (served : ReplyingWorker) (knownGlobalTail : Nat) : ReplyingWorker × List Reply :=
  let task := Responder.seal served.nextRpc
  let (outcome, worker) := served.worker.processSeal knownGlobalTail
  let served := { served with worker, nextRpc := served.nextRpc + 1 }
  match outcome with
  | .replied status => (served, [task.complete worker.localTail worker.globalTail status])
  | .joined => ({ served with pending := { served.pending with seals := served.pending.seals ++ [task] } }, [])
  | .enqueued => ({ served with tasks := served.tasks ++ [task] }, [])
  | .writerDisabled => (served, [task.complete TailState.invalid LogletOffset.invalid .disabled])

def processTrim (served : ReplyingWorker) (knownGlobalTail trimPoint : Nat) : ReplyingWorker × List Reply :=
  let task := Responder.trim served.nextRpc
  let outcome := served.worker.trimOutcome knownGlobalTail trimPoint
  let worker := (served.worker.processTrim knownGlobalTail trimPoint).2
  let served := { served with worker, nextRpc := served.nextRpc + 1 }
  match outcome with
  | .replied status => (served, [task.complete worker.localTail worker.globalTail status])
  | .enqueued => ({ served with tasks := served.tasks ++ [task] }, [])
  | .dropped => (served, task.onDrop)

/-- process_wait_for_tail: answered at once when the tail asked for is reached or the loglet is
sealed, else the notifier waits in the queue of its query. -/
def processWaitForTail (served : ReplyingWorker) (knownGlobalTail : Nat) (query : TailUpdateQuery) :
    ReplyingWorker × List Reply :=
  let worker := (served.worker.updateGlobalTail knownGlobalTail).1
  let notify := Responder.tailUpdate served.nextRpc query
  let served := { served with worker, nextRpc := served.nextRpc + 1 }
  let pending := served.pending
  let currentTail := worker.localTail
  match query with
  | .unknown => (served, [notify.complete currentTail worker.globalTail .malformed])
  | .localTail target =>
    if target ≤ currentTail.offset ∨ currentTail.sealed then (served, [notify.complete currentTail worker.globalTail .ok])
    else ({ served with pending := { pending with localTailWaiters := pending.localTailWaiters.push target notify } }, [])
  | .globalTail target =>
    if target ≤ worker.globalTail ∨ currentTail.sealed then
      (served, [notify.complete currentTail worker.globalTail (if currentTail.sealed then .sealed else .ok)])
    else ({ served with pending := { pending with globalTailWaiters := pending.globalTailWaiters.push target notify } }, [])
  | .localOrGlobal target =>
    if target ≤ currentTail.offset ∨ target ≤ worker.globalTail ∨ currentTail.sealed then
      (served, [notify.complete currentTail worker.globalTail .ok])
    else
      ({ served with pending := { pending with
          localOrGlobalTailWaiters := pending.localOrGlobalTailWaiters.push target notify } }, [])

/-- process_get_records and process_get_digest: a range that ends before it starts is answered
Malformed with an empty header; otherwise the read answers with the tails it reads, Disabled when the
log-store fails it. -/
def processRead (served : ReplyingWorker) (responder : Nat → Responder) (knownGlobalTail fromOffset toOffset : Nat)
    (readFails : Bool) : ReplyingWorker × List Reply :=
  let worker := (served.worker.updateGlobalTail knownGlobalTail).1
  let reciprocal := responder served.nextRpc
  let served := { served with worker, nextRpc := served.nextRpc + 1 }
  if toOffset < fromOffset then (served, [reciprocal.complete TailState.invalid LogletOffset.invalid .malformed])
  else (served, [reciprocal.complete worker.localTail worker.globalTail (if readFails then .disabled else .ok)])

def processGetRecords (served : ReplyingWorker) (knownGlobalTail fromOffset toOffset : Nat) (readFails : Bool) :
    ReplyingWorker × List Reply :=
  served.processRead .records knownGlobalTail fromOffset toOffset readFails

def processGetDigest (served : ReplyingWorker) (knownGlobalTail fromOffset toOffset : Nat) (readFails : Bool) :
    ReplyingWorker × List Reply :=
  served.processRead .digest knownGlobalTail fromOffset toOffset readFails

/-- GetLogletInfo: the local tail, the trim point and the known global tail. -/
def processGetLogletInfo (served : ReplyingWorker) (knownGlobalTail : Nat) : ReplyingWorker × List Reply :=
  let worker := (served.worker.updateGlobalTail knownGlobalTail).1
  let reciprocal := Responder.logletInfo served.nextRpc
  ({ served with worker, nextRpc := served.nextRpc + 1 }, [reciprocal.complete worker.localTail worker.globalTail .ok])

def onLocalTailChange (served : ReplyingWorker) : ReplyingWorker × List Reply :=
  let worker := served.worker.onLocalTailChange
  let (pending, replies) := served.pending.onLocalTailChange worker.localTail worker.globalTail
  ({ served with worker, pending }, replies)

/-- The global tail watch fires while someone waits for it. -/
def onGlobalTailChange (served : ReplyingWorker) : ReplyingWorker × List Reply :=
  if served.pending.hasWaitingForGlobalTailUpdates then
    let (pending, replies) := served.pending.onGlobalTailChange served.worker.localTail served.worker.globalTail
    ({ served with pending }, replies)
  else (served, [])

/-- on_writes_disabled: the waiters the tails resolve are answered, then the seals and the
local-tail waiters Disabled. -/
def onWritesDisabled (served : ReplyingWorker) : ReplyingWorker × List Reply :=
  if served.worker.acceptingWrites ∧ served.worker.storeDisabled then
    let currentTail := served.worker.localTail
    let globalTail := served.worker.globalTail
    let (pending, globalReplies) := served.pending.onGlobalTailChange currentTail globalTail
    let (pending, localReplies) := pending.onLocalTailChange currentTail globalTail
    let (pending, sealReplies) := pending.drainWaitingSeal currentTail globalTail .disabled
    let (pending, localTailReplies) := pending.drainLocalTailWaiters currentTail globalTail .disabled
    ({ served with worker := served.worker.onWritesDisabled, pending },
      globalReplies ++ localReplies ++ sealReplies ++ localTailReplies)
  else (served, [])

/-- The writer commits the oldest command and completes its task Ok with the local tail after the
commit and the known global tail. -/
def commit (served : ReplyingWorker) : ReplyingWorker × List Reply :=
  let worker := served.worker.commit
  match served.worker.queued, served.tasks, served.worker.storeDisabled with
  | _ :: _, task :: tasks, false => ({ served with worker, tasks }, [task.complete worker.localTail worker.globalTail .ok])
  | _, _, _ => ({ served with worker }, [])

/-- The stopped writer drops the oldest command with its task. -/
def dropCommand (served : ReplyingWorker) : ReplyingWorker × List Reply :=
  match served.worker.queued, served.tasks, served.worker.storeDisabled with
  | _ :: queued, task :: tasks, true => ({ served with worker := { served.worker with queued }, tasks }, task.onDrop)
  | _, _, _ => (served, [])

/-- The worker or its writer handles one event: the state after it, and the replies it sends. -/
def handle (served : ReplyingWorker) : LogletEvent → ReplyingWorker × List Reply
  | .store store => served.processStore store
  | .seal knownGlobalTail => served.processSeal knownGlobalTail
  | .trim knownGlobalTail trimPoint => served.processTrim knownGlobalTail trimPoint
  | .waitForTail knownGlobalTail query => served.processWaitForTail knownGlobalTail query
  | .getRecords knownGlobalTail fromOffset toOffset readFails =>
    served.processGetRecords knownGlobalTail fromOffset toOffset readFails
  | .getDigest knownGlobalTail fromOffset toOffset readFails =>
    served.processGetDigest knownGlobalTail fromOffset toOffset readFails
  | .getLogletInfo knownGlobalTail => served.processGetLogletInfo knownGlobalTail
  | .release knownGlobalTail => ({ served with worker := (served.worker.updateGlobalTail knownGlobalTail).1 }, [])
  | .localTailChanged => served.onLocalTailChange
  | .globalTailChanged => served.onGlobalTailChange
  | .writesDisabled => served.onWritesDisabled
  | .commit => served.commit
  | .disableStore => ({ served with worker := { served.worker with storeDisabled := true } }, [])
  | .dropCommand => served.dropCommand

/-- One event, with its replies logged under the worker's tails after it. -/
def step (served : ReplyingWorker) (event : LogletEvent) : ReplyingWorker :=
  let (next, replies) := served.handle event
  { next with sent := next.sent ++ replies.map fun reply => ⟨reply, next.worker.localTail, next.worker.globalTail⟩ }

def run (served : ReplyingWorker) (events : List LogletEvent) : ReplyingWorker :=
  events.foldl step served

@[simp] theorem run_nil (served : ReplyingWorker) : served.run [] = served := rfl

@[simp] theorem run_cons (served : ReplyingWorker) (event : LogletEvent) (events : List LogletEvent) :
    served.run (event :: events) = (served.step event).run events := rfl

end ReplyingWorker

/-- The event of the worker model each event is, if any: a dropped command and the global tail
watch firing are the writer's and the waiters' alone. -/
def LogletEvent.workerEvent : LogletEvent → Option WorkerEvent
  | .store message => some (.store message)
  | .seal knownGlobalTail => some (.seal knownGlobalTail)
  | .trim knownGlobalTail trimPoint => some (.trim knownGlobalTail trimPoint)
  | .waitForTail knownGlobalTail _ => some (.header .waitForTail knownGlobalTail)
  | .getRecords knownGlobalTail _ _ _ => some (.header .getRecords knownGlobalTail)
  | .getDigest knownGlobalTail _ _ _ => some (.header .getDigest knownGlobalTail)
  | .getLogletInfo knownGlobalTail => some (.header .getLogletInfo knownGlobalTail)
  | .release knownGlobalTail => some (.header .release knownGlobalTail)
  | .localTailChanged => some .localTailChanged
  | .globalTailChanged => none
  | .writesDisabled => some .writesDisabled
  | .commit => some .commit
  | .disableStore => some .disableStore
  | .dropCommand => none

end Restate
