import Restate.LogServer.Replies
import Restate.LogServer.WorkerInvariants
import Mathlib.Algebra.Order.Group.Multiset
import Mathlib.Tactic.Abel
import Mathlib.Data.List.Forall2

/-! What the replies of a loglet worker promise, over every run. An Ok keeps its promise under the
worker's tails of the moment it leaves: a store is durable (its offset after the last, which
saturates at u32::MAX, is within the local tail) or below the known global tail, and durable when
the loglet is sealed and the store is no repair; a seal is durable; a tail update reached what it
asked for, or the loglet is sealed. Every RPC is answered at most once. The header carries the
worker's local tail and known global tail, which only grows, except where the worker cannot fill it:
a Disabled answer from a storage task the writer refused or dropped, and a Malformed read, carry an
open tail at INVALID and the global tail INVALID.

The proof follows each responder: while it waits, the place it waits in says when an Ok to it is
truthful, and each handler answers only from the place whose condition it checked. -/

namespace Restate

/-! ## What a reply promises -/

/-- The tails at which a WaitForTail may be answered Ok. -/
def TailUpdateQuery.Reached : TailUpdateQuery → TailState → Nat → Prop
  | .unknown, _, _ => False
  | .localTail target, current, _ => target ≤ current.offset ∨ current.sealed = true
  | .globalTail target, current, known => target ≤ known ∨ current.sealed = true
  | .localOrGlobal target, current, known => target ≤ current.offset ∨ target ≤ known ∨ current.sealed = true

/-- What an Ok to a responder promises of the local tail and the known global tail it is sent under. -/
def Responder.OkTruthful : Responder → TailState → Nat → Prop
  | .store _ message, current, known => ∃ last, message.lastOffset = some last ∧
      (LogletOffset.next last ≤ current.offset ∨ LogletOffset.next last ≤ known) ∧
      (current.sealed = true → message.ignoreSeal = false → LogletOffset.next last ≤ current.offset)
  | .seal _, current, _ => current.sealed = true
  | .tailUpdate _ query, current, known => query.Reached current known
  | _, _, _ => True

/-- The header of a reply the worker cannot fill: a Disabled answer of a storage task, or a
Malformed read. -/
def Reply.EmptyHeader (reply : Reply) : Prop :=
  reply.localTail = TailState.invalid ∧ reply.globalTail = LogletOffset.invalid ∧
    match reply.responder with
    | .store _ _ | .seal _ | .trim _ => reply.status = .disabled
    | .records _ | .digest _ => reply.status = .malformed
    | _ => False

/-- A reply keeps the promise of an Ok under the worker's tails when it left, and carries those
tails or the empty header. -/
structure Sent.Truthful (sent : Sent) : Prop where
  ok : sent.reply.status = .ok → sent.reply.responder.OkTruthful sent.localTail sent.globalTail
  header : sent.reply.localTail = sent.localTail ∧ sent.reply.globalTail = sent.globalTail ∨ sent.reply.EmptyHeader

theorem answer_truthful {responders : List Responder} {currentTail : TailState} {globalTail : Nat} {status : Status}
    (promised : status = .ok → ∀ responder ∈ responders, responder.OkTruthful currentTail globalTail) :
    ∀ reply ∈ answer responders currentTail globalTail status, (Sent.mk reply currentTail globalTail).Truthful := by
  intro reply member
  obtain ⟨responder, responderMember, rfl⟩ := List.mem_map.mp member
  exact ⟨fun ok => promised ok responder responderMember, .inl ⟨rfl, rfl⟩⟩

theorem complete_truthful {responder : Responder} {currentTail : TailState} {globalTail : Nat} {status : Status}
    (promised : status = .ok → responder.OkTruthful currentTail globalTail) :
    (Sent.mk (responder.complete currentTail globalTail status) currentTail globalTail).Truthful :=
  ⟨promised, .inl ⟨rfl, rfl⟩⟩

theorem onDrop_truthful {task : Responder} (currentTail : TailState) (globalTail : Nat) :
    ∀ reply ∈ task.onDrop, (Sent.mk reply currentTail globalTail).Truthful := by
  intro reply member
  cases task <;> simp only [Responder.onDrop, List.not_mem_nil, List.mem_singleton] at member <;> subst member <;>
    exact ⟨(fun disabled => nomatch disabled), .inr ⟨rfl, rfl, rfl⟩⟩

/-! ## Where a waiting responder is answered -/

/-- Each waiting responder is answered Ok truthfully once the condition of the place it waits in
holds: a seal once the tail is sealed, a local-tail waiter once the local tail reaches its target,
a global-tail waiter once the global tail does, and a local-or-global waiter once either does while
the loglet is open. -/
structure PendingWaiters.Placed (pending : PendingWaiters) : Prop where
  seals : ∀ responder ∈ pending.seals, ∀ localTail globalTail, localTail.sealed = true →
    responder.OkTruthful localTail globalTail
  localTailWaiters : ∀ entry ∈ pending.localTailWaiters.entries, ∀ localTail globalTail,
    entry.1 ≤ localTail.offset → entry.2.OkTruthful localTail globalTail
  globalTailWaiters : ∀ entry ∈ pending.globalTailWaiters.entries, ∀ localTail globalTail,
    entry.1 ≤ globalTail → entry.2.OkTruthful localTail globalTail
  localOrGlobalTailWaiters : ∀ entry ∈ pending.localOrGlobalTailWaiters.entries, ∀ localTail globalTail,
    localTail.sealed = false → entry.1 ≤ localTail.offset ∨ entry.1 ≤ globalTail →
      entry.2.OkTruthful localTail globalTail

/-- The task that travels with a command in the writer's queue: a store's with its store, at the
store's last offset, a seal's with the seal and a trim's with a trim. -/
def Responder.TaskFor : Responder → WriteCommand → Prop
  | .store _ message, .store _ last => message.lastOffset = some last
  | .seal _, .seal => True
  | .trim _, .trim _ => True
  | _, _ => False

/-! ## The RPCs answered and held -/

def rpcsOf (responders : List Responder) : Multiset Nat := ↑(responders.map Responder.rpc)

def replyRpcs (replies : List Reply) : Multiset Nat := ↑(replies.map fun reply => reply.responder.rpc)

def PendingWaiters.rpcs (pending : PendingWaiters) : Multiset Nat :=
  rpcsOf pending.seals + rpcsOf pending.localTailWaiters.values + rpcsOf pending.globalTailWaiters.values +
    rpcsOf pending.localOrGlobalTailWaiters.values

/-- The RPCs the worker holds unanswered: waiting, or with their command at the writer. -/
def ReplyingWorker.held (served : ReplyingWorker) : Multiset Nat := served.pending.rpcs + rpcsOf served.tasks

/-- The RPCs answered or held. -/
def ReplyingWorker.rpcs (served : ReplyingWorker) : Multiset Nat :=
  ↑(served.sent.map fun sent => sent.reply.responder.rpc) + served.held

@[simp] theorem rpcsOf_nil : rpcsOf [] = 0 := rfl

@[simp] theorem rpcsOf_append (first second : List Responder) :
    rpcsOf (first ++ second) = rpcsOf first + rpcsOf second := by
  simp [rpcsOf]

@[simp] theorem rpcsOf_cons (responder : Responder) (responders : List Responder) :
    rpcsOf (responder :: responders) = responder.rpc ::ₘ rpcsOf responders := rfl

@[simp] theorem rpcsOf_singleton (responder : Responder) : rpcsOf [responder] = {responder.rpc} := rfl

@[simp] theorem replyRpcs_nil : replyRpcs [] = 0 := rfl

@[simp] theorem replyRpcs_append (first second : List Reply) :
    replyRpcs (first ++ second) = replyRpcs first + replyRpcs second := by
  simp [replyRpcs]

@[simp] theorem replyRpcs_answer (responders : List Responder) (currentTail : TailState) (globalTail : Nat)
    (status : Status) : replyRpcs (answer responders currentTail globalTail status) = rpcsOf responders := by
  simp only [replyRpcs, rpcsOf, answer, List.map_map]
  rfl

@[simp] theorem replyRpcs_complete (responder : Responder) (currentTail : TailState) (globalTail : Nat)
    (status : Status) : replyRpcs [responder.complete currentTail globalTail status] = {responder.rpc} := rfl

theorem replyRpcs_onDrop (task : Responder) : replyRpcs task.onDrop ≤ {task.rpc} := by
  cases task <;> simp [Responder.onDrop, replyRpcs, Responder.complete, Responder.rpc]

theorem rpcsOf_push (queue : WaiterQueue Nat Responder) (target : Nat) (responder : Responder) :
    rpcsOf (queue.push target responder).values = responder.rpc ::ₘ rpcsOf queue.values :=
  Multiset.coe_eq_coe.mpr ((queue.values_push target responder).map Responder.rpc)

theorem rpcsOf_drainUpTo (queue : WaiterQueue Nat Responder) (threshold : Nat) :
    rpcsOf (queue.drainUpTo threshold).1 + rpcsOf (queue.drainUpTo threshold).2.values = rpcsOf queue.values := by
  rw [← rpcsOf_append, queue.drainUpTo_values]

theorem LogletOffset.next_le_of_lt {offset tail : Nat} (below : offset < tail) : LogletOffset.next offset ≤ tail := by
  unfold LogletOffset.next
  omega

/-! ## The waiters' operations -/

namespace PendingWaiters

theorem placed_empty : empty.Placed :=
  ⟨nofun, nofun, nofun, nofun⟩

section Released

variable {pending : PendingWaiters} (placed : pending.Placed) (currentTail : TailState) (globalTail : Nat)
include placed

theorem Placed.onLocalTailChange : (pending.onLocalTailChange currentTail globalTail).1.Placed := by
  unfold PendingWaiters.onLocalTailChange
  split
  · exact placed_empty
  · exact ⟨placed.seals, fun entry member => placed.localTailWaiters entry (WaiterQueue.mem_drainUpTo_rest member).1,
      placed.globalTailWaiters,
      fun entry member => placed.localOrGlobalTailWaiters entry (WaiterQueue.mem_drainUpTo_rest member).1⟩

theorem Placed.onLocalTailChange_truthful :
    ∀ reply ∈ (pending.onLocalTailChange currentTail globalTail).2, (Sent.mk reply currentTail globalTail).Truthful := by
  by_cases sealed : currentTail.sealed = true
  · simp only [PendingWaiters.onLocalTailChange, sealed, ↓reduceIte, List.mem_append]
    rintro reply (((sealAnswer | released) | released) | released)
    · exact answer_truthful (fun _ responder member => placed.seals responder member _ _ sealed) reply sealAnswer
    all_goals exact answer_truthful (fun sealedOk : Status.sealed = .ok => nomatch sealedOk) reply released
  · simp only [PendingWaiters.onLocalTailChange, sealed, Bool.false_eq_true, ↓reduceIte, List.mem_append]
    simp only [Bool.not_eq_true] at sealed
    rintro reply (released | released)
    · refine answer_truthful (fun _ responder member => ?_) reply released
      obtain ⟨target, entry, reached⟩ := WaiterQueue.mem_drainUpTo_released member
      exact placed.localTailWaiters _ entry _ _ reached
    · refine answer_truthful (fun _ responder member => ?_) reply released
      obtain ⟨target, entry, reached⟩ := WaiterQueue.mem_drainUpTo_released member
      exact placed.localOrGlobalTailWaiters _ entry _ _ sealed (.inl reached)

theorem Placed.onGlobalTailChange : (pending.onGlobalTailChange currentTail globalTail).1.Placed :=
  ⟨placed.seals, placed.localTailWaiters,
    fun entry member => placed.globalTailWaiters entry (WaiterQueue.mem_drainUpTo_rest member).1,
    fun entry member => placed.localOrGlobalTailWaiters entry (WaiterQueue.mem_drainUpTo_rest member).1⟩

theorem Placed.onGlobalTailChange_truthful :
    ∀ reply ∈ (pending.onGlobalTailChange currentTail globalTail).2, (Sent.mk reply currentTail globalTail).Truthful := by
  unfold PendingWaiters.onGlobalTailChange
  simp only [List.mem_append]
  have «open» : (if currentTail.sealed then Status.sealed else .ok) = .ok → currentTail.sealed = false := by
    cases currentTail.sealed <;> simp
  rintro reply (released | released)
  · refine answer_truthful (fun _ responder member => ?_) reply released
    obtain ⟨target, entry, reached⟩ := WaiterQueue.mem_drainUpTo_released member
    exact placed.globalTailWaiters _ entry _ _ reached
  · refine answer_truthful (fun ok responder member => ?_) reply released
    obtain ⟨target, entry, reached⟩ := WaiterQueue.mem_drainUpTo_released member
    exact placed.localOrGlobalTailWaiters _ entry _ _ («open» ok) (.inr reached)

theorem Placed.drainLocalTailWaiters (status : Status) :
    (pending.drainLocalTailWaiters currentTail globalTail status).1.Placed :=
  ⟨placed.seals, nofun, placed.globalTailWaiters, placed.localOrGlobalTailWaiters⟩

theorem Placed.drainWaitingSeal (status : Status) : (pending.drainWaitingSeal currentTail globalTail status).1.Placed :=
  ⟨nofun, placed.localTailWaiters, placed.globalTailWaiters, placed.localOrGlobalTailWaiters⟩

end Released

variable (pending : PendingWaiters) (currentTail : TailState) (globalTail : Nat)

theorem rpcs_onLocalTailChange :
    (pending.onLocalTailChange currentTail globalTail).1.rpcs + replyRpcs (pending.onLocalTailChange currentTail globalTail).2 =
      pending.rpcs := by
  unfold PendingWaiters.onLocalTailChange
  split
  · simp only [rpcs, replyRpcs_append, replyRpcs_answer, WaiterQueue.drainAll_released, WaiterQueue.drainAll_rest,
      WaiterQueue.values_empty, rpcsOf_nil, add_zero, zero_add]
  · simp only [rpcs, replyRpcs_append, replyRpcs_answer, ← rpcsOf_drainUpTo pending.localTailWaiters currentTail.offset,
      ← rpcsOf_drainUpTo pending.localOrGlobalTailWaiters currentTail.offset]
    abel

theorem rpcs_onGlobalTailChange :
    (pending.onGlobalTailChange currentTail globalTail).1.rpcs + replyRpcs (pending.onGlobalTailChange currentTail globalTail).2 =
      pending.rpcs := by
  simp only [PendingWaiters.onGlobalTailChange, rpcs, replyRpcs_append, replyRpcs_answer,
    ← rpcsOf_drainUpTo pending.globalTailWaiters globalTail, ← rpcsOf_drainUpTo pending.localOrGlobalTailWaiters globalTail]
  abel

theorem rpcs_drainLocalTailWaiters (status : Status) :
    (pending.drainLocalTailWaiters currentTail globalTail status).1.rpcs +
        replyRpcs (pending.drainLocalTailWaiters currentTail globalTail status).2 = pending.rpcs := by
  simp only [PendingWaiters.drainLocalTailWaiters, rpcs, replyRpcs_answer, WaiterQueue.drainAll_released,
    WaiterQueue.drainAll_rest, WaiterQueue.values_empty, rpcsOf_nil]
  abel

theorem rpcs_drainWaitingSeal (status : Status) :
    (pending.drainWaitingSeal currentTail globalTail status).1.rpcs +
        replyRpcs (pending.drainWaitingSeal currentTail globalTail status).2 = pending.rpcs := by
  simp only [PendingWaiters.drainWaitingSeal, rpcs, replyRpcs_answer, rpcsOf_nil]
  abel

end PendingWaiters

theorem LogletWorker.processTrim_queued (worker : LogletWorker) (knownGlobalTail trimPoint : Nat) :
    (worker.processTrim knownGlobalTail trimPoint).2.queued =
      match worker.trimOutcome knownGlobalTail trimPoint with
      | .enqueued => worker.queued ++ [.trim (min trimPoint (LogletOffset.prev worker.localTail.offset))]
      | _ => worker.queued := by
  unfold LogletWorker.processTrim LogletWorker.trimOutcome
  simp only [LogletWorker.updateGlobalTail_fst, LogletWorker.updateGlobalTail_snd]
  by_cases malformed : trimPoint < LogletOffset.oldest ∨ max (max worker.globalTail knownGlobalTail) worker.localTail.offset ≤ trimPoint
  · simp only [malformed, ↓reduceIte]
  · by_cases covered : min trimPoint (LogletOffset.prev worker.localTail.offset) ≤ worker.trimPoint
    · simp only [malformed, covered, ↓reduceIte]
    · simp only [malformed, covered, ↓reduceIte, LogletWorker.updateTrimPoint, Nat.lt_of_not_le covered,
        LogletWorker.enqueue]
      cases worker.writerActive <;> rfl

theorem Responder.TaskFor.commit_truthful {task : Responder} {command : WriteCommand} (fits : task.TaskFor command)
    {worker : LogletWorker} {rest : List WriteCommand} (queued : worker.queued = command :: rest)
    (enabled : worker.storeDisabled = false) (known : Nat) : task.OkTruthful worker.commit.localTail known := by
  cases task <;> cases command
  all_goals first | exact (fits : False).elim | skip
  case store.store message first last =>
    simp only [LogletWorker.commit, queued, enabled, Bool.false_eq_true, ↓reduceIte]
    exact ⟨last, fits, .inl (le_max_right _ _), fun _ _ => le_max_right _ _⟩
  case seal.seal => simp [LogletWorker.commit, queued, enabled, Responder.OkTruthful]
  case trim.trim => trivial

/-- The RPC ids an event brings in: the next one for each request that expects a reply. -/
def LogletEvent.received (nextRpc : Nat) : LogletEvent → Multiset Nat
  | .store _ | .seal _ | .trim _ _ | .waitForTail _ _ | .getRecords _ _ _ _ | .getDigest _ _ _ _ | .getLogletInfo _ =>
    {nextRpc}
  | _ => 0

namespace ReplyingWorker

def TasksMatch (served : ReplyingWorker) : Prop := List.Forall₂ Responder.TaskFor served.tasks served.worker.queued

/-- What one event does to the RPCs, the waiters and the tasks: every responder still waiting sits
where an Ok to it is truthful, each task matches its command, every reply sent is truthful, every
RPC answered or held was held before or came in with the event, and the known global tail only grows. -/
structure Handled (served next : ReplyingWorker) (replies : List Reply) (received : Multiset Nat) : Prop where
  placed : next.pending.Placed
  tasksMatch : next.TasksMatch
  truthful : ∀ reply ∈ replies, (Sent.mk reply next.worker.localTail next.worker.globalTail).Truthful
  held : next.held + replyRpcs replies ≤ received + served.held
  nextRpc : next.nextRpc = served.nextRpc + Multiset.card received
  fresh : received ≤ {served.nextRpc}
  globalTail : served.worker.globalTail ≤ next.worker.globalTail
  sent : next.sent = served.sent

section Handlers

variable {served : ReplyingWorker} (placed : served.pending.Placed) (tasksMatch : served.TasksMatch)
include placed tasksMatch

/-! Four ways a request's responder goes: answered at once, put to wait, sent with its command to
the writer, or dropped by a Disabled writer. -/

theorem Handled.answered {worker : LogletWorker} {reply : Reply} (rpcEq : reply.responder.rpc = served.nextRpc)
    (queued : worker.queued = served.worker.queued) (grows : served.worker.globalTail ≤ worker.globalTail)
    (truthful : (Sent.mk reply worker.localTail worker.globalTail).Truthful) :
    Handled served { served with worker, nextRpc := served.nextRpc + 1 } [reply] {served.nextRpc} := by
  refine ⟨placed, (queued ▸ tasksMatch : List.Forall₂ _ _ _), ?_, ?_, by simp, le_refl _, grows, rfl⟩
  · intro answered member
    rw [List.mem_singleton.mp member]
    exact truthful
  · show served.held + {reply.responder.rpc} ≤ _
    rw [rpcEq, add_comm]

omit placed in
theorem Handled.waiting {worker : LogletWorker} {pending : PendingWaiters} (nextPlaced : pending.Placed)
    (rpcsEq : pending.rpcs = {served.nextRpc} + served.pending.rpcs) (queued : worker.queued = served.worker.queued)
    (grows : served.worker.globalTail ≤ worker.globalTail) :
    Handled served { served with worker, pending, nextRpc := served.nextRpc + 1 } [] {served.nextRpc} := by
  refine ⟨nextPlaced, (queued ▸ tasksMatch : List.Forall₂ _ _ _), nofun, ?_, by simp, le_refl _, grows, rfl⟩
  show pending.rpcs + rpcsOf served.tasks + replyRpcs [] ≤ _ + (served.pending.rpcs + rpcsOf served.tasks)
  rw [rpcsEq, replyRpcs_nil, add_zero, add_assoc]

theorem Handled.enqueued {worker : LogletWorker} {task : Responder} {command : WriteCommand}
    (rpcEq : task.rpc = served.nextRpc) (fits : task.TaskFor command)
    (queued : worker.queued = served.worker.queued ++ [command]) (grows : served.worker.globalTail ≤ worker.globalTail) :
    Handled served { served with worker, nextRpc := served.nextRpc + 1, tasks := served.tasks ++ [task] } []
      {served.nextRpc} := by
  refine ⟨placed, ?_, nofun, ?_, by simp, le_refl _, grows, rfl⟩
  · show List.Forall₂ _ (served.tasks ++ [task]) worker.queued
    rw [queued]
    exact List.rel_append tasksMatch (List.Forall₂.cons fits List.Forall₂.nil)
  · show served.pending.rpcs + rpcsOf (served.tasks ++ [task]) + replyRpcs [] ≤ _ + (served.pending.rpcs + rpcsOf served.tasks)
    rw [rpcsOf_append, rpcsOf_singleton, replyRpcs_nil, add_zero, rpcEq]
    exact le_of_eq (by abel)

theorem Handled.dropped {worker : LogletWorker} {task : Responder} (rpcEq : task.rpc = served.nextRpc)
    (queued : worker.queued = served.worker.queued) (grows : served.worker.globalTail ≤ worker.globalTail) :
    Handled served { served with worker, nextRpc := served.nextRpc + 1 } task.onDrop {served.nextRpc} := by
  refine ⟨placed, (queued ▸ tasksMatch : List.Forall₂ _ _ _), onDrop_truthful _ _, ?_, by simp, le_refl _, grows, rfl⟩
  show served.held + replyRpcs task.onDrop ≤ _
  rw [← rpcEq]
  exact (add_le_add (le_refl _) (replyRpcs_onDrop task)).trans_eq (add_comm _ _)

omit placed in
theorem Handled.released {worker : LogletWorker} {pending : PendingWaiters} {replies : List Reply}
    (nextPlaced : pending.Placed)
    (truthful : ∀ reply ∈ replies, (Sent.mk reply worker.localTail worker.globalTail).Truthful)
    (rpcsEq : pending.rpcs + replyRpcs replies = served.pending.rpcs) (queued : worker.queued = served.worker.queued)
    (grows : served.worker.globalTail ≤ worker.globalTail) :
    Handled served { served with worker, pending } replies 0 := by
  refine ⟨nextPlaced, (queued ▸ tasksMatch : List.Forall₂ _ _ _), truthful, ?_, by simp, Multiset.zero_le _, grows, rfl⟩
  show pending.rpcs + rpcsOf served.tasks + replyRpcs replies ≤ 0 + (served.pending.rpcs + rpcsOf served.tasks)
  rw [add_right_comm, rpcsEq, zero_add]

theorem Handled.unchanged : Handled served served [] 0 :=
  Handled.released tasksMatch placed nofun (by simp) rfl le_rfl

theorem processStore_handled (store : Store) :
    Handled served (served.processStore store).1 (served.processStore store).2 {served.nextRpc} := by
  have localTailEq := LogletWorker.processStore_localTail served.worker store
  have grows : served.worker.globalTail ≤ (served.worker.processStore store).2.globalTail :=
    (LogletWorker.processStore_tails served.worker store).1 ▸ le_max_left _ _
  simp only [ReplyingWorker.processStore]
  generalize outcomeEq : (served.worker.processStore store).1 = outcome
  cases outcome with
  | replied status =>
    dsimp only
    refine Handled.answered placed tasksMatch rfl (LogletWorker.processStore_queued_of_ne (by rw [outcomeEq]; simp))
      grows ?_
    rw [localTailEq]
    refine complete_truthful fun ok => ?_
    obtain ⟨last, lastEq, below⟩ := LogletWorker.processStore_replied_ok (outcomeEq.trans (congrArg _ ok))
    exact ⟨last, lastEq, .inl (LogletOffset.next_le_of_lt below), fun _ _ => LogletOffset.next_le_of_lt below⟩
  | latched =>
    dsimp only
    obtain ⟨last, lastEq, notRepair⟩ := LogletWorker.processStore_latched outcomeEq
    refine Handled.waiting tasksMatch ⟨placed.seals, placed.localTailWaiters, placed.globalTailWaiters,
        fun entry member => ?_⟩ ?_ (LogletWorker.processStore_queued_of_ne (by rw [outcomeEq]; simp)) grows
    · rcases WaiterQueue.mem_push.mp member with rfl | waiting
      · -- the store waits for a tail past its last offset, and is answered Ok only while the loglet is open
        intro current known «open» reached
        simp only [lastEq, Option.getD_some] at reached
        exact ⟨last, lastEq, reached, fun sealed => absurd sealed (by simp [«open»])⟩
      · exact placed.localOrGlobalTailWaiters entry waiting
    · simp only [PendingWaiters.rpcs, rpcsOf_push, Responder.rpc, ← Multiset.singleton_add]
      abel
  | enqueued =>
    dsimp only
    obtain ⟨last, passed, -, queued⟩ := LogletWorker.processStore_passed outcomeEq
    exact Handled.enqueued placed tasksMatch (by rfl) (by exact passed.lastOffsetEq) queued grows
  | writerDisabled =>
    dsimp only
    exact Handled.dropped placed tasksMatch (by rfl) (LogletWorker.processStore_queued_of_ne (by rw [outcomeEq]; simp))
      grows

theorem processSeal_handled (knownGlobalTail : Nat) :
    Handled served (served.processSeal knownGlobalTail).1 (served.processSeal knownGlobalTail).2 {served.nextRpc} := by
  have localTailEq := LogletWorker.processSeal_localTail served.worker knownGlobalTail
  have grows : served.worker.globalTail ≤ (served.worker.processSeal knownGlobalTail).2.globalTail :=
    (LogletWorker.processSeal_tails served.worker knownGlobalTail).1 ▸ le_max_left _ _
  have queuedEq := LogletWorker.processSeal_queued served.worker knownGlobalTail
  simp only [ReplyingWorker.processSeal]
  generalize outcomeEq : (served.worker.processSeal knownGlobalTail).1 = outcome
  rw [outcomeEq] at queuedEq
  cases outcome with
  | replied status =>
    dsimp only
    obtain ⟨rfl, sealed⟩ := LogletWorker.processSeal_replied outcomeEq
    exact Handled.answered placed tasksMatch rfl (by simpa using queuedEq) grows
      (complete_truthful fun _ => by rw [localTailEq]; exact sealed)
  | joined =>
    dsimp only
    refine Handled.waiting tasksMatch ⟨fun responder member => ?_, placed.localTailWaiters,
      placed.globalTailWaiters, placed.localOrGlobalTailWaiters⟩ ?_ (by simpa using queuedEq) grows
    · -- the seal joins those answered Ok once the tail is sealed
      rcases List.mem_append.mp member with waiting | joining
      · exact placed.seals responder waiting
      · rw [List.mem_singleton.mp joining]
        exact fun _ _ sealed => sealed
    · simp only [PendingWaiters.rpcs, rpcsOf_append, rpcsOf_singleton, Responder.rpc]
      abel
  | enqueued =>
    dsimp only
    exact Handled.enqueued placed tasksMatch (by rfl) (show (Responder.seal _).TaskFor .seal from trivial)
      (by simpa using queuedEq) grows
  | writerDisabled =>
    dsimp only
    exact Handled.answered placed tasksMatch rfl (by simpa using queuedEq) grows
      ⟨(fun disabled => nomatch disabled), .inr ⟨rfl, rfl, rfl⟩⟩

theorem processTrim_handled (knownGlobalTail trimPoint : Nat) :
    Handled served (served.processTrim knownGlobalTail trimPoint).1 (served.processTrim knownGlobalTail trimPoint).2
      {served.nextRpc} := by
  have grows : served.worker.globalTail ≤ (served.worker.processTrim knownGlobalTail trimPoint).2.globalTail :=
    (LogletWorker.processTrim_globalTail served.worker knownGlobalTail trimPoint) ▸ le_max_left _ _
  have queuedEq := LogletWorker.processTrim_queued served.worker knownGlobalTail trimPoint
  simp only [ReplyingWorker.processTrim]
  generalize served.worker.trimOutcome knownGlobalTail trimPoint = outcome at queuedEq ⊢
  cases outcome <;> dsimp only at queuedEq ⊢
  case replied status => exact Handled.answered placed tasksMatch rfl queuedEq grows (complete_truthful fun _ => trivial)
  case enqueued => exact Handled.enqueued placed tasksMatch (by rfl) (by trivial) queuedEq grows
  case dropped => exact Handled.dropped placed tasksMatch (by rfl) queuedEq grows

theorem processWaitForTail_handled (knownGlobalTail : Nat) (query : TailUpdateQuery) :
    Handled served (served.processWaitForTail knownGlobalTail query).1 (served.processWaitForTail knownGlobalTail query).2
      {served.nextRpc} := by
  have grows := le_max_left served.worker.globalTail knownGlobalTail
  simp only [ReplyingWorker.processWaitForTail, LogletWorker.updateGlobalTail_fst]
  -- a notifier is answered Ok at once when its condition holds, else it waits where that condition is checked
  cases query <;> dsimp only
  case unknown => exact Handled.answered placed tasksMatch rfl rfl grows (complete_truthful (by simp))
  case localTail target =>
    split
    · next reached => exact Handled.answered placed tasksMatch rfl rfl grows (complete_truthful fun _ => reached)
    · refine Handled.waiting tasksMatch ⟨placed.seals, fun entry member => ?_, placed.globalTailWaiters,
        placed.localOrGlobalTailWaiters⟩ ?_ rfl grows
      · rcases WaiterQueue.mem_push.mp member with rfl | waiting
        · exact fun _ _ reached => .inl reached
        · exact placed.localTailWaiters entry waiting
      · simp only [PendingWaiters.rpcs, rpcsOf_push, Responder.rpc, ← Multiset.singleton_add]
        abel
  case globalTail target =>
    split
    · next reached => exact Handled.answered placed tasksMatch rfl rfl grows (complete_truthful fun _ => reached)
    · refine Handled.waiting tasksMatch ⟨placed.seals, placed.localTailWaiters, fun entry member => ?_,
        placed.localOrGlobalTailWaiters⟩ ?_ rfl grows
      · rcases WaiterQueue.mem_push.mp member with rfl | waiting
        · exact fun _ _ reached => .inl reached
        · exact placed.globalTailWaiters entry waiting
      · simp only [PendingWaiters.rpcs, rpcsOf_push, Responder.rpc, ← Multiset.singleton_add]
        abel
  case localOrGlobal target =>
    split
    · next reached => exact Handled.answered placed tasksMatch rfl rfl grows (complete_truthful fun _ => reached)
    · refine Handled.waiting tasksMatch ⟨placed.seals, placed.localTailWaiters, placed.globalTailWaiters,
        fun entry member => ?_⟩ ?_ rfl grows
      · rcases WaiterQueue.mem_push.mp member with rfl | waiting
        · exact fun _ _ _ reached => reached.elim .inl (.inr ∘ .inl)
        · exact placed.localOrGlobalTailWaiters entry waiting
      · simp only [PendingWaiters.rpcs, rpcsOf_push, Responder.rpc, ← Multiset.singleton_add]
        abel

theorem processRead_handled {responder : Nat → Responder} (rpcOf : ∀ rpc, (responder rpc).rpc = rpc)
    (promiseFree : ∀ rpc current known, (responder rpc).OkTruthful current known)
    (malformedEmpty : ∀ rpc, (Reply.mk (responder rpc) TailState.invalid LogletOffset.invalid .malformed).EmptyHeader)
    (knownGlobalTail fromOffset toOffset : Nat) (readFails : Bool) :
    Handled served (served.processRead responder knownGlobalTail fromOffset toOffset readFails).1
      (served.processRead responder knownGlobalTail fromOffset toOffset readFails).2 {served.nextRpc} := by
  have grows := le_max_left served.worker.globalTail knownGlobalTail
  simp only [ReplyingWorker.processRead, LogletWorker.updateGlobalTail_fst]
  split
  · exact Handled.answered placed tasksMatch (rpcOf _) rfl grows ⟨(fun malformed => nomatch malformed), .inr (malformedEmpty _)⟩
  · exact Handled.answered placed tasksMatch (rpcOf _) rfl grows (complete_truthful fun _ => promiseFree _ _ _)

theorem processGetLogletInfo_handled (knownGlobalTail : Nat) :
    Handled served (served.processGetLogletInfo knownGlobalTail).1 (served.processGetLogletInfo knownGlobalTail).2
      {served.nextRpc} := by
  simp only [ReplyingWorker.processGetLogletInfo, LogletWorker.updateGlobalTail_fst]
  exact Handled.answered placed tasksMatch rfl rfl (le_max_left _ _) (complete_truthful fun _ => trivial)

theorem onLocalTailChange_handled : Handled served served.onLocalTailChange.1 served.onLocalTailChange.2 0 := by
  obtain ⟨localTailEq, globalTailEq, queuedEq⟩ := LogletWorker.onLocalTailChange_frame served.worker
  exact Handled.released tasksMatch (placed.onLocalTailChange _ _) (placed.onLocalTailChange_truthful _ _)
    (PendingWaiters.rpcs_onLocalTailChange _ _ _) queuedEq globalTailEq.ge

theorem onGlobalTailChange_handled : Handled served served.onGlobalTailChange.1 served.onGlobalTailChange.2 0 := by
  unfold ReplyingWorker.onGlobalTailChange
  split
  · exact Handled.released tasksMatch (placed.onGlobalTailChange _ _) (placed.onGlobalTailChange_truthful _ _)
      (PendingWaiters.rpcs_onGlobalTailChange _ _ _) rfl le_rfl
  · exact Handled.unchanged placed tasksMatch

theorem onWritesDisabled_handled : Handled served served.onWritesDisabled.1 served.onWritesDisabled.2 0 := by
  unfold ReplyingWorker.onWritesDisabled
  split
  · set currentTail := served.worker.localTail
    set globalTail := served.worker.globalTail
    set globalReleased := served.pending.onGlobalTailChange currentTail globalTail
    set localReleased := globalReleased.1.onLocalTailChange currentTail globalTail
    set sealsReleased := localReleased.1.drainWaitingSeal currentTail globalTail .disabled
    have globalPlaced := placed.onGlobalTailChange currentTail globalTail
    have sealPlaced := (globalPlaced.onLocalTailChange currentTail globalTail).drainWaitingSeal currentTail globalTail .disabled
    refine Handled.released tasksMatch (sealPlaced.drainLocalTailWaiters _ _ _) ?_ ?_ rfl le_rfl
    · simp only [List.mem_append]
      rintro reply (((released | released) | released) | released)
      · exact placed.onGlobalTailChange_truthful _ _ reply released
      · exact globalPlaced.onLocalTailChange_truthful _ _ reply released
      all_goals exact answer_truthful (fun disabled : Status.disabled = .ok => nomatch disabled) reply released
    · simp only [replyRpcs_append]
      rw [← PendingWaiters.rpcs_onGlobalTailChange served.pending, ← PendingWaiters.rpcs_onLocalTailChange globalReleased.1,
        ← PendingWaiters.rpcs_drainWaitingSeal localReleased.1, ← PendingWaiters.rpcs_drainLocalTailWaiters sealsReleased.1]
      abel
  · exact Handled.unchanged placed tasksMatch

omit tasksMatch in
theorem Handled.completed {worker : LogletWorker} {task : Responder} {tasks : List Responder} {replies : List Reply}
    (tasksEq : served.tasks = task :: tasks) (restMatch : List.Forall₂ Responder.TaskFor tasks worker.queued)
    (answered : replyRpcs replies ≤ {task.rpc})
    (truthful : ∀ reply ∈ replies, (Sent.mk reply worker.localTail worker.globalTail).Truthful)
    (grows : served.worker.globalTail ≤ worker.globalTail) :
    Handled served { served with worker, tasks } replies 0 := by
  refine ⟨placed, restMatch, truthful, ?_, by simp, Multiset.zero_le _, grows, rfl⟩
  show served.pending.rpcs + rpcsOf tasks + replyRpcs replies ≤ 0 + (served.pending.rpcs + rpcsOf served.tasks)
  rw [tasksEq, rpcsOf_cons, ← Multiset.singleton_add, zero_add]
  calc served.pending.rpcs + rpcsOf tasks + replyRpcs replies
      ≤ served.pending.rpcs + rpcsOf tasks + {task.rpc} := add_le_add (le_refl _) answered
    _ = served.pending.rpcs + ({task.rpc} + rpcsOf tasks) := by abel

theorem commit_handled : Handled served served.commit.1 served.commit.2 0 := by
  have matched : List.Forall₂ Responder.TaskFor served.tasks served.worker.queued := tasksMatch
  unfold ReplyingWorker.commit
  split
  · next command rest task tasks queuedEq tasksEq enabled =>
    rw [tasksEq, queuedEq] at matched
    obtain ⟨fits, restMatch⟩ := List.forall₂_cons.mp matched
    refine Handled.completed placed tasksEq ((LogletWorker.commit_queued_of_cons queuedEq enabled).symm ▸ restMatch)
      (le_of_eq (replyRpcs_complete _ _ _ _)) (fun reply member => ?_) (LogletWorker.commit_tails _).1.ge
    rw [List.mem_singleton.mp member]
    exact complete_truthful fun _ => fits.commit_truthful queuedEq enabled _
  · next notCommitted =>
    have idle : served.worker.queued = [] ∨ served.worker.storeDisabled = true := by
      cases queuedEq : served.worker.queued with
      | nil => exact .inl rfl
      | cons command rest =>
        rw [queuedEq] at matched
        obtain ⟨task, tasks, -, -, tasksEq⟩ := List.forall₂_cons_right_iff.mp matched
        cases enabled : served.worker.storeDisabled
        · exact (notCommitted command rest task tasks queuedEq tasksEq enabled).elim
        · exact .inr rfl
    rw [LogletWorker.commit_eq_self idle]
    exact Handled.unchanged placed tasksMatch

theorem dropCommand_handled : Handled served served.dropCommand.1 served.dropCommand.2 0 := by
  have matched : List.Forall₂ Responder.TaskFor served.tasks served.worker.queued := tasksMatch
  unfold ReplyingWorker.dropCommand
  split
  · next command rest task tasks queuedEq tasksEq disabled =>
    rw [tasksEq, queuedEq] at matched
    exact Handled.completed placed tasksEq (List.forall₂_cons.mp matched).2 (replyRpcs_onDrop task)
      (onDrop_truthful _ _) le_rfl
  · exact Handled.unchanged placed tasksMatch

theorem handle_handled (event : LogletEvent) :
    Handled served (served.handle event).1 (served.handle event).2 (event.received served.nextRpc) := by
  cases event with
  | store store => exact processStore_handled placed tasksMatch store
  | «seal» knownGlobalTail => exact processSeal_handled placed tasksMatch knownGlobalTail
  | trim knownGlobalTail trimPoint => exact processTrim_handled placed tasksMatch knownGlobalTail trimPoint
  | waitForTail knownGlobalTail query => exact processWaitForTail_handled placed tasksMatch knownGlobalTail query
  | getRecords knownGlobalTail fromOffset toOffset readFails =>
    exact @processRead_handled served placed tasksMatch Responder.records (fun _ => rfl) (fun _ _ _ => trivial)
      (fun _ => ⟨rfl, rfl, rfl⟩) knownGlobalTail fromOffset toOffset readFails
  | getDigest knownGlobalTail fromOffset toOffset readFails =>
    exact @processRead_handled served placed tasksMatch Responder.digest (fun _ => rfl) (fun _ _ _ => trivial)
      (fun _ => ⟨rfl, rfl, rfl⟩) knownGlobalTail fromOffset toOffset readFails
  | getLogletInfo knownGlobalTail => exact processGetLogletInfo_handled placed tasksMatch knownGlobalTail
  | release knownGlobalTail => exact Handled.released tasksMatch placed nofun (add_zero _) (by simp) (by simp)
  | localTailChanged => exact onLocalTailChange_handled placed tasksMatch
  | globalTailChanged => exact onGlobalTailChange_handled placed tasksMatch
  | writesDisabled => exact onWritesDisabled_handled placed tasksMatch
  | commit => exact commit_handled placed tasksMatch
  | disableStore => exact Handled.released tasksMatch placed nofun (add_zero _) rfl le_rfl
  | dropCommand => exact dropCommand_handled placed tasksMatch

end Handlers

/-! ## Over every run -/

/-- What every state of a run keeps: the responders wait where an Ok to them is truthful and each
task matches its command; no RPC is answered or held twice, and every one was issued; every reply
sent is truthful, left under a known global tail no larger than the worker's now, and the replies
left under growing global tails. -/
structure Invariant (served : ReplyingWorker) : Prop where
  placed : served.pending.Placed
  tasksMatch : served.TasksMatch
  distinct : served.rpcs.Nodup
  issued : ∀ rpc ∈ served.rpcs, rpc < served.nextRpc
  truthful : ∀ sent ∈ served.sent, sent.Truthful
  reported : ∀ sent ∈ served.sent, sent.globalTail ≤ served.worker.globalTail
  ordered : served.sent.Pairwise fun earlier later => earlier.globalTail ≤ later.globalTail

@[simp] theorem rpcs_start (localTail : TailState) (trimPoint knownGlobalTail : Nat) (sequencer : Option Nat) :
    (start localTail trimPoint knownGlobalTail sequencer).rpcs = 0 := by
  simp [start, rpcs, held, PendingWaiters.rpcs, PendingWaiters.empty]

theorem invariant_start (localTail : TailState) (trimPoint knownGlobalTail : Nat) (sequencer : Option Nat) :
    (start localTail trimPoint knownGlobalTail sequencer).Invariant :=
  have noRpcs := rpcs_start localTail trimPoint knownGlobalTail sequencer
  ⟨PendingWaiters.placed_empty, List.Forall₂.nil, noRpcs ▸ Multiset.nodup_zero,
    fun rpc member => absurd (noRpcs ▸ member) (Multiset.notMem_zero rpc),
    fun _ member => absurd member List.not_mem_nil, fun _ member => absurd member List.not_mem_nil, List.Pairwise.nil⟩

theorem rpcs_log (next : ReplyingWorker) (replies : List Reply) :
    ({ next with sent := next.sent ++ replies.map fun reply => ⟨reply, next.worker.localTail, next.worker.globalTail⟩ } :
        ReplyingWorker).rpcs =
      ↑(next.sent.map fun sent => sent.reply.responder.rpc) + replyRpcs replies + next.held := by
  simp only [rpcs, held, replyRpcs, List.map_append, List.map_map, ← Multiset.coe_add]
  rfl

theorem Invariant.handled {served next : ReplyingWorker} {replies : List Reply} {received : Multiset Nat}
    (invariant : served.Invariant) (handled : Handled served next replies received) :
    Invariant
      { next with sent := next.sent ++ replies.map fun reply => ⟨reply, next.worker.localTail, next.worker.globalTail⟩ } := by
  have bound : ({ next with sent := next.sent ++ replies.map fun reply =>
      ⟨reply, next.worker.localTail, next.worker.globalTail⟩ } : ReplyingWorker).rpcs ≤ served.rpcs + received := by
    rw [rpcs_log, handled.sent, add_assoc, add_comm (replyRpcs replies)]
    calc _ ≤ ↑(served.sent.map fun sent => sent.reply.responder.rpc) + (received + served.held) :=
          add_le_add (le_refl _) handled.held
      _ = served.rpcs + received := by
          rw [rpcs]
          abel
  have fresh : ∀ rpc ∈ received, rpc = served.nextRpc := fun rpc member =>
    Multiset.mem_singleton.mp (Multiset.mem_of_le handled.fresh member)
  refine ⟨handled.placed, handled.tasksMatch, Multiset.nodup_of_le bound ?_, fun rpc member => ?_, fun sent member => ?_,
    fun sent member => ?_, ?_⟩
  · refine Multiset.nodup_add.mpr ⟨invariant.distinct, Multiset.nodup_of_le handled.fresh (Multiset.nodup_singleton _),
      Multiset.disjoint_left.mpr fun {rpc} old new => ?_⟩
    have issued := invariant.issued rpc old
    rw [fresh rpc new] at issued
    exact lt_irrefl _ issued
  · show rpc < next.nextRpc
    rw [handled.nextRpc]
    rcases Multiset.mem_add.mp (Multiset.mem_of_le bound member) with old | new
    · exact (invariant.issued rpc old).trans_le (Nat.le_add_right _ _)
    · rw [fresh rpc new]
      exact Nat.lt_add_of_pos_right (Multiset.card_pos_iff_exists_mem.mpr ⟨rpc, new⟩)
  · rcases List.mem_append.mp member with old | new
    · exact invariant.truthful sent (handled.sent ▸ old)
    · obtain ⟨reply, replied, rfl⟩ := List.mem_map.mp new
      exact handled.truthful reply replied
  · rcases List.mem_append.mp member with old | new
    · exact (invariant.reported sent (handled.sent ▸ old)).trans handled.globalTail
    · obtain ⟨reply, -, rfl⟩ := List.mem_map.mp new
      exact le_rfl
  · -- the new replies leave under the worker's global tail now, which no earlier reply exceeds
    refine List.pairwise_append.mpr ⟨handled.sent ▸ invariant.ordered, List.pairwise_map.mpr
      (List.pairwise_of_forall fun _ _ => le_rfl), fun earlier old later new => ?_⟩
    obtain ⟨reply, -, rfl⟩ := List.mem_map.mp new
    exact (invariant.reported earlier (handled.sent ▸ old)).trans handled.globalTail

theorem Invariant.step {served : ReplyingWorker} (invariant : served.Invariant) (event : LogletEvent) :
    (served.step event).Invariant :=
  invariant.handled (handle_handled invariant.placed invariant.tasksMatch event)

theorem Invariant.run {served : ReplyingWorker} (invariant : served.Invariant) :
    ∀ events, (served.run events).Invariant
  | [] => invariant
  | event :: events => (invariant.step event).run events

end ReplyingWorker

theorem Sent.Truthful.globalTail_le {earlier later : Sent} (earlierTruthful : earlier.Truthful)
    (laterTruthful : later.Truthful) (grows : earlier.globalTail ≤ later.globalTail) (filled : ¬ later.reply.EmptyHeader) :
    earlier.reply.globalTail ≤ later.reply.globalTail := by
  rcases laterTruthful.header with ⟨-, laterTail⟩ | empty
  · rw [laterTail]
    rcases earlierTruthful.header with ⟨-, earlierTail⟩ | ⟨-, invalidTail, -⟩
    · rw [earlierTail]
      exact grows
    · rw [invalidTail]
      exact Nat.zero_le _
  · exact (filled empty).elim

/-- Over every run of a loglet worker from its start: no RPC is answered twice; every reply keeps
the promise of its status under the worker's tails when it left and carries those tails, or the
empty header; and the global tails the replies report never go back, apart from the empty headers. -/
theorem replies_keep_their_promises (localTail : TailState) (trimPoint knownGlobalTail : Nat) (sequencer : Option Nat)
    (events : List LogletEvent) :
    let final := (ReplyingWorker.start localTail trimPoint knownGlobalTail sequencer).run events
    (final.sent.map fun sent => sent.reply.responder.rpc).Nodup ∧ (∀ sent ∈ final.sent, sent.Truthful) ∧
      final.sent.Pairwise fun earlier later =>
        ¬ later.reply.EmptyHeader → earlier.reply.globalTail ≤ later.reply.globalTail := by
  intro final
  have invariant : final.Invariant := (ReplyingWorker.invariant_start localTail trimPoint knownGlobalTail sequencer).run events
  refine ⟨Multiset.coe_nodup.mp (Multiset.nodup_add.mp invariant.distinct).1, invariant.truthful, ?_⟩
  exact invariant.ordered.imp_of_mem fun earlierMember laterMember grows =>
    (invariant.truthful _ earlierMember).globalTail_le (invariant.truthful _ laterMember) grows

/-- A worker that answers an info request, loses its writer and is then asked to trim keeps the
promise of both replies. -/
theorem droppedTrim_replies_keep_their_promises :
    let final := (ReplyingWorker.start ⟨5, false⟩ 0 5 none).run
      [.getLogletInfo 5, .disableStore, .writesDisabled, .trim 5 3]
    (final.sent.map fun sent => sent.reply.responder.rpc).Nodup ∧ (∀ sent ∈ final.sent, sent.Truthful) ∧
      final.sent.Pairwise fun earlier later =>
        ¬ later.reply.EmptyHeader → earlier.reply.globalTail ≤ later.reply.globalTail :=
  replies_keep_their_promises ⟨5, false⟩ 0 5 none [.getLogletInfo 5, .disableStore, .writesDisabled, .trim 5 3]

/-- A trim that the Disabled writer drops is answered Disabled with an open tail at INVALID and the
global tail INVALID, after a reply that carried the local tail 5 and the global tail 5, while the
worker's local tail is still 5. -/
theorem dropped_trim_reports_invalid_tails :
    let final := (ReplyingWorker.start ⟨5, false⟩ 0 5 none).run [.getLogletInfo 5, .disableStore, .writesDisabled, .trim 5 3]
    final.sent.map (fun sent => (sent.reply.localTail, sent.reply.globalTail, sent.reply.status)) =
        [(⟨5, false⟩, 5, .ok), (⟨0, false⟩, 0, .disabled)] ∧
      final.worker.localTail = ⟨5, false⟩ := by
  decide

end Restate
