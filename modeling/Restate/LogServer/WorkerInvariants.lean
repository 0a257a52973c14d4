import Restate.LogServer.LogletWorker

/-! What a loglet worker keeps over every run. Every store it sends to the writer is well formed
and starts at or below the offset it may accept; a store that is not a repair is sent only while
the durable local tail is unsealed; no store is sent while a seal waits in the writer's queue, so
the writer commits every store before the seal or after it is durable. The known global tail and
the trim point never go back.

The staging local tail stays at or above the durable local tail only as long as the worker reacts
to a durable seal before it handles the next store: a repair store handled in between moves the
staging local tail past the seal, and the reaction then sets it back below the store, which the
writer commits later. -/

namespace Restate

def WriteCommand.isStore : WriteCommand → Bool
  | .store _ _ => true
  | _ => false

namespace LogletWorker

/-! ## What each handler does -/

/-- The guards a store passed on its way to the writer, read on the worker as the store came in. -/
structure StorePassed (worker : LogletWorker) (store : Store) (lastOffset : Nat) : Prop where
  lastOffsetEq : store.lastOffset = some lastOffset
  nonEmpty : 0 < store.payloadCount
  valid : LogletOffset.oldest ≤ store.firstOffset
  unsealedUnlessRepair : store.ignoreSeal = true ∨ worker.localTail.sealed = false
  accepting : worker.acceptingWrites = true
  withinNextOk : store.firstOffset ≤ max worker.stagingLocalTail (max worker.globalTail store.knownGlobalTail)
  noSealInFlight : worker.sealEnqueued = false ∨ worker.localTail.sealed = true

theorem ite_ne_of_branch {p : Prop} [Decidable p] {answer rest target : β}
    (branch : p → answer ≠ target) (restDifferent : rest ≠ target) : (if p then answer else rest) ≠ target := by
  split
  · exact branch ‹p›
  · exact restDifferent

theorem storeGuards_ne_enqueued (worker : LogletWorker) (localTail : TailState) (knownGlobalTail : Nat)
    (store : Store) : worker.storeGuards localTail knownGlobalTail store ≠ .error .enqueued := by
  unfold storeGuards
  split
  · simp
  · repeat' apply ite_ne_of_branch
    all_goals first | (simp; done) | (intro _; split <;> simp)

theorem processStore_cases (worker : LogletWorker) (store : Store) :
    ((worker.processStore store).1 ≠ .enqueued ∧
      (worker.processStore store).2 = { worker with globalTail := max worker.globalTail store.knownGlobalTail }) ∨
    (∃ lastOffset sequencer, StorePassed worker store lastOffset ∧ worker.writerActive = true ∧
      (worker.processStore store).1 = .enqueued ∧
      (worker.processStore store).2 = { worker with
        globalTail := max worker.globalTail store.knownGlobalTail, knownSequencer := sequencer,
        queued := worker.queued ++ [.store store.firstOffset lastOffset],
        stagingLocalTail := max worker.stagingLocalTail (LogletOffset.next lastOffset) }) ∨
    (∃ sequencer, worker.writerActive = false ∧ (worker.processStore store).1 = .writerDisabled ∧
      (worker.processStore store).2 = { worker with
        globalTail := max worker.globalTail store.knownGlobalTail, knownSequencer := sequencer,
        acceptingWrites := false }) := by
  unfold processStore
  simp only [updateGlobalTail_fst, updateGlobalTail_snd]
  split
  · rename_i outcome failed
    exact .inl ⟨fun same => storeGuards_ne_enqueued _ _ _ _ (failed.trans (congrArg Except.error same)), rfl⟩
  · rename_i lastOffset passed
    obtain ⟨lastOffsetEq, nonEmpty, valid, unsealed, accepting, within, noSeal⟩ := storeGuards_ok passed
    have guards : StorePassed worker store lastOffset :=
      ⟨lastOffsetEq, nonEmpty, valid, unsealed, accepting, within, noSeal⟩
    let sequencer := if worker.knownSequencer.isNone then some store.sequencer else worker.knownSequencer
    unfold enqueue
    by_cases active : worker.writerActive = true
    · refine .inr (.inl ⟨lastOffset, sequencer, guards, active, ?_⟩)
      by_cases known : worker.knownSequencer.isNone = true <;> simp [known, active, sequencer]
    · refine .inr (.inr ⟨sequencer, by simpa using active, ?_, ?_⟩)
      · by_cases known : worker.knownSequencer.isNone = true <;> simp [known, active]
      by_cases known : worker.knownSequencer.isNone = true <;> simp [known, active, sequencer]

theorem processSeal_cases (worker : LogletWorker) (knownGlobalTail : Nat) :
    let raised := { worker with globalTail := max worker.globalTail knownGlobalTail }
    (worker.localTail.sealed = true ∧ (worker.processSeal knownGlobalTail).2 = { raised with sealEnqueued := false }) ∨
    (worker.localTail.sealed = false ∧ worker.sealEnqueued = true ∧ (worker.processSeal knownGlobalTail).2 = raised) ∨
    (worker.localTail.sealed = false ∧ worker.sealEnqueued = false ∧ worker.writerActive = true ∧
      (worker.processSeal knownGlobalTail).2 = { raised with queued := worker.queued ++ [.seal], sealEnqueued := true }) ∨
    (worker.localTail.sealed = false ∧ worker.sealEnqueued = false ∧ worker.writerActive = false ∧
      (worker.processSeal knownGlobalTail).2 = { raised with sealEnqueued := false }) := by
  intro raised
  unfold processSeal enqueue
  simp only [updateGlobalTail_fst]
  by_cases sealed : worker.localTail.sealed = true
  · exact .inl ⟨sealed, by simp [sealed, raised]⟩
  · simp only [Bool.not_eq_true] at sealed
    by_cases inFlight : worker.sealEnqueued = true
    · exact .inr (.inl ⟨sealed, inFlight, by simp [sealed, inFlight, raised]⟩)
    · simp only [Bool.not_eq_true] at inFlight
      cases worker.writerActive
      · exact .inr (.inr (.inr ⟨sealed, inFlight, rfl, by simp [sealed, inFlight, raised]⟩))
      · exact .inr (.inr (.inl ⟨sealed, inFlight, rfl, by simp [sealed, inFlight, raised]⟩))

theorem processTrim_cases (worker : LogletWorker) (knownGlobalTail trimPoint : Nat) :
    let raised := { worker with globalTail := max worker.globalTail knownGlobalTail }
    (worker.processTrim knownGlobalTail trimPoint).2 = raised ∨
    ∃ clipped, worker.trimPoint < clipped ∧ clipped ≤ LogletOffset.prev worker.localTail.offset ∧
      ((worker.writerActive = true ∧ (worker.processTrim knownGlobalTail trimPoint).2 =
          { raised with trimPoint := clipped, queued := worker.queued ++ [.trim clipped] }) ∨
        (worker.writerActive = false ∧
          (worker.processTrim knownGlobalTail trimPoint).2 = { raised with trimPoint := clipped })) := by
  intro raised
  unfold processTrim
  simp only [updateGlobalTail_fst, updateGlobalTail_snd]
  split
  · exact .inl rfl
  · split
    · exact .inl rfl
    · rename_i moves
      refine .inr ⟨_, Nat.lt_of_not_le moves, Nat.min_le_right _ _, ?_⟩
      simp only [updateTrimPoint, Nat.lt_of_not_le moves, ↓reduceIte, enqueue]
      cases worker.writerActive
      · exact .inr ⟨rfl, rfl⟩
      · exact .inl ⟨rfl, rfl⟩

theorem commit_cases (worker : LogletWorker) :
    worker.commit = worker ∨
    (∃ first last rest, worker.queued = .store first last :: rest ∧ worker.storeDisabled = false ∧
      worker.commit = { worker with
        localTail := worker.localTail.combine false (LogletOffset.next last), queued := rest }) ∨
    (∃ rest, worker.queued = .seal :: rest ∧ worker.storeDisabled = false ∧
      worker.commit = { worker with localTail := worker.localTail.seal, queued := rest }) ∨
    (∃ trimPoint rest, worker.queued = .trim trimPoint :: rest ∧ worker.storeDisabled = false ∧
      worker.commit = { worker with queued := rest }) := by
  cases queued : worker.queued with
  | nil => exact .inl (by simp [commit, queued])
  | cons command rest =>
    cases disabled : worker.storeDisabled
    · cases command with
      | store first last => exact .inr (.inl ⟨first, last, rest, rfl, rfl, by simp [commit, queued, disabled]⟩)
      | «seal» => exact .inr (.inr (.inl ⟨rest, rfl, rfl, by simp [commit, queued, disabled]⟩))
      | trim trimPoint => exact .inr (.inr (.inr ⟨trimPoint, rest, rfl, rfl, by simp [commit, queued, disabled]⟩))
    · exact .inl (by simp [commit, queued, disabled])

theorem processStore_passed {worker : LogletWorker} {store : Store}
    (enqueued : (worker.processStore store).1 = .enqueued) :
    ∃ lastOffset, StorePassed worker store lastOffset ∧ worker.writerActive = true ∧
      (worker.processStore store).2.queued = worker.queued ++ [.store store.firstOffset lastOffset] := by
  rcases processStore_cases worker store with ⟨answered, -⟩ | ⟨lastOffset, _, passed, active, -, sent⟩ |
      ⟨_, -, refused, -⟩
  · exact absurd enqueued answered
  · exact ⟨lastOffset, passed, active, by rw [sent]⟩
  · rw [refused] at enqueued
    cases enqueued

theorem storeGuards_replied_ok {worker : LogletWorker} {localTail : TailState} {knownGlobalTail : Nat} {store : Store}
    (answered : worker.storeGuards localTail knownGlobalTail store = .error (.replied .ok)) :
    ∃ last, store.lastOffset = some last ∧ last < localTail.offset := by
  unfold storeGuards at answered
  dsimp only at answered
  split at answered
  · simp at answered
  · rename_i last lastOffsetEq
    refine ⟨last, lastOffsetEq, ?_⟩
    refine Classical.byContradiction fun slow => ?_
    revert answered
    repeat' apply ite_ne_of_branch
    all_goals first | (simp; done) | (intro _; split <;> simp) | exact fun fast => absurd fast.2 slow

theorem storeGuards_latched {worker : LogletWorker} {localTail : TailState} {knownGlobalTail : Nat} {store : Store}
    (latched : worker.storeGuards localTail knownGlobalTail store = .error .latched) :
    ∃ last, store.lastOffset = some last ∧ store.ignoreSeal = false := by
  unfold storeGuards at latched
  dsimp only at latched
  split at latched
  · simp at latched
  · rename_i last lastOffsetEq
    refine ⟨last, lastOffsetEq, ?_⟩
    refine Bool.eq_false_iff.mpr fun repair => ?_
    revert latched
    repeat' apply ite_ne_of_branch
    all_goals first | (simp; done) | simp [repair]

theorem processStore_replied_ok {worker : LogletWorker} {store : Store}
    (answered : (worker.processStore store).1 = .replied .ok) :
    ∃ last, store.lastOffset = some last ∧ last < worker.localTail.offset := by
  unfold processStore at answered
  simp only [updateGlobalTail_fst, updateGlobalTail_snd] at answered
  split at answered
  · rename_i outcome guards
    cases answered
    exact storeGuards_replied_ok guards
  · -- a store past the guards is enqueued or refused
    split at answered <;> cases answered

theorem processStore_latched {worker : LogletWorker} {store : Store}
    (latched : (worker.processStore store).1 = .latched) :
    ∃ last, store.lastOffset = some last ∧ store.ignoreSeal = false := by
  unfold processStore at latched
  simp only [updateGlobalTail_fst, updateGlobalTail_snd] at latched
  split at latched
  · rename_i outcome guards
    cases latched
    exact storeGuards_latched guards
  · split at latched <;> cases latched

theorem processSeal_replied {worker : LogletWorker} {knownGlobalTail : Nat} {status : Status}
    (answered : (worker.processSeal knownGlobalTail).1 = .replied status) :
    status = .ok ∧ worker.localTail.sealed = true := by
  unfold processSeal at answered
  simp only [updateGlobalTail_fst] at answered
  split at answered
  · rename_i sealed
    cases answered
    exact ⟨rfl, sealed⟩
  · split at answered
    · cases answered
    · split at answered <;> cases answered

theorem processSeal_queued (worker : LogletWorker) (knownGlobalTail : Nat) :
    (worker.processSeal knownGlobalTail).2.queued =
      if (worker.processSeal knownGlobalTail).1 = .enqueued then worker.queued ++ [.seal] else worker.queued := by
  unfold processSeal enqueue
  simp only [updateGlobalTail_fst]
  split
  · rfl
  · split
    · rfl
    · cases worker.writerActive <;> rfl

/-! ## The writer's queue -/

/-- The writer is Active exactly while the worker accepts writes; a queued seal is the only one,
was sent while the local tail was unsealed and is still in flight for the worker; and from the
seal on, the queue holds no store. -/
structure QueueInvariant (worker : LogletWorker) : Prop where
  activeAccepting : worker.writerActive = worker.acceptingWrites
  sealQueued : .seal ∈ worker.queued →
    worker.localTail.sealed = false ∧ (worker.sealEnqueued = true ∨ worker.acceptingWrites = false)
  oneSeal : worker.queued.count .seal ≤ 1
  storesFirst : ∀ command ∈ worker.queued.dropWhile (· != .seal), command.isStore = false

theorem queueInvariant_start (localTail : TailState) (trimPoint knownGlobalTail : Nat) (sequencer : Option Nat) :
    QueueInvariant (start localTail trimPoint knownGlobalTail sequencer) :=
  ⟨rfl, by simp [start], by simp [start], by simp [start]⟩

theorem QueueInvariant.of_same {worker other : LogletWorker} (invariant : QueueInvariant worker)
    (queued : other.queued = worker.queued) (sealed : other.localTail.sealed = worker.localTail.sealed)
    (sealEnqueued : other.sealEnqueued = worker.sealEnqueued)
    (accepting : other.acceptingWrites = worker.acceptingWrites) (active : other.writerActive = worker.writerActive) :
    QueueInvariant other := by
  obtain ⟨activeAccepting, sealQueued, oneSeal, storesFirst⟩ := invariant
  refine ⟨by rw [active, accepting, activeAccepting], ?_, by rw [queued]; exact oneSeal, by rw [queued]; exact storesFirst⟩
  rw [queued, sealed, sealEnqueued, accepting]
  exact sealQueued

theorem QueueInvariant.no_seal_of_sealed {worker : LogletWorker} (invariant : QueueInvariant worker)
    (sealed : worker.localTail.sealed = true) : .seal ∉ worker.queued := fun queued => by
  have unsealed := (invariant.sealQueued queued).1
  rw [sealed] at unsealed
  cases unsealed

theorem QueueInvariant.no_seal {worker : LogletWorker} (invariant : QueueInvariant worker)
    (accepting : worker.acceptingWrites = true) (noSealInFlight : worker.sealEnqueued = false ∨ worker.localTail.sealed = true) :
    .seal ∉ worker.queued := by
  rcases noSealInFlight with idle | sealed
  · intro queued
    rcases (invariant.sealQueued queued).2 with inFlight | refused
    · rw [idle] at inFlight
      cases inFlight
    · rw [accepting] at refused
      cases refused
  · exact invariant.no_seal_of_sealed sealed

theorem dropWhile_append_of_no_seal {queued : List WriteCommand} (noSeal : .seal ∉ queued) (rest : List WriteCommand) :
    (queued ++ rest).dropWhile (· != .seal) = rest.dropWhile (· != .seal) :=
  List.dropWhile_append_of_pos fun command member => by
    simpa using fun same : command = .seal => noSeal (same ▸ member)

theorem QueueInvariant.append_trim {worker : LogletWorker} (invariant : QueueInvariant worker) (trimPoint : Nat) :
    ∀ command ∈ (worker.queued ++ [WriteCommand.trim trimPoint]).dropWhile (· != .seal), command.isStore = false := by
  intro command member
  rw [List.dropWhile_append] at member
  split at member
  · -- the trim is dropped with the queue before it
    simp at member
  · rcases List.mem_append.mp member with member | member
    · exact invariant.storesFirst command member
    · simp at member
      rw [member]
      rfl

theorem QueueInvariant.processStore {worker : LogletWorker} (invariant : QueueInvariant worker) (store : Store) :
    QueueInvariant (worker.processStore store).2 := by
  rcases processStore_cases worker store with ⟨-, answered⟩ | ⟨lastOffset, _, passed, -, -, sent⟩ |
      ⟨_, inactive, -, refused⟩
  · rw [answered]
    exact invariant.of_same rfl rfl rfl rfl rfl
  · -- the guards let the store through only with no seal in the queue
    have noSeal := invariant.no_seal passed.accepting passed.noSealInFlight
    rw [sent]
    refine ⟨invariant.activeAccepting, fun queued => absurd (by simpa using queued) noSeal, ?_, ?_⟩
    · simp [List.count_eq_zero.mpr noSeal]
    · rw [dropWhile_append_of_no_seal noSeal]
      simp
  · rw [refused]
    exact ⟨inactive, fun queued => ⟨(invariant.sealQueued queued).1, .inr rfl⟩, invariant.oneSeal,
      invariant.storesFirst⟩

theorem QueueInvariant.processSeal {worker : LogletWorker} (invariant : QueueInvariant worker) (knownGlobalTail : Nat) :
    QueueInvariant (worker.processSeal knownGlobalTail).2 := by
  rcases processSeal_cases worker knownGlobalTail with ⟨sealed, answered⟩ | ⟨-, -, joined⟩ |
      ⟨unsealed, idle, active, sent⟩ | ⟨-, -, inactive, refused⟩
  · rw [answered]
    exact ⟨invariant.activeAccepting, fun queued => absurd queued (invariant.no_seal_of_sealed sealed),
      invariant.oneSeal, invariant.storesFirst⟩
  · rw [joined]
    exact invariant.of_same rfl rfl rfl rfl rfl
  · -- the seal goes to a queue that holds none
    have noSeal := invariant.no_seal (invariant.activeAccepting.symm.trans active) (.inl idle)
    rw [sent]
    refine ⟨invariant.activeAccepting, fun _ => ⟨unsealed, .inl rfl⟩, ?_, ?_⟩
    · simp [List.count_eq_zero.mpr noSeal]
    · rw [dropWhile_append_of_no_seal noSeal]
      simp [WriteCommand.isStore]
  · rw [refused]
    exact ⟨invariant.activeAccepting,
      fun queued => ⟨(invariant.sealQueued queued).1, .inr (invariant.activeAccepting.symm.trans inactive)⟩,
      invariant.oneSeal, invariant.storesFirst⟩

theorem QueueInvariant.processTrim {worker : LogletWorker} (invariant : QueueInvariant worker)
    (knownGlobalTail trimPoint : Nat) : QueueInvariant (worker.processTrim knownGlobalTail trimPoint).2 := by
  rcases processTrim_cases worker knownGlobalTail trimPoint with answered | ⟨clipped, -, -, ⟨-, sent⟩ | ⟨-, dropped⟩⟩
  · rw [answered]
    exact invariant.of_same rfl rfl rfl rfl rfl
  · rw [sent]
    refine ⟨invariant.activeAccepting, fun queued => invariant.sealQueued (by simpa using queued), ?_,
      invariant.append_trim clipped⟩
    simpa using invariant.oneSeal
  · rw [dropped]
    exact invariant.of_same rfl rfl rfl rfl rfl

theorem QueueInvariant.commit {worker : LogletWorker} (invariant : QueueInvariant worker) :
    QueueInvariant worker.commit := by
  have later : ∀ {command rest}, worker.queued = command :: rest → rest.count .seal ≤ 1 ∧
      ∀ queued, queued ∈ rest → queued ∈ worker.queued := fun queued =>
    ⟨Nat.le_trans ((List.sublist_cons_self _ _).count_le _) (queued ▸ invariant.oneSeal),
      fun _ member => queued ▸ List.mem_cons_of_mem _ member⟩
  rcases commit_cases worker with same | ⟨first, last, rest, queued, -, committed⟩ | ⟨rest, queued, -, committed⟩ |
      ⟨trimPoint, rest, queued, -, committed⟩
  · rw [same]
    exact invariant
  · obtain ⟨oneSeal, kept⟩ := later queued
    have passed := invariant.storesFirst
    rw [queued] at passed
    rw [committed]
    exact ⟨invariant.activeAccepting, fun member => by simpa using invariant.sealQueued (kept _ member), oneSeal,
      by simpa using passed⟩
  · -- the committed seal was the only one, and no store stood after it
    obtain ⟨oneSeal, -⟩ := later queued
    have passed := invariant.storesFirst
    have onlySeal := invariant.oneSeal
    rw [queued] at passed onlySeal
    have noSeal : .seal ∉ rest := fun member => by
      simp at onlySeal
      exact List.count_eq_zero.mp onlySeal member
    rw [committed]
    refine ⟨invariant.activeAccepting, fun member => absurd member noSeal, oneSeal, fun command member => ?_⟩
    exact passed command (by simpa using List.mem_cons_of_mem _ (List.dropWhile_sublist _ |>.subset member))
  · obtain ⟨oneSeal, kept⟩ := later queued
    have passed := invariant.storesFirst
    rw [queued] at passed
    rw [committed]
    exact ⟨invariant.activeAccepting, fun member => invariant.sealQueued (kept _ member), oneSeal,
      by simpa using passed⟩

theorem QueueInvariant.step {worker : LogletWorker} (invariant : QueueInvariant worker) :
    ∀ event, QueueInvariant (worker.step event)
  | .store store => invariant.processStore store
  | .seal knownGlobalTail => invariant.processSeal knownGlobalTail
  | .trim knownGlobalTail trimPoint => invariant.processTrim knownGlobalTail trimPoint
  | .header _ knownGlobalTail => by
    rw [LogletWorker.step, updateGlobalTail_fst]
    exact invariant.of_same rfl rfl rfl rfl rfl
  | .localTailChanged => by
    rw [LogletWorker.step, onLocalTailChange]
    split
    · rename_i reacting
      exact ⟨invariant.activeAccepting, fun queued => absurd queued (invariant.no_seal_of_sealed reacting.1),
        invariant.oneSeal, invariant.storesFirst⟩
    · exact invariant
  | .writesDisabled => by
    rw [LogletWorker.step]
    split
    · exact ⟨rfl, fun queued => ⟨(invariant.sealQueued queued).1, .inr rfl⟩, invariant.oneSeal, invariant.storesFirst⟩
    · exact invariant
  | .commit => invariant.commit
  | .disableStore => invariant.of_same rfl rfl rfl rfl rfl

theorem QueueInvariant.run {worker : LogletWorker} (invariant : QueueInvariant worker) :
    ∀ events, QueueInvariant (worker.run events)
  | [] => invariant
  | event :: events => (invariant.step event).run events

/-! ## The staging local tail -/

/-- The worker handles a store only after it reacted to a durable seal: no store comes in while
the local tail is sealed and the seal is still enqueued for the worker. -/
def storeAfterReaction (worker : LogletWorker) : WorkerEvent → Bool
  | .store _ => !(worker.localTail.sealed && worker.sealEnqueued)
  | _ => true

/-- Every store of the run comes in after the worker reacted to a durable seal. -/
def reactsBeforeStores (worker : LogletWorker) : List WorkerEvent → Bool
  | [] => true
  | event :: events => worker.storeAfterReaction event && (worker.step event).reactsBeforeStores events

/-- The staging local tail covers the durable local tail and every store the writer will still
commit; and between a durable seal and the worker's reaction to it, the writer holds no store. -/
structure StagingInvariant (worker : LogletWorker) : Prop where
  covers : worker.localTail.offset ≤ worker.stagingLocalTail
  storesCovered : worker.storeDisabled = false → ∀ first last, .store first last ∈ worker.queued →
    LogletOffset.next last ≤ worker.stagingLocalTail
  sealedIdle : worker.storeDisabled = false → worker.localTail.sealed = true → worker.sealEnqueued = true →
    ∀ first last, .store first last ∉ worker.queued

theorem stagingInvariant_start (localTail : TailState) (trimPoint knownGlobalTail : Nat) (sequencer : Option Nat) :
    StagingInvariant (start localTail trimPoint knownGlobalTail sequencer) :=
  ⟨Nat.le_refl _, by simp [start], by simp [start]⟩

theorem StagingInvariant.of_stores {worker other : LogletWorker} (invariant : StagingInvariant worker)
    (localTail : other.localTail = worker.localTail) (staging : other.stagingLocalTail = worker.stagingLocalTail)
    (queued : ∀ first last, .store first last ∈ other.queued → .store first last ∈ worker.queued)
    (sealEnqueued : other.sealEnqueued = worker.sealEnqueued) (disabled : other.storeDisabled = worker.storeDisabled) :
    StagingInvariant other := by
  refine ⟨localTail ▸ staging ▸ invariant.covers, fun enabled first last member => ?_,
    fun enabled sealed inFlight first last member => ?_⟩
  · rw [staging]
    exact invariant.storesCovered (disabled ▸ enabled) first last (queued first last member)
  · rw [localTail] at sealed
    exact invariant.sealedIdle (disabled ▸ enabled) sealed (sealEnqueued ▸ inFlight) first last (queued first last member)

theorem StagingInvariant.of_idle {worker other : LogletWorker} (invariant : StagingInvariant worker)
    (localTail : other.localTail = worker.localTail) (staging : other.stagingLocalTail = worker.stagingLocalTail)
    (queued : ∀ first last, .store first last ∈ other.queued → .store first last ∈ worker.queued)
    (disabled : other.storeDisabled = worker.storeDisabled)
    (idle : other.sealEnqueued = true → other.localTail.sealed = false) : StagingInvariant other := by
  refine ⟨localTail ▸ staging ▸ invariant.covers, fun enabled first last member => ?_, fun _ sealed inFlight => ?_⟩
  · rw [staging]
    exact invariant.storesCovered (disabled ▸ enabled) first last (queued first last member)
  · rw [idle inFlight] at sealed
    cases sealed

theorem StagingInvariant.processStore {worker : LogletWorker} (invariant : StagingInvariant worker) (store : Store)
    (reacted : worker.storeAfterReaction (.store store) = true) : StagingInvariant (worker.processStore store).2 := by
  rcases processStore_cases worker store with ⟨-, answered⟩ | ⟨lastOffset, _, passed, -, -, sent⟩ |
      ⟨_, -, -, refused⟩
  · rw [answered]
    exact invariant.of_stores rfl rfl (fun _ _ => id) rfl rfl
  · -- the guards hold back every store while a seal is in flight, and the worker reacted to a durable one
    have idle : worker.sealEnqueued = false := by
      simp only [storeAfterReaction, Bool.not_eq_true', Bool.and_eq_false_iff] at reacted
      rcases passed.noSealInFlight with idle | sealed
      · exact idle
      · simpa [sealed] using reacted
    rw [sent]
    refine ⟨Nat.le_trans invariant.covers (Nat.le_max_left _ _), fun enabled first last member => ?_,
      fun _ _ inFlight => absurd (idle ▸ inFlight) Bool.false_ne_true⟩
    simp only [List.mem_append, List.mem_singleton, WriteCommand.store.injEq] at member
    rcases member with old | ⟨-, rfl⟩
    · exact Nat.le_trans (invariant.storesCovered enabled first last old) (Nat.le_max_left _ _)
    · exact Nat.le_max_right _ _
  · rw [refused]
    exact invariant.of_stores rfl rfl (fun _ _ => id) rfl rfl

theorem StagingInvariant.processSeal {worker : LogletWorker} (invariant : StagingInvariant worker)
    (knownGlobalTail : Nat) : StagingInvariant (worker.processSeal knownGlobalTail).2 := by
  rcases processSeal_cases worker knownGlobalTail with ⟨-, answered⟩ | ⟨-, -, joined⟩ |
      ⟨unsealed, -, -, sent⟩ | ⟨-, -, -, refused⟩
  · rw [answered]
    exact invariant.of_idle rfl rfl (fun _ _ => id) rfl (fun inFlight => nomatch inFlight)
  · rw [joined]
    exact invariant.of_stores rfl rfl (fun _ _ => id) rfl rfl
  · -- the seal is enqueued on an unsealed local tail
    rw [sent]
    exact invariant.of_idle rfl rfl (fun first last member => by simpa using member) rfl (fun _ => unsealed)
  · rw [refused]
    exact invariant.of_idle rfl rfl (fun _ _ => id) rfl (fun inFlight => nomatch inFlight)

theorem StagingInvariant.processTrim {worker : LogletWorker} (invariant : StagingInvariant worker)
    (knownGlobalTail trimPoint : Nat) : StagingInvariant (worker.processTrim knownGlobalTail trimPoint).2 := by
  rcases processTrim_cases worker knownGlobalTail trimPoint with answered | ⟨clipped, -, -, ⟨-, sent⟩ | ⟨-, dropped⟩⟩
  · rw [answered]
    exact invariant.of_stores rfl rfl (fun _ _ => id) rfl rfl
  · rw [sent]
    exact invariant.of_stores rfl rfl (fun first last member => by simpa using member) rfl rfl
  · rw [dropped]
    exact invariant.of_stores rfl rfl (fun _ _ => id) rfl rfl

theorem StagingInvariant.commit {worker : LogletWorker} (queue : QueueInvariant worker)
    (invariant : StagingInvariant worker) : StagingInvariant worker.commit := by
  rcases commit_cases worker with same | ⟨first, last, rest, queued, enabled, committed⟩ |
      ⟨rest, queued, -, committed⟩ | ⟨trimPoint, rest, queued, -, committed⟩
  · rw [same]
    exact invariant
  · -- the staging local tail covered the store the writer commits
    have covered := invariant.storesCovered enabled first last (queued ▸ List.mem_cons_self ..)
    have kept : ∀ first last, .store first last ∈ rest → .store first last ∈ worker.queued :=
      fun _ _ member => queued ▸ List.mem_cons_of_mem _ member
    rw [committed]
    refine ⟨?_, fun enabled first last member => invariant.storesCovered enabled first last (kept first last member),
      fun enabled sealed inFlight first last member =>
        invariant.sealedIdle enabled (by simpa using sealed) inFlight first last (kept first last member)⟩
    show max worker.localTail.offset (LogletOffset.next last) ≤ worker.stagingLocalTail
    exact Nat.max_le.mpr ⟨invariant.covers, covered⟩
  · -- no store stands after the seal the writer commits
    have passed := queue.storesFirst
    rw [queued] at passed
    rw [committed]
    refine ⟨invariant.covers, fun enabled first last member =>
      invariant.storesCovered enabled first last (queued ▸ List.mem_cons_of_mem _ member), fun _ _ _ first last member => ?_⟩
    have notStore := passed (.store first last) (by simp [member])
    cases notStore
  · rw [committed]
    exact invariant.of_stores rfl rfl (fun _ _ member => queued ▸ List.mem_cons_of_mem _ member) rfl rfl

theorem StagingInvariant.step {worker : LogletWorker} (queue : QueueInvariant worker)
    (invariant : StagingInvariant worker) :
    ∀ event, worker.storeAfterReaction event = true → StagingInvariant (worker.step event)
  | .store store, reacted => invariant.processStore store reacted
  | .seal knownGlobalTail, _ => invariant.processSeal knownGlobalTail
  | .trim knownGlobalTail trimPoint, _ => invariant.processTrim knownGlobalTail trimPoint
  | .header _ knownGlobalTail, _ => by
    rw [LogletWorker.step, updateGlobalTail_fst]
    exact invariant.of_stores rfl rfl (fun _ _ => id) rfl rfl
  | .localTailChanged, _ => by
    rw [LogletWorker.step, onLocalTailChange]
    split
    · -- the reaction to the durable seal, while the writer holds no store
      rename_i reacting
      obtain ⟨sealed, inFlight⟩ := reacting
      exact ⟨Nat.le_refl _, fun enabled first last member => absurd member (invariant.sealedIdle enabled sealed inFlight first last),
        fun _ _ cleared => nomatch cleared⟩
    · exact invariant
  | .writesDisabled, _ => by
    rw [LogletWorker.step]
    split
    · -- the writer commits nothing more once the log-store disabled writes
      rename_i disabling
      exact ⟨Nat.le_refl _, fun enabled => Bool.noConfusion (disabling.2.symm.trans enabled),
        fun _ _ cleared => nomatch cleared⟩
    · exact invariant
  | .commit, _ => invariant.commit queue
  | .disableStore, _ => ⟨invariant.covers, fun enabled => (nomatch enabled), fun enabled => nomatch enabled⟩

theorem StagingInvariant.run {worker : LogletWorker} (queue : QueueInvariant worker) (invariant : StagingInvariant worker) :
    ∀ events, worker.reactsBeforeStores events = true → StagingInvariant (worker.run events)
  | [], _ => invariant
  | event :: events, reacts => by
    simp only [reactsBeforeStores, Bool.and_eq_true] at reacts
    exact (invariant.step queue event reacts.1).run (queue.step event) events reacts.2

/-! ## What each store sent to the writer passed -/

theorem enqueued_store_guarded {worker : LogletWorker} (queue : QueueInvariant worker) {store : Store}
    (enqueued : (worker.processStore store).1 = .enqueued) :
    (worker.localTail.sealed = true → store.ignoreSeal = true) ∧ .seal ∉ worker.queued ∧
      (worker.sealEnqueued = true → worker.localTail.sealed = true) ∧
      0 < store.payloadCount ∧ LogletOffset.oldest ≤ store.firstOffset ∧
      store.firstOffset ≤ max worker.stagingLocalTail (max worker.globalTail store.knownGlobalTail) := by
  obtain ⟨_, passed, -, -⟩ := processStore_passed enqueued
  refine ⟨fun sealed => ?_, queue.no_seal passed.accepting passed.noSealInFlight, fun inFlight => ?_,
    passed.nonEmpty, passed.valid, passed.withinNextOk⟩
  · rcases passed.unsealedUnlessRepair with repair | unsealed
    · exact repair
    · rw [sealed] at unsealed
      cases unsealed
  · rcases passed.noSealInFlight with idle | sealed
    · rw [idle] at inFlight
      cases inFlight
    · exact sealed

/-! ## The known global tail and the trim point -/

theorem processStore_tails (worker : LogletWorker) (store : Store) :
    (worker.processStore store).2.globalTail = max worker.globalTail store.knownGlobalTail ∧
      (worker.processStore store).2.trimPoint = worker.trimPoint := by
  rcases processStore_cases worker store with ⟨-, result⟩ | ⟨_, _, -, -, -, result⟩ | ⟨_, -, -, result⟩ <;>
    rw [result] <;> exact ⟨rfl, rfl⟩

theorem processSeal_tails (worker : LogletWorker) (knownGlobalTail : Nat) :
    (worker.processSeal knownGlobalTail).2.globalTail = max worker.globalTail knownGlobalTail ∧
      (worker.processSeal knownGlobalTail).2.trimPoint = worker.trimPoint := by
  rcases processSeal_cases worker knownGlobalTail with ⟨-, result⟩ | ⟨-, -, result⟩ | ⟨-, -, -, result⟩ |
      ⟨-, -, -, result⟩ <;>
    rw [result] <;> exact ⟨rfl, rfl⟩

theorem processTrim_globalTail (worker : LogletWorker) (knownGlobalTail trimPoint : Nat) :
    (worker.processTrim knownGlobalTail trimPoint).2.globalTail = max worker.globalTail knownGlobalTail := by
  rcases processTrim_cases worker knownGlobalTail trimPoint with result | ⟨_, -, -, ⟨-, result⟩ | ⟨-, result⟩⟩ <;>
    rw [result]

theorem processStore_localTail (worker : LogletWorker) (store : Store) :
    (worker.processStore store).2.localTail = worker.localTail := by
  rcases processStore_cases worker store with ⟨-, result⟩ | ⟨_, _, -, -, -, result⟩ | ⟨_, -, -, result⟩ <;>
    rw [result]

theorem processSeal_localTail (worker : LogletWorker) (knownGlobalTail : Nat) :
    (worker.processSeal knownGlobalTail).2.localTail = worker.localTail := by
  rcases processSeal_cases worker knownGlobalTail with ⟨-, result⟩ | ⟨-, -, result⟩ | ⟨-, -, -, result⟩ |
      ⟨-, -, -, result⟩ <;>
    rw [result]

theorem processStore_queued_of_ne {worker : LogletWorker} {store : Store}
    (notEnqueued : (worker.processStore store).1 ≠ .enqueued) : (worker.processStore store).2.queued = worker.queued := by
  rcases processStore_cases worker store with ⟨-, result⟩ | ⟨_, _, -, -, enqueued, -⟩ | ⟨_, -, -, result⟩
  · rw [result]
  · exact absurd enqueued notEnqueued
  · rw [result]

theorem onLocalTailChange_frame (worker : LogletWorker) :
    worker.onLocalTailChange.localTail = worker.localTail ∧ worker.onLocalTailChange.globalTail = worker.globalTail ∧
      worker.onLocalTailChange.queued = worker.queued := by
  unfold onLocalTailChange
  split <;> exact ⟨rfl, rfl, rfl⟩

theorem commit_eq_self {worker : LogletWorker} (idle : worker.queued = [] ∨ worker.storeDisabled = true) :
    worker.commit = worker := by
  unfold commit
  rcases idle with empty | disabled
  · rw [empty]
  · split
    · rfl
    · rw [disabled]
      rfl

theorem commit_queued_of_cons {worker : LogletWorker} {command : WriteCommand} {rest : List WriteCommand}
    (queued : worker.queued = command :: rest) (enabled : worker.storeDisabled = false) : worker.commit.queued = rest := by
  unfold commit
  rw [queued, enabled]
  rfl

theorem commit_tails (worker : LogletWorker) :
    worker.commit.globalTail = worker.globalTail ∧ worker.commit.trimPoint = worker.trimPoint := by
  rcases commit_cases worker with result | ⟨_, _, _, -, -, result⟩ | ⟨_, -, -, result⟩ | ⟨_, _, -, -, result⟩ <;>
    rw [result] <;> exact ⟨rfl, rfl⟩

theorem onLocalTailChange_tails (worker : LogletWorker) :
    worker.onLocalTailChange.globalTail = worker.globalTail ∧ worker.onLocalTailChange.trimPoint = worker.trimPoint := by
  unfold onLocalTailChange
  split <;> exact ⟨rfl, rfl⟩

theorem globalTail_le_step (worker : LogletWorker) : ∀ event, worker.globalTail ≤ (worker.step event).globalTail
  | .store store => (processStore_tails worker store).1 ▸ Nat.le_max_left _ _
  | .seal knownGlobalTail => (processSeal_tails worker knownGlobalTail).1 ▸ Nat.le_max_left _ _
  | .trim knownGlobalTail trimPoint => (processTrim_globalTail worker knownGlobalTail trimPoint) ▸ Nat.le_max_left _ _
  | .header _ knownGlobalTail => by simp [LogletWorker.step]
  | .localTailChanged => Nat.le_of_eq (onLocalTailChange_tails worker).1.symm
  | .writesDisabled => by
    simp only [LogletWorker.step]
    split <;> exact Nat.le_refl _
  | .commit => Nat.le_of_eq (commit_tails worker).1.symm
  | .disableStore => Nat.le_refl _

theorem trimPoint_step (worker : LogletWorker) :
    ∀ event, (worker.step event).trimPoint = worker.trimPoint ∨
      worker.trimPoint < (worker.step event).trimPoint ∧
        (worker.step event).trimPoint ≤ LogletOffset.prev worker.localTail.offset
  | .store store => .inl (processStore_tails worker store).2
  | .seal knownGlobalTail => .inl (processSeal_tails worker knownGlobalTail).2
  | .trim knownGlobalTail trimPoint => by
    rcases processTrim_cases worker knownGlobalTail trimPoint with answered | ⟨clipped, moves, below, ⟨-, sent⟩ | ⟨-, sent⟩⟩
    · exact .inl (by rw [LogletWorker.step, answered])
    · exact .inr (by rw [LogletWorker.step, sent]; exact ⟨moves, below⟩)
    · exact .inr (by rw [LogletWorker.step, sent]; exact ⟨moves, below⟩)
  | .header _ knownGlobalTail => .inl (by simp [LogletWorker.step])
  | .localTailChanged => .inl (onLocalTailChange_tails worker).2
  | .writesDisabled => .inl (by
    simp only [LogletWorker.step]
    split <;> rfl)
  | .commit => .inl (commit_tails worker).2
  | .disableStore => .inl rfl

theorem globalTail_le_run (worker : LogletWorker) : ∀ events, worker.globalTail ≤ (worker.run events).globalTail
  | [] => Nat.le_refl _
  | event :: events => Nat.le_trans (globalTail_le_step worker event) (globalTail_le_run _ events)

theorem trimPoint_le_run (worker : LogletWorker) : ∀ events, worker.trimPoint ≤ (worker.run events).trimPoint
  | [] => Nat.le_refl _
  | event :: events => by
    have stepped : worker.trimPoint ≤ (worker.step event).trimPoint := by
      rcases trimPoint_step worker event with same | ⟨moves, -⟩
      · exact Nat.le_of_eq same.symm
      · exact Nat.le_of_lt moves
    exact Nat.le_trans stepped (trimPoint_le_run _ events)

/-! ## The race between a durable seal and a repair store -/

/-- A seal commits; a repair store from another node comes in before the worker reacts to the
durable seal and goes to the writer; the worker then reacts, and the writer commits the store. -/
def sealRace : List WorkerEvent :=
  [.seal 10, .commit,
    .store { knownGlobalTail := 10, ignoreSeal := true, sequencer := 1, peer := 2,
             firstOffset := 10, payloadCount := 5, expired := false },
    .localTailChanged, .commit]

/-- Every store a worker sends to the writer over a run passed the guards of (i) to (iii), the
known global tail and the trim point never go back, and a new trim point is clipped to the offset
before the local tail; the staging local tail stays at or above the durable local tail in every
run that reacts to a durable seal before the next store. The seal race takes the staging local
tail below the durable local tail, and a trim on an empty loglet sets the trim point to OLDEST. -/
theorem repair_store_outruns_staging_tail :
    (∀ localTail trimPoint knownGlobalTail sequencer events store,
      let worker := (start localTail trimPoint knownGlobalTail sequencer).run events
      (worker.processStore store).1 = .enqueued →
        (worker.localTail.sealed = true → store.ignoreSeal = true) ∧ .seal ∉ worker.queued ∧
          (worker.sealEnqueued = true → worker.localTail.sealed = true) ∧
          0 < store.payloadCount ∧ LogletOffset.oldest ≤ store.firstOffset ∧
          store.firstOffset ≤ max worker.stagingLocalTail (max worker.globalTail store.knownGlobalTail)) ∧
    (∀ (worker : LogletWorker) events, worker.globalTail ≤ (worker.run events).globalTail ∧
      worker.trimPoint ≤ (worker.run events).trimPoint) ∧
    (∀ (worker : LogletWorker) event, (worker.step event).trimPoint = worker.trimPoint ∨
      (worker.step event).trimPoint ≤ LogletOffset.prev worker.localTail.offset) ∧
    (∀ localTail trimPoint knownGlobalTail sequencer events,
      (start localTail trimPoint knownGlobalTail sequencer).reactsBeforeStores events = true →
        ((start localTail trimPoint knownGlobalTail sequencer).run events).localTail.offset ≤
          ((start localTail trimPoint knownGlobalTail sequencer).run events).stagingLocalTail) ∧
    ((start ⟨10, false⟩ 0 10 (some 1)).run sealRace).stagingLocalTail <
      ((start ⟨10, false⟩ 0 10 (some 1)).run sealRace).localTail.offset ∧
    max LogletOffset.oldest 1 - 1 < ((start ⟨1, false⟩ 0 0 none).run [.trim 5 3]).trimPoint := by
  refine ⟨fun localTail trimPoint knownGlobalTail sequencer events _ enqueued =>
      enqueued_store_guarded ((queueInvariant_start localTail trimPoint knownGlobalTail sequencer).run events) enqueued,
    fun worker events => ⟨globalTail_le_run worker events, trimPoint_le_run worker events⟩,
    fun worker event => (trimPoint_step worker event).imp_right And.right,
    fun localTail trimPoint knownGlobalTail sequencer events reacts =>
      ((stagingInvariant_start localTail trimPoint knownGlobalTail sequencer).run
        (queueInvariant_start localTail trimPoint knownGlobalTail sequencer) events reacts).covers,
    by decide, by decide⟩

end LogletWorker

end Restate
