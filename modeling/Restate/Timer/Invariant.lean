import Mathlib
import Restate.Timer.ServiceSpec

/-! The timer service over whole runs. In every world reachable from a new service by adding and
removing timers, polling, storage completing reads and the clock moving on, the service is in one
of its three states with what that state needs: the timer reader back and the removed timers at
hand outside a load, the batch ending at the largest of the queue and the max fired timer, the
awaited timer the smallest in memory, the pending read starting after the max fired timer. Every
timer in memory is stored, no fired timer is back in memory or above the max fired timer, and at
most the limit of timers above the max fired timer are in memory. -/

namespace Restate

namespace Timer

open DoublePriorityQueue TimerService

namespace World

variable {κ : Type} [LinearOrder κ]

theorem mem_getTimers {storage : Finset κ} {numTimers : Nat} {previousTimerKey : Option κ} {timer : κ}
    (mem : timer ∈ getTimers storage numTimers previousTimerKey) : timer ∈ storage ∧ Above previousTimerKey timer := by
  have inFiltered := mem_of_mem_popMins mem
  rw [Finset.mem_filter, all_lt_iff_above] at inFiltered
  exact inFiltered

/-- What holds of the read the service has issued while it loads. -/
def Loading (world : World κ) (removed : Finset κ) : Prop :=
  match world.service.readFuture with
  | .idle => False
  | .pending numTimers previousTimerKey =>
    previousTimerKey = world.service.maxFiredTimer ∧ numTimers = world.service.numTimersInMemoryLimit.getD usizeMax
  | .ready timers =>
    ∀ timer ∈ timers, Above world.service.maxFiredTimer timer ∧ (timer ∈ world.storage ∨ timer ∈ removed)

/-- What each state of the service needs. -/
def Phase (world : World κ) : Prop :=
  match world.service.state with
  | .idle =>
    world.service.readFuture = .idle ∧ world.service.removedTimers = some ∅ ∧ world.service.timerQueue = ∅
  | .loadTimers removedTimers =>
    world.service.removedTimers = none ∧
      ∃ removed, removedTimers = some removed ∧ Disjoint removed world.storage ∧ world.Loading removed
  | .processTimers timerBatch processTimersState =>
    world.service.readFuture = .idle ∧ world.service.removedTimers = some ∅ ∧
      timerBatch = adjustTimerBatchEnd world.service.timerQueue world.service.maxFiredTimer ∧
      ∀ timerKey, processTimersState = .awaitTimer timerKey → peekMin world.service.timerQueue = some timerKey

section Phases

variable {world : World κ}

theorem phase_idle (state : world.service.state = .idle) :
    world.Phase ↔
      world.service.readFuture = .idle ∧ world.service.removedTimers = some ∅ ∧ world.service.timerQueue = ∅ := by
  simp only [Phase, state]

theorem phase_loadTimers {removedTimers : Option (Finset κ)} (state : world.service.state = .loadTimers removedTimers) :
    world.Phase ↔ world.service.removedTimers = none ∧
      ∃ removed, removedTimers = some removed ∧ Disjoint removed world.storage ∧ world.Loading removed := by
  simp only [Phase, state]

theorem phase_processTimers {timerBatch : Option κ} {processTimersState : ProcessTimersState κ}
    (state : world.service.state = .processTimers timerBatch processTimersState) :
    world.Phase ↔ world.service.readFuture = .idle ∧ world.service.removedTimers = some ∅ ∧
      timerBatch = adjustTimerBatchEnd world.service.timerQueue world.service.maxFiredTimer ∧
      ∀ timerKey, processTimersState = .awaitTimer timerKey → peekMin world.service.timerQueue = some timerKey := by
  simp only [Phase, state]

theorem loading_pending {removed : Finset κ} {numTimers : Nat} {previousTimerKey : Option κ}
    (read : world.service.readFuture = .pending numTimers previousTimerKey) :
    world.Loading removed ↔
      previousTimerKey = world.service.maxFiredTimer ∧ numTimers = world.service.numTimersInMemoryLimit.getD usizeMax := by
  simp only [Loading, read]

theorem loading_ready {removed : Finset κ} {timers : List κ} (read : world.service.readFuture = .ready timers) :
    world.Loading removed ↔
      ∀ timer ∈ timers, Above world.service.maxFiredTimer timer ∧ (timer ∈ world.storage ∨ timer ∈ removed) := by
  simp only [Loading, read]

theorem readFuture_eq_idle (phase : world.Phase)
    (notLoading : ∀ removedTimers, world.service.state ≠ .loadTimers removedTimers) :
    world.service.readFuture = .idle := by
  cases state : world.service.state with
  | idle => exact ((phase_idle state).mp phase).1
  | loadTimers removedTimers => exact absurd state (notLoading removedTimers)
  | processTimers timerBatch processTimersState => exact ((phase_processTimers state).mp phase).1

end Phases

/-- The invariant of the service between the rounds of its loop. -/
structure Coherent (world : World κ) : Prop where
  limit : world.service.numTimersInMemoryLimit ≠ some 0
  stored : world.service.timerQueue ⊆ world.storage
  firedBelow : ∀ timer ∈ world.fired, ¬ Above world.service.maxFiredTimer timer
  firedOut : Disjoint world.fired world.service.timerQueue
  bounded : ∀ limit ∈ world.service.numTimersInMemoryLimit,
    (world.service.timerQueue.filter (Above world.service.maxFiredTimer)).card ≤ limit
  phase : world.Phase

/-- The service rests at a trigger only within one poll: it triggers and pops in the same one. -/
def Settled (service : TimerService κ) : Prop :=
  ∀ timerBatch, service.state ≠ .processTimers timerBatch .triggerTimer

/-- The invariant of the service between events. -/
structure Invariant (world : World κ) : Prop extends world.Coherent where
  settled : Settled world.service

section Frame

variable {fired queue queue' : Finset κ} {timer : κ}

theorem disjoint_erase_of_subset_insert (disjoint : Disjoint fired queue) (pushed : queue' ⊆ insert timer queue) :
    Disjoint (fired.erase timer) queue' := by
  rw [Finset.disjoint_left]
  intro other inFired inQueue
  rcases Finset.mem_insert.mp (pushed inQueue) with same | before
  · exact Finset.notMem_erase other fired (same ▸ inFired)
  · exact Finset.disjoint_left.mp disjoint (Finset.mem_of_mem_erase inFired) before

end Frame

section Changes

variable {world : World κ} {service : TimerService κ}

theorem Coherent.push (coherent : world.Coherent) {timer : κ}
    (limit : service.numTimersInMemoryLimit = world.service.numTimersInMemoryLimit)
    (maxFired : service.maxFiredTimer = world.service.maxFiredTimer)
    (pushed : service.timerQueue ⊆ insert timer world.service.timerQueue)
    (bounded : ∀ limit ∈ service.numTimersInMemoryLimit,
      (service.timerQueue.filter (Above service.maxFiredTimer)).card ≤ limit)
    (phase : Phase { world with service, storage := insert timer world.storage, fired := world.fired.erase timer }) :
    Coherent { world with service, storage := insert timer world.storage, fired := world.fired.erase timer } where
  limit := by
    show service.numTimersInMemoryLimit ≠ some 0
    rw [limit]
    exact coherent.limit
  stored := pushed.trans (Finset.insert_subset_insert _ coherent.stored)
  firedBelow := by
    intro other mem
    show ¬ Above service.maxFiredTimer other
    rw [maxFired]
    exact coherent.firedBelow other (Finset.mem_of_mem_erase mem)
  firedOut := disjoint_erase_of_subset_insert coherent.firedOut pushed
  bounded := bounded
  phase := phase

theorem Coherent.pop (coherent : world.Coherent) {key : κ}
    (limit : service.numTimersInMemoryLimit = world.service.numTimersInMemoryLimit)
    (maxFired : service.maxFiredTimer = world.service.maxFiredTimer)
    (popped : service.timerQueue ⊆ world.service.timerQueue.erase key)
    (phase : Phase { world with service, storage := world.storage.erase key, fired := world.fired.erase key }) :
    Coherent { world with service, storage := world.storage.erase key, fired := world.fired.erase key } where
  limit := by
    show service.numTimersInMemoryLimit ≠ some 0
    rw [limit]
    exact coherent.limit
  stored := popped.trans (Finset.erase_subset_erase _ coherent.stored)
  firedBelow := by
    intro other mem
    show ¬ Above service.maxFiredTimer other
    rw [maxFired]
    exact coherent.firedBelow other (Finset.mem_of_mem_erase mem)
  firedOut := Finset.disjoint_of_subset_left (Finset.erase_subset _ _)
    (Finset.disjoint_of_subset_right (popped.trans (Finset.erase_subset _ _)) coherent.firedOut)
  bounded := by
    intro bound mem
    show (service.timerQueue.filter (Above service.maxFiredTimer)).card ≤ bound
    rw [maxFired]
    exact (Finset.card_le_card (Finset.filter_subset_filter _ (popped.trans (Finset.erase_subset _ _)))).trans
      (coherent.bounded bound (limit ▸ mem))
  phase := phase

theorem Loading.push {removed : Finset κ} {timer : κ} (loading : world.Loading removed)
    (read : service.readFuture = world.service.readFuture) (limit : service.numTimersInMemoryLimit = world.service.numTimersInMemoryLimit)
    (maxFired : service.maxFiredTimer = world.service.maxFiredTimer) :
    Loading { world with service, storage := insert timer world.storage, fired := world.fired.erase timer } (removed.erase timer) := by
  cases readFuture : world.service.readFuture with
  | idle => simp [Loading, readFuture] at loading
  | pending numTimers previousTimerKey =>
    rw [loading_pending (read.trans readFuture), limit, maxFired]
    exact (loading_pending readFuture).mp loading
  | ready timers =>
    rw [loading_ready (read.trans readFuture), maxFired]
    intro other mem
    obtain ⟨above, storedOrRemoved⟩ := (loading_ready readFuture).mp loading other mem
    refine ⟨above, ?_⟩
    by_cases same : other = timer
    · exact .inl (Finset.mem_insert.mpr (.inl same))
    · rcases storedOrRemoved with inStorage | inRemoved
      · exact .inl (Finset.mem_insert_of_mem inStorage)
      · exact .inr (Finset.mem_erase.mpr ⟨same, inRemoved⟩)

theorem Loading.pop {removed : Finset κ} {key : κ} (loading : world.Loading removed)
    (read : service.readFuture = world.service.readFuture) (limit : service.numTimersInMemoryLimit = world.service.numTimersInMemoryLimit)
    (maxFired : service.maxFiredTimer = world.service.maxFiredTimer) :
    Loading { world with service, storage := world.storage.erase key, fired := world.fired.erase key } (insert key removed) := by
  cases readFuture : world.service.readFuture with
  | idle => simp [Loading, readFuture] at loading
  | pending numTimers previousTimerKey =>
    rw [loading_pending (read.trans readFuture), limit, maxFired]
    exact (loading_pending readFuture).mp loading
  | ready timers =>
    rw [loading_ready (read.trans readFuture), maxFired]
    intro other mem
    obtain ⟨above, storedOrRemoved⟩ := (loading_ready readFuture).mp loading other mem
    refine ⟨above, ?_⟩
    by_cases same : other = key
    · exact .inr (Finset.mem_insert.mpr (.inl same))
    · rcases storedOrRemoved with inStorage | inRemoved
      · exact .inl (Finset.mem_erase.mpr ⟨same, inStorage⟩)
      · exact .inr (Finset.mem_insert_of_mem inRemoved)

end Changes

section Add

variable {world : World κ}

theorem Invariant.addTimer (inv : world.Invariant) (timer : κ) :
    ∃ service, world.service.addTimer timer = some service ∧
      Invariant { world with service, storage := insert timer world.storage, fired := world.fired.erase timer } := by
  cases state : world.service.state with
  | idle =>
    obtain ⟨read, removedSome, empty⟩ := (phase_idle state).mp inv.phase
    simp only [TimerService.addTimer, state, Option.some.injEq, exists_eq_left']
    refine ⟨inv.push rfl rfl subset_rfl ?_ ?_, ?_⟩
    · intro limit mem
      have positive : limit ≠ 0 := fun zero => inv.limit (zero ▸ mem)
      rw [empty, insert_empty_eq]
      exact (Finset.card_le_card (Finset.filter_subset _ _)).trans (by simp; omega)
    · refine (phase_processTimers rfl).mpr ⟨read, removedSome, ?_, fun timerKey awaiting => by cases awaiting⟩
      simp [empty, adjustTimerBatchEnd]
    · intro timerBatch settled
      cases settled
  | loadTimers removedTimers =>
    obtain ⟨fieldNone, removed, rfl, disjoint, loading⟩ := (phase_loadTimers state).mp inv.phase
    simp only [TimerService.addTimer, state, Option.bind_eq_bind, Option.bind_some, Option.pure_def,
      Option.some.injEq, exists_eq_left']
    refine ⟨inv.push rfl rfl trimToLimit_subset trimToLimit_bound ?_, ?_⟩
    · refine (phase_loadTimers rfl).mpr ⟨fieldNone, removed.erase timer, rfl, ?_, loading.push rfl rfl rfl⟩
      exact disjoint_erase_of_subset_insert disjoint subset_rfl
    · intro timerBatch settled
      cases settled
  | processTimers timerBatch processTimersState =>
    obtain ⟨read, removedSome, batch, awaiting⟩ := (phase_processTimers state).mp inv.phase
    simp only [TimerService.addTimer, state]
    split
    case isTrue accepted =>
      simp only [Option.some.injEq, exists_eq_left']
      refine ⟨inv.push rfl rfl trimToLimit_subset trimToLimit_bound ((phase_processTimers rfl).mpr ⟨read, removedSome, ?_, ?_⟩), ?_⟩
      · -- an untrimmed push is within the batch, so the batch end stays
        split
        case isTrue => rfl
        case isFalse untrimmed =>
          rw [Bool.not_eq_true] at untrimmed
          rw [isNone_eq_false_of_not_trimmed untrimmed, Bool.false_or] at accepted
          rw [trimToLimit_of_not_trimmed untrimmed, batch] at *
          exact (adjustTimerBatchEnd_insert_of_within accepted).symm
      · -- a timer pushed before the awaited one is read next
        intro timerKey awaited
        cases processTimersState with
        | readNextTimer => cases awaited
        | triggerTimer => cases awaited
        | awaitTimer awaitedKey =>
          simp only at awaited
          split at awaited
          · cases awaited
          · rename_i notBefore
            cases awaited
            exact peekMin_trimToLimit inv.limit (peekMin_insert_of_le (awaiting timerKey rfl) (not_lt.mp notBefore))
      · intro timerBatch' triggered
        cases processTimersState with
        | readNextTimer => cases triggered
        | triggerTimer => exact inv.settled timerBatch state
        | awaitTimer awaitedKey =>
          by_cases before : timer < awaitedKey <;> simp [before] at triggered
    case isFalse =>
      simp only [Option.some.injEq, exists_eq_left']
      have phase := (@phase_processTimers κ _
        { world with storage := insert timer world.storage, fired := world.fired.erase timer } _ _ state).mpr
        ⟨read, removedSome, batch, awaiting⟩
      exact ⟨inv.push rfl rfl (Finset.subset_insert _ _) inv.bounded phase, inv.settled⟩

theorem Invariant.removeTimer (inv : world.Invariant) (key : κ) :
    ∃ service, world.service.removeTimer key = some service ∧
      Invariant { world with service, storage := world.storage.erase key, fired := world.fired.erase key } := by
  cases state : world.service.state with
  | idle =>
    obtain ⟨read, removedSome, empty⟩ := (phase_idle state).mp inv.phase
    simp only [TimerService.removeTimer, state, Option.some.injEq, exists_eq_left']
    have phase := (@phase_idle κ _
      { world with storage := world.storage.erase key, fired := world.fired.erase key } state).mpr
      ⟨read, removedSome, empty⟩
    exact ⟨inv.pop rfl rfl (by rw [empty]; exact Finset.empty_subset _) phase, inv.settled⟩
  | loadTimers removedTimers =>
    obtain ⟨fieldNone, removed, rfl, disjoint, loading⟩ := (phase_loadTimers state).mp inv.phase
    simp only [TimerService.removeTimer, state, Option.bind_eq_bind, Option.bind_some, Option.pure_def,
      Option.some.injEq, exists_eq_left']
    refine ⟨inv.pop rfl rfl subset_rfl
      ((phase_loadTimers rfl).mpr ⟨fieldNone, insert key removed, rfl, ?_, loading.pop rfl rfl rfl⟩), ?_⟩
    · rw [Finset.disjoint_insert_left]
      exact ⟨Finset.notMem_erase key _, Finset.disjoint_of_subset_right (Finset.erase_subset _ _) disjoint⟩
    · intro timerBatch settled
      cases settled
  | processTimers timerBatch processTimersState =>
    obtain ⟨read, removedSome, batch, awaiting⟩ := (phase_processTimers state).mp inv.phase
    simp only [TimerService.removeTimer, state, Option.some.injEq, exists_eq_left']
    refine ⟨inv.pop rfl rfl subset_rfl ((phase_processTimers rfl).mpr ⟨read, removedSome, ?_, ?_⟩), ?_⟩
    · -- the batch end moves only when it is the removed timer
      split
      case isTrue => rfl
      case isFalse other =>
        rw [batch] at other ⊢
        exact (adjustTimerBatchEnd_erase_of_ne other).symm
    · intro timerKey awaited
      cases processTimersState with
      | readNextTimer => cases awaited
      | triggerTimer => cases awaited
      | awaitTimer awaitedKey =>
        by_cases same : key = awaitedKey
        · simp [same] at awaited
        · simp only [same, if_false, ProcessTimersState.awaitTimer.injEq] at awaited
          subst awaited
          exact peekMin_erase_of_ne (awaiting _ rfl) same
    · intro timerBatch' triggered
      cases processTimersState with
      | readNextTimer => cases triggered
      | triggerTimer => exact inv.settled timerBatch state
      | awaitTimer awaitedKey => by_cases same : key = awaitedKey <;> simp [same] at triggered

end Add

section Fire

variable {maxFiredTimer : Option κ} {timer : κ}

theorem not_above_fired : ¬ Above (if maxFiredTimer.all (· < timer) then some timer else maxFiredTimer) timer := by
  split
  case isTrue => simp
  case isFalse below => rwa [all_lt_iff_above] at below

theorem above_of_above_fired {other : κ}
    (above : Above (if maxFiredTimer.all (· < timer) then some timer else maxFiredTimer) other) :
    Above maxFiredTimer other := by
  split at above
  case isTrue below =>
    rw [all_lt_iff_above] at below
    intro lower mem
    exact lt_trans (below lower mem) ((above_some _ _).mp above)
  case isFalse => exact above

end Fire

/-- At a trigger, the smallest timer in memory is due: the loop triggers a timer only once its
wake-up time has come. -/
def Due (wakeUpTime : κ → Nat) (world : World κ) : Prop :=
  ∀ timerBatch, world.service.state = .processTimers timerBatch .triggerTimer →
    ∃ timer, peekMin world.service.timerQueue = some timer ∧ wakeUpTime timer ≤ world.now

/-- How many more rounds the loop of `poll_next_timer` takes at most. -/
def roundsNeeded (service : TimerService κ) : Nat :=
  match service.state, service.readFuture with
  | .idle, _ => 1
  | .loadTimers _, .ready _ => 4
  | .loadTimers _, _ => 1
  | .processTimers _ .readNextTimer, _ => 3
  | .processTimers _ (.awaitTimer _), _ => 2
  | .processTimers _ .triggerTimer, _ => 1

omit [LinearOrder κ] in
theorem roundsNeeded_pos (service : TimerService κ) : 0 < roundsNeeded service := by
  unfold roundsNeeded
  split <;> decide

omit [LinearOrder κ] in
theorem roundsNeeded_le_pollRounds (service : TimerService κ) : roundsNeeded service ≤ pollRounds := by
  unfold roundsNeeded pollRounds
  split <;> decide

/-- What one round of the loop leaves. -/
def Round (wakeUpTime : κ → Nat) (world : World κ) : Turn κ → TimerService κ → Prop
  | .next, service =>
    Coherent { world with service } ∧ Due wakeUpTime { world with service } ∧
      roundsNeeded service < roundsNeeded world.service
  | .pending, service => service = world.service ∧ Settled service
  | .ready timer, service =>
    peekMin world.service.timerQueue = some timer ∧ wakeUpTime timer ≤ world.now ∧
      service.timerQueue = world.service.timerQueue.erase timer ∧
      Invariant { world with service, fired := insert timer world.fired }

section Rounds

variable {wakeUpTime : κ → Nat} {world : World κ}

theorem Coherent.within (coherent : world.Coherent) {service : TimerService κ}
    (limit : service.numTimersInMemoryLimit = world.service.numTimersInMemoryLimit)
    (maxFired : service.maxFiredTimer = world.service.maxFiredTimer)
    (queue : service.timerQueue = world.service.timerQueue) (phase : Phase { world with service }) :
    Coherent { world with service } where
  limit := by
    show service.numTimersInMemoryLimit ≠ some 0
    rw [limit]
    exact coherent.limit
  stored := by
    show service.timerQueue ⊆ world.storage
    rw [queue]
    exact coherent.stored
  firedBelow := by
    intro other mem
    show ¬ Above service.maxFiredTimer other
    rw [maxFired]
    exact coherent.firedBelow other mem
  firedOut := by
    show Disjoint world.fired service.timerQueue
    rw [queue]
    exact coherent.firedOut
  bounded := by
    intro bound mem
    show (service.timerQueue.filter (Above service.maxFiredTimer)).card ≤ bound
    rw [queue, maxFired]
    exact coherent.bounded bound (limit ▸ mem)
  phase := phase

theorem Coherent.load (coherent : world.Coherent) {removedTimers : Option (Finset κ)} {nextTimers : List κ}
    (state : world.service.state = .loadTimers removedTimers) (read : world.service.readFuture = .ready nextTimers) :
    ∃ service, pollStep wakeUpTime world.now world.service = some (.next, service) ∧
      world.Round wakeUpTime .next service := by
  obtain ⟨fieldNone, removed, rfl, disjoint, loading⟩ := (phase_loadTimers state).mp coherent.phase
  have described := (loading_ready read).mp loading
  obtain ⟨loaded, loadedEq⟩ := Option.isSome_iff_exists.mp
    (loadNextTimers_isSome coherent.limit world.service.timerQueue (nextTimers.filter (· ∉ removed)))
  have within := (loadNextTimers_subset loadedEq).2
  have fresh : ∀ timer ∈ (nextTimers.filter (· ∉ removed)).toFinset,
      timer ∈ world.storage ∧ Above world.service.maxFiredTimer timer := by
    intro timer mem
    simp only [List.mem_toFinset, List.mem_filter, decide_eq_true_eq] at mem
    obtain ⟨above, storedOrRemoved⟩ := described timer mem.1
    exact ⟨storedOrRemoved.resolve_right mem.2, above⟩
  have kept := (@trimToLimit_subset κ _ world.service.numTimersInMemoryLimit world.service.maxFiredTimer
    loaded).trans within
  have bounded := @trimToLimit_bound κ _ world.service.numTimersInMemoryLimit world.service.maxFiredTimer loaded
  simp only [pollStep, state, read, loadedEq, Option.bind_eq_bind, Option.bind_some, Option.pure_def,
    Option.some.injEq, Prod.mk.injEq, true_and, exists_eq_left']
  generalize (trimToLimit world.service.numTimersInMemoryLimit world.service.maxFiredTimer loaded).1 = trimmed
    at kept bounded ⊢
  have stored : trimmed ⊆ world.storage := by
    intro timer mem
    rcases Finset.mem_union.mp (kept mem) with inQueue | inLoaded
    · exact coherent.stored inQueue
    · exact (fresh timer inLoaded).1
  have firedOut : Disjoint world.fired trimmed := by
    rw [Finset.disjoint_left]
    intro timer inFired inTrimmed
    rcases Finset.mem_union.mp (kept inTrimmed) with inQueue | inLoaded
    · exact Finset.disjoint_left.mp coherent.firedOut inFired inQueue
    · exact coherent.firedBelow timer inFired (fresh timer inLoaded).2
  cases peeked : peekMax trimmed with
  | none =>
    refine ⟨⟨coherent.limit, stored, coherent.firedBelow, firedOut, bounded, ?_⟩, ?_, ?_⟩
    · exact (phase_idle rfl).mpr ⟨rfl, rfl, peekMax_eq_none_iff.mp peeked⟩
    · intro timerBatch triggered
      cases triggered
    · simp [roundsNeeded, state, read]
  | some largest =>
    refine ⟨⟨coherent.limit, stored, coherent.firedBelow, firedOut, bounded, ?_⟩, ?_, ?_⟩
    · refine (phase_processTimers rfl).mpr ⟨rfl, rfl, ?_, fun timerKey awaiting => by cases awaiting⟩
      simp [adjustTimerBatchEnd, peeked]
    · intro timerBatch triggered
      cases triggered
    · simp [roundsNeeded, state, read]

theorem Coherent.fire (coherent : world.Coherent) {timerBatch : Option κ} {timer : κ}
    (state : world.service.state = .processTimers timerBatch .triggerTimer)
    (peeked : peekMin world.service.timerQueue = some timer) (wokenUp : wakeUpTime timer ≤ world.now) :
    ∃ service, pollStep wakeUpTime world.now world.service = some (.ready timer, service) ∧
      world.Round wakeUpTime (.ready timer) service := by
  obtain ⟨read, removedSome, batch, -⟩ := (phase_processTimers state).mp coherent.phase
  simp only [pollStep, state, peeked, Option.some.injEq, Prod.mk.injEq, true_and, exists_eq_left']
  refine ⟨peeked, wokenUp, rfl, ⟨⟨coherent.limit, ?_, ?_, ?_, ?_, ?_⟩, ?_⟩⟩
  · exact (Finset.erase_subset _ _).trans coherent.stored
  · intro other mem
    rcases Finset.mem_insert.mp mem with rfl | inFired
    · exact not_above_fired
    · exact fun above => coherent.firedBelow other inFired (above_of_above_fired above)
  · rw [Finset.disjoint_insert_left]
    exact ⟨Finset.notMem_erase _ _, Finset.disjoint_of_subset_right (Finset.erase_subset _ _) coherent.firedOut⟩
  · -- firing only raises the max fired timer, so fewer timers are above it
    intro bound mem
    refine le_trans (Finset.card_le_card ?_) (coherent.bounded bound mem)
    intro other inside
    simp only [Finset.mem_filter] at inside ⊢
    exact ⟨Finset.mem_of_mem_erase inside.1, above_of_above_fired inside.2⟩
  · refine (phase_processTimers rfl).mpr ⟨read, removedSome, ?_, fun timerKey awaiting => by cases awaiting⟩
    rw [adjustTimerBatchEnd_fire peeked, batch]
  · intro timerBatch' triggered
    cases triggered

theorem Coherent.pollStep (coherent : world.Coherent) (due : world.Due wakeUpTime) :
    ∃ turn service, pollStep wakeUpTime world.now world.service = some (turn, service) ∧
      world.Round wakeUpTime turn service := by
  cases state : world.service.state with
  | idle =>
    refine ⟨.pending, world.service, by simp [TimerService.pollStep, state], rfl, ?_⟩
    intro timerBatch triggered
    rw [state] at triggered
    cases triggered
  | loadTimers removedTimers =>
    cases read : world.service.readFuture with
    | ready nextTimers =>
      obtain ⟨service, stepped, round⟩ := coherent.load state read
      exact ⟨.next, service, stepped, round⟩
    | idle | pending =>
      refine ⟨.pending, world.service, by simp [TimerService.pollStep, state, read], rfl, ?_⟩
      intro timerBatch triggered
      rw [state] at triggered
      cases triggered
  | processTimers timerBatch processTimersState =>
    obtain ⟨read, removedSome, batch, awaiting⟩ := (phase_processTimers state).mp coherent.phase
    cases processTimersState with
    | readNextTimer =>
      cases peeked : peekMin world.service.timerQueue with
      | some timerKey =>
        by_cases past : wakeUpTime timerKey < world.now
        · -- no sleep for a past timer: it is triggered
          refine ⟨.next, { world.service with state := .processTimers timerBatch .triggerTimer },
            by simp [TimerService.pollStep, state, peeked, past], ?_⟩
          refine ⟨coherent.within rfl rfl rfl
            ((phase_processTimers rfl).mpr ⟨read, removedSome, batch, fun timerKey' awaiting => by cases awaiting⟩), ?_, ?_⟩
          · intro timerBatch' triggered
            cases triggered
            exact ⟨timerKey, peeked, le_of_lt past⟩
          · simp [roundsNeeded, state]
        · refine ⟨.next, { world.service with state := .processTimers timerBatch (.awaitTimer timerKey) },
            by simp [TimerService.pollStep, state, peeked, past], ?_⟩
          refine ⟨coherent.within rfl rfl rfl ((phase_processTimers rfl).mpr ⟨read, removedSome, batch, ?_⟩), ?_, ?_⟩
          · intro timerKey' awaiting
            cases awaiting
            exact peeked
          · intro timerBatch' triggered
            cases triggered
          · simp [roundsNeeded, state]
      | none =>
        -- the batch is done: the assert holds, and the next read starts after the batch end
        have ended : world.service.maxFiredTimer = timerBatch := by
          rw [batch, peekMin_eq_none_iff.mp peeked, adjustTimerBatchEnd_empty]
        refine ⟨.next, { world.service with
            readFuture := .pending (world.service.numTimersInMemoryLimit.getD usizeMax) timerBatch
            removedTimers := none
            state := .loadTimers world.service.removedTimers },
          by simp [TimerService.pollStep, state, peeked, ended, read], ?_⟩
        refine ⟨coherent.within rfl rfl rfl ((phase_loadTimers rfl).mpr
          ⟨rfl, ∅, removedSome, Finset.disjoint_empty_left _, (loading_pending rfl).mpr ⟨ended.symm, rfl⟩⟩), ?_, ?_⟩
        · intro timerBatch' triggered
          cases triggered
        · simp [roundsNeeded, state]
    | awaitTimer timerKey =>
      by_cases wokenUp : wakeUpTime timerKey ≤ world.now
      · refine ⟨.next, { world.service with state := .processTimers timerBatch .triggerTimer },
          by simp [TimerService.pollStep, state, wokenUp], ?_⟩
        refine ⟨coherent.within rfl rfl rfl
          ((phase_processTimers rfl).mpr ⟨read, removedSome, batch, fun timerKey' awaiting => by cases awaiting⟩), ?_, ?_⟩
        · intro timerBatch' triggered
          cases triggered
          exact ⟨timerKey, awaiting timerKey rfl, wokenUp⟩
        · simp [roundsNeeded, state]
      · refine ⟨.pending, world.service, by simp [TimerService.pollStep, state, wokenUp], rfl, ?_⟩
        intro timerBatch' triggered
        rw [state] at triggered
        cases triggered
    | triggerTimer =>
      obtain ⟨timer, peeked, wokenUp⟩ := due timerBatch state
      obtain ⟨service, stepped, round⟩ := coherent.fire state peeked wokenUp
      exact ⟨.ready timer, service, stepped, round⟩

end Rounds

/-- What a poll leaves: the timer it fires is stored, due, not fired before and no later than any
timer left in memory; and the invariant holds, with that timer fired. -/
def Polled (wakeUpTime : κ → Nat) (world : World κ) : Option κ → TimerService κ → Prop
  | none, service => Invariant { world with service }
  | some timer, service =>
    timer ∈ world.storage ∧ timer ∉ world.fired ∧ wakeUpTime timer ≤ world.now ∧
      (∀ other ∈ service.timerQueue, timer ≤ other) ∧ Invariant { world with service, fired := insert timer world.fired }

section Poll

variable {wakeUpTime : κ → Nat}

theorem Coherent.pollLoop (rounds : Nat) {world : World κ} (coherent : world.Coherent) (due : world.Due wakeUpTime)
    (enough : roundsNeeded world.service ≤ rounds) :
    ∃ timer service, pollLoop wakeUpTime world.now rounds world.service = some (timer, service) ∧
      world.Polled wakeUpTime timer service := by
  induction rounds generalizing world with
  | zero => exact absurd enough (Nat.not_le.mpr (roundsNeeded_pos _))
  | succ rounds ih =>
    obtain ⟨turn, service, stepped, round⟩ := coherent.pollStep due
    simp only [TimerService.pollLoop, stepped, Option.bind_eq_bind, Option.bind_some]
    cases turn with
    | ready timer =>
      obtain ⟨peeked, wokenUp, popped, inv⟩ := round
      refine ⟨some timer, service, rfl, coherent.stored (mem_of_peekMin peeked), ?_, wokenUp, ?_, inv⟩
      · exact fun fired => Finset.disjoint_left.mp coherent.firedOut fired (mem_of_peekMin peeked)
      · intro other mem
        rw [popped] at mem
        exact le_of_peekMin peeked (Finset.mem_of_mem_erase mem)
    | pending =>
      obtain ⟨rfl, settled⟩ := round
      exact ⟨none, world.service, rfl, coherent, settled⟩
    | next =>
      obtain ⟨coherent', due', fewer⟩ := round
      exact ih coherent' due' (show roundsNeeded service ≤ rounds by omega)

variable {world : World κ}

theorem Invariant.pollNextTimer (inv : world.Invariant) :
    ∃ timer service, TimerService.pollNextTimer wakeUpTime world.now world.service = some (timer, service) ∧
      world.Polled wakeUpTime timer service := by
  refine inv.pollLoop pollRounds ?_ (roundsNeeded_le_pollRounds _)
  intro timerBatch triggered
  exact absurd triggered (inv.settled timerBatch)

theorem Coherent.pollLoop_keeps (P : World κ → Prop)
    (next : ∀ {world : World κ} {service : TimerService κ}, world.Coherent → P world →
      TimerService.pollStep wakeUpTime world.now world.service = some (.next, service) → P { world with service })
    (ready : ∀ {world : World κ} {service : TimerService κ} {timer : κ}, world.Coherent → P world →
      TimerService.pollStep wakeUpTime world.now world.service = some (.ready timer, service) →
      P { world with service, fired := insert timer world.fired })
    (rounds : Nat) {world : World κ} (coherent : world.Coherent) (due : world.Due wakeUpTime) (holds : P world)
    {timer : Option κ} {service : TimerService κ}
    (looped : TimerService.pollLoop wakeUpTime world.now rounds world.service = some (timer, service)) :
    P { world with service, fired := timer.elim world.fired (insert · world.fired) } := by
  induction rounds generalizing world with
  | zero => cases looped
  | succ rounds ih =>
    obtain ⟨turn, service', stepped, round⟩ := coherent.pollStep due
    simp only [TimerService.pollLoop, stepped, Option.bind_eq_bind, Option.bind_some] at looped
    cases turn with
    | ready fired =>
      simp only [Option.pure_def, Option.some.injEq, Prod.mk.injEq] at looped
      obtain ⟨rfl, rfl⟩ := looped
      exact ready coherent holds stepped
    | pending =>
      simp only [Option.pure_def, Option.some.injEq, Prod.mk.injEq] at looped
      obtain ⟨rfl, rfl⟩ := looped
      obtain ⟨rfl, -⟩ := round
      exact holds
    | next =>
      obtain ⟨coherent', due', -⟩ := round
      exact @ih { world with service := service' } coherent' due' (next coherent holds stepped) looped

theorem Coherent.loading (coherent : world.Coherent) (inFlight : world.service.readFuture ≠ .idle) :
    ∃ removed, world.service.state = .loadTimers (some removed) ∧ world.service.removedTimers = none ∧
      Disjoint removed world.storage ∧ world.Loading removed := by
  cases state : world.service.state with
  | idle => exact absurd ((phase_idle state).mp coherent.phase).1 inFlight
  | processTimers timerBatch processTimersState =>
    exact absurd ((phase_processTimers state).mp coherent.phase).1 inFlight
  | loadTimers removedTimers =>
    obtain ⟨fieldNone, removed, rfl, disjoint, loading⟩ := (phase_loadTimers state).mp coherent.phase
    exact ⟨removed, rfl, fieldNone, disjoint, loading⟩

theorem Invariant.completeRead (inv : world.Invariant) {after : World κ} {timer : Option κ}
    (stepped : world.step wakeUpTime .completeRead = some (after, timer)) : after.Invariant := by
  simp only [World.step] at stepped
  split at stepped
  case h_1 numTimers previousTimerKey read =>
    cases stepped
    -- only a load has a read in flight
    cases state : world.service.state with
    | idle => simp [((phase_idle state).mp inv.phase).1] at read
    | processTimers timerBatch processTimersState => simp [((phase_processTimers state).mp inv.phase).1] at read
    | loadTimers removedTimers =>
      obtain ⟨fieldNone, removed, rfl, disjoint, loading⟩ := (phase_loadTimers state).mp inv.phase
      obtain ⟨started, -⟩ := (loading_pending read).mp loading
      refine ⟨inv.within rfl rfl rfl ((phase_loadTimers rfl).mpr ⟨fieldNone, removed, rfl, disjoint, ?_⟩), ?_⟩
      · show ∀ other ∈ getTimers world.storage numTimers previousTimerKey,
          Above world.service.maxFiredTimer other ∧ (other ∈ world.storage ∨ other ∈ removed)
        intro other mem
        obtain ⟨stored, above⟩ := mem_getTimers mem
        exact ⟨started ▸ above, .inl stored⟩
      · intro timerBatch triggered
        cases triggered
  case h_2 => cases stepped

end Poll

section Runs

variable {wakeUpTime : κ → Nat}

/-- What the partition processor's storage ensures: it never holds `usize::MAX` timers, so that a
read without a limit returns every timer after its start. -/
def Proper (world : World κ) : Event κ → Prop
  | .addTimer timer => (insert timer world.storage).card < usizeMax
  | _ => True

/-- The worlds a new service reaches, with a limit of at least one timer as `new` asserts. -/
inductive Reachable (wakeUpTime : κ → Nat) : World κ → Prop
  | init (numTimersInMemoryLimit : Option Nat) (storage : Finset κ) (now : Nat)
      (limit : numTimersInMemoryLimit ≠ some 0) (bounded : storage.card < usizeMax) :
      Reachable wakeUpTime { service := TimerService.new numTimersInMemoryLimit, storage, now, fired := ∅ }
  | step {world after : World κ} {event : Event κ} {timer : Option κ} :
      Reachable wakeUpTime world → world.Proper event → world.step wakeUpTime event = some (after, timer) →
      Reachable wakeUpTime after

theorem invariant_new (numTimersInMemoryLimit : Option Nat) (storage : Finset κ) (now : Nat)
    (limit : numTimersInMemoryLimit ≠ some 0) :
    Invariant { service := TimerService.new numTimersInMemoryLimit, storage, now, fired := ∅ } where
  limit := limit
  stored := Finset.empty_subset _
  firedBelow := by simp
  firedOut := Finset.disjoint_empty_left _
  bounded := by
    intro bound _
    exact Nat.zero_le _
  phase := (phase_loadTimers rfl).mpr ⟨rfl, ∅, rfl, Finset.disjoint_empty_left _, (loading_pending rfl).mpr ⟨rfl, rfl⟩⟩
  settled := by
    intro timerBatch triggered
    cases triggered

variable {world after : World κ} {event : Event κ} {timer : Option κ}

theorem Invariant.step (inv : world.Invariant) (stepped : world.step wakeUpTime event = some (after, timer)) :
    after.Invariant := by
  cases event with
  | addTimer added =>
    obtain ⟨service, addedEq, inv'⟩ := inv.addTimer added
    simp only [World.step, addedEq, Option.map_some, Option.some.injEq, Prod.mk.injEq] at stepped
    obtain ⟨rfl, -⟩ := stepped
    exact inv'
  | removeTimer key =>
    obtain ⟨service, removedEq, inv'⟩ := inv.removeTimer key
    simp only [World.step, removedEq, Option.map_some, Option.some.injEq, Prod.mk.injEq] at stepped
    obtain ⟨rfl, -⟩ := stepped
    exact inv'
  | pollNextTimer =>
    obtain ⟨fired, service, polledEq, polled⟩ := @Invariant.pollNextTimer κ _ wakeUpTime world inv
    simp only [World.step, polledEq, Option.map_some, Option.some.injEq, Prod.mk.injEq] at stepped
    obtain ⟨rfl, -⟩ := stepped
    cases fired with
    | none => exact polled
    | some firedTimer => exact polled.2.2.2.2
  | completeRead => exact inv.completeRead stepped
  | advanceClock time =>
    simp only [World.step] at stepped
    split at stepped
    · -- the invariant does not look at the clock
      cases stepped
      exact ⟨⟨inv.limit, inv.stored, inv.firedBelow, inv.firedOut, inv.bounded, inv.phase⟩, inv.settled⟩
    · cases stepped

theorem Invariant.step_limit (inv : world.Invariant) (stepped : world.step wakeUpTime event = some (after, timer)) :
    after.service.numTimersInMemoryLimit = world.service.numTimersInMemoryLimit := by
  cases event with
  | addTimer added =>
    obtain ⟨service, addedEq, outcome⟩ := Option.map_eq_some_iff.mp stepped
    cases outcome
    exact (addTimer_frame addedEq).1
  | removeTimer key =>
    obtain ⟨service, removedEq, outcome⟩ := Option.map_eq_some_iff.mp stepped
    cases outcome
    exact (removeTimer_frame removedEq).1
  | pollNextTimer =>
    obtain ⟨⟨fired, service⟩, polledEq, outcome⟩ := Option.map_eq_some_iff.mp stepped
    cases outcome
    exact inv.pollLoop_keeps (fun world' => world'.service.numTimersInMemoryLimit = world.service.numTimersInMemoryLimit)
      (fun _ kept stepped' => (pollStep_next stepped').1.trans kept)
      (fun _ kept stepped' => (pollStep_ready stepped').2.2.2.1.trans kept)
      pollRounds (fun timerBatch triggered => absurd triggered (inv.settled timerBatch)) rfl polledEq
  | completeRead =>
    simp only [World.step] at stepped
    split at stepped
    · cases stepped
      rfl
    · cases stepped
  | advanceClock time =>
    simp only [World.step] at stepped
    split at stepped
    · cases stepped
      rfl
    · cases stepped

theorem Reachable.invariant (reachable : Reachable wakeUpTime world) : world.Invariant := by
  induction reachable with
  | init numTimersInMemoryLimit storage now limit => exact invariant_new numTimersInMemoryLimit storage now limit
  | step _ _ stepped inv => exact inv.step stepped

instance (world : World κ) : (event : Event κ) → Decidable (world.Proper event)
  | .addTimer timer => inferInstanceAs (Decidable ((insert timer world.storage).card < usizeMax))
  | .removeTimer _ | .pollNextTimer | .completeRead | .advanceClock _ => inferInstanceAs (Decidable True)

/-- Every event of a run is proper where it is given. -/
def properRun (wakeUpTime : κ → Nat) (world : World κ) : List (Event κ) → Bool
  | [] => true
  | event :: events =>
    decide (world.Proper event) &&
      match world.step wakeUpTime event with
      | some (after, _) => properRun wakeUpTime after events
      | none => true

theorem Reachable.run (reachable : Reachable wakeUpTime world) {events : List (Event κ)} {final : World κ}
    (proper : properRun wakeUpTime world events = true) (ran : (run wakeUpTime world events).map Prod.fst = some final) :
    Reachable wakeUpTime final := by
  induction events generalizing world with
  | nil =>
    simp only [World.run, Option.map_some, Option.some.injEq] at ran
    exact ran ▸ reachable
  | cons event events ih =>
    simp only [properRun, Bool.and_eq_true, decide_eq_true_eq] at proper
    obtain ⟨properEvent, rest⟩ := proper
    cases stepped : world.step wakeUpTime event with
    | none => simp [World.run, stepped] at ran
    | some result =>
      obtain ⟨after, timer⟩ := result
      rw [stepped] at rest
      apply ih (reachable.step properEvent stepped) rest
      simp only [World.run, stepped, Option.bind_eq_bind, Option.bind_some] at ran
      cases later : run wakeUpTime after events with
      | none => simp [later] at ran
      | some outcome => simpa [later] using ran

end Runs

end World

end Timer

end Restate
