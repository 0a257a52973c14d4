import Mathlib
import Restate.Timer.Service

/-! What each helper of the timer service computes: the batch end is the largest of the queue and
the max fired timer, the trim pops only timers above every kept one and the max fired timer and
leaves no more than its target above that, and the load adds loaded timers to the queue. -/

namespace Restate

namespace Timer

open DoublePriorityQueue

variable {κ : Type} [LinearOrder κ]

/-- A key above an optional bound, none lying below every key: what the service's
`map(..).unwrap_or(true)` tests on the max fired timer. -/
def Above (bound : Option κ) (key : κ) : Prop := ∀ lower ∈ bound, lower < key

instance (bound : Option κ) : DecidablePred (Above bound) :=
  fun key => inferInstanceAs (Decidable (∀ lower ∈ bound, lower < key))

@[simp]
theorem above_none (key : κ) : Above none key := by simp [Above]

@[simp]
theorem above_some (lower key : κ) : Above (some lower) key ↔ lower < key := by simp [Above]

theorem all_lt_iff_above (bound : Option κ) (key : κ) : bound.all (· < key) = true ↔ Above bound key := by
  cases bound <;> simp

theorem not_above_iff {bound : Option κ} {key : κ} : ¬ Above bound key ↔ ∃ upper ∈ bound, key ≤ upper := by
  cases bound <;> simp

namespace TimerService

section MaxTimerKey

theorem maxTimerKey_eq_max (timerKey : κ) (maxFiredTimer : Option κ) :
    maxTimerKey timerKey maxFiredTimer = maxFiredTimer.elim timerKey (max timerKey) := by
  cases maxFiredTimer with
  | none => rfl
  | some maxFired =>
    simp only [maxTimerKey]
    split
    case isTrue below => exact (max_eq_right (le_of_lt below)).symm
    case isFalse above => exact (max_eq_left (not_lt.mp above)).symm

end MaxTimerKey

section BatchEnd

theorem adjustTimerBatchEnd_eq_peekMax (timerQueue : Finset κ) (maxFiredTimer : Option κ) :
    adjustTimerBatchEnd timerQueue maxFiredTimer = peekMax (timerQueue ∪ maxFiredTimer.toFinset) := by
  unfold adjustTimerBatchEnd
  cases peeked : peekMax timerQueue with
  | none =>
    rw [peekMax_eq_none_iff.mp peeked, Finset.empty_union]
    cases maxFiredTimer with
    | none => simp
    | some maxFired => simp
  | some largest =>
    symm
    rw [peekMax_eq_some_iff, maxTimerKey_eq_max]
    cases maxFiredTimer with
    | none => simpa using peekMax_eq_some_iff.mp peeked
    | some maxFired =>
      simp only [Option.toFinset_some, Finset.mem_union, Finset.mem_singleton, Option.elim]
      refine ⟨?_, fun other mem => ?_⟩
      · rcases max_choice largest maxFired with chosen | chosen <;> rw [chosen]
        · exact .inl (mem_of_peekMax peeked)
        · exact .inr rfl
      · rcases mem with inQueue | rfl
        · exact le_max_of_le_left (le_of_peekMax peeked inQueue)
        · exact le_max_right _ _

theorem adjustTimerBatchEnd_empty (maxFiredTimer : Option κ) : adjustTimerBatchEnd ∅ maxFiredTimer = maxFiredTimer := by
  cases maxFiredTimer <;> rfl

theorem adjustTimerBatchEnd_insert_of_within {timerQueue : Finset κ} {maxFiredTimer : Option κ} {timer : κ}
    (within : (adjustTimerBatchEnd timerQueue maxFiredTimer).any (timer ≤ ·)) :
    adjustTimerBatchEnd (insert timer timerQueue) maxFiredTimer = adjustTimerBatchEnd timerQueue maxFiredTimer := by
  simp only [adjustTimerBatchEnd_eq_peekMax] at within ⊢
  rw [Finset.insert_union, peekMax_insert]
  cases peeked : peekMax (timerQueue ∪ maxFiredTimer.toFinset) with
  | none => simp [peeked] at within
  | some batchEnd =>
    simp only [peeked, Option.any_some, decide_eq_true_eq] at within
    simp [within]

theorem adjustTimerBatchEnd_erase_of_ne {timerQueue : Finset κ} {maxFiredTimer : Option κ} {key : κ}
    (other : adjustTimerBatchEnd timerQueue maxFiredTimer ≠ some key) :
    adjustTimerBatchEnd (timerQueue.erase key) maxFiredTimer = adjustTimerBatchEnd timerQueue maxFiredTimer := by
  simp only [adjustTimerBatchEnd_eq_peekMax] at other ⊢
  cases peeked : peekMax (timerQueue ∪ maxFiredTimer.toFinset) with
  | none =>
    have empty := peekMax_eq_none_iff.mp peeked
    rw [Finset.union_eq_empty] at empty
    rw [empty.1, empty.2, Finset.erase_empty, Finset.empty_union, peekMax_empty]
  | some batchEnd =>
    have kept : batchEnd ≠ key := fun same => other (same ▸ peeked)
    apply peekMax_of_subset peeked (Finset.union_subset_union (Finset.erase_subset _ _) subset_rfl)
    rcases Finset.mem_union.mp (mem_of_peekMax peeked) with inQueue | inFired
    · exact Finset.mem_union_left _ (Finset.mem_erase.mpr ⟨kept, inQueue⟩)
    · exact Finset.mem_union_right _ inFired

theorem adjustTimerBatchEnd_fire {timerQueue : Finset κ} {maxFiredTimer : Option κ} {timer : κ}
    (peeked : peekMin timerQueue = some timer) :
    adjustTimerBatchEnd (timerQueue.erase timer)
        (if maxFiredTimer.all (· < timer) then some timer else maxFiredTimer) =
      adjustTimerBatchEnd timerQueue maxFiredTimer := by
  have inQueue := mem_of_peekMin peeked
  rw [adjustTimerBatchEnd_eq_peekMax, adjustTimerBatchEnd_eq_peekMax]
  cases batch : peekMax (timerQueue ∪ maxFiredTimer.toFinset) with
  | none =>
    have empty := Finset.union_eq_empty.mp (peekMax_eq_none_iff.mp batch)
    simp [empty.1] at inQueue
  | some batchEnd =>
    apply peekMax_of_subset batch
    · intro key mem
      split at mem
      · rcases Finset.mem_union.mp mem with inErased | fired
        · exact Finset.mem_union_left _ (Finset.mem_of_mem_erase inErased)
        · simp only [Option.toFinset_some, Finset.mem_singleton] at fired
          exact Finset.mem_union_left _ (fired ▸ inQueue)
      · exact Finset.union_subset_union (Finset.erase_subset _ _) subset_rfl mem
    · by_cases fired : batchEnd = timer
      · -- the batch ends at the fired timer only when it is the largest, so it becomes the max fired
        subst fired
        have below : ∀ maxFired ∈ maxFiredTimer, maxFired ≤ batchEnd :=
          fun maxFired mem => le_of_peekMax batch (Finset.mem_union_right _ (Option.mem_toFinset.mpr mem))
        split
        · simp
        · rename_i notAbove
          rw [all_lt_iff_above, not_above_iff] at notAbove
          obtain ⟨maxFired, mem, above⟩ := notAbove
          have same : maxFired = batchEnd := le_antisymm (below maxFired mem) above
          subst same
          exact Finset.mem_union_right _ (Option.mem_toFinset.mpr mem)
      · rcases Finset.mem_union.mp (mem_of_peekMax batch) with inQueue' | inFired
        · exact Finset.mem_union_left _ (Finset.mem_erase.mpr ⟨fired, inQueue'⟩)
        · split
          · rename_i above
            rw [all_lt_iff_above] at above
            have largest := le_of_peekMax batch (Finset.mem_union_left _ inQueue)
            have below := above batchEnd (Option.mem_toFinset.mp inFired)
            exact absurd (lt_of_lt_of_le below largest) (lt_irrefl _)
          · exact Finset.mem_union_right _ inFired

end BatchEnd

section Trim

variable {target : Nat} {maxFiredTimer : Option κ}

theorem trim_go_succ (rounds : Nat) (timerQueue : Finset κ) (trimmed : Bool) :
    (∃ largest, target < timerQueue.card ∧ peekMax timerQueue = some largest ∧ Above maxFiredTimer largest ∧
      trimTimerQueue.go target maxFiredTimer (rounds + 1) timerQueue trimmed =
        trimTimerQueue.go target maxFiredTimer rounds (timerQueue.erase largest) true) ∨
    (trimTimerQueue.go target maxFiredTimer (rounds + 1) timerQueue trimmed = (timerQueue, trimmed) ∧
      (timerQueue.card ≤ target ∨ ∃ largest, peekMax timerQueue = some largest ∧ ¬ Above maxFiredTimer largest)) := by
  by_cases large : target < timerQueue.card
  · have nonEmpty : timerQueue.Nonempty := Finset.card_pos.mp (by omega)
    obtain ⟨largest, peeked⟩ := Option.isSome_iff_exists.mp (peekMax_isSome_iff.mpr nonEmpty)
    by_cases above : Above maxFiredTimer largest
    · left
      refine ⟨largest, large, peeked, above, ?_⟩
      simp [trimTimerQueue.go, large, peeked, (all_lt_iff_above _ _).mpr above]
    · right
      have held : maxFiredTimer.all (· < largest) ≠ true := fun all => above ((all_lt_iff_above _ _).mp all)
      refine ⟨?_, .inr ⟨largest, peeked, above⟩⟩
      simp [trimTimerQueue.go, large, peeked, held]
  · right
    exact ⟨by simp [trimTimerQueue.go, large], .inl (not_lt.mp large)⟩

theorem trim_go_subset (rounds : Nat) (timerQueue : Finset κ) (trimmed : Bool) :
    (trimTimerQueue.go target maxFiredTimer rounds timerQueue trimmed).1 ⊆ timerQueue := by
  induction rounds generalizing timerQueue trimmed with
  | zero => exact subset_rfl
  | succ rounds ih =>
    rcases trim_go_succ rounds timerQueue trimmed with ⟨largest, -, -, -, popped⟩ | ⟨stopped, -⟩
    · rw [popped]
      exact (ih _ _).trans (Finset.erase_subset _ _)
    · rw [stopped]

theorem trim_go_popped (rounds : Nat) (timerQueue : Finset κ) (trimmed : Bool) {timer : κ}
    (mem : timer ∈ timerQueue) (popped : timer ∉ (trimTimerQueue.go target maxFiredTimer rounds timerQueue trimmed).1) :
    Above maxFiredTimer timer ∧ ∀ kept ∈ (trimTimerQueue.go target maxFiredTimer rounds timerQueue trimmed).1, kept < timer := by
  induction rounds generalizing timerQueue trimmed with
  | zero => exact absurd mem popped
  | succ rounds ih =>
    rcases trim_go_succ rounds timerQueue trimmed with ⟨largest, -, peeked, above, round⟩ | ⟨stopped, -⟩
    · rw [round] at popped ⊢
      by_cases isLargest : timer = largest
      · -- popped in this round: everything kept is below it
        subst isLargest
        refine ⟨above, fun kept inside => ?_⟩
        have erased := trim_go_subset rounds (timerQueue.erase timer) true inside
        exact lt_of_le_of_ne (le_of_peekMax peeked (Finset.mem_of_mem_erase erased)) (Finset.ne_of_mem_erase erased)
      · exact ih (timerQueue.erase largest) true (Finset.mem_erase.mpr ⟨isLargest, mem⟩) popped
    · rw [stopped] at popped
      exact absurd mem popped

theorem trim_go_trimmed (rounds : Nat) (timerQueue : Finset κ) :
    (trimTimerQueue.go target maxFiredTimer rounds timerQueue true).2 = true := by
  induction rounds generalizing timerQueue with
  | zero => rfl
  | succ rounds ih =>
    rcases trim_go_succ rounds timerQueue true with ⟨largest, -, -, -, popped⟩ | ⟨stopped, -⟩
    · rw [popped, ih]
    · rw [stopped]

theorem trim_go_of_not_trimmed (rounds : Nat) (timerQueue : Finset κ) (trimmed : Bool)
    (kept : (trimTimerQueue.go target maxFiredTimer rounds timerQueue trimmed).2 = false) :
    (trimTimerQueue.go target maxFiredTimer rounds timerQueue trimmed).1 = timerQueue := by
  cases rounds with
  | zero => rfl
  | succ rounds =>
    rcases trim_go_succ rounds timerQueue trimmed with ⟨largest, -, -, -, popped⟩ | ⟨stopped, -⟩
    · rw [popped, trim_go_trimmed] at kept
      exact absurd kept (by decide)
    · rw [stopped]

theorem trim_go_nonempty (positive : 0 < target) (rounds : Nat) (timerQueue : Finset κ) (trimmed : Bool)
    (nonEmpty : timerQueue.Nonempty) : (trimTimerQueue.go target maxFiredTimer rounds timerQueue trimmed).1.Nonempty := by
  induction rounds generalizing timerQueue trimmed with
  | zero => exact nonEmpty
  | succ rounds ih =>
    rcases trim_go_succ rounds timerQueue trimmed with ⟨largest, large, peeked, -, popped⟩ | ⟨stopped, -⟩
    · rw [popped]
      apply ih
      rw [← Finset.card_pos, Finset.card_erase_of_mem (mem_of_peekMax peeked)]
      omega
    · rw [stopped]
      exact nonEmpty

theorem trim_go_bound (rounds : Nat) (timerQueue : Finset κ) (trimmed : Bool)
    (enough : timerQueue.card ≤ rounds + target) :
    ((trimTimerQueue.go target maxFiredTimer rounds timerQueue trimmed).1.filter (Above maxFiredTimer)).card ≤ target := by
  induction rounds generalizing timerQueue trimmed with
  | zero =>
    show (timerQueue.filter (Above maxFiredTimer)).card ≤ target
    exact (Finset.card_filter_le _ _).trans (by omega)
  | succ rounds ih =>
    rcases trim_go_succ rounds timerQueue trimmed with ⟨largest, -, peeked, -, popped⟩ | ⟨stopped, small | stuck⟩
    · rw [popped]
      apply ih
      rw [Finset.card_erase_of_mem (mem_of_peekMax peeked)]
      omega
    · rw [stopped]
      exact (Finset.card_filter_le _ _).trans small
    · -- every timer is at most the largest, which is not above the max fired timer
      obtain ⟨largest, peeked, notAbove⟩ := stuck
      have none : timerQueue.filter (Above maxFiredTimer) = ∅ := by
        rw [Finset.filter_eq_empty_iff]
        intro timer mem above
        apply notAbove
        intro lower inBound
        exact lt_of_lt_of_le (above lower inBound) (le_of_peekMax peeked mem)
      rw [stopped, none, Finset.card_empty]
      exact Nat.zero_le _

end Trim

section Trimmed

variable {target : Nat} {maxFiredTimer : Option κ} {timerQueue : Finset κ}

theorem trimTimerQueue_subset : (trimTimerQueue target maxFiredTimer timerQueue).1 ⊆ timerQueue :=
  trim_go_subset _ _ _

theorem trimTimerQueue_popped {timer : κ} (mem : timer ∈ timerQueue)
    (popped : timer ∉ (trimTimerQueue target maxFiredTimer timerQueue).1) :
    Above maxFiredTimer timer ∧ ∀ kept ∈ (trimTimerQueue target maxFiredTimer timerQueue).1, kept < timer :=
  trim_go_popped _ _ _ mem popped

theorem trimTimerQueue_of_not_trimmed (kept : (trimTimerQueue target maxFiredTimer timerQueue).2 = false) :
    (trimTimerQueue target maxFiredTimer timerQueue).1 = timerQueue :=
  trim_go_of_not_trimmed _ _ _ kept

theorem trimTimerQueue_bound :
    ((trimTimerQueue target maxFiredTimer timerQueue).1.filter (Above maxFiredTimer)).card ≤ target :=
  trim_go_bound _ _ _ (Nat.le_add_right _ _)

theorem peekMin_trimTimerQueue (positive : 0 < target) {timer : κ} (peeked : peekMin timerQueue = some timer) :
    peekMin (trimTimerQueue target maxFiredTimer timerQueue).1 = some timer := by
  have nonEmpty := @trim_go_nonempty κ _ target maxFiredTimer positive timerQueue.card timerQueue false
    ⟨timer, mem_of_peekMin peeked⟩
  obtain ⟨kept, inside⟩ := nonEmpty
  have stays : timer ∈ (trimTimerQueue target maxFiredTimer timerQueue).1 := by
    by_contra popped
    have below := (trimTimerQueue_popped (mem_of_peekMin peeked) popped).2 kept inside
    exact absurd (le_of_peekMin peeked (trimTimerQueue_subset inside)) (not_le.mpr below)
  exact peekMin_eq_some_iff.mpr ⟨stays, fun other mem => le_of_peekMin peeked (trimTimerQueue_subset mem)⟩

end Trimmed

section Limited

variable {numTimersInMemoryLimit : Option Nat} {maxFiredTimer : Option κ} {timerQueue : Finset κ}

theorem trimToLimit_subset : (trimToLimit numTimersInMemoryLimit maxFiredTimer timerQueue).1 ⊆ timerQueue := by
  cases numTimersInMemoryLimit with
  | none => exact subset_rfl
  | some limit => exact trimTimerQueue_subset

theorem trimToLimit_bound : ∀ limit ∈ numTimersInMemoryLimit,
    ((trimToLimit numTimersInMemoryLimit maxFiredTimer timerQueue).1.filter (Above maxFiredTimer)).card ≤ limit := by
  intro limit mem
  cases mem
  exact trimTimerQueue_bound

theorem trimToLimit_of_not_trimmed (kept : (trimToLimit numTimersInMemoryLimit maxFiredTimer timerQueue).2 = false) :
    (trimToLimit numTimersInMemoryLimit maxFiredTimer timerQueue).1 = timerQueue := by
  cases numTimersInMemoryLimit with
  | none => rfl
  | some limit => exact trimTimerQueue_of_not_trimmed kept

theorem isNone_eq_false_of_not_trimmed (kept : (trimToLimit numTimersInMemoryLimit maxFiredTimer timerQueue).2 = false) :
    numTimersInMemoryLimit.isNone = false := by
  cases numTimersInMemoryLimit with
  | none => simp [trimToLimit] at kept
  | some limit => rfl

theorem peekMin_trimToLimit (limit : numTimersInMemoryLimit ≠ some 0) {timer : κ} (peeked : peekMin timerQueue = some timer) :
    peekMin (trimToLimit numTimersInMemoryLimit maxFiredTimer timerQueue).1 = some timer := by
  cases numTimersInMemoryLimit with
  | none => exact peeked
  | some bound => exact peekMin_trimTimerQueue (Nat.pos_of_ne_zero fun zero => limit (zero ▸ rfl)) peeked

end Limited

section Load

variable {numTimersInMemoryLimit : Option Nat}

theorem loadNextTimers_subset {timerQueue loaded : Finset κ} {nextTimers : List κ}
    (done : loadNextTimers numTimersInMemoryLimit timerQueue nextTimers = some loaded) :
    timerQueue ⊆ loaded ∧ loaded ⊆ timerQueue ∪ nextTimers.toFinset := by
  induction nextTimers generalizing timerQueue with
  | nil =>
    cases done
    exact ⟨subset_rfl, Finset.subset_union_left⟩
  | cons nextTimer rest ih =>
    unfold loadNextTimers at done
    -- both the push and the break keep the claim; the push's rest is the induction
    have pushed : loadNextTimers numTimersInMemoryLimit (insert nextTimer timerQueue) rest = some loaded →
        timerQueue ⊆ loaded ∧ loaded ⊆ timerQueue ∪ (nextTimer :: rest).toFinset := by
      intro later
      obtain ⟨grown, within⟩ := ih later
      refine ⟨(Finset.subset_insert _ _).trans grown, within.trans ?_⟩
      intro timer mem
      simp only [Finset.mem_union, Finset.mem_insert, List.mem_toFinset, List.mem_cons] at mem ⊢
      tauto
    split at done
    · split at done
      · split at done
        · cases done
          exact ⟨subset_rfl, Finset.subset_union_left⟩
        · exact pushed done
      · cases done
    · exact pushed done

theorem loadNextTimers_isSome (limit : numTimersInMemoryLimit ≠ some 0) (timerQueue : Finset κ) (nextTimers : List κ) :
    (loadNextTimers numTimersInMemoryLimit timerQueue nextTimers).isSome := by
  induction nextTimers generalizing timerQueue with
  | nil => rfl
  | cons nextTimer rest ih =>
    unfold loadNextTimers
    split
    case isTrue atLimit =>
      have nonEmpty : timerQueue.Nonempty := by
        rw [← Finset.card_pos]
        cases numTimersInMemoryLimit with
        | none => simp at atLimit
        | some bound =>
          simp only [Option.any_some, decide_eq_true_eq] at atLimit
          have : bound ≠ 0 := fun zero => limit (zero ▸ rfl)
          omega
      obtain ⟨largest, peeked⟩ := Option.isSome_iff_exists.mp (peekMax_isSome_iff.mpr nonEmpty)
      simp only [peeked]
      by_cases stop : largest < nextTimer
      · simp [stop]
      · simp only [stop, if_false]
        exact ih _
    case isFalse => exact ih _

theorem loadNextTimers_none (timerQueue : Finset κ) (nextTimers : List κ) :
    loadNextTimers none timerQueue nextTimers = some (timerQueue ∪ nextTimers.toFinset) := by
  induction nextTimers generalizing timerQueue with
  | nil => simp [loadNextTimers]
  | cons nextTimer rest ih =>
    simp only [loadNextTimers, Option.any_none, Bool.false_eq_true, if_false, ih]
    congr 1
    ext timer
    simp only [Finset.mem_union, Finset.mem_insert, List.mem_toFinset, List.mem_cons]
    tauto

end Load

section Events

variable {service service' : TimerService κ}

theorem addTimer_frame {timer : κ} (added : service.addTimer timer = some service') :
    service'.numTimersInMemoryLimit = service.numTimersInMemoryLimit ∧ service'.maxFiredTimer = service.maxFiredTimer ∧
      service'.readFuture = service.readFuture ∧
      (service.numTimersInMemoryLimit = none → service'.timerQueue = insert timer service.timerQueue) := by
  unfold addTimer at added
  split at added
  · cases added
    exact ⟨rfl, rfl, rfl, fun _ => rfl⟩
  · rename_i removedTimers _
    cases removedTimers with
    | none => cases added
    | some removed =>
      cases added
      refine ⟨rfl, rfl, rfl, fun unlimited => ?_⟩
      simp [trimToLimit, unlimited]
  · split at added
    · cases added
      refine ⟨rfl, rfl, rfl, fun unlimited => ?_⟩
      simp [trimToLimit, unlimited]
    · cases added
      rename_i rejected
      refine ⟨rfl, rfl, rfl, fun unlimited => ?_⟩
      simp [unlimited] at rejected

theorem removeTimer_frame {key : κ} (removed : service.removeTimer key = some service') :
    service'.numTimersInMemoryLimit = service.numTimersInMemoryLimit ∧ service'.maxFiredTimer = service.maxFiredTimer ∧
      service'.readFuture = service.readFuture ∧ service.timerQueue.erase key ⊆ service'.timerQueue := by
  unfold removeTimer at removed
  split at removed
  · cases removed
    exact ⟨rfl, rfl, rfl, Finset.erase_subset _ _⟩
  · rename_i removedTimers _
    cases removedTimers with
    | none => cases removed
    | some removedSet =>
      cases removed
      exact ⟨rfl, rfl, rfl, subset_rfl⟩
  · cases removed
    exact ⟨rfl, rfl, rfl, subset_rfl⟩

variable {wakeUpTime : κ → Nat} {now : Nat}

/-- A round of the loop that goes on keeps the limit and the max fired timer, and either loads the
completed read, or issues the next read once the queue has run empty, or only moves the service to
another state. -/
theorem pollStep_next (stepped : pollStep wakeUpTime now service = some (.next, service')) :
    service'.numTimersInMemoryLimit = service.numTimersInMemoryLimit ∧ service'.maxFiredTimer = service.maxFiredTimer ∧
      ((∃ removedTimers removed nextTimers loaded, service.state = .loadTimers removedTimers ∧
          removedTimers = some removed ∧ service.readFuture = .ready nextTimers ∧
          loadNextTimers service.numTimersInMemoryLimit service.timerQueue (nextTimers.filter (· ∉ removed)) = some loaded ∧
          service'.timerQueue = (trimToLimit service.numTimersInMemoryLimit service.maxFiredTimer loaded).1 ∧
          service'.readFuture = .idle) ∨
        (service.timerQueue = ∅ ∧ service.readFuture = .idle ∧ service'.timerQueue = ∅ ∧
          service'.readFuture = .pending (service.numTimersInMemoryLimit.getD usizeMax) service.maxFiredTimer) ∨
        (service'.timerQueue = service.timerQueue ∧ service'.readFuture = service.readFuture)) := by
  unfold pollStep at stepped
  cases state : service.state with
  | idle => simp [state] at stepped
  | loadTimers removedTimers =>
    simp only [state] at stepped
    cases read : service.readFuture with
    | ready nextTimers =>
      cases removedTimers with
      | none => simp [read] at stepped
      | some removed =>
        simp only [read, Option.bind_eq_bind, Option.bind_some, Option.bind_eq_some_iff, Option.pure_def,
          Option.some.injEq, Prod.mk.injEq, true_and] at stepped
        obtain ⟨loaded, loadedEq, rfl⟩ := stepped
        exact ⟨rfl, rfl, .inl ⟨_, removed, nextTimers, loaded, rfl, rfl, rfl, loadedEq, rfl, rfl⟩⟩
    | idle => simp [read] at stepped
    | pending => simp [read] at stepped
  | processTimers timerBatch processTimersState =>
    simp only [state] at stepped
    cases processTimersState with
    | readNextTimer =>
      cases peeked : peekMin service.timerQueue with
      | some timerKey =>
        simp only [peeked] at stepped
        split at stepped <;> (cases stepped; exact ⟨rfl, rfl, .inr (.inr ⟨rfl, rfl⟩)⟩)
      | none =>
        simp only [peeked] at stepped
        split at stepped
        · cases stepped
        · rename_i ended
          rw [not_not] at ended
          cases read : service.readFuture with
          | idle =>
            simp only [read, Option.some.injEq, Prod.mk.injEq, true_and] at stepped
            subst stepped
            refine ⟨rfl, rfl, .inr (.inl ⟨peekMin_eq_none_iff.mp peeked, rfl, peekMin_eq_none_iff.mp peeked, ?_⟩)⟩
            rw [ended]
          | pending => simp [read] at stepped
          | ready => simp [read] at stepped
    | awaitTimer timerKey =>
      simp only at stepped
      split at stepped
      · cases stepped
        exact ⟨rfl, rfl, .inr (.inr ⟨rfl, rfl⟩)⟩
      · cases stepped
    | triggerTimer =>
      simp only at stepped
      cases peeked : peekMin service.timerQueue with
      | some timer => simp [peeked] at stepped
      | none =>
        simp only [peeked, Option.some.injEq, Prod.mk.injEq, true_and] at stepped
        subst stepped
        exact ⟨rfl, rfl, .inr (.inr ⟨rfl, rfl⟩)⟩

theorem pollStep_ready {timer : κ} (stepped : pollStep wakeUpTime now service = some (.ready timer, service')) :
    (∃ timerBatch, service.state = .processTimers timerBatch .triggerTimer) ∧ peekMin service.timerQueue = some timer ∧
      service'.timerQueue = service.timerQueue.erase timer ∧
      service'.numTimersInMemoryLimit = service.numTimersInMemoryLimit ∧ service'.readFuture = service.readFuture ∧
      service'.maxFiredTimer = if service.maxFiredTimer.all (· < timer) then some timer else service.maxFiredTimer := by
  unfold pollStep at stepped
  cases state : service.state with
  | idle => simp [state] at stepped
  | loadTimers removedTimers =>
    simp only [state] at stepped
    cases read : service.readFuture with
    | ready nextTimers =>
      cases removedTimers with
      | none => simp [read] at stepped
      | some removed =>
        simp only [read, Option.bind_eq_bind, Option.bind_some, Option.bind_eq_some_iff, Option.pure_def,
          Option.some.injEq, Prod.mk.injEq] at stepped
        obtain ⟨loaded, -, turned, -⟩ := stepped
        cases turned
    | idle => simp [read] at stepped
    | pending => simp [read] at stepped
  | processTimers timerBatch processTimersState =>
    simp only [state] at stepped
    cases processTimersState with
    | readNextTimer =>
      cases peeked : peekMin service.timerQueue with
      | some timerKey =>
        simp only [peeked] at stepped
        split at stepped <;> cases stepped
      | none =>
        simp only [peeked] at stepped
        split at stepped
        · cases stepped
        · cases read : service.readFuture <;> simp [read] at stepped
    | awaitTimer timerKey =>
      simp only at stepped
      split at stepped <;> cases stepped
    | triggerTimer =>
      simp only at stepped
      cases peeked : peekMin service.timerQueue with
      | some popped =>
        simp only [peeked, Option.some.injEq, Prod.mk.injEq, Turn.ready.injEq] at stepped
        obtain ⟨rfl, rfl⟩ := stepped
        exact ⟨⟨timerBatch, rfl⟩, rfl, rfl, rfl, rfl, rfl⟩
      | none => simp [peeked] at stepped

end Events

end TimerService

end Timer

end Restate
