import Mathlib
import Restate.Lib.PriorityQueue

/-! The timer service of timer/src/service/mod.rs: the state machine that loads timers from storage
in batches of at most `num_timers_in_memory_limit`, keeps them in a double-ended priority queue,
sleeps until the earliest is due and fires it, while timers are added and removed beside storage.
The queue borrows a timer as its key, so a timer is its key and the queue is a finite set of keys;
`wake_up_time` is a parameter of the key order, and the clock is the time in milliseconds. The two
futures the service polls are explicit: the storage read it issued, which storage completes, and
the sleep of the timer it awaits, ready once the clock reaches the timer (`sleep_until` is none
once the time is past). Wakers change no state and are left out. An `expect` or `assert_eq!` that
panics is none. -/

namespace Restate

namespace Timer

open DoublePriorityQueue

/-- `usize::MAX`, the batch size without a limit. -/
def usizeMax : Nat := 18446744073709551615

/-- `ProcessTimersState`, its sleep reduced to the timer it waits for. -/
inductive ProcessTimersState (κ : Type)
  | readNextTimer
  | awaitTimer (timerKey : κ)
  | triggerTimer
  deriving DecidableEq, Repr

/-- `State`; a `TimerBatch` is its end. -/
inductive State (κ : Type)
  | idle
  | loadTimers (removedTimers : Option (Finset κ))
  | processTimers (timerBatch : Option κ) (processTimersState : ProcessTimersState κ)
  deriving DecidableEq

/-- `read_future` with `timer_reader`: the reader is back in the service exactly when no read is in
flight. -/
inductive ReadFuture (κ : Type)
  | idle
  | pending (numTimers : Nat) (previousTimerKey : Option κ)
  | ready (timers : List κ)
  deriving DecidableEq

/-- `TimerService`, without its clock and reader. -/
structure TimerService (κ : Type) where
  readFuture : ReadFuture κ
  state : State κ
  removedTimers : Option (Finset κ)
  maxFiredTimer : Option κ
  timerQueue : Finset κ
  numTimersInMemoryLimit : Option Nat

namespace TimerService

variable {κ : Type} [LinearOrder κ]

/-- `TimerService::new`: it starts loading the first batch. -/
def new (numTimersInMemoryLimit : Option Nat) : TimerService κ where
  readFuture := .pending (numTimersInMemoryLimit.getD usizeMax) none
  state := .loadTimers (some ∅)
  removedTimers := none
  maxFiredTimer := none
  timerQueue := ∅
  numTimersInMemoryLimit

def maxTimerKey (timerKey : κ) : Option κ → κ
  | some maxFiredTimer => if timerKey < maxFiredTimer then maxFiredTimer else timerKey
  | none => timerKey

/-- `trim_timer_queue`: pops the largest timers while the queue is above the target and they are
above the max fired timer; whether it popped any. Each round pops one, so the queue's size bounds
the rounds. -/
def trimTimerQueue (targetQueueSize : Nat) (maxFiredTimer : Option κ) (timerQueue : Finset κ) :
    Finset κ × Bool :=
  go timerQueue.card timerQueue false
where
  go : Nat → Finset κ → Bool → Finset κ × Bool
    | 0, timerQueue, trimmed => (timerQueue, trimmed)
    | rounds + 1, timerQueue, trimmed =>
      if targetQueueSize < timerQueue.card then
        -- the `expect` holds: the queue is above the target, so not empty
        match peekMax timerQueue with
        | some currentMaxKey =>
          if maxFiredTimer.all (· < currentMaxKey) then
            go rounds (timerQueue.erase currentMaxKey) true
          else (timerQueue, trimmed)
        | none => (timerQueue, trimmed)
      else (timerQueue, trimmed)

/-- `num_timers_in_memory_limit.map(|limit| trim_timer_queue(..))`: the trim runs where a limit is
set; without one nothing is trimmed, and the flag, which `unwrap_or(true)` reads, is set. -/
def trimToLimit (numTimersInMemoryLimit : Option Nat) (maxFiredTimer : Option κ) (timerQueue : Finset κ) :
    Finset κ × Bool :=
  match numTimersInMemoryLimit with
  | some limit => trimTimerQueue limit maxFiredTimer timerQueue
  | none => (timerQueue, true)

/-- `adjust_timer_batch_end`: the larger of the queue's largest timer and the max fired timer. -/
def adjustTimerBatchEnd (timerQueue : Finset κ) (maxFiredTimer : Option κ) : Option κ :=
  match peekMax timerQueue with
  | some maxTimerInQueue => some (maxTimerKey maxTimerInQueue maxFiredTimer)
  | none => maxFiredTimer

def addTimer (service : TimerService κ) (timer : κ) : Option (TimerService κ) :=
  match service.state with
  | .idle =>
    let timerBatch := maxTimerKey timer service.maxFiredTimer
    some { service with
      timerQueue := insert timer service.timerQueue
      state := .processTimers (some timerBatch) .readNextTimer }
  | .loadTimers removedTimers => do
    let removed ← removedTimers
    let timerQueue := (trimToLimit service.numTimersInMemoryLimit service.maxFiredTimer (insert timer service.timerQueue)).1
    pure { service with timerQueue, state := .loadTimers (some (removed.erase timer)) }
  | .processTimers timerBatch processTimersState =>
    -- without a limit every timer is in memory; with one, only those within the batch
    if service.numTimersInMemoryLimit.isNone || timerBatch.any (timer ≤ ·) then
      let trimmed := trimToLimit service.numTimersInMemoryLimit service.maxFiredTimer (insert timer service.timerQueue)
      let timerBatch := if trimmed.2 then adjustTimerBatchEnd trimmed.1 service.maxFiredTimer else timerBatch
      let processTimersState := match processTimersState with
        | .awaitTimer timerKey => if timer < timerKey then .readNextTimer else processTimersState
        | _ => processTimersState
      some { service with timerQueue := trimmed.1, state := .processTimers timerBatch processTimersState }
    else some service

def removeTimer (service : TimerService κ) (key : κ) : Option (TimerService κ) :=
  match service.state with
  | .idle => some service
  | .loadTimers removedTimers => do
    let removed ← removedTimers
    pure { service with timerQueue := service.timerQueue.erase key, state := .loadTimers (some (insert key removed)) }
  | .processTimers timerBatch processTimersState =>
    let timerQueue := service.timerQueue.erase key
    let timerBatch := if timerBatch = some key then adjustTimerBatchEnd timerQueue service.maxFiredTimer else timerBatch
    let processTimersState := match processTimersState with
      | .awaitTimer timerKey => if key = timerKey then .readNextTimer else processTimersState
      | _ => processTimersState
    some { service with timerQueue, state := .processTimers timerBatch processTimersState }

/-- The `for` loop of the `LoadTimers` arm of `poll_next_timer` over the loaded timers that were not
removed meanwhile: it stops once the queue is at the limit and the next timer is above its largest. -/
def loadNextTimers (numTimersInMemoryLimit : Option Nat) : Finset κ → List κ → Option (Finset κ)
  | timerQueue, [] => some timerQueue
  | timerQueue, nextTimer :: rest =>
    if numTimersInMemoryLimit.any (· ≤ timerQueue.card) then
      match peekMax timerQueue with
      | some maxKey =>
        if maxKey < nextTimer then some timerQueue else loadNextTimers numTimersInMemoryLimit (insert nextTimer timerQueue) rest
      | none => none
    else loadNextTimers numTimersInMemoryLimit (insert nextTimer timerQueue) rest

/-- What one round of the loop of `poll_next_timer` ends with. -/
inductive Turn (κ : Type)
  | ready (timer : κ)
  | pending
  | next

/-- One round of the loop of `poll_next_timer` at clock `now`. -/
def pollStep (wakeUpTime : κ → Nat) (now : Nat) (service : TimerService κ) : Option (Turn κ × TimerService κ) :=
  match service.state with
  | .idle => some (.pending, service)
  | .loadTimers removedTimers =>
    match service.readFuture with
    | .ready nextTimers => do
      let removed ← removedTimers
      let timerQueue ← loadNextTimers service.numTimersInMemoryLimit service.timerQueue
        (nextTimers.filter (· ∉ removed))
      -- get rid of larger timers that exceed the in-memory threshold
      let timerQueue := (trimToLimit service.numTimersInMemoryLimit service.maxFiredTimer timerQueue).1
      let state := match peekMax timerQueue with
        | some timerKey => .processTimers (some (maxTimerKey timerKey service.maxFiredTimer)) .readNextTimer
        | none => .idle
      pure (.next, { service with readFuture := .idle, timerQueue, removedTimers := some ∅, state })
    | _ => some (.pending, service)
  | .processTimers timerBatch processTimersState =>
    match processTimersState with
    | .readNextTimer =>
      match peekMin service.timerQueue with
      | some timerKey =>
        -- `sleep_until` has no sleep once the wake-up time is past
        if wakeUpTime timerKey < now then some (.next, { service with state := .processTimers timerBatch .triggerTimer })
        else some (.next, { service with state := .processTimers timerBatch (.awaitTimer timerKey) })
      | none =>
        if service.maxFiredTimer ≠ timerBatch then none
        else
          match service.readFuture with
          | .idle => some (.next, { service with
              readFuture := .pending (service.numTimersInMemoryLimit.getD usizeMax) timerBatch
              removedTimers := none
              state := .loadTimers service.removedTimers })
          | _ => none
    | .awaitTimer timerKey =>
      if wakeUpTime timerKey ≤ now then some (.next, { service with state := .processTimers timerBatch .triggerTimer })
      else some (.pending, service)
    | .triggerTimer =>
      let service := { service with state := .processTimers timerBatch .readNextTimer }
      match peekMin service.timerQueue with
      | some timer =>
        let maxFiredTimer := if service.maxFiredTimer.all (· < timer) then some timer else service.maxFiredTimer
        some (.ready timer, { service with timerQueue := service.timerQueue.erase timer, maxFiredTimer })
      | none => some (.next, service)

/-- The loop of `poll_next_timer`, for at most `rounds` rounds: the timer it fires, if any. -/
def pollLoop (wakeUpTime : κ → Nat) (now : Nat) : Nat → TimerService κ → Option (Option κ × TimerService κ)
  | 0, _ => none
  | rounds + 1, service => do
    let (turn, service) ← pollStep wakeUpTime now service
    match turn with
    | .ready timer => pure (some timer, service)
    | .pending => pure (none, service)
    | .next => pollLoop wakeUpTime now rounds service

/-- No run of the loop takes more than four rounds: a load, a read of the next timer, the await
of it and its trigger. -/
def pollRounds : Nat := 4

/-- `TimerService::poll_next_timer`: `Poll::Ready` is some timer. -/
def pollNextTimer (wakeUpTime : κ → Nat) (now : Nat) (service : TimerService κ) : Option (Option κ × TimerService κ) :=
  pollLoop wakeUpTime now pollRounds service

end TimerService

/-- The service with its storage and clock. `fired` records the run's history: the timers that
fired and were neither added again nor deleted since. -/
structure World (κ : Type) where
  service : TimerService κ
  storage : Finset κ
  now : Nat
  fired : Finset κ

/-- What happens to the service: the partition processor adds a timer to storage and to the service,
deletes one from both, or polls the service; storage completes the read in flight; the clock moves
on. -/
inductive Event (κ : Type)
  | addTimer (timer : κ)
  | removeTimer (key : κ)
  | pollNextTimer
  | completeRead
  | advanceClock (time : Nat)

namespace World

variable {κ : Type} [LinearOrder κ]

/-- `TimerReader::get_timers` over a storage holding `storage`: the first `numTimers` keys after
`previousTimerKey`, in key order, as `next_timers_greater_than` scans them. -/
def getTimers (storage : Finset κ) (numTimers : Nat) (previousTimerKey : Option κ) : List κ :=
  popMins numTimers (storage.filter fun key => previousTimerKey.all (· < key))

/-- One event; the timer fired, if any. None where the service panics, or where storage has no read
to complete or the clock would go back. -/
def step (wakeUpTime : κ → Nat) (world : World κ) : Event κ → Option (World κ × Option κ)
  | .addTimer timer =>
    (world.service.addTimer timer).map fun service =>
      ({ world with service, storage := insert timer world.storage, fired := world.fired.erase timer }, none)
  | .removeTimer key =>
    (world.service.removeTimer key).map fun service =>
      ({ world with service, storage := world.storage.erase key, fired := world.fired.erase key }, none)
  | .pollNextTimer =>
    (TimerService.pollNextTimer wakeUpTime world.now world.service).map fun (timer, service) =>
      ({ world with service, fired := timer.elim world.fired (insert · world.fired) }, timer)
  | .completeRead =>
    match world.service.readFuture with
    | .pending numTimers previousTimerKey =>
      some ({ world with
        service := { world.service with readFuture := .ready (getTimers world.storage numTimers previousTimerKey) } },
        none)
    | _ => none
  | .advanceClock time => if world.now ≤ time then some ({ world with now := time }, none) else none

/-- A run of events: the world it ends in and the timers it fired, in order. -/
def run (wakeUpTime : κ → Nat) : World κ → List (Event κ) → Option (World κ × List κ)
  | world, [] => some (world, [])
  | world, event :: events => do
    let (after, timer) ← world.step wakeUpTime event
    let (final, fired) ← run wakeUpTime after events
    pure (final, timer.toList ++ fired)

end World

end Timer

end Restate
