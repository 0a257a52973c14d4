import Mathlib
import Restate.Timer.Invariant

/-! What the invariant gives over every run of the timer service: none of its `expect`s or its
`assert_eq!` ever fails and every poll returns; a timer fires only once stored and due, before every
timer it leaves in memory, and not again until it is added anew; and with a limit, no more than the
limit of timers above the max fired timer are held in memory. -/

namespace Restate

namespace Timer

open DoublePriorityQueue TimerService

namespace World

variable {κ : Type} [LinearOrder κ] {wakeUpTime : κ → Nat} {world after : World κ}

theorem Reachable.poll (reachable : Reachable wakeUpTime world) {timer : Option κ}
    (stepped : world.step wakeUpTime .pollNextTimer = some (after, timer)) :
    ∃ service, TimerService.pollNextTimer wakeUpTime world.now world.service = some (timer, service) ∧
      world.Polled wakeUpTime timer service ∧
      after = { world with service, fired := timer.elim world.fired (insert · world.fired) } := by
  obtain ⟨fired, service, polledEq, polled⟩ := @Invariant.pollNextTimer κ _ wakeUpTime world reachable.invariant
  simp only [World.step, polledEq, Option.map_some, Option.some.injEq, Prod.mk.injEq] at stepped
  obtain ⟨rfl, rfl⟩ := stepped
  exact ⟨service, polledEq, polled, rfl⟩

/-- Neither `add_timer`, `remove_timer` nor `poll_next_timer` ever panics in a reachable world: no
`expect` fails, the batch end is the max fired timer whenever a batch runs out, and the loop of a
poll always returns. -/
theorem service_never_panics (reachable : Reachable wakeUpTime world) (timer key : κ) :
    (world.step wakeUpTime (.addTimer timer)).isSome ∧ (world.step wakeUpTime (.removeTimer key)).isSome ∧
      (world.step wakeUpTime .pollNextTimer).isSome := by
  have inv := reachable.invariant
  obtain ⟨_, added, -⟩ := inv.addTimer timer
  obtain ⟨_, removed, -⟩ := inv.removeTimer key
  obtain ⟨_, _, polled, -⟩ := @Invariant.pollNextTimer κ _ wakeUpTime world inv
  simp [World.step, added, removed, polled]

/-- A new service with a limit of two timers over a storage of three. -/
def startWorld : World Nat := { service := TimerService.new (some 2), storage := {1, 2, 3}, now := 0, fired := ∅ }

theorem startWorld_reachable : Reachable id startWorld :=
  .init (some 2) {1, 2, 3} 0 (by decide) (by decide)

/-- Storage returns the first two timers, the service loads them and waits for the first, and the
clock passes both. -/
def dueEvents : List (Event Nat) := [.completeRead, .pollNextTimer, .advanceClock 5]

def dueWorld : World Nat := ((run id startWorld dueEvents).map Prod.fst).getD startWorld

theorem dueWorld_reachable : Reachable id dueWorld :=
  @Reachable.run Nat _ id startWorld startWorld_reachable dueEvents dueWorld (by decide) rfl

theorem dueWorld_never_panics :
    (dueWorld.step id (.addTimer 4)).isSome ∧ (dueWorld.step id (.removeTimer 2)).isSome ∧
      (dueWorld.step id .pollNextTimer).isSome :=
  service_never_panics dueWorld_reachable 4 2

/-- A poll fires only a stored timer whose wake-up time has come, and none later than a timer it
leaves in memory. -/
theorem fired_timer_due (reachable : Reachable wakeUpTime world) {timer : κ}
    (stepped : world.step wakeUpTime .pollNextTimer = some (after, some timer)) :
    timer ∈ world.storage ∧ wakeUpTime timer ≤ world.now ∧ ∀ other ∈ after.service.timerQueue, timer ≤ other := by
  obtain ⟨service, -, ⟨stored, -, wokenUp, first, -⟩, rfl⟩ := reachable.poll stepped
  exact ⟨stored, wokenUp, first⟩

/-- The poll after `dueEvents` fires the first timer. -/
def firedWorld : World Nat := ((dueWorld.step id .pollNextTimer).map Prod.fst).getD dueWorld

theorem dueWorld_fires_first :
    dueWorld.step id .pollNextTimer = some (firedWorld, some 1) ∧
      1 ∈ dueWorld.storage ∧ id 1 ≤ dueWorld.now ∧ ∀ other ∈ firedWorld.service.timerQueue, 1 ≤ other :=
  ⟨rfl, @fired_timer_due Nat _ id dueWorld firedWorld dueWorld_reachable 1 rfl⟩

/-- A timer fires at most once for each time it is added: one that has fired is not fired again
until it is added (or deleted) anew, since no load brings back a timer at or below the max fired
one. -/
theorem fired_timer_not_refired (reachable : Reachable wakeUpTime world) {timer other : κ}
    (fired : timer ∈ world.fired) (stepped : world.step wakeUpTime .pollNextTimer = some (after, some other)) :
    other ≠ timer := by
  obtain ⟨service, -, ⟨-, notFired, -⟩, -⟩ := reachable.poll stepped
  rintro rfl
  exact notFired fired

theorem firedWorld_reachable : Reachable id firedWorld :=
  @Reachable.run Nat _ id dueWorld dueWorld_reachable [.pollNextTimer] firedWorld (by decide) rfl

/-- After the first timer, the next poll fires the second. -/
def secondWorld : World Nat := ((firedWorld.step id .pollNextTimer).map Prod.fst).getD firedWorld

theorem firedWorld_fires_second_not_first :
    1 ∈ firedWorld.fired ∧ firedWorld.step id .pollNextTimer = some (secondWorld, some 2) ∧ 2 ≠ 1 :=
  ⟨by decide, rfl, @fired_timer_not_refired Nat _ id firedWorld secondWorld firedWorld_reachable 1 2 (by decide) rfl⟩

/-- With a limit, no more than the limit of timers above the max fired timer are in memory: every
load, add and fire trims the queue back, and only timers at or below the max fired one, which the
next read would not return, are kept past it. -/
theorem timers_in_memory_bounded (reachable : Reachable wakeUpTime world) {limit : Nat}
    (limited : world.service.numTimersInMemoryLimit = some limit) :
    (world.service.timerQueue.filter (Above world.service.maxFiredTimer)).card ≤ limit :=
  reachable.invariant.bounded limit limited

theorem dueWorld_timers_in_memory_bounded :
    dueWorld.service.numTimersInMemoryLimit = some 2 ∧
      (dueWorld.service.timerQueue.filter (Above dueWorld.service.maxFiredTimer)).card ≤ 2 :=
  ⟨rfl, timers_in_memory_bounded dueWorld_reachable rfl⟩

end World

end Timer

end Restate
