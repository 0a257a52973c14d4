import Mathlib
import Restate.Timer.Properties

/-! Whether a stored timer can be lost. Without a memory limit none is: every read returns every
timer after the max fired one, so each stored timer is in memory, has fired, or is still to be
read. With a limit it can be: when every timer of a full batch read is deleted while the read is in
flight, the load finds nothing, the service idles, and the stored timers after that batch are never
read while no timer is added. -/

namespace Restate

namespace Timer

open DoublePriorityQueue TimerService

namespace World

variable {κ : Type} [LinearOrder κ] {wakeUpTime : κ → Nat}

/-- Whether a stored timer is still to be read: never outside a load, anything after the max fired
timer while the read is in flight, and what the read returned once it has completed. -/
def ToRead (world : World κ) (timer : κ) : Prop :=
  match world.service.readFuture with
  | .idle => False
  | .pending _ _ => Above world.service.maxFiredTimer timer
  | .ready timers => timer ∈ timers

theorem toRead_congr {world world' : World κ} {timer : κ}
    (read : world'.service.readFuture = world.service.readFuture)
    (maxFired : world'.service.maxFiredTimer = world.service.maxFiredTimer) : world'.ToRead timer ↔ world.ToRead timer := by
  unfold ToRead
  rw [read, maxFired]

theorem not_toRead_of_idle {world : World κ} {timer : κ} (read : world.service.readFuture = .idle) :
    ¬ world.ToRead timer := by
  simp [ToRead, read]

/-- Without a limit, no stored timer is lost: each is in memory, has fired, or is still to be
read; and storage stays below `usize::MAX` timers. -/
structure Complete (world : World κ) : Prop where
  unlimited : world.service.numTimersInMemoryLimit = none
  small : world.storage.card < usizeMax
  held : ∀ timer ∈ world.storage, timer ∈ world.service.timerQueue ∨ timer ∈ world.fired ∨ world.ToRead timer

section Events

variable {world after : World κ} {service : TimerService κ}

theorem complete_new (storage : Finset κ) (now : Nat) (small : storage.card < usizeMax) :
    Complete { service := TimerService.new none, storage, now, fired := (∅ : Finset κ) } where
  unlimited := rfl
  small := small
  held := fun _ _ => .inr (.inr (above_none _))

theorem Complete.addTimer (complete : world.Complete) {timer : κ} (small : (insert timer world.storage).card < usizeMax)
    (added : world.service.addTimer timer = some service) :
    Complete { world with service, storage := insert timer world.storage, fired := world.fired.erase timer } := by
  obtain ⟨limit, maxFired, read, pushed⟩ := addTimer_frame added
  refine ⟨limit.trans complete.unlimited, small, fun other mem => ?_⟩
  show other ∈ service.timerQueue ∨ other ∈ world.fired.erase timer ∨ _
  rw [pushed complete.unlimited]
  by_cases same : other = timer
  · exact .inl (Finset.mem_insert.mpr (.inl same))
  · rcases complete.held other (Finset.mem_of_mem_insert_of_ne mem same) with inQueue | fired | toRead
    · exact .inl (Finset.mem_insert_of_mem inQueue)
    · exact .inr (.inl (Finset.mem_erase.mpr ⟨same, fired⟩))
    · exact .inr (.inr ((toRead_congr read maxFired).mpr toRead))

theorem Complete.removeTimer (complete : world.Complete) {key : κ} (removed : world.service.removeTimer key = some service) :
    Complete { world with service, storage := world.storage.erase key, fired := world.fired.erase key } := by
  obtain ⟨limit, maxFired, read, kept⟩ := removeTimer_frame removed
  refine ⟨limit.trans complete.unlimited, lt_of_le_of_lt (Finset.card_erase_le) complete.small, fun other mem => ?_⟩
  obtain ⟨other_ne, stored⟩ := Finset.mem_erase.mp mem
  rcases complete.held other stored with inQueue | fired | toRead
  · exact .inl (kept (Finset.mem_erase.mpr ⟨other_ne, inQueue⟩))
  · exact .inr (.inl (Finset.mem_erase.mpr ⟨other_ne, fired⟩))
  · exact .inr (.inr ((toRead_congr read maxFired).mpr toRead))

theorem Complete.next (coherent : world.Coherent) (complete : world.Complete)
    (stepped : TimerService.pollStep wakeUpTime world.now world.service = some (.next, service)) :
    Complete { world with service } := by
  obtain ⟨limit, maxFired, load | newRead | moved⟩ := pollStep_next stepped
  · obtain ⟨removedTimers, removed, nextTimers, loaded, state, rfl, read, loadedEq, queue, -⟩ := load
    obtain ⟨-, removed', removedEq, disjoint, -⟩ := (phase_loadTimers state).mp coherent.phase
    cases removedEq
    rw [complete.unlimited, loadNextTimers_none, Option.some.injEq] at loadedEq
    rw [complete.unlimited] at queue
    refine ⟨limit.trans complete.unlimited, complete.small, fun other mem => ?_⟩
    show other ∈ service.timerQueue ∨ other ∈ world.fired ∨ _
    rw [queue, ← loadedEq]
    rcases complete.held other mem with inQueue | fired | toRead
    · exact .inl (Finset.mem_union_left _ inQueue)
    · exact .inr (.inl fired)
    · -- a read timer still stored was not removed, so the load took it in
      simp only [ToRead, read] at toRead
      have kept : other ∉ removed := fun inRemoved => Finset.disjoint_left.mp disjoint inRemoved mem
      refine .inl (Finset.mem_union_right _ ?_)
      simp only [List.mem_toFinset, List.mem_filter, decide_eq_true_eq]
      exact ⟨toRead, kept⟩
  · obtain ⟨empty, idle, -, -⟩ := newRead
    refine ⟨limit.trans complete.unlimited, complete.small, fun other mem => ?_⟩
    rcases complete.held other mem with inQueue | fired | toRead
    · simp [empty] at inQueue
    · exact .inr (.inl fired)
    · exact absurd toRead (not_toRead_of_idle idle)
  · obtain ⟨queue, read⟩ := moved
    refine ⟨limit.trans complete.unlimited, complete.small, fun other mem => ?_⟩
    show other ∈ service.timerQueue ∨ other ∈ world.fired ∨ _
    rw [queue]
    rcases complete.held other mem with inQueue | fired | toRead
    · exact .inl inQueue
    · exact .inr (.inl fired)
    · exact .inr (.inr ((toRead_congr read maxFired).mpr toRead))

theorem Complete.ready (coherent : world.Coherent) (complete : world.Complete) {timer : κ}
    (stepped : TimerService.pollStep wakeUpTime world.now world.service = some (.ready timer, service)) :
    Complete { world with service, fired := insert timer world.fired } := by
  obtain ⟨⟨timerBatch, state⟩, -, queue, limit, read, -⟩ := pollStep_ready stepped
  have idle : world.service.readFuture = .idle := ((phase_processTimers state).mp coherent.phase).1
  refine ⟨limit.trans complete.unlimited, complete.small, fun other mem => ?_⟩
  show other ∈ service.timerQueue ∨ other ∈ insert timer world.fired ∨ _
  rw [queue]
  rcases complete.held other mem with inQueue | fired | toRead
  · by_cases same : other = timer
    · exact .inr (.inl (Finset.mem_insert.mpr (.inl same)))
    · exact .inl (Finset.mem_erase.mpr ⟨same, inQueue⟩)
  · exact .inr (.inl (Finset.mem_insert_of_mem fired))
  · exact absurd toRead (not_toRead_of_idle idle)

theorem Complete.completeRead (inv : world.Invariant) (complete : world.Complete) {timer : Option κ}
    (stepped : world.step wakeUpTime .completeRead = some (after, timer)) : after.Complete := by
  simp only [World.step] at stepped
  split at stepped
  case h_1 numTimers previousTimerKey read =>
    cases stepped
    obtain ⟨removed, -, -, -, loading⟩ := inv.loading (by simp [read])
    obtain ⟨started, asked⟩ := (loading_pending read).mp loading
    rw [complete.unlimited, Option.getD_none] at asked
    subst started asked
    refine ⟨complete.unlimited, complete.small, fun other mem => ?_⟩
    rcases complete.held other mem with inQueue | fired | toRead
    · exact .inl inQueue
    · exact .inr (.inl fired)
    · simp only [ToRead, read] at toRead
      refine .inr (.inr (mem_popMins ?_ ?_))
      · exact (Finset.card_filter_le _ _).trans complete.small.le
      · exact Finset.mem_filter.mpr ⟨mem, (all_lt_iff_above _ _).mpr toRead⟩
  case h_2 => cases stepped

theorem Complete.step (inv : world.Invariant) (complete : world.Complete) {event : Event κ} {timer : Option κ}
    (proper : world.Proper event) (stepped : world.step wakeUpTime event = some (after, timer)) : after.Complete := by
  cases event with
  | addTimer added =>
    obtain ⟨service, addedEq, outcome⟩ := Option.map_eq_some_iff.mp stepped
    cases outcome
    exact complete.addTimer proper addedEq
  | removeTimer key =>
    obtain ⟨service, removedEq, outcome⟩ := Option.map_eq_some_iff.mp stepped
    cases outcome
    exact complete.removeTimer removedEq
  | pollNextTimer =>
    obtain ⟨⟨fired, service⟩, polledEq, outcome⟩ := Option.map_eq_some_iff.mp stepped
    cases outcome
    exact inv.pollLoop_keeps Complete (fun coherent complete' stepped' => complete'.next coherent stepped')
      (fun coherent complete' stepped' => complete'.ready coherent stepped')
      pollRounds (fun timerBatch triggered => absurd triggered (inv.settled timerBatch)) complete polledEq
  | completeRead => exact complete.completeRead inv stepped
  | advanceClock time =>
    simp only [World.step] at stepped
    split at stepped
    · cases stepped
      exact ⟨complete.unlimited, complete.small, complete.held⟩
    · cases stepped

end Events

theorem Reachable.complete {world : World κ} (reachable : Reachable wakeUpTime world)
    (unlimited : world.service.numTimersInMemoryLimit = none) : world.Complete := by
  induction reachable with
  | init numTimersInMemoryLimit storage now limit small =>
    cases unlimited
    exact complete_new storage now small
  | step reachable proper stepped ih =>
    have before := (reachable.invariant.step_limit stepped).symm.trans unlimited
    exact (ih before).step reachable.invariant proper stepped

/-- Without a memory limit no stored timer is lost: in every reachable world outside a load, each
stored timer is in memory or has already fired. -/
theorem stored_timer_never_lost {world : World κ} (reachable : Reachable wakeUpTime world)
    (unlimited : world.service.numTimersInMemoryLimit = none)
    (notLoading : ∀ removedTimers, world.service.state ≠ .loadTimers removedTimers) :
    ∀ timer ∈ world.storage, timer ∈ world.service.timerQueue ∨ timer ∈ world.fired := by
  intro timer mem
  have idle := readFuture_eq_idle reachable.invariant.phase notLoading
  rcases (reachable.complete unlimited).held timer mem with inQueue | fired | toRead
  · exact .inl inQueue
  · exact .inr fired
  · exact absurd toRead (not_toRead_of_idle idle)

/-- A new service without a limit over three stored timers. -/
def unlimitedStart : World Nat := { service := TimerService.new none, storage := {1, 2, 3}, now := 0, fired := ∅ }

/-- Storage returns every timer, the service loads them, and a fourth timer is added. -/
def unlimitedEvents : List (Event Nat) := [.completeRead, .pollNextTimer, .addTimer 4]

def unlimitedWorld : World Nat := ((run id unlimitedStart unlimitedEvents).map Prod.fst).getD unlimitedStart

theorem unlimitedWorld_reachable : Reachable id unlimitedWorld :=
  @Reachable.run Nat _ id unlimitedStart (.init none {1, 2, 3} 0 (by decide) (by decide)) unlimitedEvents
    unlimitedWorld (by decide) rfl

theorem unlimitedWorld_never_lost :
    unlimitedWorld.service.numTimersInMemoryLimit = none ∧ unlimitedWorld.service.state = .processTimers (some 4) (.awaitTimer 1) ∧
      ∀ timer ∈ unlimitedWorld.storage, timer ∈ unlimitedWorld.service.timerQueue ∨ timer ∈ unlimitedWorld.fired :=
  ⟨rfl, rfl, stored_timer_never_lost unlimitedWorld_reachable rfl (fun removedTimers loading => by
    rw [show unlimitedWorld.service.state = .processTimers (some 4) (.awaitTimer 1) from rfl] at loading
    cases loading)⟩

/-- An event that adds or deletes no timer: a poll, storage completing a read, or the clock moving
on. -/
def Quiet : Event κ → Prop
  | .pollNextTimer | .completeRead | .advanceClock _ => True
  | .addTimer _ | .removeTimer _ => False

section Idle

variable {world after : World κ}

theorem Invariant.quiet_idle (inv : world.Invariant) (idle : world.service.state = .idle) {event : Event κ}
    (quiet : Quiet event) {timer : Option κ} (stepped : world.step wakeUpTime event = some (after, timer)) :
    timer = none ∧ after.Invariant ∧ after.service = world.service ∧ after.storage = world.storage ∧
      after.fired = world.fired := by
  have afterInv := inv.step stepped
  cases event with
  | addTimer _ => exact quiet.elim
  | removeTimer _ => exact quiet.elim
  | pollNextTimer =>
    -- the first round of the loop finds the service idle and returns
    simp only [World.step, TimerService.pollNextTimer, pollRounds, TimerService.pollLoop, TimerService.pollStep, idle,
      Option.bind_eq_bind, Option.bind_some, Option.pure_def, Option.map_some, Option.some.injEq, Prod.mk.injEq] at stepped
    obtain ⟨rfl, rfl⟩ := stepped
    exact ⟨rfl, afterInv, rfl, rfl, rfl⟩
  | completeRead =>
    have read := ((phase_idle idle).mp inv.phase).1
    simp [World.step, read] at stepped
  | advanceClock time =>
    simp only [World.step] at stepped
    split at stepped
    · cases stepped
      exact ⟨rfl, afterInv, rfl, rfl, rfl⟩
    · cases stepped

theorem Invariant.quiet_run (inv : world.Invariant) (idle : world.service.state = .idle) {events : List (Event κ)}
    (quiet : ∀ event ∈ events, Quiet event) {final : World κ} {fired : List κ}
    (ran : run wakeUpTime world events = some (final, fired)) :
    fired = [] ∧ final.service = world.service ∧ final.storage = world.storage ∧ final.fired = world.fired := by
  induction events generalizing world fired with
  | nil =>
    simp only [World.run, Option.some.injEq, Prod.mk.injEq] at ran
    obtain ⟨rfl, rfl⟩ := ran
    exact ⟨rfl, rfl, rfl, rfl⟩
  | cons event events ih =>
    cases stepped : world.step wakeUpTime event with
    | none => simp [World.run, stepped] at ran
    | some result =>
      obtain ⟨after, timer⟩ := result
      obtain ⟨rfl, afterInv, service, storage, firedEq⟩ :=
        inv.quiet_idle idle (quiet event List.mem_cons_self) stepped
      cases later : run wakeUpTime after events with
      | none => simp [World.run, stepped, later] at ran
      | some outcome =>
        obtain ⟨final', fired'⟩ := outcome
        simp only [World.run, stepped, later, Option.bind_eq_bind, Option.bind_some, Option.pure_def,
          Option.some.injEq, Prod.mk.injEq, Option.toList_none, List.nil_append] at ran
        obtain ⟨rfl, rfl⟩ := ran
        obtain ⟨none, sameService, sameStorage, sameFired⟩ :=
          ih afterInv (service ▸ idle) (fun event mem => quiet event (List.mem_cons_of_mem _ mem)) later
        exact ⟨none, sameService.trans service, sameStorage.trans storage, sameFired.trans firedEq⟩

end Idle

/-- A new service with a limit of one timer over two stored timers. -/
def strandedStart : World Nat := { service := TimerService.new (some 1), storage := {1, 2}, now := 0, fired := ∅ }

/-- Storage returns the first timer, which is deleted while the read is in flight, so the load
finds nothing. -/
def strandingEvents : List (Event Nat) := [.completeRead, .removeTimer 1, .pollNextTimer]

def strandedWorld : World Nat := ((run id strandedStart strandingEvents).map Prod.fst).getD strandedStart

/-- With a limit, a stored timer can be lost: when the one timer of a full read is deleted while the
read is in flight, the load leaves the service idle although storage still holds the second timer,
which is neither in memory nor fired, and no run of polls, reads and clock ticks ever fires it, however
far past its wake-up time the clock goes. -/
theorem stored_timer_stranded :
    Reachable id strandedWorld ∧ strandedWorld.service.numTimersInMemoryLimit = some 1 ∧
      strandedWorld.service.state = .idle ∧ 2 ∈ strandedWorld.storage ∧ 2 ∉ strandedWorld.service.timerQueue ∧
      2 ∉ strandedWorld.fired ∧
      ∀ events : List (Event Nat), (∀ event ∈ events, Quiet event) → ∀ final fired,
        run id strandedWorld events = some (final, fired) →
          fired = [] ∧ final.service.state = .idle ∧ 2 ∈ final.storage ∧ 2 ∉ final.fired := by
  have reachable : Reachable id strandedWorld :=
    @Reachable.run Nat _ id strandedStart (.init (some 1) {1, 2} 0 (by decide) (by decide)) strandingEvents
      strandedWorld (by decide) rfl
  have idle : strandedWorld.service.state = .idle := by decide
  refine ⟨reachable, rfl, idle, by decide, by decide, by decide, ?_⟩
  intro events quiet final fired ran
  obtain ⟨none, service, storage, firedEq⟩ := reachable.invariant.quiet_run idle quiet ran
  refine ⟨none, service ▸ idle, ?_, ?_⟩
  · rw [storage]
    decide
  · rw [firedEq]
    decide

end World

end Timer

end Restate
