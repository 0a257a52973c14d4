import Mathlib
import Restate.Memory.Accounting

/-! The memory budgets conserve their bytes. Over every run of the API whose calls keep the
expectations the code asserts only in debug builds (a local pool is built on a lease of its own
pool, no larger than its upper bound; local leases merge only within one pool; in-flight bytes stay
below the dead bit), the bounded pool's `used` is the sum of what its live leases hold, what the
live local pools hold as capacity, and what the orphaned leases of dropped local pools still hold;
each live local pool counts in flight exactly the bytes of its leases, within its capacity, and its
capacity stays within its upper bound. No `fetch_sub` ever wraps, and no `assert!` of a drop fires.
A `reserve` that `try_reserve` turns down past the upper bound is never granted, whatever the other
parties do meanwhile. -/

namespace Restate

namespace Memory

namespace World

/-- What the code expects of a call but checks only with `debug_assert!`, or states in a comment:
a local pool is built on a lease of its own budget, no larger than its upper bound; in-flight bytes
stay below the dead bit; local leases merge only within one pool. -/
def Proper (world : World) : Call → Prop
  | .newLocal budget name _ upperBound =>
    ∀ lease ∈ world.leases.lookup name, lease.budget = budget ∧ lease.size ≤ upperBound
  | .localTryReserve name size | .localReserve name size _ =>
    ∀ pool ∈ world.locals.lookup name, ∀ state ∈ world.shared.lookup pool.shared,
      state.inFlight.toNat + size.toNat < 2 ^ 63
  | .localMerge name other =>
    ∀ lease ∈ world.localLeases.lookup name, ∀ otherLease ∈ world.localLeases.lookup other,
      lease.shared = otherLease.shared
  | _ => True

instance (world : World) (call : Call) : Decidable (world.Proper call) := by
  cases call <;> unfold Proper <;> infer_instance

theorem Invariant.step {world after : World} {call : Call} (inv : world.Invariant) (proper : world.Proper call)
    (stepped : world.step call = some after) : after.Invariant := by
  cases call with
  | tryReserve budget size =>
    obtain ⟨⟨lease, inner⟩, reserved, rfl⟩ := Option.map_eq_some_iff.mp stepped
    exact inv.of_addLease lease (Budget.used_tryReserve reserved)
  | forceReserve budget size =>
    obtain ⟨⟨lease, inner⟩, reserved, rfl⟩ := Option.map_eq_some_iff.mp stepped
    exact inv.of_addLease lease (Budget.used_forceReserve reserved)
  | setCapacity capacity =>
    simp only [World.step] at stepped
    split at stepped
    · cases stepped
    · cases stepped
      exact inv.of_leaseCall rfl rfl rfl le_rfl (fun name late => (inv.fresh name late).1) rfl
  | emptyLease budget =>
    cases stepped
    exact inv.of_addLease _ (by simp [Budget.emptyLease, MemoryLease.held])
  | unlinked =>
    cases stepped
    exact inv.of_addLease _ (by simp [MemoryLease.unlinked])
  | shrink name amount =>
    simp only [World.step, Option.bind_eq_bind, Option.bind_eq_some_iff, Option.pure_def, Option.some.injEq] at stepped
    obtain ⟨lease, found, rfl⟩ := stepped
    exact inv.of_setLease found _ (MemoryLease.used_shrink (inv.held_le_used found) amount)
  | release name =>
    simp only [World.step, Option.bind_eq_bind, Option.bind_eq_some_iff, Option.pure_def, Option.some.injEq] at stepped
    obtain ⟨lease, found, rfl⟩ := stepped
    exact inv.of_setLease found _ (MemoryLease.used_release (inv.held_le_used found))
  | tryGrow name additional =>
    simp only [World.step, Option.bind_eq_bind, Option.bind_eq_some_iff, Option.pure_def, Option.some.injEq] at stepped
    obtain ⟨lease, found, rfl⟩ := stepped
    exact inv.of_setLease found _ (MemoryLease.used_tryGrow (inv.held_le_used found) additional)
  | grow name additional =>
    simp only [World.step, Option.bind_eq_bind, Option.bind_eq_some_iff, Option.pure_def, Option.some.injEq] at stepped
    obtain ⟨lease, found, ⟨grown, inner⟩, grew, rfl⟩ := stepped
    exact inv.of_setLease found grown (MemoryLease.used_grow (inv.held_le_used found) grew)
  | split name amount =>
    simp only [World.step, Option.bind_eq_bind, Option.bind_eq_some_iff, Option.pure_def, Option.some.injEq] at stepped
    obtain ⟨lease, found, ⟨kept, part⟩, split, rfl⟩ := stepped
    exact inv.of_splitLease found kept part (MemoryLease.held_split split)
  | merge name other =>
    by_cases differ : name = other
    · simp [World.step, differ] at stepped
    simp only [World.step, differ, if_false, Option.bind_eq_bind, Option.bind_eq_some_iff, Option.pure_def,
      Option.some.injEq] at stepped
    obtain ⟨lease, found, otherLease, otherFound, rfl⟩ := stepped
    exact inv.of_mergeLeases differ found otherFound _
      (MemoryLease.used_merge otherLease (inv.held_add_held_le_used differ found otherFound))
  | take name =>
    simp only [World.step, Option.bind_eq_bind, Option.bind_eq_some_iff, Option.pure_def, Option.some.injEq] at stepped
    obtain ⟨lease, found, rfl⟩ := stepped
    exact inv.of_splitLease found _ _ MemoryLease.held_take
  | newEmpty name =>
    simp only [World.step, Option.bind_eq_bind, Option.bind_eq_some_iff, Option.pure_def, Option.some.injEq] at stepped
    obtain ⟨lease, found, rfl⟩ := stepped
    exact inv.of_addLease _ (by simp)
  | dropLease name =>
    simp only [World.step, Option.bind_eq_bind, Option.bind_eq_some_iff, Option.pure_def, Option.some.injEq] at stepped
    obtain ⟨lease, found, rfl⟩ := stepped
    exact inv.of_dropLease found (MemoryLease.used_drop (inv.held_le_used found))
  | newLocal budget name minReserved upperBound =>
    by_cases zero : upperBound = 0
    · simp [World.step, zero] at stepped
    simp only [World.step, zero, if_false, Option.bind_eq_bind, Option.bind_eq_some_iff, Option.pure_def,
      Option.some.injEq] at stepped
    obtain ⟨capacity, found, rfl⟩ := stepped
    obtain ⟨sameBudget, withinBound⟩ := proper capacity found
    have erased := KeyMap.total_erase (fun _ lease => lease.held) world.leases name
    rw [KeyMap.weightAt_of_lookup _ found] at erased
    refine inv.of_addLocal erased (fun key late => ?_) sameBudget withinBound
    by_cases same : key = name
    · subst same
      exact AList.lookup_erase _ _
    · rw [AList.lookup_erase_ne same]
      exact (inv.fresh key late).1
  | unlimitedLocal =>
    cases stepped
    exact inv.of_addLocal (by simp [Budget.emptyLease, leaseBytes]) (fun key late => (inv.fresh key late).1) rfl
      (by decide)
  | localTryReserve name size =>
    simp only [World.step, Option.bind_eq_bind, Option.bind_eq_some_iff, Option.pure_def] at stepped
    obtain ⟨pool, found, state, stateFound, reserved⟩ := stepped
    split at reserved
    · next lease pool' state' inner reservedEq =>
      cases reserved
      exact inv.of_reserve found stateFound (proper pool found state stateFound) reservedEq
    · cases reserved
      exact inv
  | localReserve name size pinned =>
    simp only [World.step, Option.bind_eq_bind, Option.bind_eq_some_iff, Option.pure_def] at stepped
    obtain ⟨pool, found, state, stateFound, ⟨outcome, pool', state', inner⟩, turned, rest⟩ := stepped
    rcases LocalMemoryPool.reserveTurn_cases turned with ⟨lease, rfl, reserved⟩ | ⟨notReady, poolEq, stateEq, innerEq⟩
    · cases rest
      exact inv.of_reserve found stateFound (proper pool found state stateFound) reserved
    · -- a turn that hands out nothing puts the pool and its counter back as they were
      subst pool' state' inner
      have unchanged : after = { world with
          locals := world.locals.insert name pool
          shared := world.shared.insert pool.shared state } := by
        cases outcome with
        | ready lease => exact absurd rfl (notReady lease)
        | outOfMemory error => cases rest; rfl
        | pending => cases rest; rfl
      obtain ⟨state'', stateFound', named, livePool⟩ := inv.live found
      rw [named, stateFound'] at stateFound
      cases stateFound
      subst unchanged
      refine inv.of_setPool found stateFound' (fun key => ?_) named livePool.withinCapacity livePool.withinBound rfl rfl
      by_cases same : key = name
      · subst same
        rw [named, AList.lookup_insert, stateFound']
      · rw [named, AList.lookup_insert_ne same]
  | releaseExcess name =>
    simp only [World.step, Option.bind_eq_bind, Option.bind_eq_some_iff, Option.pure_def, Option.some.injEq] at stepped
    obtain ⟨pool, found, state, stateFound, rfl⟩ := stepped
    obtain ⟨state', stateFound', named, livePool⟩ := inv.live found
    rw [named, stateFound'] at stateFound
    cases stateFound
    obtain ⟨capacity, released, budgetEq, sizeEq, balanced⟩ :=
      LocalMemoryPool.releaseExcess_spec livePool.belowDead (inv.capacity_held_le_used found)
    have within := livePool.withinCapacity
    have bounded := UInt64.le_iff_toNat_le.mp livePool.withinBound
    refine inv.of_setPool found stateFound' (fun _ => rfl) (by rw [released]; exact named) ?_ ?_
      (by rw [released]; exact budgetEq) (by rw [released]; exact balanced)
    · rw [released]
      show _ ≤ capacity.size.toNat
      omega
    · rw [released, UInt64.le_iff_toNat_le]
      show capacity.size.toNat ≤ pool.upperBound.toNat
      omega
  | localEmptyLease name =>
    simp only [World.step, Option.bind_eq_bind, Option.bind_eq_some_iff, Option.pure_def, Option.some.injEq] at stepped
    obtain ⟨pool, found, rfl⟩ := stepped
    obtain ⟨state, stateFound, named, -⟩ := inv.live found
    obtain ⟨-, -, -, localLeasesFresh⟩ := inv.fresh world.next le_rfl
    refine inv.of_localLeaseCall (Nat.le_succ _) (fun key late => ?_) (fun key lease found' => ?_)
      (fun picked => ?_)
    · rw [AList.lookup_insert_ne (by omega)]
      exact (inv.fresh key (by omega)).2.2.2
    · by_cases same : key = world.next
      · subst same
        rw [AList.lookup_insert] at found'
        cases found'
        show (world.shared.lookup pool.shared).isSome
        rw [named, stateFound]
        rfl
      · rw [AList.lookup_insert_ne same] at found'
        exact inv.owned key lease found'
    · rw [bytesOf_insert_of_none _ localLeasesFresh]
      simp [LocalMemoryPool.emptyLease]
  | dropLocal name =>
    simp only [World.step, Option.bind_eq_bind, Option.bind_eq_some_iff, Option.pure_def, Option.some.injEq] at stepped
    obtain ⟨pool, found, state, stateFound, ⟨state', inner⟩, dropped, rfl⟩ := stepped
    exact inv.of_dropLocal found stateFound dropped
  | localMerge name other =>
    by_cases differ : name = other
    · simp [World.step, differ] at stepped
    simp only [World.step, differ, if_false, Option.bind_eq_bind, Option.bind_eq_some_iff, Option.pure_def,
      Option.some.injEq] at stepped
    obtain ⟨lease, found, otherLease, otherFound, rfl⟩ := stepped
    have sameShared := proper lease found otherLease otherFound
    obtain ⟨state, stateFound⟩ := Option.isSome_iff_exists.mp (inv.owned name lease found)
    have below := inv.inFlightOf_lt stateFound
    have both := size_add_size_le_bytesOf (fun owner => owner == lease.shared) differ found otherFound
      (by simp) (by simp [sameShared])
    have early := inv.lt_next_of_localLease found
    refine inv.of_localLeaseCall le_rfl (fun key late => ?_) ?_
      (fun picked => bytesOf_merge picked differ found otherFound rfl sameShared.symm ?_)
    · rw [AList.lookup_insert_ne (by omega)]
      by_cases same : key = other
      · subst same
        exact AList.lookup_erase _ _
      · rw [AList.lookup_erase_ne same]
        exact (inv.fresh key late).2.2.2
    · refine KeyMap.forall_lookup_insert (KeyMap.forall_lookup_erase inv.owned other) ?_
      exact inv.owned name lease found
    · unfold inFlightOf at below
      exact toNat_add_of_lt (by omega)
  | localSplit name amount =>
    simp only [World.step, Option.bind_eq_bind, Option.bind_eq_some_iff, Option.pure_def, Option.some.injEq] at stepped
    obtain ⟨lease, found, ⟨kept, part⟩, splitOff, rfl⟩ := stepped
    unfold LocalMemoryLease.split at splitOff
    split at splitOff
    · next within =>
      cases splitOff
      have early := inv.lt_next_of_localLease found
      refine inv.of_localLeaseCall (Nat.le_succ _) (fun key late => ?_) ?_
        (fun picked => bytesOf_split picked found ?_ rfl rfl ?_)
      · have late : world.next + 1 ≤ key := late
        rw [AList.lookup_insert_ne (by omega), AList.lookup_insert_ne (by omega)]
        exact (inv.fresh key (by omega)).2.2.2
      · refine KeyMap.forall_lookup_insert (KeyMap.forall_lookup_insert inv.owned ?_) ?_ <;>
          exact inv.owned name lease found
      · show (world.localLeases.insert name _).lookup world.next = none
        rw [AList.lookup_insert_ne (by omega)]
        exact (inv.fresh world.next le_rfl).2.2.2
      · show (lease.size - amount).toNat + amount.toNat = lease.size.toNat
        have bound := UInt64.le_iff_toNat_le.mp within
        rw [UInt64.toNat_sub_of_le _ _ within]
        omega
    · cases splitOff
  | localShrink name amount =>
    simp only [World.step, Option.bind_eq_bind, Option.bind_eq_some_iff, Option.pure_def, Option.some.injEq] at stepped
    obtain ⟨lease, found, state, stateFound, rfl⟩ := stepped
    have early := inv.lt_next_of_localLease found
    rw [LocalMemoryLease.shrink_eq]
    refine inv.of_returnLocal stateFound
      (fun key late => by rw [AList.lookup_insert_ne (by omega)]; exact (inv.fresh key late).2.2.2) ?_
      (fun picked => bytesOf_shrink picked found (UInt64.le_iff_toNat_le.mpr (by rw [UInt64.toNat_min]; omega)))
    refine KeyMap.forall_lookup_insert inv.owned ?_
    exact inv.owned name lease found
  | dropLocalLease name =>
    simp only [World.step, Option.bind_eq_bind, Option.bind_eq_some_iff, Option.pure_def, Option.some.injEq] at stepped
    obtain ⟨lease, found, state, stateFound, rfl⟩ := stepped
    have early := inv.lt_next_of_localLease found
    rw [LocalMemoryLease.drop_eq]
    exact inv.of_returnLocal stateFound
      (fun key late => by rw [AList.lookup_erase_ne (by omega)]; exact (inv.fresh key late).2.2.2)
      (KeyMap.forall_lookup_erase inv.owned name) (fun picked => bytesOf_erase picked found)

/-- The worlds a process reaches from a fresh bounded pool through calls the code expects. -/
inductive Reachable : World → Prop
  | withCapacity (capacity : UInt64) : Reachable (withCapacity capacity)
  | step {world after : World} {call : Call} :
      Reachable world → world.Proper call → world.step call = some after → Reachable after

theorem Invariant.of_reachable {world : World} (reachable : world.Reachable) : world.Invariant := by
  induction reachable with
  | withCapacity capacity => exact Invariant.of_withCapacity capacity
  | step _ proper stepped inv => exact inv.step proper stepped

end World

/-- The local pool a call acts on through `&mut self`, which only the pool's owner holds. -/
def Call.owner : Call → Option Nat
  | .localTryReserve pool _ | .localReserve pool _ _ | .releaseExcess pool | .dropLocal pool => some pool
  | _ => none

namespace World

theorem step_frame {world after : World} {call : Call} (stepped : world.step call = some after) {name : Nat}
    (early : name < world.next) (other : call.owner ≠ some name) :
    after.locals.lookup name = world.locals.lookup name ∧ world.next ≤ after.next := by
  cases call with
  | tryReserve budget size | forceReserve budget size =>
    obtain ⟨_, _, rfl⟩ := Option.map_eq_some_iff.mp stepped
    exact ⟨rfl, Nat.le_succ _⟩
  | emptyLease budget =>
    cases stepped
    exact ⟨rfl, Nat.le_succ _⟩
  | unlinked =>
    cases stepped
    exact ⟨rfl, Nat.le_succ _⟩
  | setCapacity capacity =>
    simp only [World.step] at stepped
    split at stepped
    · cases stepped
    · cases stepped
      exact ⟨rfl, le_rfl⟩
  | shrink name amount | release name | tryGrow name amount | grow name amount | dropLease name =>
    simp only [World.step, Option.bind_eq_bind, Option.bind_eq_some_iff, Option.pure_def, Option.some.injEq]
      at stepped
    obtain ⟨_, _, stepped⟩ := stepped
    first
      | (obtain rfl := stepped; exact ⟨rfl, le_rfl⟩)
      | (obtain ⟨_, _, rfl⟩ := stepped; exact ⟨rfl, le_rfl⟩)
  | split name amount | localSplit name amount =>
    simp only [World.step, Option.bind_eq_bind, Option.bind_eq_some_iff, Option.pure_def, Option.some.injEq]
      at stepped
    obtain ⟨_, _, _, _, rfl⟩ := stepped
    exact ⟨rfl, Nat.le_succ _⟩
  | take name | newEmpty name | localEmptyLease name =>
    simp only [World.step, Option.bind_eq_bind, Option.bind_eq_some_iff, Option.pure_def, Option.some.injEq]
      at stepped
    obtain ⟨_, _, rfl⟩ := stepped
    exact ⟨rfl, Nat.le_succ _⟩
  | merge name other' | localMerge name other' =>
    by_cases same : name = other'
    · simp [World.step, same] at stepped
    simp only [World.step, same, if_false, Option.bind_eq_bind, Option.bind_eq_some_iff, Option.pure_def,
      Option.some.injEq] at stepped
    obtain ⟨_, _, _, _, rfl⟩ := stepped
    exact ⟨rfl, le_rfl⟩
  | localShrink name amount | dropLocalLease name =>
    simp only [World.step, Option.bind_eq_bind, Option.bind_eq_some_iff, Option.pure_def, Option.some.injEq]
      at stepped
    obtain ⟨_, _, _, _, rfl⟩ := stepped
    exact ⟨rfl, le_rfl⟩
  | newLocal budget capacity minReserved upperBound =>
    by_cases zero : upperBound = 0
    · simp [World.step, zero] at stepped
    simp only [World.step, zero, if_false, Option.bind_eq_bind, Option.bind_eq_some_iff, Option.pure_def,
      Option.some.injEq] at stepped
    obtain ⟨_, _, rfl⟩ := stepped
    exact ⟨by simp only [locals_addLocal, AList.lookup_insert_ne early.ne], Nat.le_succ _⟩
  | unlimitedLocal =>
    cases stepped
    exact ⟨by simp only [locals_addLocal, AList.lookup_insert_ne early.ne], Nat.le_succ _⟩
  | localTryReserve pool size =>
    have differ : name ≠ pool := fun same => other (by rw [same]; rfl)
    simp only [World.step, Option.bind_eq_bind, Option.bind_eq_some_iff, Option.pure_def] at stepped
    obtain ⟨found, _, state, _, reserved⟩ := stepped
    split at reserved
    · cases reserved
      exact ⟨by simp only [locals_addLocalLease, AList.lookup_insert_ne differ], Nat.le_succ _⟩
    · cases reserved
      exact ⟨rfl, le_rfl⟩
  | localReserve pool size pinned =>
    have differ : name ≠ pool := fun same => other (by rw [same]; rfl)
    simp only [World.step, Option.bind_eq_bind, Option.bind_eq_some_iff, Option.pure_def] at stepped
    obtain ⟨_, _, _, _, ⟨outcome, _, _, _⟩, _, rest⟩ := stepped
    cases outcome with
    | ready lease =>
      cases rest
      exact ⟨by simp only [locals_addLocalLease, AList.lookup_insert_ne differ], Nat.le_succ _⟩
    | outOfMemory error =>
      cases rest
      exact ⟨AList.lookup_insert_ne differ, le_rfl⟩
    | pending =>
      cases rest
      exact ⟨AList.lookup_insert_ne differ, le_rfl⟩
  | releaseExcess pool =>
    have differ : name ≠ pool := fun same => other (by rw [same]; rfl)
    simp only [World.step, Option.bind_eq_bind, Option.bind_eq_some_iff, Option.pure_def, Option.some.injEq]
      at stepped
    obtain ⟨_, _, _, _, rfl⟩ := stepped
    exact ⟨AList.lookup_insert_ne differ, le_rfl⟩
  | dropLocal pool =>
    have differ : name ≠ pool := fun same => other (by rw [same]; rfl)
    simp only [World.step, Option.bind_eq_bind, Option.bind_eq_some_iff, Option.pure_def, Option.some.injEq]
      at stepped
    obtain ⟨_, _, _, _, _, _, rfl⟩ := stepped
    exact ⟨AList.lookup_erase_ne differ, le_rfl⟩

theorem run_frame {world after : World} {calls : List Call} (ran : world.run calls = some after) {name : Nat}
    (early : name < world.next) (others : ∀ call ∈ calls, call.owner ≠ some name) :
    after.locals.lookup name = world.locals.lookup name := by
  induction calls generalizing world with
  | nil =>
    cases ran
    rfl
  | cons call calls ih =>
    simp only [World.run, List.foldlM_cons] at ran
    cases stepped : world.step call with
    | none =>
      rw [stepped] at ran
      cases ran
    | some next =>
      rw [stepped] at ran
      obtain ⟨same, later⟩ := step_frame stepped early (others call List.mem_cons_self)
      rw [ih ran (by omega) fun call member => others call (List.mem_cons_of_mem _ member), same]

/-- Whether each call of a sequence is one the code expects in the world it meets; a call that
fails ends the run. -/
def properRun (world : World) : List Call → Bool
  | [] => true
  | call :: calls =>
    decide (world.Proper call) &&
      match world.step call with
      | some after => properRun after calls
      | none => true

theorem Reachable.run {world after : World} {calls : List Call} (reachable : world.Reachable)
    (proper : world.properRun calls = true) (ran : world.run calls = some after) : after.Reachable := by
  induction calls generalizing world with
  | nil =>
    cases ran
    exact reachable
  | cons call calls ih =>
    simp only [properRun, Bool.and_eq_true, decide_eq_true_eq] at proper
    obtain ⟨proper, rest⟩ := proper
    simp only [World.run, List.foldlM_cons] at ran
    cases stepped : world.step call with
    | none =>
      rw [stepped] at ran
      cases ran
    | some next =>
      rw [stepped] at ran rest
      exact ih (reachable.step proper stepped) rest ran

/-- A lease of 10 bytes of a bounded pool, a local pool on it with upper bound 50, and a reservation
of 30 from that, which grows its capacity by the deficit of 20. -/
def busyCalls : List Call := [.tryReserve .bounded 10, .newLocal .bounded 0 0 50, .localTryReserve 1 30]

def busyWorld : World := ((withCapacity 100).run busyCalls).getD (withCapacity 0)

theorem busyWorld_reachable : busyWorld.Reachable :=
  @Reachable.run (withCapacity 100) busyWorld busyCalls (.withCapacity 100) (by decide) rfl

/-- The local pool is dropped, and then its orphaned lease. -/
def drainCalls : List Call := [.dropLocal 1, .dropLocalLease 2]

def drainedWorld : World := (busyWorld.run drainCalls).getD busyWorld

theorem drainedWorld_reachable : drainedWorld.Reachable :=
  @Reachable.run busyWorld drainedWorld drainCalls busyWorld_reachable (by decide) rfl

/-- In every reachable world the bounded pool counts as used exactly what the live leases hold, what
the live local pools hold as capacity, and what the orphaned leases of dropped local pools still
hold: no return ever wraps `used` around. -/
theorem used_eq_held_bytes {world : World} (reachable : world.Reachable) :
    world.inner.used.toNat = world.leaseBytes + world.capacityBytes + world.withheldBytes :=
  (Invariant.of_reachable reachable).conserved

theorem busyWorld_used_eq_held_bytes :
    busyWorld.inner.used.toNat = busyWorld.leaseBytes + busyWorld.capacityBytes + busyWorld.withheldBytes :=
  used_eq_held_bytes busyWorld_reachable

/-- No byte leaks: once every lease, local pool and local lease of a reachable world is dropped, the
bounded pool counts nothing as used. -/
theorem used_zero_of_all_dropped {world : World} (reachable : world.Reachable) (noLeases : world.leases = ∅)
    (noLocals : world.locals = ∅) (noLocalLeases : world.localLeases = ∅) : world.inner.used = 0 := by
  have conserved := (Invariant.of_reachable reachable).conserved
  unfold leaseBytes capacityBytes withheldBytes bytesOf at conserved
  rw [noLeases, noLocals, noLocalLeases] at conserved
  simp only [KeyMap.total_empty, Nat.add_zero] at conserved
  rw [← UInt64.toNat_inj, conserved, UInt64.toNat_zero]

theorem drainedWorld_used_zero : drainedWorld.inner.used = 0 :=
  used_zero_of_all_dropped drainedWorld_reachable rfl rfl rfl

/-- In every reachable world, each live local pool's `in_flight()` is exactly the bytes of its
outstanding leases, within its local capacity, which stays within its upper bound. -/
theorem inFlight_eq_lease_bytes {world : World} (reachable : world.Reachable) {name : Nat}
    {pool : LocalMemoryPool} (found : world.locals.lookup name = some pool) :
    ∃ state, world.shared.lookup pool.shared = some state ∧
      (LocalMemoryPool.inFlight state).toNat = world.inFlightOf name ∧
      world.inFlightOf name ≤ pool.localCapacity.size.toNat ∧ pool.localCapacity.size ≤ pool.upperBound := by
  obtain ⟨state, stateFound, named, livePool⟩ := (Invariant.of_reachable reachable).live found
  refine ⟨state, named ▸ stateFound, ?_, livePool.counted ▸ livePool.withinCapacity, livePool.withinBound⟩
  rw [inFlight_of_lt livePool.belowDead, livePool.counted]

theorem busyWorld_inFlight_eq_lease_bytes :
    ∃ state, busyWorld.shared.lookup 1 = some state ∧
      (LocalMemoryPool.inFlight state).toNat = busyWorld.inFlightOf 1 ∧
      busyWorld.inFlightOf 1 ≤ (30 : UInt64).toNat ∧ (30 : UInt64) ≤ 50 :=
  @inFlight_eq_lease_bytes busyWorld busyWorld_reachable 1 ⟨1, ⟨.bounded, 30⟩, 0, 50⟩ rfl

/-- Dropping a live local pool of a reachable world never trips the `assert!` of its split, and gives
back to the bounded pool its capacity less the bytes its leases still hold. -/
theorem dropLocal_returns_capacity {world : World} (reachable : world.Reachable) {name : Nat}
    {pool : LocalMemoryPool} (found : world.locals.lookup name = some pool) :
    ∃ after, world.step (.dropLocal name) = some after ∧
      after.inner.used.toNat + pool.localCapacity.held =
        world.inner.used.toNat + if pool.localCapacity.budget = .bounded then world.inFlightOf name else 0 := by
  have inv := Invariant.of_reachable reachable
  obtain ⟨state, stateFound, named, livePool⟩ := inv.live found
  obtain ⟨inner, dropped, balanced⟩ :=
    LocalMemoryPool.drop_spec livePool.withinCapacity (inv.capacity_held_le_used found)
  refine ⟨{ world with
    locals := world.locals.erase name
    shared := world.shared.insert name { state with inFlight := deadBit }
    inner }, ?_, ?_⟩
  · have stateFound : world.shared.lookup pool.shared = some state := by rw [named]; exact stateFound
    simp only [World.step, found, stateFound, dropped, named, Option.bind_eq_bind, Option.bind_some, Option.pure_def]
  · rw [← livePool.counted]
    exact balanced

theorem busyWorld_dropLocal_returns_capacity :
    ∃ after, busyWorld.step (.dropLocal 1) = some after ∧
      after.inner.used.toNat + (⟨.bounded, 30⟩ : MemoryLease).held =
        busyWorld.inner.used.toNat + if Budget.bounded = .bounded then busyWorld.inFlightOf 1 else 0 :=
  @dropLocal_returns_capacity busyWorld busyWorld_reachable 1 ⟨1, ⟨.bounded, 30⟩, 0, 50⟩ rfl

/-- A `reserve` whose request is above the local capacity while capacity plus request passes the
upper bound is never granted, whatever calls the other parties make meanwhile: none of them can
change the pool, so every turn of its loop hands out nothing. -/
theorem reserve_never_granted {world : World} (reachable : world.Reachable) {name : Nat} {pool : LocalMemoryPool}
    (found : world.locals.lookup name = some pool) {size pinned : UInt64}
    (short : pool.localCapacity.size.toNat < size.toNat)
    (past : pool.upperBound.toNat < pool.localCapacity.size.toNat + size.toNat)
    (fits : pool.localCapacity.size.toNat + size.toNat < 2 ^ 64) {calls : List Call}
    (others : ∀ call ∈ calls, call.owner ≠ some name) {after next : World} (ran : world.run calls = some after)
    (turned : after.step (.localReserve name size pinned) = some next) : next.localLeases = after.localLeases := by
  have early := (Invariant.of_reachable reachable).lt_next_of_local found
  have kept := run_frame ran early others
  rw [found] at kept
  simp only [World.step, kept, Option.bind_eq_bind, Option.bind_some, Option.bind_eq_some_iff] at turned
  obtain ⟨state, -, ⟨outcome, pool', state', inner⟩, turn, rest⟩ := turned
  rw [LocalMemoryPool.reserveTurn, LocalMemoryPool.tryReserve_eq_none_of_over short past fits] at turn
  obtain ⟨checked, -, pairEq⟩ := Option.map_eq_some_iff.mp turn
  -- the turn reports an error or waits, and puts the pool back as it was
  cases checked <;> (simp only [Prod.mk.injEq] at pairEq; obtain ⟨rfl, -, -, -⟩ := pairEq; cases rest; rfl)

/-- A local pool on a lease of 10 bytes with upper bound 15. -/
def tightCalls : List Call := [.tryReserve .bounded 10, .newLocal .bounded 0 0 15]

def tightWorld : World := ((withCapacity 100).run tightCalls).getD (withCapacity 0)

theorem tightWorld_reachable : tightWorld.Reachable :=
  @Reachable.run (withCapacity 100) tightWorld tightCalls (.withCapacity 100) (by decide) rfl

/-- Another party takes 30 bytes of the bounded pool and gives them back. -/
def otherCalls : List Call := [.tryReserve .bounded 30, .dropLease 2]

def tightAfter : World := (tightWorld.run otherCalls).getD tightWorld

def tightNext : World := (tightAfter.step (.localReserve 1 12 0)).getD tightAfter

theorem tight_reserve_never_granted : tightNext.localLeases = tightAfter.localLeases :=
  @reserve_never_granted tightWorld tightWorld_reachable 1 ⟨1, ⟨.bounded, 10⟩, 0, 15⟩ rfl 12 0 (by decide)
    (by decide) (by decide) otherCalls (by decide) tightAfter tightNext rfl rfl

end World

end Memory

end Restate
