import Mathlib
import Restate.Memory.Pool

/-! What each call of the memory budgets does to the counters it touches: the bytes of the bounded
pool a lease holds, a local pool's in-flight counter and its dead bit, and the bytes each call takes
from or gives back to the bounded pool. Every fact is stated for one call, with the headroom it needs
from the callers as a hypothesis; `Restate.Memory.Accounting` sums them over a whole world.
`try_reserve` checks the whole request against the upper bound where it only grows the capacity by
the deficit, and `check_out_of_memory` counts on the growth: `reserve` then waits forever. -/

namespace Restate

namespace Memory

section Arithmetic

theorem toNat_add_of_lt {a b : UInt64} (fits : a.toNat + b.toNat < 2 ^ 64) : (a + b).toNat = a.toNat + b.toNat := by
  rw [UInt64.toNat_add, Nat.mod_eq_of_lt fits]

theorem checkedAdd_eq_some {a b sum : UInt64} (added : checkedAdd a b = some sum) :
    a.toNat + b.toNat < 2 ^ 64 ∧ sum.toNat = a.toNat + b.toNat := by
  unfold checkedAdd at added
  split at added
  · next fits =>
    cases added
    exact ⟨fits, toNat_add_of_lt fits⟩
  · cases added

theorem saturatingAdd_of_lt {a b : UInt64} (fits : a.toNat + b.toNat < 2 ^ 64) :
    (saturatingAdd a b).toNat = a.toNat + b.toNat := by
  rw [saturatingAdd, if_pos fits, toNat_add_of_lt fits]

theorem toNat_saturatingSub (a b : UInt64) : (saturatingSub a b).toNat = a.toNat - b.toNat := by
  unfold saturatingSub
  split
  · next below => rw [UInt64.toNat_sub_of_le _ _ below]
  · next above =>
    rw [UInt64.le_iff_toNat_le] at above
    simp only [UInt64.toNat_zero]
    omega

theorem toNat_deadBit : deadBit.toNat = 2 ^ 63 := by decide

theorem and_deadBit_eq_zero_iff (count : UInt64) : count &&& deadBit = 0 ↔ count.toNat < 2 ^ 63 := by
  rw [← UInt64.toNat_inj, UInt64.toNat_and, toNat_deadBit, Nat.and_two_pow, UInt64.toNat_zero]
  constructor
  · intro cleared
    have bit : count.toNat.testBit 63 = false := by
      cases bitEq : count.toNat.testBit 63
      · rfl
      · simp [bitEq] at cleared
    -- a number below `2 ^ 64` with its bit 63 clear is below `2 ^ 63`
    have below := UInt64.toNat_lt count
    by_contra above
    have split : count.toNat = 2 ^ 63 + (count.toNat - 2 ^ 63) := by omega
    rw [split, Nat.testBit_two_pow_add_eq, Nat.testBit_lt_two_pow (by omega)] at bit
    cases bit
  · intro below
    simp [Nat.testBit_lt_two_pow below]

theorem inFlight_of_lt {shared : SharedState} (below : shared.inFlight.toNat < 2 ^ 63) :
    LocalMemoryPool.inFlight shared = shared.inFlight := by
  have mask : (~~~deadBit).toNat = 2 ^ 63 - 1 := by decide
  rw [LocalMemoryPool.inFlight, ← UInt64.toNat_inj, UInt64.toNat_and, mask, Nat.and_two_pow_sub_one_eq_mod,
    Nat.mod_eq_of_lt below]

end Arithmetic

/-- The bytes of the bounded pool a lease holds. -/
def MemoryLease.held (lease : MemoryLease) : Nat := if lease.budget = .bounded then lease.size.toNat else 0

/-- The shared state of a dropped local pool on the bounded budget, whose leases hold bytes of the
pool until they drop. -/
def SharedState.Withholds (state : SharedState) : Prop := state.inFlight &&& deadBit ≠ 0 ∧ state.pool = .bounded

instance : DecidablePred SharedState.Withholds := fun _ => inferInstanceAs (Decidable (_ ∧ _))

section Leases

theorem Budget.used_returnMemory (budget : Budget) (inner : BoundedBudgetInner) (amount : UInt64)
    (enough : budget = .bounded → amount.toNat ≤ inner.used.toNat) :
    (budget.returnMemory inner amount).used.toNat + (if budget = .bounded then amount.toNat else 0) =
      inner.used.toNat := by
  unfold Budget.returnMemory
  split
  · next zero =>
    subst zero
    simp
  · cases budget with
    | bounded =>
      have below := enough rfl
      simp only [if_true]
      rw [UInt64.toNat_sub_of_le _ _ (UInt64.le_iff_toNat_le.mpr below)]
      omega
    | unlimited => simp

theorem Budget.tryAcquire_eq_some {budget : Budget} {inner after : BoundedBudgetInner} {amount : UInt64}
    (acquired : budget.tryAcquire inner amount = some after) :
    after.capacity = inner.capacity ∧
      (budget = .bounded → after.used.toNat = inner.used.toNat + amount.toNat ∧ after.used ≤ inner.capacity) ∧
      (budget = .unlimited → after = inner) := by
  cases budget with
  | bounded =>
    simp only [Budget.tryAcquire, Option.bind_eq_bind, Option.bind_eq_some_iff] at acquired
    obtain ⟨newUsed, added, within⟩ := acquired
    split at within
    · next fits =>
      cases within
      exact ⟨rfl, fun _ => ⟨(checkedAdd_eq_some added).2, fits⟩, nofun⟩
    · cases within
  | unlimited =>
    cases acquired
    exact ⟨rfl, nofun, fun _ => rfl⟩

theorem Budget.used_tryReserve {budget : Budget} {inner after : BoundedBudgetInner} {size : UInt64}
    {lease : MemoryLease} (reserved : budget.tryReserve inner size = some (lease, after)) :
    after.used.toNat = inner.used.toNat + lease.held := by
  unfold Budget.tryReserve at reserved
  split at reserved
  · next zero =>
    cases reserved
    subst zero
    simp [MemoryLease.held]
  · cases budget with
    | bounded =>
      obtain ⟨acquiredInner, acquired, pairEq⟩ := Option.map_eq_some_iff.mp reserved
      cases pairEq
      exact ((Budget.tryAcquire_eq_some acquired).2.1 rfl).1
    | unlimited =>
      cases reserved
      simp [MemoryLease.held]

theorem Budget.used_forceReserve {budget : Budget} {inner after : BoundedBudgetInner} {size : UInt64}
    {lease : MemoryLease} (reserved : budget.forceReserve inner size = some (lease, after)) :
    after.used.toNat = inner.used.toNat + lease.held := by
  unfold Budget.forceReserve at reserved
  split at reserved
  · next zero =>
    cases reserved
    subst zero
    simp [MemoryLease.held]
  · cases budget with
    | bounded =>
      obtain ⟨used, added, pairEq⟩ := Option.map_eq_some_iff.mp reserved
      cases pairEq
      exact (checkedAdd_eq_some added).2
    | unlimited =>
      cases reserved
      simp [MemoryLease.held]

namespace MemoryLease

@[simp] theorem held_unlimited (size : UInt64) : (⟨.unlimited, size⟩ : MemoryLease).held = 0 := rfl

@[simp] theorem held_bounded (size : UInt64) : (⟨.bounded, size⟩ : MemoryLease).held = size.toNat := rfl

theorem held_le_size (lease : MemoryLease) : lease.held ≤ lease.size.toNat := by
  unfold held
  split <;> omega

variable {lease : MemoryLease} {inner : BoundedBudgetInner}

@[simp] theorem drop_empty (budget : Budget) : (⟨budget, 0⟩ : MemoryLease).drop inner = inner := by
  simp [drop]

theorem used_drop (enough : lease.held ≤ inner.used.toNat) : (lease.drop inner).used.toNat + lease.held = inner.used.toNat := by
  unfold drop
  split
  · have returned := Budget.used_returnMemory lease.budget inner lease.size
      fun bounded => by simpa [held, bounded] using enough
    simpa [held] using returned
  · next empty =>
    have zero : lease.size.toNat = 0 := by
      rw [UInt64.lt_iff_toNat_lt, UInt64.toNat_zero] at empty
      omega
    have nothing : lease.held = 0 := Nat.le_zero.mp (zero ▸ held_le_size lease)
    rw [nothing]
    rfl

theorem used_shrink (enough : lease.held ≤ inner.used.toNat) (amount : UInt64) :
    (lease.shrink inner amount).2.used.toNat + lease.held = inner.used.toNat + (lease.shrink inner amount).1.held := by
  unfold shrink
  dsimp only
  split
  · have clamped : (min amount lease.size).toNat ≤ lease.size.toNat := by
      rw [UInt64.toNat_min]
      omega
    have returned := Budget.used_returnMemory lease.budget inner (min amount lease.size)
      fun bounded => by simp only [held, bounded, if_true] at enough; omega
    simp only [held] at enough ⊢
    rw [UInt64.toNat_sub_of_le _ _ (UInt64.le_iff_toNat_le.mpr clamped)]
    by_cases bounded : lease.budget = .bounded
    · simp only [bounded, if_true] at returned ⊢
      omega
    · simp only [bounded, if_false] at returned ⊢
      omega
  · rfl

theorem budget_shrink (amount : UInt64) : (lease.shrink inner amount).1.budget = lease.budget := by
  unfold shrink
  dsimp only
  split <;> rfl

theorem toNat_size_shrink (amount : UInt64) :
    (lease.shrink inner amount).1.size.toNat = lease.size.toNat - min amount.toNat lease.size.toNat := by
  unfold shrink
  dsimp only
  have clamped := UInt64.toNat_min amount lease.size
  split
  · next positive =>
    have within : min amount lease.size ≤ lease.size := UInt64.le_iff_toNat_le.mpr (by omega)
    rw [UInt64.toNat_sub_of_le _ _ within, clamped]
  · next zero =>
    rw [UInt64.lt_iff_toNat_lt, UInt64.toNat_zero, clamped] at zero
    show lease.size.toNat = _
    omega

theorem used_release (enough : lease.held ≤ inner.used.toNat) :
    (lease.release inner).2.2.used.toNat + lease.held = inner.used.toNat + (lease.release inner).2.1.held := by
  unfold release
  dsimp only
  split
  · have returned := Budget.used_returnMemory lease.budget inner lease.size
      fun bounded => by simpa [held, bounded] using enough
    simp only [held] at returned ⊢
    split <;> simp_all
  · rfl

theorem held_grown {after : BoundedBudgetInner} {additional : UInt64} (enough : lease.held ≤ inner.used.toNat)
    (acquired : lease.budget.tryAcquire inner additional = some after) :
    after.used.toNat + lease.held = inner.used.toNat + ({ lease with size := lease.size + additional } : MemoryLease).held := by
  obtain ⟨-, bounded, unlimited⟩ := Budget.tryAcquire_eq_some acquired
  unfold held at enough ⊢
  cases budget : lease.budget with
  | bounded =>
    obtain ⟨added, -⟩ := bounded budget
    simp only [budget, if_true] at enough ⊢
    have fits : lease.size.toNat + additional.toNat < 2 ^ 64 := by
      have := UInt64.toNat_lt after.used
      omega
    rw [toNat_add_of_lt fits]
    omega
  | unlimited =>
    rw [unlimited budget]
    simp

theorem used_tryGrow (enough : lease.held ≤ inner.used.toNat) (additional : UInt64) :
    (lease.tryGrow inner additional).2.2.used.toNat + lease.held =
      inner.used.toNat + (lease.tryGrow inner additional).2.1.held := by
  unfold tryGrow
  split
  · rfl
  · cases acquired : lease.budget.tryAcquire inner additional with
    | none => rfl
    | some after => exact held_grown enough acquired

theorem used_grow (enough : lease.held ≤ inner.used.toNat) {additional : UInt64} {grown : MemoryLease}
    {after : BoundedBudgetInner} (stepped : lease.grow inner additional = some (grown, after)) :
    after.used.toNat + lease.held = inner.used.toNat + grown.held := by
  unfold grow at stepped
  split at stepped
  · next zero =>
    cases stepped
    subst zero
    simp [held]
  · obtain ⟨acquiredInner, acquired, pairEq⟩ := Option.map_eq_some_iff.mp stepped
    cases pairEq
    exact held_grown enough acquired

theorem held_split {amount : UInt64} {kept part : MemoryLease} (split : lease.split amount = some (kept, part)) :
    kept.held + part.held = lease.held := by
  unfold MemoryLease.split at split
  split at split
  · next within =>
    cases split
    rw [UInt64.le_iff_toNat_le] at within
    simp only [held, UInt64.toNat_sub_of_le _ _ (UInt64.le_iff_toNat_le.mpr within)]
    split <;> omega
  · cases split

theorem held_take : lease.take.1.held + lease.take.2.held = lease.held := by
  simp only [take, held]
  split <;> simp_all

@[simp] theorem held_newEmpty : lease.newEmpty.held = 0 := by
  simp [newEmpty, held]

theorem used_merge (other : MemoryLease) (fits : lease.held + other.held ≤ inner.used.toNat) :
    (lease.merge other inner).2.used.toNat + lease.held + other.held =
      inner.used.toNat + (lease.merge other inner).1.held := by
  unfold merge
  split
  · next unlimited => simp [held, unlimited]
  · split
    · next _ otherUnlimited =>
      have untouched : other.drop inner = inner := by
        simp [drop, Budget.returnMemory, otherUnlimited]
      simp [untouched, held, otherUnlimited]
    · next leaseBounded otherBounded =>
      have leaseIs : lease.budget = .bounded := by cases budget : lease.budget <;> simp_all
      have otherIs : other.budget = .bounded := by cases budget : other.budget <;> simp_all
      simp only [held, leaseIs, otherIs, if_true] at fits
      have sum := saturatingAdd_of_lt (a := lease.size) (b := other.size)
        (by have := UInt64.toNat_lt inner.used; omega)
      simp [held, leaseIs, otherIs, sum]
      omega

end MemoryLease

end Leases

section Local

namespace SharedState

theorem returnMemory_of_live {shared : SharedState} (live : shared.inFlight.toNat < 2 ^ 63)
    (inner : BoundedBudgetInner) (amount : UInt64) :
    shared.returnMemory inner amount = ({ shared with inFlight := shared.inFlight - amount }, inner) := by
  rw [returnMemory, if_pos ((and_deadBit_eq_zero_iff _).mpr live)]

theorem returnMemory_of_dead {shared : SharedState} (dead : ¬shared.inFlight.toNat < 2 ^ 63)
    (inner : BoundedBudgetInner) (amount : UInt64) :
    shared.returnMemory inner amount = (shared, shared.pool.returnMemory inner amount) := by
  rw [returnMemory, if_neg (mt (and_deadBit_eq_zero_iff _).mp dead)]

end SharedState

namespace LocalMemoryPool

variable {pool : LocalMemoryPool} {shared : SharedState} {inner : BoundedBudgetInner}

theorem toNat_available (live : shared.inFlight.toNat < 2 ^ 63) :
    (pool.available shared).toNat = pool.localCapacity.size.toNat - shared.inFlight.toNat := by
  rw [available, toNat_saturatingSub, inFlight_of_lt live]

theorem tryReserve_cases {size : UInt64} {lease : LocalMemoryLease} {after : LocalMemoryPool} {state : SharedState}
    {inner' : BoundedBudgetInner} (reserved : pool.tryReserve shared inner size = some (lease, after, state, inner')) :
    lease = ⟨pool.shared, size⟩ ∧ state = { shared with inFlight := shared.inFlight + size } ∧
      ((after = pool ∧ inner' = inner ∧ (size = 0 ∨ size ≤ pool.available shared)) ∨
        (pool.available shared < size ∧ ¬pool.upperBound < pool.localCapacity.size + size ∧
          pool.localCapacity.budget.tryAcquire inner (size - pool.available shared) = some inner' ∧
          after = { pool with
            localCapacity := { pool.localCapacity with
              size := pool.localCapacity.size + (size - pool.available shared) } })) := by
  unfold tryReserve at reserved
  split at reserved
  · next zero =>
    cases reserved
    subst zero
    exact ⟨rfl, by simp, .inl ⟨rfl, rfl, .inl rfl⟩⟩
  · obtain ⟨⟨grownPool, grownInner⟩, grown, pairEq⟩ := Option.map_eq_some_iff.mp reserved
    cases pairEq
    split at grown
    · next short =>
      split at grown
      · cases grown
      · next within =>
        -- the deficit is positive, so `try_grow` goes to the pool
        have deficit : size - pool.available shared ≠ 0 := by
          rw [UInt64.lt_iff_toNat_lt] at short
          intro zero
          rw [← UInt64.toNat_inj, UInt64.toNat_sub_of_le _ _ (UInt64.le_of_lt short), UInt64.toNat_zero] at zero
          omega
        cases acquired : pool.localCapacity.budget.tryAcquire inner (size - pool.available shared) with
        | none => simp [MemoryLease.tryGrow, deficit, acquired] at grown
        | some grownInner' =>
          simp only [MemoryLease.tryGrow, deficit, acquired, if_false, Option.some.injEq, Prod.mk.injEq] at grown
          obtain ⟨rfl, rfl⟩ := grown
          exact ⟨rfl, rfl, .inr ⟨short, within, rfl, rfl⟩⟩
    · next enough =>
      cases grown
      exact ⟨rfl, rfl, .inl ⟨rfl, rfl, .inr (UInt64.not_lt.mp enough)⟩⟩

theorem tryReserve_spec {size : UInt64} {lease : LocalMemoryLease} {after : LocalMemoryPool} {state : SharedState}
    {inner' : BoundedBudgetInner} (live : shared.inFlight.toNat < 2 ^ 63)
    (fits : shared.inFlight.toNat + size.toNat < 2 ^ 63) (within : shared.inFlight.toNat ≤ pool.localCapacity.size.toNat)
    (bounded : pool.localCapacity.size ≤ pool.upperBound)
    (reserved : pool.tryReserve shared inner size = some (lease, after, state, inner')) :
    lease = ⟨pool.shared, size⟩ ∧ after.shared = pool.shared ∧ after.localCapacity.budget = pool.localCapacity.budget ∧
      after.upperBound = pool.upperBound ∧ state.pool = shared.pool ∧
      state.inFlight.toNat = shared.inFlight.toNat + size.toNat ∧
      state.inFlight.toNat ≤ after.localCapacity.size.toNat ∧ after.localCapacity.size ≤ after.upperBound ∧
      inner'.used.toNat + pool.localCapacity.held = inner.used.toNat + after.localCapacity.held := by
  obtain ⟨rfl, rfl, outcome⟩ := tryReserve_cases reserved
  have inFlightSum : (shared.inFlight + size).toNat = shared.inFlight.toNat + size.toNat := toNat_add_of_lt (by omega)
  have available := @toNat_available pool shared live
  rcases outcome with ⟨rfl, rfl, room⟩ | ⟨short, check, acquired, rfl⟩
  · refine ⟨rfl, rfl, rfl, rfl, rfl, inFlightSum, ?_, bounded, rfl⟩
    rw [inFlightSum]
    rcases room with rfl | room
    · simp only [UInt64.toNat_zero]
      omega
    · rw [UInt64.le_iff_toNat_le] at room
      omega
  · -- the capacity grows to exactly the bytes in flight, which the check kept within the bound
    rw [UInt64.lt_iff_toNat_lt] at short
    have deficit : (size - pool.available shared).toNat = size.toNat - (pool.available shared).toNat :=
      UInt64.toNat_sub_of_le _ _ (UInt64.le_iff_toNat_le.mpr (by omega))
    have grown : (pool.localCapacity.size + (size - pool.available shared)).toNat =
        shared.inFlight.toNat + size.toNat := by
      rw [toNat_add_of_lt (by omega), deficit]
      omega
    have checked : pool.localCapacity.size.toNat + size.toNat ≤ pool.upperBound.toNat := by
      rw [UInt64.not_lt, UInt64.le_iff_toNat_le, toNat_add_of_lt (by omega)] at check
      exact check
    obtain ⟨-, boundedAcquired, unlimitedAcquired⟩ := Budget.tryAcquire_eq_some acquired
    refine ⟨rfl, rfl, rfl, rfl, rfl, inFlightSum, by rw [inFlightSum, grown], ?_, ?_⟩
    · show _ ≤ pool.upperBound
      rw [UInt64.le_iff_toNat_le, grown]
      omega
    · cases budget : pool.localCapacity.budget with
      | bounded =>
        obtain ⟨added, -⟩ := boundedAcquired budget
        simp only [MemoryLease.held, budget, if_true, grown, added, deficit]
        omega
      | unlimited =>
        rw [unlimitedAcquired budget]
        simp [MemoryLease.held, budget]

theorem releaseExcess_spec (live : shared.inFlight.toNat < 2 ^ 63) (enough : pool.localCapacity.held ≤ inner.used.toNat) :
    ∃ capacity : MemoryLease, (pool.releaseExcess shared inner).1 = { pool with localCapacity := capacity } ∧
      capacity.budget = pool.localCapacity.budget ∧
      capacity.size.toNat = min pool.localCapacity.size.toNat (max pool.minReserved.toNat shared.inFlight.toNat) ∧
      (pool.releaseExcess shared inner).2.used.toNat + pool.localCapacity.held = inner.used.toNat + capacity.held := by
  unfold releaseExcess
  rw [inFlight_of_lt live]
  dsimp only
  have floor := UInt64.toNat_max pool.minReserved shared.inFlight
  split
  · next above =>
    rw [UInt64.lt_iff_toNat_lt] at above
    have gap : (pool.localCapacity.size - max pool.minReserved shared.inFlight).toNat =
        pool.localCapacity.size.toNat - (max pool.minReserved shared.inFlight).toNat :=
      UInt64.toNat_sub_of_le _ _ (UInt64.le_iff_toNat_le.mpr (by omega))
    refine ⟨_, rfl, MemoryLease.budget_shrink _, ?_, MemoryLease.used_shrink enough _⟩
    rw [MemoryLease.toNat_size_shrink, gap]
    omega
  · next notAbove =>
    rw [UInt64.lt_iff_toNat_lt] at notAbove
    exact ⟨pool.localCapacity, rfl, rfl, by omega, rfl⟩

theorem drop_spec (within : shared.inFlight.toNat ≤ pool.localCapacity.size.toNat)
    (enough : pool.localCapacity.held ≤ inner.used.toNat) :
    ∃ inner', pool.drop shared inner = some ({ shared with inFlight := deadBit }, inner') ∧
      inner'.used.toNat + pool.localCapacity.held =
        inner.used.toNat + if pool.localCapacity.budget = .bounded then shared.inFlight.toNat else 0 := by
  unfold drop
  by_cases positive : 0 < shared.inFlight
  · have fits : shared.inFlight ≤ pool.localCapacity.size := UInt64.le_iff_toNat_le.mpr within
    have rest : ((pool.localCapacity.split shared.inFlight).map Prod.fst) =
        some ⟨pool.localCapacity.budget, pool.localCapacity.size - shared.inFlight⟩ := by
      simp [MemoryLease.split, fits]
    have restHeld : (⟨pool.localCapacity.budget, pool.localCapacity.size - shared.inFlight⟩ : MemoryLease).held +
        (if pool.localCapacity.budget = .bounded then shared.inFlight.toNat else 0) = pool.localCapacity.held := by
      simp only [MemoryLease.held, UInt64.toNat_sub_of_le _ _ fits]
      split <;> omega
    have returned := @MemoryLease.used_drop ⟨pool.localCapacity.budget, pool.localCapacity.size - shared.inFlight⟩
      inner (by omega)
    simp only [positive, if_true, rest, Option.bind_some, Option.pure_def, Option.bind_eq_bind]
    refine ⟨_, rfl, ?_⟩
    omega
  · have zero : shared.inFlight.toNat = 0 := by
      rw [UInt64.lt_iff_toNat_lt, UInt64.toNat_zero] at positive
      omega
    have returned := MemoryLease.used_drop enough
    simp only [positive, if_false, Option.bind_some, Option.pure_def, Option.bind_eq_bind]
    refine ⟨_, rfl, ?_⟩
    rw [zero]
    split <;> omega

theorem reserveTurn_cases {size pinned : UInt64} {outcome : ReserveOutcome} {after : LocalMemoryPool}
    {state : SharedState} {inner' : BoundedBudgetInner}
    (turned : pool.reserveTurn shared inner size pinned = some (outcome, after, state, inner')) :
    (∃ lease, outcome = .ready lease ∧ pool.tryReserve shared inner size = some (lease, after, state, inner')) ∨
      ((∀ lease, outcome ≠ .ready lease) ∧ after = pool ∧ state = shared ∧ inner' = inner) := by
  unfold reserveTurn at turned
  cases reserved : pool.tryReserve shared inner size with
  | some reservation =>
    obtain ⟨lease, grownPool, grownState, grownInner⟩ := reservation
    simp only [reserved, Option.some.injEq, Prod.mk.injEq] at turned
    obtain ⟨rfl, rfl, rfl, rfl⟩ := turned
    exact .inl ⟨lease, rfl, rfl⟩
  | none =>
    simp only [reserved] at turned
    obtain ⟨checked, -, pairEq⟩ := Option.map_eq_some_iff.mp turned
    right
    cases checked <;>
      (simp only [Prod.mk.injEq] at pairEq; obtain ⟨rfl, rfl, rfl, rfl⟩ := pairEq; exact ⟨nofun, rfl, rfl, rfl⟩)

theorem tryReserve_eq_none_of_over {size : UInt64} (short : pool.localCapacity.size.toNat < size.toNat)
    (past : pool.upperBound.toNat < pool.localCapacity.size.toNat + size.toNat)
    (fits : pool.localCapacity.size.toNat + size.toNat < 2 ^ 64) : pool.tryReserve shared inner size = none := by
  have nonzero : size ≠ 0 := by
    rintro rfl
    simp at short
  have available : pool.available shared < size := by
    rw [UInt64.lt_iff_toNat_lt, available, toNat_saturatingSub]
    omega
  have checked : pool.upperBound < pool.localCapacity.size + size := by
    rw [UInt64.lt_iff_toNat_lt, toNat_add_of_lt fits]
    exact past
  simp [tryReserve, nonzero, available, checked]

/-- When `try_reserve` turns such a request down and `check_out_of_memory` finds it feasible, a
turn of `reserve` waits and changes nothing, so the turn after it does the same: `reserve` never
returns. -/
theorem reserveTurn_pending_past_bound {size pinned : UInt64} (short : pool.localCapacity.size.toNat < size.toNat)
    (past : pool.upperBound.toNat < pool.localCapacity.size.toNat + size.toNat)
    (fits : pool.localCapacity.size.toNat + size.toNat < 2 ^ 64)
    (feasible : pool.checkOutOfMemory shared inner size pinned = some (.ok ())) :
    pool.reserveTurn shared inner size pinned = some (.pending, pool, shared, inner) := by
  rw [reserveTurn, tryReserve_eq_none_of_over short past fits, feasible]
  rfl

/-- A local pool of capacity 10 and upper bound 15, over a bounded pool with 90 bytes free, waits
forever on a request of 12, which growing by the deficit of 2 would meet within the bound. -/
theorem reserveTurn_pending_ten_of_fifteen :
    (⟨0, ⟨.bounded, 10⟩, 0, 15⟩ : LocalMemoryPool).reserveTurn ⟨.bounded, 0⟩ ⟨100, 10⟩ 12 0 =
      some (.pending, ⟨0, ⟨.bounded, 10⟩, 0, 15⟩, ⟨.bounded, 0⟩, ⟨100, 10⟩) :=
  reserveTurn_pending_past_bound (by decide) (by decide) (by decide) (by decide)

end LocalMemoryPool

end Local

namespace SharedState

theorem not_withholds_of_live {state : SharedState} (live : state.inFlight.toNat < 2 ^ 63) : ¬state.Withholds :=
  fun withholds => withholds.1 ((and_deadBit_eq_zero_iff _).mpr live)

theorem withholds_dead (state : SharedState) (dead : state.inFlight = deadBit) : state.Withholds ↔ state.pool = .bounded := by
  have set : deadBit &&& deadBit ≠ 0 := by decide
  simp only [Withholds, dead, ne_eq, set, not_false_eq_true, true_and]

theorem returnMemory_zero (state : SharedState) (inner : BoundedBudgetInner) : state.returnMemory inner 0 = (state, inner) := by
  unfold returnMemory
  split
  · simp
  · simp [Budget.returnMemory]

end SharedState

namespace LocalMemoryLease

theorem shrink_eq (lease : LocalMemoryLease) (state : SharedState) (inner : BoundedBudgetInner) (amount : UInt64) :
    lease.shrink state inner amount =
      ({ lease with size := lease.size - min amount lease.size }, state.returnMemory inner (min amount lease.size)) := by
  unfold shrink
  dsimp only
  split
  · rfl
  · next zero =>
    have clamped : min amount lease.size = 0 := by
      rw [UInt64.lt_iff_toNat_lt, UInt64.toNat_zero] at zero
      rw [← UInt64.toNat_inj, UInt64.toNat_zero]
      omega
    rw [clamped, SharedState.returnMemory_zero, UInt64.sub_zero]

theorem drop_eq (lease : LocalMemoryLease) (state : SharedState) (inner : BoundedBudgetInner) :
    lease.drop state inner = state.returnMemory inner lease.size := by
  unfold drop
  split
  · rfl
  · next zero =>
    have empty : lease.size = 0 := by
      rw [UInt64.lt_iff_toNat_lt, UInt64.toNat_zero] at zero
      rw [← UInt64.toNat_inj, UInt64.toNat_zero]
      omega
    rw [empty, SharedState.returnMemory_zero]

end LocalMemoryLease

end Memory

end Restate
