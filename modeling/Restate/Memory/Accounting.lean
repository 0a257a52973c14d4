import Mathlib
import Restate.Memory.PoolSpec

/-! The bookkeeping of a world of memory budgets: the bytes its leases, its local pools' capacities
and the orphaned leases of dropped local pools hold of the bounded pool, the status of each shared
state, and the invariant that ties the bounded pool's `used` to them. Each kind of change a call can
make (a lease added, changed, split, merged or dropped; a local pool added, changed or dropped; a
local lease added, moved or given back) has its own lemma that it keeps the invariant. -/

namespace Restate

namespace Memory

namespace World

/-- The bytes of the local leases whose local pool a test picks. -/
def bytesOf (picked : Nat → Bool) (localLeases : KeyMap Nat LocalMemoryLease) : Nat :=
  KeyMap.total (fun _ lease => if picked lease.shared then lease.size.toNat else 0) localLeases

/-- Whether the shared state under a name withholds bytes of the bounded pool. -/
def withholdsAt (shared : KeyMap Nat SharedState) (name : Nat) : Bool :=
  match shared.lookup name with
  | some state => decide state.Withholds
  | none => false

/-- The bytes the live leases hold. -/
def leaseBytes (world : World) : Nat := KeyMap.total (fun _ lease => lease.held) world.leases

/-- The bytes the live local pools hold as capacity. -/
def capacityBytes (world : World) : Nat := KeyMap.total (fun _ pool => pool.localCapacity.held) world.locals

/-- The bytes dropped local pools withheld and their orphaned leases still hold. -/
def withheldBytes (world : World) : Nat := bytesOf (withholdsAt world.shared) world.localLeases

/-- The bytes of the leases of one local pool. -/
def inFlightOf (world : World) (name : Nat) : Nat := bytesOf (fun owner => owner == name) world.localLeases

/-- A live local pool: its counter is the bytes of its leases, below the dead bit and within its
capacity, which is within its upper bound and is a lease of the pool's own budget. -/
structure LivePool (world : World) (name : Nat) (pool : LocalMemoryPool) (state : SharedState) : Prop where
  counted : state.inFlight.toNat = world.inFlightOf name
  belowDead : state.inFlight.toNat < 2 ^ 63
  withinCapacity : state.inFlight.toNat ≤ pool.localCapacity.size.toNat
  withinBound : pool.localCapacity.size ≤ pool.upperBound
  sameBudget : pool.localCapacity.budget = state.pool

/-- A shared state while its local pool lives, and once the pool is dropped: the dead bit is then
set, and the orphaned leases hold less than it. -/
def PoolStatus (world : World) (name : Nat) (state : SharedState) : Prop :=
  match world.locals.lookup name with
  | some pool => pool.shared = name ∧ world.LivePool name pool state
  | none => state.inFlight = deadBit ∧ world.inFlightOf name < 2 ^ 63

section Fields

variable (world : World)

@[simp] theorem inner_addLease (lease : MemoryLease) : (world.addLease lease).inner = world.inner := rfl
@[simp] theorem leases_addLease (lease : MemoryLease) :
    (world.addLease lease).leases = world.leases.insert world.next lease := rfl
@[simp] theorem next_addLease (lease : MemoryLease) : (world.addLease lease).next = world.next + 1 := rfl

@[simp] theorem inner_addLocalLease (lease : LocalMemoryLease) : (world.addLocalLease lease).inner = world.inner := rfl
@[simp] theorem leases_addLocalLease (lease : LocalMemoryLease) : (world.addLocalLease lease).leases = world.leases := rfl
@[simp] theorem shared_addLocalLease (lease : LocalMemoryLease) : (world.addLocalLease lease).shared = world.shared := rfl
@[simp] theorem locals_addLocalLease (lease : LocalMemoryLease) : (world.addLocalLease lease).locals = world.locals := rfl
@[simp] theorem localLeases_addLocalLease (lease : LocalMemoryLease) :
    (world.addLocalLease lease).localLeases = world.localLeases.insert world.next lease := rfl
@[simp] theorem next_addLocalLease (lease : LocalMemoryLease) : (world.addLocalLease lease).next = world.next + 1 := rfl

variable (budget : Budget) (capacity : MemoryLease) (minReserved upperBound : UInt64)

@[simp] theorem inner_addLocal : (world.addLocal budget capacity minReserved upperBound).inner = world.inner := rfl
@[simp] theorem leases_addLocal : (world.addLocal budget capacity minReserved upperBound).leases = world.leases := rfl
@[simp] theorem shared_addLocal :
    (world.addLocal budget capacity minReserved upperBound).shared = world.shared.insert world.next ⟨budget, 0⟩ := rfl
@[simp] theorem locals_addLocal : (world.addLocal budget capacity minReserved upperBound).locals =
    world.locals.insert world.next ⟨world.next, capacity, minReserved, upperBound⟩ := rfl
@[simp] theorem localLeases_addLocal :
    (world.addLocal budget capacity minReserved upperBound).localLeases = world.localLeases := rfl
@[simp] theorem next_addLocal : (world.addLocal budget capacity minReserved upperBound).next = world.next + 1 := rfl

end Fields

/-- What every reachable world keeps. -/
structure Invariant (world : World) : Prop where
  conserved : world.inner.used.toNat = world.leaseBytes + world.capacityBytes + world.withheldBytes
  fresh : ∀ name, world.next ≤ name → world.leases.lookup name = none ∧ world.shared.lookup name = none ∧
    world.locals.lookup name = none ∧ world.localLeases.lookup name = none
  pooled : ∀ name pool, world.locals.lookup name = some pool → (world.shared.lookup name).isSome
  status : ∀ name state, world.shared.lookup name = some state → world.PoolStatus name state
  owned : ∀ name lease, world.localLeases.lookup name = some lease → (world.shared.lookup lease.shared).isSome

theorem isSome_lookup_insert {ν : Type} {map : KeyMap Nat ν} {name : Nat} (key : Nat) (value : ν)
    (present : (map.lookup name).isSome) : ((map.insert key value).lookup name).isSome := by
  by_cases same : name = key
  · subst same
    simp
  · rwa [AList.lookup_insert_ne same]

section BytesOf

variable (picked : Nat → Bool) {localLeases : KeyMap Nat LocalMemoryLease} {key : Nat}

theorem bytesOf_insert_of_none (missing : localLeases.lookup key = none) (lease : LocalMemoryLease) :
    bytesOf picked (localLeases.insert key lease) =
      bytesOf picked localLeases + if picked lease.shared then lease.size.toNat else 0 := by
  have inserted := KeyMap.total_insert (fun _ lease => if picked lease.shared then lease.size.toNat else 0)
    localLeases key lease
  rw [KeyMap.weightAt_of_lookup_none _ missing, Nat.add_zero] at inserted
  exact inserted

theorem bytesOf_insert {lease : LocalMemoryLease} (found : localLeases.lookup key = some lease)
    (lease' : LocalMemoryLease) :
    bytesOf picked (localLeases.insert key lease') + (if picked lease.shared then lease.size.toNat else 0) =
      bytesOf picked localLeases + if picked lease'.shared then lease'.size.toNat else 0 := by
  have inserted := KeyMap.total_insert (fun _ lease => if picked lease.shared then lease.size.toNat else 0)
    localLeases key lease'
  rw [KeyMap.weightAt_of_lookup _ found] at inserted
  exact inserted

theorem bytesOf_erase {lease : LocalMemoryLease} (found : localLeases.lookup key = some lease) :
    bytesOf picked (localLeases.erase key) + (if picked lease.shared then lease.size.toNat else 0) =
      bytesOf picked localLeases := by
  have erased := KeyMap.total_erase (fun _ lease => if picked lease.shared then lease.size.toNat else 0)
    localLeases key
  rw [KeyMap.weightAt_of_lookup _ found] at erased
  exact erased

theorem size_le_bytesOf {lease : LocalMemoryLease} (found : localLeases.lookup key = some lease)
    (isPicked : picked lease.shared = true) : lease.size.toNat ≤ bytesOf picked localLeases := by
  have erased := bytesOf_erase picked found
  rw [if_pos isPicked] at erased
  omega

theorem size_add_size_le_bytesOf {other : Nat} {lease otherLease : LocalMemoryLease} (differ : key ≠ other)
    (found : localLeases.lookup key = some lease) (otherFound : localLeases.lookup other = some otherLease)
    (isPicked : picked lease.shared = true) (otherPicked : picked otherLease.shared = true) :
    lease.size.toNat + otherLease.size.toNat ≤ bytesOf picked localLeases := by
  have erased := bytesOf_erase picked found
  have rest := size_le_bytesOf picked (by rwa [AList.lookup_erase_ne (Ne.symm differ)]) otherPicked
  rw [if_pos isPicked] at erased
  omega

theorem bytesOf_congr {picked' : Nat → Bool}
    (same : ∀ key lease, localLeases.lookup key = some lease → picked lease.shared = picked' lease.shared) :
    bytesOf picked localLeases = bytesOf picked' localLeases :=
  KeyMap.total_congr _ fun key lease found => by simp only [same key lease found]

theorem bytesOf_eq_zero (unpicked : ∀ key lease, localLeases.lookup key = some lease → picked lease.shared = false) :
    bytesOf picked localLeases = 0 := by
  rw [@bytesOf_congr picked localLeases (fun _ => false) unpicked]
  simp [bytesOf, KeyMap.total]

theorem bytesOf_or {picked' : Nat → Bool} (apart : ∀ key, picked key = true → picked' key = false) :
    bytesOf (fun key => picked key || picked' key) localLeases = bytesOf picked localLeases + bytesOf picked' localLeases := by
  rw [bytesOf, bytesOf, bytesOf, ← KeyMap.total_add]
  apply KeyMap.total_congr
  intro key lease _
  cases first : picked lease.shared
  · simp
  · simp [apart _ first]

theorem bytesOf_split {name : Nat} {lease kept part : LocalMemoryLease} (found : localLeases.lookup name = some lease)
    (missing : (localLeases.insert name kept).lookup key = none) (keptShared : kept.shared = lease.shared)
    (partShared : part.shared = lease.shared) (sizes : kept.size.toNat + part.size.toNat = lease.size.toNat) :
    bytesOf picked ((localLeases.insert name kept).insert key part) = bytesOf picked localLeases := by
  have inserted := bytesOf_insert picked found kept
  rw [bytesOf_insert_of_none picked missing, partShared]
  rw [keptShared] at inserted
  by_cases isPicked : picked lease.shared = true
  · simp only [if_pos isPicked] at inserted ⊢
    omega
  · simp only [if_neg isPicked] at inserted ⊢
    omega

theorem bytesOf_merge {name other : Nat} {lease otherLease merged : LocalMemoryLease} (differ : name ≠ other)
    (found : localLeases.lookup name = some lease) (otherFound : localLeases.lookup other = some otherLease)
    (mergedShared : merged.shared = lease.shared) (sameShared : otherLease.shared = lease.shared)
    (sizes : merged.size.toNat = lease.size.toNat + otherLease.size.toNat) :
    bytesOf picked ((localLeases.erase other).insert name merged) = bytesOf picked localLeases := by
  have erased := bytesOf_erase picked otherFound
  have inserted := bytesOf_insert picked (by rwa [AList.lookup_erase_ne differ]) merged
  rw [mergedShared] at inserted
  rw [sameShared] at erased
  by_cases isPicked : picked lease.shared = true
  · simp only [if_pos isPicked] at inserted erased
    omega
  · simp only [if_neg isPicked] at inserted erased
    omega

theorem bytesOf_shrink {name : Nat} {lease : LocalMemoryLease} {amount : UInt64}
    (found : localLeases.lookup name = some lease) (within : amount ≤ lease.size) :
    bytesOf picked (localLeases.insert name { lease with size := lease.size - amount }) +
      (if picked lease.shared then amount.toNat else 0) = bytesOf picked localLeases := by
  have inserted := bytesOf_insert picked found { lease with size := lease.size - amount }
  have lowered := UInt64.toNat_sub_of_le _ _ within
  rw [UInt64.le_iff_toNat_le] at within
  dsimp only at inserted
  by_cases isPicked : picked lease.shared = true
  · simp only [if_pos isPicked, lowered] at inserted ⊢
    omega
  · simp only [if_neg isPicked] at inserted ⊢
    omega

end BytesOf

section WithholdsAt

variable {shared : KeyMap Nat SharedState} {key : Nat} {state : SharedState}

theorem withholdsAt_insert (shared : KeyMap Nat SharedState) (key : Nat) (state : SharedState) (name : Nat) :
    withholdsAt (shared.insert key state) name = if name = key then decide state.Withholds else withholdsAt shared name := by
  unfold withholdsAt
  by_cases same : name = key
  · subst same
    simp
  · simp only [AList.lookup_insert_ne same, same, if_false]

theorem withholdsAt_of_live (found : shared.lookup key = some state) (live : state.inFlight.toNat < 2 ^ 63) :
    withholdsAt shared key = false := by
  simp [withholdsAt, found, SharedState.not_withholds_of_live live]

theorem withholdsAt_insert_same {state' : SharedState} (found : shared.lookup key = some state)
    (same : state'.Withholds ↔ state.Withholds) : withholdsAt (shared.insert key state') = withholdsAt shared := by
  funext name
  rw [withholdsAt_insert]
  split
  · next named =>
    subst named
    simp [withholdsAt, found, same]
  · rfl

end WithholdsAt

theorem LivePool.congr {world after : World} {name : Nat} {pool : LocalMemoryPool} {state : SharedState}
    (livePool : world.LivePool name pool state) (inFlight : after.inFlightOf name = world.inFlightOf name) :
    after.LivePool name pool state :=
  { livePool with counted := by rw [inFlight]; exact livePool.counted }

theorem PoolStatus.congr {world after : World} {name : Nat} {state : SharedState} (status : world.PoolStatus name state)
    (locals : after.locals.lookup name = world.locals.lookup name)
    (inFlight : after.inFlightOf name = world.inFlightOf name) : after.PoolStatus name state := by
  unfold PoolStatus at status ⊢
  rw [locals]
  cases found : world.locals.lookup name with
  | none =>
    simp only [found] at status
    exact ⟨status.1, inFlight ▸ status.2⟩
  | some pool =>
    simp only [found] at status
    exact ⟨status.1, status.2.congr inFlight⟩

namespace Invariant

variable {world : World} (inv : world.Invariant)
include inv

theorem lt_next_of_lease {name : Nat} {lease : MemoryLease} (found : world.leases.lookup name = some lease) :
    name < world.next :=
  Nat.lt_of_not_le fun late => by rw [(inv.fresh name late).1] at found; cases found

theorem lt_next_of_shared {name : Nat} {state : SharedState} (found : world.shared.lookup name = some state) :
    name < world.next :=
  Nat.lt_of_not_le fun late => by rw [(inv.fresh name late).2.1] at found; cases found

theorem lt_next_of_local {name : Nat} {pool : LocalMemoryPool} (found : world.locals.lookup name = some pool) :
    name < world.next :=
  Nat.lt_of_not_le fun late => by rw [(inv.fresh name late).2.2.1] at found; cases found

theorem lt_next_of_localLease {name : Nat} {lease : LocalMemoryLease}
    (found : world.localLeases.lookup name = some lease) : name < world.next :=
  Nat.lt_of_not_le fun late => by rw [(inv.fresh name late).2.2.2] at found; cases found

theorem live {name : Nat} {pool : LocalMemoryPool} (found : world.locals.lookup name = some pool) :
    ∃ state, world.shared.lookup name = some state ∧ pool.shared = name ∧ world.LivePool name pool state := by
  obtain ⟨state, stateFound⟩ := Option.isSome_iff_exists.mp (inv.pooled name pool found)
  have status := inv.status name state stateFound
  simp only [PoolStatus, found] at status
  exact ⟨state, stateFound, status⟩

theorem dead {name : Nat} {state : SharedState} (found : world.shared.lookup name = some state)
    (missing : world.locals.lookup name = none) : state.inFlight = deadBit ∧ world.inFlightOf name < 2 ^ 63 := by
  have status := inv.status name state found
  simpa only [PoolStatus, missing] using status

theorem inFlightOf_lt {name : Nat} {state : SharedState} (found : world.shared.lookup name = some state) :
    world.inFlightOf name < 2 ^ 63 := by
  cases poolFound : world.locals.lookup name with
  | none => exact (inv.dead found poolFound).2
  | some pool =>
    obtain ⟨state', stateFound, -, livePool⟩ := inv.live poolFound
    rw [← livePool.counted]
    exact livePool.belowDead

theorem held_le_used {name : Nat} {lease : MemoryLease} (found : world.leases.lookup name = some lease) :
    lease.held ≤ world.inner.used.toNat := by
  have erased := KeyMap.total_erase (fun _ lease => lease.held) world.leases name
  rw [KeyMap.weightAt_of_lookup _ found] at erased
  have conserved := inv.conserved
  unfold leaseBytes at conserved
  omega

theorem held_add_held_le_used {name other : Nat} {lease otherLease : MemoryLease} (differ : name ≠ other)
    (found : world.leases.lookup name = some lease) (otherFound : world.leases.lookup other = some otherLease) :
    lease.held + otherLease.held ≤ world.inner.used.toNat := by
  have erased := KeyMap.total_erase (fun _ lease => lease.held) world.leases name
  have erasedOther := KeyMap.total_erase (fun _ lease => lease.held) (world.leases.erase name) other
  rw [KeyMap.weightAt_of_lookup _ found] at erased
  rw [KeyMap.weightAt_of_lookup _ (by rwa [AList.lookup_erase_ne (Ne.symm differ)])] at erasedOther
  have conserved := inv.conserved
  unfold leaseBytes at conserved
  omega

theorem of_leaseCall {after : World} (shared : after.shared = world.shared) (locals : after.locals = world.locals)
    (localLeases : after.localLeases = world.localLeases) (next : world.next ≤ after.next)
    (freshLeases : ∀ name, after.next ≤ name → after.leases.lookup name = none)
    (balanced : after.inner.used.toNat + world.leaseBytes = world.inner.used.toNat + after.leaseBytes) :
    after.Invariant where
  conserved := by
    have same : after.capacityBytes + after.withheldBytes = world.capacityBytes + world.withheldBytes := by
      simp only [capacityBytes, withheldBytes, locals, localLeases, shared]
    have conserved := inv.conserved
    omega
  fresh name late := by
    obtain ⟨-, sharedFresh, localsFresh, localLeasesFresh⟩ := inv.fresh name (next.trans late)
    rw [shared, locals, localLeases]
    exact ⟨freshLeases name late, sharedFresh, localsFresh, localLeasesFresh⟩
  pooled name pool found := by
    rw [shared]
    exact inv.pooled name pool (by rwa [← locals])
  status name state found :=
    (inv.status name state (by rwa [← shared])).congr (by rw [locals]) (by simp only [inFlightOf, localLeases])
  owned name lease found := by
    rw [shared]
    exact inv.owned name lease (by rwa [← localLeases])

theorem of_addLease {inner : BoundedBudgetInner} (lease : MemoryLease)
    (balanced : inner.used.toNat = world.inner.used.toNat + lease.held) :
    ({ world with inner }.addLease lease).Invariant := by
  have inserted := KeyMap.total_insert (fun _ lease => lease.held) world.leases world.next lease
  rw [KeyMap.weightAt_of_lookup_none _ (inv.fresh world.next le_rfl).1] at inserted
  refine inv.of_leaseCall rfl rfl rfl (Nat.le_succ _) (fun name late => ?_) ?_
  · have late : world.next + 1 ≤ name := late
    show (world.leases.insert world.next lease).lookup name = none
    rw [AList.lookup_insert_ne (by omega)]
    exact (inv.fresh name (by omega)).1
  · show inner.used.toNat + _ = _ + KeyMap.total _ (world.leases.insert world.next lease)
    unfold leaseBytes
    omega

theorem of_setLease {name : Nat} {lease : MemoryLease} (found : world.leases.lookup name = some lease)
    (lease' : MemoryLease) {inner : BoundedBudgetInner}
    (balanced : inner.used.toNat + lease.held = world.inner.used.toNat + lease'.held) :
    { world with leases := world.leases.insert name lease', inner }.Invariant := by
  have inserted := KeyMap.total_insert (fun _ lease => lease.held) world.leases name lease'
  rw [KeyMap.weightAt_of_lookup _ found] at inserted
  have early := inv.lt_next_of_lease found
  refine inv.of_leaseCall rfl rfl rfl le_rfl (fun other late => ?_) ?_
  · have late : world.next ≤ other := late
    show (world.leases.insert name lease').lookup other = none
    rw [AList.lookup_insert_ne (by omega)]
    exact (inv.fresh other late).1
  · show inner.used.toNat + _ = _ + KeyMap.total _ (world.leases.insert name lease')
    unfold leaseBytes
    omega

theorem of_splitLease {name : Nat} {lease : MemoryLease} (found : world.leases.lookup name = some lease)
    (kept part : MemoryLease) (balanced : kept.held + part.held = lease.held) :
    ({ world with leases := world.leases.insert name kept }.addLease part).Invariant := by
  have early := inv.lt_next_of_lease found
  have inserted := KeyMap.total_insert (fun _ lease => lease.held) world.leases name kept
  have added := KeyMap.total_insert (fun _ lease => lease.held) (world.leases.insert name kept) world.next part
  rw [KeyMap.weightAt_of_lookup _ found] at inserted
  rw [KeyMap.weightAt_of_lookup_none _ (by rw [AList.lookup_insert_ne (by omega)]; exact (inv.fresh _ le_rfl).1)]
    at added
  refine inv.of_leaseCall rfl rfl rfl (Nat.le_succ _) (fun other late => ?_) ?_
  · have late : world.next + 1 ≤ other := late
    show ((world.leases.insert name kept).insert world.next part).lookup other = none
    rw [AList.lookup_insert_ne (by omega), AList.lookup_insert_ne (by omega)]
    exact (inv.fresh other (by omega)).1
  · show world.inner.used.toNat + _ = _ + KeyMap.total _ ((world.leases.insert name kept).insert world.next part)
    unfold leaseBytes
    omega

theorem of_mergeLeases {name other : Nat} {lease otherLease : MemoryLease} (differ : name ≠ other)
    (found : world.leases.lookup name = some lease) (otherFound : world.leases.lookup other = some otherLease)
    (merged : MemoryLease) {inner : BoundedBudgetInner}
    (balanced : inner.used.toNat + lease.held + otherLease.held = world.inner.used.toNat + merged.held) :
    { world with leases := (world.leases.erase other).insert name merged, inner }.Invariant := by
  have early := inv.lt_next_of_lease found
  have erased := KeyMap.total_erase (fun _ lease => lease.held) world.leases other
  have inserted := KeyMap.total_insert (fun _ lease => lease.held) (world.leases.erase other) name merged
  rw [KeyMap.weightAt_of_lookup _ otherFound] at erased
  rw [KeyMap.weightAt_of_lookup _ (by rwa [AList.lookup_erase_ne differ])] at inserted
  refine inv.of_leaseCall rfl rfl rfl le_rfl (fun late lateBound => ?_) ?_
  · have lateBound : world.next ≤ late := lateBound
    show ((world.leases.erase other).insert name merged).lookup late = none
    rw [AList.lookup_insert_ne (by omega)]
    by_cases same : late = other
    · subst same
      exact AList.lookup_erase _ _
    · rw [AList.lookup_erase_ne same]
      exact (inv.fresh late lateBound).1
  · show inner.used.toNat + _ = _ + KeyMap.total _ ((world.leases.erase other).insert name merged)
    unfold leaseBytes
    omega

theorem of_dropLease {name : Nat} {lease : MemoryLease} (found : world.leases.lookup name = some lease)
    {inner : BoundedBudgetInner} (balanced : inner.used.toNat + lease.held = world.inner.used.toNat) :
    { world with leases := world.leases.erase name, inner }.Invariant := by
  have erased := KeyMap.total_erase (fun _ lease => lease.held) world.leases name
  rw [KeyMap.weightAt_of_lookup _ found] at erased
  refine inv.of_leaseCall rfl rfl rfl le_rfl (fun late lateBound => ?_) ?_
  · have lateBound : world.next ≤ late := lateBound
    show (world.leases.erase name).lookup late = none
    by_cases same : late = name
    · subst same
      exact AList.lookup_erase _ _
    · rw [AList.lookup_erase_ne same]
      exact (inv.fresh late lateBound).1
  · show inner.used.toNat + _ = _ + KeyMap.total _ (world.leases.erase name)
    unfold leaseBytes
    omega

theorem of_addLocal {leases : KeyMap Nat MemoryLease} {budget : Budget} {capacity : MemoryLease}
    {minReserved upperBound : UInt64}
    (taken : KeyMap.total (fun _ lease => lease.held) leases + capacity.held = world.leaseBytes)
    (freshLeases : ∀ name, world.next ≤ name → leases.lookup name = none)
    (sameBudget : capacity.budget = budget) (withinBound : capacity.size ≤ upperBound) :
    ({ world with leases }.addLocal budget capacity minReserved upperBound).Invariant := by
  obtain ⟨-, sharedFresh, localsFresh, -⟩ := inv.fresh world.next le_rfl
  have unowned : ∀ key lease, world.localLeases.lookup key = some lease → lease.shared ≠ world.next := by
    intro key lease found same
    have present := inv.owned key lease found
    rw [same, sharedFresh] at present
    cases present
  have inserted := KeyMap.total_insert (fun _ pool => pool.localCapacity.held) world.locals world.next
    ⟨world.next, capacity, minReserved, upperBound⟩
  rw [KeyMap.weightAt_of_lookup_none _ localsFresh, Nat.add_zero] at inserted
  dsimp only at inserted
  have withheld : bytesOf (withholdsAt (world.shared.insert world.next ⟨budget, 0⟩)) world.localLeases =
      world.withheldBytes :=
    bytesOf_congr _ fun key lease found => by rw [withholdsAt_insert, if_neg (unowned key lease found)]
  have empty : world.inFlightOf world.next = 0 :=
    bytesOf_eq_zero _ fun key lease found => by simpa using unowned key lease found
  constructor
  · have conserved := inv.conserved
    unfold leaseBytes capacityBytes withheldBytes at conserved ⊢
    unfold withheldBytes at withheld
    unfold leaseBytes at taken
    simp only [inner_addLocal, leases_addLocal, locals_addLocal, shared_addLocal, localLeases_addLocal]
    omega
  · intro name late
    simp only [next_addLocal] at late
    obtain ⟨-, sharedLate, localsLate, localLeasesLate⟩ := inv.fresh name (by omega)
    simp only [leases_addLocal, shared_addLocal, locals_addLocal, localLeases_addLocal,
      AList.lookup_insert_ne (show name ≠ world.next by omega)]
    exact ⟨freshLeases name (by omega), sharedLate, localsLate, localLeasesLate⟩
  · intro name pool found
    simp only [shared_addLocal, locals_addLocal] at found ⊢
    by_cases same : name = world.next
    · subst same
      simp
    · rw [AList.lookup_insert_ne same] at found
      exact isSome_lookup_insert _ _ (inv.pooled name pool found)
  · intro name state found
    simp only [shared_addLocal] at found
    by_cases same : name = world.next
    · subst same
      rw [AList.lookup_insert] at found
      cases found
      simp only [PoolStatus, locals_addLocal, AList.lookup_insert, true_and]
      exact ⟨empty.symm, by simp, by simp, withinBound, sameBudget⟩
    · rw [AList.lookup_insert_ne same] at found
      exact (inv.status name state found).congr (by simp only [locals_addLocal, AList.lookup_insert_ne same]) rfl
  · intro name lease found
    simp only [shared_addLocal, localLeases_addLocal] at found ⊢
    exact isSome_lookup_insert _ _ (inv.owned name lease found)

theorem of_setPool {name : Nat} {pool pool' : LocalMemoryPool} {state : SharedState}
    {shared : KeyMap Nat SharedState} {inner : BoundedBudgetInner} (found : world.locals.lookup name = some pool)
    (stateFound : world.shared.lookup name = some state)
    (sameShared : ∀ key, shared.lookup key = world.shared.lookup key) (named : pool'.shared = name)
    (within : state.inFlight.toNat ≤ pool'.localCapacity.size.toNat)
    (bounded : pool'.localCapacity.size ≤ pool'.upperBound)
    (sameBudget : pool'.localCapacity.budget = pool.localCapacity.budget)
    (balanced : inner.used.toNat + pool.localCapacity.held = world.inner.used.toNat + pool'.localCapacity.held) :
    { world with locals := world.locals.insert name pool', shared, inner }.Invariant := by
  obtain ⟨state', stateFound', -, livePool⟩ := inv.live found
  rw [stateFound] at stateFound'
  cases stateFound'
  have early := inv.lt_next_of_local found
  have sameWithholds : withholdsAt shared = withholdsAt world.shared := by
    funext key
    simp only [withholdsAt, sameShared]
  have inserted := KeyMap.total_insert (fun _ pool => pool.localCapacity.held) world.locals name pool'
  rw [KeyMap.weightAt_of_lookup _ found] at inserted
  constructor
  · have conserved := inv.conserved
    unfold leaseBytes capacityBytes withheldBytes at conserved ⊢
    dsimp only at inserted ⊢
    rw [sameWithholds]
    omega
  · intro key late
    have late : world.next ≤ key := late
    obtain ⟨leasesLate, sharedLate, localsLate, localLeasesLate⟩ := inv.fresh key late
    refine ⟨leasesLate, by rwa [sameShared], ?_, localLeasesLate⟩
    show (world.locals.insert name pool').lookup key = none
    rwa [AList.lookup_insert_ne (by omega)]
  · intro key pool'' found'
    change (world.locals.insert name pool').lookup key = some pool'' at found'
    show (shared.lookup key).isSome
    rw [sameShared]
    by_cases same : key = name
    · subst same
      simp [stateFound]
    · rw [AList.lookup_insert_ne same] at found'
      exact inv.pooled key pool'' found'
  · intro key state' found'
    change shared.lookup key = some state' at found'
    rw [sameShared] at found'
    by_cases same : key = name
    · subst same
      rw [stateFound] at found'
      cases found'
      simp only [PoolStatus, AList.lookup_insert]
      exact ⟨named, livePool.counted, livePool.belowDead, within, bounded, sameBudget.trans livePool.sameBudget⟩
    · exact (inv.status key state' found').congr (by simp only [AList.lookup_insert_ne same]) rfl
  · intro key lease found'
    show (shared.lookup lease.shared).isSome
    rw [sameShared]
    exact inv.owned key lease found'

theorem of_reserve {name : Nat} {pool pool' : LocalMemoryPool} {state state' : SharedState} {size : UInt64}
    {lease : LocalMemoryLease} {inner : BoundedBudgetInner} (found : world.locals.lookup name = some pool)
    (stateFound : world.shared.lookup pool.shared = some state) (fits : state.inFlight.toNat + size.toNat < 2 ^ 63)
    (reserved : pool.tryReserve state world.inner size = some (lease, pool', state', inner)) :
    ({ world with
        locals := world.locals.insert name pool'
        shared := world.shared.insert pool'.shared state'
        inner }.addLocalLease lease).Invariant := by
  obtain ⟨state'', stateFound', named, livePool⟩ := inv.live found
  rw [named, stateFound'] at stateFound
  cases stateFound
  obtain ⟨rfl, sharedEq, budgetEq, -, poolEq, inFlightEq, within, bounded, balanced⟩ :=
    LocalMemoryPool.tryReserve_spec livePool.belowDead fits livePool.withinCapacity livePool.withinBound reserved
  rw [sharedEq, named]
  have early := inv.lt_next_of_local found
  have live' : state'.inFlight.toNat < 2 ^ 63 := by omega
  have sameWithholds : withholdsAt (world.shared.insert name state') = withholdsAt world.shared :=
    withholdsAt_insert_same stateFound'
      (iff_of_false (SharedState.not_withholds_of_live live') (SharedState.not_withholds_of_live livePool.belowDead))
  obtain ⟨-, -, -, localLeasesFresh⟩ := inv.fresh world.next le_rfl
  have counted : ∀ key, bytesOf (fun owner => owner == key) (world.localLeases.insert world.next ⟨name, size⟩) =
      world.inFlightOf key + if name = key then size.toNat else 0 := by
    intro key
    rw [bytesOf_insert_of_none _ localLeasesFresh]
    simp only [beq_iff_eq]
    rfl
  have inserted := KeyMap.total_insert (fun _ pool => pool.localCapacity.held) world.locals name pool'
  rw [KeyMap.weightAt_of_lookup _ found] at inserted
  have withheld := bytesOf_insert_of_none (withholdsAt world.shared) localLeasesFresh ⟨name, size⟩
  rw [withholdsAt_of_live stateFound' livePool.belowDead] at withheld
  constructor
  · have conserved := inv.conserved
    unfold leaseBytes capacityBytes withheldBytes at conserved ⊢
    simp only [inner_addLocalLease, leases_addLocalLease, locals_addLocalLease, shared_addLocalLease,
      localLeases_addLocalLease, sameWithholds]
    dsimp only at inserted withheld
    simp only [Bool.false_eq_true, if_false] at withheld
    omega
  · intro key late
    simp only [next_addLocalLease] at late
    obtain ⟨leasesLate, sharedLate, localsLate, localLeasesLate⟩ := inv.fresh key (by omega)
    simp only [leases_addLocalLease, shared_addLocalLease, locals_addLocalLease, localLeases_addLocalLease,
      AList.lookup_insert_ne (show key ≠ name by omega), AList.lookup_insert_ne (show key ≠ world.next by omega)]
    exact ⟨leasesLate, sharedLate, localsLate, localLeasesLate⟩
  · intro key pool'' found'
    simp only [locals_addLocalLease, shared_addLocalLease] at found' ⊢
    by_cases same : key = name
    · subst same
      simp
    · rw [AList.lookup_insert_ne same] at found'
      exact isSome_lookup_insert _ _ (inv.pooled key pool'' found')
  · intro key state'' found'
    simp only [shared_addLocalLease] at found'
    by_cases same : key = name
    · subst same
      rw [AList.lookup_insert] at found'
      cases found'
      simp only [PoolStatus, locals_addLocalLease, AList.lookup_insert]
      refine ⟨sharedEq.trans named, ⟨?_, live', within, bounded, budgetEq.trans (livePool.sameBudget.trans poolEq.symm)⟩⟩
      show _ = bytesOf _ (world.localLeases.insert world.next _)
      rw [counted, if_pos rfl, inFlightEq, livePool.counted]
    · rw [AList.lookup_insert_ne same] at found'
      refine (inv.status key state'' found').congr (by simp only [locals_addLocalLease, AList.lookup_insert_ne same]) ?_
      show bytesOf _ (world.localLeases.insert world.next _) = _
      rw [counted, if_neg (Ne.symm same), Nat.add_zero]
  · intro key lease found'
    simp only [shared_addLocalLease, localLeases_addLocalLease] at found' ⊢
    by_cases same : key = world.next
    · subst same
      rw [AList.lookup_insert] at found'
      cases found'
      simp
    · rw [AList.lookup_insert_ne same] at found'
      exact isSome_lookup_insert _ _ (inv.owned key lease found')

theorem of_localLeaseCall {localLeases : KeyMap Nat LocalMemoryLease} {next : Nat} (later : world.next ≤ next)
    (freshLocal : ∀ name, next ≤ name → localLeases.lookup name = none)
    (owned : ∀ name lease, localLeases.lookup name = some lease → (world.shared.lookup lease.shared).isSome)
    (same : ∀ picked, bytesOf picked localLeases = bytesOf picked world.localLeases) :
    { world with localLeases, next }.Invariant where
  conserved := by
    have conserved := inv.conserved
    unfold withheldBytes at conserved ⊢
    rw [← same] at conserved
    exact conserved
  fresh name late :=
    have ⟨leasesLate, sharedLate, localsLate, _⟩ := inv.fresh name (later.trans late)
    ⟨leasesLate, sharedLate, localsLate, freshLocal name late⟩
  pooled := inv.pooled
  status name state found := (inv.status name state found).congr rfl (same _)
  owned := owned

theorem capacity_held_le_used {name : Nat} {pool : LocalMemoryPool} (found : world.locals.lookup name = some pool) :
    pool.localCapacity.held ≤ world.inner.used.toNat := by
  have erased := KeyMap.total_erase (fun _ pool => pool.localCapacity.held) world.locals name
  rw [KeyMap.weightAt_of_lookup _ found] at erased
  have conserved := inv.conserved
  unfold capacityBytes at conserved
  omega

theorem of_returnLive {lease : LocalMemoryLease} {pool : LocalMemoryPool} {state : SharedState}
    {amount : UInt64} {localLeases : KeyMap Nat LocalMemoryLease}
    (poolFound : world.locals.lookup lease.shared = some pool) (stateFound : world.shared.lookup lease.shared = some state)
    (freshLocal : ∀ key, world.next ≤ key → localLeases.lookup key = none)
    (owned : ∀ key lease, localLeases.lookup key = some lease → (world.shared.lookup lease.shared).isSome)
    (returned : ∀ picked, bytesOf picked localLeases + (if picked lease.shared then amount.toNat else 0) =
      bytesOf picked world.localLeases) :
    { world with
      localLeases
      shared := world.shared.insert lease.shared { state with inFlight := state.inFlight - amount } }.Invariant := by
  obtain ⟨state', stateFound', named, livePool⟩ := inv.live poolFound
  rw [stateFound] at stateFound'
  cases stateFound'
  have early := inv.lt_next_of_shared stateFound
  have ownBytes := returned (fun owner => owner == lease.shared)
  simp only [beq_self_eq_true, if_true] at ownBytes
  have counted := livePool.counted
  have belowDead := livePool.belowDead
  have withinCapacity := livePool.withinCapacity
  unfold inFlightOf at counted
  have fits : amount ≤ state.inFlight := UInt64.le_iff_toNat_le.mpr (by omega)
  have lowered : (state.inFlight - amount).toNat = state.inFlight.toNat - amount.toNat :=
    UInt64.toNat_sub_of_le _ _ fits
  have sameWithholds :
      withholdsAt (world.shared.insert lease.shared { state with inFlight := state.inFlight - amount }) =
        withholdsAt world.shared :=
    withholdsAt_insert_same stateFound (iff_of_false
      (SharedState.not_withholds_of_live (by simp only [lowered]; omega))
      (SharedState.not_withholds_of_live livePool.belowDead))
  have withheld := returned (withholdsAt world.shared)
  rw [withholdsAt_of_live stateFound livePool.belowDead] at withheld
  constructor
  · have conserved := inv.conserved
    unfold withheldBytes at conserved ⊢
    show world.inner.used.toNat = world.leaseBytes + world.capacityBytes +
      bytesOf (withholdsAt (world.shared.insert _ _)) localLeases
    rw [sameWithholds]
    simp only [Bool.false_eq_true, if_false, Nat.add_zero] at withheld
    omega
  · intro key late
    have late : world.next ≤ key := late
    obtain ⟨leasesLate, sharedLate, localsLate, -⟩ := inv.fresh key late
    refine ⟨leasesLate, ?_, localsLate, freshLocal key late⟩
    show (world.shared.insert lease.shared _).lookup key = none
    rwa [AList.lookup_insert_ne (by omega)]
  · intro key pool' found'
    exact isSome_lookup_insert _ _ (inv.pooled key pool' found')
  · intro key state' found'
    change (world.shared.insert lease.shared _).lookup key = some state' at found'
    by_cases same : key = lease.shared
    · subst same
      rw [AList.lookup_insert] at found'
      cases found'
      simp only [PoolStatus, poolFound]
      refine ⟨named, ⟨?_, by simp only [lowered]; omega, by simp only [lowered]; omega, livePool.withinBound,
        livePool.sameBudget⟩⟩
      show _ = bytesOf _ localLeases
      simp only [lowered]
      omega
    · rw [AList.lookup_insert_ne same] at found'
      refine (inv.status key state' found').congr rfl ?_
      have otherBytes := returned (fun owner => owner == key)
      simp only [beq_iff_eq, Ne.symm same, if_false, Nat.add_zero] at otherBytes
      exact otherBytes
  · intro key lease' found'
    exact isSome_lookup_insert _ _ (owned key lease' found')

theorem of_returnDead {lease : LocalMemoryLease} {state : SharedState} {amount : UInt64}
    {localLeases : KeyMap Nat LocalMemoryLease} (poolMissing : world.locals.lookup lease.shared = none)
    (stateFound : world.shared.lookup lease.shared = some state)
    (freshLocal : ∀ key, world.next ≤ key → localLeases.lookup key = none)
    (owned : ∀ key lease, localLeases.lookup key = some lease → (world.shared.lookup lease.shared).isSome)
    (returned : ∀ picked, bytesOf picked localLeases + (if picked lease.shared then amount.toNat else 0) =
      bytesOf picked world.localLeases) :
    { world with
      localLeases
      shared := world.shared.insert lease.shared state
      inner := state.pool.returnMemory world.inner amount }.Invariant := by
  obtain ⟨deadSet, below⟩ := inv.dead stateFound poolMissing
  have early := inv.lt_next_of_shared stateFound
  have sameWithholds : withholdsAt (world.shared.insert lease.shared state) = withholdsAt world.shared :=
    withholdsAt_insert_same stateFound Iff.rfl
  -- the orphaned lease's bytes count towards `used` exactly when its pool is the bounded one
  have withholding : withholdsAt world.shared lease.shared = decide (state.pool = .bounded) := by
    simp only [withholdsAt, stateFound, SharedState.withholds_dead state deadSet]
  have withheld := returned (withholdsAt world.shared)
  have ownBytes := returned (fun owner => owner == lease.shared)
  simp only [beq_self_eq_true, if_true] at ownBytes
  rw [withholding] at withheld
  have conserved := inv.conserved
  unfold withheldBytes at conserved
  have given := Budget.used_returnMemory state.pool world.inner amount fun bounded => by
    simp only [bounded, decide_true, if_true] at withheld
    omega
  constructor
  · show (state.pool.returnMemory world.inner amount).used.toNat = world.leaseBytes + world.capacityBytes +
      bytesOf (withholdsAt (world.shared.insert _ _)) localLeases
    rw [sameWithholds]
    by_cases bounded : state.pool = .bounded
    · rw [if_pos bounded] at given
      simp only [bounded, decide_true, if_true] at withheld
      omega
    · rw [if_neg bounded] at given
      simp only [bounded, decide_false, if_false, Bool.false_eq_true, Nat.add_zero] at withheld
      omega
  · intro key late
    have late : world.next ≤ key := late
    obtain ⟨leasesLate, sharedLate, localsLate, -⟩ := inv.fresh key late
    refine ⟨leasesLate, ?_, localsLate, freshLocal key late⟩
    show (world.shared.insert lease.shared _).lookup key = none
    rwa [AList.lookup_insert_ne (by omega)]
  · intro key pool' found'
    exact isSome_lookup_insert _ _ (inv.pooled key pool' found')
  · intro key state' found'
    change (world.shared.insert lease.shared _).lookup key = some state' at found'
    by_cases same : key = lease.shared
    · subst same
      rw [AList.lookup_insert] at found'
      cases found'
      simp only [PoolStatus, poolMissing]
      refine ⟨deadSet, ?_⟩
      show bytesOf _ localLeases < _
      unfold inFlightOf at below
      omega
    · rw [AList.lookup_insert_ne same] at found'
      refine (inv.status key state' found').congr rfl ?_
      have otherBytes := returned (fun owner => owner == key)
      simp only [beq_iff_eq, Ne.symm same, if_false, Nat.add_zero] at otherBytes
      exact otherBytes
  · intro key lease' found'
    exact isSome_lookup_insert _ _ (owned key lease' found')

theorem of_returnLocal {lease : LocalMemoryLease} {state : SharedState} {amount : UInt64}
    {localLeases : KeyMap Nat LocalMemoryLease} (stateFound : world.shared.lookup lease.shared = some state)
    (freshLocal : ∀ key, world.next ≤ key → localLeases.lookup key = none)
    (owned : ∀ key lease, localLeases.lookup key = some lease → (world.shared.lookup lease.shared).isSome)
    (returned : ∀ picked, bytesOf picked localLeases + (if picked lease.shared then amount.toNat else 0) =
      bytesOf picked world.localLeases) :
    { world with
      localLeases
      shared := world.shared.insert lease.shared (state.returnMemory world.inner amount).1
      inner := (state.returnMemory world.inner amount).2 }.Invariant := by
  cases poolFound : world.locals.lookup lease.shared with
  | some pool =>
    obtain ⟨state', stateFound', -, livePool⟩ := inv.live poolFound
    rw [stateFound] at stateFound'
    cases stateFound'
    rw [SharedState.returnMemory_of_live livePool.belowDead]
    exact inv.of_returnLive poolFound stateFound freshLocal owned returned
  | none =>
    have deadSet := (inv.dead stateFound poolFound).1
    rw [SharedState.returnMemory_of_dead (by rw [deadSet, toNat_deadBit]; omega)]
    exact inv.of_returnDead poolFound stateFound freshLocal owned returned

theorem of_dropLocal {name : Nat} {pool : LocalMemoryPool} {state state' : SharedState} {inner : BoundedBudgetInner}
    (found : world.locals.lookup name = some pool) (stateFound : world.shared.lookup pool.shared = some state)
    (dropped : pool.drop state world.inner = some (state', inner)) :
    { world with
      locals := world.locals.erase name
      shared := world.shared.insert pool.shared state'
      inner }.Invariant := by
  obtain ⟨state'', stateFound', named, livePool⟩ := inv.live found
  rw [named, stateFound'] at stateFound
  cases stateFound
  rw [named]
  obtain ⟨inner', spec, balanced⟩ := LocalMemoryPool.drop_spec livePool.withinCapacity (inv.capacity_held_le_used found)
  rw [dropped, Option.some.injEq, Prod.mk.injEq] at spec
  obtain ⟨rfl, rfl⟩ := spec
  have early := inv.lt_next_of_local found
  have counted := livePool.counted
  have belowDead := livePool.belowDead
  have nowWithholds : withholdsAt (world.shared.insert name { state with inFlight := deadBit }) =
      fun key => withholdsAt world.shared key || (key == name && decide (state.pool = .bounded)) := by
    funext key
    rw [withholdsAt_insert]
    by_cases same : key = name
    · subst same
      rw [withholdsAt_of_live stateFound' belowDead]
      simp [SharedState.withholds_dead]
    · simp [same]
  have apart : ∀ key, withholdsAt world.shared key = true → (key == name && decide (state.pool = .bounded)) = false := by
    intro key withholds
    have differ : key ≠ name := by
      rintro rfl
      rw [withholdsAt_of_live stateFound' belowDead] at withholds
      cases withholds
    simp [differ]
  have handed : bytesOf (fun key => key == name && decide (state.pool = .bounded)) world.localLeases =
      if state.pool = .bounded then world.inFlightOf name else 0 := by
    by_cases bounded : state.pool = .bounded
    · simp only [bounded, decide_true, Bool.and_true, if_true]
      rfl
    · simp only [bounded, decide_false, Bool.and_false, if_false]
      exact bytesOf_eq_zero _ fun _ _ _ => rfl
  have erased := KeyMap.total_erase (fun _ pool => pool.localCapacity.held) world.locals name
  rw [KeyMap.weightAt_of_lookup _ found] at erased
  constructor
  · have conserved := inv.conserved
    unfold leaseBytes capacityBytes withheldBytes at conserved ⊢
    show inner.used.toNat = _ + _ + bytesOf (withholdsAt (world.shared.insert name _)) world.localLeases
    rw [nowWithholds, bytesOf_or _ apart, handed]
    rw [livePool.sameBudget] at balanced
    by_cases bounded : state.pool = .bounded
    · simp only [if_pos bounded] at balanced ⊢
      omega
    · simp only [if_neg bounded] at balanced ⊢
      omega
  · intro key late
    have late : world.next ≤ key := late
    obtain ⟨leasesLate, sharedLate, localsLate, localLeasesLate⟩ := inv.fresh key late
    refine ⟨leasesLate, ?_, ?_, localLeasesLate⟩
    · show (world.shared.insert name _).lookup key = none
      rwa [AList.lookup_insert_ne (by omega)]
    · show (world.locals.erase name).lookup key = none
      rwa [AList.lookup_erase_ne (by omega)]
  · intro key pool' found'
    change (world.locals.erase name).lookup key = some pool' at found'
    by_cases same : key = name
    · subst same
      rw [AList.lookup_erase] at found'
      cases found'
    · rw [AList.lookup_erase_ne same] at found'
      exact isSome_lookup_insert _ _ (inv.pooled key pool' found')
  · intro key state'' found'
    change (world.shared.insert name _).lookup key = some state'' at found'
    by_cases same : key = name
    · subst same
      rw [AList.lookup_insert] at found'
      cases found'
      simp only [PoolStatus, AList.lookup_erase]
      exact ⟨trivial, (counted ▸ belowDead : world.inFlightOf key < 2 ^ 63)⟩
    · rw [AList.lookup_insert_ne same] at found'
      exact (inv.status key state'' found').congr (by simp only [AList.lookup_erase_ne same]) rfl
  · intro key lease found'
    exact isSome_lookup_insert _ _ (inv.owned key lease found')

end Invariant

theorem Invariant.of_withCapacity (capacity : UInt64) : (withCapacity capacity).Invariant where
  conserved := rfl
  fresh _ _ := ⟨rfl, rfl, rfl, rfl⟩
  pooled _ _ found := by cases found
  status _ _ found := by cases found
  owned _ _ found := by cases found

end World

end Memory

end Restate
