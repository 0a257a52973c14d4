import Mathlib
import Restate.Lib.KeyMap

/-! The memory budgets of memory/src/pool.rs and memory/src/local_pool.rs: the bounded `MemoryPool`
and its `MemoryLease`s, and the per-invocation `LocalMemoryPool` that caches capacity on a lease of
it, with its `LocalMemoryLease`s and the dead-bit hand-over of their bytes when the local pool is
dropped. `usize` is `UInt64` (a 64-bit target); `+` and `-` wrap as a release build does, and
`checked_add`, `saturating_add` and `saturating_sub` are written out. The atomics are updated by one
call at a time, so each call of the API is one step of a world that holds the bounded pool's
counters and, under a name each, the live leases, the local pools, their shared states and their
leases. The `Notify`s and the futures that wait on them change no counter and are left out; a
`reserve` that waits is a step that changes nothing. -/

namespace Restate

namespace Memory

def checkedAdd (a b : UInt64) : Option UInt64 :=
  if a.toNat + b.toNat < 2 ^ 64 then some (a + b) else none

def saturatingAdd (a b : UInt64) : UInt64 :=
  if a.toNat + b.toNat < 2 ^ 64 then a + b else 18446744073709551615

def saturatingSub (a b : UInt64) : UInt64 :=
  if b ≤ a then a - b else 0

/-- The budget a `MemoryPool` handle stands for: `MemoryPool::unlimited()`, whose `inner` is
`None`, or the bounded pool whose `BoundedBudgetInner` the world holds. -/
inductive Budget
  | unlimited
  | bounded
  deriving DecidableEq, Repr

/-- `BoundedBudgetInner`, without its `Notify`. -/
structure BoundedBudgetInner where
  capacity : UInt64
  used : UInt64

structure MemoryLease where
  budget : Budget
  size : UInt64

namespace Budget

/-- `MemoryPool::try_acquire`: the `fetch_update` succeeds when `used + amount` neither overflows
nor passes the capacity. -/
def tryAcquire (budget : Budget) (inner : BoundedBudgetInner) (amount : UInt64) : Option BoundedBudgetInner :=
  match budget with
  | .bounded => do
    let newUsed ← checkedAdd inner.used amount
    if newUsed ≤ inner.capacity then some { inner with used := newUsed } else none
  | .unlimited => some inner

/-- `MemoryPool::try_reserve`, whose `fetch_update` is that of `try_acquire`. -/
def tryReserve (budget : Budget) (inner : BoundedBudgetInner) (size : UInt64) :
    Option (MemoryLease × BoundedBudgetInner) :=
  if size = 0 then some (⟨budget, size⟩, inner)
  else
    match budget with
    | .bounded => (budget.tryAcquire inner size).map fun inner => (⟨budget, size⟩, inner)
    | .unlimited => some (⟨budget, size⟩, inner)

/-- `MemoryPool::force_reserve`; none where the `expect` panics on an overflow of `used`. -/
def forceReserve (budget : Budget) (inner : BoundedBudgetInner) (size : UInt64) :
    Option (MemoryLease × BoundedBudgetInner) :=
  if size = 0 then some (⟨budget, size⟩, inner)
  else
    match budget with
    | .bounded => (checkedAdd inner.used size).map fun used => (⟨budget, size⟩, { inner with used })
    | .unlimited => some (⟨budget, size⟩, inner)

def setCapacity (budget : Budget) (inner : BoundedBudgetInner) (capacity : UInt64) : BoundedBudgetInner :=
  match budget with
  | .bounded => { inner with capacity }
  | .unlimited => inner

def available (budget : Budget) (inner : BoundedBudgetInner) : UInt64 :=
  match budget with
  | .bounded => saturatingSub inner.capacity inner.used
  | .unlimited => 18446744073709551615

/-- `MemoryPool::return_memory`: `fetch_sub` wraps. -/
def returnMemory (budget : Budget) (inner : BoundedBudgetInner) (amount : UInt64) : BoundedBudgetInner :=
  if amount = 0 then inner
  else
    match budget with
    | .bounded => { inner with used := inner.used - amount }
    | .unlimited => inner

def emptyLease (budget : Budget) : MemoryLease := ⟨budget, 0⟩

end Budget

namespace MemoryLease

def unlinked : MemoryLease := ⟨.unlimited, 0⟩

/-- `Drop for MemoryLease`. -/
def drop (lease : MemoryLease) (inner : BoundedBudgetInner) : BoundedBudgetInner :=
  if 0 < lease.size then lease.budget.returnMemory inner lease.size else inner

/-- `MemoryLease::shrink`, clamped to the lease's size. -/
def shrink (lease : MemoryLease) (inner : BoundedBudgetInner) (amount : UInt64) : MemoryLease × BoundedBudgetInner :=
  let shrinkBy := min amount lease.size
  if 0 < shrinkBy then ({ lease with size := lease.size - shrinkBy }, lease.budget.returnMemory inner shrinkBy)
  else (lease, inner)

/-- `MemoryLease::release`, with the bytes it released. -/
def release (lease : MemoryLease) (inner : BoundedBudgetInner) : UInt64 × MemoryLease × BoundedBudgetInner :=
  let size := lease.size
  if 0 < size then (size, { lease with size := 0 }, lease.budget.returnMemory inner size) else (size, lease, inner)

/-- `MemoryLease::try_grow`, with whether it grew. -/
def tryGrow (lease : MemoryLease) (inner : BoundedBudgetInner) (additional : UInt64) :
    Bool × MemoryLease × BoundedBudgetInner :=
  if additional = 0 then (true, lease, inner)
  else
    match lease.budget.tryAcquire inner additional with
    | some inner => (true, { lease with size := lease.size + additional }, inner)
    | none => (false, lease, inner)

/-- `MemoryLease::grow`; none where the `assert!` panics. -/
def grow (lease : MemoryLease) (inner : BoundedBudgetInner) (additional : UInt64) :
    Option (MemoryLease × BoundedBudgetInner) :=
  if additional = 0 then some ({ lease with size := lease.size + additional }, inner)
  else (lease.budget.tryAcquire inner additional).map fun inner => ({ lease with size := lease.size + additional }, inner)

/-- `MemoryLease::split`: the lease keeps the rest, the new one gets `amount`; none where the
`assert!` panics. -/
def split (lease : MemoryLease) (amount : UInt64) : Option (MemoryLease × MemoryLease) :=
  if amount ≤ lease.size then some ({ lease with size := lease.size - amount }, ⟨lease.budget, amount⟩) else none

/-- `MemoryLease::merge`, with the drop of `other` at its end. An unlimited lease takes the other's
budget and size; an unlimited other is dropped; two bounded leases add their sizes, saturating. -/
def merge (lease other : MemoryLease) (inner : BoundedBudgetInner) : MemoryLease × BoundedBudgetInner :=
  if lease.budget = .unlimited then
    -- `self` takes `other`'s size and budget; `other` is left unlimited and empty, and drops so
    (⟨other.budget, other.size⟩, (⟨lease.budget, 0⟩ : MemoryLease).drop inner)
  else if other.budget = .unlimited then (lease, other.drop inner)
  else ({ lease with size := saturatingAdd lease.size other.size }, ({ other with size := 0 } : MemoryLease).drop inner)

/-- `MemoryLease::take`: the new lease gets every byte. -/
def take (lease : MemoryLease) : MemoryLease × MemoryLease :=
  ({ lease with size := 0 }, ⟨lease.budget, lease.size⟩)

def newEmpty (lease : MemoryLease) : MemoryLease := ⟨lease.budget, 0⟩

end MemoryLease

/-- `DEAD_BIT`, the high bit of `in_flight`. -/
def deadBit : UInt64 := (1 : UInt64) <<< 63

/-- `SharedState`, without its `Notify`: the pool and the in-flight counter with its dead bit. -/
structure SharedState where
  pool : Budget
  inFlight : UInt64

/-- `SharedState::return_memory`: the CAS subtracts while the dead bit is clear, and otherwise the
bytes go straight back to the global pool. -/
def SharedState.returnMemory (shared : SharedState) (inner : BoundedBudgetInner) (amount : UInt64) :
    SharedState × BoundedBudgetInner :=
  if shared.inFlight &&& deadBit = 0 then ({ shared with inFlight := shared.inFlight - amount }, inner)
  else (shared, shared.pool.returnMemory inner amount)

/-- `LocalMemoryPool`; `shared` names its `Arc<SharedState>` in the world. -/
structure LocalMemoryPool where
  shared : Nat
  localCapacity : MemoryLease
  minReserved : UInt64
  upperBound : UInt64

structure LocalMemoryLease where
  shared : Nat
  size : UInt64

inductive OutOfMemoryKind
  | upperBoundExceeded
  | poolExhausted
  deriving DecidableEq, Repr

structure OutOfMemory where
  needed : UInt64
  kind : OutOfMemoryKind
  deriving DecidableEq, Repr

/-- What one turn of `LocalMemoryPool::reserve`, or a `poll_reserve`, comes to. -/
inductive ReserveOutcome
  | ready (lease : LocalMemoryLease)
  | outOfMemory (error : OutOfMemory)
  | pending

namespace LocalMemoryPool

/-- `LocalMemoryPool::new`, with its fresh shared state: no bytes in flight. -/
def new (shared : Nat) (pool : Budget) (localCapacity : MemoryLease) (minReserved upperBound : UInt64) :
    SharedState × LocalMemoryPool :=
  (⟨pool, 0⟩, ⟨shared, localCapacity, minReserved, upperBound⟩)

/-- `LocalMemoryPool::in_flight`: the counter without its dead bit. -/
def inFlight (shared : SharedState) : UInt64 := shared.inFlight &&& ~~~deadBit

def available (pool : LocalMemoryPool) (shared : SharedState) : UInt64 :=
  saturatingSub pool.localCapacity.size (inFlight shared)

/-- `LocalMemoryPool::try_reserve`: from the local capacity, grown from the global pool by the
deficit when it falls short, unless the capacity plus the whole request passes the upper bound.
None leaves everything as it was. -/
def tryReserve (pool : LocalMemoryPool) (shared : SharedState) (inner : BoundedBudgetInner) (size : UInt64) :
    Option (LocalMemoryLease × LocalMemoryPool × SharedState × BoundedBudgetInner) :=
  if size = 0 then some (⟨pool.shared, 0⟩, pool, shared, inner)
  else
    let available := pool.available shared
    let grown : Option (LocalMemoryPool × BoundedBudgetInner) :=
      if available < size then
        let deficit := size - available
        if pool.upperBound < pool.localCapacity.size + size then none
        else
          match pool.localCapacity.tryGrow inner deficit with
          | (true, localCapacity, inner) => some ({ pool with localCapacity }, inner)
          | (false, _, _) => none
      else some (pool, inner)
    grown.map fun (pool, inner) =>
      (⟨pool.shared, size⟩, pool, { shared with inFlight := shared.inFlight + size }, inner)

/-- `LocalMemoryPool::check_out_of_memory`; none where `NonZeroUsize::new(..).expect` panics. -/
def checkOutOfMemory (pool : LocalMemoryPool) (shared : SharedState) (inner : BoundedBudgetInner)
    (needed pinned : UInt64) : Option (Except OutOfMemory Unit) :=
  let outOfMemory (kind : OutOfMemoryKind) : Option (Except OutOfMemory Unit) :=
    if saturatingAdd needed pinned = 0 then none else some (.error ⟨saturatingAdd needed pinned, kind⟩)
  if saturatingSub pool.upperBound pinned < needed then outOfMemory .upperBoundExceeded
  else
    let capacity := pool.localCapacity.size
    let globalAvailable := shared.pool.available inner
    let growthPossible := min (saturatingSub pool.upperBound capacity) globalAvailable
    let reclaimable := saturatingAdd (saturatingSub capacity pinned) growthPossible
    if reclaimable < needed then outOfMemory .poolExhausted else some (.ok ())

/-- One turn of the loop of `LocalMemoryPool::reserve`: a lease, an error when the request is
infeasible, or a wait. `poll_reserve` is this turn with nothing pinned. -/
def reserveTurn (pool : LocalMemoryPool) (shared : SharedState) (inner : BoundedBudgetInner) (size pinned : UInt64) :
    Option (ReserveOutcome × LocalMemoryPool × SharedState × BoundedBudgetInner) :=
  match pool.tryReserve shared inner size with
  | some (lease, pool, shared, inner) => some (.ready lease, pool, shared, inner)
  | none =>
    (pool.checkOutOfMemory shared inner size pinned).map fun
      | .error oom => (.outOfMemory oom, pool, shared, inner)
      | .ok () => (.pending, pool, shared, inner)

/-- `LocalMemoryPool::release_excess`: the local capacity down to the larger of `min_reserved`
and the bytes in flight. -/
def releaseExcess (pool : LocalMemoryPool) (shared : SharedState) (inner : BoundedBudgetInner) :
    LocalMemoryPool × BoundedBudgetInner :=
  let capacity := pool.localCapacity.size
  let floor := max pool.minReserved (inFlight shared)
  if floor < capacity then
    let shrunk := pool.localCapacity.shrink inner (capacity - floor)
    ({ pool with localCapacity := shrunk.1 }, shrunk.2)
  else (pool, inner)

def emptyLease (pool : LocalMemoryPool) : LocalMemoryLease := ⟨pool.shared, 0⟩

/-- `Drop for LocalMemoryPool`: the swap sets the dead bit and reads the bytes in flight, which are
split off the local capacity and forgotten, and the rest of the capacity drops; none where the
split's `assert!` panics. -/
def drop (pool : LocalMemoryPool) (shared : SharedState) (inner : BoundedBudgetInner) :
    Option (SharedState × BoundedBudgetInner) := do
  let inFlight := shared.inFlight
  -- the split-off part is forgotten: its bytes stay in `used` until the orphaned leases return them
  let localCapacity ←
    if 0 < inFlight then (pool.localCapacity.split inFlight).map Prod.fst else some pool.localCapacity
  pure ({ shared with inFlight := deadBit }, localCapacity.drop inner)

end LocalMemoryPool

namespace LocalMemoryLease

/-- `Drop for LocalMemoryLease`. -/
def drop (lease : LocalMemoryLease) (shared : SharedState) (inner : BoundedBudgetInner) :
    SharedState × BoundedBudgetInner :=
  if 0 < lease.size then shared.returnMemory inner lease.size else (shared, inner)

/-- `LocalMemoryLease::merge`: `other` is forgotten, its bytes now `self`'s. -/
def merge (lease other : LocalMemoryLease) : LocalMemoryLease :=
  { lease with size := lease.size + other.size }

/-- `LocalMemoryLease::split`; none where the `assert!` panics. -/
def split (lease : LocalMemoryLease) (amount : UInt64) : Option (LocalMemoryLease × LocalMemoryLease) :=
  if amount ≤ lease.size then some ({ lease with size := lease.size - amount }, ⟨lease.shared, amount⟩) else none

/-- `LocalMemoryLease::shrink`, clamped to the lease's size. -/
def shrink (lease : LocalMemoryLease) (shared : SharedState) (inner : BoundedBudgetInner) (amount : UInt64) :
    LocalMemoryLease × SharedState × BoundedBudgetInner :=
  let shrinkBy := min amount lease.size
  if 0 < shrinkBy then
    let returned := shared.returnMemory inner shrinkBy
    ({ lease with size := lease.size - shrinkBy }, returned.1, returned.2)
  else (lease, shared, inner)

end LocalMemoryLease

/-- The budgets of a process: the bounded pool's counters and, by name, the live `MemoryLease`s,
the shared states of the local pools (kept while any of their leases may live), the live local
pools and the live local leases. New objects take the next name. -/
structure World where
  inner : BoundedBudgetInner
  leases : KeyMap Nat MemoryLease
  shared : KeyMap Nat SharedState
  locals : KeyMap Nat LocalMemoryPool
  localLeases : KeyMap Nat LocalMemoryLease
  next : Nat

/-- The calls of the API, each on the objects it names. -/
inductive Call
  | tryReserve (budget : Budget) (size : UInt64)
  | forceReserve (budget : Budget) (size : UInt64)
  | setCapacity (capacity : UInt64)
  | emptyLease (budget : Budget)
  | unlinked
  | shrink (lease : Nat) (amount : UInt64)
  | release (lease : Nat)
  | tryGrow (lease : Nat) (additional : UInt64)
  | grow (lease : Nat) (additional : UInt64)
  | split (lease : Nat) (amount : UInt64)
  | merge (lease other : Nat)
  | take (lease : Nat)
  | newEmpty (lease : Nat)
  | dropLease (lease : Nat)
  | newLocal (budget : Budget) (localCapacity : Nat) (minReserved upperBound : UInt64)
  | unlimitedLocal
  | localTryReserve (pool : Nat) (size : UInt64)
  | localReserve (pool : Nat) (size pinned : UInt64)
  | releaseExcess (pool : Nat)
  | localEmptyLease (pool : Nat)
  | dropLocal (pool : Nat)
  | localMerge (lease other : Nat)
  | localSplit (lease : Nat) (amount : UInt64)
  | localShrink (lease : Nat) (amount : UInt64)
  | dropLocalLease (lease : Nat)

namespace World

/-- The world of a fresh bounded pool of the given capacity. -/
def withCapacity (capacity : UInt64) : World := ⟨⟨capacity, 0⟩, ∅, ∅, ∅, ∅, 0⟩

/-- A new lease under the next name. -/
def addLease (world : World) (lease : MemoryLease) : World :=
  { world with leases := world.leases.insert world.next lease, next := world.next + 1 }

/-- A new local lease under the next name. -/
def addLocalLease (world : World) (lease : LocalMemoryLease) : World :=
  { world with localLeases := world.localLeases.insert world.next lease, next := world.next + 1 }

/-- A new local pool, and its shared state, under the next name. -/
def addLocal (world : World) (budget : Budget) (localCapacity : MemoryLease) (minReserved upperBound : UInt64) :
    World :=
  let made := LocalMemoryPool.new world.next budget localCapacity minReserved upperBound
  { world with
    shared := world.shared.insert world.next made.1
    locals := world.locals.insert world.next made.2
    next := world.next + 1 }

/-- A call on the world; none where the code panics, where a name is not that of a live object of
the call's kind, where a lease is merged into itself, which ownership rules out, and where a count
whose type is non-zero is zero. -/
def step (world : World) : Call → Option World
  | .tryReserve budget size =>
    (budget.tryReserve world.inner size).map fun (lease, inner) => { world with inner }.addLease lease
  | .forceReserve budget size =>
    (budget.forceReserve world.inner size).map fun (lease, inner) => { world with inner }.addLease lease
  | .setCapacity capacity =>
    if capacity = 0 then none else some { world with inner := Budget.bounded.setCapacity world.inner capacity }
  | .emptyLease budget => some (world.addLease budget.emptyLease)
  | .unlinked => some (world.addLease .unlinked)
  | .shrink name amount => do
    let lease ← world.leases.lookup name
    let (lease, inner) := lease.shrink world.inner amount
    pure { world with leases := world.leases.insert name lease, inner }
  | .release name => do
    let lease ← world.leases.lookup name
    let (_, lease, inner) := lease.release world.inner
    pure { world with leases := world.leases.insert name lease, inner }
  | .tryGrow name additional => do
    let lease ← world.leases.lookup name
    let (_, lease, inner) := lease.tryGrow world.inner additional
    pure { world with leases := world.leases.insert name lease, inner }
  | .grow name additional => do
    let lease ← world.leases.lookup name
    let (lease, inner) ← lease.grow world.inner additional
    pure { world with leases := world.leases.insert name lease, inner }
  | .split name amount => do
    let lease ← world.leases.lookup name
    let (lease, part) ← lease.split amount
    pure ({ world with leases := world.leases.insert name lease }.addLease part)
  | .merge name other => do
    if name = other then none
    let lease ← world.leases.lookup name
    let otherLease ← world.leases.lookup other
    let (lease, inner) := lease.merge otherLease world.inner
    pure { world with leases := (world.leases.erase other).insert name lease, inner }
  | .take name => do
    let lease ← world.leases.lookup name
    let (lease, taken) := lease.take
    pure ({ world with leases := world.leases.insert name lease }.addLease taken)
  | .newEmpty name => do
    let lease ← world.leases.lookup name
    pure (world.addLease lease.newEmpty)
  | .dropLease name => do
    let lease ← world.leases.lookup name
    pure { world with leases := world.leases.erase name, inner := lease.drop world.inner }
  | .newLocal budget name minReserved upperBound => do
    if upperBound = 0 then none
    let localCapacity ← world.leases.lookup name
    pure ({ world with leases := world.leases.erase name }.addLocal budget localCapacity minReserved upperBound)
  | .unlimitedLocal =>
    some (world.addLocal .unlimited Budget.unlimited.emptyLease 0 18446744073709551615)
  | .localTryReserve name size => do
    let pool ← world.locals.lookup name
    let shared ← world.shared.lookup pool.shared
    match pool.tryReserve shared world.inner size with
    | some (lease, pool, shared, inner) =>
      pure ({ world with
        locals := world.locals.insert name pool
        shared := world.shared.insert pool.shared shared
        inner }.addLocalLease lease)
    | none => pure world
  | .localReserve name size pinned => do
    let pool ← world.locals.lookup name
    let shared ← world.shared.lookup pool.shared
    let (outcome, pool, shared, inner) ← pool.reserveTurn shared world.inner size pinned
    let world := { world with
      locals := world.locals.insert name pool
      shared := world.shared.insert pool.shared shared
      inner }
    match outcome with
    | .ready lease => pure (world.addLocalLease lease)
    | .outOfMemory _ | .pending => pure world
  | .releaseExcess name => do
    let pool ← world.locals.lookup name
    let shared ← world.shared.lookup pool.shared
    let (pool, inner) := pool.releaseExcess shared world.inner
    pure { world with locals := world.locals.insert name pool, inner }
  | .localEmptyLease name => do
    let pool ← world.locals.lookup name
    pure (world.addLocalLease pool.emptyLease)
  | .dropLocal name => do
    let pool ← world.locals.lookup name
    let shared ← world.shared.lookup pool.shared
    let (shared, inner) ← pool.drop shared world.inner
    pure { world with locals := world.locals.erase name, shared := world.shared.insert pool.shared shared, inner }
  | .localMerge name other => do
    if name = other then none
    let lease ← world.localLeases.lookup name
    let otherLease ← world.localLeases.lookup other
    pure { world with localLeases := (world.localLeases.erase other).insert name (lease.merge otherLease) }
  | .localSplit name amount => do
    let lease ← world.localLeases.lookup name
    let (lease, part) ← lease.split amount
    pure ({ world with localLeases := world.localLeases.insert name lease }.addLocalLease part)
  | .localShrink name amount => do
    let lease ← world.localLeases.lookup name
    let shared ← world.shared.lookup lease.shared
    let (lease', shared, inner) := lease.shrink shared world.inner amount
    pure { world with
      localLeases := world.localLeases.insert name lease'
      shared := world.shared.insert lease.shared shared
      inner }
  | .dropLocalLease name => do
    let lease ← world.localLeases.lookup name
    let shared ← world.shared.lookup lease.shared
    let (shared, inner) := lease.drop shared world.inner
    pure { world with
      localLeases := world.localLeases.erase name
      shared := world.shared.insert lease.shared shared
      inner }

/-- The world a sequence of calls leaves; none when one of them fails. -/
def run (world : World) (calls : List Call) : Option World :=
  calls.foldlM step world

end World

end Memory

end Restate
