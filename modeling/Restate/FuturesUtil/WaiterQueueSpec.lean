import Restate.FuturesUtil.WaiterQueue

/-! What a WaiterQueue is for: a stable priority queue. Its waiters are those pushed and not yet
released, in push order; the queue lists them by target, those of one target in push order, and a
drain up to a threshold releases exactly those within it, in that order, keeping the others. -/

namespace WaiterQueue

variable {K V : Type} [LinearOrder K]

/-- The waiters pushed and not released, in push order, after a call. -/
def Call.pending : List (K × V) → Call K V → List (K × V)
  | pending, .push target value => pending ++ [(target, value)]
  | pending, .drainUpTo threshold => pending.filter fun entry => threshold < entry.1
  | _, .drainAll => []

variable {queue : WaiterQueue K V} {pending : List (K × V)}

theorem le_of_inOrder {target : K} (inOrder : (queue.maxKey.all fun max => max ≤ target) = true) :
    ∀ entry ∈ queue.entries, entry.1 ≤ target := by
  intro entry member
  cases maxEq : queue.maxKey with
  | none =>
    rw [queue.maxKey_eq, Option.map_eq_none_iff, List.getLast?_eq_none_iff] at maxEq
    rw [maxEq] at member
    exact absurd member List.not_mem_nil
  | some max =>
    rw [maxEq] at inOrder
    exact le_trans (queue.le_of_maxKey maxEq entry member) (by simpa using inOrder)

theorem stablySorts_push (stably : List.StablySorts Prod.fst queue.entries pending) (target : K) (value : V) :
    List.StablySorts Prod.fst (queue.push target value).entries (pending ++ [(target, value)]) := by
  unfold push
  split
  · next inOrder => exact stably.append (target, value) (le_of_inOrder inOrder)
  · -- the binary search stops after the waiters whose target is at most the new one
    dsimp only
    rw [partitionPoint, List.insertIdx_takeWhile_length]
    exact stably.insert (target, value)

theorem drainUpTo_released (queue : WaiterQueue K V) (threshold : K) :
    (queue.drainUpTo threshold).1 = (queue.entries.filter fun entry => entry.1 ≤ threshold).map Prod.snd := by
  rw [drainUpTo, List.takeWhile_le_eq_filter queue.sorted]

theorem drainUpTo_entries (queue : WaiterQueue K V) (threshold : K) :
    (queue.drainUpTo threshold).2.entries = queue.entries.filter fun entry => threshold < entry.1 :=
  List.dropWhile_le_eq_filter queue.sorted threshold

theorem stablySorts_call (stably : List.StablySorts Prod.fst queue.entries pending) :
    ∀ next, List.StablySorts Prod.fst (queue.call next).2.entries (Call.pending pending next)
  | .push target value => stablySorts_push stably target value
  | .drainUpTo threshold => by
    rw [call, drainUpTo_entries]
    exact stably.filter fun target => decide (threshold < target)
  | .drainAll => List.stablySorts_nil Prod.fst

theorem stablySorts_runCalls {queue : WaiterQueue K V} {pending : List (K × V)}
    (stably : List.StablySorts Prod.fst queue.entries pending) :
    ∀ calls, List.StablySorts Prod.fst (queue.runCalls calls).entries (calls.foldl Call.pending pending)
  | [] => stably
  | next :: calls => stablySorts_runCalls (stablySorts_call stably next) calls

/-- Over every sequence of calls on a new queue: the queue lists the waiters pushed and not
released by target, those of one target in push order; it keeps the largest target as its last
waiter's, or none when empty; its length counts the waiters; and a drain up to any threshold
releases the values of the waiters within it, listed by target and push order, and keeps exactly the
others, in the same order. -/
theorem waiter_queue_is_stable (calls : List (Call K V)) :
    let queue := (empty : WaiterQueue K V).runCalls calls
    let pending := calls.foldl Call.pending []
    List.StablySorts Prod.fst queue.entries pending ∧ queue.maxKey = queue.entries.getLast?.map Prod.fst ∧
      queue.len = pending.length ∧
      ∀ threshold, (∃ released, List.StablySorts Prod.fst released (pending.filter fun entry => entry.1 ≤ threshold) ∧
          (queue.drainUpTo threshold).1 = released.map Prod.snd) ∧
        List.StablySorts Prod.fst (queue.drainUpTo threshold).2.entries (pending.filter fun entry => threshold < entry.1) := by
  intro queue pending
  have stably : List.StablySorts Prod.fst queue.entries pending :=
    stablySorts_runCalls (List.stablySorts_nil Prod.fst) calls
  refine ⟨stably, queue.maxKey_eq, stably.perm.length_eq, fun threshold => ⟨?_, ?_⟩⟩
  · exact ⟨_, stably.filter fun target => decide (target ≤ threshold), drainUpTo_released queue threshold⟩
  · rw [drainUpTo_entries]
    exact stably.filter fun target => decide (threshold < target)

end WaiterQueue
