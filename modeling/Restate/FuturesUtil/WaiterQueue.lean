import Restate.Lib.StableSort

/-! WaiterQueue of futures-util (waiter_queue.rs): a queue of waiters, each with the target a threshold has to reach before it is released. The
waiters are kept in order of target, so that raising the threshold releases a prefix of them: a
push at a target no smaller than any before goes to the back, and an out-of-order push is inserted
after the waiters whose target is at most its own. The queue remembers the largest target pushed
to tell the two apart; it is always the last waiter's target, or none when the queue is empty. -/

namespace List

variable {α : Type}

theorem insertIdx_takeWhile_length (p : α → Bool) (entry : α) :
    ∀ entries : List α, entries.insertIdx (entries.takeWhile p).length entry = entries.takeWhile p ++ entry :: entries.dropWhile p
  | [] => rfl
  | first :: rest => by
    by_cases holds : p first = true
    · rw [takeWhile_cons_of_pos holds, dropWhile_cons_of_pos holds, length_cons, insertIdx_succ_cons,
        insertIdx_takeWhile_length p entry rest, cons_append]
    · rw [takeWhile_cons_of_neg holds, dropWhile_cons_of_neg holds, length_nil, insertIdx_zero, nil_append]

theorem getLast?_append_cons_of_ne_nil {front back : List α} (entry : α) (nonEmpty : back ≠ []) :
    (front ++ entry :: back).getLast? = (front ++ back).getLast? := by
  obtain ⟨last, lastEq⟩ := Option.isSome_iff_exists.mp (getLast?_isSome.mpr nonEmpty)
  obtain ⟨init, rfl⟩ := getLast?_eq_some_iff.mp lastEq
  rw [← cons_append, ← append_assoc, ← append_assoc, getLast?_concat, getLast?_concat]

end List

/-- The waiters in order of target, and the largest target, as the queue keeps them. -/
structure WaiterQueue (K V : Type) [LinearOrder K] where
  entries : List (K × V)
  maxKey : Option K
  sorted : entries.Pairwise fun first second => first.1 ≤ second.1
  maxKey_eq : maxKey = entries.getLast?.map Prod.fst

namespace WaiterQueue

variable {K V : Type} [LinearOrder K]

/-- The empty queue. -/
def empty : WaiterQueue K V := ⟨[], none, List.Pairwise.nil, rfl⟩

/-- VecDeque::partition_point for the entries within a target: how many lead the queue. -/
def partitionPoint (entries : List (K × V)) (target : K) : Nat :=
  (entries.takeWhile fun entry => entry.1 ≤ target).length

theorem le_of_maxKey (queue : WaiterQueue K V) {max : K} (maxEq : queue.maxKey = some max) :
    ∀ entry ∈ queue.entries, entry.1 ≤ max := by
  rw [queue.maxKey_eq] at maxEq
  obtain ⟨last, lastEq, rfl⟩ := Option.map_eq_some_iff.mp maxEq
  obtain ⟨init, split⟩ := List.getLast?_eq_some_iff.mp lastEq
  have sorted := queue.sorted
  rw [split, List.pairwise_append] at sorted
  intro entry member
  rw [split, List.mem_append, List.mem_singleton] at member
  rcases member with earlier | rfl
  · exact sorted.2.2 entry earlier last (List.mem_singleton_self last)
  · exact le_refl _

theorem sorted_append (queue : WaiterQueue K V) {target : K} (value : V)
    (inOrder : (queue.maxKey.all fun max => max ≤ target) = true) :
    (queue.entries ++ [(target, value)]).Pairwise fun first second => first.1 ≤ second.1 := by
  refine List.pairwise_append.mpr ⟨queue.sorted, List.pairwise_singleton _ _, ?_⟩
  intro entry member pushed pushedMember
  rw [List.mem_singleton.mp pushedMember]
  cases maxEq : queue.maxKey with
  | none =>
    rw [queue.maxKey_eq, Option.map_eq_none_iff, List.getLast?_eq_none_iff] at maxEq
    rw [maxEq] at member
    exact absurd member List.not_mem_nil
  | some max =>
    rw [maxEq] at inOrder
    exact le_trans (queue.le_of_maxKey maxEq entry member) (by simpa using inOrder)

theorem sorted_insert (queue : WaiterQueue K V) (target : K) (value : V) :
    (queue.entries.insertIdx (partitionPoint queue.entries target) (target, value)).Pairwise
      fun first second => first.1 ≤ second.1 := by
  have whole := queue.sorted
  rw [← List.takeWhile_append_dropWhile (l := queue.entries) (p := fun entry => decide (entry.1 ≤ target)),
    List.pairwise_append] at whole
  obtain ⟨lowSorted, highSorted, lowHigh⟩ := whole
  rw [partitionPoint, List.insertIdx_takeWhile_length, List.pairwise_append, List.pairwise_cons]
  refine ⟨lowSorted, ⟨fun entry member => ?_, highSorted⟩, fun entry member other otherMember => ?_⟩
  · exact le_of_lt (List.lt_of_mem_dropWhile_le queue.sorted target entry member)
  · rcases List.mem_cons.mp otherMember with rfl | later
    · simpa using List.mem_takeWhile_imp member
    · exact lowHigh entry member other later

theorem maxKey_insert (queue : WaiterQueue K V) {target : K} (value : V)
    (outOfOrder : ¬(queue.maxKey.all fun max => max ≤ target) = true) :
    queue.maxKey = (queue.entries.insertIdx (partitionPoint queue.entries target) (target, value)).getLast?.map Prod.fst := by
  obtain ⟨max, maxEq, above⟩ : ∃ max, queue.maxKey = some max ∧ target < max := by
    cases maxEq : queue.maxKey with
    | none => simp [maxEq] at outOfOrder
    | some max => exact ⟨max, rfl, by simpa [maxEq] using outOfOrder⟩
  have highNonEmpty : queue.entries.dropWhile (fun entry => entry.1 ≤ target) ≠ [] := by
    intro empty
    have lastEq := maxEq
    rw [queue.maxKey_eq] at lastEq
    obtain ⟨last, lastMember, rfl⟩ := Option.map_eq_some_iff.mp lastEq
    have lastLow := List.dropWhile_eq_nil_iff.mp empty last (List.mem_of_getLast? lastMember)
    exact absurd above (not_lt.mpr (by simpa using lastLow))
  rw [partitionPoint, List.insertIdx_takeWhile_length, List.getLast?_append_cons_of_ne_nil _ highNonEmpty,
    List.takeWhile_append_dropWhile, queue.maxKey_eq]

/-- WaiterQueue::push: to the back when no target so far is larger, else by binary-search insert
at the partition point. -/
def push (queue : WaiterQueue K V) (target : K) (value : V) : WaiterQueue K V :=
  if inOrder : (queue.maxKey.all fun max => max ≤ target) = true then
    ⟨queue.entries ++ [(target, value)], some target, queue.sorted_append value inOrder, by simp⟩
  else
    ⟨queue.entries.insertIdx (partitionPoint queue.entries target) (target, value), queue.maxKey,
      queue.sorted_insert target value, queue.maxKey_insert value inOrder⟩

theorem maxKey_dropWhile (queue : WaiterQueue K V) (threshold : K) :
    (if (queue.entries.dropWhile fun entry => entry.1 ≤ threshold).isEmpty then none else queue.maxKey) =
      (queue.entries.dropWhile fun entry => entry.1 ≤ threshold).getLast?.map Prod.fst := by
  split
  · rename_i empty
    rw [List.isEmpty_iff.mp empty]
    rfl
  · rename_i nonEmpty
    rw [queue.maxKey_eq, ← List.takeWhile_append_dropWhile (l := queue.entries)
      (p := fun entry => decide (entry.1 ≤ threshold)), List.getLast?_append]
    obtain ⟨last, lastEq⟩ := Option.isSome_iff_exists.mp
      (List.getLast?_isSome.mpr fun empty => nonEmpty (List.isEmpty_iff.mpr empty))
    rw [List.takeWhile_append_dropWhile, lastEq]
    rfl

/-- WaiterQueue::drain_up_to: pops the waiters from the front while their target is within the
threshold, releasing their values in order, and forgets the largest target once empty. -/
def drainUpTo (queue : WaiterQueue K V) (threshold : K) : List V × WaiterQueue K V :=
  ((queue.entries.takeWhile fun entry => entry.1 ≤ threshold).map Prod.snd,
    ⟨queue.entries.dropWhile fun entry => entry.1 ≤ threshold,
      if (queue.entries.dropWhile fun entry => entry.1 ≤ threshold).isEmpty then none else queue.maxKey,
      queue.sorted.sublist (List.dropWhile_sublist _), queue.maxKey_dropWhile threshold⟩)

/-- WaiterQueue::drain_all: releases every waiter. -/
def drainAll (queue : WaiterQueue K V) : List V × WaiterQueue K V :=
  (queue.entries.map Prod.snd, empty)

/-- The values waiting, in order. -/
def values (queue : WaiterQueue K V) : List V := queue.entries.map Prod.snd

def isEmpty (queue : WaiterQueue K V) : Bool := queue.entries.isEmpty

def len (queue : WaiterQueue K V) : Nat := queue.entries.length

/-- A call on the queue. -/
inductive Call (K V : Type)
  | push (target : K) (value : V)
  | drainUpTo (threshold : K)
  | drainAll

/-- One call: the values it hands to the callback, in order, and the queue after it. -/
def call (queue : WaiterQueue K V) : Call K V → List V × WaiterQueue K V
  | .push target value => ([], queue.push target value)
  | .drainUpTo threshold => queue.drainUpTo threshold
  | .drainAll => queue.drainAll

def runCalls (queue : WaiterQueue K V) (calls : List (Call K V)) : WaiterQueue K V :=
  calls.foldl (fun queue next => (queue.call next).2) queue

@[simp] theorem empty_entries : (empty : WaiterQueue K V).entries = [] := rfl

@[simp] theorem values_empty : (empty : WaiterQueue K V).values = [] := rfl

theorem mem_push {queue : WaiterQueue K V} {target : K} {value : V} {entry : K × V} :
    entry ∈ (queue.push target value).entries ↔ entry = (target, value) ∨ entry ∈ queue.entries := by
  unfold push
  split
  · simp [or_comm]
  · exact (List.perm_insertIdx _ _ (List.takeWhile_prefix _).length_le).mem_iff.trans List.mem_cons

theorem values_push (queue : WaiterQueue K V) (target : K) (value : V) :
    (queue.push target value).values.Perm (value :: queue.values) := by
  unfold push values
  split
  · simp [List.perm_append_singleton]
  · exact (List.perm_insertIdx _ _ (List.takeWhile_prefix _).length_le).map Prod.snd

theorem mem_drainUpTo_released {queue : WaiterQueue K V} {threshold : K} {value : V}
    (released : value ∈ (queue.drainUpTo threshold).1) :
    ∃ target, (target, value) ∈ queue.entries ∧ target ≤ threshold := by
  obtain ⟨⟨target, value⟩, member, rfl⟩ := List.mem_map.mp released
  exact ⟨target, (List.takeWhile_sublist _).subset member, by simpa using List.mem_takeWhile_imp member⟩

theorem mem_drainUpTo_rest {queue : WaiterQueue K V} {threshold : K} {entry : K × V}
    (member : entry ∈ (queue.drainUpTo threshold).2.entries) :
    entry ∈ queue.entries ∧ threshold < entry.1 :=
  ⟨(List.dropWhile_sublist _).subset member, List.lt_of_mem_dropWhile_le queue.sorted threshold entry member⟩

theorem drainUpTo_values (queue : WaiterQueue K V) (threshold : K) :
    (queue.drainUpTo threshold).1 ++ (queue.drainUpTo threshold).2.values = queue.values := by
  simp only [drainUpTo, values, ← List.map_append, List.takeWhile_append_dropWhile]

@[simp] theorem drainAll_released (queue : WaiterQueue K V) : queue.drainAll.1 = queue.values := rfl

@[simp] theorem drainAll_rest (queue : WaiterQueue K V) : queue.drainAll.2 = empty := rfl

end WaiterQueue
