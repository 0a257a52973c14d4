import Mathlib

/-! A double-ended priority queue whose items are ranked by their own keys, as the finite set of
its keys: its smallest and its largest key, and how they move when a key is pushed or popped. -/

namespace DoublePriorityQueue

variable {κ : Type} [LinearOrder κ]

def peekMin (queue : Finset κ) : Option κ := if h : queue.Nonempty then some (queue.min' h) else none

def peekMax (queue : Finset κ) : Option κ := if h : queue.Nonempty then some (queue.max' h) else none

variable {queue : Finset κ} {key : κ}

theorem peekMin_eq_some_iff : peekMin queue = some key ↔ key ∈ queue ∧ ∀ other ∈ queue, key ≤ other := by
  unfold peekMin
  split
  case isTrue nonEmpty =>
    rw [Option.some.injEq]
    constructor
    · rintro rfl
      exact ⟨queue.min'_mem nonEmpty, fun other mem => queue.min'_le other mem⟩
    · rintro ⟨mem, least⟩
      exact le_antisymm (queue.min'_le key mem) (least _ (queue.min'_mem nonEmpty))
  case isFalse empty =>
    simp only [reduceCtorEq, false_iff, not_and]
    intro mem
    exact absurd ⟨key, mem⟩ empty

theorem peekMax_eq_some_iff : peekMax queue = some key ↔ key ∈ queue ∧ ∀ other ∈ queue, other ≤ key := by
  unfold peekMax
  split
  case isTrue nonEmpty =>
    rw [Option.some.injEq]
    constructor
    · rintro rfl
      exact ⟨queue.max'_mem nonEmpty, fun other mem => queue.le_max' other mem⟩
    · rintro ⟨mem, greatest⟩
      exact le_antisymm (greatest _ (queue.max'_mem nonEmpty)) (queue.le_max' key mem)
  case isFalse empty =>
    simp only [reduceCtorEq, false_iff, not_and]
    intro mem
    exact absurd ⟨key, mem⟩ empty

@[simp]
theorem peekMin_eq_none_iff : peekMin queue = none ↔ queue = ∅ := by
  unfold peekMin
  split
  case isTrue nonEmpty => simpa using nonEmpty.ne_empty
  case isFalse empty => simpa [Finset.not_nonempty_iff_eq_empty] using empty

@[simp]
theorem peekMax_eq_none_iff : peekMax queue = none ↔ queue = ∅ := by
  unfold peekMax
  split
  case isTrue nonEmpty => simpa using nonEmpty.ne_empty
  case isFalse empty => simpa [Finset.not_nonempty_iff_eq_empty] using empty

@[simp]
theorem peekMax_empty : peekMax (∅ : Finset κ) = none := peekMax_eq_none_iff.mpr rfl

@[simp]
theorem peekMax_singleton (only : κ) : peekMax ({only} : Finset κ) = some only :=
  peekMax_eq_some_iff.mpr ⟨Finset.mem_singleton_self _, fun _ mem => (Finset.mem_singleton.mp mem).le⟩

@[simp]
theorem peekMin_singleton (only : κ) : peekMin ({only} : Finset κ) = some only :=
  peekMin_eq_some_iff.mpr ⟨Finset.mem_singleton_self _, fun _ mem => (Finset.mem_singleton.mp mem).ge⟩

theorem mem_of_peekMin (peeked : peekMin queue = some key) : key ∈ queue :=
  (peekMin_eq_some_iff.mp peeked).1

theorem mem_of_peekMax (peeked : peekMax queue = some key) : key ∈ queue :=
  (peekMax_eq_some_iff.mp peeked).1

theorem le_of_peekMax (peeked : peekMax queue = some key) {other : κ} (mem : other ∈ queue) : other ≤ key :=
  (peekMax_eq_some_iff.mp peeked).2 other mem

theorem le_of_peekMin (peeked : peekMin queue = some key) {other : κ} (mem : other ∈ queue) : key ≤ other :=
  (peekMin_eq_some_iff.mp peeked).2 other mem

theorem peekMax_isSome_iff : (peekMax queue).isSome ↔ queue.Nonempty := by
  rw [Option.isSome_iff_ne_none, ne_eq, peekMax_eq_none_iff, Finset.nonempty_iff_ne_empty]

theorem peekMax_insert (pushed : κ) :
    peekMax (insert pushed queue) = some ((peekMax queue).elim pushed (max pushed)) := by
  rw [peekMax_eq_some_iff]
  cases peeked : peekMax queue with
  | none =>
    rw [peekMax_eq_none_iff.mp peeked]
    simp
  | some largest =>
    simp only [Option.elim, Finset.mem_insert, forall_eq_or_imp, le_max_iff, le_refl, true_or, true_and]
    refine ⟨?_, fun other mem => .inr (le_of_peekMax peeked mem)⟩
    rcases max_choice pushed largest with chosen | chosen <;> rw [chosen]
    · exact .inl rfl
    · exact .inr (mem_of_peekMax peeked)

theorem peekMin_insert_of_le {pushed : κ} (peeked : peekMin queue = some key) (above : key ≤ pushed) :
    peekMin (insert pushed queue) = some key := by
  rw [peekMin_eq_some_iff, Finset.mem_insert, Finset.forall_mem_insert]
  exact ⟨.inr (mem_of_peekMin peeked), above, fun other mem => le_of_peekMin peeked mem⟩

theorem peekMin_erase_of_ne {popped : κ} (peeked : peekMin queue = some key) (other : popped ≠ key) :
    peekMin (queue.erase popped) = some key := by
  rw [peekMin_eq_some_iff]
  refine ⟨Finset.mem_erase.mpr ⟨other.symm, mem_of_peekMin peeked⟩, fun rest mem => ?_⟩
  exact le_of_peekMin peeked (Finset.mem_of_mem_erase mem)

theorem peekMax_of_subset {part : Finset κ} (peeked : peekMax queue = some key) (subset : part ⊆ queue)
    (mem : key ∈ part) : peekMax part = some key :=
  peekMax_eq_some_iff.mpr ⟨mem, fun _ inside => le_of_peekMax peeked (subset inside)⟩

/-- The `count` smallest keys in increasing order: `pop_min` repeated. -/
def popMins : Nat → Finset κ → List κ
  | 0, _ => []
  | count + 1, queue =>
    match peekMin queue with
    | some least => least :: popMins count (queue.erase least)
    | none => []

theorem mem_of_mem_popMins {count : Nat} (mem : key ∈ popMins count queue) : key ∈ queue := by
  induction count generalizing queue with
  | zero => simp [popMins] at mem
  | succ count ih =>
    unfold popMins at mem
    cases peeked : peekMin queue with
    | none => simp [peeked] at mem
    | some least =>
      simp only [peeked, List.mem_cons] at mem
      rcases mem with rfl | later
      · exact mem_of_peekMin peeked
      · exact Finset.mem_of_mem_erase (ih later)

theorem mem_popMins {count : Nat} (enough : queue.card ≤ count) (mem : key ∈ queue) : key ∈ popMins count queue := by
  induction count generalizing queue with
  | zero => simp [Finset.card_eq_zero.mp (Nat.le_zero.mp enough)] at mem
  | succ count ih =>
    unfold popMins
    cases peeked : peekMin queue with
    | none => simp [peekMin_eq_none_iff.mp peeked] at mem
    | some least =>
      simp only [List.mem_cons]
      by_cases same : key = least
      · exact .inl same
      · refine .inr (ih ?_ (Finset.mem_erase.mpr ⟨same, mem⟩))
        rw [Finset.card_erase_of_mem (mem_of_peekMin peeked)]
        omega

end DoublePriorityQueue
