import Mathlib

/-! A max-heap seen as the list of its elements. A pop takes a greatest element under the heap's
comparison; which of several equally ranked elements it takes depends on the heap's layout, so a
`PopOrder` names the index it takes, and may look at how many pops came before. A lawful order
takes a dominant element (one ranked above every other) whenever the heap has one. -/

structure PopOrder (α : Type) where
  pick : Nat → List α → Nat

namespace PopOrder

variable {α : Type}

/-- The element at the picked index and the heap without it. -/
def pop (order : PopOrder α) (step : Nat) (heap : List α) : Option (α × List α) :=
  heap[order.pick step heap]?.map fun top => (top, heap.eraseIdx (order.pick step heap))

/-- `cmp` ranks the element at `i` above every other element of the heap. -/
def Dominates (cmp : α → α → Ordering) (heap : List α) (i : Nat) : Prop :=
  ∃ inside : i < heap.length, ∀ j (other : j < heap.length), j ≠ i → cmp heap[i] heap[j] = .gt

instance (cmp : α → α → Ordering) (heap : List α) (i : Nat) : Decidable (Dominates cmp heap i) :=
  inferInstanceAs (Decidable (∃ _ : i < heap.length, _))

structure Lawful (cmp : α → α → Ordering) (order : PopOrder α) : Prop where
  inBounds : ∀ step heap, heap ≠ [] → order.pick step heap < heap.length
  dominant : ∀ step heap i, Dominates cmp heap i → Dominates cmp heap (order.pick step heap)

/-- The first dominant index, or the first one when none dominates. -/
def firstDominant (cmp : α → α → Ordering) : PopOrder α :=
  ⟨fun _ heap => ((List.range heap.length).find? fun i => decide (Dominates cmp heap i)).getD 0⟩

theorem firstDominant_lawful (cmp : α → α → Ordering) : (firstDominant cmp).Lawful cmp where
  inBounds := by
    intro step heap nonEmpty
    have positive : 0 < heap.length := List.length_pos_iff.mpr nonEmpty
    simp only [firstDominant]
    cases found : (List.range heap.length).find? fun i => decide (Dominates cmp heap i) with
    | none => exact positive
    | some i => exact List.mem_range.mp (List.mem_of_find?_eq_some found)
  dominant := by
    intro step heap i dominates
    simp only [firstDominant]
    cases found : (List.range heap.length).find? fun i => decide (Dominates cmp heap i) with
    | none =>
      have inRange : i ∈ List.range heap.length := List.mem_range.mpr dominates.1
      exact absurd (decide_eq_true dominates) (by simpa using List.find?_eq_none.mp found i inRange)
    | some j => simpa using List.find?_some found

variable {order : PopOrder α} {step : Nat} {heap rest : List α} {top : α}

theorem pop_perm (popped : order.pop step heap = some (top, rest)) : (top :: rest).Perm heap := by
  simp only [pop, Option.map_eq_some_iff, Prod.mk.injEq] at popped
  obtain ⟨found, atPick, rfl, rfl⟩ := popped
  obtain ⟨inside, rfl⟩ := List.getElem?_eq_some_iff.mp atPick
  exact List.getElem_cons_eraseIdx_perm inside

theorem mem_of_pop (popped : order.pop step heap = some (top, rest)) : top ∈ heap :=
  (pop_perm popped).subset List.mem_cons_self

theorem pop_isSome {cmp : α → α → Ordering} (lawful : order.Lawful cmp) (nonEmpty : heap ≠ []) :
    (order.pop step heap).isSome := by
  simp [pop, lawful.inBounds step heap nonEmpty]

theorem pop_eq_none {cmp : α → α → Ordering} (lawful : order.Lawful cmp) :
    order.pop step heap = none ↔ heap = [] := by
  constructor
  · intro none
    by_contra nonEmpty
    have isSome := @pop_isSome _ order step heap cmp lawful nonEmpty
    rw [none] at isSome
    cases isSome
  · rintro rfl
    rfl

theorem pop_dominant {cmp : α → α → Ordering} (lawful : order.Lawful cmp) {i : Nat}
    (dominates : Dominates cmp heap i) :
    ∃ j, Dominates cmp heap j ∧ ∃ inside : j < heap.length, order.pop step heap = some (heap[j], heap.eraseIdx j) := by
  have picked := lawful.dominant step heap i dominates
  refine ⟨order.pick step heap, picked, picked.1, ?_⟩
  simp [pop, picked.1]

end PopOrder
