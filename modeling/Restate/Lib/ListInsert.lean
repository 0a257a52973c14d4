import Mathlib.Data.Finset.Card

/-! Sets kept as lists without duplicates and grown one element at a time with `List.insert`, as
a hash set is grown by inserting into it. Inserting a list of elements gives the union of the two,
without duplicates, so its length is the number of distinct elements; it never shrinks and grows
by at most one at each step. -/

namespace List

variable {α : Type} [DecidableEq α]

/-- Insert the elements of `xs` into `set`, one after the other. -/
def insertAll (xs set : List α) : List α := xs.foldl (fun set x => set.insert x) set

@[simp] theorem insertAll_nil (set : List α) : insertAll [] set = set := rfl

@[simp] theorem insertAll_cons (x : α) (xs set : List α) :
    insertAll (x :: xs) set = insertAll xs (set.insert x) := rfl

theorem insertAll_append (xs ys set : List α) :
    insertAll (xs ++ ys) set = insertAll ys (insertAll xs set) := by
  simp [insertAll, foldl_append]

@[simp] theorem mem_insertAll {y : α} (xs set : List α) :
    y ∈ insertAll xs set ↔ y ∈ set ∨ y ∈ xs := by
  induction xs generalizing set with
  | nil => simp
  | cons x xs ih =>
    rw [insertAll_cons, ih, mem_insert_iff, mem_cons]
    tauto

theorem Nodup.insertAll {set : List α} (nodup : set.Nodup) (xs : List α) :
    (List.insertAll xs set).Nodup := by
  induction xs generalizing set with
  | nil => exact nodup
  | cons x xs ih => exact ih nodup.insert

theorem length_le_insertAll (xs set : List α) : set.length ≤ (insertAll xs set).length := by
  induction xs generalizing set with
  | nil => exact Nat.le_refl _
  | cons x xs ih => exact Nat.le_trans (length_le_length_insert) (ih _)

theorem length_insertAll_nil (xs : List α) : (insertAll xs []).length = xs.toFinset.card := by
  have nodup := Nodup.insertAll nodup_nil xs
  rw [← toFinset_card_of_nodup nodup]
  congr 1
  ext y
  simp

end List
