import Mathlib

/-! Two operations of Rust's standard library on lists. `Iterator::max_by_key` folds with
`cmp::max_by`, which keeps the later of two elements of equal key, so it returns the last element of
largest key. `Vec::swap_remove` fills the hole with the last element; on a list without duplicates
it removes the element, in another order. -/

namespace List

variable {α β : Type}

section MaxByKey

variable [LinearOrder β] (key : α → β)

/-- `Iterator::max_by_key`: the last element of largest key. -/
def maxByKey? : List α → Option α
  | [] => none
  | first :: rest => some (rest.foldl (fun best next => if key best ≤ key next then next else best) first)

theorem foldl_maxByKey_mem (rest : List α) (best : α) :
    rest.foldl (fun best next => if key best ≤ key next then next else best) best ∈ best :: rest := by
  induction rest generalizing best with
  | nil => exact mem_singleton_self best
  | cons next rest ih =>
    rw [foldl_cons]
    split
    · exact mem_cons_of_mem best (ih next)
    · rcases mem_cons.mp (ih best) with same | later
      · rw [same]
        exact mem_cons_self
      · exact mem_cons_of_mem best (mem_cons_of_mem next later)

theorem le_foldl_maxByKey (rest : List α) (best : α) :
    ∀ entry ∈ best :: rest,
      key entry ≤ key (rest.foldl (fun best next => if key best ≤ key next then next else best) best) := by
  induction rest generalizing best with
  | nil =>
    intro entry member
    rw [mem_singleton.mp member]
    rfl
  | cons next rest ih =>
    intro entry member
    rw [foldl_cons]
    split
    · next le =>
      -- the running best is replaced by the later element of no smaller key
      rcases mem_cons.mp member with rfl | later
      · exact le.trans (ih next next mem_cons_self)
      · exact ih next entry later
    · next gt =>
      rcases mem_cons.mp member with rfl | later
      · exact ih entry entry mem_cons_self
      · rcases mem_cons.mp later with rfl | further
        · exact (le_of_not_ge gt).trans (ih best best mem_cons_self)
        · exact ih best entry (mem_cons_of_mem best further)

variable {key}

@[simp] theorem maxByKey?_eq_none_iff {list : List α} : list.maxByKey? key = none ↔ list = [] := by
  cases list <;> simp [maxByKey?]

theorem maxByKey?_mem {list : List α} {found : α} (located : list.maxByKey? key = some found) : found ∈ list := by
  cases list with
  | nil => cases located
  | cons first rest =>
    cases located
    exact foldl_maxByKey_mem key rest first

theorem le_maxByKey? {list : List α} {found : α} (located : list.maxByKey? key = some found) :
    ∀ entry ∈ list, key entry ≤ key found := by
  cases list with
  | nil => cases located
  | cons first rest =>
    cases located
    exact le_foldl_maxByKey key rest first

end MaxByKey

section SwapRemove

/-- `Vec::swap_remove`: the last element takes the place of the one at the index, which is in
bounds where it is called. -/
def swapRemove (list : List α) (index : Nat) : List α :=
  match list.getLast? with
  | none => list
  | some last => (list.set index last).dropLast

theorem swapRemove_perm {list : List α} {index : Nat} (bound : index < list.length) :
    (list.swapRemove index).Perm (list.eraseIdx index) := by
  obtain ⟨init, last, rfl⟩ := eq_nil_or_concat' list |>.resolve_left (ne_nil_of_length_pos (by omega))
  rw [length_append, length_singleton] at bound
  simp only [swapRemove, getLast?_concat]
  by_cases atEnd : index = init.length
  · -- removing the last element: the set writes it back and the pop takes it
    subst atEnd
    rw [set_append_right _ _ (Nat.le_refl _), Nat.sub_self, set_cons_zero, dropLast_concat,
      eraseIdx_append_of_length_le (Nat.le_refl _), Nat.sub_self, eraseIdx_cons_zero, append_nil]
  · have inside : index < init.length := by omega
    rw [set_append_left _ _ inside, dropLast_concat, eraseIdx_append_of_lt_length inside,
      set_eq_take_append_cons_drop, if_pos inside, eraseIdx_eq_take_drop_succ]
    exact perm_middle.trans (perm_append_singleton _ _).symm

theorem swapRemove_perm_erase [BEq α] [LawfulBEq α] {list : List α} (nodup : list.Nodup) {element : α} {index : Nat}
    (found : list.findIdx? (· == element) = some index) : (list.swapRemove index).Perm (list.erase element) := by
  obtain ⟨bound, atIndex, -⟩ := findIdx?_eq_some_iff_getElem.mp found
  rw [beq_iff_eq] at atIndex
  rw [← atIndex, nodup.erase_getElem index bound]
  exact swapRemove_perm bound

end SwapRemove

end List
