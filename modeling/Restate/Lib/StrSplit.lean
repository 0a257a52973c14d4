import Mathlib.Data.List.Basic

/-! Rust's `str::trim_matches` and `str::split_terminator` on the characters of a string.
Trimming drops the leading and trailing characters that satisfy a predicate;
`split_terminator` is `split` without its last piece when that piece is empty. Text made of
pieces joined by a separator that none of them holds, the last one not empty, splits back into
those pieces, and text that begins and ends with a kept character is left as it is by a trim. -/

namespace List

variable {α : Type}

/-- `str::trim_matches` with a predicate on characters. -/
def trimBy (drop : α → Bool) (list : List α) : List α :=
  ((list.dropWhile drop).reverse.dropWhile drop).reverse

def splitTerminator [BEq α] (separator : α) (list : List α) : List (List α) :=
  let parts := list.splitOn separator
  if parts.getLast?.any List.isEmpty then parts.dropLast else parts

theorem trimBy_eq_self {drop : α → Bool} {list : List α} (front : ∀ first ∈ list.head?, drop first = false)
    (back : ∀ last ∈ list.getLast?, drop last = false) : list.trimBy drop = list := by
  cases list with
  | nil => rfl
  | cons first rest =>
    have kept : (first :: rest).dropWhile drop = first :: rest :=
      dropWhile_cons_of_neg (by simpa using front first rfl)
    obtain ⟨init, last, lastEq⟩ : ∃ init last, first :: rest = init ++ [last] :=
      ⟨_, _, (dropLast_append_getLast (cons_ne_nil first rest)).symm⟩
    have lastKept : drop last = false := back last (by simp [lastEq])
    rw [trimBy, kept, lastEq, reverse_append, reverse_singleton, singleton_append,
      dropWhile_cons_of_neg (by simpa using lastKept), reverse_cons, reverse_reverse]

theorem mem_intercalate_singleton {separator c : α} {parts : List (List α)} (member : c ∈ [separator].intercalate parts) :
    c = separator ∨ ∃ part ∈ parts, c ∈ part := by
  induction parts with
  | nil => simp at member
  | cons first rest ih =>
    cases rest with
    | nil => exact Or.inr ⟨first, mem_cons_self, by simpa using member⟩
    | cons second rest =>
      rw [intercalate_cons_cons, mem_append, mem_append, mem_singleton] at member
      rcases member with (inFirst | isSeparator) | later
      · exact Or.inr ⟨first, mem_cons_self, inFirst⟩
      · exact Or.inl isSeparator
      · rcases ih later with isSeparator | ⟨part, member, inPart⟩
        · exact Or.inl isSeparator
        · exact Or.inr ⟨part, mem_cons_of_mem first member, inPart⟩

theorem splitTerminator_intercalate [BEq α] [LawfulBEq α] (separator : α) {parts : List (List α)}
    (absent : ∀ part ∈ parts, separator ∉ part) (lastNonEmpty : ∀ last ∈ parts.getLast?, last ≠ []) (nonEmpty : parts ≠ []) :
    splitTerminator separator ([separator].intercalate parts) = parts := by
  have split : ([separator].intercalate parts).splitOn separator = parts := splitOn_intercalate separator absent nonEmpty
  rw [splitTerminator, split, if_neg]
  intro lastEmpty
  obtain ⟨last, lastEq, empty⟩ := (Option.any_eq_true _ _).mp lastEmpty
  exact lastNonEmpty last lastEq (isEmpty_iff.mp empty)

end List
