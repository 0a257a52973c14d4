import Mathlib.Data.Nat.Digits.Lemmas
import Mathlib.Data.Nat.Log

/-! Positional notation written most significant digit first, as numbers are printed: the digits
of a value in a base, zero written as the single digit `0`, and the value of a digit string read
left to right. Leading zeros do not change the value, and the digits of a positive value do not
start with one. -/

namespace Radix

/-- The digits of `value` in `base`, most significant first. -/
def digits (base value : Nat) : List Nat :=
  if value = 0 then [0] else (Nat.digits base value).reverse

/-- The value of a digit string read most significant first. -/
def value (base : Nat) (digits : List Nat) : Nat :=
  digits.foldl (fun acc digit => base * acc + digit) 0

theorem foldl_value (base : Nat) (digits : List Nat) (acc : Nat) :
    digits.foldl (fun acc digit => base * acc + digit) acc =
      base ^ digits.length * acc + value base digits := by
  induction digits generalizing acc with
  | nil => simp [value]
  | cons digit rest ih =>
    have head : value base (digit :: rest) = base ^ rest.length * digit + value base rest := by
      rw [value, List.foldl_cons, ih]
      simp
    rw [List.foldl_cons, ih, head, List.length_cons, Nat.pow_succ]
    ring

theorem value_append (base : Nat) (first second : List Nat) :
    value base (first ++ second) = base ^ second.length * value base first + value base second := by
  rw [value, List.foldl_append, foldl_value]
  rfl

@[simp] theorem value_zeros_append (base count : Nat) (digits : List Nat) :
    value base (List.replicate count 0 ++ digits) = value base digits := by
  have zeros : value base (List.replicate count 0) = 0 := by
    induction count with
    | zero => rfl
    | succ count ih =>
      rw [List.replicate_succ', value_append, ih]
      rfl
  rw [value_append, zeros, Nat.mul_zero, Nat.zero_add]

theorem value_reverse (base : Nat) (digits : List Nat) :
    value base digits.reverse = Nat.ofDigits base digits := by
  induction digits with
  | nil => rfl
  | cons digit rest ih =>
    rw [List.reverse_cons, value_append, ih, Nat.ofDigits_cons]
    simp [value]
    ring

theorem value_digits (base value' : Nat) : value base (digits base value') = value' := by
  unfold digits
  split
  · rename_i zero
    rw [zero]
    rfl
  · rw [value_reverse, Nat.ofDigits_digits]

theorem length_digits {base : Nat} (large : 1 < base) {value' : Nat} (positive : value' ≠ 0) :
    (digits base value').length = Nat.log base value' + 1 := by
  rw [digits, if_neg positive, List.length_reverse, Nat.length_digits base value' large positive]

theorem length_digits_le {base : Nat} (large : 1 < base) {value' count : Nat} (positive : 0 < count)
    (below : value' < base ^ count) : (digits base value').length ≤ count := by
  by_cases zero : value' = 0
  · rw [digits, if_pos zero]
    exact positive
  · rw [length_digits large zero]
    exact Nat.log_lt_of_lt_pow zero below

theorem digits_ne_nil (base value' : Nat) : digits base value' ≠ [] := by
  unfold digits
  split
  · exact List.cons_ne_nil _ _
  · rename_i positive
    exact List.reverse_ne_nil_iff.mpr (Nat.digits_ne_nil_iff_ne_zero.mpr positive)

theorem isLeast_length_digits {base : Nat} (large : 1 < base) (value' : Nat) :
    IsLeast {count | 0 < count ∧ value' < base ^ count} (digits base value').length := by
  refine ⟨⟨List.length_pos_iff.mpr (digits_ne_nil base value'), ?_⟩, ?_⟩
  · by_cases zero : value' = 0
    · rw [digits, if_pos zero, zero]
      exact Nat.pow_pos (by omega)
    · rw [length_digits large zero]
      exact Nat.lt_pow_succ_log_self large value'
  · rintro count ⟨positive, below⟩
    exact length_digits_le large positive below

theorem digits_lt {base : Nat} (large : 1 < base) (value' : Nat) :
    ∀ digit ∈ digits base value', digit < base := by
  intro digit member
  unfold digits at member
  split at member
  · rw [List.mem_singleton] at member
    omega
  · exact Nat.digits_lt_base large (List.mem_reverse.mp member)

theorem digits_head {base value' : Nat} (positive : value' ≠ 0) :
    ∃ first rest, digits base value' = first :: rest ∧ first ≠ 0 := by
  rw [digits, if_neg positive]
  have nonEmpty : Nat.digits base value' ≠ [] := Nat.digits_ne_nil_iff_ne_zero.mpr positive
  obtain ⟨first, rest, listed⟩ := List.exists_cons_of_ne_nil (List.reverse_ne_nil_iff.mpr nonEmpty)
  refine ⟨first, rest, listed, ?_⟩
  have printedFirst : (Nat.digits base value').getLast nonEmpty = first := by
    have heads := congrArg List.head? listed
    rw [List.head?_reverse] at heads
    simpa [List.getLast?_eq_some_getLast nonEmpty] using heads
  exact printedFirst ▸ Nat.getLast_digit_ne_zero base positive

end Radix
