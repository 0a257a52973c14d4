import Restate.Lib.ByteReader
import Mathlib.Order.Monotone.Basic

/-! Lexicographic comparison of lists, as their Ord instance compares them, over records of
fixed-width fields: two concatenations of fields of equal widths compare as their first fields do,
and on a tie as the rest. Big-endian bytes of a fixed width compare as the numbers they write,
since a number compares as its high digit and then its low digits. -/

namespace List

variable {α : Type} [Ord α]

theorem compare_append_of_length_eq {xs ys : List α} (same : xs.length = ys.length) (xs' ys' : List α) :
    compare (xs ++ xs') (ys ++ ys') = (compare xs ys).then (compare xs' ys') := by
  induction xs generalizing ys with
  | nil =>
    cases ys with
    | nil => rw [nil_append, nil_append, List.compare_eq_compareLex, List.compareLex_nil_nil, Ordering.eq_then]
    | cons _ _ => simp at same
  | cons x xs ih =>
    cases ys with
    | nil => simp at same
    | cons y ys =>
      rw [cons_append, cons_append, List.compare_cons_cons, List.compare_cons_cons, ih (by simpa using same),
        Ordering.then_assoc]

theorem compare_append_left [Std.ReflCmp (compare : α → α → Ordering)] (common xs ys : List α) :
    compare (common ++ xs) (common ++ ys) = compare xs ys := by
  have same : compare common common = .eq := Std.ReflCmp.compare_self
  rw [compare_append_of_length_eq rfl, same, Ordering.eq_then]

end List

theorem StrictMono.compare_apply {α β : Type} [LinearOrder α] [LinearOrder β] {f : α → β} (mono : StrictMono f)
    (a b : α) : compare (f a) (f b) = compare a b :=
  (compare_iff _ _).mpr (mono.compares.mpr ((compare_iff a b).mp rfl))

namespace Nat

theorem compare_div_then_mod (n a b : ℕ) :
    compare a b = (compare (a / n) (b / n)).then (compare (a % n) (b % n)) := by
  rcases quotients : compare (a / n) (b / n) with _ | _ | _
  · rw [Nat.compare_eq_lt.mpr (Nat.lt_of_div_lt_div (Nat.compare_eq_lt.mp quotients))]
    rfl
  · -- equal quotients: the numbers differ by their remainders only
    have same : a / n = b / n := Nat.compare_eq_eq.mp quotients
    obtain ⟨high, highA⟩ : ∃ high, n * (a / n) = high := ⟨_, rfl⟩
    have highB : n * (b / n) = high := by rw [← same, highA]
    have wholeA := Nat.div_add_mod a n
    have wholeB := Nat.div_add_mod b n
    rw [Ordering.eq_then]
    rcases remainders : compare (a % n) (b % n) with _ | _ | _
    · exact Nat.compare_eq_lt.mpr (by have := Nat.compare_eq_lt.mp remainders; omega)
    · exact Nat.compare_eq_eq.mpr (by have := Nat.compare_eq_eq.mp remainders; omega)
    · exact Nat.compare_eq_gt.mpr (by have := Nat.compare_eq_gt.mp remainders; omega)
  · rw [Nat.compare_eq_gt.mpr (Nat.lt_of_div_lt_div (Nat.compare_eq_gt.mp quotients))]
    rfl

end Nat

namespace BigEndian

theorem compare_encode (width a b : ℕ) :
    compare (encode width a) (encode width b) = compare (a % 256 ^ width) (b % 256 ^ width) := by
  induction width with
  | zero => simp [encode, Nat.mod_one]
  | succ width ih =>
    have top : ∀ value : ℕ, (value / 256 ^ width % 256).toUInt8.toNat = value / 256 ^ width % 256 := by
      intro value
      simp
    rw [encode, encode, List.compare_cons_cons, UInt8.compare_eq_toNat_compare_toNat, top, top, ih,
      Nat.compare_div_then_mod (256 ^ width) (a % 256 ^ (width + 1)), mod_pow_succ_div,
      mod_pow_succ_div, mod_pow_succ_mod, mod_pow_succ_mod]

theorem compare_encode_of_lt {width a b : ℕ} (boundA : a < 256 ^ width) (boundB : b < 256 ^ width) :
    compare (encode width a) (encode width b) = compare a b := by
  rw [compare_encode, Nat.mod_eq_of_lt boundA, Nat.mod_eq_of_lt boundB]

end BigEndian
