import Mathlib.Data.List.Basic

/-! Pieces that tile a half-open range of natural numbers: read through a span function, the first
starts at the low end, each is non-empty and ends where the next starts, and the last ends at the
high end. Tilings concatenate, every point of the range lies in exactly one piece, and the pieces
are in increasing order. -/

namespace List

variable {α : Type} (span : α → Nat × Nat)

/-- `pieces` tile [lo, hi) from the left, none of them empty. -/
def Tiles : Nat → List α → Nat → Prop
  | lo, [], hi => lo = hi
  | lo, piece :: rest, hi => (span piece).1 = lo ∧ (span piece).1 < (span piece).2 ∧ Tiles (span piece).2 rest hi

variable {span}

@[simp] theorem tiles_nil {lo hi : Nat} : Tiles span lo [] hi ↔ lo = hi := Iff.rfl

@[simp] theorem tiles_cons {lo hi : Nat} {piece : α} {rest : List α} :
    Tiles span lo (piece :: rest) hi ↔
      (span piece).1 = lo ∧ (span piece).1 < (span piece).2 ∧ Tiles span (span piece).2 rest hi :=
  Iff.rfl

theorem Tiles.le : ∀ {lo hi : Nat} {pieces : List α}, Tiles span lo pieces hi → lo ≤ hi
  | _, _, [], same => Nat.le_of_eq same
  | _, _, _ :: _, ⟨start, nonEmpty, rest⟩ => by
    have := rest.le
    omega

theorem Tiles.append : ∀ {lo mid hi : Nat} {first second : List α},
    Tiles span lo first mid → Tiles span mid second hi → Tiles span lo (first ++ second) hi
  | _, _, _, [], _, same, second => by
    rw [nil_append]
    exact (same : _ = _) ▸ second
  | _, _, _, _ :: _, _, ⟨start, nonEmpty, rest⟩, second => ⟨start, nonEmpty, rest.append second⟩

theorem Tiles.eq_nil {lo hi : Nat} {pieces : List α} (tiles : Tiles span lo pieces hi) (empty : hi ≤ lo) :
    pieces = [] := by
  cases pieces with
  | nil => rfl
  | cons first rest =>
    obtain ⟨start, nonEmpty, restTiles⟩ := tiles
    have := restTiles.le
    omega

theorem Tiles.nonEmpty : ∀ {lo hi : Nat} {pieces : List α}, Tiles span lo pieces hi →
    ∀ piece ∈ pieces, (span piece).1 < (span piece).2
  | _, _, [], _, _, member => absurd member not_mem_nil
  | _, _, _ :: _, ⟨_, nonEmpty, tiles⟩, piece, member => by
    rcases mem_cons.mp member with rfl | later
    · exact nonEmpty
    · exact tiles.nonEmpty piece later

theorem Tiles.bounds : ∀ {lo hi : Nat} {pieces : List α}, Tiles span lo pieces hi →
    ∀ piece ∈ pieces, lo ≤ (span piece).1 ∧ (span piece).2 ≤ hi
  | _, _, [], _, _, member => absurd member not_mem_nil
  | _, _, first :: rest, ⟨start, nonEmpty, tiles⟩, piece, member => by
    have restLe := tiles.le
    rcases mem_cons.mp member with rfl | later
    · omega
    · have := tiles.bounds piece later
      omega

theorem Tiles.pairwise : ∀ {lo hi : Nat} {pieces : List α}, Tiles span lo pieces hi →
    pieces.Pairwise fun first second => (span first).2 ≤ (span second).1
  | _, _, [], _ => Pairwise.nil
  | _, _, _ :: _, ⟨_, _, tiles⟩ =>
    pairwise_cons.mpr ⟨fun later member => (tiles.bounds later member).1, tiles.pairwise⟩

theorem Tiles.countP_mem : ∀ {lo hi : Nat} {pieces : List α}, Tiles span lo pieces hi → ∀ point,
    pieces.countP (fun piece => (span piece).1 ≤ point ∧ point < (span piece).2) =
      if lo ≤ point ∧ point < hi then 1 else 0
  | lo, hi, [], same, point => by
    have empty : ¬(lo ≤ point ∧ point < hi) := by
      rw [show lo = hi from same]
      omega
    simp [empty]
  | lo, hi, first :: rest, ⟨start, nonEmpty, tiles⟩, point => by
    have restLe := tiles.le
    rw [countP_cons, tiles.countP_mem point]
    -- the first piece holds the points below where the rest start
    by_cases inFirst : (span first).1 ≤ point ∧ point < (span first).2
    · have inRange : lo ≤ point ∧ point < hi := by omega
      simp [inFirst, inRange]
    · by_cases later : (span first).2 ≤ point ∧ point < hi
      · have inRange : lo ≤ point ∧ point < hi := by omega
        simp [inFirst, later, inRange]
      · have notInRange : ¬(lo ≤ point ∧ point < hi) := by omega
        simp [inFirst, later, notInRange]

theorem Tiles.append_clamped {first second : List α} {lo cut hi : Nat} (le : lo ≤ hi)
    (lower : Tiles span lo first (max lo (min hi cut))) (upper : Tiles span (max lo cut) second (max (max lo cut) hi)) :
    Tiles span lo (first ++ second) hi := by
  by_cases below : cut ≤ lo
  · -- nothing lies below the cut
    have firstEmpty := lower.eq_nil (by omega)
    subst firstEmpty
    have same : max lo hi = hi := Nat.max_eq_right le
    rw [Nat.max_eq_left below, same] at upper
    exact upper
  · by_cases above : hi ≤ cut
    · -- nothing lies above the cut
      have secondEmpty := upper.eq_nil (by omega)
      subst secondEmpty
      rw [append_nil]
      have same : max lo (min hi cut) = hi := by omega
      exact same ▸ lower
    · have lowerEnd : max lo (min hi cut) = cut := by omega
      have upperStart : max lo cut = cut := by omega
      have upperEnd : max cut hi = hi := by omega
      rw [lowerEnd] at lower
      rw [upperStart, upperEnd] at upper
      exact lower.append upper

theorem tiles_flatten_range (bound : Nat → Nat) (pieces : Nat → List α) :
    ∀ count, (∀ idx < count, Tiles span (bound idx) (pieces idx) (bound (idx + 1))) →
      Tiles span (bound 0) ((range count).map pieces).flatten (bound count)
  | 0, _ => rfl
  | count + 1, tiles => by
    rw [range_succ, map_append, flatten_append, map_singleton, flatten_singleton]
    exact (tiles_flatten_range bound pieces count fun idx lt => tiles idx (Nat.lt_succ_of_lt lt)).append
      (tiles count (Nat.lt_succ_self count))

end List
