import Restate.Lib.OrdMap

/-! The spans of an ordered map: each entry with the key of the entry after it. The span of an
entry covers the keys from its own up to the next key, and the last entry's span is open. In a
sorted map the spans cover every key from the first one on exactly once, and the span holding a
key is the one of the last entry at or below it, searching from the back. -/

namespace OrdMap

variable {κ ν : Type}

/-- Each entry with the key of the entry after it. -/
def spans : List (κ × ν) → List ((κ × ν) × Option κ)
  | [] => []
  | entry :: rest => (entry, rest.head?.map Prod.fst) :: spans rest

theorem mem_of_mem_spans : ∀ {entries : List (κ × ν)} {span : (κ × ν) × Option κ},
    span ∈ spans entries → span.1 ∈ entries
  | [], _, member => absurd member List.not_mem_nil
  | entry :: rest, span, member => by
    rcases List.mem_cons.mp member with rfl | later
    · exact List.mem_cons_self
    · exact List.mem_cons_of_mem _ (mem_of_mem_spans later)

@[simp] theorem map_fst_spans : ∀ entries : List (κ × ν), (spans entries).map Prod.fst = entries
  | [] => rfl
  | entry :: rest => congrArg (entry :: ·) (map_fst_spans rest)

variable [LinearOrder κ]

/-- A span covers a key at or after its own key and before the next one. -/
def Covers (key : κ) (span : (κ × ν) × Option κ) : Prop :=
  span.1.1 ≤ key ∧ ∀ next, span.2 = some next → key < next

theorem head_le {first : κ × ν} {rest : List (κ × ν)} (sorted : (first :: rest).Pairwise fun a b => a.1 < b.1) :
    ∀ entry ∈ first :: rest, first.1 ≤ entry.1 := by
  intro entry member
  rcases List.mem_cons.mp member with rfl | later
  · exact le_rfl
  · exact (List.rel_of_pairwise_cons sorted later).le

theorem covers_unique {key : κ} :
    ∀ {entries : List (κ × ν)}, entries.Pairwise (fun a b => a.1 < b.1) →
      ∀ {first second : (κ × ν) × Option κ}, first ∈ spans entries → second ∈ spans entries →
        Covers key first → Covers key second → first = second
  | [], _, _, _, member, _, _, _ => absurd member List.not_mem_nil
  | entry :: rest, sorted, first, second, memberFirst, memberSecond, coversFirst, coversSecond => by
    have laterStarts : ∀ span ∈ spans rest, Covers key span →
        ¬Covers key (entry, rest.head?.map Prod.fst) := by
      intro span member covers headCovers
      cases rest with
      | nil => exact absurd member List.not_mem_nil
      | cons next after =>
        have nextLe := head_le (List.Pairwise.of_cons sorted) span.1 (mem_of_mem_spans member)
        have beforeNext := headCovers.2 next.1 rfl
        exact absurd (lt_of_le_of_lt (le_trans nextLe covers.1) beforeNext) (lt_irrefl _)
    rcases List.mem_cons.mp memberFirst with rfl | laterFirst <;>
      rcases List.mem_cons.mp memberSecond with rfl | laterSecond
    · rfl
    · exact absurd coversFirst (laterStarts second laterSecond coversSecond)
    · exact absurd coversSecond (laterStarts first laterFirst coversFirst)
    · exact covers_unique (List.Pairwise.of_cons sorted) laterFirst laterSecond coversFirst coversSecond

theorem mem_spans_find? :
    ∀ {entries : List (κ × ν)}, entries.Pairwise (fun a b => a.1 < b.1) → ∀ {entry : κ × ν},
      entry ∈ entries → (entry, (entries.find? fun other => entry.1 < other.1).map Prod.fst) ∈ spans entries
  | [], _, _, member => absurd member List.not_mem_nil
  | first :: rest, sorted, entry, member => by
    rcases List.mem_cons.mp member with rfl | later
    · -- every later key is above the entry's, so the search stops at the next one
      have skipsSelf : ¬decide (entry.1 < entry.1) = true := by simp
      rw [List.find?_cons_of_neg (p := fun other : κ × ν => decide (entry.1 < other.1)) skipsSelf]
      cases rest with
      | nil => exact List.mem_cons_self
      | cons next after =>
        have above : decide (entry.1 < next.1) = true :=
          decide_eq_true (List.rel_of_pairwise_cons sorted List.mem_cons_self)
        rw [List.find?_cons_of_pos (p := fun other : κ × ν => decide (entry.1 < other.1)) above]
        exact List.mem_cons_self
    · have notBelow : ¬decide (entry.1 < first.1) = true := by
        simpa using (List.rel_of_pairwise_cons sorted later).le
      rw [List.find?_cons_of_neg (p := fun other : κ × ν => decide (entry.1 < other.1)) notBelow]
      exact List.mem_cons_of_mem _ (mem_spans_find? (List.Pairwise.of_cons sorted) later)

theorem rfind_covers (map : OrdMap κ ν) {key : κ} {entry : κ × ν}
    (found : map.rfind (fun other => decide (other.1 ≤ key)) = some entry) :
    (entry, (map.nextAfter entry.1).map Prod.fst) ∈ spans map.entries ∧
      Covers key (entry, (map.nextAfter entry.1).map Prod.fst) := by
  obtain ⟨member, atOrBelow⟩ := rfind_some found
  refine ⟨mem_spans_find? map.sorted member, by simpa using atOrBelow, fun next located => ?_⟩
  obtain ⟨following, foundNext, rfl⟩ := Option.map_eq_some_iff.mp located
  have followingMember := List.mem_of_find?_eq_some foundNext
  have above : entry.1 < following.1 := by simpa using List.find?_some foundNext
  obtain ⟨-, afterRev, beforeRev, split, skipped⟩ := List.find?_eq_some_iff_append.mp found
  have whole : map.entries = beforeRev.reverse ++ entry :: afterRev.reverse := by
    rw [← List.reverse_reverse map.entries, split]
    simp
  have sorted := map.sorted
  rw [whole, List.pairwise_append] at sorted
  rw [whole, List.mem_append, List.mem_cons] at followingMember
  rcases followingMember with earlier | same | later
  · exact absurd (sorted.2.2 following earlier entry List.mem_cons_self) (not_lt.mpr above.le)
  · exact absurd (same ▸ above) (lt_irrefl _)
  · simpa using skipped following (List.mem_reverse.mp later)

theorem rfind_none_iff (map : OrdMap κ ν) {key : κ} {first : κ × ν} (head : map.entries.head? = some first) :
    map.rfind (fun other => decide (other.1 ≤ key)) = none ↔ key < first.1 := by
  obtain ⟨rest, split⟩ : ∃ rest, map.entries = first :: rest := by
    cases entries : map.entries with
    | nil => simp [entries] at head
    | cons entry rest =>
      simp only [entries, List.head?_cons, Option.some.injEq] at head
      exact ⟨rest, by rw [head]⟩
  constructor
  · intro found
    simpa using rfind_none found first (by rw [split]; exact List.mem_cons_self)
  · intro below
    have sorted := map.sorted
    rw [split] at sorted
    apply List.find?_eq_none.mpr
    intro entry member
    have atOrAbove := head_le sorted entry (by rw [← split]; exact List.mem_reverse.mp member)
    simpa using lt_of_lt_of_le below atOrAbove

end OrdMap
