import Restate.Logs.Metadata
import Restate.Lib.Spans

/-! Chain::find_segment_for_lsn against Chain::iter. The iterator walks the segments forward and
gives each the base LSN of the next one as its tail; the lookup searches backward for the last
segment at or below the LSN and takes its tail from a second, forward range query. Both are the
spans of the chain's ordered map, so the lookup finds the one segment of the iterator that holds
the LSN, or the trim gap before the first one. -/

namespace Restate

namespace Chain

/-- Chain::iter: each segment with the base LSN of the next one as its tail. -/
def iter (chain : Chain) : List Segment :=
  (OrdMap.spans chain.chain.entries).map fun span => ⟨span.1.1, span.2, span.1.2⟩

end Chain

/-- A segment holds the LSNs from its base LSN on, up to its tail LSN if it has one. -/
def Segment.Holds (segment : Segment) (lsn : Lsn) : Prop :=
  segment.baseLsn ≤ lsn ∧ ∀ tail, segment.tailLsn = some tail → lsn < tail

namespace Chain

theorem mem_iter {chain : Chain} {segment : Segment} :
    segment ∈ chain.iter ↔ ((segment.baseLsn, segment.config), segment.tailLsn) ∈ OrdMap.spans chain.chain.entries := by
  constructor
  · intro member
    obtain ⟨span, spanMember, rfl⟩ := List.mem_map.mp member
    exact spanMember
  · intro member
    exact List.mem_map.mpr ⟨_, member, rfl⟩

theorem iter_holds_unique (chain : Chain) {lsn : Lsn} {first second : Segment} (firstMember : first ∈ chain.iter)
    (secondMember : second ∈ chain.iter) (firstHolds : first.Holds lsn) (secondHolds : second.Holds lsn) :
    first = second := by
  have same := OrdMap.covers_unique chain.chain.sorted (mem_iter.mp firstMember) (mem_iter.mp secondMember)
    firstHolds secondHolds
  simp only [Prod.mk.injEq] at same
  obtain ⟨⟨sameBase, sameConfig⟩, sameTail⟩ := same
  cases first
  cases second
  simp_all

theorem findSegmentForLsn_some {chain : Chain} {lsn : Lsn} {entry : Lsn × LogletConfig}
    (found : chain.chain.rfind (fun other => decide (other.1 ≤ max lsn .oldest)) = some entry) :
    let segment : Segment := ⟨entry.1, (chain.chain.nextAfter entry.1).map Prod.fst, entry.2⟩
    chain.findSegmentForLsn lsn = some (.some segment) ∧ segment ∈ chain.iter ∧
      segment.Holds (max lsn .oldest) := by
  intro segment
  obtain ⟨spanMember, covers⟩ := OrdMap.rfind_covers chain.chain found
  refine ⟨?_, mem_iter.mpr spanMember, covers⟩
  unfold findSegmentForLsn
  dsimp only
  rw [found]

theorem findSegmentForLsn_trim {chain : Chain} {lsn : Lsn} {first : Lsn × LogletConfig}
    (head : chain.chain.entries.head? = some first) (below : max lsn .oldest < first.1) :
    chain.findSegmentForLsn lsn = some (.trim first.1) := by
  have none := (OrdMap.rfind_none_iff chain.chain head).mpr below
  unfold findSegmentForLsn
  dsimp only
  rw [none]
  simp [OrdMap.firstKeyValue?, head]

end Chain

/-- For every chain, with its first segment at base LSN b, and every LSN l, searched as
l' = max(l, OLDEST): find_segment_for_lsn answers with the trim gap before b exactly when l' < b,
and otherwise with the one segment of Chain::iter that holds l', with the tail LSN the iterator
gives it. -/
theorem find_segment_agrees_with_iter (chain : Chain) {first : Lsn × LogletConfig}
    (head : chain.chain.entries.head? = some first) (lsn : Lsn) :
    (chain.findSegmentForLsn lsn = some (.trim first.1) ↔ max lsn .oldest < first.1) ∧
    (first.1 ≤ max lsn .oldest → ∃ segment ∈ chain.iter,
      chain.findSegmentForLsn lsn = some (.some segment) ∧ segment.Holds (max lsn .oldest) ∧
      ∀ other ∈ chain.iter, other.Holds (max lsn .oldest) → other = segment) := by
  cases found : chain.chain.rfind (fun other => decide (other.1 ≤ max lsn .oldest)) with
  | none =>
    have below := (OrdMap.rfind_none_iff chain.chain head).mp found
    exact ⟨iff_of_true (Chain.findSegmentForLsn_trim head below) below,
      fun atOrAbove => absurd below (not_lt.mpr atOrAbove)⟩
  | some entry =>
    obtain ⟨located, member, holds⟩ := Chain.findSegmentForLsn_some found
    have firstLe : first.1 ≤ entry.1 := by
      have whole : chain.chain.entries = first :: chain.chain.entries.tail := by
        cases entries : chain.chain.entries with
        | nil => simp [entries] at head
        | cons entry rest => simp_all
      have sorted := chain.chain.sorted
      rw [whole] at sorted
      exact OrdMap.head_le sorted entry (whole ▸ (OrdMap.rfind_some found).1)
    refine ⟨⟨fun trimmed => ?_, fun below => absurd (lt_of_lt_of_le below (le_trans firstLe holds.1)) (lt_irrefl _)⟩,
      fun _ => ⟨_, member, located, holds, fun other otherMember otherHolds =>
        chain.iter_holds_unique otherMember member otherHolds holds⟩⟩
    rw [located] at trimmed
    cases trimmed

/-- The chain of one local segment: the lookup of LSN 3 finds it. -/
theorem find_segment_in_new_chain :
    (Chain.new .local ⟨"a"⟩).chain.entries.head? = some (.oldest, .new .oldest .local ⟨"a"⟩) ∧
      ((Chain.new .local ⟨"a"⟩).findSegmentForLsn ⟨3⟩ = some (.trim Lsn.oldest) ↔ max ⟨3⟩ Lsn.oldest < Lsn.oldest) :=
  ⟨rfl, (find_segment_agrees_with_iter (Chain.new .local ⟨"a"⟩) rfl ⟨3⟩).1⟩

end Restate
