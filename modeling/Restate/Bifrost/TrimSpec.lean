import Restate.Bifrost.Trim

/-! What `Bifrost::trim` asks of each segment. With the trim point at most `u32::MAX` as an LSN it
never panics and asks every segment at or below the trim point to trim to the offset of the trim
point in that segment, and leaves the others (`trim_within_offsets`). Past it, the saturation to
`LogletOffset::MAX` is taken in LSN space, before the base LSN is subtracted: a segment based above
`u32::MAX` makes `into_offset` panic, and one below is trimmed short of the trim point. -/

namespace Restate

theorem LsnExt.intoOffset_eq {lsn base : Lsn} (valid : Lsn.invalid < base) (above : base ≤ lsn)
    (fits : lsn.val - base.val + 1 ≤ LogletOffset.maxValue) : LsnExt.intoOffset lsn base = some (lsn.val - base.val + 1) := by
  have zero : Lsn.invalid.val = 0 := rfl
  rw [Lsn.lt_iff, zero] at valid
  rw [Lsn.le_iff] at above
  have small : lsn.val - base.val + LogletOffset.oldest ≤ Lsn.maxValue ∧ lsn.val - base.val + LogletOffset.oldest ≤ LogletOffset.maxValue := by
    unfold Lsn.maxValue LogletOffset.oldest LogletOffset.maxValue at *
    omega
  unfold LsnExt.intoOffset
  rw [if_neg (by rw [zero]; omega), if_pos small]
  rfl

theorem LogletWrapper.trim_eq {wrapper : LogletWrapper} {trimPoint : Lsn} (valid : Lsn.invalid < wrapper.segment.baseLsn)
    (above : wrapper.segment.baseLsn ≤ trimPoint) (small : trimPoint.val ≤ LogletOffset.maxValue) :
    wrapper.trim trimPoint =
      some { wrapper with loglet := wrapper.loglet.trim (trimPoint.val - wrapper.segment.baseLsn.val + 1) } := by
  have notInvalid : trimPoint ≠ Lsn.invalid := (lt_of_lt_of_le valid above).ne'
  have saturated : min trimPoint ⟨LogletOffset.maxValue⟩ = trimPoint := min_eq_left small
  have positive : 0 < wrapper.segment.baseLsn.val := valid
  rw [Lsn.le_iff] at above
  unfold LogletWrapper.trim
  simp only [if_neg notInvalid, saturated]
  rw [LsnExt.intoOffset_eq valid (by rwa [Lsn.le_iff]) (by omega)]
  rfl

namespace Bifrost

/-- The segments after trimming: those at or below the trim point trimmed to its offset in them. -/
def trimmedWithin (trimPoint : Lsn) (wrapper : LogletWrapper) : LogletWrapper :=
  if wrapper.segment.baseLsn ≤ trimPoint then
    { wrapper with loglet := wrapper.loglet.trim (trimPoint.val - wrapper.segment.baseLsn.val + 1) }
  else wrapper

theorem trim_within (wrappers : List LogletWrapper) (trimPoint : Lsn)
    (sorted : (wrappers.map fun wrapper => wrapper.segment.baseLsn).Pairwise (· < ·))
    (valid : ∀ wrapper ∈ wrappers, Lsn.invalid < wrapper.segment.baseLsn) (small : trimPoint.val ≤ LogletOffset.maxValue) :
    trim wrappers trimPoint = some (wrappers.map (trimmedWithin trimPoint)) := by
  induction wrappers with
  | nil => rfl
  | cons wrapper rest ih =>
    rw [List.map_cons, List.pairwise_cons] at sorted
    obtain ⟨firstLeast, restSorted⟩ := sorted
    unfold trim
    by_cases below : trimPoint < wrapper.segment.baseLsn
    · -- every later segment starts above this one, so none of them is trimmed either
      rw [if_pos below]
      have untouched : ∀ later ∈ rest, trimmedWithin trimPoint later = later := by
        intro later member
        have after := firstLeast later.segment.baseLsn (List.mem_map_of_mem member)
        exact if_neg (not_le.mpr (lt_trans below after))
      rw [List.map_cons, List.map_congr_left untouched, List.map_id', trimmedWithin, if_neg (not_le.mpr below)]
    · rw [if_neg below, LogletWrapper.trim_eq (valid wrapper List.mem_cons_self) (not_lt.mp below) small,
        ih restSorted (fun later member => valid later (List.mem_cons_of_mem _ member))]
      simp [trimmedWithin, not_lt.mp below]

theorem iter_sorted (chain : Chain) : (chain.iter.map fun segment => segment.baseLsn).Pairwise (· < ·) := by
  have bases : chain.iter.map (fun segment => segment.baseLsn) = chain.chain.entries.map Prod.fst := by
    rw [Chain.iter, List.map_map]
    conv_rhs => rw [← OrdMap.map_fst_spans chain.chain.entries, List.map_map]
    rfl
  rw [bases, List.pairwise_map]
  exact chain.chain.sorted

theorem trim_within_offsets (chain : Chain) (loglets : Segment → LogletTrim) (trimPoint : Lsn)
    (valid : ∀ segment ∈ chain.iter, Lsn.invalid < segment.baseLsn) (small : trimPoint.val ≤ LogletOffset.maxValue) :
    trim (wrappers chain loglets) trimPoint = some ((wrappers chain loglets).map (trimmedWithin trimPoint)) := by
  refine trim_within _ trimPoint ?_ ?_ small
  · rw [wrappers, List.map_map]
    exact iter_sorted chain
  · intro wrapper member
    obtain ⟨segment, inChain, rfl⟩ := List.mem_map.mp member
    exact valid segment inChain

end Bifrost

/-- One segment based at `base`, whose loglet has committed `records` records and was never trimmed. -/
def oneSegmentLog (base records : Nat) : List LogletWrapper :=
  Bifrost.wrappers (Chain.withBaseLsn ⟨base⟩ .replicated ⟨""⟩) fun _ => ⟨none, records⟩

theorem trim_saturates_in_lsn_space :
    Bifrost.trim (oneSegmentLog (2 ^ 32) 10) ⟨2 ^ 32⟩ = none ∧
    (Bifrost.trim (oneSegmentLog 2 LogletOffset.maxValue) ⟨2 ^ 32 + 5⟩).map (List.map fun wrapper => wrapper.loglet.trimPoint) =
      some [some (2 ^ 32 - 2)] ∧
    (Bifrost.trim (oneSegmentLog 2 LogletOffset.maxValue) ⟨2 ^ 32 + 5⟩).bind Bifrost.getTrimPoint = some ⟨2 ^ 32 - 1⟩ := by
  decide +kernel

end Restate
