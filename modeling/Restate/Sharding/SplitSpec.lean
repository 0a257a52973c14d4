import Restate.Sharding.ShardPlanSpec
import Restate.Lib.Tiles

/-! The split of a shard plan relabels every key once. The cut loop walks a segment of an old
shard from its first key, each step pushing the piece up to the end of the new shard that holds
the current key, so its pieces tile the segment and each piece lies in one new shard; the loop
stops at u64::MAX rather than wrap. An old shard meets the left half in keys below the midpoint
and the right half in the others, so its left pieces and then its right pieces tile the shard,
and the old shards in turn tile the range. -/

namespace Restate

/-- The keys of a piece as a half-open span. -/
def RemapPiece.span (piece : RemapPiece) : Nat × Nat := (piece.range.start, piece.range.end + 1)

/-- What a piece pushed by a cut of old shard `oldIdx` on `side` of `plan` says of its keys. -/
structure PieceFits (plan : ShardPlan) (oldIdx : Nat) (side : Side) (piece : RemapPiece) : Prop where
  oldIdx_eq : piece.oldIdx = oldIdx
  side_eq : piece.side = side
  newIdx : ∀ key, piece.range.start ≤ key → key ≤ piece.range.end → plan.keyToIdx key = some piece.newIdx

section Cut

variable {plan : ShardPlan} (valid : plan.Valid) {last : Nat} (inPlan : last ≤ plan.range.end)
  (inU64 : last ≤ u64Max) (oldIdx : Nat) (side : Side)
include valid inPlan inU64

theorem cutLoop_spec : ∀ fuel current, plan.range.start ≤ current → current ≤ last + 1 → last + 1 - current ≤ fuel →
    ∃ pieces, cutLoop oldIdx side plan last fuel current = some pieces ∧
      List.Tiles RemapPiece.span current pieces (last + 1) ∧ ∀ piece ∈ pieces, PieceFits plan oldIdx side piece
  | 0, current, _, atMostEnd, enough => by
    have past : ¬current ≤ last := by omega
    exact ⟨[], by simp [cutLoop, past], by simp only [List.tiles_nil]; omega, by simp⟩
  | fuel + 1, current, atStart, atMostEnd, enough => by
    by_cases within : current ≤ last
    · -- `current` is a key of the plan, in the new shard that key_to_idx names
      obtain ⟨newIdx, mapped⟩ : ∃ newIdx, plan.keyToIdx current = some newIdx :=
        Option.ne_none_iff_exists'.mp fun missing => by
          rw [ShardPlan.keyToIdx_eq_none_iff] at missing
          omega
      obtain ⟨lt, lower, upper⟩ := (ShardPlan.keyToIdx_eq_some_iff valid current newIdx).mp mapped
      obtain ⟨pieceEnd, pieceEndEq⟩ :
          ∃ pieceEnd, min last (plan.range.start + (plan.offset (newIdx + 1) - 1)) = pieceEnd := ⟨_, rfl⟩
      have currentLe : current ≤ pieceEnd := by omega
      have pieceEndLe : pieceEnd ≤ last := pieceEndEq ▸ Nat.min_le_left _ _
      have fits : PieceFits plan oldIdx side ⟨oldIdx, side, newIdx, ⟨current, pieceEnd⟩⟩ := by
        refine ⟨rfl, rfl, fun key above below => ?_⟩
        simp only at above below
        exact (ShardPlan.keyToIdx_eq_some_iff valid key newIdx).mpr ⟨lt, by omega, by omega⟩
      have step : cutLoop oldIdx side plan last (fuel + 1) current =
          if pieceEnd = u64Max then some [⟨oldIdx, side, newIdx, ⟨current, pieceEnd⟩⟩]
          else (List.cons ⟨oldIdx, side, newIdx, ⟨current, pieceEnd⟩⟩) <$>
            cutLoop oldIdx side plan last fuel (min (pieceEnd + 1) u64Max) := by
        simp [cutLoop, within, mapped, ShardPlan.findShardUnchecked_of_lt lt, pieceEndEq]
      by_cases atMax : pieceEnd = u64Max
      · -- the piece ends at u64::MAX, which is the last key: the loop stops there
        refine ⟨[_], by rw [step, if_pos atMax], ?_, by simpa using fits⟩
        have pieceEndIsLast : pieceEnd = last := Nat.le_antisymm pieceEndLe (atMax ▸ inU64)
        exact ⟨rfl, Nat.lt_succ_of_le currentLe, by rw [List.tiles_nil, RemapPiece.span, pieceEndIsLast]⟩
      · obtain ⟨pieces, rest, tiles, restFit⟩ :=
          cutLoop_spec fuel (pieceEnd + 1) (by omega) (by omega) (by omega)
        have belowMax : pieceEnd < u64Max := Nat.lt_of_le_of_ne (Nat.le_trans pieceEndLe inU64) atMax
        have next : min (pieceEnd + 1) u64Max = pieceEnd + 1 := Nat.min_eq_left belowMax
        refine ⟨_ :: pieces, by rw [step, if_neg atMax, next, rest]; rfl, ?_, ?_⟩
        · exact ⟨rfl, Nat.lt_succ_of_le currentLe, tiles⟩
        · intro piece member
          rcases List.mem_cons.mp member with rfl | later
          · exact fits
          · exact restFit piece later
    · exact ⟨[], by simp [cutLoop, within], by simp only [List.tiles_nil]; omega, by simp⟩

end Cut

theorem cutByNewShards_spec {plan : ShardPlan} (valid : plan.Valid) (inU64 : plan.range.end ≤ u64Max)
    (oldIdx : Nat) (side : Side) {subrange : KeyRange} (nonEmpty : subrange.start ≤ subrange.end)
    (inside : plan.range.start ≤ subrange.start ∧ subrange.end ≤ plan.range.end) :
    ∃ pieces, cutByNewShards oldIdx side plan subrange = some pieces ∧
      List.Tiles RemapPiece.span subrange.start pieces (subrange.end + 1) ∧
      ∀ piece ∈ pieces, PieceFits plan oldIdx side piece :=
  cutLoop_spec valid inside.2 (le_trans inside.2 inU64) oldIdx side _ _ inside.1 (by omega) le_rfl

theorem KeyRange.intersect_eq (self other : KeyRange) :
    self.intersect other =
      if max self.start other.start ≤ min self.end other.end then
        some ⟨max self.start other.start, min self.end other.end⟩
      else none :=
  rfl

theorem sidePieces_spec {plan : ShardPlan} (valid : plan.Valid) (inU64 : plan.range.end ≤ u64Max) (oldIdx : Nat)
    (side : Side) (oldShard : KeyRange) :
    ∃ pieces, sidePieces oldIdx side (some plan.range) (some plan) oldShard = some pieces ∧
      List.Tiles RemapPiece.span (max oldShard.start plan.range.start) pieces
        (max (max oldShard.start plan.range.start) (min oldShard.end plan.range.end + 1)) ∧
      ∀ piece ∈ pieces, PieceFits plan oldIdx side piece := by
  by_cases meets : max oldShard.start plan.range.start ≤ min oldShard.end plan.range.end
  · obtain ⟨pieces, cut, tiles, fit⟩ := @cutByNewShards_spec plan valid inU64 oldIdx side
      ⟨max oldShard.start plan.range.start, min oldShard.end plan.range.end⟩ meets
      ⟨Nat.le_max_right _ _, Nat.min_le_right _ _⟩
    have upper : max (max oldShard.start plan.range.start) (min oldShard.end plan.range.end + 1) =
        min oldShard.end plan.range.end + 1 := Nat.max_eq_right (by omega)
    refine ⟨pieces, ?_, by rw [upper]; exact tiles, fit⟩
    simp only [sidePieces, KeyRange.intersect_eq, if_pos meets]
    exact cut
  · refine ⟨[], by simp only [sidePieces, KeyRange.intersect_eq, if_neg meets]; rfl, ?_, by simp⟩
    rw [List.tiles_nil]
    omega

/-- The plan split builds on a half, as ShardPlan::new does. -/
def halfPlan (range : KeyRange) (newMaxShards : Nat) : ShardPlan :=
  ⟨range, min newMaxShards (range.end - range.start + 1)⟩

namespace ShardPlan

/-- The range of a side of the split. -/
def halfRange (plan : ShardPlan) : Side → Option KeyRange
  | .left => plan.leftRange
  | .right => plan.rightRange

theorem midpoint_bounds {plan : ShardPlan} (valid : plan.Valid) :
    plan.range.start ≤ plan.range.midpoint ∧ plan.range.midpoint ≤ plan.range.end := by
  have := valid.ordered
  simp only [KeyRange.midpoint]
  omega

theorem leftRange_eq {plan : ShardPlan} (split : plan.range.start < plan.range.midpoint) :
    plan.leftRange = some ⟨plan.range.start, plan.range.midpoint - 1⟩ :=
  if_pos split

theorem leftRange_none {plan : ShardPlan} (noSplit : ¬plan.range.start < plan.range.midpoint) :
    plan.leftRange = none :=
  if_neg noSplit

theorem rightRange_eq {plan : ShardPlan} (valid : plan.Valid) :
    plan.rightRange = some ⟨plan.range.midpoint, plan.range.end⟩ :=
  if_pos (midpoint_bounds valid).2

theorem halfRange_plans {plan : ShardPlan} (valid : plan.Valid) (newMaxShards : Nat) (side : Side) :
    (plan.halfRange side).mapM (fun range => ShardPlan.new range newMaxShards) =
      some ((plan.halfRange side).map (halfPlan · newMaxShards)) := by
  have bounds := midpoint_bounds valid
  cases side with
  | left =>
    by_cases split : plan.range.start < plan.range.midpoint
    · simp only [halfRange, leftRange_eq split, Option.mapM_some, Option.map_some]
      rw [new_eq (by simp only; omega)]
      rfl
    · simp [halfRange, leftRange_none split]
  | right =>
    simp only [halfRange, rightRange_eq valid, Option.mapM_some, Option.map_some]
    rw [new_eq (by simp only; omega)]
    rfl

end ShardPlan

/-- What the split promises of a piece of its remap, for each of the piece's keys: the key is in
the old shard the piece names, on the side of the midpoint the piece names, and in the new shard
the piece names on that side's plan. -/
structure PieceRelabels (original : ShardPlan) (sidePlan : Side → Option ShardPlan) (piece : RemapPiece) : Prop where
  oldIdx : ∀ key, piece.range.start ≤ key → key ≤ piece.range.end → original.keyToIdx key = some piece.oldIdx
  side : ∀ key, piece.range.start ≤ key → key ≤ piece.range.end → (piece.side = .left ↔ key < original.range.midpoint)
  newIdx : ∀ key, piece.range.start ≤ key → key ≤ piece.range.end →
    (sidePlan piece.side).bind (fun plan => plan.keyToIdx key) = some piece.newIdx

namespace ShardPlan

theorem pieceRelabels_of_fits {plan : ShardPlan} {newMaxShards idx a b : Nat} (oldKeys : ∀ key, a ≤ key → key ≤ b → plan.keyToIdx key = some idx)
    {side : Side} {half : KeyRange} (halfEq : plan.halfRange side = some half) {piece : RemapPiece}
    (fits : PieceFits (halfPlan half newMaxShards) idx side piece) (inShard : a ≤ piece.range.start ∧ piece.range.end ≤ b)
    (onSide : side = .left ∧ piece.range.end < plan.range.midpoint ∨ side = .right ∧ plan.range.midpoint ≤ piece.range.start) :
    PieceRelabels plan (fun side => (plan.halfRange side).map (halfPlan · newMaxShards)) piece := by
  refine ⟨fun key above below => ?_, fun key above below => ?_, fun key above below => ?_⟩
  · rw [fits.oldIdx_eq]
    exact oldKeys key (by omega) (by omega)
  · rw [fits.side_eq]
    rcases onSide with ⟨rfl, before⟩ | ⟨rfl, after⟩
    · exact iff_of_true rfl (by omega)
    · exact iff_of_false (by simp) (by omega)
  · rw [fits.side_eq, halfEq, Option.map_some, Option.bind_some]
    exact fits.newIdx key above below

section Split

variable {plan : ShardPlan} (valid : plan.Valid) (inU64 : plan.range.end ≤ u64Max) {newMaxShards : Nat}
  (positive : 0 < newMaxShards)
include valid inU64 positive

theorem remapOldShard_spec {idx : Nat} (lt : idx < plan.numShards) :
    ∃ pieces, plan.remapOldShard plan.leftRange (plan.leftRange.map (halfPlan · newMaxShards)) plan.rightRange
        (plan.rightRange.map (halfPlan · newMaxShards)) idx = some pieces ∧
      List.Tiles RemapPiece.span (plan.range.start + plan.offset idx) pieces (plan.range.start + plan.offset (idx + 1)) ∧
      ∀ piece ∈ pieces, PieceRelabels plan (fun side => (plan.halfRange side).map (halfPlan · newMaxShards)) piece := by
  have bounds := midpoint_bounds valid
  have startLt := offset_lt_succ valid idx
  have withinEnd : plan.offset (idx + 1) ≤ plan.range.end - plan.range.start + 1 :=
    offset_numShards valid ▸ offset_mono valid lt
  have oldKeys : ∀ key, plan.range.start + plan.offset idx ≤ key → key ≤ plan.range.start + (plan.offset (idx + 1) - 1) →
      plan.keyToIdx key = some idx :=
    fun key above below => (keyToIdx_eq_some_iff valid key idx).mpr ⟨lt, above, by omega⟩
  have rightValid : (halfPlan ⟨plan.range.midpoint, plan.range.end⟩ newMaxShards).Valid :=
    new_valid (by simp only; omega) positive
  obtain ⟨rightPieces, rightCut, rightTiles, rightFit⟩ :=
    sidePieces_spec rightValid inU64 idx .right ⟨plan.range.start + plan.offset idx, plan.range.start + (plan.offset (idx + 1) - 1)⟩
  have rightCut' : sidePieces idx .right (some ⟨plan.range.midpoint, plan.range.end⟩)
      (some (halfPlan ⟨plan.range.midpoint, plan.range.end⟩ newMaxShards))
      ⟨plan.range.start + plan.offset idx, plan.range.start + (plan.offset (idx + 1) - 1)⟩ = some rightPieces :=
    rightCut
  have rightHalf : plan.halfRange .right = some ⟨plan.range.midpoint, plan.range.end⟩ := rightRange_eq valid
  simp only [halfPlan] at rightTiles
  have rightEnd : min (plan.range.start + (plan.offset (idx + 1) - 1)) plan.range.end + 1 =
      plan.range.start + plan.offset (idx + 1) := by omega
  rw [rightEnd] at rightTiles
  by_cases split : plan.range.start < plan.range.midpoint
  · have leftValid : (halfPlan ⟨plan.range.start, plan.range.midpoint - 1⟩ newMaxShards).Valid :=
      new_valid (by simp only; omega) positive
    obtain ⟨leftPieces, leftCut, leftTiles, leftFit⟩ :=
      sidePieces_spec leftValid (by simp only [halfPlan]; omega) idx .left
        ⟨plan.range.start + plan.offset idx, plan.range.start + (plan.offset (idx + 1) - 1)⟩
    simp only [halfPlan] at leftTiles
    have leftEnd : min (plan.range.start + (plan.offset (idx + 1) - 1)) (plan.range.midpoint - 1) + 1 =
        min (plan.range.start + plan.offset (idx + 1)) plan.range.midpoint := by omega
    rw [Nat.max_eq_left (Nat.le_add_right _ _), leftEnd] at leftTiles
    refine ⟨leftPieces ++ rightPieces, ?_, List.Tiles.append_clamped (by omega) leftTiles rightTiles, ?_⟩
    · -- a half's plan ranges over the half
      have leftCut' : sidePieces idx .left (some ⟨plan.range.start, plan.range.midpoint - 1⟩)
          (some (halfPlan ⟨plan.range.start, plan.range.midpoint - 1⟩ newMaxShards))
          ⟨plan.range.start + plan.offset idx, plan.range.start + (plan.offset (idx + 1) - 1)⟩ = some leftPieces :=
        leftCut
      simp only [remapOldShard, findShardUnchecked_of_lt lt, leftRange_eq split, rightRange_eq valid, Option.map_some,
        Option.bind_eq_bind, Option.bind_some, leftCut', rightCut']
      rfl
    · intro piece member
      have leftHalf : plan.halfRange .left = some ⟨plan.range.start, plan.range.midpoint - 1⟩ := leftRange_eq split
      rcases List.mem_append.mp member with inLeft | inRight
      · have within := leftTiles.bounds piece inLeft
        have nonEmpty := leftTiles.nonEmpty piece inLeft
        simp only [RemapPiece.span] at within nonEmpty
        exact pieceRelabels_of_fits oldKeys leftHalf (leftFit piece inLeft)
          ⟨by omega, by omega⟩ (.inl ⟨rfl, by omega⟩)
      · have within := rightTiles.bounds piece inRight
        have nonEmpty := rightTiles.nonEmpty piece inRight
        simp only [RemapPiece.span] at within nonEmpty
        exact pieceRelabels_of_fits oldKeys rightHalf (rightFit piece inRight)
          ⟨by omega, by omega⟩ (.inr ⟨rfl, by omega⟩)
  · -- a range of one key: the left half is empty and the whole shard is on the right
    have sameStart : plan.range.midpoint = plan.range.start := by omega
    rw [sameStart, Nat.max_eq_left (Nat.le_add_right _ _), Nat.max_eq_right (by omega)] at rightTiles
    have leftNone : sidePieces idx .left none none
        ⟨plan.range.start + plan.offset idx, plan.range.start + (plan.offset (idx + 1) - 1)⟩ = some [] := rfl
    refine ⟨rightPieces, ?_, rightTiles, fun piece inRight => ?_⟩
    · simp only [remapOldShard, findShardUnchecked_of_lt lt, leftRange_none split, rightRange_eq valid,
        Option.map_some, Option.map_none, Option.bind_eq_bind, Option.bind_some, leftNone, rightCut']
      rfl
    · have within := rightTiles.bounds piece inRight
      have nonEmpty := rightTiles.nonEmpty piece inRight
      simp only [RemapPiece.span] at within nonEmpty
      exact pieceRelabels_of_fits oldKeys rightHalf (rightFit piece inRight)
        ⟨by omega, by omega⟩ (.inr ⟨rfl, by omega⟩)

theorem split_spec :
    ∃ result, plan.split newMaxShards = some result ∧
      result.sidePlan = (fun side => (plan.halfRange side).map (halfPlan · newMaxShards)) ∧
      List.Tiles RemapPiece.span plan.range.start result.remap (plan.range.end + 1) ∧
      ∀ piece ∈ result.remap, PieceRelabels plan result.sidePlan piece := by
  let shardPieces : Nat → List RemapPiece := fun idx =>
    (plan.remapOldShard plan.leftRange (plan.leftRange.map (halfPlan · newMaxShards)) plan.rightRange
      (plan.rightRange.map (halfPlan · newMaxShards)) idx).getD []
  have shardSpec : ∀ idx < plan.numShards,
      plan.remapOldShard plan.leftRange (plan.leftRange.map (halfPlan · newMaxShards)) plan.rightRange
          (plan.rightRange.map (halfPlan · newMaxShards)) idx = some (shardPieces idx) ∧
        List.Tiles RemapPiece.span (plan.range.start + plan.offset idx) (shardPieces idx)
          (plan.range.start + plan.offset (idx + 1)) ∧
        ∀ piece ∈ shardPieces idx, PieceRelabels plan (fun side => (plan.halfRange side).map (halfPlan · newMaxShards)) piece := by
    intro idx lt
    obtain ⟨pieces, remapped, tiles, relabels⟩ := remapOldShard_spec valid inU64 positive lt
    have same : shardPieces idx = pieces := by simp only [shardPieces, remapped, Option.getD_some]
    rw [same]
    exact ⟨remapped, tiles, relabels⟩
  have sidePlans : (⟨plan, plan.leftRange.map (halfPlan · newMaxShards), plan.rightRange.map (halfPlan · newMaxShards),
      ((List.range plan.numShards).map shardPieces).flatten⟩ : Split).sidePlan =
        fun side => (plan.halfRange side).map (halfPlan · newMaxShards) := by
    funext side
    cases side <;> rfl
  refine ⟨_, ?_, sidePlans, ?_, ?_⟩
  · have leftPlans := halfRange_plans valid newMaxShards .left
    have rightPlans := halfRange_plans valid newMaxShards .right
    have allShards := List.mapM_option_eq_some_map fun idx member => (shardSpec idx (List.mem_range.mp member)).1
    simp only [halfRange] at leftPlans rightPlans
    simp only [split, leftPlans, rightPlans, allShards, Option.bind_eq_bind, Option.bind_some]
    rfl
  · -- the old shards in turn tile the range, from its start to past its end
    have tiles := List.tiles_flatten_range (fun idx => plan.range.start + plan.offset idx) shardPieces plan.numShards
      fun idx lt => (shardSpec idx lt).2.1
    have rangeEnd : plan.range.start + plan.offset plan.numShards = plan.range.end + 1 := by
      have := valid.ordered
      rw [offset_numShards valid]
      omega
    simp only [offset_zero, Nat.add_zero, rangeEnd] at tiles
    exact tiles
  · intro piece member
    obtain ⟨pieces, fromShard, inPieces⟩ := List.mem_flatten.mp member
    obtain ⟨idx, idxMember, rfl⟩ := List.mem_map.mp fromShard
    rw [sidePlans]
    exact (shardSpec idx (List.mem_range.mp idxMember)).2.2 piece inPieces

end Split

end ShardPlan

/-- For every plan over [s, e] as ShardPlan::new builds it (keys u64s, s ≤ e, at least one shard
and at most one per key) and every new_max_shards ≥ 1, split returns without running out of its
loop, also when e is u64::MAX, and its remap relabels every key once: each key of [s, e] lies in
exactly one piece; every piece is a non-empty part of [s, e] whose keys all have the piece's
old_idx under the original plan's key_to_idx, are left of the midpoint exactly when the piece's
side is Left, and have its new_idx under key_to_idx of that side's plan; and the pieces come in
increasing order of their keys. -/
theorem split_remap_relabels_every_key (plan : ShardPlan) (valid : plan.Valid) (inU64 : plan.range.end ≤ u64Max)
    (newMaxShards : Nat) (positive : 0 < newMaxShards) :
    ∃ result, plan.split newMaxShards = some result ∧
      (∀ key, plan.range.start ≤ key → key ≤ plan.range.end →
        result.remap.countP (fun piece => piece.range.start ≤ key ∧ key ≤ piece.range.end) = 1) ∧
      (∀ piece ∈ result.remap, plan.range.start ≤ piece.range.start ∧ piece.range.start ≤ piece.range.end ∧
        piece.range.end ≤ plan.range.end ∧
        ∀ key, piece.range.start ≤ key → key ≤ piece.range.end →
          plan.keyToIdx key = some piece.oldIdx ∧ (piece.side = .left ↔ key < plan.range.midpoint) ∧
          (result.sidePlan piece.side).bind (fun sidePlan => sidePlan.keyToIdx key) = some piece.newIdx) ∧
      result.remap.Pairwise (fun first second => first.range.end < second.range.start) := by
  obtain ⟨result, splitEq, -, tiles, relabels⟩ := ShardPlan.split_spec valid inU64 positive
  refine ⟨result, splitEq, fun key above below => ?_, fun piece member => ?_, ?_⟩
  · -- the tiling counts each key of the range once
    have count := tiles.countP_mem key
    rw [if_pos ⟨above, Nat.lt_succ_of_le below⟩] at count
    rw [← count]
    exact List.countP_congr fun piece _ => by simp [RemapPiece.span]
  · have within := tiles.bounds piece member
    have nonEmpty := tiles.nonEmpty piece member
    simp only [RemapPiece.span] at within nonEmpty
    have pieceRelabels := relabels piece member
    exact ⟨within.1, by omega, by omega, fun key above below =>
      ⟨pieceRelabels.oldIdx key above below, pieceRelabels.side key above below, pieceRelabels.newIdx key above below⟩⟩
  · exact tiles.pairwise.imp fun ordered => by simp only [RemapPiece.span] at ordered; omega

/-- The plan of four shards over the whole key space, split into plans of at most three. -/
theorem full_range_split_returns :
    (ShardPlan.mk KeyRange.full 4).Valid ∧ KeyRange.full.end ≤ u64Max ∧
      ∃ result, (ShardPlan.mk KeyRange.full 4).split 3 = some result :=
  have valid : (ShardPlan.mk KeyRange.full 4).Valid := ⟨by decide, by decide, by decide⟩
  ⟨valid, le_rfl, (split_remap_relabels_every_key _ valid le_rfl 3 (by decide)).imp fun _ holds => holds.1⟩

end Restate
