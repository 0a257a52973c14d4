import Restate.Partitions.PartitionTable

/-! Sub-sharding of a key range (crates/sharding/src/subsharding.rs): the O(1) map from a key to
the shard of a plan that holds it, and the split of a plan at the midpoint of its range into two
plans, with a piecewise remap from the old shards to the new ones. Shard bounds round their
offsets up; the map rounds the key's offset down. Keys are u64s, so arithmetic that saturates or
stops at u64::MAX in the source does so here. -/

namespace Restate

namespace ShardPlan

/-- key_to_idx: `none` for a key outside the plan's range. -/
def keyToIdx (plan : ShardPlan) (key : Nat) : Option Nat :=
  if plan.range.start ≤ key ∧ key ≤ plan.range.end then
    some ((key - plan.range.start) * plan.numShards / (plan.range.end - plan.range.start + 1))
  else none

end ShardPlan

def u64Max : Nat := 2 ^ 64 - 1

namespace KeyRange

/-- midpoint: the ceil midpoint, computed in u128. -/
def midpoint (range : KeyRange) : Nat := (range.start + range.end + 1) / 2

def intersect (self other : KeyRange) : Option KeyRange :=
  let start := max self.start other.start
  let last := min self.end other.end
  if start ≤ last then some ⟨start, last⟩ else none

end KeyRange

/-- Side of the midpoint split. -/
inductive Side
  | left
  | right
  deriving DecidableEq, Repr

/-- One contiguous remapping segment from an original shard into a split-side shard. -/
structure RemapPiece where
  oldIdx : Nat
  side : Side
  newIdx : Nat
  range : KeyRange
  deriving DecidableEq, Repr

/-- The loop of cut_by_new_shards from `current` on, each step pushing the piece up to the end of
the new shard that holds `current`, with `fuel` steps. `none` for a panic of the unwrap or of
find_shard_unchecked, and for running out of fuel. -/
def cutLoop (oldIdx : Nat) (side : Side) (plan : ShardPlan) (last : Nat) : Nat → Nat → Option (List RemapPiece)
  | 0, current => if current ≤ last then none else some []
  | fuel + 1, current =>
    if current ≤ last then do
      let newIdx ← plan.keyToIdx current
      let shard ← plan.findShardUnchecked newIdx
      let pieceEnd := min last shard.end
      let piece : RemapPiece := ⟨oldIdx, side, newIdx, ⟨current, pieceEnd⟩⟩
      if pieceEnd = u64Max then pure [piece]
      else (piece :: ·) <$> cutLoop oldIdx side plan last fuel (min (pieceEnd + 1) u64Max)
    else pure []

/-- cut_by_new_shards: the pieces of `subrange` along the shards of `plan`, as pushed onto the
output. Every step of the loop consumes at least one key, so the keys of the subrange are fuel
enough. -/
def cutByNewShards (oldIdx : Nat) (side : Side) (plan : ShardPlan) (subrange : KeyRange) :
    Option (List RemapPiece) :=
  cutLoop oldIdx side plan subrange.end (subrange.end + 1 - subrange.start) subrange.start

/-- The result of splitting a plan at the midpoint of its range. -/
structure Split where
  original : ShardPlan
  left : Option ShardPlan
  right : Option ShardPlan
  remap : List RemapPiece

/-- The pieces of one old shard on one side, when the side is non-empty and meets the shard. -/
def sidePieces (oldIdx : Nat) (side : Side) (sideRange : Option KeyRange) (sidePlan : Option ShardPlan)
    (oldShard : KeyRange) : Option (List RemapPiece) :=
  match sideRange, sidePlan with
  | some range, some plan =>
    match oldShard.intersect range with
    | some seg => cutByNewShards oldIdx side plan seg
    | none => pure []
  | _, _ => pure []

namespace ShardPlan

/-- The pieces of old shard `idx`, in the order split pushes them: left, then right. -/
def remapOldShard (plan : ShardPlan) (leftRange : Option KeyRange) (left : Option ShardPlan)
    (rightRange : Option KeyRange) (right : Option ShardPlan) (idx : Nat) : Option (List RemapPiece) := do
  let oldShard ← plan.findShardUnchecked idx
  let leftPieces ← sidePieces idx .left leftRange left oldShard
  let rightPieces ← sidePieces idx .right rightRange right oldShard
  pure (leftPieces ++ rightPieces)

/-- The left half of the split, [start, midpoint - 1], if non-empty. -/
def leftRange (plan : ShardPlan) : Option KeyRange :=
  if plan.range.start < plan.range.midpoint then some ⟨plan.range.start, plan.range.midpoint - 1⟩ else none

/-- The right half of the split, [midpoint, end], if non-empty. -/
def rightRange (plan : ShardPlan) : Option KeyRange :=
  if plan.range.midpoint ≤ plan.range.end then some ⟨plan.range.midpoint, plan.range.end⟩ else none

/-- split: a plan with `newMaxShards` on each half, and for each old shard in turn its left pieces
and then its right pieces. -/
def split (plan : ShardPlan) (newMaxShards : Nat) : Option Split := do
  let left ← plan.leftRange.mapM fun range => ShardPlan.new range newMaxShards
  let right ← plan.rightRange.mapM fun range => ShardPlan.new range newMaxShards
  let pieces ← (List.range plan.numShards).mapM (remapOldShard plan plan.leftRange left plan.rightRange right)
  pure ⟨plan, left, right, pieces.flatten⟩

end ShardPlan

/-- The post-split plan of a side. -/
def Split.sidePlan (split : Split) : Side → Option ShardPlan
  | .left => split.left
  | .right => split.right

end Restate
