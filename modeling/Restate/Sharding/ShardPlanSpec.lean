import Restate.Sharding.Subsharding
import Restate.Lib.CeilDiv
import Restate.Lib.Run

/-! A shard plan cuts its range exactly. Shard `idx` of a plan with `n` shards over `N` keys
starts `⌈idx * N / n⌉` keys into the range and ends one key before the next shard starts; since
there are at least as many keys as shards, these offsets strictly increase, from 0 at the first
shard to `N` past the last. The map from a key to its shard divides the key's offset times `n` by
`N`, rounding down, which picks the one shard whose offsets bracket the key. -/

namespace Restate

namespace ShardPlan

theorem divCeil_eq_ceilDiv (a b : Nat) : divCeil a b = a ⌈/⌉ b := rfl

/-- How far into the range shard `idx` starts. -/
def offset (plan : ShardPlan) (idx : Nat) : Nat :=
  divCeil (idx * (plan.range.end - plan.range.start + 1)) plan.numShards

/-- A plan as ShardPlan::new builds it: a range that is not inverted, and at least one shard but
no more than there are keys. -/
structure Valid (plan : ShardPlan) : Prop where
  ordered : plan.range.start ≤ plan.range.end
  positive : 0 < plan.numShards
  atMostKeys : plan.numShards ≤ plan.range.end - plan.range.start + 1

theorem new_eq {range : KeyRange} (ordered : range.start ≤ range.end) (maxShards : Nat) :
    new range maxShards = some ⟨range, min maxShards (range.end - range.start + 1)⟩ := by
  simp only [new, not_lt.mpr ordered, if_false, Option.some.injEq, mk.injEq, true_and]
  split <;> omega

theorem new_valid {range : KeyRange} (ordered : range.start ≤ range.end) {maxShards : Nat}
    (positive : 0 < maxShards) : Valid ⟨range, min maxShards (range.end - range.start + 1)⟩ :=
  ⟨ordered, by simp only; omega, by simp only; omega⟩

theorem findShardUnchecked_of_lt {plan : ShardPlan} {idx : Nat} (lt : idx < plan.numShards) :
    plan.findShardUnchecked idx =
      some ⟨plan.range.start + plan.offset idx, plan.range.start + (plan.offset (idx + 1) - 1)⟩ := by
  simp [findShardUnchecked, not_le.mpr lt, offset]

theorem findShardUnchecked_eq_none_iff (plan : ShardPlan) (idx : Nat) :
    plan.findShardUnchecked idx = none ↔ plan.numShards ≤ idx := by
  unfold findShardUnchecked
  split <;> simp_all

section Valid

variable {plan : ShardPlan} (valid : plan.Valid)
include valid

theorem offset_le_iff (idx keys : Nat) :
    plan.offset idx ≤ keys ↔ idx * (plan.range.end - plan.range.start + 1) ≤ plan.numShards * keys :=
  ceilDiv_le_iff_le_mul valid.positive

theorem lt_offset_iff (idx keys : Nat) :
    keys < plan.offset idx ↔ plan.numShards * keys < idx * (plan.range.end - plan.range.start + 1) :=
  Nat.lt_ceilDiv_iff valid.positive

omit valid in
@[simp] theorem offset_zero : plan.offset 0 = 0 := by
  rw [offset, Nat.zero_mul, divCeil_eq_ceilDiv, zero_ceilDiv]

theorem offset_numShards : plan.offset plan.numShards = plan.range.end - plan.range.start + 1 := by
  rw [offset, divCeil_eq_ceilDiv]
  exact Nat.mul_ceilDiv_cancel valid.positive _

theorem offset_succ_bounds (idx : Nat) :
    plan.offset idx + (plan.range.end - plan.range.start + 1) / plan.numShards ≤ plan.offset (idx + 1) ∧
      plan.offset (idx + 1) ≤
        plan.offset idx + (plan.range.end - plan.range.start + 1) / plan.numShards + 1 := by
  have bounds := Nat.ceilDiv_add_bounds valid.positive (idx * (plan.range.end - plan.range.start + 1))
    (plan.range.end - plan.range.start + 1)
  rw [← Nat.succ_mul] at bounds
  exact bounds

theorem offset_lt_succ (idx : Nat) : plan.offset idx < plan.offset (idx + 1) := by
  have atLeastOne : 1 ≤ (plan.range.end - plan.range.start + 1) / plan.numShards :=
    (Nat.le_div_iff_mul_le valid.positive).mpr (by simpa using valid.atMostKeys)
  have := (offset_succ_bounds valid idx).1
  omega

theorem offset_mono {first second : Nat} (le : first ≤ second) : plan.offset first ≤ plan.offset second := by
  induction second, le using Nat.le_induction with
  | base => exact le_rfl
  | succ second _ ih => exact le_trans ih (offset_lt_succ valid second).le

theorem keyToIdx_eq_some_iff (key idx : Nat) :
    plan.keyToIdx key = some idx ↔
      idx < plan.numShards ∧ plan.range.start + plan.offset idx ≤ key ∧
        key < plan.range.start + plan.offset (idx + 1) := by
  have keysPos : 0 < plan.range.end - plan.range.start + 1 := Nat.succ_pos _
  constructor
  · intro mapped
    unfold keyToIdx at mapped
    split at mapped
    · rename_i inRange
      have quotient : (key - plan.range.start) * plan.numShards / (plan.range.end - plan.range.start + 1) = idx :=
        Option.some.inj mapped
      obtain ⟨lower, upper⟩ := (Nat.div_eq_iff_bracket keysPos).mp quotient
      refine ⟨?_, ?_, ?_⟩
      · -- the key's offset is below N, so idx * N is below n * N
        have offsetBelow : (key - plan.range.start) * plan.numShards <
            (plan.range.end - plan.range.start + 1) * plan.numShards :=
          Nat.mul_lt_mul_of_pos_right (by omega) valid.positive
        exact Nat.lt_of_mul_lt_mul_right (lt_of_le_of_lt lower (by rw [Nat.mul_comm plan.numShards]; exact offsetBelow))
      · have := (offset_le_iff valid idx (key - plan.range.start)).mpr (by rw [Nat.mul_comm plan.numShards]; exact lower)
        omega
      · have := (lt_offset_iff valid (idx + 1) (key - plan.range.start)).mpr
          (by rw [Nat.mul_comm plan.numShards]; exact upper)
        omega
    · cases mapped
  · rintro ⟨lt, lower, upper⟩
    have withinEnd : plan.offset (idx + 1) ≤ plan.range.end - plan.range.start + 1 :=
      offset_numShards valid ▸ offset_mono valid lt
    have inRange : plan.range.start ≤ key ∧ key ≤ plan.range.end := by
      have := valid.ordered
      omega
    have below := (offset_le_iff valid idx (key - plan.range.start)).mp (by omega)
    have above := (lt_offset_iff valid (idx + 1) (key - plan.range.start)).mp (by omega)
    simp only [keyToIdx, inRange, and_self, if_true, Option.some.injEq]
    rw [Nat.mul_comm plan.numShards] at below above
    exact (Nat.div_eq_iff_bracket keysPos).mpr ⟨below, above⟩

theorem offset_pos_succ (idx : Nat) : 0 < plan.offset (idx + 1) :=
  lt_of_le_of_lt (Nat.zero_le _) (offset_lt_succ valid idx)

omit valid in
theorem findShardUnchecked_eq_some_iff (idx : Nat) (shard : KeyRange) :
    plan.findShardUnchecked idx = some shard ↔ idx < plan.numShards ∧
      shard = ⟨plan.range.start + plan.offset idx, plan.range.start + (plan.offset (idx + 1) - 1)⟩ := by
  constructor
  · intro found
    have lt : idx < plan.numShards := by
      by_contra atOrPast
      rw [(findShardUnchecked_eq_none_iff plan idx).mpr (not_lt.mp atOrPast)] at found
      cases found
    rw [findShardUnchecked_of_lt lt, Option.some.injEq] at found
    exact ⟨lt, found.symm⟩
  · rintro ⟨lt, rfl⟩
    exact findShardUnchecked_of_lt lt

theorem shard_size_bounds (idx : Nat) :
    (plan.range.end - plan.range.start + 1) / plan.numShards ≤ plan.offset (idx + 1) - plan.offset idx ∧
      plan.offset (idx + 1) - plan.offset idx ≤ (plan.range.end - plan.range.start + 1) / plan.numShards + 1 := by
  obtain ⟨perShard, quotient⟩ : ∃ perShard, (plan.range.end - plan.range.start + 1) / plan.numShards = perShard :=
    ⟨_, rfl⟩
  have := offset_succ_bounds valid idx
  rw [quotient] at this ⊢
  omega

theorem last_end : plan.range.start + (plan.offset (plan.numShards - 1 + 1) - 1) = plan.range.end := by
  rw [Nat.sub_add_cancel valid.positive, offset_numShards valid]
  have := valid.ordered
  omega

end Valid

theorem keyToIdx_eq_none_iff (plan : ShardPlan) (key : Nat) :
    plan.keyToIdx key = none ↔ key < plan.range.start ∨ plan.range.end < key := by
  unfold keyToIdx
  by_cases inRange : plan.range.start ≤ key ∧ key ≤ plan.range.end
  · rw [if_pos inRange]
    constructor
    · intro found
      cases found
    · intro outside
      omega
  · rw [if_neg inRange]
    exact ⟨fun _ => by omega, fun _ => rfl⟩

end ShardPlan

/-- ShardPlan::new over any range [s, e] with s ≤ e and any max_shards ≥ 1 gives
n = min(max_shards, e - s + 1) shards. Each is non-empty, the first starts at s, the last ends at
e, each starts one key after the previous one ends, and two shards differ in size by at most one
key; key_to_idx maps a key to shard i exactly when the key lies in shard i, and to nothing exactly
when the key is outside [s, e]. The equal-sized partitioner over the full key space with p ≥ 1
partitions gives p consecutive ranges, numbered from 0, covering [0, u64::MAX]. -/
theorem shard_plan_partitions_range :
    (∀ (range : KeyRange) (maxShards : Nat), range.start ≤ range.end → 0 < maxShards →
      ∃ plan, ShardPlan.new range maxShards = some plan ∧
        plan.numShards = min maxShards (range.end - range.start + 1) ∧
        (∀ idx < plan.numShards, ∃ shard, plan.findShardUnchecked idx = some shard ∧ shard.start ≤ shard.end) ∧
        (plan.findShardUnchecked 0).map KeyRange.start = some range.start ∧
        (plan.findShardUnchecked (plan.numShards - 1)).map KeyRange.end = some range.end ∧
        (∀ idx shard next, plan.findShardUnchecked idx = some shard →
          plan.findShardUnchecked (idx + 1) = some next → next.start = shard.end + 1) ∧
        (∀ first second shard other, plan.findShardUnchecked first = some shard →
          plan.findShardUnchecked second = some other → shard.end - shard.start ≤ other.end - other.start + 1) ∧
        (∀ key idx, plan.keyToIdx key = some idx ↔
          ∃ shard, plan.findShardUnchecked idx = some shard ∧ shard.start ≤ key ∧ key ≤ shard.end) ∧
        (∀ key, plan.keyToIdx key = none ↔ key < range.start ∨ range.end < key)) ∧
    (∀ numPartitions, 0 < numPartitions → numPartitions < 2 ^ 16 →
      ∃ partitions, equalSizedPartitions numPartitions = some partitions ∧
        partitions.length = numPartitions ∧
        (∀ idx (lt : idx < partitions.length), partitions[idx].partitionId = ⟨idx⟩ ∧
          partitions[idx].keyRange.start ≤ partitions[idx].keyRange.end) ∧
        partitions.head?.map (·.keyRange.start) = some 0 ∧
        partitions.getLast?.map (·.keyRange.end) = some (2 ^ 64 - 1) ∧
        (∀ idx (lt : idx + 1 < partitions.length),
          partitions[idx + 1].keyRange.start = partitions[idx].keyRange.end + 1)) := by
  constructor
  · intro range maxShards ordered positive
    have valid := ShardPlan.new_valid ordered positive
    set plan : ShardPlan := ⟨range, min maxShards (range.end - range.start + 1)⟩
    have shardOf := @ShardPlan.findShardUnchecked_eq_some_iff plan
    refine ⟨plan, ShardPlan.new_eq ordered maxShards, rfl, fun idx lt => ?_, ?_, ?_,
      fun idx shard next found foundNext => ?_, fun first second shard other found foundOther => ?_,
      fun key idx => ?_, ShardPlan.keyToIdx_eq_none_iff plan⟩
    · -- each shard ends at or after its start
      have := ShardPlan.offset_lt_succ valid idx
      exact ⟨_, ShardPlan.findShardUnchecked_of_lt lt, by simp only; omega⟩
    · rw [ShardPlan.findShardUnchecked_of_lt valid.positive]
      simp [ShardPlan.offset_zero, plan]
    · rw [ShardPlan.findShardUnchecked_of_lt (Nat.sub_lt valid.positive Nat.one_pos), Option.map_some]
      exact congrArg some (ShardPlan.last_end valid)
    · obtain ⟨-, rfl⟩ := (shardOf idx shard).mp found
      obtain ⟨-, rfl⟩ := (shardOf (idx + 1) next).mp foundNext
      have := ShardPlan.offset_pos_succ valid idx
      simp only
      omega
    · -- both sizes lie between N / n - 1 and N / n
      obtain ⟨-, rfl⟩ := (shardOf first shard).mp found
      obtain ⟨-, rfl⟩ := (shardOf second other).mp foundOther
      have firstSize := ShardPlan.shard_size_bounds valid first
      have secondSize := ShardPlan.shard_size_bounds valid second
      have := ShardPlan.offset_pos_succ valid first
      have := ShardPlan.offset_pos_succ valid second
      simp only
      omega
    · rw [ShardPlan.keyToIdx_eq_some_iff valid]
      constructor
      · rintro ⟨lt, lower, upper⟩
        exact ⟨_, ShardPlan.findShardUnchecked_of_lt lt, lower, by simp only; omega⟩
      · rintro ⟨shard, found, lower, upper⟩
        obtain ⟨lt, rfl⟩ := (shardOf idx shard).mp found
        have := ShardPlan.offset_pos_succ valid idx
        exact ⟨lt, lower, by simp only at upper; omega⟩
  · intro numPartitions positive fits
    have ordered : KeyRange.full.start ≤ KeyRange.full.end := by decide
    have valid := ShardPlan.new_valid ordered positive
    have count : min numPartitions (KeyRange.full.end - KeyRange.full.start + 1) = numPartitions := by
      simp only [KeyRange.full]
      omega
    set plan : ShardPlan := ⟨KeyRange.full, min numPartitions (KeyRange.full.end - KeyRange.full.start + 1)⟩
    let partitionOf : Nat → Partition := fun idx =>
      ⟨⟨idx⟩, ⟨plan.range.start + plan.offset idx, plan.range.start + (plan.offset (idx + 1) - 1)⟩⟩
    have made : equalSizedPartitions numPartitions = some ((List.range numPartitions).map partitionOf) := by
      have nonZero : numPartitions ≠ 0 := by omega
      simp only [equalSizedPartitions, nonZero, if_false, ShardPlan.new_eq ordered numPartitions,
        Option.bind_eq_bind, Option.bind_some]
      rw [show List.range (min numPartitions (KeyRange.full.end - KeyRange.full.start + 1)) =
        List.range numPartitions by rw [count]]
      exact List.mapM_option_eq_some_map fun idx member => by
        have lt : idx < plan.numShards := by
          have := List.mem_range.mp member
          show idx < min numPartitions (KeyRange.full.end - KeyRange.full.start + 1)
          omega
        rw [ShardPlan.findShardUnchecked_of_lt lt]
        rfl
    refine ⟨_, made, by simp, fun idx lt => ?_, ?_, ?_, fun idx lt => ?_⟩
    · have := ShardPlan.offset_lt_succ valid idx
      exact ⟨by simp [partitionOf], by simp only [List.getElem_map, List.getElem_range, partitionOf]; omega⟩
    · rw [List.head?_map, List.head?_range, if_neg (by omega), Option.map_some, Option.map_some]
      show some (plan.range.start + plan.offset 0) = some 0
      rw [ShardPlan.offset_zero]
      rfl
    · rw [List.getLast?_map, List.getLast?_range, if_neg (by omega), Option.map_some, Option.map_some]
      have last := ShardPlan.last_end valid
      have planCount : plan.numShards = numPartitions := count
      rw [planCount] at last
      exact congrArg some last
    · have := ShardPlan.offset_pos_succ valid idx
      simp only [List.getElem_map, List.getElem_range, partitionOf]
      omega

end Restate
