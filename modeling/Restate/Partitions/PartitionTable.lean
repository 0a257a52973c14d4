import Restate.Lib.OrdMap
import Mathlib.Data.Nat.Basic

/-! The partition table (crates/types/src/partition_table.rs): partitions by id, each owning an
inclusive range of partition keys, and an index from the end key of each partition to its id.
A key is found by the first index entry at or after it, and the candidate's start is checked,
since holes between partitions do not show in the index. -/

namespace Restate

structure PartitionId where
  id : Nat
  deriving DecidableEq, Repr

namespace PartitionId

def max : PartitionId := ⟨2 ^ 16 - 1⟩

instance : LinearOrder PartitionId := LinearOrder.lift' PartitionId.id fun a b same => by
  cases a
  cases b
  simp_all

end PartitionId

/-- An inclusive range of partition keys (u64 in the source). -/
structure KeyRange where
  start : Nat
  «end» : Nat
  deriving DecidableEq, Repr

def KeyRange.full : KeyRange := ⟨0, 2 ^ 64 - 1⟩

structure Partition where
  partitionId : PartitionId
  keyRange : KeyRange
  deriving DecidableEq, Repr

structure PartitionTableError where
  partitionKey : Nat
  deriving DecidableEq, Repr

structure PartitionTable where
  partitions : OrdMap PartitionId Partition
  partitionKeyIndex : OrdMap Nat PartitionId

namespace PartitionTable

def empty : PartitionTable := ⟨⟨[], List.Pairwise.nil⟩, ⟨[], List.Pairwise.nil⟩⟩

def findPartitionId (table : PartitionTable) (partitionKey : Nat) :
    Except PartitionTableError PartitionId :=
  -- ranges are inclusive: the candidate is the partition of the next end key at or after the key
  match table.partitionKeyIndex.firstFrom? partitionKey with
  | none => .error ⟨partitionKey⟩
  | some (_, candidate) =>
    match table.partitions.get? candidate with
    | some partition =>
      if partition.keyRange.start ≤ partitionKey then .ok candidate else .error ⟨partitionKey⟩
    | none => .error ⟨partitionKey⟩

end PartitionTable

inductive PartitionTableBuilderError
  | overlap (partitionId : PartitionId)
  | duplicate (partitionId : PartitionId)
  | limitReached
  deriving DecidableEq, Repr

structure PartitionTableBuilder where
  inner : PartitionTable
  modified : Bool

namespace PartitionTableBuilder

def new : PartitionTableBuilder := ⟨.empty, false⟩

def ofTable (table : PartitionTable) : PartitionTableBuilder := ⟨table, false⟩

/-- The second overlap check, and the insertion when there is none; `none` where the source
panics on a range whose start is above its end. -/
def insertIfClear (builder : PartitionTableBuilder) (partition : Partition) :
    Option (PartitionTableBuilder × Except PartitionTableBuilderError Unit) :=
  let start := partition.keyRange.start
  let «end» := partition.keyRange.end
  if «end» < start then none
  else
    match builder.inner.partitionKeyIndex.firstIn? start «end» with
    | some (_, partitionId) => some (builder, .error (.overlap partitionId))
    | none =>
      some (⟨⟨builder.inner.partitions.insert partition.partitionId partition,
        builder.inner.partitionKeyIndex.insert «end» partition.partitionId⟩, true⟩, .ok ())

/-- Add a partition that must not intersect any other; `none` where the source panics. -/
def addPartition (builder : PartitionTableBuilder) (partition : Partition) :
    Option (PartitionTableBuilder × Except PartitionTableBuilderError Unit) :=
  if (builder.inner.partitions.get? partition.partitionId).isSome then
    some (builder, .error (.duplicate partition.partitionId))
  else if builder.inner.partitions.entries.length > PartitionId.max.id then
    some (builder, .error .limitReached)
  else
    let «end» := partition.keyRange.end
    match builder.inner.partitionKeyIndex.firstFrom? «end» with
    | some (_, partitionId) =>
      match builder.inner.partitions.get? partitionId with
      | none => none
      | some next =>
        if next.keyRange.start ≤ «end» then some (builder, .error (.overlap partitionId))
        else insertIfClear builder partition
    | none => insertIfClear builder partition

def removePartition (builder : PartitionTableBuilder) (partitionId : PartitionId) :
    PartitionTableBuilder :=
  match builder.inner.partitions.get? partitionId with
  | some partition =>
    { builder with
      inner := ⟨builder.inner.partitions.erase partitionId,
        builder.inner.partitionKeyIndex.erase partition.keyRange.end⟩ }
  | none => builder

def build (builder : PartitionTableBuilder) : PartitionTable := builder.inner

def buildIfModified (builder : PartitionTableBuilder) : Option PartitionTable :=
  if builder.modified then some builder.build else none

/-- Add partitions in order, stopping at the first error as the source does with `?`. -/
def addPartitions (builder : PartitionTableBuilder) :
    List Partition → Option (PartitionTableBuilder × Except PartitionTableBuilderError Unit)
  | [] => some (builder, .ok ())
  | partition :: rest =>
    match builder.addPartition partition with
    | none => none
    | some (next, .error e) => some (next, .error e)
    | some (next, .ok ()) => addPartitions next rest

end PartitionTableBuilder

/-- The shards of a key range, as many as asked for but at most one per key. -/
structure ShardPlan where
  range : KeyRange
  numShards : Nat

namespace ShardPlan

/-- `none` where the source asserts on an inverted range. -/
def new (range : KeyRange) (maxShards : Nat) : Option ShardPlan :=
  if range.end < range.start then none
  else
    let span := range.end - range.start + 1
    some ⟨range, if maxShards < span then maxShards else span⟩

def divCeil (a b : Nat) : Nat := (a + b - 1) / b

/-- The range of a shard: the remainder keys go to the lower shards. `none` where the source
asserts on an index out of range. -/
def findShardUnchecked (plan : ShardPlan) (idx : Nat) : Option KeyRange :=
  if plan.numShards ≤ idx then none
  else
    let numKeys := plan.range.end - plan.range.start + 1
    some ⟨plan.range.start + divCeil (idx * numKeys) plan.numShards,
      plan.range.start + (divCeil ((idx + 1) * numKeys) plan.numShards - 1)⟩

end ShardPlan

/-- The partitions of equal size over the full key space, by increasing id. -/
def equalSizedPartitions (numPartitions : Nat) : Option (List Partition) :=
  if numPartitions = 0 then some []
  else do
    let plan ← ShardPlan.new .full numPartitions
    (List.range plan.numShards).mapM fun idx =>
      (plan.findShardUnchecked idx).map fun range => ⟨⟨idx⟩, range⟩

structure PartitionShadow where
  keyRange : KeyRange
  deriving DecidableEq, Repr

/-- The serialized form: the partitions when written by a current version, else their number. -/
structure PartitionTableShadow where
  numPartitions : Nat
  partitions : Option (OrdMap PartitionId PartitionShadow)

def PartitionTableBuilder.withEquallySizedPartitions (builder : PartitionTableBuilder)
    (numberPartitions : Nat) :
    Option (PartitionTableBuilder × Except PartitionTableBuilderError Unit) := do
  let partitions ← equalSizedPartitions numberPartitions
  builder.addPartitions partitions

/-- Deserialization adds the partitions one by one; `none` where the source panics. -/
def PartitionTable.tryFrom (value : PartitionTableShadow) :
    Option (Except PartitionTableBuilderError PartitionTable) :=
  let added : Option (PartitionTableBuilder × Except PartitionTableBuilderError Unit) :=
    match value.partitions with
    | some partitions => PartitionTableBuilder.new.addPartitions
        (partitions.entries.map fun entry => ⟨entry.1, entry.2.keyRange⟩)
    | none => PartitionTableBuilder.new.withEquallySizedPartitions value.numPartitions
  added.map fun (builder, result) => result.map fun () => builder.build

end Restate
