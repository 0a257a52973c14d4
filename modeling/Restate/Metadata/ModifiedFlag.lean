import Restate.Logs.ChainInvariant
import Restate.Logs.LookupIndex
import Restate.Partitions.PartitionTable

/-! The modified flag of the logs builder and of the partition table builder, which decides
whether build_if_modified publishes a new version. Every call that changes the logs sets the flag,
and only one call clears it: a seal of a chain that is already sealed assigns false, whatever the
calls before it did. The partition table builder never clears its flag, but remove_partition
never sets it either.

The configuration of the logs and the replication of the partition table are fields the rest of
the model leaves out; here each builder carries it, as a value of any type with equality. -/

namespace Restate

namespace ChainBuilder

variable (serde : Serde)

theorem appendSegment_modified {builder next : ChainBuilder} {baseLsn : Lsn} {provider : ProviderKind}
    {params : LogletParams} {result : Except BuilderError SegmentIndex}
    (appended : builder.appendSegment serde baseLsn provider params = some (next, result)) :
    next.modified = builder.modified ∨ next.modified = true := by
  unfold appendSegment at appended
  split at appended
  · cases appended
  · split at appended
    · cases appended
      exact .inl rfl
    · dsimp only at appended
      split at appended
      · split at appended
        · cases appended
          exact .inl rfl
        · cases appended
          exact .inr rfl
      · split at appended
        · -- the replacement of the tail writes the flag only once it succeeded
          split at appended
          · cases appended
            exact .inl rfl
          · split at appended
            · cases appended
              exact .inl rfl
            · cases appended
              exact .inr rfl
        · cases appended
          exact .inl rfl

theorem seal_modified {builder next : ChainBuilder} {tailLsn : Lsn} {metadata : SealMetadata}
    {result : Except BuilderError Lsn} (sealed : builder.seal serde tailLsn metadata = some (next, result)) :
    next.modified = builder.modified ∨ next.modified = true ∨
      builder.inner.isSealed = true ∧ next.modified = false := by
  unfold ChainBuilder.seal at sealed
  split at sealed
  · cases sealed
  · rename_i key last found
    split at sealed
    · -- the already sealed branch assigns false to the flag
      rename_i isMarker
      cases sealed
      exact .inr (.inr ⟨by simp [Chain.isSealed, Chain.sealedTail, found, isMarker], rfl⟩)
    · split at sealed
      · split at sealed
        · cases sealed
          exact .inl rfl
        · cases sealed
          exact .inr (.inl rfl)
      · split at sealed
        · split at sealed
          · cases sealed
            exact .inl rfl
          · split at sealed
            · cases sealed
              exact .inl rfl
            · cases sealed
              exact .inr (.inl rfl)
        · cases sealed
          exact .inl rfl

theorem trimPrefix_modified {builder next : ChainBuilder} {untilBaseLsn : Lsn}
    (trimmed : builder.trimPrefix serde untilBaseLsn = some next) :
    next.modified = builder.modified ∨ next.modified = true := by
  unfold trimPrefix at trimmed
  split at trimmed
  · cases trimmed
  · cases trimmed
    exact .inl rfl
  · dsimp only at trimmed
    split at trimmed
    · cases trimmed
      exact .inl rfl
    · obtain ⟨_, -, rfl⟩ := Option.map_eq_some_iff.mp trimmed
      exact .inr rfl

end ChainBuilder

theorem ChainBuilderCall.apply_modified {serde : Serde} {builder next : ChainBuilder} (call : ChainBuilderCall)
    (applied : call.apply serde builder = some next) :
    next.modified = builder.modified ∨ next.modified = true ∨
      (∃ tailLsn metadata, call = .seal tailLsn metadata) ∧ builder.inner.isSealed = true ∧
        next.modified = false := by
  cases call with
  | appendSegment baseLsn provider params =>
    obtain ⟨⟨_, result⟩, appended, rfl⟩ := Option.map_eq_some_iff.mp applied
    rcases ChainBuilder.appendSegment_modified serde appended with same | set
    · exact .inl same
    · exact .inr (.inl set)
  | «seal» tailLsn metadata =>
    obtain ⟨⟨_, result⟩, sealed, rfl⟩ := Option.map_eq_some_iff.mp applied
    rcases ChainBuilder.seal_modified serde sealed with same | set | ⟨wasSealed, cleared⟩
    · exact .inl same
    · exact .inr (.inl set)
    · exact .inr (.inr ⟨⟨tailLsn, metadata, rfl⟩, wasSealed, cleared⟩)
  | trimPrefix untilBaseLsn =>
    rcases ChainBuilder.trimPrefix_modified serde applied with same | set
    · exact .inl same
    · exact .inr (.inl set)

theorem LogsBuilder.addLog_modified (serde : Serde) (builder : LogsBuilder) (logId : LogId) (chain : Chain) :
    (builder.addLog serde logId chain).1.modified = builder.modified ∨
      (builder.addLog serde logId chain).1.modified = true := by
  unfold LogsBuilder.addLog
  split
  · exact .inl rfl
  · split
    · exact .inl rfl
    · exact .inr rfl

/-- A logs builder with the default configuration of its logs. -/
structure ConfiguredLogsBuilder (Configuration : Type) where
  logs : LogsBuilder
  config : Configuration

/-- A call on a logs builder: on the builder itself, or on the chain builder of one log. -/
inductive LogsBuilderCall (Configuration : Type)
  | addLog (logId : LogId) (chain : Chain)
  | setConfiguration (config : Configuration)
  | chain (logId : LogId) (call : ChainBuilderCall)

namespace ConfiguredLogsBuilder

variable {Configuration : Type} [DecidableEq Configuration] (serde : Serde)

def setConfiguration (builder : ConfiguredLogsBuilder Configuration) (config : Configuration) :
    ConfiguredLogsBuilder Configuration :=
  if builder.config ≠ config then ⟨{ builder.logs with modified := true }, config⟩ else builder

def buildIfModified (builder : ConfiguredLogsBuilder Configuration) : Option (Logs × Configuration) :=
  if builder.logs.modified then some (builder.logs.inner, builder.config) else none

/-- A call as the source runs it; `none` where it panics. A call on a log without a chain does
nothing, since `chain` returns None; a chain builder call writes its chain, index and flag back
whatever its result. -/
def apply (builder : ConfiguredLogsBuilder Configuration) :
    LogsBuilderCall Configuration → Option (ConfiguredLogsBuilder Configuration)
  | .addLog logId chain => some { builder with logs := (builder.logs.addLog serde logId chain).1 }
  | .setConfiguration config => some (builder.setConfiguration config)
  | .chain logId call =>
    match builder.logs.chain logId with
    | none => some builder
    | some chainBuilder =>
      (call.apply serde chainBuilder).map fun next => { builder with logs := builder.logs.update next }

def run (builder : ConfiguredLogsBuilder Configuration) (calls : List (LogsBuilderCall Configuration)) :
    Option (ConfiguredLogsBuilder Configuration) :=
  calls.foldlM (apply serde) builder

theorem apply_clears_modified {builder next : ConfiguredLogsBuilder Configuration}
    (call : LogsBuilderCall Configuration) (applied : builder.apply serde call = some next)
    (wasModified : builder.logs.modified = true) (cleared : next.logs.modified = false) :
    ∃ logId chain tailLsn metadata, call = .chain logId (.seal tailLsn metadata) ∧
      builder.logs.inner.chain logId = some chain ∧ chain.isSealed = true := by
  cases call with
  | addLog logId chain =>
    cases applied
    dsimp only at cleared
    rcases LogsBuilder.addLog_modified serde builder.logs logId chain with same | set
    · rw [same, wasModified] at cleared
      cases cleared
    · rw [set] at cleared
      cases cleared
  | setConfiguration config =>
    cases applied
    unfold setConfiguration at cleared
    split at cleared
    · cases cleared
    · rw [wasModified] at cleared
      cases cleared
  | chain logId call =>
    simp only [apply] at applied
    split at applied
    · cases applied
      rw [wasModified] at cleared
      cases cleared
    · rename_i chainBuilder found
      obtain ⟨chained, called, rfl⟩ := Option.map_eq_some_iff.mp applied
      obtain ⟨chain, located, rfl⟩ := Option.map_eq_some_iff.mp found
      -- the chain builder starts from the logs builder's flag
      rcases ChainBuilderCall.apply_modified call called with same | set | ⟨⟨tailLsn, metadata, rfl⟩, wasSealed, -⟩
      · change chained.modified = false at cleared
        rw [same] at cleared
        rw [wasModified] at cleared
        cases cleared
      · change chained.modified = false at cleared
        rw [set] at cleared
        cases cleared
      · exact ⟨logId, chain, tailLsn, metadata, rfl, located, wasSealed⟩

end ConfiguredLogsBuilder

/-- A partition table builder with the replication of its partitions. -/
structure ReplicatedPartitionTableBuilder (Replication : Type) where
  table : PartitionTableBuilder
  replication : Replication

inductive PartitionTableBuilderCall (Replication : Type)
  | addPartition (partition : Partition)
  | removePartition (partitionId : PartitionId)
  | setPartitionReplication (replication : Replication)

namespace ReplicatedPartitionTableBuilder

variable {Replication : Type} [DecidableEq Replication]

def setPartitionReplication (builder : ReplicatedPartitionTableBuilder Replication) (replication : Replication) :
    ReplicatedPartitionTableBuilder Replication :=
  if builder.replication ≠ replication then ⟨{ builder.table with modified := true }, replication⟩ else builder

/-- A call as the source runs it; `none` where it panics. -/
def apply (builder : ReplicatedPartitionTableBuilder Replication) :
    PartitionTableBuilderCall Replication → Option (ReplicatedPartitionTableBuilder Replication)
  | .addPartition partition =>
    (builder.table.addPartition partition).map fun (table, _) => { builder with table }
  | .removePartition partitionId => some { builder with table := builder.table.removePartition partitionId }
  | .setPartitionReplication replication => some (builder.setPartitionReplication replication)

end ReplicatedPartitionTableBuilder

theorem PartitionTableBuilder.insertIfClear_modified {builder next : PartitionTableBuilder} {partition : Partition}
    {result : Except PartitionTableBuilderError Unit} (inserted : builder.insertIfClear partition = some (next, result)) :
    next.modified = builder.modified ∨ next.modified = true := by
  unfold insertIfClear at inserted
  dsimp only at inserted
  split at inserted
  · cases inserted
  · split at inserted
    · cases inserted
      exact .inl rfl
    · cases inserted
      exact .inr rfl

theorem PartitionTableBuilder.addPartition_modified {builder next : PartitionTableBuilder} {partition : Partition}
    {result : Except PartitionTableBuilderError Unit} (added : builder.addPartition partition = some (next, result)) :
    next.modified = builder.modified ∨ next.modified = true := by
  unfold addPartition at added
  split at added
  · cases added
    exact .inl rfl
  · split at added
    · cases added
      exact .inl rfl
    · dsimp only at added
      split at added
      · split at added
        · cases added
        · split at added
          · cases added
            exact .inl rfl
          · exact insertIfClear_modified added
      · exact insertIfClear_modified added

theorem PartitionTableBuilder.removePartition_modified (builder : PartitionTableBuilder) (partitionId : PartitionId) :
    (builder.removePartition partitionId).modified = builder.modified := by
  unfold removePartition
  split <;> rfl

theorem ReplicatedPartitionTableBuilder.apply_keeps_modified {Replication : Type} [DecidableEq Replication]
    {builder next : ReplicatedPartitionTableBuilder Replication} (call : PartitionTableBuilderCall Replication)
    (applied : builder.apply call = some next) (wasModified : builder.table.modified = true) :
    next.table.modified = true := by
  cases call with
  | addPartition partition =>
    obtain ⟨⟨table, result⟩, added, rfl⟩ := Option.map_eq_some_iff.mp applied
    rcases PartitionTableBuilder.addPartition_modified added with same | set
    · exact same.trans wasModified
    · exact set
  | removePartition partitionId =>
    cases applied
    exact (PartitionTableBuilder.removePartition_modified _ _).trans wasModified
  | setPartitionReplication replication =>
    cases applied
    unfold setPartitionReplication
    split
    · rfl
    · exact wasModified

/-- Params codecs under which every seal metadata serializes. -/
def sealingSerde : Serde := ⟨fun _ => none, fun _ => some ⟨false⟩, fun _ => some ⟨"sealed"⟩⟩

/-- Add a log, seal it, and seal it again. -/
def sealTwice : List (LogsBuilderCall Unit) :=
  [.addLog ⟨1⟩ (.new .local ⟨"a"⟩), .chain ⟨1⟩ (.seal ⟨5⟩ ⟨false⟩), .chain ⟨1⟩ (.seal ⟨5⟩ ⟨false⟩)]

/-- A chain of two replicated segments whose second params do not deserialize. -/
def twoLogletChain : Chain :=
  ⟨(Chain.new .replicated ⟨"loglet 7"⟩).chain.insert ⟨5⟩ (.new ⟨1⟩ .replicated ⟨"not json"⟩)⟩

/-- The logs builder clears its flag only in a seal of a sealed chain, and the partition table
builder never does; remove_partition never sets it. So build_if_modified misses changes: adding
and sealing a log and sealing it again publishes nothing; an add_log that fails on its second
segment leaves the first one's loglet in the index and publishes nothing; and removing a
partition from a built table publishes nothing. -/
theorem build_if_modified_misses_changes :
    (∀ (Configuration : Type) [DecidableEq Configuration] (serde : Serde)
      (builder next : ConfiguredLogsBuilder Configuration) call,
      builder.apply serde call = some next → builder.logs.modified = true → next.logs.modified = false →
        ∃ logId chain tailLsn metadata, call = .chain logId (.seal tailLsn metadata) ∧
          builder.logs.inner.chain logId = some chain ∧ chain.isSealed = true) ∧
    (∀ (Replication : Type) [DecidableEq Replication] (builder next : ReplicatedPartitionTableBuilder Replication)
      call, builder.apply call = some next → builder.table.modified = true → next.table.modified = true) ∧
    (∀ (builder : PartitionTableBuilder) partitionId,
      (builder.removePartition partitionId).modified = builder.modified) ∧
    ((⟨.default, ()⟩ : ConfiguredLogsBuilder Unit).run sealingSerde sealTwice).map
        (fun builder => (builder.buildIfModified.isSome, (builder.logs.inner.chain ⟨1⟩).map Chain.isSealed)) =
      some (false, some true) ∧
    (LogsBuilder.default.addLog logletSevenSerde ⟨1⟩ twoLogletChain).2 = .error .paramsSerde ∧
    (LogsBuilder.default.addLog logletSevenSerde ⟨1⟩ twoLogletChain).1.buildIfModified.isSome = false ∧
    ((LogsBuilder.default.addLog logletSevenSerde ⟨1⟩ twoLogletChain).1.inner.getReplicatedLoglet ⟨7⟩).isSome ∧
    ∃ table, (PartitionTableBuilder.new.addPartition ⟨⟨0⟩, ⟨0, 9⟩⟩).map (·.1.build) = some table ∧
      (table.partitions.get? ⟨0⟩).isSome ∧
      ((⟨.ofTable table, ()⟩ : ReplicatedPartitionTableBuilder Unit).apply (.removePartition ⟨0⟩)).map
          (fun builder => (builder.table.buildIfModified.isSome, (builder.table.inner.partitions.get? ⟨0⟩).isSome)) =
        some (false, false) :=
  ⟨fun _ _ serde _ _ call applied wasModified cleared =>
      ConfiguredLogsBuilder.apply_clears_modified serde call applied wasModified cleared,
    fun _ _ _ _ call applied wasModified => ReplicatedPartitionTableBuilder.apply_keeps_modified call applied wasModified,
    PartitionTableBuilder.removePartition_modified, by decide, rfl, by decide, by decide, _, rfl, by decide, by decide⟩

end Restate
