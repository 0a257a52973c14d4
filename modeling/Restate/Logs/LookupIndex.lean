import Restate.Logs.Builder

/-! The replicated-loglet lookup index under the logs builder. Deserialization rebuilds the index
from the chains; the builder keeps it up to date call by call. A call that fails after it has
changed the index leaves the two apart: replacing the tail of a chain with a replicated loglet
removes the old loglet's reference first, and the new params may then fail to deserialize. The
bifrost log chain writer keeps going after a failed command and publishes the builder it built. -/

namespace Restate

namespace LookupIndex

@[simp] theorem getReplicatedLoglet_empty (logletId : LogletId) :
    LookupIndex.empty.getReplicatedLoglet logletId = none := by
  simp [LookupIndex.empty, getReplicatedLoglet]

theorem getReplicatedLoglet_addReplicatedLoglet (index : LookupIndex) (logId : LogId)
    (segmentIndex : SegmentIndex) (params : ReplicatedLogletParams) (logletId : LogletId) :
    (index.addReplicatedLoglet logId segmentIndex params).getReplicatedLoglet logletId =
      if logletId = params.logletId then
        let entry := (index.getReplicatedLoglet params.logletId).getD ⟨params, []⟩
        some { entry with references := entry.references ++ [(logId, segmentIndex)] }
      else index.getReplicatedLoglet logletId := by
  by_cases same : logletId = params.logletId
  · subst same
    simp [addReplicatedLoglet, getReplicatedLoglet]
  · simp [addReplicatedLoglet, getReplicatedLoglet, same, AList.lookup_insert_ne same]

theorem getReplicatedLoglet_rm_last (index : LookupIndex) (logId : LogId)
    (segmentIndex : SegmentIndex) (logletId : LogletId) (params : ReplicatedLogletParams)
    (single : index.getReplicatedLoglet logletId = some ⟨params, [(logId, segmentIndex)]⟩) :
    (index.rmReplicatedLogletReference logId segmentIndex logletId).getReplicatedLoglet logletId =
      none := by
  simp only [getReplicatedLoglet] at single
  simp [rmReplicatedLogletReference, getReplicatedLoglet, single]

end LookupIndex

@[simp] theorem Logs.getReplicatedLoglet_empty (logletId : LogletId) :
    Logs.empty.getReplicatedLoglet logletId = none :=
  LookupIndex.getReplicatedLoglet_empty logletId

theorem LogsBuilder.addLog_replicated (serde : Serde) (logId : LogId) (params : LogletParams)
    (replicated : ReplicatedLogletParams) (decoded : serde.replicatedParams params = some replicated) :
    LogsBuilder.default.addLog serde logId (.new .replicated params) =
      (⟨⟨AList.insert logId (.new .replicated params) ∅,
          LookupIndex.empty.addReplicatedLoglet logId .oldest replicated⟩, true⟩, .ok ()) := by
  simp [addLog, LogsBuilder.default, Logs.empty, Chain.new, Chain.withBaseLsn, OrdMap.values,
    indexSegments, LogletConfig.new, InternalKind.ofProviderKind, decoded]

theorem ChainBuilder.appendSegment_replace_rejected (serde : Serde) (builder : ChainBuilder)
    {key : Lsn} {last : LogletConfig} {old : ReplicatedLogletParams} (newParams : LogletParams)
    (found : builder.inner.chain.lastKeyValue? = some (key, last))
    (lastReplicated : last.kind = .replicated) (decodedOld : serde.replicatedParams last.params = some old)
    (rejected : serde.replicatedParams newParams = none) :
    builder.appendSegment serde key .replicated newParams =
      some ({ builder with
              lookupIndex := builder.lookupIndex.rmReplicatedLogletReference builder.logId last.index
                old.logletId }, .error .paramsSerde) := by
  have checked : checkSealMarker serde builder key last key = .ok () := by
    simp [checkSealMarker, lastReplicated, InternalKind.isSealMarker]
  simp [appendSegment, found, checked, unindexReplaced, lastReplicated, decodedOld, indexNew,
    rejected]

/-- Add log 1 as a new chain of one replicated loglet, then try to replace its tail segment with
params that do not deserialize: the call fails and the chain still has its replicated segment,
but the index built from the builder no longer knows the loglet, while deserializing the same
logs gives back its reference. -/
theorem failed_replace_drops_loglet_reference (serde : Serde) (valid invalid : LogletParams)
    (loglet : LogletId) (accepted : serde.replicatedParams valid = some ⟨loglet⟩)
    (rejected : serde.replicatedParams invalid = none) :
    let added := (LogsBuilder.default.addLog serde ⟨1⟩ (.new .replicated valid)).1
    ∃ chainBuilder next, added.chain ⟨1⟩ = some chainBuilder ∧
      chainBuilder.appendSegment serde .oldest .replicated invalid =
        some (next, .error .paramsSerde) ∧
      ((added.update next).build.chain ⟨1⟩).map (·.chain.entries) =
        some (Chain.new .replicated valid).chain.entries ∧
      (added.update next).build.getReplicatedLoglet loglet = none ∧
      (Logs.tryFrom serde (added.update next).build.toSerde).map (·.getReplicatedLoglet loglet) =
        some (some ⟨⟨loglet⟩, [(⟨1⟩, .oldest)]⟩) := by
  intro added
  have addedEq : added = ⟨⟨AList.insert ⟨1⟩ (.new .replicated valid) ∅,
      LookupIndex.empty.addReplicatedLoglet ⟨1⟩ .oldest ⟨loglet⟩⟩, true⟩ := by
    simp only [added, LogsBuilder.addLog_replicated serde ⟨1⟩ valid ⟨loglet⟩ accepted]
  rw [addedEq]
  have indexed : (LookupIndex.empty.addReplicatedLoglet ⟨1⟩ .oldest ⟨loglet⟩).getReplicatedLoglet
      loglet = some ⟨⟨loglet⟩, [(⟨1⟩, .oldest)]⟩ := by
    simp [LookupIndex.getReplicatedLoglet_addReplicatedLoglet]
  have found : (Chain.new .replicated valid).chain.lastKeyValue? =
      some (.oldest, .new .oldest .replicated valid) := rfl
  refine ⟨⟨⟨1⟩, .new .replicated valid, LookupIndex.empty.addReplicatedLoglet ⟨1⟩ .oldest ⟨loglet⟩,
      true⟩, _, by simp [LogsBuilder.chain, -AList.insert_empty],
    ChainBuilder.appendSegment_replace_rejected serde _ invalid found rfl accepted rejected,
    by simp [LogsBuilder.update, LogsBuilder.build, Logs.chain, -AList.insert_empty], ?_, ?_⟩
  · -- the builder's index lost the reference
    exact LookupIndex.getReplicatedLoglet_rm_last _ _ _ _ _ indexed
  · -- deserialization indexes the chain's replicated segment again
    simp [LogsBuilder.update, LogsBuilder.build, Logs.toSerde, Logs.tryFrom, Logs.indexChain,
      Chain.new, Chain.withBaseLsn, OrdMap.values, LogletConfig.new, InternalKind.ofProviderKind,
      accepted, Logs.getReplicatedLoglet, Logs.empty, indexed]

/-- Params codecs that accept only the params of loglet 7. -/
def logletSevenSerde : Serde :=
  ⟨fun params => if params = ⟨"loglet 7"⟩ then some ⟨⟨7⟩⟩ else none, fun _ => none, fun _ => none⟩

theorem logletSeven_reference_dropped :
    logletSevenSerde.replicatedParams ⟨"loglet 7"⟩ = some ⟨⟨7⟩⟩ ∧
      logletSevenSerde.replicatedParams ⟨"not json"⟩ = none ∧
      let added :=
        (LogsBuilder.default.addLog logletSevenSerde ⟨1⟩ (.new .replicated ⟨"loglet 7"⟩)).1
      ∃ chainBuilder next, added.chain ⟨1⟩ = some chainBuilder ∧
        chainBuilder.appendSegment logletSevenSerde .oldest .replicated ⟨"not json"⟩ =
          some (next, .error .paramsSerde) ∧
        ((added.update next).build.chain ⟨1⟩).map (·.chain.entries) =
          some (Chain.new .replicated ⟨"loglet 7"⟩).chain.entries ∧
        (added.update next).build.getReplicatedLoglet ⟨7⟩ = none ∧
        (Logs.tryFrom logletSevenSerde (added.update next).build.toSerde).map
            (·.getReplicatedLoglet ⟨7⟩) =
          some (some ⟨⟨⟨7⟩⟩, [(⟨1⟩, .oldest)]⟩) :=
  ⟨by decide, by decide, failed_replace_drops_loglet_reference logletSevenSerde ⟨"loglet 7"⟩
    ⟨"not json"⟩ ⟨7⟩ (by decide) (by decide)⟩

end Restate
