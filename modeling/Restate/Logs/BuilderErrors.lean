import Restate.Logs.LookupIndex

/-! What a failed chain builder call leaves behind. Every error of append_segment and seal is
returned before the chain or the modified flag is written; the lookup index is written first in one
place only: replacing a replicated tail segment removes the old loglet's reference, and the params
of the new segment (for append_segment) or the serialized seal metadata (for seal) may then fail. -/

namespace Restate

namespace ChainBuilder

variable (serde : Serde)

theorem unindexReplaced_ok {builder : ChainBuilder} {old : LogletConfig} {index : LookupIndex}
    (removed : unindexReplaced serde builder old = .ok index) :
    index = builder.lookupIndex ∨
      ∃ params, old.kind = .replicated ∧ serde.replicatedParams old.params = some params ∧
        index = builder.lookupIndex.rmReplicatedLogletReference builder.logId old.index params.logletId := by
  unfold unindexReplaced at removed
  split at removed
  · rename_i replicated
    split at removed
    · rename_i params decoded
      cases removed
      exact .inr ⟨params, replicated, decoded, rfl⟩
    · cases removed
  · cases removed
    exact .inl rfl

theorem indexNew_error {builder : ChainBuilder} {index : LookupIndex} {newIndex : SegmentIndex}
    {provider : ProviderKind} {params : LogletParams} {e : BuilderError}
    (failed : indexNew serde builder index newIndex provider params = .error e) :
    provider = .replicated ∧ serde.replicatedParams params = none ∧ e = .paramsSerde := by
  unfold indexNew at failed
  split at failed
  · rename_i replicated
    split at failed
    · cases failed
    · rename_i rejected
      cases failed
      exact ⟨replicated, rejected, rfl⟩
  · cases failed

theorem newSealed_none {index : SegmentIndex} {metadata : SealMetadata}
    (failed : LogletConfig.newSealed serde index metadata = none) : serde.serializeSealMetadata metadata = none := by
  simpa [LogletConfig.newSealed] using failed

theorem replaced_error {builder : ChainBuilder} {last : LogletConfig} {unindexed : LookupIndex}
    (removed : unindexReplaced serde builder last = .ok unindexed) :
    { builder with lookupIndex := unindexed } = builder ∨
      ∃ params, last.kind = .replicated ∧ serde.replicatedParams last.params = some params ∧
        { builder with lookupIndex := unindexed } = { builder with
          lookupIndex := builder.lookupIndex.rmReplicatedLogletReference builder.logId last.index params.logletId } := by
  rcases unindexReplaced_ok serde removed with same | ⟨params, replicated, decoded, rfl⟩
  · exact .inl (by rw [same])
  · exact .inr ⟨params, replicated, decoded, rfl⟩

/-- A failed append_segment returns the builder as it was, unless it replaced a replicated tail
segment with a replicated segment whose params do not deserialize: the old loglet's reference is
then gone from the index. -/
theorem appendSegment_error {builder next : ChainBuilder} {baseLsn : Lsn} {provider : ProviderKind}
    {params : LogletParams} {e : BuilderError}
    (failed : builder.appendSegment serde baseLsn provider params = some (next, .error e)) :
    next = builder ∨
      ∃ last old, builder.inner.chain.lastKeyValue? = some (baseLsn, last) ∧ last.kind = .replicated ∧
        serde.replicatedParams last.params = some old ∧ provider = .replicated ∧
        serde.replicatedParams params = none ∧ e = .paramsSerde ∧
        next = { builder with
          lookupIndex := builder.lookupIndex.rmReplicatedLogletReference builder.logId last.index old.logletId } := by
  unfold appendSegment at failed
  split at failed
  · cases failed
  · rename_i key last found
    split at failed
    · -- the seal marker refuses the segment
      cases failed
      exact .inl rfl
    · dsimp only at failed
      split at failed
      · -- appending after the tail writes the index last
        split at failed
        · cases failed
          exact .inl rfl
        · cases failed
      · split at failed
        · -- replacing the tail: the old reference goes first
          rename_i replacing
          subst replacing
          split at failed
          · cases failed
            exact .inl rfl
          · rename_i unindexed removed
            split at failed
            · rename_i _ rejected
              cases failed
              obtain ⟨replicated, rejectedNew, rfl⟩ := indexNew_error serde rejected
              rcases replaced_error serde removed with same | ⟨old, lastReplicated, decoded, dropped⟩
              · exact .inl same
              · exact .inr ⟨last, old, found, lastReplicated, decoded, replicated, rejectedNew, rfl, dropped⟩
            · cases failed
        · cases failed
          exact .inl rfl

/-- A failed seal returns the builder as it was, unless it replaced a replicated tail segment
and the seal metadata does not serialize: the old loglet's reference is then gone from the
index. -/
theorem seal_error {builder next : ChainBuilder} {tailLsn : Lsn} {metadata : SealMetadata} {e : BuilderError}
    (failed : builder.seal serde tailLsn metadata = some (next, .error e)) :
    next = builder ∨
      ∃ last old, builder.inner.chain.lastKeyValue? = some (tailLsn, last) ∧ last.kind = .replicated ∧
        serde.replicatedParams last.params = some old ∧ serde.serializeSealMetadata metadata = none ∧
        e = .paramsSerde ∧
        next = { builder with
          lookupIndex := builder.lookupIndex.rmReplicatedLogletReference builder.logId last.index old.logletId } := by
  unfold ChainBuilder.seal at failed
  split at failed
  · cases failed
  · rename_i key last found
    split at failed
    · cases failed
    · split at failed
      · -- sealing after the tail writes nothing before the marker is serialized
        split at failed
        · cases failed
          exact .inl rfl
        · cases failed
      · split at failed
        · rename_i replacing
          subst replacing
          split at failed
          · cases failed
            exact .inl rfl
          · rename_i unindexed removed
            split at failed
            · rename_i unserialized
              cases failed
              rcases replaced_error serde removed with same | ⟨old, lastReplicated, decoded, dropped⟩
              · exact .inl same
              · exact .inr ⟨last, old, found, lastReplicated, decoded, newSealed_none serde unserialized, rfl, dropped⟩
            · cases failed
        · cases failed
          exact .inl rfl

end ChainBuilder

/-- The chain builder of log 1 with one replicated segment of loglet 7, as add_log leaves it. -/
def sevenChainBuilder : ChainBuilder :=
  ⟨⟨1⟩, .new .replicated ⟨"loglet 7"⟩, LookupIndex.empty.addReplicatedLoglet ⟨1⟩ .oldest ⟨⟨7⟩⟩, true⟩

theorem sevenChainBuilder_indexed :
    sevenChainBuilder.lookupIndex.getReplicatedLoglet ⟨7⟩ = some ⟨⟨⟨7⟩⟩, [(⟨1⟩, .oldest)]⟩ := by
  simp [sevenChainBuilder, LookupIndex.getReplicatedLoglet_addReplicatedLoglet]

/-- A failed append_segment or seal leaves the chain and the modified flag, and the lookup index
too except when it replaced a replicated tail segment and then failed on the new params or on the
seal metadata, having removed the old loglet's reference. Both happen on the chain builder of a
log whose tail is a replicated segment of loglet 7: the call fails and loglet 7 is no longer in
the index, although the chain still uses it. -/
theorem chain_builder_errors_keep_chain :
    (∀ (serde : Serde) (builder next : ChainBuilder) baseLsn provider params e,
      builder.appendSegment serde baseLsn provider params = some (next, .error e) →
        next.inner = builder.inner ∧ next.modified = builder.modified ∧
        (next.lookupIndex = builder.lookupIndex ∨
          ∃ last old, builder.inner.chain.lastKeyValue? = some (baseLsn, last) ∧ last.kind = .replicated ∧
            serde.replicatedParams last.params = some old ∧ provider = .replicated ∧
            serde.replicatedParams params = none ∧
            next.lookupIndex = builder.lookupIndex.rmReplicatedLogletReference builder.logId last.index old.logletId)) ∧
    (∀ (serde : Serde) (builder next : ChainBuilder) tailLsn metadata e,
      builder.seal serde tailLsn metadata = some (next, .error e) →
        next.inner = builder.inner ∧ next.modified = builder.modified ∧
        (next.lookupIndex = builder.lookupIndex ∨
          ∃ last old, builder.inner.chain.lastKeyValue? = some (tailLsn, last) ∧ last.kind = .replicated ∧
            serde.replicatedParams last.params = some old ∧ serde.serializeSealMetadata metadata = none ∧
            next.lookupIndex = builder.lookupIndex.rmReplicatedLogletReference builder.logId last.index old.logletId)) ∧
    sevenChainBuilder.lookupIndex.getReplicatedLoglet ⟨7⟩ = some ⟨⟨⟨7⟩⟩, [(⟨1⟩, .oldest)]⟩ ∧
    (∃ next, sevenChainBuilder.appendSegment logletSevenSerde .oldest .replicated ⟨"not json"⟩ =
        some (next, .error .paramsSerde) ∧
      next.inner = sevenChainBuilder.inner ∧ next.lookupIndex.getReplicatedLoglet ⟨7⟩ = none) ∧
    (∃ next, sevenChainBuilder.seal logletSevenSerde .oldest ⟨false⟩ = some (next, .error .paramsSerde) ∧
      next.inner = sevenChainBuilder.inner ∧ next.lookupIndex.getReplicatedLoglet ⟨7⟩ = none) := by
  have found : sevenChainBuilder.inner.chain.lastKeyValue? = some (.oldest, .new .oldest .replicated ⟨"loglet 7"⟩) :=
    rfl
  have decoded : logletSevenSerde.replicatedParams ⟨"loglet 7"⟩ = some ⟨⟨7⟩⟩ := by decide
  have dropped := LookupIndex.getReplicatedLoglet_rm_last _ _ _ _ _ sevenChainBuilder_indexed
  refine ⟨fun serde builder next baseLsn provider params e failed => ?_,
    fun serde builder next tailLsn metadata e failed => ?_, sevenChainBuilder_indexed,
    ⟨_, ChainBuilder.appendSegment_replace_rejected logletSevenSerde _ _ found rfl decoded (by decide), rfl, dropped⟩,
    ⟨{ sevenChainBuilder with
      lookupIndex := sevenChainBuilder.lookupIndex.rmReplicatedLogletReference ⟨1⟩ .oldest ⟨7⟩ }, ?_, rfl, dropped⟩⟩
  · rcases ChainBuilder.appendSegment_error serde failed with rfl | ⟨last, old, found, replicated, decoded, provided,
      rejected, -, rfl⟩
    · exact ⟨rfl, rfl, .inl rfl⟩
    · exact ⟨rfl, rfl, .inr ⟨last, old, found, replicated, decoded, provided, rejected, rfl⟩⟩
  · rcases ChainBuilder.seal_error serde failed with rfl | ⟨last, old, found, replicated, decoded, unserialized, -, rfl⟩
    · exact ⟨rfl, rfl, .inl rfl⟩
    · exact ⟨rfl, rfl, .inr ⟨last, old, found, replicated, decoded, unserialized, rfl⟩⟩
  · -- the seal metadata codec of logletSevenSerde fails after the old reference was removed
    have logId : sevenChainBuilder.logId = ⟨1⟩ := rfl
    simp [ChainBuilder.seal, found, logId, InternalKind.isSealMarker, LogletConfig.new, InternalKind.ofProviderKind,
      ChainBuilder.unindexReplaced, LogletConfig.newSealed, logletSevenSerde]

end Restate
