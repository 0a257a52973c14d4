import Restate.Logs.Metadata

/-! The logs builder (crates/types/src/logs/builder.rs). A builder call may change the builder and
still return an error: the source mutates in place and returns early with `?`, so every call
returns the builder as it stands together with its result. A chain builder call returns `none`
where the source panics. -/

namespace Restate

inductive BuilderError
  | chainPermanentlySealed (logId : LogId)
  | logAlreadyExists (logId : LogId)
  | paramsSerde
  | segmentConflict (lsn : Lsn)
  | hlcClock
  deriving DecidableEq, Repr

structure LogsBuilder where
  inner : Logs
  modified : Bool

/-- The source borrows the chain, the lookup index and the modified flag from a `LogsBuilder`;
the model carries them and `LogsBuilder.update` writes them back. -/
structure ChainBuilder where
  logId : LogId
  inner : Chain
  lookupIndex : LookupIndex
  modified : Bool

namespace LogsBuilder

def default : LogsBuilder := ⟨.empty, false⟩

/-- The loop of add_log over the segments of a new chain; a params error leaves the references
added so far in the index. -/
def indexSegments (serde : Serde) (logId : LogId) :
    LookupIndex → List LogletConfig → LookupIndex × Except BuilderError Unit
  | index, [] => (index, .ok ())
  | index, config :: rest =>
    if config.kind = .replicated then
      match serde.replicatedParams config.params with
      | some params =>
        indexSegments serde logId (index.addReplicatedLoglet logId config.index params) rest
      | none => (index, .error .paramsSerde)
    else indexSegments serde logId index rest

def addLog (serde : Serde) (builder : LogsBuilder) (logId : LogId) (chain : Chain) :
    LogsBuilder × Except BuilderError Unit :=
  if (builder.inner.logs.lookup logId).isSome then (builder, .error (.logAlreadyExists logId))
  else
    match indexSegments serde logId builder.inner.lookupIndex chain.chain.values with
    | (lookupIndex, .error e) =>
      ({ builder with inner := { builder.inner with lookupIndex } }, .error e)
    | (lookupIndex, .ok ()) =>
      ({ inner := { logs := builder.inner.logs.insert logId chain, lookupIndex }, modified := true },
        .ok ())

def chain (builder : LogsBuilder) (logId : LogId) : Option ChainBuilder :=
  (builder.inner.logs.lookup logId).map fun chain =>
    ⟨logId, chain, builder.inner.lookupIndex, builder.modified⟩

def update (builder : LogsBuilder) (chainBuilder : ChainBuilder) : LogsBuilder :=
  { inner := { logs := builder.inner.logs.insert chainBuilder.logId chainBuilder.inner,
               lookupIndex := chainBuilder.lookupIndex },
    modified := chainBuilder.modified }

def build (builder : LogsBuilder) : Logs := builder.inner

def buildIfModified (builder : LogsBuilder) : Option Logs :=
  if builder.modified then some builder.inner else none

end LogsBuilder

namespace ChainBuilder

variable (serde : Serde)

/-- Appending after a seal marker is refused for a permanent seal, and otherwise allowed only as a
replacement of the marker. -/
def checkSealMarker (builder : ChainBuilder) (key : Lsn) (last : LogletConfig) (baseLsn : Lsn) :
    Except BuilderError Unit :=
  if last.kind.isSealMarker then
    match serde.sealMetadata last.params with
    | none => .error .paramsSerde
    | some sealMetadata =>
      if sealMetadata.permanentSeal then .error (.chainPermanentlySealed builder.logId)
      else if baseLsn ≠ key then .error (.segmentConflict key)
      else .ok ()
  else .ok ()

/-- Remove the reference of a replaced tail segment if it is a replicated loglet. -/
def unindexReplaced (builder : ChainBuilder) (old : LogletConfig) :
    Except BuilderError LookupIndex :=
  if old.kind = .replicated then
    match serde.replicatedParams old.params with
    | some params =>
      .ok (builder.lookupIndex.rmReplicatedLogletReference builder.logId old.index params.logletId)
    | none => .error .paramsSerde
  else .ok builder.lookupIndex

/-- Add the reference of a new segment if it is a replicated loglet. -/
def indexNew (builder : ChainBuilder) (index : LookupIndex) (newIndex : SegmentIndex)
    (provider : ProviderKind) (params : LogletParams) : Except BuilderError LookupIndex :=
  if provider = .replicated then
    match serde.replicatedParams params with
    | some replicated => .ok (index.addReplicatedLoglet builder.logId newIndex replicated)
    | none => .error .paramsSerde
  else .ok index

def appendSegment (builder : ChainBuilder) (baseLsn : Lsn) (provider : ProviderKind)
    (params : LogletParams) : Option (ChainBuilder × Except BuilderError SegmentIndex) :=
  match builder.inner.chain.lastKeyValue? with
  | none => none
  | some (key, last) =>
    match checkSealMarker serde builder key last baseLsn with
    | .error e => some (builder, .error e)
    | .ok () =>
      let newIndex : SegmentIndex := ⟨last.index.val + 1⟩
      if key < baseLsn then
        match indexNew serde builder builder.lookupIndex newIndex provider params with
        | .error e => some (builder, .error e)
        | .ok lookupIndex =>
          some ({ builder with
                  inner := ⟨builder.inner.chain.insert baseLsn (.new newIndex provider params)⟩,
                  lookupIndex, modified := true }, .ok newIndex)
      else if key = baseLsn then
        -- the new segment replaces the (empty) tail segment and still takes a higher index
        match unindexReplaced serde builder last with
        | .error e => some (builder, .error e)
        | .ok unindexed =>
          match indexNew serde builder unindexed newIndex provider params with
          | .error e => some ({ builder with lookupIndex := unindexed }, .error e)
          | .ok lookupIndex =>
            some ({ builder with
                    inner := ⟨builder.inner.chain.insert key (.new newIndex provider params)⟩,
                    lookupIndex, modified := true }, .ok newIndex)
      else some (builder, .error (.segmentConflict key))

def «seal» (builder : ChainBuilder) (tailLsn : Lsn) (metadata : SealMetadata) :
    Option (ChainBuilder × Except BuilderError Lsn) :=
  match builder.inner.chain.lastKeyValue? with
  | none => none
  | some (key, last) =>
    -- an already sealed chain answers with its sealed tail, whatever tailLsn is
    if last.kind.isSealMarker then some ({ builder with modified := false }, .ok key)
    else if key < tailLsn then
      -- the marker shares the index of the segment it seals
      match LogletConfig.newSealed serde last.index metadata with
      | none => some (builder, .error .paramsSerde)
      | some marker =>
        some ({ builder with
                inner := ⟨builder.inner.chain.insert tailLsn marker⟩, modified := true },
          .ok tailLsn)
    else if key = tailLsn then
      match unindexReplaced serde builder last with
      | .error e => some (builder, .error e)
      | .ok unindexed =>
        match LogletConfig.newSealed serde last.index metadata with
        | none => some ({ builder with lookupIndex := unindexed }, .error .paramsSerde)
        | some marker =>
          some ({ builder with
                  inner := ⟨builder.inner.chain.insert key marker⟩, lookupIndex := unindexed,
                  modified := true }, .ok tailLsn)
    else some (builder, .error (.segmentConflict key))

/-- Remove the reference of a trimmed segment; `none` where the source panics on params that do
not deserialize. -/
def unindexTrimmed (logId : LogId) (index : LookupIndex) (config : LogletConfig) :
    Option LookupIndex :=
  if config.kind = .replicated then
    (serde.replicatedParams config.params).map fun params =>
      index.rmReplicatedLogletReference logId config.index params.logletId
  else some index

/-- Drop the segments before the one holding untilBaseLsn; the tail segment is never dropped. -/
def trimPrefix (builder : ChainBuilder) (untilBaseLsn : Lsn) : Option ChainBuilder :=
  match builder.inner.findSegmentForLsn untilBaseLsn with
  | none => none
  | some (.trim _) => some builder
  | some (.some segment) =>
    let trimmed := (builder.inner.chain.splitOff segment.baseLsn).1
    let remaining := (builder.inner.chain.splitOff segment.baseLsn).2
    if trimmed.entries.isEmpty then some { builder with inner := ⟨remaining⟩ }
    else
      (trimmed.values.foldlM (unindexTrimmed serde builder.logId) builder.lookupIndex).map
        fun lookupIndex => { builder with inner := ⟨remaining⟩, lookupIndex, modified := true }

end ChainBuilder

end Restate
