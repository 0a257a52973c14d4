import Restate.Lib.OrdMap
import Restate.Lib.KeyMap

/-! Log metadata (crates/types/src/logs): the chain of loglet segments of one log, a map from the
base LSN of each segment to its configuration, and the lookup index from replicated loglets to the
segments that use them.

Loglet params travel as JSON strings; the JSON codecs are external to the repository, so the model
takes them as a parameter, a `Serde`, with one decoder or encoder per params type. -/

namespace Restate

structure Lsn where
  val : Nat
  deriving DecidableEq, Repr

namespace Lsn

def invalid : Lsn := ⟨0⟩

def oldest : Lsn := ⟨1⟩

instance : LinearOrder Lsn := LinearOrder.lift' Lsn.val fun a b same => by
  cases a
  cases b
  simp_all

theorem lt_iff (a b : Lsn) : a < b ↔ a.val < b.val := Iff.rfl

theorem le_iff (a b : Lsn) : a ≤ b ↔ a.val ≤ b.val := Iff.rfl

end Lsn

structure LogId where
  id : Nat
  deriving DecidableEq, Repr

structure LogletId where
  id : Nat
  deriving DecidableEq, Repr

/-- Starts with 0 being the oldest loglet in the chain; a u32 that wraps on overflow in release
builds. -/
structure SegmentIndex where
  val : UInt32
  deriving DecidableEq, Repr

def SegmentIndex.oldest : SegmentIndex := ⟨0⟩

inductive ProviderKind
  | «local»
  | inMemory
  | replicated
  deriving DecidableEq, Repr

/-- The provider kinds and the seal marker, a loglet that is always sealed and has no records. -/
inductive InternalKind
  | «local»
  | inMemory
  | replicated
  | sealed
  deriving DecidableEq, Repr

def InternalKind.isSealMarker : InternalKind → Bool
  | .sealed => true
  | _ => false

def InternalKind.ofProviderKind : ProviderKind → InternalKind
  | .local => .local
  | .inMemory => .inMemory
  | .replicated => .replicated

structure LogletParams where
  val : String
  deriving DecidableEq, Repr

structure ReplicatedLogletParams where
  logletId : LogletId
  deriving DecidableEq, Repr

structure SealMetadata where
  permanentSeal : Bool
  deriving DecidableEq, Repr

/-- The JSON codecs of the params the log metadata reads and writes; `none` is a serde error. -/
structure Serde where
  replicatedParams : LogletParams → Option ReplicatedLogletParams
  sealMetadata : LogletParams → Option SealMetadata
  serializeSealMetadata : SealMetadata → Option LogletParams

structure LogletConfig where
  kind : InternalKind
  params : LogletParams
  index : SegmentIndex
  deriving DecidableEq, Repr

namespace LogletConfig

def new (index : SegmentIndex) (kind : ProviderKind) (params : LogletParams) : LogletConfig :=
  { kind := .ofProviderKind kind, params, index }

def newSealed (serde : Serde) (index : SegmentIndex) (metadata : SealMetadata) :
    Option LogletConfig :=
  (serde.serializeSealMetadata metadata).map fun params => { kind := .sealed, params, index }

end LogletConfig

/-- The chain is a list of segments in base-LSN order. -/
structure Chain where
  chain : OrdMap Lsn LogletConfig

structure Segment where
  baseLsn : Lsn
  tailLsn : Option Lsn
  config : LogletConfig
  deriving DecidableEq, Repr

inductive MaybeSegment
  | some (segment : Segment)
  | trim (nextBaseLsn : Lsn)
  deriving DecidableEq, Repr

namespace Chain

def withBaseLsn (baseLsn : Lsn) (kind : ProviderKind) (config : LogletParams) : Chain :=
  ⟨⟨[(baseLsn, .new .oldest kind config)], List.pairwise_singleton _ _⟩⟩

def new (kind : ProviderKind) (config : LogletParams) : Chain := withBaseLsn .oldest kind config

def sealedTail (chain : Chain) : Option Lsn :=
  match chain.chain.lastKeyValue? with
  | some (lsn, config) => if config.kind.isSealMarker then some lsn else none
  | none => none

def isSealed (chain : Chain) : Bool := chain.sealedTail.isSome

/-- The tail segment; `none` where the source panics on an empty chain. -/
def tail (chain : Chain) : Option Segment :=
  chain.chain.lastKeyValue?.map fun (baseLsn, config) => ⟨baseLsn, none, config⟩

def numSegments (chain : Chain) : Nat := chain.chain.entries.length

/-- The segment holding an LSN, or the trim gap before the oldest segment; `none` where the source
panics on an empty chain. -/
def findSegmentForLsn (chain : Chain) (lsn : Lsn) : Option MaybeSegment :=
  -- INVALID is searched as OLDEST
  let lsn := max lsn .oldest
  match chain.chain.rfind fun (baseLsn, _) => decide (baseLsn ≤ lsn) with
  | some (baseLsn, config) =>
    some (.some ⟨baseLsn, (chain.chain.nextAfter baseLsn).map Prod.fst, config⟩)
  | none => chain.chain.firstKeyValue?.map fun (nextBaseLsn, _) => .trim nextBaseLsn

end Chain

/-- A replicated loglet with the (log, segment) pairs that use it. -/
structure LogletRef where
  params : ReplicatedLogletParams
  references : List (LogId × SegmentIndex)
  deriving DecidableEq, Repr

structure LookupIndex where
  replicatedLoglets : KeyMap LogletId LogletRef

namespace LookupIndex

def empty : LookupIndex := ⟨∅⟩

/-- Push a reference, creating the loglet's entry with these params if it has none. -/
def addReplicatedLoglet (index : LookupIndex) (logId : LogId) (segmentIndex : SegmentIndex)
    (params : ReplicatedLogletParams) : LookupIndex :=
  let entry := (index.replicatedLoglets.lookup params.logletId).getD ⟨params, []⟩
  ⟨index.replicatedLoglets.insert params.logletId
    { entry with references := entry.references ++ [(logId, segmentIndex)] }⟩

/-- Drop every copy of a reference, and the loglet's entry once it has none left. -/
def rmReplicatedLogletReference (index : LookupIndex) (logId : LogId)
    (segmentIndex : SegmentIndex) (logletId : LogletId) : LookupIndex :=
  match index.replicatedLoglets.lookup logletId with
  | some entry =>
    let references := entry.references.filter fun reference => reference ≠ (logId, segmentIndex)
    if references.isEmpty then ⟨index.replicatedLoglets.erase logletId⟩
    else ⟨index.replicatedLoglets.insert logletId { entry with references }⟩
  | none => index

def getReplicatedLoglet (index : LookupIndex) (logletId : LogletId) : Option LogletRef :=
  index.replicatedLoglets.lookup logletId

end LookupIndex

structure Logs where
  logs : KeyMap LogId Chain
  lookupIndex : LookupIndex

/-- The serialized form of the log metadata: the chains as a list of pairs, without the index. -/
structure LogsSerde where
  logs : List (LogId × Chain)

namespace Logs

def empty : Logs := ⟨∅, .empty⟩

def chain (logs : Logs) (logId : LogId) : Option Chain := logs.logs.lookup logId

def getReplicatedLoglet (logs : Logs) (logletId : LogletId) : Option LogletRef :=
  logs.lookupIndex.getReplicatedLoglet logletId

def toSerde (logs : Logs) : LogsSerde := ⟨logs.logs.entries.map fun entry => (entry.1, entry.2)⟩

/-- Index the replicated segments of one deserialized chain; `none` is a params serde error. -/
def indexChain (serde : Serde) (logId : LogId) (index : LookupIndex) (chain : Chain) :
    Option LookupIndex :=
  chain.chain.values.foldlM (fun index config =>
    if config.kind = .replicated then
      (serde.replicatedParams config.params).map (index.addReplicatedLoglet logId config.index)
    else some index) index

/-- Deserialization rebuilds the lookup index from the chains. -/
def tryFrom (serde : Serde) (value : LogsSerde) : Option Logs :=
  value.logs.foldlM (fun logs (logId, chain) => do
    let lookupIndex ← indexChain serde logId logs.lookupIndex chain
    pure { logs := logs.logs.insert logId chain, lookupIndex }) empty

end Logs

end Restate
