import Mathlib.Order.Nat
import Mathlib.Data.List.Nodup
import Restate.Lib.OrdMap
import Restate.Lib.Run
import Restate.Replication.Types
import Restate.LogServer.LogletWorker

/-! The digests of a tail repair, from bifrost/src/providers/replicated_loglet/tasks/digests.rs.
The repair walks the offsets from a start offset up to a target tail; for each offset still under
repair it records the nodes whose digest reported the record there. A digest from a node counts
once, the first time it comes back Ok; the start offset only moves forward, past a trim gap, past a
record the repair replicated, or past the last offset whose copies already form a write quorum.

Whether a set of nodes forms a write quorum is what a `NodeSetChecker` over the loglet's nodeset
and the nodes configuration of the call says once those nodes are set and the rest cleared
(`fill_with_default` then `set_attribute_on_each`); it is taken here as a function given to each
call. The known global tail watch is read as the offset it returns after the digest's header
updated it. A repaired record's outcome (the spread selector found fix-up nodes and enough stores
succeeded) is given with the call. -/

namespace Restate

inductive RecordStatus
  | unknown
  | trimmed
  | archived
  | «exists»
  deriving DecidableEq, Repr

/-- A digest entry: the status of the offsets from `fromOffset` to `toOffset`, both included. -/
structure DigestEntry where
  fromOffset : Nat
  toOffset : Nat
  status : RecordStatus
  deriving DecidableEq, Repr

/-- What the repair reads at an offset: a trim gap up to an offset, or a data record. -/
inductive RepairRecord
  | trimGap (offset toOffset : Nat)
  | data (offset : Nat)
  deriving DecidableEq, Repr

structure Digests where
  /-- The first offset to repair. -/
  startOffset : Nat
  /-- The durable global tail the repair reaches, exclusive. -/
  targetTail : Nat
  /-- The nodes known to hold each offset still under repair. -/
  offsetsUnderRepair : OrdMap Nat NodeSet
  /-- The nodes whose Ok digest came in. -/
  knownNodes : NodeSet
  numFixups : Nat

namespace Digests

/-- The offsets from the start offset up to the target tail, none known to be held anywhere yet. -/
def repairRange (startOffset targetTail : Nat) : OrdMap Nat NodeSet :=
  ⟨(List.range' startOffset (targetTail - startOffset)).map fun offset => (offset, NodeSet.empty),
    List.pairwise_map.mpr List.pairwise_lt_range'⟩

def new (startOffset targetTail : Nat) : Digests where
  startOffset := startOffset
  targetTail := targetTail
  offsetsUnderRepair := if targetTail ≤ startOffset then OrdMap.empty else repairRange startOffset targetTail
  knownNodes := NodeSet.empty
  numFixups := 0

def isFinished (digests : Digests) : Bool := digests.targetTail ≤ digests.startOffset

/-- truncate_range: keeps the offsets from the start offset on. -/
def truncateRange (digests : Digests) : Digests :=
  if digests.targetTail ≤ digests.startOffset then { digests with offsetsUnderRepair := OrdMap.empty }
  else { digests with offsetsUnderRepair := (digests.offsetsUnderRepair.splitOff digests.startOffset).2 }

/-- update_start_offset: the start offset only moves forward, and the range follows it. -/
def updateStartOffset (digests : Digests) (newStartOffset : Nat) : Digests :=
  let original := digests.startOffset
  let digests := { digests with startOffset := max original newStartOffset }
  if digests.startOffset ≠ original then digests.truncateRange else digests

/-- One entry of a digest from a peer: an Exists entry adds the peer to the offsets it covers that
are under repair. BTreeMap::range panics on a range that ends before it starts. -/
def recordCopies (peer : PlainNodeId) (offsets : OrdMap Nat NodeSet) (entry : DigestEntry) :
    Option (OrdMap Nat NodeSet) :=
  if entry.status = .exists then
    if entry.toOffset < entry.fromOffset then none
    else some (offsets.modifyRange entry.fromOffset entry.toOffset fun copies => (copies.insert peer).1)
  else some offsets

/-- on_digest_message, with the offset the known global tail watch returns after the update. -/
def onDigestMessage (digests : Digests) (peer : PlainNodeId) (knownGlobalTail : Nat) (status : Status)
    (entries : List DigestEntry) : Option Digests :=
  let digests := digests.updateStartOffset knownGlobalTail
  if status ≠ .ok then some digests
  else
    let (knownNodes, inserted) := digests.knownNodes.insert peer
    let digests := { digests with knownNodes }
    -- a second Ok digest from the same node is ignored
    if !inserted then some digests
    else if digests.isFinished then some digests
    else (entries.foldlM (recordCopies peer) digests.offsetsUnderRepair).map
      fun offsetsUnderRepair => { digests with offsetsUnderRepair }

section Quorum

variable (writeQuorum : List PlainNodeId → Bool)

def canRepair (digests : Digests) : Bool := writeQuorum digests.knownNodes.nodes

/-- advance: once the nodes that answered can form a write quorum, moves past the last offset
whose copies already form one; whether the repair can go on. The first offset under repair always
exists while the repair is not finished, or `expect` panics. -/
def advance (digests : Digests) : Option (Digests × Bool) :=
  if !digests.canRepair writeQuorum then some (digests, false)
  else
    match digests.offsetsUnderRepair.rfind fun entry => writeQuorum entry.2.nodes with
    | some (offset, _) => some (digests.updateStartOffset (LogletOffset.next offset), true)
    | none =>
      if digests.isFinished then some (digests, true)
      else
        match digests.offsetsUnderRepair.firstKeyValue? with
        | some (_, copies) => some (digests, !copies.nodes.isEmpty)
        | none => none

end Quorum

/-- replicate_record_and_advance, with whether the record reached a write quorum. A record before
the start offset is skipped; a trim gap moves past its end; a record must be under repair, or
`expect` panics; a failed repair changes nothing. -/
def replicateRecordAndAdvance (digests : Digests) (record : RepairRecord) (replicated : Bool) : Option Digests :=
  match record with
  | .trimGap offset toOffset =>
    if offset < digests.startOffset then some digests
    else some (digests.updateStartOffset (LogletOffset.next toOffset))
  | .data offset =>
    if offset < digests.startOffset then some digests
    else
      match digests.offsetsUnderRepair.get? offset with
      | none => none
      | some _ =>
        if replicated then
          some ({ digests with numFixups := digests.numFixups + 1 }.updateStartOffset (LogletOffset.next offset))
        else some digests

end Digests

/-- A call on the digests of a repair. -/
inductive DigestsEvent
  | digest (peer : PlainNodeId) (knownGlobalTail : Nat) (status : Status) (entries : List DigestEntry)
  | advance (writeQuorum : List PlainNodeId → Bool)
  | replicate (record : RepairRecord) (replicated : Bool)

namespace Digests

/-- One call; none when it panics. -/
def step (digests : Digests) : DigestsEvent → Option Digests
  | .digest peer knownGlobalTail status entries => digests.onDigestMessage peer knownGlobalTail status entries
  | .advance writeQuorum => (digests.advance writeQuorum).map Prod.fst
  | .replicate record replicated => digests.replicateRecordAndAdvance record replicated

def run (digests : Digests) (events : List DigestsEvent) : Option Digests :=
  events.foldlM step digests

end Digests

end Restate
