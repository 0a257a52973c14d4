import Mathlib
import Restate.Lib.HeapPop
import Restate.Replication.Types

/-! `DomainAwareNodeSetSelector::select` (replication/nodeset_selector.rs). The candidate nodes are
put into the domains of the widest scope the replication property replicates across (a single
root domain when that scope is the node), each domain's candidates ordered by hash with the
preferred nodes and the top-priority node last. Nodes are then popped from the domain with the
fewest picked so far, first counting all picked nodes, then only the writeable ones, until every
domain and the whole nodeset have enough or the nodeset reaches its size limits.

The binary heap of domains is a list popped by a `PopOrder`: which of several equally ranked
domains `BinaryHeap::pop` takes depends on the heap's layout. The hashes of nodes and domains
(xxh3 seeded with the salt over the hashing id, or `rand::random()` without consistent hashing) are
functions in the options, and the nodes configuration is the list `iter()` walks. Arithmetic on
`u32` wraps, as in a release build; an `unwrap` on nothing gives `none`. -/

namespace Restate

/-- MAX_NODESET_SIZE: `NodeSetSize::MAX`. -/
def maxNodesetSize : Nat := 128

inductive NodeSelectorError
  | insufficientNodes (nodesetLen : Nat) (replicationFactor : Nat)
  | nodeLocationMissing (nodeId : PlainNodeId) (replication : ReplicationProperty)
  | incompleteNodeLocation (nodeId : PlainNodeId) (location : NodeLocation) (missingScope : LocationScope)
      (replication : ReplicationProperty)

inductive DomainPath
  | root
  | specific (domain : String)
  deriving DecidableEq

/-- The options `select` reads, with the two hashes standing for `hash_node_id` and `hash_domain`. -/
structure NodeSetSelectorOptions where
  targetSize : Nat
  topPriorityNode : Option PlainNodeId
  preferredNodes : Option NodeSet
  hashNodeId : PlainNodeId → UInt64
  hashDomain : DomainPath → UInt64

inductive CandidatePriority
  | top
  | preferred
  | normal
  deriving DecidableEq

structure CandidateNode where
  nodeId : PlainNodeId
  selectionPriority : CandidatePriority
  hash : UInt64
  isWriteable : Bool
  deriving DecidableEq

/-- `Ord for CandidateNode`: by hash, a preferred node above a normal one, the top-priority node
above all. -/
def CandidateNode.cmp (self other : CandidateNode) : Ordering :=
  match self.selectionPriority, other.selectionPriority with
  | .normal, .normal | .preferred, .preferred => compare self.hash other.hash
  | .preferred, .normal => .gt
  | .normal, .preferred => .lt
  | .top, _ => .gt
  | _, .top => .lt

structure Domain where
  candidates : List CandidateNode
  priority : UInt64
  isTopPriority : Bool
  numWriteableNodesPicked : Nat
  numTotalPicked : Nat

namespace Domain

def new (priority : UInt64) : Domain := ⟨[], priority, false, 0, 0⟩

def countPicked (domain : Domain) (writeable : Bool) : Nat :=
  if writeable then domain.numWriteableNodesPicked else domain.numTotalPicked

/-- A candidate pushed into the domain, which becomes top-priority with the top-priority node. -/
def push (domain : Domain) (candidate : CandidateNode) : Domain :=
  { domain with
    candidates := domain.candidates ++ [candidate]
    isTopPriority := if candidate.selectionPriority = .top then true else domain.isTopPriority }

/-- The last candidate popped, with the counters moved past it. -/
def pick (domain : Domain) (node : CandidateNode) : Domain :=
  { domain with
    candidates := domain.candidates.dropLast
    numTotalPicked := domain.numTotalPicked + 1
    isTopPriority := if node.selectionPriority = .top then false else domain.isTopPriority
    numWriteableNodesPicked := domain.numWriteableNodesPicked + if node.isWriteable then 1 else 0 }

/-- The domain as the turn sees it: the second phase first drops the unwriteable candidates. -/
def retain (writeableOnly : Bool) (domain : Domain) : Domain :=
  if writeableOnly then { domain with candidates := domain.candidates.filter (·.isWriteable) } else domain

end Domain

/-- `Ord for OrdDomain`: a top-priority domain above all, then the domain with the fewest picked
nodes, then the higher hash priority (the counts reversed, for a max-heap). -/
def ordDomainCmp (ordByWriteable : Bool) (self other : Domain) : Ordering :=
  match self.isTopPriority, other.isTopPriority with
  | true, _ => .gt
  | _, true => .lt
  | _, _ => (compare (other.countPicked ordByWriteable) (self.countPicked ordByWriteable)).then
      (compare other.priority self.priority)

namespace ReplicationProperty

/-- `distinct_replication_factors`, walking the scopes `next_smaller_scope` gives from root, and
keeping a scope whose factor differs from the last one kept. -/
def distinctReplicationFactors (replication : ReplicationProperty) : List (LocationScope × Nat) :=
  go [.region, .zone, .node] 0
where
  go : List LocationScope → Nat → List (LocationScope × Nat)
    | [], _ => []
    | scope :: rest, prevFactor =>
      match replication.factors scope with
      | none => go rest prevFactor
      | some factor => if factor = prevFactor then go rest prevFactor else (scope, factor) :: go rest factor

end ReplicationProperty

namespace NodeSetSelector

/-- The scope to replicate across and the minimum nodes per domain: root with the node-level
factor, or the widest scope with the spread between the widest and the narrowest factor. -/
def replicateAcross (replication : ReplicationProperty) : Option (LocationScope × Nat) := do
  let replicationFactors := replication.distinctReplicationFactors
  let (replicateAcrossScope, factor) ← replicationFactors.head?
  if replicateAcrossScope = .node then pure (.root, factor)
  else
    let (_, last) ← replicationFactors.getLast?
    pure (replicateAcrossScope, ((last + 2 ^ 32 - factor) % 2 ^ 32 + 1) % 2 ^ 32)

/-- `min_total_nodes`: the target size, at least `2 * num_copies - 1` and `num_copies + 1`. -/
def minTotalNodes (targetSize numCopies : Nat) : Nat :=
  max (numCopies + 1) (max targetSize ((numCopies * 2 + 2 ^ 32 - 1) % 2 ^ 32))

/-- The candidate pushed into the domain of its path, a new one hashed from the path if there is
none yet (`entry(..).or_insert_with_key`). -/
def pushCandidate (hashDomain : DomainPath → UInt64) (path : DomainPath) (candidate : CandidateNode) :
    List (DomainPath × Domain) → List (DomainPath × Domain)
  | [] => [(path, (Domain.new (hashDomain path)).push candidate)]
  | (key, domain) :: rest =>
    if key = path then (key, domain.push candidate) :: rest
    else (key, domain) :: pushCandidate hashDomain path candidate rest

/-- The domain a candidate goes to: the root, or its location's domain at the scope replicated
across, which the location must define. -/
def domainPathOf (replication : ReplicationProperty) (replicateAcrossScope : LocationScope)
    (nodeId : PlainNodeId) (nodeConfig : NodeConfig) : Except NodeSelectorError DomainPath :=
  if replicateAcrossScope = .root then pure .root
  else if nodeConfig.location.isEmpty then throw (.nodeLocationMissing nodeId replication)
  else if !nodeConfig.location.isScopeDefined replicateAcrossScope then
    throw (.incompleteNodeLocation nodeId nodeConfig.location replicateAcrossScope replication)
  else pure (.specific (nodeConfig.location.domainString replicateAcrossScope none))

/-- The candidate a node makes: top-priority, preferred or normal, hashed by the options. -/
def candidateOf (options : NodeSetSelectorOptions) (isWriteable : PlainNodeId → NodeConfig → Bool)
    (nodeId : PlainNodeId) (nodeConfig : NodeConfig) : CandidateNode :=
  let selectionPriority :=
    if options.topPriorityNode = some nodeId then CandidatePriority.top
    else if options.preferredNodes.any (fun preferred => decide (nodeId ∈ preferred.nodes)) then .preferred
    else .normal
  ⟨nodeId, selectionPriority, options.hashNodeId nodeId, isWriteable nodeId nodeConfig⟩

/-- One node of the first loop: a candidate goes into the domain of its path. -/
def collectNode (replication : ReplicationProperty) (replicateAcrossScope : LocationScope)
    (isCandidate isWriteable : PlainNodeId → NodeConfig → Bool) (options : NodeSetSelectorOptions)
    (domains : List (DomainPath × Domain)) (node : PlainNodeId × NodeConfig) :
    Except NodeSelectorError (List (DomainPath × Domain)) := do
  let (nodeId, nodeConfig) := node
  if !isCandidate nodeId nodeConfig then return domains
  let domainPath ← domainPathOf replication replicateAcrossScope nodeId nodeConfig
  pure (pushCandidate options.hashDomain domainPath (candidateOf options isWriteable nodeId nodeConfig) domains)

/-- Each domain's candidates in `CandidateNode` order. `sort` is stable, as sorting by insertion
is. -/
def sortCandidates (domain : Domain) : Domain :=
  { domain with candidates := domain.candidates.insertionSort fun a b => a.cmp b ≠ .gt }

/-- The state of `choose_domains`: the heap, the domains out of it, the nodeset and the nodes
counted as picked so far. -/
structure ChooseState where
  queue : List Domain
  done : List Domain
  output : NodeSet
  pickedSoFar : Nat

/-- How one turn of the loop ends. -/
inductive Turn
  | stop (domains : List Domain) (output : NodeSet)
  | next (state : ChooseState)
  | panic

/-- The node taken from the back of the domain into the nodeset; the domain goes back on the heap
while it has candidates. -/
def ChooseState.pickNode (state : ChooseState) (rest : List Domain) (domain : Domain)
    (node : CandidateNode) : ChooseState :=
  let domain := domain.pick node
  let state := { state with
    output := (state.output.insert node.nodeId).1, pickedSoFar := state.pickedSoFar + 1 }
  if domain.candidates = [] then { state with queue := rest, done := domain :: state.done }
  else { state with queue := rest ++ [domain] }

/-- One turn of `while let Some(domain) = queue.pop()`. -/
def chooseTurn (order : PopOrder Domain) (writeableOnly : Bool) (minNodesPerDomain minTotalNodes : Nat)
    (step : Nat) (state : ChooseState) : Turn :=
  match order.pop step state.queue with
  | none => .stop (state.queue ++ state.done) state.output
  | some (domain, rest) =>
    let stopped := Turn.stop (domain :: rest ++ state.done) state.output
    if minNodesPerDomain ≤ domain.countPicked writeableOnly ∧ minTotalNodes ≤ state.pickedSoFar then stopped
    else if maxNodesetSize ≤ state.output.nodes.length then stopped
    else if !writeableOnly ∧ maxNodesetSize / 2 ≤ state.output.nodes.length then stopped
    else
      let domain := domain.retain writeableOnly
      if writeableOnly ∧ domain.candidates = [] then .next { state with queue := rest, done := domain :: state.done }
      else
        match domain.candidates.getLast? with
        | none => .panic
        | some node => .next (state.pickNode rest domain node)

def chooseLoop (order : PopOrder Domain) (writeableOnly : Bool) (minNodesPerDomain minTotalNodes : Nat) :
    Nat → Nat → ChooseState → Option (List Domain × NodeSet)
  | 0, _, _ => none
  | fuel + 1, step, state =>
    match chooseTurn order writeableOnly minNodesPerDomain minTotalNodes step state with
    | .stop domains output => some (domains, output)
    | .next state => chooseLoop order writeableOnly minNodesPerDomain minTotalNodes fuel (step + 1) state
    | .panic => none

/-- The candidates left in some domains. -/
def candidateCount (domains : List Domain) : Nat := (domains.map fun domain => domain.candidates.length).sum

/-- `choose_domains(writeable_only)`: the heap of the domains that have candidates left, popped
until the loop breaks; the fuel is more than the turns the loop can take. -/
def chooseDomains (order : PopOrder Domain) (writeableOnly : Bool) (minNodesPerDomain minTotalNodes : Nat)
    (domains : List Domain) (output : NodeSet) : Option (List Domain × NodeSet) :=
  let queue := domains.filter fun domain => !domain.candidates.isEmpty
  chooseLoop order writeableOnly minNodesPerDomain minTotalNodes (queue.length + candidateCount queue + 1) 0
    ⟨queue, domains.filter (·.candidates.isEmpty), output,
      (domains.map fun domain => domain.countPicked writeableOnly).sum⟩

end NodeSetSelector

open NodeSetSelector in
/-- `DomainAwareNodeSetSelector::select`, with the pop orders of the two heaps. -/
def DomainAwareNodeSetSelector.select (nodes : List (PlainNodeId × NodeConfig))
    (replication : ReplicationProperty) (isCandidate isWriteable : PlainNodeId → NodeConfig → Bool)
    (options : NodeSetSelectorOptions) (orderAll orderWriteable : PopOrder Domain) :
    Option (Except NodeSelectorError NodeSet) := do
  let (replicateAcrossScope, minNodesPerDomain) ← replicateAcross replication
  let numCopies ← replication.numCopies
  let minTotalNodes := minTotalNodes options.targetSize numCopies
  match nodes.foldlM (collectNode replication replicateAcrossScope isCandidate isWriteable options) [] with
  | .error error => pure (.error error)
  | .ok domains =>
    let domains := domains.map fun entry => sortCandidates entry.2
    let (domains, output) ← chooseDomains orderAll false minNodesPerDomain minTotalNodes domains NodeSet.empty
    let (_, output) ← chooseDomains orderWriteable true minNodesPerDomain minTotalNodes domains output
    if output.nodes.length < numCopies then pure (.error (.insufficientNodes output.nodes.length numCopies))
    else pure (.ok output)

end Restate
