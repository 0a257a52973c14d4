import Restate.Ids.Identifiers

/-! How identifiers.rs derives partition keys and invocation ids from an invocation target. A scoped
target takes the partition key of its scope; otherwise the key is the hash of the service key, or
of the idempotency key (or one of 512 per-service buckets chosen by that hash, when controlled
idempotent sharding is on), or a random one of the service's buckets. A workflow run and an
idempotent request get a deterministic uuid, the first 128 bits of the SHA-256 of their fields
joined by commas; any other request a random ULID.

The hasher of HashPartitioner, SHA-256 and the random choices are parameters. The hasher is given
by what it makes of the three kinds of values the source hashes: a string (a ByteString hashes as
its str), a scope, and the (service name, "unscoped/service", bucket) triple. -/

namespace Restate

/-- HashPartitioner::compute_partition_key at the types the source hashes. -/
structure HashPartitioner where
  computeStr : String → PartitionKey
  computeScope : Scope → PartitionKey
  computeBucket : String → Nat → PartitionKey

def Scope.partitionKey (partitioner : HashPartitioner) (scope : Scope) : PartitionKey :=
  partitioner.computeScope scope

inductive VirtualObjectHandlerType
  | exclusive
  | shared
  deriving DecidableEq, Repr

inductive WorkflowHandlerType
  | workflow
  | shared
  deriving DecidableEq, Repr

inductive InvocationTargetType
  | service
  | virtualObject (handlerTy : VirtualObjectHandlerType)
  | workflow (handlerTy : WorkflowHandlerType)
  deriving DecidableEq, Repr

/-- A ByteString is modelled by the string it holds. -/
inductive InvocationTarget
  | service (name handler : String) (scope : Option Scope)
  | virtualObject (name key handler : String) (handlerTy : VirtualObjectHandlerType) (scope : Option Scope)
  | workflow (name key handler : String) (handlerTy : WorkflowHandlerType) (scope : Option Scope)

namespace InvocationTarget

def scope : InvocationTarget → Option Scope
  | .service _ _ scope | .virtualObject _ _ _ _ scope | .workflow _ _ _ _ scope => scope

def serviceName : InvocationTarget → String
  | .service name _ _ | .virtualObject name _ _ _ _ | .workflow name _ _ _ _ => name

def key : InvocationTarget → Option String
  | .service _ _ _ => none
  | .virtualObject _ key _ _ _ | .workflow _ key _ _ _ => some key

def handlerName : InvocationTarget → String
  | .service _ handler _ | .virtualObject _ _ handler _ _ | .workflow _ _ handler _ _ => handler

def invocationTargetTy : InvocationTarget → InvocationTargetType
  | .service _ _ _ => .service
  | .virtualObject _ _ _ handlerTy _ => .virtualObject handlerTy
  | .workflow _ _ _ handlerTy _ => .workflow handlerTy

end InvocationTarget

def unscopedServicePartitionKeyFanout : Nat := 512

/-- One of the partition keys of an unscoped service: the hash of its name, a tag and the bucket. -/
def unscopedServicePartitionKey (partitioner : HashPartitioner) (serviceName : String) (bucket : Nat) :
    PartitionKey :=
  partitioner.computeBucket serviceName bucket

/-- The bucket is drawn uniformly below the fan-out; the draw is a parameter. -/
def randomUnscopedServicePartitionKey (partitioner : HashPartitioner) (serviceName : String)
    (bucket : Fin unscopedServicePartitionKeyFanout) : PartitionKey :=
  unscopedServicePartitionKey partitioner serviceName bucket

/-- The idempotency key's hash picks the bucket. -/
def unscopedIdempotentServicePartitionKey (partitioner : HashPartitioner) (serviceName idempotencyKey : String) :
    PartitionKey :=
  let intermittentKey := partitioner.computeStr idempotencyKey
  let bucket := intermittentKey.toNat % unscopedServicePartitionKeyFanout
  unscopedServicePartitionKey partitioner serviceName bucket

/-- deterministic_partition_key: the service key's hash, else the idempotency key's, with the
controlled idempotent sharding flag read at the call. -/
def deterministicPartitionKey (partitioner : HashPartitioner) (controlledSharding : Bool) (serviceName : String)
    (serviceKey idempotencyKey : Option String) : Option PartitionKey :=
  (serviceKey.map partitioner.computeStr).or
    (idempotencyKey.map fun idempotencyKey =>
      if controlledSharding then unscopedIdempotentServicePartitionKey partitioner serviceName idempotencyKey
      else partitioner.computeStr idempotencyKey)

structure ServiceId where
  serviceName : String
  key : String
  partitionKey : PartitionKey
  scope : Option Scope

/-- ServiceId::new: the scope's partition key, else the hash of the key. -/
def ServiceId.new (partitioner : HashPartitioner) (scope : Option Scope) (serviceName key : String) : ServiceId :=
  let partitionKey := (scope.map (Scope.partitionKey partitioner)).getD (partitioner.computeStr key)
  ⟨serviceName, key, partitionKey, scope⟩

structure IdempotencyId where
  serviceName : String
  serviceKey : Option String
  serviceHandler : String
  idempotencyKey : String
  scope : Option Scope
  partitionKey : PartitionKey

/-- IdempotencyId::new: the scope's partition key, else the deterministic one; the expect is a
panic, `none`. -/
def IdempotencyId.new (partitioner : HashPartitioner) (controlledSharding : Bool) (serviceName : String)
    (serviceKey : Option String) (serviceHandler idempotencyKey : String) (scope : Option Scope) :
    Option IdempotencyId := do
  let partitionKey ← (scope.map (Scope.partitionKey partitioner)).or
    (deterministicPartitionKey partitioner controlledSharding serviceName serviceKey (some idempotencyKey))
  pure ⟨serviceName, serviceKey, serviceHandler, idempotencyKey, scope, partitionKey⟩

/-- HASH_SEPARATOR, a comma. -/
def hashSeparator : UInt8 := 0x2c

namespace InvocationUuid

/-- The separator and the scope's bytes, for a scoped target. -/
def scopeInput : Option Scope → List UInt8
  | some scope => hashSeparator :: utf8 scope.value
  | none => []

/-- The bytes InvocationUuid::generate hashes: for a workflow run its tag, scope, service name and
key; for an idempotent request its tag, scope, service name, key, handler and idempotency key,
each after a comma. Other requests are not hashed. A workflow target always has a key, so the
expect does not fire. -/
def hashInput (target : InvocationTarget) (idempotencyKey : Option String) : Option (List UInt8) :=
  match idempotencyKey, target.invocationTargetTy with
  | _, .workflow .workflow =>
    some (utf8 "wf" ++ scopeInput target.scope ++ hashSeparator :: utf8 target.serviceName ++
      hashSeparator :: utf8 (target.key.getD ""))
  | some idempotencyKey, _ =>
    some (utf8 "ik" ++ scopeInput target.scope ++ hashSeparator :: utf8 target.serviceName ++
      (match target.key with
        | some key => hashSeparator :: utf8 key
        | none => []) ++
      hashSeparator :: utf8 target.handlerName ++ hashSeparator :: utf8 idempotencyKey)
  | _, _ => none

/-- The first 128 bits of a digest, big-endian. -/
def ofDigest (digest : List UInt8) : InvocationUuid := ⟨BitVec.ofNat 128 (BigEndian.decode (digest.take 16))⟩

/-- InvocationUuid::generate: the SHA-256 of the hash input, else a fresh ULID (a parameter). -/
def generate (sha256 : List UInt8 → List UInt8) (ulid : InvocationUuid) (target : InvocationTarget)
    (idempotencyKey : Option String) : InvocationUuid :=
  match hashInput target idempotencyKey with
  | some input => ofDigest (sha256 input)
  | none => ulid

end InvocationUuid

namespace InvocationId

/-- The hashes and the sharding flag that generating an invocation id reads. -/
structure Generator where
  partitioner : HashPartitioner
  controlledSharding : Bool
  sha256 : List UInt8 → List UInt8

/-- InvocationId::generate_or_else: the scope's partition key, else the deterministic one, else the
fallback's; the uuid from InvocationUuid::generate. -/
def generateOrElse (generator : Generator) (ulid : InvocationUuid) (target : InvocationTarget)
    (idempotencyKey : Option String) (fallback : PartitionKey) : InvocationId :=
  let partitionKey :=
    match target.scope with
    | some scope => scope.partitionKey generator.partitioner
    | none =>
      (deterministicPartitionKey generator.partitioner generator.controlledSharding target.serviceName target.key
        idempotencyKey).getD fallback
  ⟨partitionKey, InvocationUuid.generate generator.sha256 ulid target idempotencyKey⟩

/-- InvocationId::generate: the fallback is a random bucket of the service. -/
def generate (generator : Generator) (ulid : InvocationUuid) (bucket : Fin unscopedServicePartitionKeyFanout)
    (target : InvocationTarget) (idempotencyKey : Option String) : InvocationId :=
  generateOrElse generator ulid target idempotencyKey
    (randomUnscopedServicePartitionKey generator.partitioner target.serviceName bucket)

theorem generateOrElse_partitionKey (generator : Generator) (ulid : InvocationUuid) (target : InvocationTarget)
    (idempotencyKey : Option String) (fallback : PartitionKey) :
    (generateOrElse generator ulid target idempotencyKey fallback).partitionKey =
      ((target.scope.map (Scope.partitionKey generator.partitioner)).or
        (deterministicPartitionKey generator.partitioner generator.controlledSharding target.serviceName target.key
          idempotencyKey)).getD fallback := by
  unfold generateOrElse
  cases target.scope <;> rfl

end InvocationId

theorem deterministicPartitionKey_of_key (partitioner : HashPartitioner) (controlledSharding : Bool)
    (serviceName key : String) (idempotencyKey : Option String) :
    deterministicPartitionKey partitioner controlledSharding serviceName (some key) idempotencyKey =
      some (partitioner.computeStr key) :=
  rfl

theorem deterministicPartitionKey_isSome (partitioner : HashPartitioner) (controlledSharding : Bool)
    (serviceName : String) (serviceKey : Option String) (idempotencyKey : String) :
    (deterministicPartitionKey partitioner controlledSharding serviceName serviceKey (some idempotencyKey)).isSome := by
  cases serviceKey <;> simp [deterministicPartitionKey]

theorem IdempotencyId.new_partitionKey (partitioner : HashPartitioner) (controlledSharding : Bool)
    (serviceName : String) (serviceKey : Option String) (serviceHandler idempotencyKey : String)
    (scope : Option Scope) :
    (IdempotencyId.new partitioner controlledSharding serviceName serviceKey serviceHandler idempotencyKey scope).map
        IdempotencyId.partitionKey =
      (scope.map (Scope.partitionKey partitioner)).or
        (deterministicPartitionKey partitioner controlledSharding serviceName serviceKey (some idempotencyKey)) := by
  unfold IdempotencyId.new
  cases (scope.map (Scope.partitionKey partitioner)).or
    (deterministicPartitionKey partitioner controlledSharding serviceName serviceKey (some idempotencyKey)) <;> rfl

theorem ServiceId.new_partitionKey (partitioner : HashPartitioner) (scope : Option Scope) (serviceName key : String) :
    (ServiceId.new partitioner scope serviceName key).partitionKey =
      (scope.map (Scope.partitionKey partitioner)).getD (partitioner.computeStr key) :=
  rfl

end Restate
