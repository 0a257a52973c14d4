import Restate.Ids.Generate
import Restate.Lib.Run

/-! What the deterministic invocation ids promise. An invocation id of an idempotent request lands
on the partition of the idempotency id built from the same request, and one of a keyed target on
the partition of its service id, whatever the flag and the random draws. The uuid of a
deterministic id hashes the request's fields joined by commas without escaping them, so two
requests whose fields differ only in where their commas fall are given one invocation id. -/

namespace Restate

/-- For every generator (the partitioner's hashes, SHA-256 and the controlled idempotent sharding
flag) and every random draw: InvocationId::generate(t, Some(k)) has the partition key of
IdempotencyId::new(t.service_name, t.key, t.handler_name, k, t.scope), which does not panic; and for
every keyed target t and any k, InvocationId::generate(t, k) has the partition key of
ServiceId::new(t.scope, t.service_name, t.key). -/
theorem partition_keys_agree (generator : InvocationId.Generator) (ulid : InvocationUuid)
    (bucket : Fin unscopedServicePartitionKeyFanout) :
    (∀ (target : InvocationTarget) (idempotencyKey : String),
      (IdempotencyId.new generator.partitioner generator.controlledSharding target.serviceName target.key
          target.handlerName idempotencyKey target.scope).map IdempotencyId.partitionKey =
        some (InvocationId.generate generator ulid bucket target (some idempotencyKey)).partitionKey) ∧
    (∀ (target : InvocationTarget) (key : String) (idempotencyKey : Option String), target.key = some key →
      (InvocationId.generate generator ulid bucket target idempotencyKey).partitionKey =
        (ServiceId.new generator.partitioner target.scope target.serviceName key).partitionKey) := by
  refine ⟨fun target idempotencyKey => ?_, fun target key idempotencyKey keyed => ?_⟩
  · -- the idempotency key makes a deterministic key, so the random fallback is never taken
    rw [IdempotencyId.new_partitionKey, InvocationId.generate, InvocationId.generateOrElse_partitionKey,
      Option.getD_or_of_isSome _ _ (deterministicPartitionKey_isSome _ _ _ _ _)]
  · -- the service key comes before the idempotency key
    rw [InvocationId.generate, InvocationId.generateOrElse_partitionKey, keyed, deterministicPartitionKey_of_key,
      Option.or_some_getD, ServiceId.new_partitionKey]

/-- A scoped virtual object with service key "a,h", handler "k" and idempotency key "z", and the
same object with key "a", handler "h" and idempotency key "k,z": both requests hash the bytes
`ik,<scope>,<name>,a,h,k,z`, and both take the scope's partition key. So for every generator, every
random draw, scope, service name and handler types, InvocationId::generate gives the two requests
one id, although their service keys, handlers and idempotency keys differ. -/
theorem comma_joined_fields_collide (generator : InvocationId.Generator) (ulid ulid' : InvocationUuid)
    (bucket bucket' : Fin unscopedServicePartitionKeyFanout) (scope : Scope) (name : String)
    (handlerTy handlerTy' : VirtualObjectHandlerType) :
    InvocationId.generate generator ulid bucket (.virtualObject name "a,h" "k" handlerTy (some scope)) (some "z") =
      InvocationId.generate generator ulid' bucket' (.virtualObject name "a" "h" handlerTy' (some scope)) (some "k,z") := by
  have keyBytes : utf8 "a,h" = utf8 "a" ++ [hashSeparator] ++ utf8 "h" := by decide +kernel
  have idempotencyBytes : utf8 "k,z" = utf8 "k" ++ [hashSeparator] ++ utf8 "z" := by decide +kernel
  simp only [InvocationId.generate, InvocationId.generateOrElse, InvocationUuid.generate, InvocationUuid.hashInput,
    InvocationTarget.invocationTargetTy, InvocationTarget.scope, InvocationTarget.serviceName, InvocationTarget.key,
    InvocationTarget.handlerName, keyBytes, idempotencyBytes, List.append_assoc, List.cons_append, List.nil_append]

end Restate
