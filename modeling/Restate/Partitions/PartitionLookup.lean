import Restate.Partitions.PartitionTable

/-! Partition lookup is exact on every table the builder or deserialization produces: the
partitions' key ranges are pairwise disjoint, the index holds exactly their end keys, and so the
first index entry at or after a key names the only partition that can hold it. The overlap checks
of add_partition probe the index twice, and they find every overlap only because the table they
probe is already disjoint. -/

namespace Restate

/-- The representation invariant of a partition table, over its entries. -/
structure TableInvariant (table : PartitionTable) : Prop where
  ordered : ∀ entry ∈ table.partitions.entries, entry.2.keyRange.start ≤ entry.2.keyRange.end
  disjoint : ∀ a ∈ table.partitions.entries, ∀ b ∈ table.partitions.entries, a.1 ≠ b.1 →
    a.2.keyRange.end < b.2.keyRange.start ∨ b.2.keyRange.end < a.2.keyRange.start
  indexed : ∀ key partitionId, (key, partitionId) ∈ table.partitionKeyIndex.entries ↔
    ∃ partition, (partitionId, partition) ∈ table.partitions.entries ∧ partition.keyRange.end = key

/-- What lookup is for: disjoint partitions, an index of exactly their end keys, and a key found
exactly in the partition whose range holds it. -/
structure LookupExact (table : PartitionTable) : Prop where
  disjoint : ∀ id₁ id₂ partition₁ partition₂, table.partitions.get? id₁ = some partition₁ →
    table.partitions.get? id₂ = some partition₂ → id₁ ≠ id₂ →
    partition₁.keyRange.end < partition₂.keyRange.start ∨
      partition₂.keyRange.end < partition₁.keyRange.start
  indexExact : ∀ key partitionId, table.partitionKeyIndex.get? key = some partitionId ↔
    ∃ partition, table.partitions.get? partitionId = some partition ∧
      partition.keyRange.end = key
  findExact : ∀ key partitionId, table.findPartitionId key = .ok partitionId ↔
    ∃ partition, table.partitions.get? partitionId = some partition ∧
      partition.keyRange.start ≤ key ∧ key ≤ partition.keyRange.end

theorem tableInvariant_empty : TableInvariant PartitionTable.empty :=
  ⟨by simp [PartitionTable.empty], by simp [PartitionTable.empty],
    by simp [PartitionTable.empty]⟩

namespace TableInvariant

variable {table : PartitionTable}

theorem id_eq_of_end_eq (inv : TableInvariant table) {a b : PartitionId × Partition}
    (memberA : a ∈ table.partitions.entries) (memberB : b ∈ table.partitions.entries)
    (sameEnd : a.2.keyRange.end = b.2.keyRange.end) : a.1 = b.1 := by
  by_contra different
  have orderedA := inv.ordered a memberA
  have orderedB := inv.ordered b memberB
  rcases inv.disjoint a memberA b memberB different with before | after
  · omega
  · omega

theorem firstFrom?_holds (inv : TableInvariant table) {key endKey : Nat}
    {candidate : PartitionId} {partition : Partition}
    (found : table.partitionKeyIndex.firstFrom? key = some (endKey, candidate))
    {holder : PartitionId × Partition} (member : holder ∈ table.partitions.entries)
    (atOrAfterStart : holder.2.keyRange.start ≤ key) (atOrBeforeEnd : key ≤ holder.2.keyRange.end)
    (candidateMember : (candidate, partition) ∈ table.partitions.entries) :
    holder = (candidate, partition) := by
  obtain ⟨indexedCandidate, -, least⟩ := OrdMap.firstFrom?_some found
  obtain ⟨candidatePartition, candidateIn, candidateEnd⟩ :=
    (inv.indexed endKey candidate).mp indexedCandidate
  have same := OrdMap.eq_of_key_eq table.partitions.sorted candidateIn candidateMember rfl
  cases same
  have holderIndexed := (inv.indexed holder.2.keyRange.end holder.1).mpr ⟨holder.2, member, rfl⟩
  have endLe : endKey ≤ holder.2.keyRange.end := least _ holderIndexed atOrBeforeEnd
  by_contra different
  have differentIds : holder.1 ≠ candidate := fun same =>
    different (OrdMap.eq_of_key_eq table.partitions.sorted member candidateMember same)
  have keyLe : key ≤ endKey := (OrdMap.firstFrom?_some found).2.1
  have orderedCandidate := inv.ordered _ candidateMember
  rcases inv.disjoint holder member _ candidateMember differentIds with before | after
  · simp only at before orderedCandidate candidateEnd
    omega
  · simp only at after orderedCandidate candidateEnd
    omega

theorem lookupExact (inv : TableInvariant table) : LookupExact table := by
  refine ⟨?_, ?_, ?_⟩
  · intro id₁ id₂ partition₁ partition₂ found₁ found₂ different
    exact inv.disjoint _ (OrdMap.get?_eq_some_iff.mp found₁) _ (OrdMap.get?_eq_some_iff.mp found₂)
      different
  · intro key partitionId
    simp only [OrdMap.get?_eq_some_iff]
    exact inv.indexed key partitionId
  · intro key partitionId
    constructor
    · intro found
      unfold PartitionTable.findPartitionId at found
      split at found
      · cases found
      · next endKey candidate located =>
        split at found
        · next partition fetched =>
          split at found
          · next holds =>
            cases found
            obtain ⟨indexed, atOrAfter, -⟩ := OrdMap.firstFrom?_some located
            obtain ⟨indexedPartition, member, endEq⟩ := (inv.indexed endKey partitionId).mp indexed
            have same := OrdMap.eq_of_key_eq table.partitions.sorted member
              (OrdMap.get?_eq_some_iff.mp fetched) rfl
            cases same
            exact ⟨partition, fetched, holds, endEq ▸ atOrAfter⟩
          · cases found
        · cases found
    · rintro ⟨partition, fetched, atOrAfterStart, atOrBeforeEnd⟩
      have member := OrdMap.get?_eq_some_iff.mp fetched
      have indexed := (inv.indexed partition.keyRange.end partitionId).mpr ⟨partition, member, rfl⟩
      -- the index has an entry at or after the key: the partition's own end key
      cases located : table.partitionKeyIndex.firstFrom? key with
      | none => exact absurd (OrdMap.firstFrom?_none located _ indexed) (not_lt.mpr atOrBeforeEnd)
      | some entry =>
        obtain ⟨endKey, candidate⟩ := entry
        obtain ⟨indexedCandidate, -, -⟩ := OrdMap.firstFrom?_some located
        obtain ⟨candidatePartition, candidateMember, -⟩ :=
          (inv.indexed endKey candidate).mp indexedCandidate
        have same := inv.firstFrom?_holds located member atOrAfterStart atOrBeforeEnd
          candidateMember
        cases same
        simp [PartitionTable.findPartitionId, located, fetched, atOrAfterStart]

theorem clear_of_probes (inv : TableInvariant table) {partition : Partition}
    (fromEnd : table.partitionKeyIndex.firstFrom? partition.keyRange.end = none ∨
      ∃ endKey partitionId following,
        table.partitionKeyIndex.firstFrom? partition.keyRange.end = some (endKey, partitionId) ∧
        table.partitions.get? partitionId = some following ∧
        partition.keyRange.end < following.keyRange.start)
    (inside : table.partitionKeyIndex.firstIn? partition.keyRange.start partition.keyRange.end =
      none) :
    ∀ other ∈ table.partitions.entries, other.2.keyRange.end < partition.keyRange.start ∨
      partition.keyRange.end < other.2.keyRange.start := by
  intro other member
  by_contra overlapping
  simp only [not_or, not_lt] at overlapping
  obtain ⟨startLe, otherStartLe⟩ := overlapping
  have otherIndexed := (inv.indexed other.2.keyRange.end other.1).mpr ⟨other.2, member, rfl⟩
  have endLe : partition.keyRange.end ≤ other.2.keyRange.end :=
    OrdMap.firstIn?_none inside _ otherIndexed startLe
  rcases fromEnd with none | ⟨endKey, partitionId, following, located, fetched, after⟩
  · exact absurd (OrdMap.firstFrom?_none none _ otherIndexed) (not_lt.mpr endLe)
  · -- the first probe found the partition of the least end key at or after the new end
    obtain ⟨indexedFollowing, -, least⟩ := OrdMap.firstFrom?_some located
    have endKeyLe : endKey ≤ other.2.keyRange.end := least _ otherIndexed endLe
    obtain ⟨followingPartition, followingMember, followingEnd⟩ :=
      (inv.indexed endKey partitionId).mp indexedFollowing
    have same := OrdMap.eq_of_key_eq table.partitions.sorted followingMember
      (OrdMap.get?_eq_some_iff.mp fetched) rfl
    cases same
    have orderedFollowing := inv.ordered _ followingMember
    by_cases sameId : other.1 = partitionId
    · have isFollowing := OrdMap.eq_of_key_eq table.partitions.sorted member followingMember sameId
      rw [isFollowing] at otherStartLe
      simp only at otherStartLe
      omega
    · rcases inv.disjoint other member _ followingMember sameId with before | behind
      · simp only at before orderedFollowing followingEnd
        omega
      · simp only at behind orderedFollowing followingEnd
        omega

theorem insert (inv : TableInvariant table) {partition : Partition}
    (fresh : table.partitions.get? partition.partitionId = none)
    (ordered : partition.keyRange.start ≤ partition.keyRange.end)
    (clear : ∀ other ∈ table.partitions.entries, other.2.keyRange.end < partition.keyRange.start ∨
      partition.keyRange.end < other.2.keyRange.start) :
    TableInvariant ⟨table.partitions.insert partition.partitionId partition,
      table.partitionKeyIndex.insert partition.keyRange.end partition.partitionId⟩ := by
  have otherId : ∀ other ∈ table.partitions.entries, other.1 ≠ partition.partitionId :=
    fun other member same => by
      rw [← same, OrdMap.get?_eq_some_iff.mpr member] at fresh
      cases fresh
  have otherEnd : ∀ other ∈ table.partitions.entries,
      other.2.keyRange.end ≠ partition.keyRange.end := fun other member => by
    have otherOrdered := inv.ordered other member
    rcases clear other member with before | behind
    · omega
    · omega
  refine ⟨?_, ?_, ?_⟩
  · intro entry member
    rcases OrdMap.mem_insert_iff.mp member with rfl | ⟨old, -⟩
    · exact ordered
    · exact inv.ordered entry old
  · intro a memberA b memberB different
    rcases OrdMap.mem_insert_iff.mp memberA with rfl | ⟨oldA, -⟩ <;>
      rcases OrdMap.mem_insert_iff.mp memberB with rfl | ⟨oldB, -⟩
    · exact absurd rfl different
    · exact (clear b oldB).symm
    · exact clear a oldA
    · exact inv.disjoint a oldA b oldB different
  · intro key partitionId
    simp only [OrdMap.mem_insert_iff, Prod.mk.injEq]
    constructor
    · rintro (⟨rfl, rfl⟩ | ⟨old, -⟩)
      · exact ⟨partition, .inl ⟨rfl, rfl⟩, rfl⟩
      · obtain ⟨indexedPartition, member, endEq⟩ := (inv.indexed key partitionId).mp old
        exact ⟨indexedPartition, .inr ⟨member, otherId _ member⟩, endEq⟩
    · rintro ⟨indexedPartition, ⟨rfl, rfl⟩ | ⟨member, -⟩, rfl⟩
      · exact .inl ⟨rfl, rfl⟩
      · exact .inr ⟨(inv.indexed _ partitionId).mpr ⟨indexedPartition, member, rfl⟩,
          otherEnd _ member⟩

theorem erase (inv : TableInvariant table) {partitionId : PartitionId} {partition : Partition}
    (found : table.partitions.get? partitionId = some partition) :
    TableInvariant ⟨table.partitions.erase partitionId,
      table.partitionKeyIndex.erase partition.keyRange.end⟩ := by
  have member := OrdMap.get?_eq_some_iff.mp found
  refine ⟨fun entry kept => inv.ordered entry (OrdMap.mem_erase_iff.mp kept).1,
    fun a keptA b keptB => inv.disjoint a (OrdMap.mem_erase_iff.mp keptA).1 b
      (OrdMap.mem_erase_iff.mp keptB).1, ?_⟩
  intro key otherId
  simp only [OrdMap.mem_erase_iff]
  constructor
  · rintro ⟨indexed, otherKey⟩
    obtain ⟨other, otherMember, rfl⟩ := (inv.indexed key otherId).mp indexed
    refine ⟨other, ⟨otherMember, fun same => otherKey ?_⟩, rfl⟩
    have isErased := OrdMap.eq_of_key_eq table.partitions.sorted otherMember member same
    simp only [Prod.mk.injEq] at isErased
    rw [isErased.2]
  · rintro ⟨other, ⟨otherMember, notErased⟩, rfl⟩
    exact ⟨(inv.indexed _ otherId).mpr ⟨other, otherMember, rfl⟩,
      fun sameEnd => notErased (inv.id_eq_of_end_eq otherMember member sameEnd)⟩

end TableInvariant

namespace PartitionTableBuilder

variable {builder next : PartitionTableBuilder} {partition : Partition}
  {result : Except PartitionTableBuilderError Unit}

theorem insertIfClear_invariant (inv : TableInvariant builder.inner)
    (fresh : builder.inner.partitions.get? partition.partitionId = none)
    (fromEnd : builder.inner.partitionKeyIndex.firstFrom? partition.keyRange.end = none ∨
      ∃ endKey partitionId following,
        builder.inner.partitionKeyIndex.firstFrom? partition.keyRange.end =
          some (endKey, partitionId) ∧
        builder.inner.partitions.get? partitionId = some following ∧
        partition.keyRange.end < following.keyRange.start)
    (inserted : builder.insertIfClear partition = some (next, result)) :
    TableInvariant next.inner := by
  unfold insertIfClear at inserted
  dsimp only at inserted
  split at inserted
  · cases inserted
  · next ordered =>
    split at inserted
    · cases inserted
      exact inv
    · next inside =>
      cases inserted
      exact inv.insert fresh (not_lt.mp ordered) (inv.clear_of_probes fromEnd inside)

theorem addPartition_invariant (inv : TableInvariant builder.inner)
    (added : builder.addPartition partition = some (next, result)) : TableInvariant next.inner := by
  unfold addPartition at added
  split at added
  · cases added
    exact inv
  · next notDuplicate =>
    have fresh : builder.inner.partitions.get? partition.partitionId = none :=
      Option.not_isSome_iff_eq_none.mp notDuplicate
    split at added
    · cases added
      exact inv
    · dsimp only at added
      split at added
      · next endKey partitionId located =>
        split at added
        · cases added
        · next following fetched =>
          split at added
          · cases added
            exact inv
          · next after =>
            exact insertIfClear_invariant inv fresh
              (.inr ⟨endKey, partitionId, following, located, fetched, not_le.mp after⟩) added
      · next located => exact insertIfClear_invariant inv fresh (.inl located) added

theorem removePartition_invariant (inv : TableInvariant builder.inner) (partitionId : PartitionId) :
    TableInvariant (builder.removePartition partitionId).inner := by
  unfold removePartition
  split
  · next partition found => exact inv.erase found
  · exact inv

theorem addPartitions_invariant : ∀ {builder next : PartitionTableBuilder}
    {partitions : List Partition}, TableInvariant builder.inner →
    builder.addPartitions partitions = some (next, result) → TableInvariant next.inner
  | builder, next, [], inv, added => by
    cases added
    exact inv
  | builder, next, partition :: rest, inv, added => by
    unfold addPartitions at added
    split at added
    · cases added
    · next middle e addedFirst =>
      cases added
      exact addPartition_invariant inv addedFirst
    · next middle addedFirst =>
      exact addPartitions_invariant (addPartition_invariant inv addedFirst) added

end PartitionTableBuilder

theorem tryFrom_invariant {shadow : PartitionTableShadow} {table : PartitionTable}
    (deserialized : PartitionTable.tryFrom shadow = some (.ok table)) : TableInvariant table := by
  have fromNew : ∀ {next : PartitionTableBuilder} {result} {partitions : List Partition},
      PartitionTableBuilder.new.addPartitions partitions = some (next, result) →
      TableInvariant next.inner := fun added =>
    PartitionTableBuilder.addPartitions_invariant tableInvariant_empty added
  unfold PartitionTable.tryFrom at deserialized
  obtain ⟨⟨builder, result⟩, added, built⟩ := Option.map_eq_some_iff.mp deserialized
  cases result with
  | error e => cases built
  | ok u =>
    cases built
    split at added
    · exact fromNew added
    · obtain ⟨partitions, -, addedAll⟩ := Option.bind_eq_some_iff.mp added
      exact fromNew addedAll

/-- The tables the partition table builder and deserialization produce. -/
inductive Produced : PartitionTable → Prop
  | empty : Produced PartitionTable.empty
  | deserialized {shadow : PartitionTableShadow} {table : PartitionTable} :
      PartitionTable.tryFrom shadow = some (.ok table) → Produced table
  | added {table : PartitionTable} {partition : Partition} {builder : PartitionTableBuilder}
      {result : Except PartitionTableBuilderError Unit} : Produced table →
      (PartitionTableBuilder.ofTable table).addPartition partition = some (builder, result) →
      Produced builder.build
  | removed {table : PartitionTable} {partitionId : PartitionId} : Produced table →
      Produced ((PartitionTableBuilder.ofTable table).removePartition partitionId).build

theorem Produced.invariant {table : PartitionTable} (produced : Produced table) :
    TableInvariant table := by
  induction produced with
  | empty => exact tableInvariant_empty
  | deserialized deserialized => exact tryFrom_invariant deserialized
  | added _ added ih => exact PartitionTableBuilder.addPartition_invariant ih added
  | removed _ ih => exact PartitionTableBuilder.removePartition_invariant ih _

theorem partition_lookup_exact {table : PartitionTable} (produced : Produced table) :
    LookupExact table :=
  produced.invariant.lookupExact

def holesFirst : PartitionTableBuilder :=
  ((PartitionTableBuilder.ofTable .empty).addPartition ⟨⟨0⟩, ⟨0, 1024⟩⟩).get (by decide) |>.1

/-- Two partitions with a hole between them, as in the partition table's tests. -/
def holesTable : PartitionTable :=
  ((PartitionTableBuilder.ofTable holesFirst.build).addPartition ⟨⟨1⟩, ⟨2048, 4096⟩⟩).get
    (by decide) |>.1 |>.build

theorem holesTable_lookupExact : LookupExact holesTable :=
  have first : Produced holesFirst.build := Produced.added Produced.empty (Option.some_get
    (by decide : ((PartitionTableBuilder.ofTable .empty).addPartition ⟨⟨0⟩, ⟨0, 1024⟩⟩).isSome)).symm
  partition_lookup_exact (Produced.added first (Option.some_get (by decide :
    ((PartitionTableBuilder.ofTable holesFirst.build).addPartition ⟨⟨1⟩, ⟨2048, 4096⟩⟩).isSome)).symm)

example : holesTable.findPartitionId 1024 = .ok ⟨0⟩ ∧
    holesTable.findPartitionId 1025 = .error ⟨1025⟩ := by
  decide

end Restate
