import Restate.Logs.Builder
import Restate.Lib.Run

/-! The shape of a log chain under the chain builder: the chain is never empty, a seal marker can
only be its last segment, and segment indices increase along the chain, a seal marker sharing the
index of the segment it sealed or replaced. Index arithmetic is u32 arithmetic, so the order holds
for as long as the indices do not wrap. -/

namespace Restate

@[simp] theorem InternalKind.isSealMarker_iff (kind : InternalKind) :
    kind.isSealMarker = true ↔ kind = .sealed := by
  cases kind <;> simp [InternalKind.isSealMarker]

@[simp] theorem InternalKind.ofProviderKind_ne_sealed (kind : ProviderKind) :
    InternalKind.ofProviderKind kind ≠ .sealed := by
  cases kind <;> simp [InternalKind.ofProviderKind]

@[simp] theorem LogletConfig.new_kind (index : SegmentIndex) (kind : ProviderKind)
    (params : LogletParams) : (LogletConfig.new index kind params).kind = .ofProviderKind kind :=
  rfl

@[simp] theorem LogletConfig.new_index (index : SegmentIndex) (kind : ProviderKind)
    (params : LogletParams) : (LogletConfig.new index kind params).index = index :=
  rfl

theorem LogletConfig.newSealed_some {serde : Serde} {index : SegmentIndex}
    {metadata : SealMetadata} {marker : LogletConfig}
    (created : LogletConfig.newSealed serde index metadata = some marker) :
    marker.kind = .sealed ∧ marker.index = index := by
  obtain ⟨params, -, rfl⟩ := Option.map_eq_some_iff.mp created
  exact ⟨rfl, rfl⟩

theorem toNat_add_one_of_lt {index : UInt32} (fits : index.toNat + 1 < 2 ^ 32) :
    (index + 1).toNat = index.toNat + 1 := by
  rw [UInt32.toNat_add]
  simpa using Nat.mod_eq_of_lt fits

/-- Segment indices along a chain: strictly increasing, except that a seal marker may share the
index of the segment before it. -/
def IndexOrder (earlier later : Lsn × LogletConfig) : Prop :=
  earlier.2.index.val < later.2.index.val ∨
    later.2.kind = .sealed ∧ earlier.2.index.val = later.2.index.val

instance (earlier later : Lsn × LogletConfig) : Decidable (IndexOrder earlier later) :=
  inferInstanceAs (Decidable (_ < _ ∨ _ ∧ _))

theorem IndexOrder.toNat_le {earlier later : Lsn × LogletConfig} (ordered : IndexOrder earlier later) :
    earlier.2.index.val.toNat ≤ later.2.index.val.toNat := by
  rcases ordered with below | ⟨-, same⟩
  · exact (UInt32.lt_iff_toNat_lt.mp below).le
  · rw [same]

structure ChainInvariant (chain : Chain) : Prop where
  nonEmpty : chain.chain.entries ≠ []
  sealLast : ∀ entry ∈ chain.chain.entries.dropLast, entry.2.kind ≠ .sealed
  indexOrder : chain.chain.entries.Pairwise IndexOrder

/-- No segment index is above a bound; each builder call raises the bound by one. -/
def IndexBound (bound : Nat) (chain : Chain) : Prop :=
  ∀ entry ∈ chain.chain.entries, entry.2.index.val.toNat ≤ bound

theorem IndexBound.mono {bound bound' : Nat} {chain : Chain} (bounded : IndexBound bound chain)
    (raised : bound ≤ bound') : IndexBound bound' chain :=
  fun entry member => (bounded entry member).trans raised

theorem chainInvariant_withBaseLsn (baseLsn : Lsn) (kind : ProviderKind) (params : LogletParams) :
    ChainInvariant (Chain.withBaseLsn baseLsn kind params) :=
  ⟨by simp [Chain.withBaseLsn], by simp [Chain.withBaseLsn], List.pairwise_singleton _ _⟩

theorem indexBound_withBaseLsn (baseLsn : Lsn) (kind : ProviderKind) (params : LogletParams) :
    IndexBound 0 (Chain.withBaseLsn baseLsn kind params) := by
  simp [IndexBound, Chain.withBaseLsn, LogletConfig.new, SegmentIndex.oldest]

theorem ChainInvariant.before_last {chain : Chain} {last : Lsn × LogletConfig}
    (inv : ChainInvariant chain) (found : chain.chain.lastKeyValue? = some last) :
    ∀ entry ∈ chain.chain.entries.dropLast, IndexOrder entry last := by
  have ordered := inv.indexOrder
  rw [OrdMap.lastKeyValue?_eq_some found, List.pairwise_append] at ordered
  exact fun entry member => ordered.2.2 entry member last (by simp)

theorem ChainInvariant.toNat_le_last {chain : Chain} {last : Lsn × LogletConfig}
    (inv : ChainInvariant chain) (found : chain.chain.lastKeyValue? = some last) :
    ∀ entry ∈ chain.chain.entries, entry.2.index.val.toNat ≤ last.2.index.val.toNat := by
  intro entry member
  rw [OrdMap.lastKeyValue?_eq_some found, List.mem_append] at member
  rcases member with earlier | isLast
  · exact (inv.before_last found entry earlier).toNat_le
  · rw [List.mem_singleton.mp isLast]

theorem chainInvariant_of_snoc {chain : Chain} {init : List (Lsn × LogletConfig)}
    {entry : Lsn × LogletConfig} (split : chain.chain.entries = init ++ [entry])
    (ordered : init.Pairwise IndexOrder) (unsealed : ∀ earlier ∈ init, earlier.2.kind ≠ .sealed)
    (before : ∀ earlier ∈ init, IndexOrder earlier entry) : ChainInvariant chain := by
  refine ⟨by simp [split], by rwa [split, List.dropLast_concat], ?_⟩
  rw [split, List.pairwise_append]
  refine ⟨ordered, List.pairwise_singleton _ _, fun earlier member isEntry found => ?_⟩
  rw [List.mem_singleton.mp found]
  exact before earlier member

theorem indexBound_of_snoc {chain : Chain} {init : List (Lsn × LogletConfig)}
    {entry : Lsn × LogletConfig} {bound : Nat} (split : chain.chain.entries = init ++ [entry])
    (initBound : ∀ earlier ∈ init, earlier.2.index.val.toNat ≤ bound)
    (entryBound : entry.2.index.val.toNat ≤ bound) : IndexBound bound chain := by
  intro earlier member
  rw [split, List.mem_append] at member
  rcases member with inInit | isEntry
  · exact initBound earlier inInit
  · rw [List.mem_singleton.mp isEntry]
    exact entryBound

namespace ChainBuilder

variable (serde : Serde)

theorem checkSealMarker_sealed {builder : ChainBuilder} {key baseLsn : Lsn} {last : LogletConfig}
    (checked : checkSealMarker serde builder key last baseLsn = .ok ()) (sealed : last.kind = .sealed) :
    baseLsn = key := by
  simp only [checkSealMarker, sealed, InternalKind.isSealMarker, if_true] at checked
  split at checked
  · cases checked
  · split at checked
    · cases checked
    · split at checked
      · cases checked
      · next same => exact not_not.mp same

theorem checkSealMarker_permanent {builder : ChainBuilder} {key baseLsn : Lsn}
    {last : LogletConfig} {sealMetadata : SealMetadata} (sealed : last.kind = .sealed)
    (decoded : serde.sealMetadata last.params = some sealMetadata)
    (permanent : sealMetadata.permanentSeal = true) :
    checkSealMarker serde builder key last baseLsn = .error (.chainPermanentlySealed builder.logId) := by
  simp [checkSealMarker, sealed, InternalKind.isSealMarker, decoded, permanent]

theorem appendSegment_chain {builder next : ChainBuilder} {baseLsn : Lsn}
    {provider : ProviderKind} {params : LogletParams} {result : Except BuilderError SegmentIndex}
    (appended : builder.appendSegment serde baseLsn provider params = some (next, result)) :
    next.inner = builder.inner ∨
      ∃ key last, builder.inner.chain.lastKeyValue? = some (key, last) ∧
        (last.kind ≠ .sealed ∧ key < baseLsn ∧
            next.inner.chain.entries = builder.inner.chain.entries ++
              [(baseLsn, .new ⟨last.index.val + 1⟩ provider params)] ∨
          next.inner.chain.entries = builder.inner.chain.entries.dropLast ++
              [(key, .new ⟨last.index.val + 1⟩ provider params)]) := by
  unfold appendSegment at appended
  split at appended
  · cases appended
  · next key last found =>
    split at appended
    · cases appended
      exact .inl rfl
    · next checked =>
      dsimp only at appended
      split at appended
      · next after =>
        split at appended
        · cases appended
          exact .inl rfl
        · cases appended
          refine .inr ⟨key, last, found, .inl ⟨fun sealed => ?_, after, ?_⟩⟩
          · -- after a seal marker only a replacement at its own LSN passes the check
            exact absurd (checkSealMarker_sealed serde checked sealed) (ne_of_gt after)
          · exact OrdMap.insert_of_lastKeyValue?_lt _ found after
      · split at appended
        · next same =>
          split at appended
          · cases appended
            exact .inl rfl
          · split at appended
            · cases appended
              exact .inl rfl
            · cases appended
              exact .inr ⟨key, last, found, .inr (OrdMap.insert_lastKeyValue? _ found)⟩
        · cases appended
          exact .inl rfl

theorem seal_chain {builder next : ChainBuilder} {tailLsn : Lsn} {metadata : SealMetadata}
    {result : Except BuilderError Lsn}
    (sealed : builder.seal serde tailLsn metadata = some (next, result)) :
    next.inner = builder.inner ∧
        ((∃ key last, builder.inner.chain.lastKeyValue? = some (key, last) ∧
            last.kind = .sealed ∧ result = .ok key) ∨ ∃ e, result = .error e) ∨
      ∃ key last marker, builder.inner.chain.lastKeyValue? = some (key, last) ∧
        last.kind ≠ .sealed ∧ marker.kind = .sealed ∧ marker.index = last.index ∧
        result = .ok tailLsn ∧
        (key < tailLsn ∧
            next.inner.chain.entries = builder.inner.chain.entries ++ [(tailLsn, marker)] ∨
          key = tailLsn ∧
            next.inner.chain.entries = builder.inner.chain.entries.dropLast ++ [(key, marker)]) := by
  unfold ChainBuilder.seal at sealed
  split at sealed
  · cases sealed
  · next key last found =>
    split at sealed
    · next isMarker =>
      cases sealed
      exact .inl ⟨rfl, .inl ⟨key, last, found, by simpa using isMarker, rfl⟩⟩
    · next notMarker =>
      have unsealed : last.kind ≠ .sealed := by simpa using notMarker
      split at sealed
      · next after =>
        split at sealed
        · cases sealed
          exact .inl ⟨rfl, .inr ⟨_, rfl⟩⟩
        · next marker created =>
          cases sealed
          obtain ⟨markerKind, markerIndex⟩ := LogletConfig.newSealed_some created
          exact .inr ⟨key, last, marker, found, unsealed, markerKind, markerIndex, rfl,
            .inl ⟨after, OrdMap.insert_of_lastKeyValue?_lt _ found after⟩⟩
      · split at sealed
        · next same =>
          split at sealed
          · cases sealed
            exact .inl ⟨rfl, .inr ⟨_, rfl⟩⟩
          · split at sealed
            · cases sealed
              exact .inl ⟨rfl, .inr ⟨_, rfl⟩⟩
            · next marker created =>
              cases sealed
              obtain ⟨markerKind, markerIndex⟩ := LogletConfig.newSealed_some created
              exact .inr ⟨key, last, marker, found, unsealed, markerKind, markerIndex, rfl,
                .inr ⟨same, OrdMap.insert_lastKeyValue? _ found⟩⟩
        · cases sealed
          exact .inl ⟨rfl, .inr ⟨_, rfl⟩⟩

theorem findSegmentForLsn_mem {chain : Chain} {lsn : Lsn} {segment : Segment}
    (found : chain.findSegmentForLsn lsn = some (.some segment)) :
    (segment.baseLsn, segment.config) ∈ chain.chain.entries := by
  unfold Chain.findSegmentForLsn at found
  dsimp only at found
  split at found
  · next baseLsn config located =>
    cases found
    exact (OrdMap.rfind_some located).1
  · obtain ⟨_, -, mapped⟩ := Option.map_eq_some_iff.mp found
    cases mapped

theorem trimPrefix_chain {builder next : ChainBuilder} {untilBaseLsn : Lsn}
    (trimmed : builder.trimPrefix serde untilBaseLsn = some next) :
    (∃ dropped, builder.inner.chain.entries = dropped ++ next.inner.chain.entries) ∧
      next.inner.chain.lastKeyValue? = builder.inner.chain.lastKeyValue? := by
  unfold trimPrefix at trimmed
  split at trimmed
  · cases trimmed
  · cases trimmed
    exact ⟨⟨[], rfl⟩, rfl⟩
  · next segment found =>
    have member := findSegmentForLsn_mem found
    obtain ⟨last, isLast⟩ : ∃ last, builder.inner.chain.lastKeyValue? = some last :=
      Option.isSome_iff_exists.mp (List.getLast?_isSome.mpr (List.ne_nil_of_mem member))
    have kept := OrdMap.lastKeyValue?_splitOff isLast
      (OrdMap.le_of_lastKeyValue? isLast _ member)
    have whole := OrdMap.splitOff_append builder.inner.chain segment.baseLsn
    have remainingChain : next.inner = ⟨(builder.inner.chain.splitOff segment.baseLsn).2⟩ := by
      dsimp only at trimmed
      split at trimmed
      · cases trimmed
        rfl
      · obtain ⟨_, -, rfl⟩ := Option.map_eq_some_iff.mp trimmed
        rfl
    rw [remainingChain]
    exact ⟨⟨_, whole.symm⟩, kept.trans isLast.symm⟩

theorem appendSegment_unreplicated {builder : ChainBuilder} {key baseLsn : Lsn}
    {last : LogletConfig} (provider : ProviderKind) (params : LogletParams)
    (found : builder.inner.chain.lastKeyValue? = some (key, last)) (unsealed : last.kind ≠ .sealed)
    (lastUnreplicated : last.kind ≠ .replicated) (newUnreplicated : provider ≠ .replicated)
    (atOrAfter : key ≤ baseLsn) :
    builder.appendSegment serde baseLsn provider params =
      some ({ builder with
              inner := ⟨builder.inner.chain.insert baseLsn (.new ⟨last.index.val + 1⟩ provider params)⟩,
              modified := true }, .ok ⟨last.index.val + 1⟩) := by
  have checked : checkSealMarker serde builder key last baseLsn = .ok () := by
    simp [checkSealMarker, InternalKind.isSealMarker_iff, unsealed]
  rcases lt_or_eq_of_le atOrAfter with after | same
  · simp [appendSegment, found, checked, after, indexNew, newUnreplicated]
  · subst same
    simp [appendSegment, found, checked, unindexReplaced, lastUnreplicated, indexNew,
      newUnreplicated]

end ChainBuilder

/-- One chain builder call of a run. -/
inductive ChainBuilderCall
  | appendSegment (baseLsn : Lsn) (provider : ProviderKind) (params : LogletParams)
  | «seal» (tailLsn : Lsn) (metadata : SealMetadata)
  | trimPrefix (untilBaseLsn : Lsn)

namespace ChainBuilderCall

def apply (serde : Serde) (builder : ChainBuilder) : ChainBuilderCall → Option ChainBuilder
  | .appendSegment baseLsn provider params =>
    (builder.appendSegment serde baseLsn provider params).map Prod.fst
  | .seal tailLsn metadata => (builder.seal serde tailLsn metadata).map Prod.fst
  | .trimPrefix untilBaseLsn => builder.trimPrefix serde untilBaseLsn

def run (serde : Serde) (calls : List ChainBuilderCall) (builder : ChainBuilder) :
    Option ChainBuilder :=
  calls.foldlM (apply serde) builder

end ChainBuilderCall

section Steps

variable {chain chain' : Chain} {key : Lsn} {last : LogletConfig}

theorem ChainInvariant.lt_of_unsealed_last (inv : ChainInvariant chain)
    (found : chain.chain.lastKeyValue? = some (key, last)) (unsealed : last.kind ≠ .sealed) :
    ∀ entry ∈ chain.chain.entries.dropLast, entry.2.index.val < last.index.val := by
  intro entry member
  rcases inv.before_last found entry member with below | ⟨sealed, -⟩
  · exact below
  · exact absurd sealed unsealed

theorem ChainInvariant.lt_bumped {bound : Nat} (inv : ChainInvariant chain)
    (bounded : IndexBound bound chain) (fits : bound + 1 < 2 ^ 32)
    (found : chain.chain.lastKeyValue? = some (key, last)) :
    ∀ entry ∈ chain.chain.entries, entry.2.index.val < last.index.val + 1 := by
  intro entry member
  have lastBound : last.index.val.toNat ≤ bound := bounded (key, last) (List.mem_of_getLast? found)
  have entryLe : entry.2.index.val.toNat ≤ last.index.val.toNat :=
    inv.toNat_le_last found entry member
  rw [UInt32.lt_iff_toNat_lt, toNat_add_one_of_lt (by omega)]
  omega

theorem ChainInvariant.unsealed_of_unsealed_last (inv : ChainInvariant chain)
    (found : chain.chain.lastKeyValue? = some (key, last)) (unsealed : last.kind ≠ .sealed) :
    ∀ entry ∈ chain.chain.entries, entry.2.kind ≠ .sealed := by
  intro entry member
  rw [OrdMap.lastKeyValue?_eq_some found, List.mem_append] at member
  rcases member with earlier | isLast
  · exact inv.sealLast entry earlier
  · rw [List.mem_singleton.mp isLast]
    exact unsealed

theorem ChainInvariant.append {entry : Lsn × LogletConfig} (inv : ChainInvariant chain)
    (found : chain.chain.lastKeyValue? = some (key, last)) (unsealed : last.kind ≠ .sealed)
    (above : ∀ earlier ∈ chain.chain.entries, earlier.2.index.val < entry.2.index.val)
    (grown : chain'.chain.entries = chain.chain.entries ++ [entry]) : ChainInvariant chain' :=
  chainInvariant_of_snoc grown inv.indexOrder (inv.unsealed_of_unsealed_last found unsealed)
    fun earlier member => .inl (above earlier member)

theorem ChainInvariant.replaceLast {entry : Lsn × LogletConfig} (inv : ChainInvariant chain)
    (before : ∀ earlier ∈ chain.chain.entries.dropLast, IndexOrder earlier entry)
    (replaced : chain'.chain.entries = chain.chain.entries.dropLast ++ [entry]) :
    ChainInvariant chain' :=
  chainInvariant_of_snoc replaced (inv.indexOrder.sublist (List.dropLast_sublist _)) inv.sealLast
    before

theorem ChainInvariant.sealAfter {marker : LogletConfig} {tailLsn : Lsn}
    (inv : ChainInvariant chain) (found : chain.chain.lastKeyValue? = some (key, last))
    (unsealed : last.kind ≠ .sealed) (markerKind : marker.kind = .sealed)
    (markerIndex : marker.index = last.index)
    (grown : chain'.chain.entries = chain.chain.entries ++ [(tailLsn, marker)]) :
    ChainInvariant chain' := by
  refine chainInvariant_of_snoc grown inv.indexOrder (inv.unsealed_of_unsealed_last found unsealed)
    fun earlier member => ?_
  rw [OrdMap.lastKeyValue?_eq_some found, List.mem_append] at member
  rcases member with before | isLast
  · exact .inl (markerIndex ▸ inv.lt_of_unsealed_last found unsealed earlier before)
  · rw [List.mem_singleton.mp isLast]
    exact .inr ⟨markerKind, congrArg SegmentIndex.val markerIndex.symm⟩

theorem ChainInvariant.ofSuffix {dropped : List (Lsn × LogletConfig)} (inv : ChainInvariant chain)
    (split : chain.chain.entries = dropped ++ chain'.chain.entries)
    (sameLast : chain'.chain.lastKeyValue? = chain.chain.lastKeyValue?) : ChainInvariant chain' := by
  have kept : chain'.chain.entries ≠ [] := by
    intro empty
    have noLast : chain.chain.lastKeyValue? = none := by
      rw [← sameLast]
      simp [OrdMap.lastKeyValue?, empty]
    exact inv.nonEmpty (List.getLast?_eq_none_iff.mp noLast)
  have ordered := inv.indexOrder
  rw [split, List.pairwise_append] at ordered
  refine ⟨kept, fun entry member => inv.sealLast entry ?_, ordered.2.1⟩
  rw [split, List.dropLast_append_of_ne_nil kept]
  exact List.mem_append_right _ member

theorem IndexBound.ofSuffix {bound : Nat} {dropped : List (Lsn × LogletConfig)}
    (bounded : IndexBound bound chain)
    (split : chain.chain.entries = dropped ++ chain'.chain.entries) : IndexBound bound chain' :=
  fun entry member => bounded entry (split ▸ List.mem_append_right _ member)

end Steps

namespace ChainBuilderCall

variable {serde : Serde}

theorem apply_invariant {builder next : ChainBuilder} {bound : Nat} (call : ChainBuilderCall)
    (inv : ChainInvariant builder.inner) (bounded : IndexBound bound builder.inner)
    (fits : bound + 1 < 2 ^ 32) (applied : call.apply serde builder = some next) :
    ChainInvariant next.inner ∧ IndexBound (bound + 1) next.inner := by
  have raised := bounded.mono (Nat.le_succ bound)
  cases call with
  | appendSegment baseLsn provider params =>
    obtain ⟨⟨after, result⟩, appended, rfl⟩ := Option.map_eq_some_iff.mp applied
    have lastBound : ∀ {key last}, builder.inner.chain.lastKeyValue? = some (key, last) →
        (last.index.val + 1).toNat ≤ bound + 1 := fun {key last} found => by
      have : last.index.val.toNat ≤ bound := bounded (key, last) (List.mem_of_getLast? found)
      rw [toNat_add_one_of_lt (by omega)]
      omega
    rcases ChainBuilder.appendSegment_chain serde appended with
      same | ⟨key, last, found, ⟨unsealed, -, grown⟩ | replaced⟩
    · exact same ▸ ⟨inv, raised⟩
    · exact ⟨inv.append found unsealed (inv.lt_bumped bounded fits found) grown,
        indexBound_of_snoc grown raised (lastBound found)⟩
    · refine ⟨inv.replaceLast (fun earlier member => .inl ?_) replaced,
        indexBound_of_snoc replaced (fun earlier member => raised earlier
          (List.dropLast_subset _ member)) (lastBound found)⟩
      exact inv.lt_bumped bounded fits found earlier (List.dropLast_subset _ member)
  | «seal» tailLsn metadata =>
    obtain ⟨⟨after, result⟩, sealed, rfl⟩ := Option.map_eq_some_iff.mp applied
    rcases ChainBuilder.seal_chain serde sealed with
      ⟨same, -⟩ | ⟨key, last, marker, found, unsealed, markerKind, markerIndex, -, shape⟩
    · exact same ▸ ⟨inv, raised⟩
    · have markerBound : (tailLsn, marker).2.index.val.toNat ≤ bound + 1 :=
        markerIndex ▸ raised _ (List.mem_of_getLast? found)
      rcases shape with ⟨-, grown⟩ | ⟨rfl, replaced⟩
      · exact ⟨inv.sealAfter found unsealed markerKind markerIndex grown,
          indexBound_of_snoc grown raised markerBound⟩
      · refine ⟨inv.replaceLast (fun earlier member => .inl ?_) replaced,
          indexBound_of_snoc replaced (fun earlier member => raised earlier
            (List.dropLast_subset _ member)) markerBound⟩
        exact markerIndex ▸ inv.lt_of_unsealed_last found unsealed earlier member
  | trimPrefix untilBaseLsn =>
    obtain ⟨⟨dropped, split⟩, sameLast⟩ := ChainBuilder.trimPrefix_chain serde applied
    exact ⟨inv.ofSuffix split sameLast, raised.ofSuffix split⟩

theorem run_invariant (calls : List ChainBuilderCall) {builder final : ChainBuilder}
    (inv : ChainInvariant builder.inner) (bounded : IndexBound 0 builder.inner)
    (fewer : calls.length < 2 ^ 32) (ran : run serde calls builder = some final) :
    ChainInvariant final.inner ∧ IndexBound calls.length final.inner := by
  have atEnd := List.foldlM_option_invariant
    (fun k builder => k < 2 ^ 32 → ChainInvariant builder.inner ∧ IndexBound k builder.inner)
    (fun k builder call next holds applied fits =>
      let ⟨inv, bounded⟩ := holds (by omega)
      apply_invariant call inv bounded fits applied)
    calls (fun _ => ⟨inv, bounded⟩) ran
  simpa using atEnd (by simpa using fewer)

end ChainBuilderCall

/-- The last segment is a seal marker whose metadata asks for a permanent seal. -/
def PermanentlySealed (serde : Serde) (chain : Chain) : Prop :=
  ∃ key marker sealMetadata, chain.chain.lastKeyValue? = some (key, marker) ∧
    marker.kind = .sealed ∧ serde.sealMetadata marker.params = some sealMetadata ∧
    sealMetadata.permanentSeal = true

section Permanent

variable {serde : Serde}

theorem ChainBuilder.appendSegment_permanentlySealed {builder : ChainBuilder}
    (sealedChain : PermanentlySealed serde builder.inner) (baseLsn : Lsn) (provider : ProviderKind)
    (params : LogletParams) :
    builder.appendSegment serde baseLsn provider params =
      some (builder, .error (.chainPermanentlySealed builder.logId)) := by
  obtain ⟨key, marker, sealMetadata, found, sealed, decoded, permanent⟩ := sealedChain
  simp [ChainBuilder.appendSegment, found,
    ChainBuilder.checkSealMarker_permanent serde sealed decoded permanent]

theorem ChainBuilderCall.apply_permanentlySealed {builder next : ChainBuilder}
    (call : ChainBuilderCall) (sealedChain : PermanentlySealed serde builder.inner)
    (applied : call.apply serde builder = some next) : PermanentlySealed serde next.inner := by
  cases call with
  | appendSegment baseLsn provider params =>
    simp only [apply, ChainBuilder.appendSegment_permanentlySealed sealedChain, Option.map_some,
      Option.some.injEq] at applied
    exact applied ▸ sealedChain
  | «seal» tailLsn metadata =>
    obtain ⟨⟨after, result⟩, sealed, rfl⟩ := Option.map_eq_some_iff.mp applied
    obtain ⟨key, marker, sealMetadata, found, isMarker, decoded, permanent⟩ := sealedChain
    rcases ChainBuilder.seal_chain serde sealed with
      ⟨same, -⟩ | ⟨key', last, -, found', unsealed, -⟩
    · exact same ▸ ⟨key, marker, sealMetadata, found, isMarker, decoded, permanent⟩
    · rw [found] at found'
      cases found'
      exact absurd isMarker unsealed
  | trimPrefix untilBaseLsn =>
    obtain ⟨-, sameLast⟩ := ChainBuilder.trimPrefix_chain serde applied
    obtain ⟨key, marker, sealMetadata, found, rest⟩ := sealedChain
    exact ⟨key, marker, sealMetadata, sameLast.trans found, rest⟩

theorem ChainBuilderCall.run_permanentlySealed (calls : List ChainBuilderCall)
    {builder final : ChainBuilder} (sealedChain : PermanentlySealed serde builder.inner)
    (ran : run serde calls builder = some final) : PermanentlySealed serde final.inner :=
  List.foldlM_option_invariant (fun _ builder => PermanentlySealed serde builder.inner)
    (fun _ _ call _ holds applied => apply_permanentlySealed call holds applied) calls (k := 0)
    sealedChain ran

end Permanent

theorem ChainBuilder.seal_marker_index {serde : Serde} {builder next : ChainBuilder}
    {tailLsn tail : Lsn} {metadata : SealMetadata}
    (sealed : builder.seal serde tailLsn metadata = some (next, .ok tail))
    (unsealed : builder.inner.sealedTail = none) :
    ∃ key last marker, builder.inner.chain.lastKeyValue? = some (key, last) ∧
      next.inner.chain.lastKeyValue? = some (tail, marker) ∧ marker.kind = .sealed ∧
      marker.index = last.index := by
  rcases ChainBuilder.seal_chain serde sealed with
    ⟨-, ⟨key, last, found, isMarker, -⟩ | ⟨e, isError⟩⟩ |
      ⟨key, last, marker, found, -, markerKind, markerIndex, answered, shape⟩
  · simp [Chain.sealedTail, found, isMarker, InternalKind.isSealMarker] at unsealed
  · cases isError
  · cases answered
    refine ⟨key, last, marker, found, ?_, markerKind, markerIndex⟩
    rcases shape with ⟨-, grown⟩ | ⟨rfl, replaced⟩
    · simp [OrdMap.lastKeyValue?, grown]
    · simp [OrdMap.lastKeyValue?, replaced]

theorem run_replicate_replace (serde : Serde) (key : Lsn) (params : LogletParams) :
    ∀ (n i : Nat) (builder : ChainBuilder),
      builder.inner.chain.entries = [(key, .new ⟨UInt32.ofNat i⟩ .inMemory params)] →
      ∃ final, ChainBuilderCall.run serde (List.replicate n (.appendSegment key .inMemory params))
          builder = some final ∧
        final.inner.chain.entries = [(key, .new ⟨UInt32.ofNat (i + n)⟩ .inMemory params)]
  | 0, i, builder, single => ⟨builder, rfl, single⟩
  | n + 1, i, builder, single => by
    have found : builder.inner.chain.lastKeyValue? =
        some (key, .new ⟨UInt32.ofNat i⟩ .inMemory params) := by
      simp [OrdMap.lastKeyValue?, single]
    have replaced := ChainBuilder.appendSegment_unreplicated serde .inMemory params found (by simp)
      (by simp [InternalKind.ofProviderKind]) (by simp) le_rfl
    have bumped : (builder.inner.chain.insert key
        (.new ⟨(LogletConfig.new ⟨UInt32.ofNat i⟩ .inMemory params).index.val + 1⟩ .inMemory
          params)).entries = [(key, .new ⟨UInt32.ofNat (i + 1)⟩ .inMemory params)] := by
      rw [OrdMap.insert_lastKeyValue? _ found, single]
      simp [UInt32.ofNat_add]
    obtain ⟨final, ran, entries⟩ := run_replicate_replace serde key params n (i + 1)
      { builder with
        inner := ⟨builder.inner.chain.insert key (.new ⟨(LogletConfig.new ⟨UInt32.ofNat i⟩ .inMemory
          params).index.val + 1⟩ .inMemory params)⟩,
        modified := true } bumped
    refine ⟨final, ?_, ?_⟩
    · simp only [ChainBuilderCall.run, List.replicate_succ, List.foldlM_cons,
        ChainBuilderCall.apply, replaced, Option.map_some]
      exact ran
    · rw [entries, Nat.add_assoc, Nat.add_comm 1 n]

/-- Params codecs that reject every params; in-memory segments never read them. -/
def rejectingSerde : Serde := ⟨fun _ => none, fun _ => none, fun _ => none⟩

/-- In release builds the index bump wraps: 2^32 - 1 in-place replacements of the tail take its
index to u32::MAX, and the next append gets index 0 after it. -/
theorem segment_index_wraps :
    ∃ builder, ChainBuilderCall.run rejectingSerde
        (List.replicate (2 ^ 32 - 1) (.appendSegment .oldest .inMemory ⟨""⟩) ++
          [.appendSegment ⟨2⟩ .inMemory ⟨""⟩])
        ⟨⟨0⟩, .new .inMemory ⟨""⟩, .empty, false⟩ = some builder ∧
      ¬ChainInvariant builder.inner := by
  obtain ⟨replaced, ran, single⟩ := run_replicate_replace rejectingSerde .oldest ⟨""⟩ (2 ^ 32 - 1) 0
    ⟨⟨0⟩, .new .inMemory ⟨""⟩, .empty, false⟩ rfl
  have found : replaced.inner.chain.lastKeyValue? =
      some (.oldest, .new ⟨UInt32.ofNat (0 + (2 ^ 32 - 1))⟩ .inMemory ⟨""⟩) := by
    simp only [OrdMap.lastKeyValue?, single, List.getLast?_singleton]
  have appended := ChainBuilder.appendSegment_unreplicated rejectingSerde .inMemory ⟨""⟩ found
    (by simp)
    (by simp [InternalKind.ofProviderKind]) (by simp) (by decide : Lsn.oldest ≤ ⟨2⟩)
  refine ⟨?final, ?run, ?broken⟩
  case run =>
    rw [ChainBuilderCall.run, List.foldlM_append, ← ChainBuilderCall.run, ran]
    simp [ChainBuilderCall.apply, appended]
    rfl
  case broken =>
    intro inv
    have ordered := inv.indexOrder
    rw [OrdMap.insert_of_lastKeyValue?_lt _ found (by decide), single] at ordered
    simp only [List.cons_append, List.nil_append, List.pairwise_cons, List.mem_singleton,
      forall_eq, List.not_mem_nil, IsEmpty.forall_iff, implies_true, List.Pairwise.nil,
      and_true] at ordered
    revert ordered
    decide

/-- The shape of a chain under any run of fewer than 2^32 chain builder calls from a new chain;
trims keep the last segment, a placed seal marker has the index of the tail it sealed or
replaced, and after a permanent seal no append succeeds. -/
theorem chain_shape_under_builder (serde : Serde) (logId : LogId) (baseLsn : Lsn)
    (kind : ProviderKind) (params : LogletParams) (lookupIndex : LookupIndex) (modified : Bool)
    (calls : List ChainBuilderCall) (fewer : calls.length < 2 ^ 32) (builder : ChainBuilder)
    (ran : ChainBuilderCall.run serde calls
      ⟨logId, .withBaseLsn baseLsn kind params, lookupIndex, modified⟩ = some builder) :
    ChainInvariant builder.inner ∧
      (∀ untilBaseLsn trimmed, builder.trimPrefix serde untilBaseLsn = some trimmed →
        trimmed.inner.chain.lastKeyValue? = builder.inner.chain.lastKeyValue?) ∧
      (∀ tailLsn metadata next tail, builder.seal serde tailLsn metadata = some (next, .ok tail) →
        builder.inner.sealedTail = none →
        ∃ key last marker, builder.inner.chain.lastKeyValue? = some (key, last) ∧
          next.inner.chain.lastKeyValue? = some (tail, marker) ∧ marker.kind = .sealed ∧
          marker.index = last.index) ∧
      (PermanentlySealed serde builder.inner → ∀ later after,
        ChainBuilderCall.run serde later builder = some after →
        ∀ baseLsn' provider params' next index,
          after.appendSegment serde baseLsn' provider params' ≠ some (next, .ok index)) := by
  have shaped := ChainBuilderCall.run_invariant calls (chainInvariant_withBaseLsn baseLsn kind params)
    (indexBound_withBaseLsn baseLsn kind params) fewer ran
  refine ⟨shaped.1, fun _ _ trimmed => (ChainBuilder.trimPrefix_chain serde trimmed).2,
    fun _ _ _ _ sealed unsealed => ChainBuilder.seal_marker_index sealed unsealed, ?_⟩
  intro sealedChain later after ranLater baseLsn' provider params' next index appended
  have stillSealed := ChainBuilderCall.run_permanentlySealed later sealedChain ranLater
  rw [ChainBuilder.appendSegment_permanentlySealed stillSealed] at appended
  simp at appended

end Restate
