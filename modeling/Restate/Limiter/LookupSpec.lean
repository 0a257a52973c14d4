import Restate.Limiter.RuleStoreSpec

/-! A lookup returns, at each level, the handle of the most exact matching pattern of the map the
store stands for, with its limit, or nothing when no pattern of that level matches; what it
resolves to therefore depends on the map alone, whatever calls built the store. -/

namespace Restate

namespace Rules

variable {V : Type} {store : Rules V}

/-- What a lookup's limit at a level says of the map. -/
def LimitSpec (store : Rules V) (level : Level) (scope : String) (limitKey : LimitKey) : Limit V → Prop
  | .undefined => ∀ pattern, (store.view pattern).isSome → pattern.level = level → pattern.covers scope limitKey = false
  | .defined handle value =>
    ∃ pattern, store.rules handle = some pattern ∧ store.view pattern = some value ∧
      MostExact store.view level scope limitKey pattern

/-- The pattern and limit a lookup's limit names. -/
def resolve (store : Rules V) : Limit V → Option (RulePattern × V)
  | .undefined => none
  | .defined handle value => (store.rules handle).map fun pattern => (pattern, value)

/-- A lookup with the handles it returns resolved to their patterns. -/
def resolvedLookup (store : Rules V) (scope : String) (limitKey : LimitKey) : Option (Level → Option (RulePattern × V)) :=
  (store.lookup scope limitKey).map fun limits level => store.resolve (limits.limitAt level)

theorem mem_ranked {handles : List Nat} {scope : String} {limitKey : LimitKey} {handle : Nat} {rank : UInt8} :
    (handle, rank) ∈ handles.filterMap (fun listed =>
        ((store.rules listed).bind fun pattern => pattern.rank scope limitKey).map fun rank => (listed, rank)) ↔
      handle ∈ handles ∧ ∃ pattern, store.rules handle = some pattern ∧ pattern.covers scope limitKey = true ∧
        rank = UInt8.ofNat pattern.exactness.bits := by
  constructor
  · intro member
    obtain ⟨listed, inHandles, mapped⟩ := List.mem_filterMap.mp member
    obtain ⟨listedRank, ranked, pairEq⟩ := Option.map_eq_some_iff.mp mapped
    obtain ⟨pattern, stored, rankEq⟩ := Option.bind_eq_some_iff.mp ranked
    rw [RulePattern.rank_eq] at rankEq
    cases pairEq
    split at rankEq
    · next covered =>
      cases rankEq
      exact ⟨inHandles, pattern, stored, covered, rfl⟩
    · cases rankEq
  · rintro ⟨inHandles, pattern, stored, covered, rfl⟩
    exact List.mem_filterMap.mpr ⟨handle, inHandles, by simp [stored, RulePattern.rank_eq, covered]⟩

namespace Invariant

section LevelRule

variable (invariant : store.Invariant) {level : Level} {scope : String} {searchKey limitKey : LimitKey}
  (sameCovers : ∀ pattern : RulePattern, pattern.level = level → pattern.covers scope searchKey = pattern.covers scope limitKey)
include invariant sameCovers

theorem lookupLevelRule_eq_none (none : store.lookupLevelRule (store.levelRules level) scope searchKey = none) :
    LimitSpec store level scope limitKey .undefined := by
  intro pattern stored atLevel
  obtain ⟨handle, ruleEq⟩ := invariant.view_isSome_iff.mp stored
  have member := invariant.listed handle pattern ruleEq
  rw [atLevel] at member
  unfold lookupLevelRule at none
  rw [Option.map_eq_none_iff, List.maxByKey?_eq_none_iff] at none
  by_contra covered
  rw [Bool.not_eq_false, ← sameCovers pattern atLevel] at covered
  have ranked := mem_ranked.mpr ⟨member, pattern, ruleEq, covered, rfl⟩
  rw [none] at ranked
  exact List.not_mem_nil ranked

theorem lookupLevelRule_eq_some {handle : Nat}
    (found : store.lookupLevelRule (store.levelRules level) scope searchKey = some handle) :
    ∃ pattern, store.rules handle = some pattern ∧ MostExact store.view level scope limitKey pattern := by
  unfold lookupLevelRule at found
  obtain ⟨⟨_, rank⟩, located, rfl⟩ := Option.map_eq_some_iff.mp found
  obtain ⟨member, pattern, ruleEq, covered, rfl⟩ := mem_ranked.mp (List.maxByKey?_mem located)
  obtain ⟨listedPattern, listedEq, atLevel⟩ := invariant.listedAt level _ member
  rw [ruleEq, Option.some.injEq] at listedEq
  subst listedEq
  refine ⟨pattern, ruleEq, invariant.view_isSome_iff.mpr ⟨_, ruleEq⟩, atLevel,
    (sameCovers pattern atLevel).symm.trans covered, ?_⟩
  intro other otherStored otherLevel otherCovers differ
  obtain ⟨otherHandle, otherEq⟩ := invariant.view_isSome_iff.mp otherStored
  have otherMember := invariant.listed otherHandle other otherEq
  rw [otherLevel] at otherMember
  have otherRanked := mem_ranked.mpr ⟨otherMember, other, otherEq, (sameCovers other otherLevel).trans otherCovers, rfl⟩
  have ranksLe := List.le_maxByKey? located _ otherRanked
  have small : ∀ exactness : Exactness, exactness.bits % 2 ^ 8 = exactness.bits :=
    fun exactness => Nat.mod_eq_of_lt (lt_trans exactness.bits_lt (by decide))
  simp only [UInt8.toNat_ofNat', small] at ranksLe
  refine lt_of_le_of_ne (Exactness.bits_le_bits.mp ranksLe) fun same => differ ?_
  exact RulePattern.eq_of_exactness_eq otherCovers ((sameCovers pattern atLevel).symm.trans covered)
    (otherLevel.trans atLevel.symm) same

theorem limitOf_lookupLevelRule :
    ∃ limit, store.limitOf (store.lookupLevelRule (store.levelRules level) scope searchKey) = some limit ∧
      LimitSpec store level scope limitKey limit := by
  cases found : store.lookupLevelRule (store.levelRules level) scope searchKey with
  | none => exact ⟨.undefined, rfl, invariant.lookupLevelRule_eq_none sameCovers found⟩
  | some handle =>
    obtain ⟨pattern, ruleEq, most⟩ := invariant.lookupLevelRule_eq_some sameCovers found
    obtain ⟨value, limitEq⟩ := Option.isSome_iff_exists.mp (invariant.limited handle pattern ruleEq)
    exact ⟨.defined handle value, by simp [limitOf, limitEq], pattern, ruleEq,
      invariant.view_eq_some_iff.mpr ⟨handle, ruleEq, limitEq⟩, most⟩

end LevelRule

theorem lookup_spec (invariant : store.Invariant) (scope : String) (limitKey : LimitKey) :
    ∃ limits, store.lookup scope limitKey = some limits ∧ ∀ level, LimitSpec store level scope limitKey (limits.limitAt level) := by
  obtain ⟨scopeLimit, scopeEq, scopeSpec⟩ : ∃ limit, store.limitOf (store.lookupScopeRule scope) = some limit ∧
      LimitSpec store .scope scope limitKey limit :=
    invariant.limitOf_lookupLevelRule fun _ atLevel => (RulePattern.covers_of_level_scope atLevel scope limitKey).symm
  have undefined : ∀ level, (∀ pattern : RulePattern, pattern.level = level → pattern.covers scope limitKey = false) →
      LimitSpec store level scope limitKey .undefined :=
    fun level unmatched pattern _ atLevel => unmatched pattern atLevel
  have level2Undefined : limitKey.level2 = none → LimitSpec store .level2 scope limitKey .undefined :=
    fun shallow => undefined .level2 fun _ atLevel => RulePattern.covers_eq_false_of_deeper (Or.inr ⟨atLevel, shallow⟩)
  cases limitKey with
  | none =>
    refine ⟨⟨scopeLimit, .undefined, .undefined⟩, by simp [lookup, scopeEq], fun level => ?_⟩
    cases level
    · exact scopeSpec
    · exact undefined .level1 fun _ atLevel => RulePattern.covers_eq_false_of_deeper (Or.inl ⟨atLevel, rfl⟩)
    · exact level2Undefined rfl
  | l1 level1 =>
    obtain ⟨l1Limit, l1Eq, l1Spec⟩ : ∃ limit, store.limitOf (store.lookupL1Rule scope (.l1 level1)) = some limit ∧
        LimitSpec store .level1 scope (.l1 level1) limit :=
      @limitOf_lookupLevelRule V store invariant .level1 scope (.l1 level1) (.l1 level1) fun _ _ => rfl
    refine ⟨⟨scopeLimit, l1Limit, .undefined⟩, by simp [lookup, scopeEq, l1Eq], fun level => ?_⟩
    cases level
    · exact scopeSpec
    · exact l1Spec
    · exact level2Undefined rfl
  | l2 level1 level2 =>
    obtain ⟨l1Limit, l1Eq, l1Spec⟩ : ∃ limit, store.limitOf (store.lookupL1Rule scope (.l2 level1 level2)) = some limit ∧
        LimitSpec store .level1 scope (.l2 level1 level2) limit :=
      @limitOf_lookupLevelRule V store invariant .level1 scope (.l2 level1 level2) (.l2 level1 level2) fun _ _ => rfl
    obtain ⟨l2Limit, l2Eq, l2Spec⟩ : ∃ limit, store.limitOf (store.lookupL2Rule scope (.l2 level1 level2)) = some limit ∧
        LimitSpec store .level2 scope (.l2 level1 level2) limit :=
      @limitOf_lookupLevelRule V store invariant .level2 scope (.l2 level1 level2) (.l2 level1 level2) fun _ _ => rfl
    refine ⟨⟨scopeLimit, l1Limit, l2Limit⟩, by simp [lookup, scopeEq, l1Eq, l2Eq], fun level => ?_⟩
    cases level
    · exact scopeSpec
    · exact l1Spec
    · exact l2Spec

end Invariant

theorem resolve_eq_of_spec {other : Rules V} (sameView : store.view = other.view) {level : Level} {scope : String}
    {limitKey : LimitKey} {limit otherLimit : Limit V} (spec : LimitSpec store level scope limitKey limit)
    (otherSpec : LimitSpec other level scope limitKey otherLimit) : store.resolve limit = other.resolve otherLimit := by
  cases limit with
  | undefined =>
    cases otherLimit with
    | undefined => rfl
    | defined handle value =>
      obtain ⟨pattern, -, -, most⟩ := otherSpec
      have unmatched := spec pattern (by rw [sameView]; exact most.stored) most.atLevel
      rw [most.covering] at unmatched
      cases unmatched
  | defined handle value =>
    obtain ⟨pattern, ruleEq, limitEq, most⟩ := spec
    cases otherLimit with
    | undefined =>
      have unmatched := otherSpec pattern (by rw [← sameView]; exact most.stored) most.atLevel
      rw [most.covering] at unmatched
      cases unmatched
    | defined otherHandle otherValue =>
      obtain ⟨otherPattern, otherRuleEq, otherLimitEq, otherMost⟩ := otherSpec
      rw [sameView] at most limitEq
      have samePattern := most.unique otherMost
      subst samePattern
      rw [limitEq, Option.some.injEq] at otherLimitEq
      simp [resolve, ruleEq, otherRuleEq, otherLimitEq]

theorem Invariant.resolvedLookup_eq {other : Rules V} (invariant : store.Invariant) (otherInvariant : other.Invariant)
    (sameView : store.view = other.view) (scope : String) (limitKey : LimitKey) :
    store.resolvedLookup scope limitKey = other.resolvedLookup scope limitKey := by
  obtain ⟨limits, lookupEq, spec⟩ := invariant.lookup_spec scope limitKey
  obtain ⟨otherLimits, otherEq, otherSpec⟩ := otherInvariant.lookup_spec scope limitKey
  simp only [resolvedLookup, lookupEq, otherEq, Option.map_some, Option.some.injEq]
  funext level
  exact resolve_eq_of_spec sameView (spec level) (otherSpec level)

end Rules

theorem rule_lookup_most_specific {V : Type} (calls : List (RulesCall V)) (scope : String) (limitKey : LimitKey) :
    let store := Rules.empty.runCalls calls
    (∃ limits, store.lookup scope limitKey = some limits ∧ ∀ level,
      (limits.limitAt level = .undefined ↔
        ∀ pattern, (RulesCall.replay calls pattern).isSome → pattern.level = level → pattern.covers scope limitKey = false) ∧
      ∀ handle value, limits.limitAt level = .defined handle value →
        ∃ pattern, store.getPattern handle = some pattern ∧ LastUpsert calls pattern value ∧
          MostExact (RulesCall.replay calls) level scope limitKey pattern) ∧
    (∀ others : List (RulesCall V), RulesCall.replay others = RulesCall.replay calls →
      (Rules.empty.runCalls others).resolvedLookup scope limitKey = store.resolvedLookup scope limitKey) ∧
    ∀ pattern : RulePattern, parseRulePattern pattern.display = .ok pattern := by
  intro store
  obtain ⟨invariant, viewEq⟩ := Rules.runCalls_refines calls
  obtain ⟨limits, lookupEq, spec⟩ := invariant.lookup_spec scope limitKey
  refine ⟨⟨limits, lookupEq, fun level => ⟨?_, ?_⟩⟩, fun others replayed => ?_, RulePattern.parse_display⟩
  · -- a defined limit names a matching pattern of the map, so the limit is undefined exactly when none matches
    constructor
    · intro undefined
      have levelSpec := spec level
      rw [undefined, Rules.LimitSpec, viewEq] at levelSpec
      exact levelSpec
    · intro unmatched
      cases defined : limits.limitAt level with
      | undefined => rfl
      | defined handle value =>
        have levelSpec := spec level
        rw [defined] at levelSpec
        obtain ⟨pattern, -, -, most⟩ := levelSpec
        rw [viewEq] at most
        have uncovered := unmatched pattern most.stored most.atLevel
        rw [most.covering] at uncovered
        cases uncovered
  · intro handle value defined
    have levelSpec := spec level
    rw [defined] at levelSpec
    obtain ⟨pattern, ruleEq, limitEq, most⟩ := levelSpec
    rw [viewEq] at limitEq most
    exact ⟨pattern, ruleEq, (replay_eq_some_iff calls pattern value).mp limitEq, most⟩
  · obtain ⟨otherInvariant, otherView⟩ := Rules.runCalls_refines others
    exact otherInvariant.resolvedLookup_eq invariant (otherView.trans (replayed.trans viewEq.symm)) scope limitKey

/-- A scope-wide limit set, dropped and set again. -/
def sampleRuleCalls : List (RulesCall Nat) :=
  [.upsert (.scope .wildcard) 5, .remove (.scope .wildcard), .upsert (.scope .wildcard) 7]

theorem sampleRuleCalls_lookup :
    let store := Rules.empty.runCalls sampleRuleCalls
    (∃ limits, store.lookup "orders" .none = some limits ∧ ∀ level,
      (limits.limitAt level = .undefined ↔
        ∀ pattern, (RulesCall.replay sampleRuleCalls pattern).isSome → pattern.level = level →
          pattern.covers "orders" .none = false) ∧
      ∀ handle value, limits.limitAt level = .defined handle value →
        ∃ pattern, store.getPattern handle = some pattern ∧ LastUpsert sampleRuleCalls pattern value ∧
          MostExact (RulesCall.replay sampleRuleCalls) level "orders" .none pattern) ∧
    (∀ others : List (RulesCall Nat), RulesCall.replay others = RulesCall.replay sampleRuleCalls →
      (Rules.empty.runCalls others).resolvedLookup "orders" .none = store.resolvedLookup "orders" .none) ∧
    ∀ pattern : RulePattern, parseRulePattern pattern.display = .ok pattern :=
  rule_lookup_most_specific sampleRuleCalls "orders" .none

end Restate
