import Mathlib.Order.Basic
import Mathlib.Data.List.Induction
import Mathlib.Data.Prod.Lex
import Restate.Limiter.RuleStore

/-! What the rule store is for. A store is a map from patterns to limits: an upsert sets the
pattern's limit and a remove clears it, so a pattern's limit is the one of its last upsert not
removed since. Against a scope and a limit key, a pattern matches when each exact component is
the input at its level and the key reaches the pattern's depth; of the matching patterns at a
level, the one to apply is the most exact, comparing exactness lexicographically from the scope
down. Matching patterns of one level differ in exactness, so that pattern is unique.

`RulePattern.rank` is this order written as bits: a matching pattern's rank is its exactness
read as a binary number, and no other pattern has one. -/

namespace Restate

/-- The exactness of a pattern: whether its scope, its first and its second level are exact, in
the lexicographic order. -/
abbrev Exactness := Bool ×ₗ Bool ×ₗ Bool

/-- An exactness read as a number of three bits, the scope the highest. -/
def Exactness.bits (exactness : Exactness) : Nat :=
  4 * (ofLex exactness).1.toNat + 2 * (ofLex (ofLex exactness).2).1.toNat + (ofLex (ofLex exactness).2).2.toNat

theorem Exactness.bits_lt (exactness : Exactness) : exactness.bits < 8 := by
  unfold bits
  cases (ofLex exactness).1 <;> cases (ofLex (ofLex exactness).2).1 <;> cases (ofLex (ofLex exactness).2).2 <;> decide

theorem Exactness.bits_le_bits {first second : Exactness} : first.bits ≤ second.bits ↔ first ≤ second := by
  obtain ⟨a, b, c⟩ := first
  obtain ⟨d, e, f⟩ := second
  have table : ∀ a b c d e f : Bool, bits (toLex (a, toLex (b, c))) ≤ bits (toLex (d, toLex (e, f))) ↔
      toLex (a, toLex (b, c)) ≤ toLex (d, toLex (e, f)) := by decide
  exact table a b c d e f

namespace Pattern

def covers : Pattern → String → Bool
  | .exact value, input => value.value == input
  | .wildcard, _ => true

def isExact : Pattern → Bool
  | .exact _ => true
  | .wildcard => false

theorem eq_of_covers {first second : Pattern} {input : String} (firstCovers : first.covers input = true)
    (secondCovers : second.covers input = true) (same : first.isExact = second.isExact) : first = second := by
  cases first with
  | exact value =>
    cases second with
    | exact other =>
      simp only [covers, beq_iff_eq] at firstCovers secondCovers
      have values : value = other := by
        cases value
        cases other
        simp only at firstCovers secondCovers
        subst firstCovers secondCovers
        rfl
      rw [values]
    | wildcard => cases same
  | wildcard =>
    cases second with
    | exact _ => cases same
    | wildcard => rfl

/-- The bit of a level in a rank: set for an exact component. -/
def levelBit (exact : Bool) (level : Level) : UInt8 :=
  if exact then 1 <<< (Level.count - level.toNat).toUInt8 else 0

theorem rank_eq (pattern : Pattern) (input : String) (level : Level) :
    pattern.rank input level = if pattern.covers input then some (levelBit pattern.isExact level) else none := by
  cases pattern with
  | exact value =>
    by_cases same : value.value = input
    · simp [rank, covers, isExact, levelBit, same]
    · simp [rank, covers, same]
  | wildcard => rfl

theorem levelBit_scope (scopeExact : Bool) :
    levelBit scopeExact .scope = UInt8.ofNat (Exactness.bits (toLex (scopeExact, toLex (false, false)))) := by
  cases scopeExact <;> decide

theorem levelBit_l1 (scopeExact l1Exact : Bool) :
    levelBit scopeExact .scope ||| levelBit l1Exact .level1 =
      UInt8.ofNat (Exactness.bits (toLex (scopeExact, toLex (l1Exact, false)))) := by
  cases scopeExact <;> cases l1Exact <;> decide

theorem levelBit_l2 (scopeExact l1Exact l2Exact : Bool) :
    levelBit scopeExact .scope ||| levelBit l1Exact .level1 ||| levelBit l2Exact .level2 =
      UInt8.ofNat (Exactness.bits (toLex (scopeExact, toLex (l1Exact, l2Exact)))) := by
  cases scopeExact <;> cases l1Exact <;> cases l2Exact <;> decide

end Pattern

namespace RulePattern

/-- A pattern matches a scope and a limit key. -/
def covers (pattern : RulePattern) (scope : String) (limitKey : LimitKey) : Bool :=
  match pattern with
  | .scope scopePat => scopePat.covers scope
  | .l1 scopePat l1Pat => scopePat.covers scope && limitKey.level1.any fun level1 => l1Pat.covers level1.value
  | .l2 scopePat l1Pat l2Pat =>
    scopePat.covers scope && (limitKey.level1.any fun level1 => l1Pat.covers level1.value) &&
      limitKey.level2.any fun level2 => l2Pat.covers level2.value

def exactness : RulePattern → Exactness
  | .scope scopePat => toLex (scopePat.isExact, toLex (false, false))
  | .l1 scopePat l1Pat => toLex (scopePat.isExact, toLex (l1Pat.isExact, false))
  | .l2 scopePat l1Pat l2Pat => toLex (scopePat.isExact, toLex (l1Pat.isExact, l2Pat.isExact))

theorem eq_of_exactness_eq {first second : RulePattern} {scope : String} {limitKey : LimitKey}
    (firstCovers : first.covers scope limitKey = true) (secondCovers : second.covers scope limitKey = true)
    (level : first.level = second.level) (same : first.exactness = second.exactness) : first = second := by
  -- both match the same inputs at each level, and are exact at the same levels
  cases first with
  | scope scopePat =>
    cases second with
    | scope other =>
      simp only [exactness, toLex_inj, Prod.mk.injEq, and_true] at same
      rw [Pattern.eq_of_covers firstCovers secondCovers same]
    | l1 | l2 => cases level
  | l1 scopePat l1Pat =>
    cases second with
    | l1 otherScope otherL1 =>
      cases keyEq : limitKey.level1 with
      | none => simp [covers, keyEq] at firstCovers
      | some level1 =>
        simp only [covers, keyEq, Option.any_some, Bool.and_eq_true] at firstCovers secondCovers
        simp only [exactness, toLex_inj, Prod.mk.injEq, and_true] at same
        rw [Pattern.eq_of_covers firstCovers.1 secondCovers.1 same.1,
          Pattern.eq_of_covers firstCovers.2 secondCovers.2 same.2]
    | scope | l2 => cases level
  | l2 scopePat l1Pat l2Pat =>
    cases second with
    | l2 otherScope otherL1 otherL2 =>
      cases keyEq : limitKey with
      | l2 level1 level2 =>
        simp only [covers, keyEq, LimitKey.level1, LimitKey.level2, Option.any_some, Bool.and_eq_true] at firstCovers secondCovers
        simp only [exactness, toLex_inj, Prod.mk.injEq] at same
        rw [Pattern.eq_of_covers firstCovers.1.1 secondCovers.1.1 same.1,
          Pattern.eq_of_covers firstCovers.1.2 secondCovers.1.2 same.2.1,
          Pattern.eq_of_covers firstCovers.2 secondCovers.2 same.2.2]
      | none | l1 _ => simp [covers, keyEq, LimitKey.level1, LimitKey.level2] at firstCovers
    | scope | l1 => cases level

theorem covers_of_level_scope {pattern : RulePattern} (level : pattern.level = .scope) (scope : String)
    (limitKey : LimitKey) : pattern.covers scope limitKey = pattern.covers scope .none := by
  cases pattern <;> cases level
  rfl

theorem covers_eq_false_of_deeper {pattern : RulePattern} {scope : String} {limitKey : LimitKey}
    (deeper : (pattern.level = .level1 ∧ limitKey = .none) ∨ (pattern.level = .level2 ∧ limitKey.level2 = none)) :
    pattern.covers scope limitKey = false := by
  rcases deeper with ⟨level, rfl⟩ | ⟨level, shallow⟩
  · cases pattern <;> cases level
    simp [covers, LimitKey.level1]
  · cases pattern <;> cases level
    simp [covers, shallow]

theorem rank_eq (pattern : RulePattern) (scope : String) (limitKey : LimitKey) :
    pattern.rank scope limitKey =
      if pattern.covers scope limitKey then some (UInt8.ofNat pattern.exactness.bits) else none := by
  cases pattern with
  | scope scopePat =>
    rw [rank, Pattern.rank_eq]
    by_cases covered : scopePat.covers scope
    · simp [covers, covered, exactness, Pattern.levelBit_scope]
    · simp [covers, covered]
  | l1 scopePat l1Pat =>
    cases keyEq : limitKey.level1 with
    | none => simp [rank, covers, keyEq]
    | some level1 =>
      simp only [rank, covers, keyEq, Pattern.rank_eq, Option.any_some]
      by_cases scopeCovered : scopePat.covers scope <;> by_cases l1Covered : l1Pat.covers level1.value <;>
        simp [scopeCovered, l1Covered, exactness, Pattern.levelBit_l1]
  | l2 scopePat l1Pat l2Pat =>
    cases limitKey with
    | l2 level1 level2 =>
      simp only [rank, covers, LimitKey.level1, LimitKey.level2, Pattern.rank_eq, Option.any_some]
      by_cases scopeCovered : scopePat.covers scope <;> by_cases l1Covered : l1Pat.covers level1.value <;>
        by_cases l2Covered : l2Pat.covers level2.value <;>
        simp [scopeCovered, l1Covered, l2Covered, exactness, Pattern.levelBit_l2]
    | none | l1 _ => simp [rank, covers, LimitKey.level1, LimitKey.level2]

end RulePattern

section Store

variable {V : Type}

/-- Of the patterns of a map at a level that match a scope and a limit key, the most exact. -/
structure MostExact (store : RulePattern → Option V) (level : Level) (scope : String) (limitKey : LimitKey)
    (pattern : RulePattern) : Prop where
  stored : (store pattern).isSome
  atLevel : pattern.level = level
  covering : pattern.covers scope limitKey = true
  most : ∀ other, (store other).isSome → other.level = level → other.covers scope limitKey = true → other ≠ pattern →
    other.exactness < pattern.exactness

theorem MostExact.unique {store : RulePattern → Option V} {level : Level} {scope : String} {limitKey : LimitKey}
    {first second : RulePattern} (firstMost : MostExact store level scope limitKey first)
    (secondMost : MostExact store level scope limitKey second) : first = second := by
  by_contra differ
  have below := firstMost.most second secondMost.stored secondMost.atLevel secondMost.covering (Ne.symm differ)
  have above := secondMost.most first firstMost.stored firstMost.atLevel firstMost.covering differ
  exact lt_asymm below above

namespace RulesCall

def pattern : RulesCall V → RulePattern
  | .upsert pattern _ | .remove pattern => pattern

/-- What a call leaves as the pattern's limit. -/
def limit? : RulesCall V → Option V
  | .upsert _ limit => some limit
  | .remove _ => none

/-- A call on the map from patterns to limits. -/
def apply (store : RulePattern → Option V) (call : RulesCall V) : RulePattern → Option V :=
  Function.update store call.pattern call.limit?

/-- The map the calls leave, from the empty one. -/
def replay (calls : List (RulesCall V)) : RulePattern → Option V :=
  calls.foldl apply fun _ => none

theorem replay_append_singleton (calls : List (RulesCall V)) (call : RulesCall V) :
    replay (calls ++ [call]) = apply (replay calls) call := by
  rw [replay, List.foldl_append, List.foldl_cons, List.foldl_nil, replay]

end RulesCall

/-- The last call on a pattern is an upsert of this limit. -/
def LastUpsert (calls : List (RulesCall V)) (pattern : RulePattern) (limit : V) : Prop :=
  ∃ before after, calls = before ++ .upsert pattern limit :: after ∧ ∀ call ∈ after, call.pattern ≠ pattern

theorem replay_eq_some_iff (calls : List (RulesCall V)) (pattern : RulePattern) (limit : V) :
    RulesCall.replay calls pattern = some limit ↔ LastUpsert calls pattern limit := by
  induction calls using List.reverseRecOn with
  | nil =>
    constructor
    · intro stored
      cases stored
    · rintro ⟨before, after, split, -⟩
      simp at split
  | append_singleton calls call ih =>
    rw [RulesCall.replay_append_singleton, RulesCall.apply]
    by_cases onPattern : call.pattern = pattern
    · -- the last call is on the pattern: it decides
      subst onPattern
      rw [Function.update_self]
      constructor
      · intro limited
        cases call with
        | upsert pattern value =>
          cases limited
          exact ⟨calls, [], rfl, fun _ member => absurd member List.not_mem_nil⟩
        | remove pattern => cases limited
      · rintro ⟨before, after, split, later⟩
        rcases List.eq_nil_or_concat' after with rfl | ⟨after, last, rfl⟩
        · obtain ⟨-, lastEq⟩ := List.append_inj' split rfl
          rw [List.singleton_inj] at lastEq
          rw [lastEq]
          rfl
        · rw [← List.cons_append, ← List.append_assoc] at split
          obtain ⟨-, lastEq⟩ := List.append_inj' split rfl
          rw [List.singleton_inj] at lastEq
          exact absurd rfl (later call (by rw [lastEq]; exact List.mem_append_right _ (List.mem_singleton_self _)))
    · rw [Function.update_of_ne (Ne.symm onPattern), ih]
      constructor
      · rintro ⟨before, after, rfl, later⟩
        refine ⟨before, after ++ [call], by simp, fun other member => ?_⟩
        rcases List.mem_append.mp member with earlier | last
        · exact later other earlier
        · rw [List.mem_singleton.mp last]
          exact onPattern
      · rintro ⟨before, after, split, later⟩
        rcases List.eq_nil_or_concat' after with rfl | ⟨after, last, rfl⟩
        · obtain ⟨-, lastEq⟩ := List.append_inj' split rfl
          rw [List.singleton_inj] at lastEq
          exact absurd (by rw [lastEq]; rfl) onPattern
        · rw [← List.cons_append, ← List.append_assoc] at split
          obtain ⟨callsEq, -⟩ := List.append_inj' split rfl
          exact ⟨before, after, callsEq, fun other member => later other (List.mem_append_left _ member)⟩

end Store

end Restate
