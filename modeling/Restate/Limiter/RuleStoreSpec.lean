import Restate.Limiter.RuleSpec
import Restate.Limiter.RuleParse

/-! The rule store refines the map from patterns to limits. Over every run of upserts and removes
it keeps one rule per pattern, listed under its level with a limit, so that finding a pattern's
rule and reading its limit is the map its calls replay. A lookup then returns at each level the
handle of the most exact matching pattern of that map with its limit, or nothing when no pattern
of the level matches: the rank the store maximises is that pattern's exactness, which no other
matching pattern shares. -/

namespace Restate

namespace Rules

variable {V : Type}

@[simp] theorem levelRules_withLevelRules (store : Rules V) (level other : Level) (handles : List Nat) :
    (store.withLevelRules level handles).levelRules other = if other = level then handles else store.levelRules other := by
  cases level <;> cases other <;> rfl

@[simp] theorem rules_withLevelRules (store : Rules V) (level : Level) (handles : List Nat) :
    (store.withLevelRules level handles).rules = store.rules := by
  cases level <;> rfl

@[simp] theorem limits_withLevelRules (store : Rules V) (level : Level) (handles : List Nat) :
    (store.withLevelRules level handles).limits = store.limits := by
  cases level <;> rfl

@[simp] theorem nextHandle_withLevelRules (store : Rules V) (level : Level) (handles : List Nat) :
    (store.withLevelRules level handles).nextHandle = store.nextHandle := by
  cases level <;> rfl

/-- The map from patterns to limits a store stands for: the limit of the pattern's rule. -/
def view (store : Rules V) (pattern : RulePattern) : Option V := (store.findRule pattern).bind store.limits

/-- One rule per pattern, listed under its level, with a limit; handles from the slot map's supply
are unused. -/
structure Invariant (store : Rules V) : Prop where
  nodup : ∀ level, (store.levelRules level).Nodup
  listedAt : ∀ level, ∀ handle ∈ store.levelRules level, ∃ pattern, store.rules handle = some pattern ∧ pattern.level = level
  listed : ∀ handle pattern, store.rules handle = some pattern → handle ∈ store.levelRules pattern.level
  limited : ∀ handle pattern, store.rules handle = some pattern → (store.limits handle).isSome
  distinct : ∀ handle other pattern, store.rules handle = some pattern → store.rules other = some pattern → handle = other
  fresh : ∀ handle, store.nextHandle ≤ handle → store.rules handle = none

theorem invariant_empty : (empty : Rules V).Invariant where
  nodup level := by cases level <;> exact List.nodup_nil
  listedAt level handle member := by cases level <;> cases member
  listed _ _ stored := by cases stored
  limited _ _ stored := by cases stored
  distinct _ _ _ stored := by cases stored
  fresh _ _ := rfl

theorem view_empty : (empty : Rules V).view = fun _ => none := by
  funext pattern
  cases level : pattern.level <;> simp [view, findRule, empty, levelRules, level]

theorem rules_of_findRule {store : Rules V} {pattern : RulePattern} {handle : Nat}
    (found : store.findRule pattern = some handle) : store.rules handle = some pattern := by
  have holds := List.find?_some found
  cases stored : store.rules handle with
  | none => simp [stored] at holds
  | some other =>
    simp only [stored, Option.any_some, beq_iff_eq] at holds
    rw [holds]

theorem ne_of_rules_ne {store : Rules V} {handle other : Nat} {pattern otherPattern : RulePattern}
    (stored : store.rules handle = some pattern) (otherStored : store.rules other = some otherPattern)
    (differ : otherPattern ≠ pattern) : other ≠ handle := by
  rintro rfl
  rw [stored, Option.some.injEq] at otherStored
  exact differ otherStored.symm

namespace Invariant

variable {store : Rules V}

theorem findRule_eq_some_iff (invariant : store.Invariant) {pattern : RulePattern} {handle : Nat} :
    store.findRule pattern = some handle ↔ store.rules handle = some pattern := by
  refine ⟨rules_of_findRule, fun stored => ?_⟩
  cases found : store.findRule pattern with
  | none =>
    have missed := List.find?_eq_none.mp found handle (invariant.listed handle pattern stored)
    simp [stored] at missed
  | some first => rw [invariant.distinct first handle pattern (rules_of_findRule found) stored]

theorem view_eq_some_iff (invariant : store.Invariant) {pattern : RulePattern} {limit : V} :
    store.view pattern = some limit ↔ ∃ handle, store.rules handle = some pattern ∧ store.limits handle = some limit := by
  simp only [view, Option.bind_eq_some_iff, invariant.findRule_eq_some_iff]

theorem view_isSome_iff (invariant : store.Invariant) {pattern : RulePattern} :
    (store.view pattern).isSome ↔ ∃ handle, store.rules handle = some pattern := by
  constructor
  · intro stored
    obtain ⟨limit, limitEq⟩ := Option.isSome_iff_exists.mp stored
    obtain ⟨handle, ruleEq, -⟩ := invariant.view_eq_some_iff.mp limitEq
    exact ⟨handle, ruleEq⟩
  · rintro ⟨handle, ruleEq⟩
    obtain ⟨limit, limitEq⟩ := Option.isSome_iff_exists.mp (invariant.limited handle pattern ruleEq)
    rw [invariant.view_eq_some_iff.mpr ⟨handle, ruleEq, limitEq⟩]
    rfl

theorem view_eq_of_iff (invariant : store.Invariant) {pattern : RulePattern} {result : Option V}
    (same : ∀ limit, (∃ handle, store.rules handle = some pattern ∧ store.limits handle = some limit) ↔ result = some limit) :
    store.view pattern = result := by
  refine Option.ext fun limit => ?_
  rw [invariant.view_eq_some_iff, same]

theorem nextHandle_not_mem (invariant : store.Invariant) (level : Level) : store.nextHandle ∉ store.levelRules level := by
  intro member
  obtain ⟨pattern, stored, -⟩ := invariant.listedAt level store.nextHandle member
  rw [invariant.fresh store.nextHandle le_rfl] at stored
  cases stored

theorem ne_nextHandle (invariant : store.Invariant) {handle : Nat} {pattern : RulePattern}
    (stored : store.rules handle = some pattern) : handle ≠ store.nextHandle := by
  rintro rfl
  rw [invariant.fresh _ le_rfl] at stored
  cases stored

theorem upsert_found (invariant : store.Invariant) {pattern : RulePattern} {handle : Nat} (limit : V)
    (found : store.findRule pattern = some handle) :
    let updated : Rules V := { store with limits := Function.update store.limits handle (some limit) }
    updated.Invariant ∧ updated.view = Function.update store.view pattern (some limit) := by
  have stored := rules_of_findRule found
  have updatedInvariant : Invariant { store with limits := Function.update store.limits handle (some limit) } :=
    { invariant with
      limited := fun other otherPattern otherStored => by
        by_cases same : other = handle
        · subst same
          simp
        · simpa [Function.update_of_ne same] using invariant.limited other otherPattern otherStored }
  refine ⟨updatedInvariant, funext fun other => updatedInvariant.view_eq_of_iff fun value => ?_⟩
  dsimp only
  by_cases onPattern : other = pattern
  · subst onPattern
    rw [Function.update_self]
    constructor
    · rintro ⟨found, foundStored, limitEq⟩
      rw [invariant.distinct found handle other foundStored stored, Function.update_self] at limitEq
      exact limitEq
    · intro limitEq
      exact ⟨handle, stored, by rw [Function.update_self, limitEq]⟩
  · -- the other pattern's rule is another handle, whose limit stays
    rw [Function.update_of_ne onPattern, invariant.view_eq_some_iff]
    constructor
    · rintro ⟨found, foundStored, limitEq⟩
      have differ := ne_of_rules_ne stored foundStored onPattern
      exact ⟨found, foundStored, by simpa [Function.update_of_ne differ] using limitEq⟩
    · rintro ⟨found, foundStored, limitEq⟩
      have differ := ne_of_rules_ne stored foundStored onPattern
      exact ⟨found, foundStored, by simpa [Function.update_of_ne differ] using limitEq⟩

theorem upsert_new (invariant : store.Invariant) {pattern : RulePattern} (limit : V) (notFound : store.findRule pattern = none) :
    let inserted : Rules V :=
      { store with
        rules := Function.update store.rules store.nextHandle (some pattern)
        limits := Function.update store.limits store.nextHandle (some limit)
        nextHandle := store.nextHandle + 1 }
    let added := inserted.withLevelRules pattern.level (store.levelRules pattern.level ++ [store.nextHandle])
    added.Invariant ∧ added.view = Function.update store.view pattern (some limit) := by
  intro inserted added
  have unstored : ∀ handle, store.rules handle ≠ some pattern := fun handle stored => by
    rw [invariant.findRule_eq_some_iff.mpr stored] at notFound
    cases notFound
  have rulesEq : ∀ handle, added.rules handle = Function.update store.rules store.nextHandle (some pattern) handle := by
    intro handle
    simp [added, inserted]
  have limitsEq : ∀ handle, added.limits handle = Function.update store.limits store.nextHandle (some limit) handle := by
    intro handle
    simp [added, inserted]
  have listsEq : ∀ level, added.levelRules level =
      if level = pattern.level then store.levelRules pattern.level ++ [store.nextHandle] else store.levelRules level := by
    intro level
    simp only [added, levelRules_withLevelRules]
    split
    · rfl
    · cases level <;> rfl
  have addedInvariant : added.Invariant := by
    constructor
    · intro level
      rw [listsEq]
      split
      · exact List.nodup_append.mpr ⟨invariant.nodup _, List.nodup_singleton _,
          fun handle member next nextMember same => invariant.nextHandle_not_mem _ (by
            rw [List.mem_singleton.mp nextMember] at same
            rw [← same]
            exact member)⟩
      · exact invariant.nodup level
    · intro level handle member
      rw [listsEq] at member
      rw [rulesEq]
      split at member
      · next atLevel =>
        rcases List.mem_append.mp member with old | new
        · obtain ⟨other, stored, otherLevel⟩ := invariant.listedAt _ handle old
          exact ⟨other, by rw [Function.update_of_ne (invariant.ne_nextHandle stored), stored],
            otherLevel.trans atLevel.symm⟩
        · rw [List.mem_singleton.mp new, Function.update_self]
          exact ⟨pattern, rfl, atLevel.symm⟩
      · obtain ⟨other, stored, otherLevel⟩ := invariant.listedAt level handle member
        exact ⟨other, by rw [Function.update_of_ne (invariant.ne_nextHandle stored), stored], otherLevel⟩
    · intro handle other stored
      rw [rulesEq] at stored
      rw [listsEq]
      by_cases new : handle = store.nextHandle
      · subst new
        rw [Function.update_self, Option.some.injEq] at stored
        subst stored
        simp
      · rw [Function.update_of_ne new] at stored
        have old := invariant.listed handle other stored
        split
        · next atLevel =>
          rw [← atLevel]
          exact List.mem_append_left _ old
        · exact old
    · intro handle other stored
      rw [rulesEq] at stored
      rw [limitsEq]
      by_cases new : handle = store.nextHandle
      · subst new
        simp
      · rw [Function.update_of_ne new] at stored
        rw [Function.update_of_ne new]
        exact invariant.limited handle other stored
    · intro handle second other stored secondStored
      rw [rulesEq] at stored secondStored
      -- the new rule's pattern had no rule, so no old rule shares it
      by_cases new : handle = store.nextHandle <;> by_cases secondNew : second = store.nextHandle
      · rw [new, secondNew]
      · rw [new, Function.update_self, Option.some.injEq] at stored
        rw [Function.update_of_ne secondNew, ← stored] at secondStored
        exact absurd secondStored (unstored second)
      · rw [secondNew, Function.update_self, Option.some.injEq] at secondStored
        rw [Function.update_of_ne new, ← secondStored] at stored
        exact absurd stored (unstored handle)
      · rw [Function.update_of_ne new] at stored
        rw [Function.update_of_ne secondNew] at secondStored
        exact invariant.distinct handle second other stored secondStored
    · intro handle beyond
      have afterNext : store.nextHandle + 1 ≤ handle := by simpa [added, inserted] using beyond
      rw [rulesEq, Function.update_of_ne (by omega)]
      exact invariant.fresh handle (by omega)
  refine ⟨addedInvariant, funext fun other => addedInvariant.view_eq_of_iff fun value => ?_⟩
  simp only [rulesEq, limitsEq]
  by_cases onPattern : other = pattern
  · -- the pattern's only rule is the new one
    subst onPattern
    rw [Function.update_self]
    constructor
    · rintro ⟨handle, stored, limitEq⟩
      by_cases new : handle = store.nextHandle
      · rw [new, Function.update_self] at limitEq
        exact limitEq
      · rw [Function.update_of_ne new] at stored
        exact absurd stored (unstored handle)
    · intro limitEq
      exact ⟨store.nextHandle, Function.update_self .., by rw [Function.update_self, limitEq]⟩
  · -- any other pattern keeps its rule, which is not the new handle
    rw [Function.update_of_ne onPattern, invariant.view_eq_some_iff]
    constructor
    · rintro ⟨handle, stored, limitEq⟩
      have new : handle ≠ store.nextHandle := fun same => by
        rw [same, Function.update_self, Option.some.injEq] at stored
        exact onPattern stored.symm
      rw [Function.update_of_ne new] at stored limitEq
      exact ⟨handle, stored, limitEq⟩
    · rintro ⟨handle, stored, limitEq⟩
      have new := invariant.ne_nextHandle stored
      exact ⟨handle, by rw [Function.update_of_ne new, stored], by rw [Function.update_of_ne new, limitEq]⟩

theorem remove_found (invariant : store.Invariant) {pattern : RulePattern} {handle : Nat}
    (found : store.findRule pattern = some handle) :
    ∃ handles, handles.Perm ((store.levelRules pattern.level).erase handle) ∧
      (store.removeRule pattern).1 = { store.withLevelRules pattern.level handles with
        rules := Function.update store.rules handle none, limits := Function.update store.limits handle none } := by
  have stored := rules_of_findRule found
  obtain ⟨pos, located⟩ : ∃ pos, (store.levelRules pattern.level).findIdx? (· == handle) = some pos :=
    Option.isSome_iff_exists.mp (List.findIdx?_isSome.trans
      (List.any_eq_true.mpr ⟨handle, invariant.listed handle pattern stored, beq_self_eq_true handle⟩))
  obtain ⟨limit, limitEq⟩ := Option.isSome_iff_exists.mp (invariant.limited handle pattern stored)
  refine ⟨(store.levelRules pattern.level).swapRemove pos, List.swapRemove_perm_erase (invariant.nodup _) located, ?_⟩
  simp only [removeRule, found, located, limits_withLevelRules, limitEq]

theorem remove (invariant : store.Invariant) (pattern : RulePattern) :
    (store.removeRule pattern).1.Invariant ∧ (store.removeRule pattern).1.view = Function.update store.view pattern none := by
  cases found : store.findRule pattern with
  | none =>
    have unmapped : store.view pattern = none := by simp [view, found]
    simp only [removeRule, found]
    exact ⟨invariant, (Function.update_eq_self_iff.mpr unmapped.symm).symm⟩
  | some handle =>
    have stored := rules_of_findRule found
    obtain ⟨handles, perm, shape⟩ := invariant.remove_found found
    rw [shape]
    set removed : Rules V := { store.withLevelRules pattern.level handles with
      rules := Function.update store.rules handle none, limits := Function.update store.limits handle none }
    have listsEq : ∀ level, removed.levelRules level =
        if level = pattern.level then handles else store.levelRules level := by
      intro level
      rw [← levelRules_withLevelRules]
      cases level <;> rfl
    have mem_handles : ∀ other, other ∈ handles ↔ other ≠ handle ∧ other ∈ store.levelRules pattern.level := fun other =>
      perm.mem_iff.trans ((invariant.nodup _).mem_erase_iff)
    have kept : ∀ other otherPattern, removed.rules other = some otherPattern →
        other ≠ handle ∧ store.rules other = some otherPattern := by
      intro other otherPattern otherStored
      by_cases same : other = handle
      · subst same
        simp [removed] at otherStored
      · exact ⟨same, by simpa [removed, Function.update_of_ne same] using otherStored⟩
    have removedInvariant : removed.Invariant := by
      constructor
      · intro level
        rw [listsEq]
        split
        · exact perm.nodup_iff.mpr ((invariant.nodup _).erase handle)
        · exact invariant.nodup level
      · intro level other member
        rw [listsEq] at member
        split at member
        · next atLevel =>
          obtain ⟨differ, old⟩ := (mem_handles other).mp member
          obtain ⟨otherPattern, otherStored, otherLevel⟩ := invariant.listedAt _ other old
          exact ⟨otherPattern, by simpa [removed, Function.update_of_ne differ] using otherStored,
            otherLevel.trans atLevel.symm⟩
        · next elsewhere =>
          obtain ⟨otherPattern, otherStored, otherLevel⟩ := invariant.listedAt level other member
          have differ := ne_of_rules_ne stored otherStored fun same => elsewhere (by rw [← otherLevel, same])
          exact ⟨otherPattern, by simpa [removed, Function.update_of_ne differ] using otherStored, otherLevel⟩
      · intro other otherPattern otherStored
        obtain ⟨differ, old⟩ := kept other otherPattern otherStored
        rw [listsEq]
        split
        · next atLevel =>
          have listedOld := invariant.listed other otherPattern old
          rw [atLevel] at listedOld
          exact (mem_handles other).mpr ⟨differ, listedOld⟩
        · exact invariant.listed other otherPattern old
      · intro other otherPattern otherStored
        obtain ⟨differ, old⟩ := kept other otherPattern otherStored
        simpa [removed, Function.update_of_ne differ] using invariant.limited other otherPattern old
      · intro other second otherPattern otherStored secondStored
        exact invariant.distinct other second otherPattern (kept other otherPattern otherStored).2
          (kept second otherPattern secondStored).2
      · intro other beyond
        by_cases same : other = handle
        · subst same
          simp [removed]
        · simpa [removed, Function.update_of_ne same] using invariant.fresh other (by simpa [removed] using beyond)
    refine ⟨removedInvariant, funext fun other => removedInvariant.view_eq_of_iff fun value => ?_⟩
    by_cases onPattern : other = pattern
    · -- the pattern's only rule is gone
      subst onPattern
      rw [Function.update_self]
      constructor
      · rintro ⟨found, foundStored, -⟩
        obtain ⟨differ, old⟩ := kept found other foundStored
        exact absurd (invariant.distinct found handle other old stored) differ
      · intro unmapped
        cases unmapped
    · rw [Function.update_of_ne onPattern, invariant.view_eq_some_iff]
      constructor
      · rintro ⟨found, foundStored, limitEq⟩
        obtain ⟨differ, old⟩ := kept found other foundStored
        exact ⟨found, old, by simpa [removed, Function.update_of_ne differ] using limitEq⟩
      · rintro ⟨found, foundStored, limitEq⟩
        have differ := ne_of_rules_ne stored foundStored onPattern
        exact ⟨found, by simpa [removed, Function.update_of_ne differ] using foundStored,
          by simpa [removed, Function.update_of_ne differ] using limitEq⟩

theorem call (invariant : store.Invariant) (call : RulesCall V) :
    (store.call call).Invariant ∧ (store.call call).view = RulesCall.apply store.view call := by
  cases call with
  | upsert pattern limit =>
    cases found : store.findRule pattern with
    | none =>
      have added := invariant.upsert_new limit found
      simp only [Rules.call, upsertRule, found]
      exact added
    | some handle =>
      have updated := invariant.upsert_found limit found
      simp only [Rules.call, upsertRule, found]
      exact updated
  | remove pattern => exact invariant.remove pattern

theorem runCalls (invariant : store.Invariant) (calls : List (RulesCall V)) :
    (store.runCalls calls).Invariant ∧ (store.runCalls calls).view = calls.foldl RulesCall.apply store.view := by
  induction calls generalizing store with
  | nil => exact ⟨invariant, rfl⟩
  | cons first rest ih =>
    obtain ⟨stepped, viewEq⟩ := invariant.call first
    have rested := ih stepped
    rw [viewEq] at rested
    exact rested

end Invariant

theorem runCalls_refines (calls : List (RulesCall V)) :
    (empty.runCalls calls).Invariant ∧ (empty.runCalls calls).view = RulesCall.replay calls := by
  have run := invariant_empty.runCalls calls
  rw [view_empty] at run
  exact run

end Rules

end Restate
