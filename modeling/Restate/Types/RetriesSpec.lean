import Restate.Types.Retries

/-! What a retry iterator yields, against its policy. A call of `next` yields the delay that
`peek_next` gave, with jitter added within its bounds, and leaves a state that does not depend on
the jitter (`next_eq`, `addJitter_bounds`). From a fresh iterator a policy yields a delay exactly
`max_attempts` times within the range of `usize`, then none while the count stays below
`usize::MAX` (`peekNext_iterate_isSome_iff`, `next_past_limit`), and `iter_after` is that many
calls of `next` wherever the cap absorbs the progression (`iterAfter_eq_iterate`). -/

namespace Restate

open BinaryFormat

@[simp] theorem NonZeroUsize.max_val : NonZeroUsize.max.val = usizeMax := rfl

@[simp] theorem minJitter_nanos : minJitter.nanos = 3000000 := rfl

theorem wideMultiply_le (random : UInt64) (span : Nat) : random.toNat * span / 2 ^ 64 ≤ span :=
  Nat.div_le_of_le_mul (Nat.mul_le_mul_right span (Nat.le_of_lt random.toNat_lt))

theorem addJitter_bounds {d maxJitter jittered : Duration} {multiplier : F32} {random : UInt64}
    (scaled : d.mulF32 multiplier.val = some maxJitter) (added : addJitter d multiplier random = some jittered) :
    d.nanos + minJitter.nanos ≤ jittered.nanos ∧ jittered.nanos ≤ d.nanos + max minJitter.nanos maxJitter.nanos := by
  simp only [addJitter, scaled, Option.bind_eq_bind, Option.bind_some] at added
  by_cases small : maxJitter ≤ minJitter
  · rw [if_pos small] at added
    have sum := Duration.checkedAdd_nanos added
    omega
  · rw [if_neg small] at added
    rw [Duration.le_iff_nanos_le, minJitter_nanos] at small
    have leastNat : (UInt64.ofNat minJitter.asMicros).toNat = 3000 := by decide
    generalize UInt64.ofNat minJitter.asMicros = least at added leastNat
    -- the largest draw is the largest jitter in microseconds, saturated to `u64`
    generalize mostEq : (if maxJitter.asMicros < 2 ^ 64 then UInt64.ofNat maxJitter.asMicros
      else UInt64.ofNat (2 ^ 64 - 1)) = most at added
    have mostNat : most.toNat = min maxJitter.asMicros (2 ^ 64 - 1) := by
      subst mostEq
      split <;> simp only [UInt64.toNat_ofNat'] <;> omega
    have micros : maxJitter.asMicros * 1000 ≤ maxJitter.nanos ∧ 3000 ≤ maxJitter.asMicros := by
      unfold Duration.asMicros
      omega
    have spanNat : (most - least).toNat = most.toNat - least.toNat :=
      UInt64.toNat_sub_of_le _ _ (UInt64.le_iff_toNat_le.mpr (by omega))
    have draw := wideMultiply_le random (most - least).toNat
    generalize random.toNat * (most - least).toNat / 2 ^ 64 = offset at added draw
    have sumNat : (least + UInt64.ofNat offset).toNat = 3000 + offset := by
      rw [UInt64.toNat_add, UInt64.toNat_ofNat', leastNat]
      omega
    have sum := Duration.checkedAdd_nanos added
    rw [Duration.fromMicros_nanos, sumNat] at sum
    rw [minJitter_nanos]
    omega

theorem addJitter_max (multiplier : F32) (random : UInt64) : addJitter Duration.max multiplier random = none := by
  cases scaled : Duration.max.mulF32 multiplier.val with
  | none => simp [addJitter, scaled]
  | some maxJitter =>
    cases added : addJitter Duration.max multiplier random with
    | none => rfl
    | some jittered =>
      have bounds := (addJitter_bounds scaled added).1
      have bounded := jittered.bounded
      simp only [Duration.max, minJitter_nanos] at bounds
      omega

namespace RetryIter

theorem ext {a b : RetryIter} (policy : a.policy = b.policy) (attempts : a.attempts = b.attempts)
    (lastRetry : a.lastRetry = b.lastRetry) : a = b := by
  cases a
  cases b
  simp_all

theorem saturatingAdd_attempts_le (it : RetryIter) : saturatingAdd it.attempts 1 ≤ usizeMax :=
  saturatingAdd_le _ _

/-- The iterator after a call of `next`, which the jitter does not change. -/
def afterNext (it : RetryIter) : RetryIter :=
  { it with
    attempts := saturatingAdd it.attempts 1
    attempts_le := it.saturatingAdd_attempts_le
    lastRetry :=
      match it.policy, it.peekNext with
      | .exponential .., some delay => some delay
      | _, _ => it.lastRetry }

@[simp] theorem policy_afterNext (it : RetryIter) : it.afterNext.policy = it.policy := rfl

@[simp] theorem attempts_afterNext (it : RetryIter) : it.afterNext.attempts = saturatingAdd it.attempts 1 := rfl

theorem saturatingAdd_one {attempts : Nat} (room : attempts < usizeMax) :
    saturatingAdd attempts 1 = attempts + 1 ∧ (attempts + 1) % 2 ^ 64 = attempts + 1 := by
  unfold saturatingAdd usizeMax at *
  omega

theorem next_eq (it : RetryIter) (random : UInt64) (room : it.attempts < usizeMax) :
    it.next random =
      match it.peekNext with
      | .none => some (it.afterNext, .none)
      | some delay => (addJitter delay defaultJitterMultiplier random).map fun jittered => (it.afterNext, some jittered) := by
  obtain ⟨saturated, wrapped⟩ := saturatingAdd_one room
  obtain ⟨policy, attempts, lastRetry, bounded⟩ := it
  cases policy with
  | none => rfl
  | fixedDelay interval maxAttempts =>
    simp only [next, peekNext, afterNext, saturated, wrapped] at *
    split <;> rfl
  | exponential initialInterval factor maxAttempts maxInterval =>
    simp only [next, peekNext, afterNext, saturated, wrapped] at *
    split
    · rfl
    · cases lastRetry <;> rfl

theorem pastLimit_succ_iff (limit : Option NonZeroUsize) {attempts : Nat} (room : attempts < usizeMax) :
    pastLimit limit (attempts + 1) = true ↔ (limit.getD NonZeroUsize.max).val ≤ attempts := by
  cases limit with
  | none =>
    have unlimited : pastLimit none (attempts + 1) = false := rfl
    rw [unlimited, Option.getD_none, NonZeroUsize.max_val]
    constructor
    · intro never
      cases never
    · intro reached
      omega
  | some limit =>
    have limited : pastLimit (some limit) (attempts + 1) = decide (limit.val < attempts + 1) := rfl
    rw [limited, Option.getD_some, decide_eq_true_iff]
    omega

theorem isSome_ite_pastLimit (limit : Option NonZeroUsize) {attempts : Nat} (room : attempts < usizeMax)
    (delay : Option Duration) (given : delay.isSome = true) :
    (if pastLimit limit (attempts + 1) = true then none else delay).isSome = true ↔
      attempts < (limit.getD NonZeroUsize.max).val := by
  rw [← Nat.not_le, ← pastLimit_succ_iff limit room]
  by_cases past : pastLimit limit (attempts + 1) = true
  · rw [if_pos past]
    simp [past]
  · rw [if_neg past]
    simp [past, given]

theorem peekNext_isSome_iff (it : RetryIter) (room : it.attempts < usizeMax) :
    it.peekNext.isSome ↔ it.policy ≠ .none ∧ it.attempts < it.maxAttempts := by
  have wrapped := (saturatingAdd_one room).2
  obtain ⟨policy, attempts, lastRetry, bounded⟩ := it
  cases policy with
  | none => simp [peekNext]
  | fixedDelay interval limit =>
    simp only [peekNext, maxAttempts, wrapped, ne_eq, reduceCtorEq, not_false_eq_true, true_and]
    exact isSome_ite_pastLimit limit room _ rfl
  | exponential initialInterval factor limit maxInterval =>
    simp only [peekNext, maxAttempts, wrapped, ne_eq, reduceCtorEq, not_false_eq_true, true_and]
    cases lastRetry with
    | none => exact isSome_ite_pastLimit limit room _ rfl
    | some lastRetry => exact isSome_ite_pastLimit limit room _ rfl

@[simp] theorem policy_iterate (it : RetryIter) (calls : Nat) : (afterNext^[calls] it).policy = it.policy := by
  induction calls generalizing it with
  | zero => rfl
  | succ calls ih => rw [Function.iterate_succ_apply, ih, policy_afterNext]

theorem maxAttempts_iterate (it : RetryIter) (calls : Nat) : (afterNext^[calls] it).maxAttempts = it.maxAttempts := by
  unfold maxAttempts
  rw [policy_iterate]

theorem attempts_iterate (it : RetryIter) (calls : Nat) :
    (afterNext^[calls] it).attempts = min (it.attempts + calls) usizeMax := by
  induction calls generalizing it with
  | zero => simp [Nat.min_eq_left it.attempts_le]
  | succ calls ih =>
    rw [Function.iterate_succ_apply, ih, attempts_afterNext]
    unfold saturatingAdd
    omega

theorem peekNext_iterate_isSome_iff (policy : RetryPolicy) (calls : Nat) (room : calls < usizeMax) :
    (afterNext^[calls] policy.iter).peekNext.isSome ↔ policy ≠ .none ∧ calls < policy.iter.maxAttempts := by
  have attempts : (afterNext^[calls] policy.iter).attempts = calls := by
    rw [attempts_iterate]
    simp only [RetryPolicy.iter, Nat.zero_add]
    omega
  rw [peekNext_isSome_iff _ (by omega), attempts, policy_iterate, maxAttempts_iterate]
  rfl

theorem next_past_limit (it : RetryIter) (random : UInt64) {limit : NonZeroUsize}
    (bounded : it.policy.maxAttempts = some limit) (below : limit.val < usizeMax) (past : limit.val ≤ it.attempts) :
    it.next random = some ({ it with attempts := saturatingAdd it.attempts 1, attempts_le := saturatingAdd_le _ _ }, .none) ∧
      limit.val ≤ saturatingAdd it.attempts 1 := by
  have beyond : limit.val < saturatingAdd it.attempts 1 := by
    unfold saturatingAdd
    omega
  obtain ⟨policy, attempts, lastRetry, attemptsLe⟩ := it
  refine ⟨?_, Nat.le_of_lt beyond⟩
  cases policy with
  | none => rfl
  | fixedDelay interval maxAttempts =>
    cases bounded
    simp [next, pastLimit, beyond]
  | exponential initialInterval factor maxAttempts maxInterval =>
    cases bounded
    simp [next, pastLimit, beyond]

theorem maxAttempts_le (it : RetryIter) : it.maxAttempts ≤ usizeMax := by
  unfold maxAttempts
  split
  · exact Nat.zero_le _
  · exact NonZeroUsize.bounded _
  · exact NonZeroUsize.bounded _

/-- One step of the exponential progression: the last delay times the factor, clamped to the cap. -/
def clampStep (factor : F32) (cap : Duration) (d : Duration) : Duration := min (saturatingMulF32 d factor) cap

theorem replayClamped_eq_iterate {factor : F32} {cap : Duration} (absorbs : cap ≤ saturatingMulF32 cap factor)
    (steps : Nat) (d : Duration) : replayClamped factor cap steps d = (clampStep factor cap)^[steps] d := by
  have fixed : clampStep factor cap cap = cap := min_eq_right absorbs
  induction steps generalizing d with
  | zero => rfl
  | succ steps ih =>
    rw [Function.iterate_succ_apply]
    change (if cap ≤ clampStep factor cap d then clampStep factor cap d
      else replayClamped factor cap steps (clampStep factor cap d)) = _
    split_ifs with atCap
    · have reached : clampStep factor cap d = cap := le_antisymm (min_le_right _ _) atCap
      rw [reached, Function.iterate_fixed fixed]
    · exact ih _

theorem peekNext_exponential {it : RetryIter} {initialInterval : Duration} {factor : F32}
    {limit : Option NonZeroUsize} {maxInterval : Option Duration} {d : Duration}
    (policy : it.policy = .exponential initialInterval factor limit maxInterval) (last : it.lastRetry = some d)
    (remaining : it.attempts < it.maxAttempts) :
    it.peekNext = some (clampStep factor (maxInterval.getD Duration.max) d) := by
  have wrapped := (saturatingAdd_one (Nat.lt_of_lt_of_le remaining it.maxAttempts_le)).2
  obtain ⟨policy', attempts, lastRetry, bounded⟩ := it
  simp only at policy last wrapped remaining
  subst policy last
  simp only [maxAttempts] at remaining
  cases limit with
  | none => simp [peekNext, pastLimit, clampStep]
  | some limit =>
    simp only [Option.getD_some] at remaining
    simp only [peekNext, pastLimit, wrapped, Option.any_some, decide_eq_true_eq, clampStep]
    rw [if_neg (by omega)]

theorem lastRetry_iterate {it : RetryIter} {initialInterval : Duration} {factor : F32}
    {limit : Option NonZeroUsize} {maxInterval : Option Duration} {d : Duration}
    (policy : it.policy = .exponential initialInterval factor limit maxInterval) (last : it.lastRetry = some d)
    (calls : Nat) (remaining : it.attempts + calls ≤ it.maxAttempts) :
    (afterNext^[calls] it).lastRetry = some ((clampStep factor (maxInterval.getD Duration.max))^[calls] d) := by
  induction calls generalizing it d with
  | zero => simpa using last
  | succ calls ih =>
    have peek := peekNext_exponential policy last (by omega)
    have room : it.attempts < usizeMax := Nat.lt_of_lt_of_le (by omega) it.maxAttempts_le
    rw [Function.iterate_succ_apply, Function.iterate_succ_apply]
    refine ih (by rw [policy_afterNext, policy]) ?_ ?_
    · simp only [afterNext, policy, peek]
    · have sameMax := maxAttempts_iterate it 1
      rw [Function.iterate_one] at sameMax
      rw [attempts_afterNext, (saturatingAdd_one room).1, sameMax]
      omega

theorem lastRetry_iterate_fixedDelay {it : RetryIter} {interval : Duration} {limit : Option NonZeroUsize}
    (policy : it.policy = .fixedDelay interval limit) (calls : Nat) : (afterNext^[calls] it).lastRetry = it.lastRetry := by
  induction calls generalizing it with
  | zero => rfl
  | succ calls ih =>
    rw [Function.iterate_succ_apply, ih (by rw [policy_afterNext, policy])]
    simp only [afterNext, policy]

theorem attempts_fastForward (it : RetryIter) (n : Nat) (fits : it.attempts + n ≤ it.maxAttempts) :
    (it.fastForward n).attempts = it.attempts + n := by
  have bounded := it.maxAttempts_le
  unfold fastForward
  split
  · simp_all
  · obtain ⟨policy, attempts, lastRetry, attemptsLe⟩ := it
    simp only [maxAttempts] at fits bounded
    cases policy with
    | none => simp at fits; omega
    | fixedDelay interval limit =>
      cases limit <;> simp [RetryPolicy.maxAttempts, saturatingAdd] at * <;> omega
    | exponential initialInterval factor limit maxInterval =>
      cases limit <;> simp [RetryPolicy.maxAttempts, saturatingAdd] at * <;> omega

theorem lastRetry_fastForward {it : RetryIter} {initialInterval : Duration} {factor : F32}
    {limit : Option NonZeroUsize} {maxInterval : Option Duration}
    (policy : it.policy = .exponential initialInterval factor limit maxInterval) (fresh : it.lastRetry = .none)
    (calls : Nat) (fits : calls + 1 ≤ it.remainingAttempts) :
    (it.fastForward (calls + 1)).lastRetry = some (replayClamped factor (maxInterval.getD Duration.max) calls initialInterval) := by
  have replayed : min (calls + 1) it.remainingAttempts = calls + 1 := Nat.min_eq_left fits
  simp only [fastForward, Nat.add_one_ne_zero, if_false, replayed, policy, fresh]
  simp

end RetryIter

/-- The cap absorbs the exponential progression: at the cap, one more step stays there. -/
def RetryPolicy.CapAbsorbs : RetryPolicy → Prop
  | .exponential _ factor _ maxInterval =>
    maxInterval.getD Duration.max ≤ saturatingMulF32 (maxInterval.getD Duration.max) factor
  | _ => True

open RetryIter in
theorem iterAfter_eq_iterate (policy : RetryPolicy) (absorbs : policy.CapAbsorbs) (attemptsMade : Nat)
    (within : attemptsMade ≤ policy.iter.maxAttempts) :
    policy.iterAfter attemptsMade = afterNext^[attemptsMade] policy.iter := by
  cases attemptsMade with
  | zero => rfl
  | succ calls =>
    have fits := Nat.le_trans within policy.iter.maxAttempts_le
    apply ext
    · rw [policy_iterate]
      rfl
    · rw [RetryPolicy.iterAfter, attempts_fastForward _ _ (by simpa [RetryPolicy.iter] using within), attempts_iterate]
      simp only [RetryPolicy.iter, Nat.zero_add]
      omega
    · cases policy with
      | none => simp [RetryPolicy.iter, maxAttempts] at within
      | fixedDelay interval limit =>
        rw [lastRetry_iterate_fixedDelay rfl]
        simp [RetryPolicy.iterAfter, fastForward, RetryPolicy.iter]
      | exponential initialInterval factor limit maxInterval =>
        have first : (RetryPolicy.exponential initialInterval factor limit maxInterval).iter.afterNext.lastRetry =
            some initialInterval := by
          cases limit with
          | none => simp [afterNext, peekNext, RetryPolicy.iter, pastLimit]
          | some limit =>
            have nonzero : limit.val ≠ 0 := Nat.pos_iff_ne_zero.mp limit.pos
            simp [afterNext, peekNext, RetryPolicy.iter, pastLimit, nonzero]
        have later := lastRetry_iterate (policy_afterNext _) first calls (by
          rw [attempts_afterNext, (saturatingAdd_one (by simp [RetryPolicy.iter, usizeMax])).1]
          have sameMax := maxAttempts_iterate (RetryPolicy.exponential initialInterval factor limit maxInterval).iter 1
          rw [Function.iterate_one] at sameMax
          rw [sameMax]
          simpa [RetryPolicy.iter, Nat.add_comm] using within)
        rw [RetryPolicy.iterAfter, lastRetry_fastForward rfl rfl calls (by simpa [remainingAttempts, RetryPolicy.iter] using within),
          Function.iterate_succ_apply, later, replayClamped_eq_iterate absorbs]

/-! ## Where the iterator leaves its policy -/

/-- What the proofs need of `ln`: its sign at finite positive values. -/
structure LnSigns (ln : ExtFloat → ExtFloat) : Prop where
  above_one : ∀ x : ℚ, 1 < x → ∃ y, 0 < y ∧ ln (.finite x) = .finite y
  below_one : ∀ x : ℚ, 0 < x → x < 1 → ∃ y, y < 0 ∧ ln (.finite x) = .finite y

theorem toNatSat_ceil_div_ln {ln : ExtFloat → ExtFloat} (signs : LnSigns ln) {x r : ℚ} (above : 1 < x)
    (positive : 0 < r) (below : r < 1) (max : Nat) :
    ((binary64.div (ln (.finite x)) (ln (.finite r))).ceil).toNatSat max = 0 := by
  obtain ⟨up, upPos, lnX⟩ := signs.above_one x above
  obtain ⟨down, downNeg, lnR⟩ := signs.below_one r positive below
  rw [lnX, lnR, BinaryFormat.div, ExtFloat.div_finite downNeg.ne]
  exact ExtFloat.toNatSat_ceil_of_nonpos (binary64.round_of_neg (div_neg_of_pos_of_neg upPos downNeg)) max

/-- The iterator after a call of `next` for each of `randoms`. -/
def RetryIter.afterCalls (it : RetryIter) (randoms : List UInt64) : Option RetryIter :=
  randoms.foldlM (fun it random => (it.next random).map Prod.fst) it

def oneHalf : F32 := ⟨.finite (1 / 2), by decide +kernel⟩

def unitFactor : F32 := ⟨1, by decide +kernel⟩

def oneAttempt : NonZeroUsize := ⟨1, by decide, by decide⟩

def threeAttempts : NonZeroUsize := ⟨3, Nat.succ_pos 2, by decide⟩

/-- From 10s, halving, capped at 2s. -/
def halvingFromAboveCap : RetryPolicy :=
  .exponential (Duration.fromSecs 10) oneHalf .none (some (Duration.fromSecs 2))

/-- From 1s, halving, three attempts, capped at 10s. -/
def halvingUnderCap : RetryPolicy :=
  .exponential (Duration.fromSecs 1) oneHalf (some threeAttempts) (some (Duration.fromSecs 10))

/-- From 1s with factor one, three attempts, no cap. -/
def flatExponential : RetryPolicy := .exponential (Duration.fromSecs 1) unitFactor (some threeAttempts) .none

def maxFixedDelay : RetryPolicy := .fixedDelay Duration.max (some oneAttempt)

open RetryIter in
theorem retry_iterators_leave_their_policy :
    (halvingFromAboveCap.iterAfter 3).peekNext = some (Duration.fromSecs 1) ∧
      (halvingFromAboveCap.iter.afterCalls [0, 0, 0]).map peekNext = some (some (Duration.fromMillis 500 (by decide))) ∧
    (∀ random, maxFixedDelay.iter.next random = .none) ∧
    (∀ ln, flatExponential.iter.remainingCumulativeDuration ln = .none) ∧
    (List.range 3).map (fun calls => (afterNext^[calls] halvingUnderCap.iter).peekNext) =
        [some (Duration.fromSecs 1), some (Duration.fromMillis 500 (by decide)), some (Duration.fromMillis 250 (by decide))] ∧
      ∀ ln, LnSigns ln → halvingUnderCap.iter.remainingCumulativeDuration ln = some (.finite (Duration.fromSecs 30)) := by
  refine ⟨by decide +kernel, by decide +kernel, ?_, ?_, by decide +kernel, ?_⟩
  · -- the one delay is `Duration::MAX`, past which the jitter cannot go
    intro random
    have peek : maxFixedDelay.iter.peekNext = some Duration.max := rfl
    rw [next_eq _ _ (by decide), peek]
    simp [addJitter_max]
  · -- no cap: every attempt is geometric, and the sum divides zero by zero
    intro ln
    have infinite : flatExponential.iter.isInfinite = false := rfl
    have peek : flatExponential.iter.peekNext = some (Duration.fromSecs 1) := by decide +kernel
    have policy : flatExponential.iter.policy = .exponential (Duration.fromSecs 1) unitFactor (some threeAttempts) .none := rfl
    simp only [remainingCumulativeDuration, infinite, peek, policy, Option.map_none, Bool.false_eq_true, if_false]
    decide +kernel
  · -- `log_r(M / d₁)` is negative, so no delay counts below the cap and all three count at it
    intro ln signs
    have infinite : halvingUnderCap.iter.isInfinite = false := rfl
    have peek : halvingUnderCap.iter.peekNext = some (Duration.fromSecs 1) := by decide +kernel
    have policy : halvingUnderCap.iter.policy =
        .exponential (Duration.fromSecs 1) oneHalf (some threeAttempts) (some (Duration.fromSecs 10)) := rfl
    have below : (binary64.mul (Duration.fromSecs 1).asSecsF64 1000).ge (binary64.mul (Duration.fromSecs 10).asSecsF64 1000) = false := by
      decide +kernel
    have ratio : binary64.div (binary64.mul (Duration.fromSecs 10).asSecsF64 1000) (binary64.mul (Duration.fromSecs 1).asSecsF64 1000) =
        .finite 10 := by
      decide +kernel
    have steps := toNatSat_ceil_div_ln signs (x := 10) (r := 1 / 2) (by norm_num) (by norm_num) (by norm_num) usizeMax
    have half : oneHalf.val = .finite (1 / 2) := rfl
    simp only [remainingCumulativeDuration, infinite, peek, policy, Option.map_some, Bool.false_eq_true, if_false, below,
      ratio, half, steps]
    decide +kernel

end Restate
