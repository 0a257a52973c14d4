import Restate.Lib.StdDuration

/-! The retry policies of `restate_types::retries` and their iterator, with `add_jitter` of
`restate_util_time`. Durations and floats are those of `Lib/StdDuration` and `Lib/ExtFloat`; the
`ln` of `f64`, which the standard library leaves to the platform, is a parameter, and `add_jitter`
takes its random `u64` as an argument. A panic gives `none`. Arithmetic on `usize` wraps at
`2 ^ 64`, as a release build computes it. -/

namespace Restate

open BinaryFormat

def usizeMax : Nat := 2 ^ 64 - 1

structure NonZeroUsize where
  val : Nat
  pos : 0 < val
  bounded : val ≤ usizeMax

def NonZeroUsize.max : NonZeroUsize := ⟨usizeMax, by decide, Nat.le_refl _⟩

abbrev F32 := BinaryFormat.Value binary32

def saturatingAdd (a b : Nat) : Nat := min (a + b) usizeMax

theorem saturatingAdd_le (a b : Nat) : saturatingAdd a b ≤ usizeMax := Nat.min_le_right _ _

/-! ## `add_jitter` -/

def minJitter : Duration := Duration.fromMillis 3 (by decide)

/-- `add_jitter`: the duration plus a jitter of 3ms, or, where `multiplier` of the duration is
more, of a number of microseconds drawn from 3ms up to that. -/
def addJitter (d : Duration) (multiplier : F32) (random : UInt64) : Option Duration := do
  let maxJitter ← d.mulF32 multiplier.val
  if maxJitter ≤ minJitter then
    d.checkedAdd minJitter
  else
    let min : UInt64 := UInt64.ofNat minJitter.asMicros
    let max : UInt64 := if maxJitter.asMicros < 2 ^ 64 then UInt64.ofNat maxJitter.asMicros else UInt64.ofNat (2 ^ 64 - 1)
    let span := max - min
    -- the wide multiply of the random value by the span, shifted down by 64 bits
    let offset : UInt64 := UInt64.ofNat (random.toNat * span.toNat / 2 ^ 64)
    d.checkedAdd (Duration.fromMicros (min + offset))

/-! ## Policies -/

def defaultJitterMultiplier : F32 := ⟨binary32.round (.finite (3 / 10)), by decide +kernel⟩

inductive RetryPolicy
  | none
  | fixedDelay (interval : Duration) (maxAttempts : Option NonZeroUsize)
  | exponential (initialInterval : Duration) (factor : F32) (maxAttempts : Option NonZeroUsize)
      (maxInterval : Option Duration)

def RetryPolicy.maxAttempts : RetryPolicy → Option NonZeroUsize
  | .none => .none
  | .fixedDelay _ maxAttempts | .exponential _ _ maxAttempts _ => maxAttempts

structure RetryIter where
  policy : RetryPolicy
  attempts : Nat
  lastRetry : Option Duration
  attempts_le : attempts ≤ usizeMax

def RetryPolicy.iter (policy : RetryPolicy) : RetryIter := ⟨policy, 0, .none, Nat.zero_le _⟩

/-- `saturating_mul_f32`: the product through `f32` seconds, `Duration::MAX` where it fails. -/
def saturatingMulF32 (d : Duration) (factor : F32) : Duration :=
  (Duration.tryFromSecs (binary32.mul d.asSecsF32 factor.val)).getD Duration.max

/-- `n as i32` of a `usize`: its low 32 bits, read with a sign. -/
def wrapI32 (n : Nat) : Int :=
  if n % 2 ^ 32 < 2 ^ 31 then n % 2 ^ 32 else (n % 2 ^ 32 : Nat) - 2 ^ 32

inductive WaitDuration
  | infinite
  | finite (duration : Duration)
  | none
  deriving DecidableEq

namespace RetryIter

def maxAttempts (it : RetryIter) : Nat :=
  match it.policy with
  | .none => 0
  | .fixedDelay _ maxAttempts | .exponential _ _ maxAttempts _ => (maxAttempts.getD NonZeroUsize.max).val

def remainingAttempts (it : RetryIter) : Nat := it.maxAttempts - it.attempts

def isInfinite (it : RetryIter) : Bool :=
  match it.policy with
  | .none => false
  | .fixedDelay _ maxAttempts | .exponential _ _ maxAttempts _ => maxAttempts.isNone

/-- Whether the attempt after `attempts` is past the limit, `attempts + 1` wrapping. -/
def pastLimit (maxAttempts : Option NonZeroUsize) (attempts : Nat) : Bool :=
  maxAttempts.any fun limit => decide (limit.val < attempts)

/-- `peek_next`: the next delay without jitter. -/
def peekNext (it : RetryIter) : Option Duration :=
  match it.policy with
  | .none => .none
  | .fixedDelay interval maxAttempts =>
    if pastLimit maxAttempts ((it.attempts + 1) % 2 ^ 64) then .none else some interval
  | .exponential initialInterval factor maxAttempts maxInterval =>
    if pastLimit maxAttempts ((it.attempts + 1) % 2 ^ 64) then .none
    else
      match it.lastRetry with
      | some lastRetry => some (min (saturatingMulF32 lastRetry factor) (maxInterval.getD Duration.max))
      | .none => some initialInterval

/-- `next`: the iterator after the call and the delay it yields, jitter added; `none` where
`add_jitter` panics. -/
def next (it : RetryIter) (random : UInt64) : Option (RetryIter × Option Duration) :=
  let it : RetryIter := { it with attempts := saturatingAdd it.attempts 1, attempts_le := saturatingAdd_le _ _ }
  match it.policy with
  | .none => some (it, .none)
  | .fixedDelay interval maxAttempts =>
    if pastLimit maxAttempts it.attempts then some (it, .none)
    else (addJitter interval defaultJitterMultiplier random).map fun delay => (it, some delay)
  | .exponential initialInterval factor maxAttempts maxInterval =>
    if pastLimit maxAttempts it.attempts then some (it, .none)
    else
      match it.lastRetry with
      | some lastRetry =>
        let newRetry := min (saturatingMulF32 lastRetry factor) (maxInterval.getD Duration.max)
        (addJitter newRetry defaultJitterMultiplier random).map fun delay =>
          ({ it with lastRetry := some newRetry }, some delay)
      | .none =>
        (addJitter initialInterval defaultJitterMultiplier random).map fun delay =>
          ({ it with lastRetry := some initialInterval }, some delay)

/-- The loop of `fast_forward`: multiply and clamp `steps` times, stopping once at the cap. -/
def replayClamped (factor : F32) (cap : Duration) : Nat → Duration → Duration
  | 0, d => d
  | steps + 1, d =>
    let d := min (saturatingMulF32 d factor) cap
    if cap ≤ d then d else replayClamped factor cap steps d

/-- `fast_forward`: `n` attempts on, replaying the exponential progression. -/
def fastForward (it : RetryIter) (n : Nat) : RetryIter :=
  if n = 0 then it
  else
    let stepsToReplay := min n it.remainingAttempts
    let lastRetry :=
      match it.policy with
      | .exponential initialInterval factor _ maxInterval =>
        if 0 < stepsToReplay then
          let cap := maxInterval.getD Duration.max
          match it.lastRetry with
          | .none => some (replayClamped factor cap (stepsToReplay - 1) initialInterval)
          | some last => some (replayClamped factor cap stepsToReplay last)
        else it.lastRetry
      | _ => it.lastRetry
    let attempts := saturatingAdd it.attempts n
    { it with
      lastRetry := lastRetry
      attempts := (it.policy.maxAttempts.map fun limit => min attempts limit.val).getD attempts
      attempts_le := by
        cases it.policy.maxAttempts with
        | none => exact saturatingAdd_le _ _
        | some limit => exact Nat.le_trans (Nat.min_le_right _ _) limit.bounded }

/-- `remaining_cumulative_duration`, with `ln` the natural logarithm of `f64`. -/
def remainingCumulativeDuration (ln : ExtFloat → ExtFloat) (it : RetryIter) : Option WaitDuration :=
  if it.isInfinite then some .infinite
  else
    match it.peekNext with
    | .none => some .none
    | some nextDelay =>
      match it.policy with
      | .none => some .none
      | .fixedDelay interval _ => (interval.mulF64 (binary64.ofNat it.remainingAttempts)).map .finite
      | .exponential _ factor _ maxInterval =>
        let retriesLeft := it.remainingAttempts
        -- `f32` to `f64` is exact
        let r := factor.val
        let d1Ms := binary64.mul nextDelay.asSecsF64 1000
        let capMs := maxInterval.map fun d => binary64.mul d.asSecsF64 1000
        let nExp :=
          match capMs with
          | .none => retriesLeft
          | some m =>
            if d1Ms.ge m then 0
            else
              let ceilJ := ((binary64.div (ln (binary64.div m d1Ms)) (ln r)).ceil).toNatSat usizeMax
              min retriesLeft ceilJ
        let geomMs :=
          if nExp = 0 then 0
          else binary64.div (binary64.mul d1Ms (binary64.sub (binary64.powi r (wrapI32 nExp)) 1)) (binary64.sub r 1)
        let capTailMs :=
          match capMs with
          | some m => binary64.mul (binary64.ofNat (retriesLeft - nExp)) m
          | .none => 0
        (Duration.fromSecsF64 (binary64.div (binary64.add geomMs capTailMs) 1000)).map .finite

end RetryIter

/-- `iter_after`: a fresh iterator fast-forwarded by `attemptsMade`. -/
def RetryPolicy.iterAfter (policy : RetryPolicy) (attemptsMade : Nat) : RetryIter :=
  policy.iter.fastForward attemptsMade

end Restate
