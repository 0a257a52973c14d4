import Mathlib

/-! The hybrid logical clock (crates/clock): a timestamp packs 42 bits of physical milliseconds
since the Restate epoch above a 22-bit logical counter into a u64, and the clock keeps the last
timestamp it emitted in an atomic u64. A call reads the physical clock once and then applies its
update to the stored value with a compare-exchange loop; the model applies it at the successful
compare-exchange, which is where concurrent calls are linearized. A call returns `none` where the
source panics. -/

namespace Restate

def phyTimeBits : Nat := 42

def phyTimeMax : Nat := (1 <<< phyTimeBits) - 1

def lcBits : Nat := 22

def lcMax : Nat := (1 <<< lcBits) - 1

/-- 2022-01-01 00:00:00 GMT in Unix milliseconds. -/
def restateEpoch : Nat := 1640995200000

/-- u64 subtraction as a release build computes it: below zero it wraps. -/
def wrappingSub (a b : Nat) : Nat := if b ≤ a then a - b else a + 2 ^ 64 - b

inductive ClockError
  | timestampExceedsMax
  | physicalTimeExceedsMax (phy : Nat)
  | logicalClockExceedsMax (lc max : Nat)
  | unixTimestampBelowMin (unixMillis : Nat)
  | unacceptableClockDrift (actual maxDrift : Nat)
  deriving DecidableEq, Repr

/-- The raw u64 of a timestamp. The source keeps raw + 1 in a NonZeroU64, so u64::MAX is not a
timestamp; the order is the order of the raw values. -/
structure UniqueTimestamp where
  raw : Nat
  raw_lt : raw < 2 ^ 64 - 1
  deriving DecidableEq

namespace UniqueTimestamp

instance : LinearOrder UniqueTimestamp := LinearOrder.lift' UniqueTimestamp.raw fun a b same => by
  cases a
  cases b
  simp_all

theorem lt_iff (a b : UniqueTimestamp) : a < b ↔ a.raw < b.raw := Iff.rfl

/-- Values above the range clamp to the largest timestamp. -/
def new (raw : Nat) : UniqueTimestamp := ⟨min raw (2 ^ 64 - 2), by omega⟩

def tryFromParts (phy lc : Nat) : Except ClockError UniqueTimestamp :=
  if phy > phyTimeMax then .error (.physicalTimeExceedsMax phy)
  else if lc > lcMax then .error (.logicalClockExceedsMax lc lcMax)
  else if lc = lcMax ∧ phy = phyTimeMax then .error .timestampExceedsMax
  else .ok (new ((phy <<< lcBits) ||| lc))

/-- `none` where one of the source's assertions fails. -/
def fromPartsUnchecked (phy lc : Nat) : Option UniqueTimestamp :=
  if phy ≤ phyTimeMax ∧ lc ≤ lcMax ∧ (phy <<< lcBits) ||| lc < 2 ^ 64 - 1 then
    some (new ((phy <<< lcBits) ||| lc))
  else none

def tryFromUnixMillis (unixMillis : Nat) : Except ClockError UniqueTimestamp :=
  if unixMillis < restateEpoch then .error (.unixTimestampBelowMin unixMillis)
  else tryFromParts (unixMillis - restateEpoch) 0

def split (timestamp : UniqueTimestamp) : Nat × Nat :=
  ((timestamp.raw >>> lcBits) &&& phyTimeMax, timestamp.raw &&& lcMax)

end UniqueTimestamp

structure HlcClock where
  /-- The last timestamp emitted, as the atomic storage holds it. -/
  state : UniqueTimestamp
  /-- The maximum allowed drift in milliseconds; `none` disables the drift check. -/
  maxDrift : Option Nat

namespace HlcClock

/-- `none` where the source asserts that the wall clock is after the Restate epoch. -/
def new (maxDrift : Option Nat) (unixNow : Nat) : Option (Except ClockError HlcClock) :=
  if unixNow ≤ restateEpoch then none
  else some ((UniqueTimestamp.tryFromUnixMillis unixNow).map fun now => ⟨now, maxDrift⟩)

def snapshot (clock : HlcClock) : UniqueTimestamp := clock.state

/-- Apply an update to the stored (physical, logical) pair; an error stores nothing. -/
def updateState (clock : HlcClock)
    (updateFn : Nat × Nat → Option (Except ClockError UniqueTimestamp)) :
    Option (HlcClock × Except ClockError UniqueTimestamp) :=
  let current := clock.state.raw
  let phy := (current >>> lcBits) &&& phyTimeMax
  let lc := current &&& lcMax
  (updateFn (phy, lc)).map fun
    | .ok updated => ({ clock with state := updated }, .ok updated)
    | .error e => (clock, .error e)

/-- A new timestamp for a local or send event, given the physical clock's reading in Unix
milliseconds. The logical counter is not checked for overflow: it panics. -/
def next (clock : HlcClock) (recent : Nat) : Option (HlcClock × UniqueTimestamp) :=
  let phyClockNow := wrappingSub recent restateEpoch
  let updated := clock.updateState fun (latestPhy, latestLc) =>
    if latestPhy ≥ phyClockNow then
      (UniqueTimestamp.fromPartsUnchecked latestPhy (latestLc + 1)).map .ok
    else (UniqueTimestamp.fromPartsUnchecked phyClockNow 0).map .ok
  match updated with
  | some (next, .ok timestamp) => some (next, timestamp)
  | _ => none

/-- Update from a timestamp received from a remote node. -/
def tryUpdate (clock : HlcClock) (recent : Nat) (incoming : UniqueTimestamp) :
    Option (HlcClock × Except ClockError UniqueTimestamp) :=
  let phyClockNow := wrappingSub recent restateEpoch
  let incomingPhy := incoming.split.1
  let incomingLc := incoming.split.2
  clock.updateState fun (myLatestPhy, myLatestLc) =>
    -- the physical clock is ahead of both the incoming timestamp and the state
    if phyClockNow > incomingPhy ∧ phyClockNow > myLatestPhy then
      (UniqueTimestamp.fromPartsUnchecked phyClockNow 0).map .ok
    else
      match compare incomingPhy myLatestPhy with
      | .gt =>
        match clock.maxDrift with
        | some maxDrift =>
          let drift := incomingPhy - phyClockNow
          if drift > maxDrift then some (.error (.unacceptableClockDrift drift maxDrift))
          else some (UniqueTimestamp.tryFromParts incomingPhy (incomingLc + 1))
        | none => some (UniqueTimestamp.tryFromParts incomingPhy (incomingLc + 1))
      | .lt => (UniqueTimestamp.fromPartsUnchecked myLatestPhy (myLatestLc + 1)).map .ok
      | .eq => some (UniqueTimestamp.tryFromParts myLatestPhy (max myLatestLc incomingLc + 1))

end HlcClock

/-- A call on the shared clock with the physical reading it took. Concurrent calls take effect
in the order of their successful compare-exchange, so a run is a list of calls. -/
inductive HlcCall
  | next (recent : Nat)
  | tryUpdate (recent : Nat) (incoming : UniqueTimestamp)

namespace HlcCall

/-- The clock after the call and the timestamp it returned, if it returned one. -/
def apply (clock : HlcClock) : HlcCall → Option (HlcClock × Option UniqueTimestamp)
  | .next recent => (clock.next recent).map fun (after, timestamp) => (after, some timestamp)
  | .tryUpdate recent incoming => (clock.tryUpdate recent incoming).map fun
    | (after, .ok timestamp) => (after, some timestamp)
    | (after, .error _) => (after, none)

/-- The final clock and the timestamps returned, in order; `none` if a call panics. -/
def run : List HlcCall → HlcClock → Option (HlcClock × List UniqueTimestamp)
  | [], clock => some (clock, [])
  | call :: calls, clock => do
    let (after, returned) ← call.apply clock
    let (final, later) ← run calls after
    pure (final, returned.toList ++ later)

end HlcCall

end Restate
