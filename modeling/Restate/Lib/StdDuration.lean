import Mathlib.Order.Basic
import Restate.Lib.ExtFloat

/-! `std::time::Duration` as a count of nanoseconds, at most `u64::MAX` seconds and `999_999_999`
nanoseconds. `as_secs_f32` and `as_secs_f64` round at each of their three steps, as the standard
library computes them; `try_from_secs_f32` and `try_from_secs_f64` take the float's exact value to
the nearest nanosecond, ties to even, and fail on a negative, non-finite or too large value. The
forms that panic where the checked ones fail (`from_secs_f64`, `mul_f32`, `+`) give `none`. -/

def nanosPerSec : Nat := 1000000000

def Duration.maxNanos : Nat := (2 ^ 64 - 1) * nanosPerSec + (nanosPerSec - 1)

structure Duration where
  nanos : Nat
  bounded : nanos ≤ Duration.maxNanos
  deriving DecidableEq

namespace Duration

theorem nanos_injective : Function.Injective nanos := by
  rintro ⟨a, _⟩ ⟨b, _⟩ same
  cases same
  rfl

instance : LinearOrder Duration := LinearOrder.lift' nanos nanos_injective

@[simp] theorem le_iff_nanos_le {a b : Duration} : a ≤ b ↔ a.nanos ≤ b.nanos := Iff.rfl

@[simp] theorem lt_iff_nanos_lt {a b : Duration} : a < b ↔ a.nanos < b.nanos := Iff.rfl

def max : Duration := ⟨maxNanos, Nat.le_refl _⟩

def ofNanos? (nanos : Nat) : Option Duration :=
  if fits : nanos ≤ maxNanos then some ⟨nanos, fits⟩ else none

def fromMillis (millis : Nat) (fits : millis * 1000000 ≤ maxNanos) : Duration := ⟨millis * 1000000, fits⟩

def fromSecs (secs : UInt64) : Duration :=
  ⟨secs.toNat * nanosPerSec, by
    have small := secs.toNat_lt
    unfold maxNanos nanosPerSec
    omega⟩

def fromMicros (micros : UInt64) : Duration :=
  ⟨micros.toNat * 1000, by
    have small := micros.toNat_lt
    unfold maxNanos nanosPerSec
    omega⟩

def asMicros (d : Duration) : Nat := d.nanos / 1000

def secs (d : Duration) : Nat := d.nanos / nanosPerSec

def subsecNanos (d : Duration) : Nat := d.nanos % nanosPerSec

/-- `checked_add`; `+` panics where it gives `none`. -/
def checkedAdd (d other : Duration) : Option Duration := ofNanos? (d.nanos + other.nanos)

/-- `as_secs_f32` and `as_secs_f64`: `(secs as f) + (nanos as f) / (NANOS_PER_SEC as f)`. -/
def asSecs (fmt : BinaryFormat) (d : Duration) : ExtFloat :=
  fmt.add (fmt.ofNat d.secs) (fmt.div (fmt.ofNat d.subsecNanos) (fmt.ofNat nanosPerSec))

def asSecsF32 : Duration → ExtFloat := asSecs BinaryFormat.binary32

def asSecsF64 : Duration → ExtFloat := asSecs BinaryFormat.binary64

/-- `try_from_secs_f32` and `try_from_secs_f64` of a value of the format. -/
def tryFromSecs : ExtFloat → Option Duration
  | .finite secs => if secs < 0 then none else ofNanos? (roundHalfEven (secs * nanosPerSec))
  | _ => none

def fromSecsF32 : ExtFloat → Option Duration := tryFromSecs

def fromSecsF64 : ExtFloat → Option Duration := tryFromSecs

/-- `mul_f32`: `Duration::from_secs_f32(rhs * self.as_secs_f32())`. -/
def mulF32 (d : Duration) (rhs : ExtFloat) : Option Duration :=
  fromSecsF32 (BinaryFormat.binary32.mul rhs d.asSecsF32)

/-- `mul_f64`: `Duration::from_secs_f64(rhs * self.as_secs_f64())`. -/
def mulF64 (d : Duration) (rhs : ExtFloat) : Option Duration :=
  fromSecsF64 (BinaryFormat.binary64.mul rhs d.asSecsF64)

theorem ofNanos?_eq_some {nanos : Nat} {d : Duration} (made : ofNanos? nanos = some d) : d.nanos = nanos := by
  unfold ofNanos? at made
  split at made
  · cases made
    rfl
  · cases made

theorem checkedAdd_nanos {d other sum : Duration} (added : d.checkedAdd other = some sum) :
    sum.nanos = d.nanos + other.nanos :=
  ofNanos?_eq_some added

@[simp] theorem fromMicros_nanos (micros : UInt64) : (fromMicros micros).nanos = micros.toNat * 1000 := rfl

end Duration
