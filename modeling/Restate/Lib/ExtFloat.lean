import Mathlib.Algebra.Order.Floor.Defs
import Mathlib.Data.Rat.Floor

/-! Floating-point values with the special values of IEEE 754: a finite value, an infinity of
either sign, or NaN. Finite values are exact rationals. The arithmetic follows IEEE 754 on the
special values and rounds nothing, so it agrees with binary32 and binary64 wherever the exact
result is representable. Zero is unsigned: a zero divisor counts as +0. Comparisons with NaN are
false, and a cast to an unsigned integer saturates, sending NaN to zero, as Rust's `as` does. -/

inductive ExtFloat
  | finite (value : ℚ)
  | posInf
  | negInf
  | nan
  deriving DecidableEq

namespace ExtFloat

instance : OfNat ExtFloat n := ⟨finite n⟩

/-- The infinity of a sign. -/
def infinity (positive : Bool) : ExtFloat := if positive then posInf else negInf

def isPositiveInfinity : ExtFloat → Bool
  | posInf => true
  | _ => false

def add : ExtFloat → ExtFloat → ExtFloat
  | nan, _ | _, nan => nan
  | posInf, negInf | negInf, posInf => nan
  | posInf, _ | _, posInf => posInf
  | negInf, _ | _, negInf => negInf
  | finite a, finite b => finite (a + b)

def sub : ExtFloat → ExtFloat → ExtFloat
  | nan, _ | _, nan => nan
  | posInf, posInf | negInf, negInf => nan
  | posInf, _ | _, negInf => posInf
  | negInf, _ | _, posInf => negInf
  | finite a, finite b => finite (a - b)

def mul : ExtFloat → ExtFloat → ExtFloat
  | nan, _ | _, nan => nan
  | finite a, finite b => finite (a * b)
  | finite a, y => if a = 0 then nan else infinity ((0 < a) == y.isPositiveInfinity)
  | x, finite b => if b = 0 then nan else infinity (x.isPositiveInfinity == (0 < b))
  | x, y => infinity (x.isPositiveInfinity == y.isPositiveInfinity)

def div : ExtFloat → ExtFloat → ExtFloat
  | nan, _ | _, nan => nan
  | finite a, finite b => if b = 0 then (if a = 0 then nan else infinity (0 < a)) else finite (a / b)
  | finite _, _ => finite 0
  | x, finite b => infinity (x.isPositiveInfinity == (0 ≤ b))
  | _, _ => nan

instance : Add ExtFloat := ⟨add⟩
instance : Sub ExtFloat := ⟨sub⟩
instance : Mul ExtFloat := ⟨mul⟩
instance : Div ExtFloat := ⟨div⟩

/-- `x >= y`: false when either is NaN. -/
def ge : ExtFloat → ExtFloat → Bool
  | nan, _ | _, nan => false
  | posInf, _ | _, negInf => true
  | _, posInf | negInf, _ => false
  | finite a, finite b => decide (b ≤ a)

def ceil : ExtFloat → ExtFloat
  | finite a => finite ⌈a⌉
  | x => x

/-- `x.powi(n)`: `x` multiplied by itself `n` times, or the inverse of that for negative `n`. -/
def powi (x : ExtFloat) (n : Int) : ExtFloat :=
  if 0 ≤ n then (mul x)^[n.toNat] 1 else div 1 ((mul x)^[(-n).toNat] 1)

/-- `x as uN` for an unsigned integer type whose largest value is `max`: truncated towards zero,
saturating at both ends, and zero for NaN. -/
def toNatSat (max : Nat) : ExtFloat → Nat
  | finite a => if a ≤ 0 then 0 else min ⌊a⌋₊ max
  | posInf => max
  | negInf | nan => 0

@[simp] theorem add_finite (a b : ℚ) : finite a + finite b = finite (a + b) := rfl

@[simp] theorem sub_finite (a b : ℚ) : finite a - finite b = finite (a - b) := rfl

@[simp] theorem mul_finite (a b : ℚ) : finite a * finite b = finite (a * b) := rfl

theorem div_finite {a b : ℚ} (nonzero : b ≠ 0) : finite a / finite b = finite (a / b) := by
  show div _ _ = _
  simp [div, nonzero]

@[simp] theorem mul_nan (x : ExtFloat) : x * nan = nan := by
  cases x <;> rfl

@[simp] theorem nan_add (x : ExtFloat) : nan + x = nan := rfl

@[simp] theorem nan_div (x : ExtFloat) : nan / x = nan := rfl

theorem toNatSat_ceil_of_nonpos {x : ExtFloat} (nonpos : x = negInf ∨ ∃ v, v ≤ 0 ∧ x = finite v) (max : Nat) :
    x.ceil.toNatSat max = 0 := by
  rcases nonpos with rfl | ⟨v, below, rfl⟩
  · rfl
  · have ceiled : ((⌈v⌉ : ℤ) : ℚ) ≤ 0 := Int.cast_nonpos.mpr (Int.ceil_le.mpr (by simpa using below))
    simp [ceil, toNatSat, ceiled]

def neg : ExtFloat → ExtFloat
  | finite a => finite (-a)
  | posInf => negInf
  | negInf => posInf
  | nan => nan

end ExtFloat

/-- The natural number nearest to a non-negative rational, ties to the even one. -/
def roundHalfEven (q : ℚ) : Nat :=
  let below := ⌊q⌋₊
  if q - below < 1 / 2 then below
  else if 1 / 2 < q - below then below + 1
  else if below % 2 = 0 then below else below + 1

/-- A binary format of IEEE 754: `precision` bits of significand, the hidden bit included, and
normal exponents from `minExp` to `maxExp`. -/
structure BinaryFormat where
  precision : Nat
  minExp : Int
  maxExp : Int

namespace BinaryFormat

def binary32 : BinaryFormat := ⟨24, -126, 127⟩

def binary64 : BinaryFormat := ⟨53, -1022, 1023⟩

variable (fmt : BinaryFormat)

/-- The largest `e` at most `maxExp + 1` with `2 ^ e ≤ q`, stepping up from `e`. -/
def exponentUp (q : ℚ) : Nat → Int → Int
  | 0, e => e
  | fuel + 1, e => if e ≤ fmt.maxExp ∧ (2 : ℚ) ^ (e + 1) ≤ q then exponentUp q fuel (e + 1) else e

/-- The largest `e` at least `minExp` with `2 ^ e ≤ q`, or `minExp`, stepping down from `e`. -/
def exponentDown (q : ℚ) : Nat → Int → Int
  | 0, e => e
  | fuel + 1, e => if fmt.minExp < e ∧ q < (2 : ℚ) ^ e then exponentDown q fuel (e - 1) else e

/-- The exponent of the spacing of the format's values around a positive `q`: subnormal below
`2 ^ minExp`, and past the largest finite value above `2 ^ (maxExp + 1)`. -/
def quantumExp (q : ℚ) : Int :=
  let fuel := (fmt.maxExp - fmt.minExp).toNat + 2
  (if 1 ≤ q then fmt.exponentUp q fuel 0 else fmt.exponentDown q fuel 0) - (fmt.precision - 1 : Nat)

/-- Rounding to nearest, ties to even, of a positive rational; past the largest finite value the
result is an infinity. -/
def roundPos (q : ℚ) : ExtFloat :=
  let quantum := (2 : ℚ) ^ fmt.quantumExp q
  let value := roundHalfEven (q / quantum) * quantum
  if (2 : ℚ) ^ (fmt.maxExp + 1) ≤ value then .posInf else .finite value

/-- The value of the format nearest to a real result, as every basic operation of IEEE 754 gives
it; the special values stay. -/
def round : ExtFloat → ExtFloat
  | .finite q => if q = 0 then .finite 0 else if 0 < q then fmt.roundPos q else (fmt.roundPos (-q)).neg
  | x => x

def add (x y : ExtFloat) : ExtFloat := fmt.round (x + y)

def sub (x y : ExtFloat) : ExtFloat := fmt.round (x - y)

def mul (x y : ExtFloat) : ExtFloat := fmt.round (x * y)

def div (x y : ExtFloat) : ExtFloat := fmt.round (x / y)

/-- The conversion of an integer, as Rust's `as` gives it. -/
def ofNat (n : Nat) : ExtFloat := fmt.round (.finite n)

theorem roundPos_cases (q : ℚ) : fmt.roundPos q = .posInf ∨ ∃ v, 0 ≤ v ∧ fmt.roundPos q = .finite v := by
  simp only [roundPos]
  split_ifs
  · exact .inl rfl
  · exact .inr ⟨_, mul_nonneg (Nat.cast_nonneg _) (zpow_nonneg (by norm_num) _), rfl⟩

theorem round_of_neg {q : ℚ} (negative : q < 0) :
    fmt.round (.finite q) = .negInf ∨ ∃ v, v ≤ 0 ∧ fmt.round (.finite q) = .finite v := by
  have notPos : ¬0 < q := not_lt.mpr negative.le
  simp only [round, negative.ne, notPos, if_false]
  rcases fmt.roundPos_cases (-q) with infinite | ⟨v, nonneg, finite⟩
  · rw [infinite]
    exact .inl rfl
  · rw [finite]
    exact .inr ⟨-v, by linarith, rfl⟩

/-- A value of the format: one that its rounding keeps. -/
structure Value (fmt : BinaryFormat) where
  val : ExtFloat
  rounded : fmt.round val = val

/-- `powi`: Rust leaves the order of its roundings open; this is the repeated product, each step
rounded. -/
def powi (x : ExtFloat) (n : Int) : ExtFloat :=
  if 0 ≤ n then (fmt.mul x)^[n.toNat] 1 else fmt.div 1 ((fmt.mul x)^[(-n).toNat] 1)

end BinaryFormat
