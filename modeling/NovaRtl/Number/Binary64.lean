import Mathlib.Algebra.Ring.Parity
import Mathlib.Data.Int.Log
import Mathlib.Data.Rat.Floor

/-!
# Binary floating point

The floats of IEEE 754 binary64 by their values, without NaN. A number is rounded to the nearest
float, ties to the even significand, and to an infinity where it is too large.
-/

/-- A sign with a magnitude, so that there are two zeros. -/
inductive Binary64 where
  | finite (negative : Bool) (magnitude : ℚ)
  | infinite (negative : Bool)
  deriving DecidableEq

namespace Binary64

def roundHalfEven (x : ℚ) : ℤ :=
  if x - ⌊x⌋ < 1 / 2 ∨ x - ⌊x⌋ = 1 / 2 ∧ ⌊x⌋ % 2 = 0 then ⌊x⌋ else ⌊x⌋ + 1

/-- The exponent of the last place of a significand of 53 bits, for a magnitude. -/
def lastPlace (x : ℚ) : ℤ := max (Int.log 2 x - 52) (-1074)

def roundMagnitude (x : ℚ) : ℚ := roundHalfEven (x / 2 ^ lastPlace x) * 2 ^ lastPlace x

/-- The float for a number. -/
def round (negative : Bool) (magnitude : ℚ) : Binary64 :=
  if roundMagnitude magnitude < 2 ^ 1024 then .finite negative (roundMagnitude magnitude)
  else .infinite negative

def isFinite : Binary64 → Bool
  | finite _ _ => true
  | infinite _ => false

/-- `x < 0` -/
def isNegative : Binary64 → Bool
  | finite negative magnitude => negative && magnitude ≠ 0
  | infinite negative => negative

/-- `0 < x` -/
def isPositive : Binary64 → Bool
  | finite negative magnitude => !negative && magnitude ≠ 0
  | infinite negative => !negative

/-- An integer as a float, unless it is too large. -/
def ofNat? (n : ℕ) : Option Binary64 :=
  if (round false n).isFinite then some (round false n) else none

/-- The product of finite floats. -/
def mul : Binary64 → Binary64 → Binary64
  | finite s x, finite t y => round (s != t) (x * y)
  | infinite s, finite t _ | finite s _, infinite t | infinite s, infinite t => .infinite (s != t)

@[simp] theorem isNegative_round_false (x : ℚ) : (round false x).isNegative = false := by
  unfold round
  split <;> rfl

end Binary64
