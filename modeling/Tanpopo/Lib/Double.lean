import Mathlib.Data.Int.Log
import Mathlib.Data.Rat.Floor
/-!
# Rounding to single and double precision

Floats and doubles are rationals here, and an operation rounds its exact
result. The values in question stay far from the largest float.
-/

namespace Tanpopo.Swift

/-- The nearest integer, and of two the even one. -/
def roundEven (x : ℚ) : ℤ :=
  let below := ⌊x⌋
  if x - below < 1 / 2 then below
  else if 1 / 2 < x - below then below + 1
  else if below % 2 = 0 then below
  else below + 1

/-- The nearest double of a value below the largest double. -/
def double (x : ℚ) : ℚ :=
  let unit : ℚ := 2 ^ max (Int.log 2 |x| - 52) (-1074)
  roundEven (x / unit) * unit

/-- The nearest float of a value below the largest float. -/
def single (x : ℚ) : ℚ :=
  let unit : ℚ := 2 ^ max (Int.log 2 |x| - 23) (-149)
  roundEven (x / unit) * unit

end Tanpopo.Swift
