import Mathlib.Data.Int.Log
import Mathlib.Data.Rat.Floor

/-!
# Floating-point numbers

Results of floating-point operations are exact results, rounded to 53 binary digits; of two nearest
numbers the even one is taken. Results too large for a finite number are left out.
-/

namespace Flowfile.Library.Doubles

/-- A floating-point number. A finite one is its value. -/
inductive Double where
  | finite (value : Rat)
  | infinite (negative : Bool)
  | nan

/-- It is less than or equal to zero. Nothing is known of what is no number. -/
def Double.nonpositive : Double → Bool
  | .finite value => value ≤ 0
  | .infinite negative => negative
  | .nan => false

variable (x : Rat)

/-- The nearest whole number. Of two, it is the even one. -/
def roundHalfEven : Int :=
  let below := x.floor
  if x - below < 1 / 2 then below
  else if 1 / 2 < x - below then below + 1
  else if below % 2 = 0 then below else below + 1

/-- The distance of neighbours among the numbers of this size. -/
def spacing : Rat :=
  2 ^ max (Int.log 2 |x| - 52) (-1074)

/-- The nearest floating-point number. -/
def toDouble : Rat :=
  roundHalfEven (x / spacing x) * spacing x

theorem roundHalfEven_nonneg {x : Rat} (nonneg : 0 ≤ x) : 0 ≤ roundHalfEven x := by
  have below : 0 ≤ x.floor := Rat.le_floor_iff.mpr nonneg
  rw [roundHalfEven]
  split_ifs <;> omega

theorem toDouble_nonneg {x : Rat} (nonneg : 0 ≤ x) : 0 ≤ toDouble x := by
  have positive : 0 < spacing x := zpow_pos (by decide +kernel) _
  have rounded : (0 : Rat) ≤ roundHalfEven (x / spacing x) :=
    Int.cast_nonneg (roundHalfEven_nonneg (div_nonneg nonneg positive.le))
  exact mul_nonneg rounded positive.le

example : toDouble (1 / 10) = 3602879701896397 / 36028797018963968 := by decide +kernel

end Flowfile.Library.Doubles
