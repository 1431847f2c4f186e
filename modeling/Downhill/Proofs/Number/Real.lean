import Downhill.Proofs.Number.Numeral
import Downhill.Scalar
import Mathlib.Analysis.Real.Sqrt
import Mathlib.Data.Int.Log

/-!
# Real numbers

The methods read over the real numbers.  Every value is finite here, so the tests
for what is not a number never fire, and the tests for equality decide equality.
-/

namespace Downhill

/-- Division as in the field, whatever else the real numbers are an instance of. -/
noncomputable instance realDiv : Div ℝ := DivInvMonoid.toDiv

/-- Decimals as in the field. -/
noncomputable instance realDecimal : OfScientific ℝ := NNRatCast.toOfScientific

noncomputable instance : Scalar ℝ where
  beq a b := decide (a = b)
  decLt a b := inferInstanceAs (Decidable (a < b))
  decLe a b := inferInstanceAs (Decidable (a ≤ b))
  abs x := |x|
  sqrt := Real.sqrt
  isFinite _ := true
  isNaN _ := false
  binade x := Int.log 2 |x|

namespace Scalar

@[simp] theorem real_isFinite (x : ℝ) : isFinite x = true := rfl

@[simp] theorem real_isNaN (x : ℝ) : isNaN x = false := rfl

@[simp] theorem real_abs (x : ℝ) : abs x = |x| := rfl

@[simp] theorem real_sqrt (x : ℝ) : sqrt x = √x := rfl

@[simp] theorem real_beq (x y : ℝ) : (x == y) = decide (x = y) := rfl

@[simp] theorem real_larger (x y : ℝ) : larger x y = max x y := by
  unfold larger
  rcases lt_or_ge x y with h | h
  · rw [if_pos h, max_eq_right h.le]
  · rw [if_neg (not_lt.mpr h), max_eq_left h]

@[simp] theorem real_smaller (x y : ℝ) : smaller x y = min x y := by
  unfold smaller
  rcases lt_or_ge y x with h | h
  · rw [if_pos h, min_eq_right h.le]
  · rw [if_neg (not_lt.mpr h), min_eq_left h]

end Scalar

end Downhill
