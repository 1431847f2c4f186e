import Downhill.Proofs.Number.Extended
import Downhill.Proofs.Number.Real
import Mathlib.Analysis.SpecialFunctions.Pow.Real

/-!
# Elementary functions

On real numbers they are the functions of the field.  On numbers that need not be finite
they are so wherever those have a real value, and elsewhere they follow the rules of
floating-point arithmetic.
-/

namespace Downhill

noncomputable section

namespace Extended

def exp : Extended → Extended
  | real x => real (Real.exp x)
  | top => top
  | bot => real 0
  | undefined => undefined

def log : Extended → Extended
  | real x => if x < 0 then undefined else if x = 0 then bot else real (Real.log x)
  | top => top
  | bot | undefined => undefined

def floor : Extended → Extended
  | real x => real ⌊x⌋
  | top => top
  | bot => bot
  | undefined => undefined

/-- A real power.  A negative number has powers with an integral exponent only. -/
def powReal (x y : ℝ) : Extended :=
  if x = 0 ∧ y < 0 then top
  else if x < 0 then if (⌊y⌋ : ℝ) = y then real (x ^ ⌊y⌋) else undefined
  else real (x ^ y)

/-- The power of a number with an infinite exponent goes by its distance to zero. -/
def powInfinite (distance : ℝ) (upwards : Bool) : Extended :=
  if distance = 1 then real 1
  else if decide (1 < distance) = upwards then top
  else real 0

/-- A power of an infinity.  The negative one keeps its sign under odd exponents. -/
def infinitePow (negative : Bool) (y : ℝ) : Extended :=
  if y = 0 then real 1
  else if y < 0 then real 0
  else if negative ∧ (⌊y⌋ : ℝ) = y ∧ ⌊y⌋ % 2 = 1 then bot
  else top

def pow : Extended → Extended → Extended
  | real x, real y => powReal x y
  | real x, top => powInfinite |x| true
  | real x, bot => powInfinite |x| false
  | real x, undefined => if x = 1 then real 1 else undefined
  | top, real y => infinitePow false y
  | bot, real y => infinitePow true y
  | top, top | bot, top => top
  | top, bot | bot, bot => real 0
  | undefined, real y => if y = 0 then real 1 else undefined
  | top, undefined | bot, undefined | undefined, top | undefined, bot | undefined, undefined =>
    undefined

instance : Elementary Extended where
  exp := exp
  log := log
  pow := pow
  floor := floor

end Extended

instance : Elementary ℝ where
  exp := Real.exp
  log := Real.log
  pow x y := x ^ y
  floor x := ⌊x⌋

end

end Downhill
