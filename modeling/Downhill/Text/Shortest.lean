import Downhill.Text.Decimal

/-!
# Shortest decimal text

The fewest decimal digits that are read back as the same double, and among those
the ones nearest to it.  A decimal number is read as the nearest double, and as
the one with the even mantissa if it lies halfway between two.
-/

namespace Downhill
namespace Text

/-- How many quarters of the mantissa's unit lie between a double and the halfway
point below it: only one at the start of a binade, where the doubles below lie
closer together. -/
def quartersBelow (x : Float) : Nat :=
  if Double.fraction x = 0 ∧ 1 < Double.exponentField x then 1 else 2

def quarterUnit (x : Float) : Nat × Nat :=
  let unit := Double.unitBinade x
  if 1077 ≤ unit then (1 <<< (unit - 1077), 1) else (1, 1 <<< (1077 - unit))

/-- Whether a decimal number is read as the absolute value of a double. -/
def readsBack (x : Float) (digits : Nat) (power : Int) : Bool :=
  let m := 4 * Double.mantissa x
  let (num, den) := quarterUnit x
  let (shown, below) := scaled digits 1 power
  let low := (m - quartersBelow x) * num * below
  let high := (m + 2) * num * below
  let shown := shown * den
  if Double.mantissa x % 2 = 0 then decide (low ≤ shown ∧ shown ≤ high)
  else decide (low < shown ∧ shown < high)

/-- The digits with the given number of places after the leading one that are
read back, the nearest first. -/
def candidate? (x : Float) (exponent : Int) (places : Nat) : Option Nat :=
  let (num, den) := scaled (magnitude x).1 (magnitude x).2 (places - exponent)
  let nearest := roundHalfEven num den
  let other := if nearest * den ≤ num then nearest + 1 else nearest - 1
  [nearest, other].find? fun digits => readsBack x digits (exponent - places)

/-- The fewest digits of a finite double that is not zero, and the exponent of
the leading one.  Seventeen digits are always enough. -/
def shortestDigits (x : Float) : Nat × Int :=
  let (num, den) := magnitude x
  let exponent := leadingExponent num den
  let found := (List.range 17).findSome? fun places =>
    (candidate? x exponent places).map fun digits => (digits, places)
  match found with
  | some (digits, places) =>
    if tenTo (places + 1) ≤ digits then (1, exponent + 1) else (digits, exponent)
  | none => scientific 16 num den

/-- Shortest text of a double: positional for exponents from -4 to 15, where a
fraction is always shown, and exponential otherwise. -/
def shortest : Float → String := fun x =>
  signed (fun num _ =>
    if num = 0 then "0.0".toList
    else
      let (digits, exponent) := shortestDigits x
      let shown := dropTrailingZeros (Nat.toDigits 10 digits)
      if exponent < -4 ∨ exponent ≥ 16 then
        withPoint false 1 shown ++ 'e' :: exponentText exponent
      else
        let text := positionalDigits true shown exponent
        if text.getLast? = some '.' then text ++ ['0'] else text) x

end Text
end Downhill
