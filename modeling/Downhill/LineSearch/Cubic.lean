import Downhill.Scalar

/-!
# Cubic interpolation

A trial step between two known ones: the minimiser of the cubic that agrees with
a function in value and slope at both, as long as it lies between them and the
function is lower there.  Otherwise the better of the two steps stands in.  A
step too close to an end gives way to the middle, so that an interval that is
cut at trial steps keeps shrinking.

The function is asked for through a monad, so that a search can keep a record of
what it asked for, and a proof can read the same text with plain functions.
-/

namespace Downhill

structure Sample (α : Type) where
  step : α
  value : α
  slope : α

namespace Cubic

variable {α : Type} [Scalar α]

/-- The default distance to keep from the ends of the interval. -/
def margin : α := 1e-3

/-- A magnitude with the sign of a difference that is not zero. -/
def withSign (magnitude difference : α) : α := if difference < 0 then -magnitude else magnitude

/-- The minimiser of the interpolating cubic, if it lies in the interval. -/
def minimizer? (a b : Sample α) : Option α :=
  let d1 := a.slope + b.slope - 3.0 * (a.value - b.value) / (a.step - b.step)
  let discriminant := d1 * d1 - a.slope * b.slope
  if Scalar.isFinite discriminant = true ∧ 0 ≤ discriminant then
    let d2 := withSign (Scalar.sqrt discriminant) (b.step - a.step)
    let denominator := b.slope - a.slope + 2.0 * d2
    if denominator == 0 then none
    else if Scalar.isFinite denominator = true then
      let candidate := b.step - (b.step - a.step) * (b.slope + d2 - d1) / denominator
      if Scalar.smaller a.step b.step ≤ candidate ∧ candidate ≤ Scalar.larger a.step b.step then
        some candidate
      else none
    else none
  else none

/-- The middle of the interval in place of a step within `distance` of an end. -/
def keepAway (distance low high step : α) : α :=
  if Scalar.abs (step - low) ≤ distance ∨ Scalar.abs (step - high) ≤ distance then
    0.5 * (low + high)
  else step

/-- A trial step between `low` and `high`, which may come in either order. -/
def trial {m : Type → Type} [Monad m] (phi slope : α → m α) (distance low high : α) : m α := do
  if low == high then return low
  let valueLow ← phi low
  let valueHigh ← phi high
  let better := if valueHigh < valueLow then high else low
  let slopeLow ← slope low
  let slopeHigh ← slope high
  match minimizer? ⟨low, valueLow, slopeLow⟩ ⟨high, valueHigh, slopeHigh⟩ with
  | none => return keepAway distance low high better
  | some candidate =>
    let value ← phi candidate
    let step := if value < valueLow ∧ value < valueHigh then candidate else better
    return keepAway distance low high step

end Cubic

end Downhill
