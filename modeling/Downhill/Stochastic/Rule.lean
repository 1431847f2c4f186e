import Downhill.Stochastic.Settings

/-!
# Stochastic step rules

How a gradient estimate becomes a direction and a step, and how the penalty on
absolute values enters: after each step every coordinate is moved towards zero by
a threshold, and stays at zero if it would pass it.
-/

namespace Downhill

namespace Threshold

variable {α : Type} [Scalar α]

/-- A number moved towards zero by the threshold. -/
def soft (x threshold : α) : α :=
  Scalar.sign x * Scalar.maximum (Scalar.abs x - threshold) 0

def softAll (threshold : α) (x : Vec α) : Vec α := x.map (soft · threshold)

def softEach (thresholds x : Vec α) : Except Fault (Vec α) := Vec.combine soft x thresholds

def softNested (point threshold : Nested α) : Except Fault (Nested α) :=
  point.combine soft threshold

end Threshold

/-- Anything that turns gradient estimates into directions, and a direction and a
step into a point. -/
class StochasticRule (R : Type) (α : outParam Type) where
  direction : StochasticSettings α → R → Vec α → Except Fault (Vec α) × R
  /-- The point reached from a point by a step along a direction. -/
  reach : StochasticSettings α → R → (point : Vec α) → (step : α) → (direction : Vec α) →
    Except Fault (Vec α)

inductive StepRule (α : Type)
  | plain
  /-- Keeps the sum of all squared gradients and the scale of the last step per
  coordinate. -/
  | adaptive (squares scaling : Vec α)

namespace StepRule

variable {α : Type} [Scalar α]

def start (method : StochasticMethod) (dimension : Nat) : StepRule α :=
  match method with
  | .plain => plain
  | .adaptive => adaptive (Vec.zeros dimension) (List.replicate dimension 1)

def scale (epsilon sum : α) : α := 1 / (Scalar.sqrt sum + epsilon)

def direction (s : StochasticSettings α) (rule : StepRule α) (gradient : Vec α) :
    Except Fault (Vec α) × StepRule α :=
  match rule with
  | plain => (.ok gradient.neg, plain)
  | adaptive squares scaling =>
    match squares.add (gradient.map fun g => g * g) with
    | .error fault => (.error fault, adaptive squares scaling)
    | .ok squares =>
      let scaling := squares.map (scale s.epsilon)
      (gradient.neg.mul scaling, adaptive squares scaling)

def reach (s : StochasticSettings α) (rule : StepRule α) (point : Vec α) (step : α)
    (direction : Vec α) : Except Fault (Vec α) := do
  let moved ← point.along step direction
  if s.usesL1 then
    match rule with
    | plain => return Threshold.softAll (step * s.l1) moved
    | adaptive _ scaling => Threshold.softEach (scaling.scale (step * s.l1)) moved
  else return moved

instance : StochasticRule (StepRule α) α where
  direction := direction
  reach := reach

end StepRule

end Downhill
