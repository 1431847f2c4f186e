import Downhill.Direction.Conjugate
import Downhill.Direction.Coordinate

/-!
# Direction rules

What a solver needs of a rule for search directions, and the rules of this
library as one type.
-/

namespace Downhill

/-- What a rule sees of the iteration it gives a direction for. -/
structure Sight (α : Type) where
  point : Vec α
  value : α
  gradient : Vec α
  previousGradient : Option (Vec α)
  previousDirection : Option (Vec α)

/-- Anything that gives search directions.  A direction is proposed first and
then oriented, which may take requests to the objective. -/
class DirectionRule (R : Type) (α : outParam Type) where
  propose : R → Sight α → Except Fault (Vec α) × R
  orient : R → Objective α → Sight α → Vec α → EvalM α (Vec α)
  /-- Take note of the point that was reached. -/
  moved : R → Vec α → R
  /-- How many iterations without change a stop has to wait for at least. -/
  patience : R → Nat

inductive Strategy (α : Type)
  | steepest
  | conjugate (rule : Conjugate α)
  | coordinate (rule : Coordinate (Vec α))

namespace Strategy

variable {α : Type} [Scalar α]

def propose (s : Strategy α) (sight : Sight α) : Except Fault (Vec α) × Strategy α :=
  match s with
  | steepest => (.ok sight.gradient.neg, steepest)
  | conjugate rule =>
    match rule.next sight.gradient sight.previousGradient sight.previousDirection with
    | .ok (direction, rule) => (.ok direction, conjugate rule)
    | .error fault => (.error fault, conjugate rule)
  | coordinate rule =>
    let (direction, rule) := rule.next
    (direction, coordinate rule)

/-- Only coordinate directions do not know their sign. -/
def orient (s : Strategy α) (f : Objective α) (sight : Sight α) (direction : Vec α) :
    EvalM α (Vec α) :=
  match s with
  | coordinate _ => Coordinate.orient f sight.point sight.value direction
  | _ => return direction

def moved (s : Strategy α) (point : Vec α) : Strategy α :=
  match s with
  | coordinate rule => coordinate (rule.moved point)
  | s => s

/-- One coordinate may be at rest while others are not, so a stop waits for as
many iterations as there are coordinates. -/
def patience : Strategy α → Nat
  | coordinate rule => rule.dimension
  | _ => 0

instance : DirectionRule (Strategy α) α where
  propose := propose
  orient := orient
  moved := moved
  patience := patience

end Strategy

end Downhill
