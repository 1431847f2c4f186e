import Downhill.Objective

/-!
# First trial steps

How an iterative line search chooses the step it tries first.  Most rules look
back at the previous iteration and fall back to its step size when there is
none.
-/

namespace Downhill

/-- What a line search is told: where to search, and where the previous iteration
came from. -/
structure Query (α : Type) where
  point : Vec α
  direction : Vec α
  previousPoint : Option (Vec α)
  previousDirection : Option (Vec α)
  previousStep : α

inductive FirstTrial
  | unit
  | previousStep
  /-- The step that promises the same first order change as the previous one. -/
  | firstOrder
  /-- The minimiser of the parabola through the last two values with the slope at
  the point. -/
  | quadratic
  /-- The same, slightly enlarged and at most one. -/
  | cappedQuadratic
  deriving DecidableEq, Repr

namespace FirstTrial

def all : List (String × FirstTrial) :=
  [("unit", unit), ("previous_step_size", previousStep),
    ("conserve_first_order_change", firstOrder), ("quadratic_interpolation", quadratic),
    ("modified_quadratic_interpolation", cappedQuadratic)]

def ofName (name : String) : Except Fault FirstTrial :=
  Fault.named .firstTrial all name

def name : FirstTrial → String
  | unit => "unit"
  | previousStep => "previous_step_size"
  | firstOrder => "conserve_first_order_change"
  | quadratic => "quadratic_interpolation"
  | cappedQuadratic => "modified_quadratic_interpolation"

@[simp] theorem ofName_name (rule : FirstTrial) : ofName rule.name = .ok rule := by
  cases rule <;> rfl

variable {α : Type} [Scalar α]

/-- What a rule may ask for: slope and value at the point, and at the previous
point. -/
structure Inquiry (α : Type) where
  slope : EvalM α α
  previousSlope : EvalM α α
  value : EvalM α α
  previousValue : EvalM α α

def Inquiry.ofQuery (f : Objective α) (q : Query α) (previousPoint previousDirection : Vec α) :
    Inquiry α where
  slope := f.askSlope q.point q.direction
  previousSlope := f.askSlope previousPoint previousDirection
  value := f.askValue q.point
  previousValue := f.askValue previousPoint

/-- The first trial step by a rule that looks back, from the slope at the point. -/
def lookBack (rule : FirstTrial) (ask : Inquiry α) (previousStep slope : α) : EvalM α α := do
  match rule with
  | unit => return 1
  | .previousStep => return previousStep
  | firstOrder =>
    let previousSlope ← ask.previousSlope
    return previousStep * previousSlope / slope
  | quadratic => parabola
  | cappedQuadratic =>
    let step ← parabola
    return Scalar.smaller 1 (1.01 * step)
where
  parabola : EvalM α α := do
    let value ← ask.value
    let previousValue ← ask.previousValue
    return 2.0 * (value - previousValue) / slope

/-- The first trial step.  A rule that looks back needs a previous iteration with
a step, and a slope that can be divided by. -/
def choose (rule : FirstTrial) (ask : Option (Inquiry α)) (previousStep : α) : EvalM α α :=
  match rule with
  | unit => return 1
  | .previousStep => return previousStep
  | rule =>
    match ask with
    | some ask => do
      if previousStep ≤ 0 then return previousStep
      let slope ← ask.slope
      if slope == 0 || !Scalar.isFinite slope then return previousStep
      rule.lookBack ask previousStep slope
    | none => return previousStep

def propose (rule : FirstTrial) (f : Objective α) (q : Query α) : EvalM α α :=
  let ask : Option (Inquiry α) := do
    let previousPoint ← q.previousPoint
    let previousDirection ← q.previousDirection
    return Inquiry.ofQuery f q previousPoint previousDirection
  rule.choose ask q.previousStep

end FirstTrial

end Downhill
