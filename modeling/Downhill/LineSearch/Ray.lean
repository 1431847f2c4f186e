import Downhill.Objective

/-!
# Rays

The objective along a ray, as a function of the step.  Values and slopes are
remembered per step, so that no search asks for one of them twice.
-/

namespace Downhill

/-- The points `origin + step · direction`. -/
structure Ray (α : Type) where
  objective : Objective α
  origin : Vec α
  direction : Vec α

/-- What is already known along a ray: steps with their values, and steps with
their slopes. -/
structure Memo (α : Type) where
  values : List (α × α)
  slopes : List (α × α)

/-- Computations along a ray that remember what they have asked for. -/
abbrev RayM (α : Type) := StateT (Memo α) (EvalM α)

namespace Memo

def empty {α : Type} : Memo α := ⟨[], []⟩

end Memo

namespace Ray

variable {α : Type} [Scalar α]

def pointAt (ray : Ray α) (step : α) : Except Fault (Vec α) :=
  ray.origin.along step ray.direction

def askValue (ray : Ray α) (step : α) : EvalM α α := do
  let point ← EvalM.answer (ray.pointAt step)
  ray.objective.askValue point

def askSlope (ray : Ray α) (step : α) : EvalM α α := do
  let point ← EvalM.answer (ray.pointAt step)
  ray.objective.askSlope point ray.direction

/-- The value at a step, asked for once. -/
def value (ray : Ray α) (step : α) : RayM α α := do
  let memo ← get
  match memo.values.lookup step with
  | some known => return known
  | none =>
    let answer ← liftM (ray.askValue step)
    modify fun memo => { memo with values := (step, answer) :: memo.values }
    return answer

def slope (ray : Ray α) (step : α) : RayM α α := do
  let memo ← get
  match memo.slopes.lookup step with
  | some known => return known
  | none =>
    let answer ← liftM (ray.askSlope step)
    modify fun memo => { memo with slopes := (step, answer) :: memo.slopes }
    return answer

/-- Run a search along a ray, starting without any knowledge of it. -/
def explore {β : Type} (search : RayM α β) : EvalM α β := do
  let (result, _) ← search.run Memo.empty
  return result

end Ray

end Downhill
