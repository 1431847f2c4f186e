import Downhill.LineSearch
import Downhill.Operand.Objective

/-!
# Line searches from operands

A line search whose point and direction are operands.  Along a vector or from a
vector the trial points are vectors; slopes need a direction that is a vector.
-/

namespace Downhill

/-- What a line search is told, as it is written down. -/
structure OperandQuery (α : Type) where
  point : Operand α
  direction : Operand α
  previousPoint : Option (Operand α)
  previousDirection : Option (Operand α)
  previousStep : α

namespace OperandQuery

variable {α : Type} [Scalar α]

def ofQuery (q : Query α) : OperandQuery α where
  point := .vector q.point
  direction := .vector q.direction
  previousPoint := q.previousPoint.map .vector
  previousDirection := q.previousDirection.map .vector
  previousStep := q.previousStep

/-- The objective as it answers to slopes along a direction. -/
def sloped (f : Objective α) (direction : Operand α) : Objective α :=
  if direction.isNumber then f.withoutSlopes else f

def askSlope (f : OperandObjective α) (point direction : Operand α) : EvalM α α :=
  (sloped (f.along point.isNumber) direction).askSlope point.entries direction.entries

def askValue (f : OperandObjective α) (point : Operand α) : EvalM α α :=
  (f.along point.isNumber).askValue point.entries

/-- What the first trial step may be asked for, if there is a previous iteration. -/
def inquiry? (f : OperandObjective α) (q : OperandQuery α) : Option (FirstTrial.Inquiry α) := do
  let previousPoint ← q.previousPoint
  let previousDirection ← q.previousDirection
  return {
    slope := askSlope f q.point q.direction
    previousSlope := askSlope f previousPoint previousDirection
    value := askValue f q.point
    previousValue := askValue f previousPoint }

def propose (f : OperandObjective α) (q : OperandQuery α) (rule : FirstTrial) : EvalM α α :=
  rule.choose (inquiry? f q) q.previousStep

/-- The objective along the ray, whose points are numbers only if both the point
and the direction are. -/
def ray (f : OperandObjective α) (q : OperandQuery α) : Ray α where
  objective := sloped (f.along (q.point.isNumber && q.direction.isNumber)) q.direction
  origin := q.point.entries
  direction := q.direction.entries

/-- The exact search, which needs the curvature along the direction first. -/
def searchExactly (f : OperandObjective α) (q : OperandQuery α) (matrix : Mat α) :
    EvalM α (Outcome α) :=
  match q.direction with
  | .number _ => EvalM.answer (.error .shapeMismatch)
  | .vector direction =>
    Exact.search matrix (f.along q.point.isNumber)
      ⟨q.point.entries, direction, none, none, q.previousStep⟩

end OperandQuery

namespace Search

variable {α : Type} [Scalar α]

def stepSizeAt (s : Search α) (f : OperandObjective α) (q : OperandQuery α) : EvalM α (Outcome α) :=
  s.along (q.ray f) (q.propose f) (q.searchExactly f)

theorem stepSizeAt_ofQuery (s : Search α) (f : Objective α) (fault : Fault) (q : Query α) :
    s.stepSizeAt (.ofVectors f fault) (.ofQuery q) = s.stepSize f q := by
  have h : OperandQuery.inquiry? (.ofVectors f fault) (.ofQuery q) =
      (do
        let previousPoint ← q.previousPoint
        let previousDirection ← q.previousDirection
        return FirstTrial.Inquiry.ofQuery f q previousPoint previousDirection) := by
    cases hp : q.previousPoint <;> cases hd : q.previousDirection
    all_goals simp [OperandQuery.inquiry?, OperandQuery.ofQuery, hp, hd]
    rfl
  have hpropose : (OperandQuery.ofQuery q).propose (.ofVectors f fault) = (·.propose f q) := by
    funext rule
    simp only [OperandQuery.propose, h, FirstTrial.propose]
    rfl
  unfold stepSizeAt stepSize
  rw [hpropose]
  rfl

end Search

end Downhill
