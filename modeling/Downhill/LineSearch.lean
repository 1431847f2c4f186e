import Downhill.LineSearch.Backtracking
import Downhill.LineSearch.Exact
import Downhill.LineSearch.FirstTrial
import Downhill.LineSearch.Ray
import Downhill.LineSearch.Wolfe
import Downhill.Literal
import Downhill.Problem

/-!
# Line searches

What a solver needs of a line search, and the searches of this library as one
type.  A search may also be described by a draft, whose constants are checked
before it is used.
-/

namespace Downhill

/-- Anything that finds a step size along a direction.  It puts its requests to
the objective it is given. -/
class LineSearch (S : Type) (α : outParam Type) where
  stepSize : S → Objective α → Query α → EvalM α (Outcome α)

inductive Search (α : Type)
  | wolfe (constants : Wolfe α) (firstTrial : FirstTrial)
  | backtracking (constants : Backtracking α) (firstTrial : FirstTrial)
  | exact (matrix : Mat α)

namespace Search

variable {α : Type} [Scalar α]

/-- The first trial step of an iterative search.  The exact search has none. -/
def firstTrial? : Search α → Option FirstTrial
  | wolfe _ rule => some rule
  | backtracking _ rule => some rule
  | exact _ => none

/-- Search along a ray, given how a rule proposes the first trial step and what
the exact search answers. -/
def along (s : Search α) (ray : Ray α) (propose : FirstTrial → EvalM α α)
    (exactly : Mat α → EvalM α (Outcome α)) : EvalM α (Outcome α) :=
  match s with
  | wolfe constants rule => do
    let proposal ← propose rule
    Ray.explore (constants.search ray.value ray.slope proposal)
  | backtracking constants rule => do
    let proposal ← propose rule
    Ray.explore (constants.search ray.value ray.slope proposal)
  | exact matrix => exactly matrix

/-- Search along the ray of a query.  The rule for the first trial step asks on
its own; only the search proper shares what it learns along the ray. -/
def stepSize (s : Search α) (f : Objective α) (q : Query α) : EvalM α (Outcome α) :=
  s.along ⟨f, q.point, q.direction⟩ (·.propose f q) (Exact.search · f q)

instance : LineSearch (Search α) α where
  stepSize := stepSize

end Search

/-! ## Drafts -/

structure WolfeDraft (α : Type) [Scalar α] where
  c1 : α := 1e-4
  c2 : α := 0.9
  maxStep : α := 10.0
  firstTrial : Literal := FirstTrial.firstOrder.name
  zoomLimit : Int := 100

structure BacktrackingDraft (α : Type) [Scalar α] where
  c : α := 1e-4
  rho : α := 0.5
  limit : Int := 50
  firstTrial : Literal := FirstTrial.unit.name

inductive SearchDraft (α : Type) [Scalar α]
  | wolfe (draft : WolfeDraft α)
  | backtracking (draft : BacktrackingDraft α)
  | exact

namespace Wolfe

variable {α : Type} [Scalar α]

def checkConstants (c1 c2 maxStep : α) : Except Fault Unit := do
  Fault.refuse (¬(0 < c1 ∧ c1 < 1)) .decreaseConstant
  Fault.refuse (¬(c1 < c2 ∧ c2 < 1)) .curvatureConstant
  Fault.refuse (¬0 < maxStep) (.notPositive "a_max")

def defaultZoomLimit : Nat := 100

end Wolfe

namespace SearchDraft

variable {α : Type} [Scalar α]

def validateWolfe (d : WolfeDraft α) : Except Fault (Search α) := do
  Wolfe.checkConstants d.c1 d.c2 d.maxStep
  Fault.refuse (d.zoomLimit < 1) (.belowOne "maximum_zoom_iterations")
  let rule ← d.firstTrial.resolve .firstTrial FirstTrial.ofName
  return .wolfe ⟨d.c1, d.c2, d.maxStep, d.zoomLimit.toNat⟩ rule

def validateBacktracking (d : BacktrackingDraft α) : Except Fault (Search α) := do
  Fault.refuse (¬(0 < d.c ∧ d.c < 1)) .armijoConstant
  Fault.refuse (¬(0 < d.rho ∧ d.rho < 1)) .shrinkFactor
  let rule ← d.firstTrial.resolve .firstTrial FirstTrial.ofName
  return .backtracking ⟨d.c, d.rho, d.limit.toNat⟩ rule

/-- The search of a draft for an objective, which has a matrix if it is quadratic.
Only then there is an exact search. -/
def validate (matrix : Option (Mat α)) : SearchDraft α → Except Fault (Search α)
  | wolfe d => validateWolfe d
  | backtracking d => validateBacktracking d
  | exact => match matrix with
    | some matrix => .ok (.exact matrix)
    | none => .error (.invalid .exactSearchObjective)

end SearchDraft

end Downhill
