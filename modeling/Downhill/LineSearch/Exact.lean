import Downhill.LineSearch.FirstTrial
import Downhill.LineSearch.Outcome
import Downhill.Objective.Quadratic

/-!
# Exact search

On a quadratic the best step along a direction has a closed form.  The curvature
comes from the matrix; only the gradient is asked for.
-/

namespace Downhill

namespace Exact

variable {α : Type} [Scalar α]

/-- The step that minimises a parabola of the given slope and curvature over the
steps that are not negative. -/
def vertex (slope curvature : α) : α := Scalar.larger 0 (-slope / curvature)

/-- The best step along a direction, and zero if the quadratic does not curve
upwards along it. -/
def search (matrix : Mat α) (f : Objective α) (q : Query α) : EvalM α (Outcome α) := do
  let curvature ← EvalM.answer (Quadratic.curvature matrix q.direction)
  if curvature ≤ 0 then return ⟨0, .accepted⟩
  let slope ← f.askSlope q.point q.direction
  return ⟨vertex slope curvature, .accepted⟩

end Exact

end Downhill
