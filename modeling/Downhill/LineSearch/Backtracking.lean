import Downhill.LineSearch.Outcome

/-!
# Backtracking

A trial step is shrunk by a constant factor until it decreases the objective
sufficiently.
-/

namespace Downhill

structure Backtracking (α : Type) where
  c : α
  rho : α
  limit : Nat

namespace Backtracking

variable {α : Type} [Scalar α] {m : Type → Type} [Monad m]

/-- Shrink the step for at most the given number of trials. -/
def shrink (b : Backtracking α) (phi : α → m α) (value slope : α) : Nat → α → m (Outcome α)
  | 0, step => return ⟨step, .untested⟩
  | left + 1, step => do
    let stepValue ← phi step
    if stepValue ≤ value + b.c * step * slope then return ⟨step, .accepted⟩
    else b.shrink phi value slope left (step * b.rho)

def firstStep (proposal : α) : α := if 0 < proposal then proposal else 1

def search (b : Backtracking α) (phi slope : α → m α) (proposal : α) : m (Outcome α) := do
  let value ← phi 0
  let startSlope ← slope 0
  b.shrink phi value startSlope b.limit (firstStep proposal)

end Backtracking

end Downhill
