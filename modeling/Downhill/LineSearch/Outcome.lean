import Downhill.Scalar

/-!
# Outcomes of a line search

A line search always returns a step; how it came to stop is kept beside it.
-/

namespace Downhill

/-- Why a line search stopped. -/
inductive Exit (α : Type)
  /-- The step satisfies the conditions of the search. -/
  | accepted
  /-- The direction does not descend: its slope is not negative. -/
  | uphill (slope : α)
  /-- Doubling the trial step passed the largest one allowed. -/
  | capped
  /-- The trial values stopped improving in the given zoom iteration. -/
  | stalled (iteration : Nat)
  /-- The zoom used up all its iterations. -/
  | exhausted (iterations : Nat)
  /-- Shrinking used up all its trials; the last step is untested. -/
  | untested
  deriving DecidableEq, Repr

structure Outcome (α : Type) where
  step : α
  exit : Exit α
  deriving DecidableEq, Repr

end Downhill
