import Downhill.LineSearch.Outcome
import Downhill.Vec

/-!
# Verdicts, events and summaries

What a solver reports: why it stopped, what happened along the way, and the
result of a run.  Reports are data here; their wording is a matter of its own.
-/

namespace Downhill

/-- Why a run stopped, or that nothing but the limit on iterations can have
stopped it.  A change that was never measured counts as infinite. -/
inductive Verdict (α : Type)
  | gradient
  | custom
  | point (change : Option α) (tolerance : α) (patience : Nat)
  | value (change : Option α) (tolerance : α) (patience : Nat)
  | limit
  deriving DecidableEq, Repr

inductive SolverKind
  | conjugate
  | steepest
  | coordinate
  | stochastic
  | adaptive
  deriving DecidableEq, Repr

/-- What a run makes known while it goes on. -/
inductive Event (α : Type)
  | started (kind : SolverKind)
  | progressed (iteration : Nat) (value gradientNorm step : α)
  | finished (verdict : Verdict α) (iterations : Nat) (value : α)
  | estimated (iteration : Nat) (pointChange : Option α) (step : α)
  | settled (verdict : Verdict α) (iterations : Nat)
  | searched (outcome : Outcome α)

structure Summary (α : Type) where
  point : Vec α
  value : α
  iterations : Nat
  success : Bool
  verdict : Verdict α
  gradientNorm : α
  values : Nat
  gradients : Nat
  history : List (Vec α)

end Downhill
