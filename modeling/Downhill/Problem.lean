import Downhill.Objective.Empirical
import Downhill.Objective.Quadratic

/-!
# Problems

What a solver is given to minimise.  A quadratic is told apart because its step
sizes have a closed form, and an empirical objective because its gradient can be
estimated; both can also be used as plain objectives.
-/

namespace Downhill

/-- An objective together with what is known about its form. -/
inductive Problem (α G : Type)
  | plain (f : Objective α)
  | quadratic (q : Quadratic α)
  | empirical (e : Empirical α) (sampler : Sampler G)

namespace Problem

variable {α G : Type} [Scalar α]

def objective : Problem α G → Objective α
  | plain f => f
  | quadratic q => q.toObjective
  | empirical e _ => e.toObjective

def matrix? : Problem α G → Option (Mat α)
  | quadratic q => some q.matrix
  | _ => none

def ofEmpirical (e : Empirical α) (withReplacement : Bool) (source : G) :
    Except Fault (Problem α G) := do
  let sampler ← Sampler.make e.terms.length withReplacement source
  return empirical e sampler

/-- Estimate the gradient from a mini-batch.  The sampler moves on also when the
estimate then fails. -/
def estimate [IndexSource G] (e : Empirical α) (sampler : Sampler G) (p : Vec α) (batch : Nat) :
    Except Fault (Vec α) × Sampler G :=
  match sampler.draw batch with
  | .error fault => (.error fault, sampler)
  | .ok (indices, sampler) => (e.batchGradient p indices, sampler)

end Problem

end Downhill
