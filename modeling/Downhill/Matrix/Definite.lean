import Downhill.Matrix.Eigenvalues

/-!
# Definite matrices
-/

namespace Downhill

namespace Mat

variable {α : Type} [Scalar α]

/-- Whether a square matrix is symmetric with all eigenvalues above the tolerance.
Only the eigenvalues of a symmetric matrix are asked for. -/
def isPositiveDefinite (a : Mat α) (tolerance : α) : Except Fault Bool :=
  if nearlySymmetric a then do
    let found ← a.eigenvalues
    return found.all fun x => decide (tolerance < x)
  else .ok false

def definitenessTolerance : α := 1e-12

theorem isPositiveDefinite_eq_true_iff {a : Mat α} {tolerance : α} :
    a.isPositiveDefinite tolerance = .ok true ↔
      nearlySymmetric a = true ∧ ∃ found, a.eigenvalues = .ok found ∧
        ∀ x ∈ found, tolerance < x := by
  unfold isPositiveDefinite
  cases nearlySymmetric a with
  | false => simp
  | true =>
    cases a.eigenvalues with
    | error fault => simp [bind, Except.bind]
    | ok found => simp [bind, Except.bind, pure, Except.pure]

end Mat

end Downhill
