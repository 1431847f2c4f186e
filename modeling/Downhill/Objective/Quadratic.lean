import Downhill.Matrix.Definite
import Downhill.Matrix.Elimination
import Downhill.Nested
import Downhill.Objective

/-!
# Quadratic objectives

`½ x'Ax - b'x + c` for a square matrix `A`.
-/

namespace Downhill

/-- A square matrix, a vector of its size and a constant. -/
structure Quadratic (α : Type) where
  matrix : Mat α
  linear : Vec α
  constant : α
  rows_eq : matrix.length = linear.length
  columns_eq : ∀ row ∈ matrix, row.length = linear.length

namespace Quadratic

variable {α : Type} [Scalar α]

def columns (a : Mat α) : Nat := (a.headD []).length

def ofParts (a b : Nested α) (c : α) : Except Fault (Quadratic α) := do
  let shape ← a.shape
  let linear ← b.toVec
  let matrix := a.toRows
  Fault.refuse (shape.length ≠ 2 ∨ shape[0]? ≠ shape[1]?) .factorNotSquare
  if rows_eq : matrix.length = linear.length then
    if columns_eq : ∀ row ∈ matrix, row.length = linear.length then
      return { matrix, linear, constant := c, rows_eq, columns_eq }
    else .error (.invalid .factorNotSquare)
  else .error (.invalid (.factorShape matrix.length (columns matrix) linear.length))

def value (q : Quadratic α) (x : Vec α) : Except Fault α := do
  let image ← q.matrix.mulVec x
  let half ← Vec.dot (x.scale 0.5) image
  let linear ← Vec.dot q.linear x
  return half - linear + q.constant

def gradient (q : Quadratic α) (x : Vec α) : Except Fault (Vec α) := do
  let image ← q.matrix.mulVec x
  image.sub q.linear

def toObjective (q : Quadratic α) : Objective α where
  value := q.value
  gradient := q.gradient

def isPositiveDefinite (q : Quadratic α) : Except Fault Bool :=
  q.matrix.isPositiveDefinite Mat.definitenessTolerance

def minimizer (q : Quadratic α) : Except Fault (Vec α) := q.matrix.solve q.linear

/-- The curvature `d'Ad` along a direction. -/
def curvature (a : Mat α) (d : Vec α) : Except Fault α := do
  let image ← a.mulVec d
  Vec.dot d image

end Quadratic

/-- The definiteness test for a matrix as it is written down.  What is not a
square matrix is not definite. -/
def Nested.isPositiveDefinite {α : Type} [Scalar α] (a : Nested α) (tolerance : α) :
    Except Fault Bool := do
  let shape ← a.shape
  match shape with
  | [m, n] => if m = n then Mat.isPositiveDefinite a.toRows tolerance else return false
  | _ => return false

end Downhill
