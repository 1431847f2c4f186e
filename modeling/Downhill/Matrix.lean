import Downhill.Vec

/-!
# Matrices

A matrix is the list of its rows.
-/

namespace Downhill

abbrev Mat (α : Type) := List (Vec α)

namespace Mat

variable {α : Type} [Scalar α]

def mulVec (a : Mat α) (x : Vec α) : Except Fault (Vec α) := a.mapM fun row => Vec.dot row x

def entry (a : Mat α) (i j : Nat) : α := (a.getD i []).getD j 0

/-- Whether two numbers agree up to an absolute tolerance of `1e-8` and a
relative one of `1e-5`.  Equal infinities agree. -/
def close (x y : α) : Bool :=
  (decide (Scalar.abs (x - y) ≤ 1e-8 + 1e-5 * Scalar.abs y) && Scalar.isFinite y) || x == y

def nearlySymmetric (a : Mat α) : Bool :=
  let n := a.length
  (List.range n).all fun i => (List.range n).all fun j => close (a.entry i j) (a.entry j i)

end Mat

end Downhill
