import Downhill.Objective.Quadratic
import Downhill.Proofs.Linear.Coordinates
import Mathlib.LinearAlgebra.Matrix.PosDef

/-!
# Quadratics over the real numbers

The matrix of a quadratic as a matrix of coordinates, and value, gradient and
curvature in terms of it.
-/

namespace Downhill

open Matrix

theorem Mat.mulVec_ofFn {a : Mat ℝ} {n : Nat} (hrows : ∀ row ∈ a, row.length = n)
    (x : Fin n → ℝ) : a.mulVec (List.ofFn x) = .ok (a.map fun row => row.coordinates n ⬝ᵥ x) := by
  refine Fault.mapM_eq_ok fun row hrow => ?_
  rw [← Vec.dot_ofFn, Vec.ofFn_coordinates (hrows row hrow)]

namespace Quadratic

variable (q : Quadratic ℝ)

/-- The number of variables. -/
abbrev dimension : Nat := q.linear.length

noncomputable def toMatrix : Matrix (Fin q.dimension) (Fin q.dimension) ℝ :=
  Matrix.of fun i j => q.matrix.entry i j

noncomputable def toLinear : Fin q.dimension → ℝ := q.linear.coordinates q.dimension

variable (x d : Fin q.dimension → ℝ)

@[simp] theorem mulVec_ofFn :
    q.matrix.mulVec (List.ofFn x) = .ok (List.ofFn (q.toMatrix *ᵥ x)) := by
  rw [Mat.mulVec_ofFn q.columns_eq]
  congr 1
  refine List.ext_getElem (by simp [q.rows_eq]) fun i hi _ => ?_
  rw [List.length_map] at hi
  rw [List.getElem_map, List.getElem_ofFn]
  have hrow : q.matrix.getD i [] = q.matrix[i] := List.getD_eq_getElem _ _ hi
  show (q.matrix[i].coordinates q.dimension) ⬝ᵥ x =
    (fun j : Fin q.dimension => (q.matrix.getD i []).getD j 0) ⬝ᵥ x
  rw [hrow]
  rfl

@[simp] theorem gradient_ofFn :
    q.gradient (List.ofFn x) = .ok (List.ofFn (q.toMatrix *ᵥ x - q.toLinear)) := by
  have hlinear : q.linear = List.ofFn q.toLinear := (Vec.ofFn_coordinates rfl).symm
  unfold gradient
  rw [mulVec_ofFn, hlinear]
  exact Vec.sub_ofFn _ _

@[simp] theorem curvature_ofFn :
    curvature q.matrix (List.ofFn d) = .ok (d ⬝ᵥ q.toMatrix *ᵥ d) := by
  unfold curvature
  rw [mulVec_ofFn]
  exact Vec.dot_ofFn _ _

theorem value_ofFn :
    q.value (List.ofFn x) =
      .ok (((0.5 : ℝ) • x) ⬝ᵥ q.toMatrix *ᵥ x - q.toLinear ⬝ᵥ x + q.constant) := by
  have hlinear : q.linear = List.ofFn q.toLinear := (Vec.ofFn_coordinates rfl).symm
  have hproduct : Vec.dot q.linear (List.ofFn x) = .ok (q.toLinear ⬝ᵥ x) := by
    rw [← Vec.dot_ofFn]
    exact congrArg (Vec.dot · (List.ofFn x)) hlinear
  unfold value
  simp only [mulVec_ofFn, hproduct, Vec.scale_ofFn, bind, Except.bind, Vec.dot_ofFn]
  rfl

end Quadratic

end Downhill
