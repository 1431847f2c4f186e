import Downhill.LineSearch.Exact
import Downhill.Proofs.Linear.Form
import Downhill.Proofs.Linear.Quadratic

/-!
# Exact search over the real numbers
-/

namespace Downhill

open Matrix

theorem EvalM.answer_ok {α β : Type} (b : β) : (EvalM.answer (.ok b) : EvalM α β) = pure b := rfl

/-- Along a direction in which the quadratic curves upwards, the search returns the
vertex of the parabola, after one request for the gradient. -/
theorem Exact.search_eq_vertex {q : Quadratic ℝ} (query : Query ℝ)
    {x d : Fin q.dimension → ℝ} (hpoint : query.point = List.ofFn x)
    (hdirection : query.direction = List.ofFn d) (hcurvature : 0 < d ⬝ᵥ q.toMatrix *ᵥ d) :
    (Exact.search q.matrix q.toObjective query).journaled =
      (.ok ⟨max 0 (-((q.toMatrix *ᵥ x - q.toLinear) ⬝ᵥ d) / (d ⬝ᵥ q.toMatrix *ᵥ d)), .accepted⟩,
        [.gradient (List.ofFn x)]) := by
  have hgradient : q.toObjective.gradient (List.ofFn x) =
      .ok (List.ofFn (q.toMatrix *ᵥ x - q.toLinear)) := q.gradient_ofFn x
  unfold Exact.search Objective.askSlope Objective.askGradient Exact.vertex
  simp only [hpoint, hdirection, Quadratic.curvature_ofFn, hgradient, EvalM.answer_ok, pure_bind,
    bind_assoc, Vec.dot_ofFn, if_neg (not_le.mpr hcurvature), Scalar.real_larger]
  rfl

/-- Without curvature upwards the search stays where it is, and asks for nothing. -/
theorem Exact.search_eq_zero {q : Quadratic ℝ} (query : Query ℝ) {d : Fin q.dimension → ℝ}
    (hdirection : query.direction = List.ofFn d) (hcurvature : d ⬝ᵥ q.toMatrix *ᵥ d ≤ 0) :
    (Exact.search q.matrix q.toObjective query).journaled = (.ok ⟨0, .accepted⟩, []) := by
  unfold Exact.search
  simp only [hdirection, Quadratic.curvature_ofFn, EvalM.answer_ok, pure_bind, if_pos hcurvature]
  rfl

theorem Exact.search_ofReals {n : Nat} {A : Matrix (Fin n) (Fin n) ℝ} {b x d : Fin n → ℝ} {c : ℝ}
    {q : Query Extended} (hpoint : q.point = Vec.reals x)
    (hdirection : q.direction = Vec.reals d) (hcurvature : 0 < d ⬝ᵥ A *ᵥ d) :
    (Exact.search (Quadratic.ofReals A b c).matrix (Quadratic.ofReals A b c).toObjective
      q).journaled.1 =
      .ok ⟨.real (max 0 (-(formGradient A b x ⬝ᵥ d) / (d ⬝ᵥ A *ᵥ d))), .accepted⟩ := by
  have hgradient : (Quadratic.ofReals A b c).toObjective.gradient (Vec.reals x) =
      .ok (Vec.reals (formGradient A b x)) := Quadratic.gradient_ofReals ..
  have hcurves : ¬Extended.real (d ⬝ᵥ A *ᵥ d) ≤ .real 0 :=
    mt Extended.real_le_real.mp (not_le.mpr hcurvature)
  unfold Exact.search Objective.askSlope Objective.askGradient Exact.vertex
  simp only [hpoint, hdirection, Quadratic.curvature_ofReals, hgradient, EvalM.answer_ok,
    pure_bind, bind_assoc, Vec.dot_reals, if_neg hcurves, Extended.real_neg,
    Extended.real_div _ hcurvature.ne', Extended.zero_eq, Extended.larger_real]
  rfl

/-- Without curvature upwards the search stays where it is. -/
theorem Exact.search_of_flat {n : Nat} {A : Matrix (Fin n) (Fin n) ℝ} {b d : Fin n → ℝ} {c : ℝ}
    {q : Query Extended} (hdirection : q.direction = Vec.reals d)
    (hcurvature : d ⬝ᵥ A *ᵥ d ≤ 0) :
    (Exact.search (Quadratic.ofReals A b c).matrix (Quadratic.ofReals A b c).toObjective
      q).journaled.1 = .ok ⟨.real 0, .accepted⟩ := by
  have hflat : Extended.real (d ⬝ᵥ A *ᵥ d) ≤ 0 := Extended.real_le_real.mpr hcurvature
  unfold Exact.search
  simp only [hdirection, Quadratic.curvature_ofReals, EvalM.answer_ok, pure_bind, if_pos hflat]
  rfl

end Downhill
