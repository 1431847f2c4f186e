import Downhill.Proofs.Coordinate.Turns
import Downhill.Proofs.LineSearch.Best

/-!
# Relaxing a coordinate

On a quadratic with a positive diagonal the exact search along a coordinate solves the
equation of that coordinate, if it is sent to the side on which the value falls.  The
probe that chooses the side takes a step of its own size, and over that step the
curvature makes up for a slope that falls slowly.  The search is then sent to the other
side, where the value rises, and the coordinate stays.
-/

namespace Downhill

open Matrix

variable {n : Nat} (A : Matrix (Fin n) (Fin n) ℝ) (b : Fin n → ℝ) (x : Fin n → ℝ) (i : Fin n)

/-- A point with one coordinate replaced by the solution of its equation, or as it was if
the slope along the coordinate is not positive and the probe cannot see it fall. -/
noncomputable def relax : Fin n → ℝ :=
  if 0 < formGradient A b x i ∨ formGradient A b x i < -(Coordinate.probe * A i i / 2) then
    Function.update x i (x i - formGradient A b x i / A i i)
  else x

/-- The direction in which a coordinate is searched: up if the value falls over the size
of the probe, and down if not. -/
noncomputable def axisDirection : Fin n → ℝ :=
  if formGradient A b x i < -(Coordinate.probe * A i i / 2) then Pi.single i 1
  else -Pi.single i 1

/-- The best step in that direction. -/
noncomputable def axisStep : ℝ :=
  Exact.bestStep (formGradient A b x ⬝ᵥ axisDirection A b x i)
    (axisDirection A b x i ⬝ᵥ A *ᵥ axisDirection A b x i)

theorem Coordinate.probe_pos : (0 : ℝ) < Coordinate.probe := by
  unfold Coordinate.probe
  norm_num

/-! ## Along a coordinate -/

theorem Vec.unit_ofFn : Vec.unit n i = .ok (List.ofFn (Pi.single i (1 : ℝ))) := by
  rw [Vec.unit_eq_axis]
  exact congrArg (Except.ok ∘ List.ofFn) (funext fun j => (Pi.single_apply i 1 j).symm)

theorem single_dotProduct_mulVec : Pi.single i 1 ⬝ᵥ A *ᵥ Pi.single i 1 = A i i := by
  rw [single_one_dotProduct, mulVec_single_one]
  rfl

theorem add_smul_single (t : ℝ) : x + t • Pi.single i 1 = Function.update x i (x i + t) := by
  funext j
  by_cases hj : j = i
  · subst hj
    simp
  · simp [hj]

theorem curvature_axisDirection :
    axisDirection A b x i ⬝ᵥ A *ᵥ axisDirection A b x i = A i i := by
  unfold axisDirection
  split
  · exact single_dotProduct_mulVec A i
  · rw [mulVec_neg, neg_dotProduct_neg, single_dotProduct_mulVec]

section Curved

variable {A x i} (hcurved : 0 < A i i)
include hcurved

theorem neg_half_probe_lt : -(Coordinate.probe * A i i / 2) < 0 :=
  neg_lt_zero.mpr (half_pos (mul_pos Coordinate.probe_pos hcurved))

/-- The best step along a coordinate relaxes it. -/
theorem add_axisStep_smul : x + axisStep A b x i • axisDirection A b x i = relax A b x i := by
  have hzone := neg_half_probe_lt hcurved
  unfold axisStep Exact.bestStep
  rw [curvature_axisDirection, if_pos hcurved]
  unfold axisDirection relax
  set g := formGradient A b x i with hg
  by_cases hfalls : g < -(Coordinate.probe * A i i / 2)
  · rw [if_pos hfalls, if_pos (Or.inr hfalls), dotProduct_single_one,
      Exact.vertex_of_nonpos hcurved (hfalls.trans hzone).le, add_smul_single, neg_div,
      ← sub_eq_add_neg]
  · rw [if_neg hfalls, dotProduct_neg, dotProduct_single_one, ← hg]
    by_cases hrises : 0 < g
    · rw [if_pos (Or.inl hrises), Exact.vertex_of_nonpos hcurved (neg_nonpos.mpr hrises.le),
        neg_neg, smul_neg, ← neg_smul, add_smul_single, ← sub_eq_add_neg]
    · rw [if_neg (not_or.mpr ⟨hrises, hfalls⟩),
        Exact.vertex_of_nonneg hcurved (neg_nonneg.mpr (not_lt.mp hrises)), zero_smul, add_zero]

/-- A coordinate stays where it is only if its slope is not positive and hidden from the
probe. -/
theorem relax_eq_self_iff : relax A b x i = x ↔
    -(Coordinate.probe * A i i / 2) ≤ formGradient A b x i ∧ formGradient A b x i ≤ 0 := by
  have hzone := neg_half_probe_lt hcurved
  unfold relax
  split
  next hmoves =>
    refine iff_of_false (fun hsame => ?_) fun ⟨hlow, hhigh⟩ =>
      hmoves.elim (not_lt.mpr hhigh) (not_lt.mpr hlow)
    have hzero : formGradient A b x i = 0 := by
      have hentry := congrFun hsame i
      rw [Function.update_self, sub_eq_self, div_eq_zero_iff] at hentry
      exact hentry.resolve_right hcurved.ne'
    rw [hzero] at hmoves
    exact hmoves.elim (lt_irrefl 0) (not_lt.mpr hzone.le)
  next hstays =>
    rw [not_or, not_lt, not_lt] at hstays
    exact iff_of_true rfl hstays.symm

end Curved

/-! ## The probe -/

/-- The probe lowers the value along a coordinate only if the slope outweighs half the
curvature over its size. -/
theorem formValue_probe_lt_iff (c : ℝ) (hsymm : A.IsSymm) :
    formValue A b c (x + (Coordinate.probe : ℝ) • Pi.single i 1) - formValue A b c x < 0 ↔
      formGradient A b x i < -(Coordinate.probe * A i i / 2) := by
  rw [formValue_ray b c x (Pi.single i 1) _ hsymm, dotProduct_single_one, single_dotProduct_mulVec]
  have hdrop : formValue A b c x + formGradient A b x i * Coordinate.probe +
      A i i / 2 * Coordinate.probe ^ 2 - formValue A b c x =
        Coordinate.probe * (formGradient A b x i + Coordinate.probe * A i i / 2) := by ring
  rw [hdrop, ← smul_eq_mul, smul_neg_iff_of_pos_left Coordinate.probe_pos, lt_neg_iff_add_neg]

theorem Coordinate.orient_single {q : Quadratic ℝ} (hsymm : q.toMatrix.IsSymm)
    (x : Fin q.dimension → ℝ) (i : Fin q.dimension) :
    (Coordinate.orient q.toObjective (List.ofFn x)
      (formValue q.toMatrix q.toLinear q.constant x) (List.ofFn (Pi.single i 1))).journaled.1 =
        .ok (List.ofFn (axisDirection q.toMatrix q.toLinear x i)) := by
  have hvalue : q.toObjective.value _ = _ := q.value_eq_form (x + (probe : ℝ) • Pi.single i 1)
  rw [orient_of_probed (Vec.along_ofFn _ _ _) hvalue]
  simp only [formValue_probe_lt_iff q.toMatrix q.toLinear x i q.constant hsymm]
  unfold axisDirection
  split
  · rfl
  · rw [Vec.neg_ofFn]

end Downhill
