import Downhill.LineSearch
import Downhill.Proofs.LineSearch.Exact

/-!
# The exact search is exact

On a ray a quadratic with a symmetric matrix is a parabola.  The exact search takes its
slope from the gradient and its curvature from the matrix, and what it returns is the one
step at which the value is lowest among the steps that are not negative.  The matrix need
not be definite: where the parabola does not open upwards, the search stays.
-/

namespace Downhill

open Matrix

section Ray

variable {n : Nat} {A : Matrix (Fin n) (Fin n) ℝ} (b : Fin n → ℝ) (c : ℝ) (x d : Fin n → ℝ) (a : ℝ)

theorem formValue_ray (hsymm : A.IsSymm) : formValue A b c (x + a • d) =
    formValue A b c x + (formGradient A b x ⬝ᵥ d) * a + (d ⬝ᵥ A *ᵥ d) / 2 * a ^ 2 := by
  rw [formValue_add b c hsymm, mulVec_smul, dotProduct_smul, dotProduct_smul, smul_dotProduct]
  simp only [smul_eq_mul]
  ring

theorem formGradient_ray : formGradient A b (x + a • d) ⬝ᵥ d =
    formGradient A b x ⬝ᵥ d + (d ⬝ᵥ A *ᵥ d) * a := by
  have hturn : A *ᵥ d ⬝ᵥ d = d ⬝ᵥ A *ᵥ d := dotProduct_comm _ _
  unfold formGradient
  rw [mulVec_add, mulVec_smul, add_sub_right_comm, add_dotProduct, smul_dotProduct, hturn,
    smul_eq_mul, mul_comm a]

end Ray

namespace Exact

/-! ## The vertex of a parabola -/

section Vertex

variable {slope curvature : ℝ}

theorem vertex_eq : vertex slope curvature = max 0 (-slope / curvature) := Scalar.real_larger _ _

theorem vertex_nonneg : 0 ≤ vertex slope curvature := by
  rw [vertex_eq]
  exact le_max_left _ _

theorem vertex_of_nonpos (hcurvature : 0 < curvature) (hslope : slope ≤ 0) :
    vertex slope curvature = -slope / curvature := by
  rw [vertex_eq]
  exact max_eq_right (div_nonneg (neg_nonneg.mpr hslope) hcurvature.le)

theorem vertex_of_nonneg (hcurvature : 0 < curvature) (hslope : 0 ≤ slope) :
    vertex slope curvature = 0 := by
  rw [vertex_eq]
  exact max_eq_left (div_nonpos_of_nonpos_of_nonneg (neg_nonpos.mpr hslope) hcurvature.le)

/-- The slope at the vertex vanishes if the parabola falls at the start. -/
theorem slope_vertex (hcurvature : 0 < curvature) (hslope : slope ≤ 0) :
    slope + curvature * vertex slope curvature = 0 := by
  rw [vertex_of_nonpos hcurvature hslope, mul_div_cancel₀ _ hcurvature.ne', add_neg_cancel]

/-- No other step that is not negative leads as low as the vertex. -/
theorem vertex_lowest (hcurvature : 0 < curvature) {a : ℝ} (ha : 0 ≤ a)
    (hne : a ≠ vertex slope curvature) :
    slope * vertex slope curvature + curvature / 2 * vertex slope curvature ^ 2 <
      slope * a + curvature / 2 * a ^ 2 := by
  rcases le_total slope 0 with hslope | hslope
  · have hlevel := slope_vertex hcurvature hslope
    set t := vertex slope curvature
    have hgap : slope * a + curvature / 2 * a ^ 2 - (slope * t + curvature / 2 * t ^ 2) =
        curvature / 2 * (a - t) ^ 2 + (slope + curvature * t) * (a - t) := by ring
    have hpos : 0 < curvature / 2 * (a - t) ^ 2 :=
      mul_pos (half_pos hcurvature) (sq_pos_of_ne_zero (sub_ne_zero.mpr hne))
    rw [hlevel, zero_mul, add_zero] at hgap
    linarith
  · rw [vertex_of_nonneg hcurvature hslope] at hne ⊢
    have hpos : 0 < a := lt_of_le_of_ne ha hne.symm
    have hrise : 0 ≤ slope * a := mul_nonneg hslope ha
    have hbend : 0 < curvature / 2 * a ^ 2 := by positivity
    linarith

/-- How far the parabola falls to the vertex. -/
theorem vertex_drop (hcurvature : 0 < curvature) :
    -(slope * vertex slope curvature + curvature / 2 * vertex slope curvature ^ 2) =
      if slope ≤ 0 then slope ^ 2 / (2 * curvature) else 0 := by
  by_cases hslope : slope ≤ 0
  · rw [if_pos hslope, vertex_of_nonpos hcurvature hslope]
    field_simp
    ring
  · rw [if_neg hslope, vertex_of_nonneg hcurvature (not_le.mp hslope).le]
    ring

end Vertex

/-! ## The step -/

/-- The best step along a ray.  Without curvature upwards there is none, and the step is
zero.  Otherwise the step is the only one of those that are not negative where the value
is lowest.  If the ray does not rise at its start, the step leads to where the slope is
zero; if it rises, nothing is gained. -/
structure Best (value slope : ℝ → ℝ) (curvature step : ℝ) : Prop where
  stays : curvature ≤ 0 → step = 0
  nonneg : 0 ≤ step
  lowest : 0 < curvature → ∀ a, 0 ≤ a → a ≠ step → value step < value a
  drop : 0 < curvature →
    value 0 - value step = if slope 0 ≤ 0 then slope 0 ^ 2 / (2 * curvature) else 0
  level : 0 < curvature → slope 0 ≤ 0 → slope step = 0

/-- The vertex of a parabola that opens upwards, and zero for any other. -/
noncomputable def bestStep (slope curvature : ℝ) : ℝ :=
  if 0 < curvature then vertex slope curvature else 0

theorem best_of_parabola (height slope curvature : ℝ) :
    Best (fun a => height + slope * a + curvature / 2 * a ^ 2) (fun a => slope + curvature * a)
      curvature (bestStep slope curvature) := by
  by_cases hcurvature : 0 < curvature
  · have hstep : bestStep slope curvature = vertex slope curvature := if_pos hcurvature
    rw [hstep]
    refine ⟨fun hflat => absurd hcurvature (not_lt.mpr hflat), vertex_nonneg, ?_, ?_, ?_⟩
    · intro _ a ha hne
      have hlowest := vertex_lowest hcurvature ha hne
      linarith
    · intro _
      simp only [mul_zero, add_zero, ← vertex_drop hcurvature]
      ring
    · intro _ hslope
      rw [mul_zero, add_zero] at hslope
      exact slope_vertex hcurvature hslope
  · have hstep : bestStep slope curvature = 0 := if_neg hcurvature
    rw [hstep]
    exact ⟨fun _ => rfl, le_rfl, fun h => absurd h hcurvature, fun h => absurd h hcurvature,
      fun h => absurd h hcurvature⟩

end Exact

/-! ## The search -/

section Search

variable {q : Quadratic ℝ} {query : Query ℝ} {x d : Fin q.dimension → ℝ}

theorem Exact.search_eq_bestStep (hpoint : query.point = List.ofFn x)
    (hdirection : query.direction = List.ofFn d) :
    (Exact.search q.matrix q.toObjective query).journaled.1 =
      .ok ⟨bestStep (formGradient q.toMatrix q.toLinear x ⬝ᵥ d) (d ⬝ᵥ q.toMatrix *ᵥ d),
        .accepted⟩ := by
  by_cases hcurvature : 0 < d ⬝ᵥ q.toMatrix *ᵥ d
  · rw [search_eq_vertex query hpoint hdirection hcurvature, bestStep, if_pos hcurvature,
      vertex_eq]
    rfl
  · rw [search_eq_zero query hdirection (not_lt.mp hcurvature), bestStep, if_neg hcurvature]

/-- A quadratic along a ray: its values and its slopes at every step, and its curvature. -/
structure Quadratic.Profile (q : Quadratic ℝ) (x d : Vec ℝ) (value slope : ℝ → ℝ)
    (curvature : ℝ) : Prop where
  start : x.along 0 d = .ok x
  value_eq : ∀ a, (x.along a d >>= q.value) = .ok (value a)
  slope_eq : ∀ a, (x.along a d >>= fun p => q.gradient p >>= fun g => Vec.dot g d) = .ok (slope a)
  curvature_eq : Quadratic.curvature q.matrix d = .ok curvature

theorem Quadratic.profile_ofFn (hsymm : q.toMatrix.IsSymm) (x d : Fin q.dimension → ℝ) :
    q.Profile (List.ofFn x) (List.ofFn d)
      (fun a => formValue q.toMatrix q.toLinear q.constant x +
        (formGradient q.toMatrix q.toLinear x ⬝ᵥ d) * a + (d ⬝ᵥ q.toMatrix *ᵥ d) / 2 * a ^ 2)
      (fun a => formGradient q.toMatrix q.toLinear x ⬝ᵥ d + (d ⬝ᵥ q.toMatrix *ᵥ d) * a)
      (d ⬝ᵥ q.toMatrix *ᵥ d) where
  start := by rw [Vec.along_ofFn, zero_smul, add_zero]
  value_eq := by
    intro a
    rw [Vec.along_ofFn, ← formValue_ray _ _ _ _ _ hsymm]
    exact q.value_eq_form _
  slope_eq := by
    intro a
    rw [Vec.along_ofFn, ← formGradient_ray]
    show (q.gradient _ >>= fun g => Vec.dot g _) = _
    rw [q.gradient_eq_form]
    exact Vec.dot_ofFn _ _
  curvature_eq := q.curvature_ofFn d

/-- On a quadratic with a symmetric matrix the exact search returns the best step along
the ray of its query. -/
theorem Exact.stepSize_best (hsymm : q.toMatrix.IsSymm)
    (hpoint : query.point.length = q.dimension)
    (hdirection : query.direction.length = q.dimension) :
    ∃ value slope curvature step, q.Profile query.point query.direction value slope curvature ∧
      (LineSearch.stepSize (.exact q.matrix : Search ℝ) q.toObjective query).journaled.1 =
        .ok ⟨step, .accepted⟩ ∧
      Exact.Best value slope curvature step := by
  have hx := (Vec.ofFn_coordinates hpoint).symm
  have hd := (Vec.ofFn_coordinates hdirection).symm
  have hprofile := q.profile_ofFn hsymm (query.point.coordinates q.dimension)
    (query.direction.coordinates q.dimension)
  rw [← hx, ← hd] at hprofile
  exact ⟨_, _, _, _, hprofile, Exact.search_eq_bestStep hx hd, Exact.best_of_parabola _ _ _⟩

end Search

/-- A saddle, which falls away from the first axis. -/
noncomputable def Quadratic.saddle : Quadratic ℝ where
  matrix := [[1, 0], [0, -1]]
  linear := [0, 0]
  constant := 0
  rows_eq := rfl
  columns_eq := by simp

theorem Exact.stepSize_best_saddle : Quadratic.saddle.toMatrix.IsSymm ∧
    ∃ value slope curvature step,
      Quadratic.saddle.Profile [1, 1] [-1, 0] value slope curvature ∧
      (LineSearch.stepSize (.exact Quadratic.saddle.matrix : Search ℝ)
        Quadratic.saddle.toObjective ⟨[1, 1], [-1, 0], none, none, 0⟩).journaled.1 =
        .ok ⟨step, .accepted⟩ ∧
      Exact.Best value slope curvature step := by
  have hsymm : Quadratic.saddle.toMatrix.IsSymm := by
    apply IsSymm.ext
    intro i j
    fin_cases i <;> fin_cases j <;> rfl
  exact ⟨hsymm, @stepSize_best _ ⟨[1, 1], [-1, 0], none, none, 0⟩ hsymm rfl rfl⟩

end Downhill
