import Downhill.Proofs.Steepest.Rate

/-!
# Steepest descent in a box

The step is chosen along the whole ray, and the point is brought into the box after it.
What is left of the move still goes downhill at first, but in a direction of its own,
and the quadratic may curve more along that than along the gradient.  The value cannot
rise as long as it curves at most twice as much.
-/

namespace Downhill

open Matrix Extended

variable {n : Nat} {A : Matrix (Fin n) (Fin n) ℝ} {b x₀ x y : Fin n → ℝ} {c : ℝ}
  {box : Box Extended}

/-- Along a move the quadratic curves at most twice as much as along the gradient. -/
def CurvesMildly (A : Matrix (Fin n) (Fin n) ℝ) (b x y : Fin n → ℝ) : Prop :=
  ((y - x) ⬝ᵥ A *ᵥ (y - x)) * (formGradient A b x ⬝ᵥ formGradient A b x) ≤
    2 * (formGradient A b x ⬝ᵥ A *ᵥ formGradient A b x) * ((y - x) ⬝ᵥ (y - x))

theorem CurvesBetween.curvesMildly {m M : ℝ} (h : CurvesBetween A m M) (hratio : M ≤ 2 * m) :
    CurvesMildly A b x y := by
  let g := formGradient A b x
  let s := y - x
  have hs := dotProduct_self_nonneg s
  have hg := dotProduct_self_nonneg g
  calc (s ⬝ᵥ A *ᵥ s) * (g ⬝ᵥ g)
      ≤ M * (s ⬝ᵥ s) * (g ⬝ᵥ g) := mul_le_mul_of_nonneg_right (h.high s) hg
    _ = M * ((s ⬝ᵥ s) * (g ⬝ᵥ g)) := mul_assoc _ _ _
    _ ≤ 2 * m * ((s ⬝ᵥ s) * (g ⬝ᵥ g)) := mul_le_mul_of_nonneg_right hratio (mul_nonneg hs hg)
    _ = 2 * (m * (g ⬝ᵥ g)) * (s ⬝ᵥ s) := by ring
    _ ≤ 2 * (g ⬝ᵥ A *ᵥ g) * (s ⬝ᵥ s) := by
      have hlow := h.low g
      exact mul_le_mul_of_nonneg_right (by linarith) hs

/-! ## One iteration -/

/-- Seen from a number of the set, the nearest number lies on the way to the given one. -/
theorem Nearest.sq_le {set : Set ℝ} {w y z : ℝ} (h : Nearest set w y) (hz : z ∈ set) :
    (y - z) * (y - z) ≤ (y - z) * (w - z) := by
  rcases h.side z hz with ⟨hwy, hyz⟩ | ⟨hzy, hyw⟩
  · exact mul_le_mul_of_nonpos_left (by linarith) (by linarith)
  · exact mul_le_mul_of_nonneg_left (by linarith) (by linarith)

section Iteration

variable (hnearest : ∀ i : Fin n, Nearest (box.between i) (exactMove A b x i) (y i))
include hnearest

/-- What is left of the move goes downhill at first. -/
theorem exactStep_mul_slope_le (hx : x ∈ box.region n) :
    exactStep A b x * (formGradient A b x ⬝ᵥ (y - x)) ≤ -((y - x) ⬝ᵥ (y - x)) := by
  let g := formGradient A b x
  let t := exactStep A b x
  have hentry : ∀ i, (y i - x i) * (y i - x i) ≤ -(t * (g i * (y i - x i))) := by
    intro i
    have hmove : exactMove A b x i = x i - t * g i := rfl
    have hsq := (hnearest i).sq_le (hx i)
    rw [hmove] at hsq
    linarith
  have hsum : (y - x) ⬝ᵥ (y - x) ≤ -(t * (g ⬝ᵥ (y - x))) := by
    unfold dotProduct
    rw [Finset.mul_sum, ← Finset.sum_neg_distrib]
    exact Finset.sum_le_sum fun i _ => hentry i
  linarith

theorem formValue_le_of_curvesMildly (hposDef : A.PosDef) (hmild : CurvesMildly A b x y)
    (hx : x ∈ box.region n) : formValue A b c y ≤ formValue A b c x := by
  let g := formGradient A b x
  let s := y - x
  have hslope : exactStep A b x * (g ⬝ᵥ s) ≤ -(s ⬝ᵥ s) := exactStep_mul_slope_le hnearest hx
  have hmove : formValue A b c y = formValue A b c x + g ⬝ᵥ s + 1 / 2 * (s ⬝ᵥ A *ᵥ s) := by
    rw [← formValue_add b c (isSymm_of_posDef hposDef), add_sub_cancel]
  by_cases hzero : g = 0
  · -- Where the gradient vanishes there is no move to deflect.
    rw [hzero, zero_dotProduct, mul_zero] at hslope
    have hs : s = 0 := dotProduct_self_eq_zero.mp
      (le_antisymm (by linarith) (dotProduct_self_nonneg s))
    rw [hmove, hzero, hs, zero_dotProduct, zero_dotProduct, mul_zero, add_zero, add_zero]
  · have hcurvature : 0 < g ⬝ᵥ A *ᵥ g := curvature_pos hposDef hzero
    have hlength : 0 < g ⬝ᵥ g := dotProduct_self_pos hzero
    -- Multiplied by the curvature along the gradient, the step becomes the squared length.
    have hscaled : (g ⬝ᵥ g) * (g ⬝ᵥ s) ≤ -((g ⬝ᵥ A *ᵥ g) * (s ⬝ᵥ s)) := by
      have hstep : (g ⬝ᵥ A *ᵥ g) * exactStep A b x = g ⬝ᵥ g := mul_div_cancel₀ _ hcurvature.ne'
      have hfirst := mul_le_mul_of_nonneg_left hslope hcurvature.le
      rw [← mul_assoc, hstep] at hfirst
      linarith
    have hdrop : (g ⬝ᵥ g) * (g ⬝ᵥ s + 1 / 2 * (s ⬝ᵥ A *ᵥ s)) ≤ 0 := by
      have hmild : (s ⬝ᵥ A *ᵥ s) * (g ⬝ᵥ g) ≤ 2 * (g ⬝ᵥ A *ᵥ g) * (s ⬝ᵥ s) := hmild
      linarith
    have hfall := nonpos_of_mul_nonpos_right hdrop hlength
    rw [hmove]
    linarith

/-- A move that stays in the box is not deflected. -/
theorem formValue_le_of_mem (hposDef : A.PosDef) (hmem : exactMove A b x ∈ box.region n) :
    formValue A b c y ≤ formValue A b c x := by
  have hy : y = exactMove A b x := funext fun i => (hnearest i).eq_of_mem (hmem i)
  have hfall : 0 ≤ exactStep A b x * (formGradient A b x ⬝ᵥ formGradient A b x) :=
    mul_nonneg (exactStep_nonneg hposDef x) (dotProduct_self_nonneg _)
  rw [hy, formValue_exactMove hposDef]
  linarith

end Iteration

/-! ## Runs -/

theorem steepestPoint_mem (hsize : box.checkDimension n = .ok ()) (hx₀ : x₀ ∈ box.region n)
    (k : Nat) : steepestPoint A b box x₀ k ∈ box.region n := by
  cases k with
  | zero => exact hx₀
  | succ k => exact fun i => ((Box.clamp_reals hsize ⟨x₀, hx₀⟩ _).2 i).mem

/-- In a box steepest descent with exact steps does not raise the value in an iteration
whose move, deflected by the box or not, curves mildly.  That covers every move that
stays in the box, and every move at all if no curvature is more than twice another. -/
theorem steepest_descends_of_curvesMildly {G : Type} {settings : DescentSettings Extended}
    {start : Nested Extended} {keeps : Bool}
    {solver : Descent (Strategy Extended) (Search Extended) Extended}
    {run : Nat → Descent (Strategy Extended) (Search Extended) Extended} {last k : Nat}
    (hposDef : A.PosDef) (hdefinite : (Quadratic.ofReals A b c).isPositiveDefinite = .ok true)
    (hsearch : settings.search = none) (hfeasible : x₀ ∈ settings.box.region n)
    (hstart : start.toPoint = .ok (Vec.reals x₀))
    (hcreate : Descent.create .steepest settings
      (.quadratic (Quadratic.ofReals A b c) : Problem Extended G) start keeps = .ok solver)
    (hrun : Descent.IsRun solver run last) (hk : k < last) :
    ∃ x y : Fin n → ℝ, x ∈ settings.box.region n ∧ y ∈ settings.box.region n ∧
      (run k).point = Vec.reals x ∧ (run k).current.value = real (formValue A b c x) ∧
      (run (k + 1)).point = Vec.reals y ∧
      (run (k + 1)).current.value = real (formValue A b c y) ∧
      (CurvesMildly A b x y → formValue A b c y ≤ formValue A b c x) ∧
      (exactMove A b x ∈ settings.box.region n → formValue A b c y ≤ formValue A b c x) ∧
      ∀ m M, CurvesBetween A m M → M ≤ 2 * m → formValue A b c y ≤ formValue A b c x := by
  obtain ⟨point, hpoint, hsize⟩ := Descent.exists_size_of_create hcreate
  obtain rfl : Vec.reals x₀ = point := Except.ok.inj (hstart.symm.trans hpoint)
  rw [Vec.length_reals] at hsize
  have hregion : (settings.box.region n).Nonempty := ⟨x₀, hfeasible⟩
  have hcurrent : ∀ j ≤ last, (run j).current =
      (steepestCourse A b c settings.box x₀).iterate j := fun j hj =>
    (describes_of_isRun hposDef hdefinite hsearch hregion hstart hcreate hrun hj).current
  let x := steepestPoint A b settings.box x₀ k
  have hx : x ∈ settings.box.region n := steepestPoint_mem hsize hfeasible k
  have hnearest := (Box.clamp_reals hsize hregion (exactMove A b x)).2
  have hmild : CurvesMildly A b x (settings.box.bring (exactMove A b x)) →
      formValue A b c (settings.box.bring (exactMove A b x)) ≤ formValue A b c x :=
    fun hmild => formValue_le_of_curvesMildly hnearest hposDef hmild hx
  refine ⟨x, settings.box.bring (exactMove A b x), hx, fun i => (hnearest i).mem,
    congrArg Iterate.point (hcurrent k hk.le), congrArg Iterate.value (hcurrent k hk.le),
    congrArg Iterate.point (hcurrent (k + 1) hk), congrArg Iterate.value (hcurrent (k + 1) hk),
    hmild, formValue_le_of_mem hnearest hposDef, ?_⟩
  intro m M hcurves hratio
  exact hmild (hcurves.curvesMildly hratio)

/-! ### Two lower bounds

From `(8, 1)` the step in the valley leads to `(3, -3/2)`.  Lower bounds of zero deflect the
move and the value still falls.  A bound that holds the first coordinate leaves only the
steep side of the valley, and there the step is too long. -/

/-- Settings for one iteration within lower bounds, with nothing else to check. -/
noncomputable def oneStepAbove (l₁ l₂ : ℝ) : DescentSettings Extended :=
  { twoSteps with maxIterations := 1, box := ⟨some [real l₁, real l₂], none⟩ }

theorem Box.bring_above (l₁ l₂ x y : ℝ) :
    (⟨some [real l₁, real l₂], none⟩ : Box Extended).bring ![x, y] = ![max x l₁, max y l₂] := by
  have hpoint : Vec.reals ![x, y] = [real x, real y] := by simp [Vec.reals, List.ofFn_succ]
  have hclamp : (⟨some [real l₁, real l₂], none⟩ : Box Extended).clamp (Vec.reals ![x, y]) =
      .ok [real (max x l₁), real (max y l₂)] := by
    rw [hpoint]
    show Except.ok [Scalar.maximum (real x) (real l₁), Scalar.maximum (real y) (real l₂)] = _
    rw [maximum_real, maximum_real]
  unfold Box.bring
  rw [hclamp]
  ext i
  fin_cases i <;> rfl

theorem Box.mem_region_above {l₁ l₂ x y : ℝ} (hx : l₁ ≤ x) (hy : l₂ ≤ y) :
    ![x, y] ∈ (⟨some [real l₁, real l₂], none⟩ : Box Extended).region 2 := by
  intro i
  fin_cases i
  · exact ⟨real_le_real.mpr hx, trivial⟩
  · exact ⟨real_le_real.mpr hy, trivial⟩

theorem formGradient_valley (x y : ℝ) : formGradient valley 0 ![x, y] = ![x, 4 * y] := by
  unfold formGradient
  rw [valley_mulVec, sub_zero]

theorem exactMove_valley : exactMove valley 0 ![8, 1] = ![3, -3 / 2] := by
  have hgradient : formGradient valley 0 ![8, 1] = ![8, 4] := by
    rw [formGradient_valley]
    norm_num
  have hstep : exactStep valley 0 ![8, 1] = 5 / 8 := by
    unfold exactStep
    rw [hgradient, valley_mulVec]
    norm_num [dotProduct, Fin.sum_univ_two]
  unfold exactMove
  rw [hgradient, hstep]
  ext i
  fin_cases i <;> norm_num

theorem formValue_valley (x y : ℝ) :
    formValue valley 0 0 ![x, y] = 1 / 2 * (x * x + 4 * (y * y)) := by
  unfold formValue
  rw [valley_mulVec, zero_dotProduct]
  simp [dotProduct, Fin.sum_univ_two]
  ring

theorem steepestPoint_above (l₁ l₂ : ℝ) :
    steepestPoint valley 0 (oneStepAbove l₁ l₂).box ![8, 1] 1 = ![max 3 l₁, max (-3 / 2) l₂] := by
  show (oneStepAbove l₁ l₂).box.bring (exactMove valley 0 ![8, 1]) = _
  rw [exactMove_valley]
  exact Box.bring_above l₁ l₂ 3 (-3 / 2)

theorem exists_run_above {l₁ l₂ : ℝ} (h₁ : l₁ ≤ 8) (h₂ : l₂ ≤ 1) :
    ∃ (solver : Descent (Strategy Extended) (Search Extended) Extended)
      (run : Nat → Descent (Strategy Extended) (Search Extended) Extended),
      Descent.create .steepest (oneStepAbove l₁ l₂)
        (.quadratic (Quadratic.ofReals valley 0 0) : Problem Extended Unit)
        (Nested.ofVec [real 8, real 1]) true = .ok solver ∧
      Descent.IsRun solver run 1 ∧ ∀ k ≤ 1, (run k).current =
        (steepestCourse valley 0 0 (oneStepAbove l₁ l₂).box ![8, 1]).iterate k := by
  have hposDef := valley_curvesBetween.posDef valley_isSymm
  have hdefinite := valley_isPositiveDefinite 0 0
  have hsearch : (oneStepAbove l₁ l₂).search = none := rfl
  have hregion : ((oneStepAbove l₁ l₂).box.region 2).Nonempty := ⟨_, Box.mem_region_above h₁ h₂⟩
  have hstart := toPoint_reals_two 8 1
  obtain ⟨solver, run, final, hcreate, hrun, -⟩ := exists_run_of_unchecked hposDef hdefinite
    hsearch hregion hstart Unit true rfl ⟨rfl, rfl, rfl, rfl⟩
  exact ⟨solver, run, hcreate, hrun, fun k hk =>
    (describes_of_isRun hposDef hdefinite hsearch hregion hstart hcreate hrun hk).current⟩

theorem steepest_descends_of_curvesMildly_above :
    ∃ (solver : Descent (Strategy Extended) (Search Extended) Extended)
      (run : Nat → Descent (Strategy Extended) (Search Extended) Extended),
      Descent.create .steepest (oneStepAbove 0 0)
        (.quadratic (Quadratic.ofReals valley 0 0) : Problem Extended Unit)
        (Nested.ofVec [real 8, real 1]) true = .ok solver ∧
      Descent.IsRun solver run 1 ∧ (run 1).point = Vec.reals ![3, 0] ∧
      exactMove valley 0 ![8, 1] ∉ (oneStepAbove 0 0).box.region 2 ∧
      formValue valley 0 0 ![3, 0] ≤ formValue valley 0 0 ![8, 1] := by
  obtain ⟨solver, run, hcreate, hrun, hcurrent⟩ :=
    exists_run_above (show (0 : ℝ) ≤ 8 by norm_num) (show (0 : ℝ) ≤ 1 by norm_num)
  obtain ⟨x, y, -, -, hx, -, hy, -, hdescends, -⟩ := steepest_descends_of_curvesMildly
    (valley_curvesBetween.posDef valley_isSymm) (valley_isPositiveDefinite 0 0) rfl
    (Box.mem_region_above (by norm_num) (by norm_num)) (toPoint_reals_two 8 1) hcreate hrun
    (k := 0) Nat.one_pos
  have hreached : (run 1).point = Vec.reals ![3, 0] := by
    have hpoint : (run 1).point =
        Vec.reals (steepestPoint valley 0 (oneStepAbove 0 0).box ![8, 1] 1) :=
      congrArg Iterate.point (hcurrent 1 le_rfl)
    rw [hpoint, steepestPoint_above]
    norm_num
  obtain rfl : x = ![8, 1] := Vec.reals_injective
    (hx.symm.trans (congrArg Iterate.point (hcurrent 0 (Nat.zero_le 1))))
  obtain rfl : y = ![3, 0] := Vec.reals_injective (hy.symm.trans hreached)
  refine ⟨solver, run, hcreate, hrun, hreached, ?_, hdescends ?_⟩
  · rw [exactMove_valley]
    intro hmem
    have hlow : (0 : ℝ) ≤ -3 / 2 := real_le_real.mp (hmem 1).1
    norm_num at hlow
  · unfold CurvesMildly
    have hmove : (![3, 0] - ![8, 1] : Fin 2 → ℝ) = ![-5, -1] := by
      ext i
      fin_cases i <;> norm_num
    rw [hmove, formGradient_valley, valley_mulVec, valley_mulVec]
    norm_num [dotProduct, Fin.sum_univ_two]

theorem steepest_ascends_above :
    ∃ (solver : Descent (Strategy Extended) (Search Extended) Extended)
      (run : Nat → Descent (Strategy Extended) (Search Extended) Extended),
      valley.PosDef ∧ (Quadratic.ofReals valley 0 0).isPositiveDefinite = .ok true ∧
      Box.ofBounds (some (Nested.ofVec [real 8, real (-4)])) none =
        .ok (oneStepAbove 8 (-4)).box ∧
      ![8, 1] ∈ (oneStepAbove 8 (-4)).box.region 2 ∧
      Descent.create .steepest (oneStepAbove 8 (-4))
        (.quadratic (Quadratic.ofReals valley 0 0) : Problem Extended Unit)
        (Nested.ofVec [real 8, real 1]) true = .ok solver ∧
      Descent.IsRun solver run 1 ∧ ¬(run 1).current.value ≤ (run 0).current.value := by
  obtain ⟨solver, run, hcreate, hrun, hcurrent⟩ :=
    exists_run_above (le_refl (8 : ℝ)) (show (-4 : ℝ) ≤ 1 by norm_num)
  have hvalue : ∀ k ≤ 1, (run k).current.value = real (formValue valley 0 0
      (steepestPoint valley 0 (oneStepAbove 8 (-4)).box ![8, 1] k)) :=
    fun k hk => congrArg Iterate.value (hcurrent k hk)
  refine ⟨solver, run, valley_curvesBetween.posDef valley_isSymm, valley_isPositiveDefinite 0 0,
    rfl, Box.mem_region_above le_rfl (by norm_num), hcreate, hrun, ?_⟩
  rw [hvalue 1 le_rfl, hvalue 0 (Nat.zero_le 1), steepestPoint_above]
  show ¬real (formValue valley 0 0 ![max 3 8, max (-3 / 2) (-4)]) ≤
    real (formValue valley 0 0 ![8, 1])
  rw [formValue_valley, formValue_valley, real_le_real]
  norm_num

end Downhill
