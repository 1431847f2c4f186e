import Downhill.Proofs.Steepest.Run

/-!
# The rate of steepest descent

With curvatures between `m` and `M` an exact step along the negative gradient takes at
least the part `m / M` off the distance of the value to its minimum.  Without bounds the
steps of a run are all exact, so the distance falls at least geometrically.
-/

namespace Downhill

open Matrix Extended

variable {n : Nat} {A : Matrix (Fin n) (Fin n) ℝ} {b x₀ best : Fin n → ℝ} {c m M : ℝ}

/-- Curvatures between two bounds, as multiples of the squared length. -/
structure CurvesBetween (A : Matrix (Fin n) (Fin n) ℝ) (m M : ℝ) : Prop where
  pos : 0 < m
  le : m ≤ M
  low : ∀ v, m * (v ⬝ᵥ v) ≤ v ⬝ᵥ A *ᵥ v
  high : ∀ v, v ⬝ᵥ A *ᵥ v ≤ M * (v ⬝ᵥ v)

/-! ## One step -/

theorem CurvesBetween.posDef (h : CurvesBetween A m M) (hsymm : A.IsSymm) : A.PosDef := by
  refine posDef_iff_dotProduct_mulVec.mpr ⟨?_, fun {d} hd => ?_⟩
  · exact hsymm
  · exact (mul_pos h.pos (dotProduct_self_pos hd)).trans_le (h.low d)

/-- The value falls by the square of the slope over twice the curvature. -/
theorem formValue_exactMove (hposDef : A.PosDef) (x : Fin n → ℝ) :
    formValue A b c (exactMove A b x) = formValue A b c x -
      1 / 2 * exactStep A b x * (formGradient A b x ⬝ᵥ formGradient A b x) := by
  let g := formGradient A b x
  let t := exactStep A b x
  have hmove : exactMove A b x = x + (-t) • g := by rw [neg_smul, ← sub_eq_add_neg]; rfl
  have hcurvature : t * (g ⬝ᵥ A *ᵥ g) = g ⬝ᵥ g := by
    by_cases hzero : g = 0
    · rw [hzero, zero_dotProduct, zero_dotProduct, mul_zero]
    · exact div_mul_cancel₀ _ (curvature_pos hposDef hzero).ne'
  rw [hmove, formValue_add b c (isSymm_of_posDef hposDef)]
  simp only [dotProduct_smul, smul_dotProduct, mulVec_smul, smul_eq_mul]
  show _ + -t * (g ⬝ᵥ g) + 1 / 2 * (-t * (-t * (g ⬝ᵥ A *ᵥ g))) = _ - 1 / 2 * t * (g ⬝ᵥ g)
  rw [← hcurvature]
  ring

/-- A short gradient means a value close to the minimum. -/
theorem CurvesBetween.gap_le (h : CurvesBetween A m M) (hsymm : A.IsSymm)
    (hbest : A *ᵥ best = b) (x : Fin n → ℝ) :
    2 * m * (formValue A b c x - formValue A b c best) ≤
      formGradient A b x ⬝ᵥ formGradient A b x := by
  let e := x - best
  have hgradient : formGradient A b x = A *ᵥ e := by
    unfold formGradient
    rw [mulVec_sub, hbest]
  rw [formValue_sub_best b c hsymm hbest, hgradient]
  have hlow := h.low e
  -- The square of `Ae - me` bounds the gradient from below by the curvature along `e`.
  have hsquare : 0 ≤ (A *ᵥ e - m • e) ⬝ᵥ (A *ᵥ e - m • e) := dotProduct_self_nonneg _
  have hcross : A *ᵥ e ⬝ᵥ e = e ⬝ᵥ A *ᵥ e := dotProduct_comm _ _
  simp only [sub_dotProduct, dotProduct_sub, smul_dotProduct, dotProduct_smul, smul_eq_mul,
    hcross] at hsquare
  have hscaled := mul_le_mul_of_nonneg_left hlow h.pos.le
  calc 2 * m * (1 / 2 * (e ⬝ᵥ A *ᵥ e))
      = 2 * m * (e ⬝ᵥ A *ᵥ e) - m * (e ⬝ᵥ A *ᵥ e) := by ring
    _ ≤ 2 * m * (e ⬝ᵥ A *ᵥ e) - m * (m * (e ⬝ᵥ e)) := by linarith
    _ ≤ A *ᵥ e ⬝ᵥ A *ᵥ e := by linarith

/-- The step is as long as the greatest curvature allows, or longer. -/
theorem CurvesBetween.length_div_le (h : CurvesBetween A m M) (hsymm : A.IsSymm)
    (x : Fin n → ℝ) : formGradient A b x ⬝ᵥ formGradient A b x / M ≤
      exactStep A b x * (formGradient A b x ⬝ᵥ formGradient A b x) := by
  let g := formGradient A b x
  by_cases hzero : g = 0
  · show g ⬝ᵥ g / M ≤ _ * (g ⬝ᵥ g)
    rw [hzero, zero_dotProduct, zero_div, mul_zero]
  · have hcurvature := curvature_pos (h.posDef hsymm) hzero
    have hM : 0 < M := h.pos.trans_le h.le
    have hstep : 1 / M ≤ exactStep A b x := by
      unfold exactStep
      rw [div_le_div_iff₀ hM hcurvature, one_mul, mul_comm]
      exact h.high g
    have hlonger := mul_le_mul_of_nonneg_right hstep (dotProduct_self_nonneg g)
    rw [one_div_mul_eq_div] at hlonger
    exact hlonger

/-- What one exact step leaves of the distance to the minimum. -/
theorem CurvesBetween.gap_exactMove_le (h : CurvesBetween A m M) (hsymm : A.IsSymm)
    (hbest : A *ᵥ best = b) (x : Fin n → ℝ) :
    formValue A b c (exactMove A b x) - formValue A b c best ≤
      (1 - m / M) * (formValue A b c x - formValue A b c best) := by
  have hM : 0 < M := h.pos.trans_le h.le
  have hdrop := h.length_div_le (b := b) hsymm x
  have hgap : m / M * (formValue A b c x - formValue A b c best) ≤
      1 / 2 * (formGradient A b x ⬝ᵥ formGradient A b x / M) := by
    have hscaled := div_le_div_of_nonneg_right (h.gap_le (c := c) hsymm hbest x) hM.le
    calc m / M * (formValue A b c x - formValue A b c best)
        = 1 / 2 * (2 * m * (formValue A b c x - formValue A b c best) / M) := by ring
      _ ≤ 1 / 2 * (formGradient A b x ⬝ᵥ formGradient A b x / M) := by linarith
  rw [formValue_exactMove (h.posDef hsymm)]
  linarith

/-! ## Runs -/

/-- Without bounds a point is brought to where it is. -/
theorem Box.bring_of_open (w : Fin n → ℝ) : (⟨none, none⟩ : Box Extended).bring w = w :=
  Vec.reading_reals w

theorem CurvesBetween.gap_steepestPoint_le (h : CurvesBetween A m M) (hsymm : A.IsSymm)
    (hbest : A *ᵥ best = b) (k : Nat) :
    formValue A b c (steepestPoint A b ⟨none, none⟩ x₀ k) - formValue A b c best ≤
      (1 - m / M) ^ k * (formValue A b c x₀ - formValue A b c best) := by
  have hpart : 0 ≤ 1 - m / M := by
    have hle : m / M ≤ 1 := (div_le_one (h.pos.trans_le h.le)).mpr h.le
    linarith
  induction k with
  | zero =>
    rw [pow_zero, one_mul]
    exact le_rfl
  | succ k ih =>
    let x := steepestPoint A b ⟨none, none⟩ x₀ k
    have hnext : steepestPoint A b ⟨none, none⟩ x₀ (k + 1) = exactMove A b x :=
      Box.bring_of_open _
    rw [hnext]
    calc formValue A b c (exactMove A b x) - formValue A b c best
        ≤ (1 - m / M) * (formValue A b c x - formValue A b c best) :=
          h.gap_exactMove_le hsymm hbest x
      _ ≤ (1 - m / M) * ((1 - m / M) ^ k * (formValue A b c x₀ - formValue A b c best)) :=
          mul_le_mul_of_nonneg_left ih hpart
      _ = (1 - m / M) ^ (k + 1) * (formValue A b c x₀ - formValue A b c best) := by
          rw [pow_succ', mul_assoc]

theorem Box.region_open : ((⟨none, none⟩ : Box Extended).region n).Nonempty :=
  ⟨0, fun _ => ⟨trivial, trivial⟩⟩

/-- Steepest descent with exact steps and without bounds converges linearly: after `k`
iterations at most the `k`-th power of `1 - m / M` is left of the distance to the
minimum.  That holds at every point of every run, and at the one that is returned. -/
theorem steepest_converges_linearly {G : Type} {settings : DescentSettings Extended}
    {start : Nested Extended} (keeps : Bool) (hcurves : CurvesBetween A m M) (hsymm : A.IsSymm)
    (hdefinite : (Quadratic.ofReals A b c).isPositiveDefinite = .ok true)
    (hbest : A *ᵥ best = b) (hsearch : settings.search = none)
    (hbox : settings.box = ⟨none, none⟩) (hstart : start.toPoint = .ok (Vec.reals x₀)) :
    ∃ solver, Descent.create .steepest settings
        (.quadratic (Quadratic.ofReals A b c) : Problem Extended G) start keeps = .ok solver ∧
      (∀ run last, Descent.IsRun solver run last → ∀ k ≤ last, ∃ x,
        (run k).point = Vec.reals x ∧ (run k).current.value = real (formValue A b c x) ∧
        formValue A b c x - formValue A b c best ≤
          (1 - m / M) ^ k * (formValue A b c x₀ - formValue A b c best)) ∧
      ∀ y final, Descent.solve.on solver = (.ok y, final) → ∃ x, y = Vec.reals x ∧
        formValue A b c x - formValue A b c best ≤
          (1 - m / M) ^ final.current.iteration *
            (formValue A b c x₀ - formValue A b c best) := by
  have hposDef := hcurves.posDef hsymm
  have hregion : (settings.box.region n).Nonempty := by
    rw [hbox]
    exact Box.region_open
  have hsize : settings.box.checkDimension n = .ok () := by
    rw [hbox]
    rfl
  obtain ⟨solver, hcreate⟩ :=
    exists_create hposDef hdefinite hsearch hregion hstart G keeps hsize
  have hpoints : ∀ run last, Descent.IsRun solver run last → ∀ k ≤ last,
      (run k).current = (steepestCourse A b c ⟨none, none⟩ x₀).iterate k := by
    intro run last hrun k hk
    rw [← hbox]
    exact (describes_of_isRun hposDef hdefinite hsearch hregion hstart hcreate hrun hk).current
  refine ⟨solver, hcreate, ?_, ?_⟩
  · intro run last hrun k hk
    have hcurrent := hpoints run last hrun k hk
    refine ⟨steepestPoint A b ⟨none, none⟩ x₀ k, congrArg Iterate.point hcurrent,
      congrArg Iterate.value hcurrent, hcurves.gap_steepestPoint_le hsymm hbest k⟩
  · intro y final hsolve
    obtain ⟨last, -, run, hrun, _, checked, hcheck, rfl, rfl⟩ := Descent.exists_run_of_solve hsolve
    have hcurrent : checked.current = (steepestCourse A b c ⟨none, none⟩ x₀).iterate last :=
      (Descent.alike_of_check hcheck).current.trans (hpoints run last hrun last (Nat.le_refl last))
    have hiteration : checked.current.iteration = last := congrArg Iterate.iteration hcurrent
    refine ⟨steepestPoint A b ⟨none, none⟩ x₀ last, congrArg Iterate.point hcurrent, ?_⟩
    show _ ≤ (1 - m / M) ^ checked.current.iteration * _
    rw [hiteration]
    exact hcurves.gap_steepestPoint_le hsymm hbest last

/-! ## A valley of two variables -/

/-- Curvatures one and four along the axes. -/
def valley : Matrix (Fin 2) (Fin 2) ℝ := diagonal ![1, 4]

theorem valley_isSymm : valley.IsSymm := isSymm_diagonal _

theorem valley_mulVec (x y : ℝ) : valley *ᵥ ![x, y] = ![x, 4 * y] := by
  unfold valley
  ext i
  fin_cases i <;> simp [mulVec_diagonal]

theorem valley_curvesBetween : CurvesBetween valley 1 4 := by
  have hcurvature : ∀ v : Fin 2 → ℝ, v ⬝ᵥ valley *ᵥ v = v 0 * v 0 + 4 * (v 1 * v 1) := by
    intro v
    unfold valley
    simp [dotProduct, Fin.sum_univ_two, mulVec_diagonal]
    ring
  have hlength : ∀ v : Fin 2 → ℝ, v ⬝ᵥ v = v 0 * v 0 + v 1 * v 1 := by
    intro v
    simp [dotProduct, Fin.sum_univ_two]
  refine ⟨one_pos, by norm_num, fun v => ?_, fun v => ?_⟩
  · rw [hcurvature, hlength]
    linarith [mul_self_nonneg (v 1)]
  · rw [hcurvature, hlength]
    linarith [mul_self_nonneg (v 0)]

theorem rangeFactor_four : Mat.rangeFactor (real 4) = real 1 := by
  have hlarge : ∃ x : ℝ, Mat.largeMatrix = real x ∧ 4 ≤ x := by
    refine ⟨(Nat.pow 2 485 : ℕ), rfl, ?_⟩
    have hpow : ∀ k : Nat, 2 ≤ k → (4 : ℝ) ≤ (Nat.pow 2 k : ℕ) :=
      fun k hk => by exact_mod_cast Nat.pow_le_pow_right two_pos hk
    apply hpow
    decide
  obtain ⟨x, hx, hle⟩ := hlarge
  have hsmall : (Mat.smallMatrix : Extended) = real (1 / x) := by
    show (1 : Extended) / Mat.largeMatrix = _
    rw [hx, one_eq, real_div _ (by linarith)]
  have hshort : 1 / x ≤ 1 := (div_le_one (by linarith)).mpr (by linarith)
  unfold Mat.rangeFactor
  rw [hsmall, hx, if_neg, if_neg]
  · rfl
  · exact not_lt.mpr hle
  · rintro ⟨-, hlt⟩
    have hlt := real_lt_real.mp hlt
    linarith

theorem Tridiagonal.negligible_real_zero (x y : ℝ) :
    negligible (real x) (real 0) (real y) = true := by
  unfold negligible roundoff
  rw [abs_real, abs_real, abs_real, sqrt_real (abs_nonneg x), sqrt_real (abs_nonneg y),
    ofScientific_eq, real_mul, real_mul, abs_zero]
  exact decide_eq_true (real_le_real.mpr (by positivity))

theorem valley_isPositiveDefinite (b : Fin 2 → ℝ) (c : ℝ) :
    (Quadratic.ofReals valley b c).isPositiveDefinite = .ok true := by
  have hmatrix : (Quadratic.ofReals valley b c).matrix = [[real 1, real 0], [real 0, real 4]] := by
    simp [Quadratic.ofReals, valley, Vec.reals, List.ofFn_succ]
  have hsize : [[real 1, real 0], [real 4]].foldl
      (fun m column => Scalar.maximum m (Vec.greatest column)) 0 = real 4 := by
    simp [Vec.greatest, zero_eq]
  have hscaled : [[real 1, real 0], [real 4]].map (·.map (· * real 1)) =
      [[real 1, real 0], [real 4]] := by
    simp
  have hform : Mat.tridiagonal 1 [[real 1, real 0], [real 4]] = ⟨real 1, [(real 0, real 4)]⟩ := by
    simp [Mat.tridiagonal, Reflection.clearing?, Vec.safeNorm, Vec.greatest, zero_eq]
  have hsplit : Tridiagonal.split Tridiagonal.negligible (real 1) [(real 0, real 4)] =
      ([], [(0, real 4)]) := by
    rw [Tridiagonal.split, if_pos (Tridiagonal.negligible_real_zero 1 4)]
  have hfound : Tridiagonal.eigenvalues 2 60 (⟨real 1, [(real 0, real 4)]⟩ : Tridiagonal Extended) =
      .ok [real 1, real 4] := by
    rw [Tridiagonal.eigenvalues]
    simp only [hsplit]
    rfl
  have heigenvalues : Mat.eigenvalues [[real 1, real 0], [real 0, real 4]] =
      .ok [real 1, real 4] := by
    have hcolumns : Mat.lowerColumns [[real 1, real 0], [real 0, real 4]] =
        [[real 1, real 0], [real 4]] := rfl
    unfold Mat.eigenvalues
    rw [hcolumns]
    dsimp only
    rw [if_neg (by decide), hsize, rangeFactor_four, hscaled]
    show (Tridiagonal.eigenvalues 2 60 (Mat.tridiagonal 1 [[real 1, real 0], [real 4]]) >>=
      fun found => Except.ok (found.map (· * (1 / real 1)))) = _
    rw [hform, hfound]
    show Except.ok [real 1 * (real 1 / real 1), real 4 * (real 1 / real 1)] = _
    rw [real_div _ one_ne_zero]
    simp
  unfold Quadratic.isPositiveDefinite
  rw [Mat.isPositiveDefinite_eq_true_iff, hmatrix]
  refine ⟨?_, _, heigenvalues, ?_⟩
  · simp [Mat.nearlySymmetric, Mat.close, Mat.entry, List.range_succ]
  · have htolerance : ∀ x : ℝ, 1 ≤ x → (Mat.definitenessTolerance : Extended) < real x := by
      intro x hx
      unfold Mat.definitenessTolerance
      rw [ofScientific_eq]
      exact real_lt_real.mpr (lt_of_lt_of_le (by norm_num) hx)
    intro x hx
    rcases List.mem_pair.mp hx with rfl | rfl
    · exact htolerance 1 le_rfl
    · exact htolerance 4 (by norm_num)

/-- Settings for two iterations with nothing else to check. -/
noncomputable def twoSteps : DescentSettings Extended where
  maxIterations := 2
  pointTolerance := 0
  pointPatience := 1
  checksPoint := false
  box := ⟨none, none⟩
  predicate := none
  logEvery := 0
  wolfe := ⟨1e-4, 0.1, 10.0, 100⟩
  firstTrial := .firstOrder
  method := none
  restart := .never
  gradientTolerance := 0
  checksGradient := false
  valueTolerance := 0
  valuePatience := 1
  checksValue := false
  search := none

theorem toPoint_reals_two (x y : ℝ) :
    (Nested.ofVec [real x, real y]).toPoint = .ok (Vec.reals ![x, y]) := by
  have hreals : Vec.reals ![x, y] = [real x, real y] := by simp [Vec.reals, List.ofFn_succ]
  rw [hreals]
  exact Nested.toPoint_ofVec (List.cons_ne_nil _ _)

theorem steepest_converges_linearly_valley :
    ∃ (solver final : Descent (Strategy Extended) (Search Extended) Extended)
      (run : Nat → Descent (Strategy Extended) (Search Extended) Extended) (x : Fin 2 → ℝ),
      Descent.create .steepest twoSteps
        (.quadratic (Quadratic.ofReals valley 0 0) : Problem Extended Unit)
        (Nested.ofVec [real 8, real 1]) true = .ok solver ∧
      Descent.IsRun solver run 2 ∧ Descent.solve.on solver = (.ok (Vec.reals x), final) ∧
      final.current.iteration = 2 ∧ formValue valley 0 0 x ≤ (3 / 4) ^ 2 * 34 := by
  have hposDef := valley_curvesBetween.posDef valley_isSymm
  have hdefinite := valley_isPositiveDefinite 0 0
  have hstart := toPoint_reals_two 8 1
  have hunchecked : twoSteps.Unchecked := ⟨rfl, rfl, rfl, rfl⟩
  obtain ⟨solver, run, final, hcreate, hrun, hsolve, hiteration⟩ := exists_run_of_unchecked hposDef
    hdefinite (show twoSteps.search = none from rfl) Box.region_open hstart Unit true rfl hunchecked
  obtain ⟨solver', hcreate', -, hreturned⟩ := steepest_converges_linearly (G := Unit) true
    valley_curvesBetween valley_isSymm hdefinite (show valley *ᵥ 0 = 0 from mulVec_zero _)
    (show twoSteps.search = none from rfl) rfl hstart
  obtain rfl : solver = solver' := Except.ok.inj (hcreate.symm.trans hcreate')
  obtain ⟨x, hx, hgap⟩ := hreturned _ _ hsolve
  rw [hx] at hsolve
  refine ⟨solver, final, run, x, hcreate, hrun, hsolve, hiteration, ?_⟩
  have hfirst : formValue valley 0 0 ![8, 1] = 34 := by
    unfold formValue
    rw [valley_mulVec, zero_dotProduct]
    norm_num [dotProduct, Fin.sum_univ_two]
  have hlowest : formValue valley 0 0 0 = 0 := by
    unfold formValue
    rw [zero_dotProduct, zero_dotProduct]
    norm_num
  rw [hiteration, hfirst, hlowest, sub_zero, sub_zero] at hgap
  calc formValue valley 0 0 x ≤ (1 - 1 / 4) ^ 2 * 34 := hgap
    _ = (3 / 4) ^ 2 * 34 := by norm_num

end Downhill
