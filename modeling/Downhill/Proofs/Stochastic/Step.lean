import Downhill.Proofs.Number.Elementary
import Downhill.Proofs.Stochastic.Proximal
import Downhill.Proofs.Stochastic.Run

/-!
# Steps on real numbers

What the rules of a stochastic solver do to vectors of real numbers: the penalty on
squares is added to the estimate, the direction is scaled in every coordinate, and the
penalty on absolute values moves every coordinate towards zero by a threshold of its own.
-/

namespace Downhill

open Extended Vec

variable {n : Nat}

/-- The weights of the penalties and what is added to the divisors are real numbers in
the range that a solver accepts. -/
structure StochasticSettings.Weighs (settings : StochasticSettings Extended)
    (l1 l2 epsilon : ℝ) : Prop where
  l1_eq : settings.l1 = real l1
  l2_eq : settings.l2 = real l2
  epsilon_eq : settings.epsilon = real epsilon
  l1_nonneg : 0 ≤ l1
  l2_nonneg : 0 ≤ l2
  epsilon_pos : 0 < epsilon

/-- The scales of the squared distances for sums of squared estimates. -/
noncomputable def stepScale (kind : SolverKind) (epsilon : ℝ) (squares : Fin n → ℝ) :
    Fin n → ℝ :=
  fun i => if kind = .adaptive then 1 / (√(squares i) + epsilon) else 1

theorem stepScale_pos (kind : SolverKind) {epsilon : ℝ} (h : 0 < epsilon) (squares : Fin n → ℝ)
    (i : Fin n) : 0 < stepScale kind epsilon squares i := by
  unfold stepScale
  split
  · positivity
  · exact one_pos

/-- A rule for a kind of solver that has summed up squares. -/
def StepRule.Sums (kind : SolverKind) (squares : Fin n → ℝ) : StepRule Extended → Prop
  | .plain => kind ≠ .adaptive
  | .adaptive sums _ => kind = .adaptive ∧ sums = reals squares

/-- A rule whose steps have the given scales. -/
def StepRule.Scales (scales : Fin n → ℝ) : StepRule Extended → Prop
  | .plain => scales = 1
  | .adaptive _ scaling => scaling = reals scales

namespace StochasticSettings.Weighs

variable {settings : StochasticSettings Extended} {l1 l2 epsilon : ℝ}
  (w : settings.Weighs l1 l2 epsilon)
include w

theorem penalised_reals (x e : Fin n → ℝ) :
    Stochastic.penalised settings (reals x) (reals e) = .ok (reals (e + (2 * l2) • x)) := by
  unfold Stochastic.penalised
  by_cases huses : settings.usesL2
  · have htwo : (2.0 : Extended) * settings.l2 = real (2 * l2) := by
      rw [w.l2_eq, ofScientific_eq, real_mul]
      norm_num
    rw [if_pos huses, htwo, scale_reals, add_reals]
  · have hzero : l2 = 0 := by
      unfold usesL2 at huses
      rw [w.l2_eq] at huses
      exact le_antisymm (not_lt.mp (mt real_lt_real.mpr huses)) w.l2_nonneg
    rw [if_neg huses, hzero, mul_zero, zero_smul, add_zero]

theorem scale_real {sum : ℝ} (h : 0 ≤ sum) :
    StepRule.scale settings.epsilon (real sum) = real (1 / (√sum + epsilon)) := by
  have hne : √sum + epsilon ≠ 0 := (add_pos_of_nonneg_of_pos (Real.sqrt_nonneg _) w.epsilon_pos).ne'
  unfold StepRule.scale
  rw [w.epsilon_eq, sqrt_real h, real_add, one_eq, real_div 1 hne]

/-- Every coordinate of the point that is reached is moved towards zero by its own
threshold. -/
theorem reach_reals {rule : StepRule Extended} {s v : Fin n → ℝ} {a : ℝ}
    {x direction : Vec Extended} (hrule : rule.Scales s)
    (hmoved : x.along (real a) direction = .ok (reals v)) :
    StepRule.reach settings rule x (real a) direction =
      .ok (reals fun i => Threshold.shrink (v i) (a * s i * l1)) := by
  unfold StepRule.reach
  rw [hmoved]
  dsimp only [bind, Except.bind]
  by_cases huses : settings.usesL1
  · rw [if_pos huses, w.l1_eq, real_mul]
    cases rule with
    | plain =>
      obtain rfl : s = 1 := hrule
      show Except.ok (Threshold.softAll (real (a * l1)) (reals v)) = _
      unfold Threshold.softAll
      rw [map_reals (g := fun r => Threshold.shrink r (a * l1)) v
        fun i => Threshold.soft_real (v i) (a * l1)]
      simp only [Pi.one_apply, mul_one]
    | adaptive sums scaling =>
      obtain rfl : scaling = reals s := hrule
      show Threshold.softEach ((reals s).scale (real (a * l1))) (reals v) = _
      unfold Threshold.softEach reals
      rw [show Vec.scale (real (a * l1)) (List.ofFn fun i => real (s i)) =
        List.ofFn fun i => real ((a * l1) * s i) from List.map_ofFn, combine_ofFn]
      simp only [Threshold.soft_real, mul_right_comm a l1]
  · have hzero : l1 = 0 := by
      unfold usesL1 at huses
      rw [w.l1_eq] at huses
      exact le_antisymm (not_lt.mp (mt real_lt_real.mp huses)) w.l1_nonneg
    rw [if_neg huses, hzero]
    simp only [mul_zero, Threshold.shrink_zero]
    rfl

theorem exists_direction {kind : SolverKind} {squares : Fin n → ℝ} {rule : StepRule Extended}
    (hrule : rule.Sums kind squares) (hsquares : ∀ i, 0 ≤ squares i) (g : Fin n → ℝ) :
    ∃ next : StepRule Extended, next.Sums kind (squares + g * g) ∧
      next.Scales (stepScale kind epsilon (squares + g * g)) ∧
      StepRule.direction settings rule (reals g) =
        (.ok (reals (-g * stepScale kind epsilon (squares + g * g))), next) := by
  cases rule with
  | plain =>
    have hkind : kind ≠ .adaptive := hrule
    have hone : stepScale kind epsilon (squares + g * g) = 1 := funext fun i => if_neg hkind
    refine ⟨.plain, hkind, hone, ?_⟩
    rw [hone, mul_one]
    exact congrArg (fun direction => (Except.ok direction, StepRule.plain)) (neg_reals g)
  | adaptive sums scaling =>
    obtain ⟨rfl, rfl⟩ := hrule
    have hpositive : ∀ i, 0 ≤ (squares + g * g) i := fun i =>
      add_nonneg (hsquares i) (mul_self_nonneg (g i))
    have hscale : (reals (squares + g * g)).map (StepRule.scale settings.epsilon) =
        reals (stepScale .adaptive epsilon (squares + g * g)) := by
      rw [map_reals (g := fun sum => 1 / (√sum + epsilon)) _ fun i => w.scale_real (hpositive i)]
      rfl
    refine ⟨.adaptive (reals (squares + g * g))
      (reals (stepScale .adaptive epsilon (squares + g * g))), ⟨rfl, rfl⟩, rfl, ?_⟩
    unfold StepRule.direction
    dsimp only
    rw [map_reals (g := fun r => r * r) _ fun i => real_mul (g i) (g i)]
    rw [show (fun i => g i * g i) = g * g from rfl, add_reals]
    dsimp only
    rw [hscale, neg_reals, mul_reals]

end StochasticSettings.Weighs

end Downhill
