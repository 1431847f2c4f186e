import Downhill.Proofs.LineSearch.Backtracking

/-!
# How far backtracking shrinks a step

The trial steps of a backtracking search are the first one, cut again and again by the same
factor.  The search returns the first of them that decreases the value sufficiently, or the
one after its last trial, which nothing has tested.

Where the values stay below a parabola with the slope of the start, every step up to a bound
decreases sufficiently.  A step that is refused is therefore above the bound, and the step
after it is above the bound cut once, whether or not it is tested.
-/

namespace Downhill

open Extended (real)

namespace Backtracking

/-! ## Over any numbers -/

section Trials

variable {α : Type} [Scalar α] (b : Backtracking α) (phi : α → α) (value slope : α)

/-- The step decreases the value sufficiently. -/
def Accepts (step : α) : Prop := phi step ≤ value + b.c * step * slope

/-- The trial step after so many cuts. -/
def trial (step : α) : Nat → α
  | 0 => step
  | j + 1 => trial step j * b.rho

theorem trial_cut (step : α) (j : Nat) : b.trial (step * b.rho) j = b.trial step (j + 1) := by
  induction j with
  | zero => rfl
  | succ j ih => exact congrArg (· * b.rho) ih

/-- What is returned after so many trials: the first step that is accepted, or the next one if
none is. -/
inductive Shrunk (limit : Nat) (step : α) : Outcome α → Prop
  | accepted {j : Nat} (hj : j < limit) (h : b.Accepts phi value slope (b.trial step j))
      (hrefused : ∀ i < j, ¬b.Accepts phi value slope (b.trial step i)) :
    Shrunk limit step ⟨b.trial step j, .accepted⟩
  | untested (hrefused : ∀ i < limit, ¬b.Accepts phi value slope (b.trial step i)) :
    Shrunk limit step ⟨b.trial step limit, .untested⟩

variable {b phi value slope}

theorem refused_succ {step : α} {j : Nat} (hstep : ¬b.Accepts phi value slope step)
    (h : ∀ i < j, ¬b.Accepts phi value slope (b.trial (step * b.rho) i)) :
    ∀ i < j + 1, ¬b.Accepts phi value slope (b.trial step i) := by
  intro i hi
  cases i with
  | zero => exact hstep
  | succ i =>
    rw [← trial_cut]
    exact h i (Nat.lt_of_succ_lt_succ hi)

/-- One more trial goes before those of the step that is cut once. -/
theorem Shrunk.cut {limit : Nat} {step : α} {outcome : Outcome α}
    (hstep : ¬b.Accepts phi value slope step)
    (h : b.Shrunk phi value slope limit (step * b.rho) outcome) :
    b.Shrunk phi value slope (limit + 1) step outcome := by
  cases h with
  | accepted hj haccepted hrefused =>
    rw [trial_cut] at haccepted ⊢
    exact .accepted (Nat.succ_lt_succ hj) haccepted (refused_succ hstep hrefused)
  | untested hrefused =>
    rw [trial_cut]
    exact .untested (refused_succ hstep hrefused)

theorem Shrunk.exists_trial {limit : Nat} {step : α} {outcome : Outcome α}
    (h : b.Shrunk phi value slope limit step outcome) :
    ∃ j, outcome.step = b.trial step j ∧
      (∀ i < j, ¬b.Accepts phi value slope (b.trial step i)) ∧
      (j < limit ∧ b.Accepts phi value slope (b.trial step j) ∨ j = limit) := by
  cases h with
  | accepted hj haccepted hrefused => exact ⟨_, rfl, hrefused, Or.inl ⟨hj, haccepted⟩⟩
  | untested hrefused => exact ⟨limit, rfl, hrefused, Or.inr rfl⟩

variable (b phi value slope) in
theorem plainShrink_shrunk (limit : Nat) (step : α) :
    b.Shrunk phi value slope limit step (b.plainShrink phi value slope limit step) := by
  induction limit generalizing step with
  | zero => exact .untested fun i hi => absurd hi (Nat.not_lt_zero i)
  | succ limit ih =>
    rw [plainShrink_succ]
    by_cases hstep : phi step ≤ value + b.c * step * slope
    · rw [if_pos hstep]
      exact .accepted (j := 0) (Nat.succ_pos limit) hstep fun i hi => absurd hi (Nat.not_lt_zero i)
    · rw [if_neg hstep]
      exact (ih (step * b.rho)).cut hstep

end Trials

/-! ## Below a parabola -/

variable {c rho : ℝ} {limit : Nat} {phi : Extended → Extended} {v g s L : ℝ}

theorem trial_real (s : ℝ) (j : Nat) :
    (⟨real c, real rho, limit⟩ : Backtracking Extended).trial (real s) j = real (s * rho ^ j) := by
  induction j with
  | zero => rw [pow_zero, mul_one]; rfl
  | succ j ih =>
    rw [trial, ih, Extended.real_mul, pow_succ, mul_assoc]

/-- Up to the bound the parabola is below the line of sufficient decrease. -/
theorem accepts_of_le (hL : 0 < L)
    (hbelow : ∀ t ≥ 0, phi (real t) ≤ real (v + g * t + L * t ^ 2 / 2)) {t : ℝ} (ht : 0 ≤ t)
    (hle : t ≤ 2 * (1 - c) * -g / L) :
    (⟨real c, real rho, limit⟩ : Backtracking Extended).Accepts phi (real v) (real g) (real t) := by
  have hscaled : t * L ≤ 2 * (1 - c) * -g := (le_div_iff₀ hL).mp hle
  have hline : v + g * t + L * t ^ 2 / 2 ≤ v + c * t * g := by
    have hproduct := mul_le_mul_of_nonneg_right hscaled ht
    linarith
  exact Extended.le_trans (hbelow t ht) (Extended.real_le_real.mpr hline)

/-- After nothing but refusals a step is either the first or above the bound cut once. -/
theorem min_le_trial (hs : 0 < s) (hrho : 0 < rho) (hL : 0 < L)
    (hbelow : ∀ t ≥ 0, phi (real t) ≤ real (v + g * t + L * t ^ 2 / 2)) {j : Nat}
    (hrefused : ∀ i < j, ¬(⟨real c, real rho, limit⟩ : Backtracking Extended).Accepts phi
      (real v) (real g) (real (s * rho ^ i))) :
    min s (2 * rho * (1 - c) * -g / L) ≤ s * rho ^ j := by
  cases j with
  | zero =>
    rw [pow_zero, mul_one]
    exact min_le_left _ _
  | succ j =>
    have hstep : 0 ≤ s * rho ^ j := mul_nonneg hs.le (pow_nonneg hrho.le j)
    have habove : 2 * (1 - c) * -g / L < s * rho ^ j := by
      by_contra hle
      exact hrefused j (Nat.lt_succ_self j) (accepts_of_le hL hbelow hstep (not_lt.mp hle))
    calc min s (2 * rho * (1 - c) * -g / L)
        ≤ 2 * rho * (1 - c) * -g / L := min_le_right _ _
      _ = 2 * (1 - c) * -g / L * rho := by ring
      _ ≤ s * rho ^ j * rho := mul_le_mul_of_nonneg_right habove.le hrho.le
      _ = s * rho ^ (j + 1) := by ring

theorem firstStep_real (p : ℝ) : firstStep (real p) = real (if 0 < p then p else 1) := by
  unfold firstStep
  by_cases hp : 0 < p
  · rw [if_pos hp, if_pos (show (0 : Extended) < real p from hp)]
  · rw [if_neg hp, if_neg (show ¬(0 : Extended) < real p from hp)]
    rfl

/-- The search returns the first of its trial steps that decreases the value sufficiently, or
the one after the last trial.  Where the values are below a parabola that falls at the start,
that step is not shorter than the first one, or else not shorter than the bound
`2 (1 - c) (-g) / L` cut once.  It decreases the value sufficiently if the step after the last
trial is not above the bound. -/
theorem search_first_acceptable (c : ℝ) (hrho : 0 < rho) (limit : Nat) {ray : Ray Extended}
    {slope : Extended → Extended} (hray : ray.Answers phi slope) (p : ℝ) :
    let b : Backtracking Extended := ⟨real c, real rho, limit⟩
    let s := if 0 < p then p else 1
    ∃ outcome j,
      (Ray.explore (b.search ray.value ray.slope (real p))).journaled.1 = .ok outcome ∧
      outcome.step = real (s * rho ^ j) ∧
      (∀ i < j, ¬b.Accepts phi (phi 0) (slope 0) (real (s * rho ^ i))) ∧
      (j < limit ∧ b.Accepts phi (phi 0) (slope 0) (real (s * rho ^ j)) ∨ j = limit) ∧
      ∀ v g L : ℝ, phi 0 = real v → slope 0 = real g → g < 0 → 0 < L →
        (∀ t ≥ 0, phi (real t) ≤ real (v + g * t + L * t ^ 2 / 2)) →
        min s (2 * rho * (1 - c) * -g / L) ≤ s * rho ^ j ∧
        (s * rho ^ limit ≤ 2 * (1 - c) * -g / L →
          b.Accepts phi (phi 0) (slope 0) (real (s * rho ^ j))) := by
  intro b s
  have hs : 0 < s := by
    unfold s
    split
    · assumption
    · exact one_pos
  have hsearch := b.explore_search hray (real p)
  rw [plainSearch_eq, firstStep_real] at hsearch
  obtain ⟨j, hstep, hrefused, hlast⟩ :=
    (plainShrink_shrunk b phi (phi 0) (slope 0) limit (real s)).exists_trial
  simp only [b, trial_real] at hstep hrefused hlast
  refine ⟨_, j, hsearch, hstep, hrefused, hlast, ?_⟩
  intro v g L hvalue hslope _ hL hbelow
  rw [hvalue, hslope] at hrefused hlast ⊢
  refine ⟨min_le_trial hs hrho hL hbelow hrefused, fun hle => ?_⟩
  rcases hlast with ⟨-, haccepted⟩ | rfl
  · exact haccepted
  · exact accepts_of_le hL hbelow (mul_nonneg hs.le (pow_nonneg hrho.le _)) hle

/-- From a step of four, the third trial on a parabola with its lowest point at one.  The
three trials are enough for a step that decreases the value sufficiently. -/
theorem search_first_acceptable_parabola :
    let b : Backtracking Extended := ⟨real (1 / 2), real (1 / 2), 3⟩
    let phi : Extended → Extended := fun a => (a - 1) * (a - 1)
    let slope : Extended → Extended := fun a => 2.0 * (a - 1)
    let ray := Ray.ofFunctions phi slope
    (0 : ℝ) < 1 / 2 ∧ ray.Answers phi slope ∧
      (∀ t ≥ 0, phi (real t) ≤ real (1 + -2 * t + 2 * t ^ 2 / 2)) ∧
      ∃ outcome, (Ray.explore (b.search ray.value ray.slope (real 4))).journaled.1 = .ok outcome ∧
        outcome.step = real 1 ∧ b.Accepts phi (phi 0) (slope 0) outcome.step := by
  intro b phi slope ray
  have hrho : (0 : ℝ) < 1 / 2 := by norm_num
  have hray : ray.Answers phi slope := Ray.ofFunctions_answers phi slope
  have hphi (t : ℝ) : phi (real t) = real ((t - 1) * (t - 1)) := rfl
  have hvalue : phi 0 = real 1 := (hphi 0).trans (by norm_num)
  have hslope : slope 0 = real (-2) :=
    (Extended.two_mul_real (0 - 1)).trans (by norm_num)
  have hbelow : ∀ t ≥ 0, phi (real t) ≤ real (1 + -2 * t + 2 * t ^ 2 / 2) := by
    intro t _
    rw [hphi, Extended.real_le_real]
    linarith
  have haccepts (t : ℝ) : b.Accepts phi (phi 0) (slope 0) (real t) ↔
      (t - 1) * (t - 1) ≤ 1 + 1 / 2 * t * -2 := by
    rw [hvalue, hslope]
    exact Extended.real_le_real
  obtain ⟨outcome, j, hsearch, hstep, hrefused, hlast, hlong⟩ :=
    search_first_acceptable (1 / 2) hrho 3 hray 4
  rw [if_pos four_pos] at hstep hrefused hlast hlong
  have hthird : j = 2 := by
    apply le_antisymm
    · by_contra hlate
      refine hrefused 2 (not_le.mp hlate) ((haccepts _).mpr ?_)
      norm_num
    · by_contra hearly
      obtain ⟨-, haccepted⟩ := hlast.resolve_right (by omega)
      have hdecreases := (haccepts _).mp haccepted
      obtain rfl | rfl : j = 0 ∨ j = 1 := by omega
      · norm_num at hdecreases
      · norm_num at hdecreases
  subst hthird
  have henough := (hlong 1 (-2) 2 hvalue hslope (by norm_num) two_pos hbelow).2 (by norm_num)
  refine ⟨hrho, hray, hbelow, outcome, hsearch, ?_, ?_⟩
  · rw [hstep]
    norm_num
  · rw [hstep]
    exact henough

end Backtracking

end Downhill
