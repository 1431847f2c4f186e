import Downhill.Proofs.LineSearch.Plain
import Downhill.Proofs.Number.Extended
import Downhill.Proofs.Number.Real
import Mathlib.Tactic.FieldSimp
import Mathlib.Tactic.LinearCombination

/-!
# Interpolation from either end

The ends of an interval may come in either order, and a trial step between them is the same
from both.  The sign of the root follows the order of the ends, so the quotient whose
denominator it enters keeps its value, and the end that stands in for a minimiser gives way
to the middle in any case.

Values and slopes may be infinite or undefined.  A minimiser is only found where all of them
are real.
-/

namespace Downhill

/-- A real step with its value and slope, among the numbers that need not be finite. -/
def Sample.reals (s : Sample ℝ) : Sample Extended :=
  ⟨.real s.step, .real s.value, .real s.slope⟩

namespace Cubic

/-! ## The minimiser over the reals -/

section Reals

variable (a b : Sample ℝ)

/-- The slopes at both ends less three times the slope between the ends. -/
noncomputable def bend : ℝ :=
  a.slope + b.slope - 3 * (a.value - b.value) / (a.step - b.step)

/-- The radicand.  The cubic has a minimiser only if it is not negative. -/
noncomputable def radicand : ℝ := bend a b * bend a b - a.slope * b.slope

/-- The root with the sign of the way from the first end to the second. -/
noncomputable def root : ℝ := withSign √(radicand a b) (b.step - a.step)

noncomputable def denominator : ℝ := b.slope - a.slope + 2 * root a b

/-- The minimiser of the interpolating cubic, as seen from the second end. -/
noncomputable def candidate : ℝ :=
  b.step - (b.step - a.step) * (b.slope + root a b - bend a b) / denominator a b

theorem minimizer?_real_eq : minimizer? a b =
    if 0 ≤ radicand a b then
      if denominator a b = 0 then none
      else if min a.step b.step ≤ candidate a b ∧ candidate a b ≤ max a.step b.step then
        some (candidate a b)
      else none
    else none := by
  have htwo : (2.0 : ℝ) = 2 := by norm_num
  have hthree : (3.0 : ℝ) = 3 := by norm_num
  unfold minimizer? candidate denominator root radicand bend
  simp only [htwo, hthree, Scalar.real_isFinite, Scalar.real_sqrt, Scalar.real_beq,
    Scalar.real_smaller, Scalar.real_larger, true_and, if_true, decide_eq_true_eq]

variable {a b}

theorem bend_comm : bend b a = bend a b := by
  unfold bend
  rw [add_comm b.slope, ← neg_sub a.value, ← neg_sub a.step, mul_neg, neg_div_neg_eq]

theorem radicand_comm : radicand b a = radicand a b := by
  unfold radicand
  rw [bend_comm, mul_comm b.slope]

theorem withSign_neg (x : ℝ) {y : ℝ} (hy : y ≠ 0) : withSign x (-y) = -withSign x y := by
  unfold withSign
  rcases hy.lt_or_gt with hneg | hpos
  · rw [if_pos hneg, if_neg (neg_pos_of_neg hneg).not_gt, neg_neg]
  · rw [if_pos (neg_neg_of_pos hpos), if_neg hpos.not_gt]

theorem root_comm (hne : a.step ≠ b.step) : root b a = -root a b := by
  unfold root
  rw [radicand_comm, ← neg_sub b.step, withSign_neg _ (sub_ne_zero.mpr hne.symm)]

theorem denominator_comm (hne : a.step ≠ b.step) : denominator b a = -denominator a b := by
  unfold denominator
  rw [root_comm hne]
  ring

/-- What is taken off the second end and what is added to the first one make up the whole
interval. -/
theorem candidate_comm (hne : a.step ≠ b.step) (hzero : denominator a b ≠ 0) :
    candidate b a = candidate a b := by
  have hsum : b.slope + root a b - bend a b - (a.slope - root a b - bend a b) =
      denominator a b := by
    unfold denominator
    ring
  unfold candidate
  rw [denominator_comm hne, bend_comm, root_comm hne]
  field_simp
  linear_combination (b.step - a.step) * hsum

theorem minimizer?_real_comm (hne : a.step ≠ b.step) : minimizer? b a = minimizer? a b := by
  rw [minimizer?_real_eq, minimizer?_real_eq, radicand_comm, denominator_comm hne, min_comm,
    max_comm]
  simp only [neg_eq_zero]
  by_cases hzero : denominator a b = 0
  · rw [if_pos hzero, if_pos hzero]
  · rw [if_neg hzero, if_neg hzero, candidate_comm hne hzero]

end Reals

/-! ## Values that are not finite -/

open Extended (real)

theorem withSign_reals (x y : ℝ) : withSign (real x) (real y) = real (withSign x y) := by
  unfold withSign
  rw [Extended.zero_eq]
  simp only [Extended.real_lt_real, Extended.real_neg]
  split_ifs <;> rfl

theorem minimizer?_mem {a b : Sample Extended} {low high : ℝ} {c : Extended}
    (ha : a.step = real low) (hb : b.step = real high) (h : minimizer? a b = some c) :
    ∃ t, c = real t ∧ min low high ≤ t ∧ t ≤ max low high := by
  unfold minimizer? at h
  simp only [ha, hb, Extended.smaller_real, Extended.larger_real] at h
  split_ifs at h with _ _ _ hmem
  cases h
  exact Extended.eq_real_of_le hmem.1 hmem.2

/-- On real samples the minimiser is the one of the reals. -/
theorem minimizer?_reals {a b : Sample ℝ} (hne : a.step ≠ b.step) :
    minimizer? a.reals b.reals = (minimizer? a b).map real := by
  have htwo : (2.0 : Extended) = real 2 := congrArg real (by norm_num)
  have hthree : (3.0 : Extended) = real 3 := congrArg real (by norm_num)
  have hbend : real a.slope + real b.slope -
      3.0 * (real a.value - real b.value) / (real a.step - real b.step) = real (bend a b) := by
    rw [hthree, Extended.real_sub, Extended.real_sub, Extended.real_mul,
      Extended.real_div _ (sub_ne_zero.mpr hne), Extended.real_add, Extended.real_sub, bend]
  have hradicand : real (bend a b) * real (bend a b) - real a.slope * real b.slope =
      real (radicand a b) := by
    rw [Extended.real_mul, Extended.real_mul, Extended.real_sub, radicand]
  rw [minimizer?_real_eq]
  unfold minimizer? Sample.reals
  simp only [hbend, hradicand, Extended.isFinite_real, Extended.zero_eq, Extended.real_le_real,
    true_and]
  by_cases hsign : 0 ≤ radicand a b
  · have hroot : withSign (Scalar.sqrt (real (radicand a b))) (real b.step - real a.step) =
        real (root a b) := by
      rw [Extended.sqrt_real hsign, Extended.real_sub, withSign_reals, root]
    have hdenominator : real b.slope - real a.slope + 2.0 * real (root a b) =
        real (denominator a b) := by
      rw [htwo, Extended.real_sub, Extended.real_mul, Extended.real_add, denominator]
    simp only [hroot, hdenominator, Extended.real_beq_real, decide_eq_true_eq,
      Extended.isFinite_real, if_true]
    rw [if_pos hsign, if_pos hsign]
    by_cases hzero : denominator a b = 0
    · rw [if_pos hzero, if_pos hzero]
      rfl
    · have hcandidate : real b.step - (real b.step - real a.step) *
          (real b.slope + real (root a b) - real (bend a b)) / real (denominator a b) =
            real (candidate a b) := by
        rw [Extended.real_sub, Extended.real_add, Extended.real_sub, Extended.real_mul,
          Extended.real_div _ hzero, Extended.real_sub, candidate]
      simp only [hcandidate, Extended.smaller_real, Extended.larger_real, Extended.real_le_real]
      rw [if_neg hzero, if_neg hzero]
      split_ifs <;> rfl
  · rw [if_neg hsign, if_neg hsign]
    rfl

/-- A minimiser is only found between real values and slopes. -/
theorem exists_reals_of_minimizer? {low high : ℝ} {valueLow valueHigh slopeLow slopeHigh : Extended}
    {c : Extended}
    (h : minimizer? ⟨real low, valueLow, slopeLow⟩ ⟨real high, valueHigh, slopeHigh⟩ = some c) :
    ∃ a b : Sample ℝ, a.reals = ⟨real low, valueLow, slopeLow⟩ ∧
      b.reals = ⟨real high, valueHigh, slopeHigh⟩ := by
  have hfinite : Scalar.isFinite ((slopeLow + slopeHigh -
      3.0 * (valueLow - valueHigh) / (real low - real high)) * (slopeLow + slopeHigh -
      3.0 * (valueLow - valueHigh) / (real low - real high)) - slopeLow * slopeHigh) = true := by
    unfold minimizer? at h
    by_contra hnot
    rw [if_neg fun hboth => hnot hboth.1] at h
    cases h
  obtain ⟨hsquare, hslopes⟩ := Extended.isFinite_of_sub hfinite
  obtain ⟨hbend, -⟩ := Extended.isFinite_of_mul hsquare
  obtain ⟨-, hquotient⟩ := Extended.isFinite_of_sub hbend
  have hproduct : Scalar.isFinite (3.0 * (valueLow - valueHigh)) = true := by
    by_contra hnot
    rw [Extended.isFinite_div (Bool.eq_false_iff.mpr hnot)] at hquotient
    cases hquotient
  obtain ⟨hvalueLow, hvalueHigh⟩ := Extended.isFinite_of_sub (Extended.isFinite_of_mul hproduct).2
  obtain ⟨hslopeLow, hslopeHigh⟩ := Extended.isFinite_of_mul hslopes
  obtain ⟨v, rfl⟩ := Extended.eq_real_of_isFinite hvalueLow
  obtain ⟨v', rfl⟩ := Extended.eq_real_of_isFinite hvalueHigh
  obtain ⟨s, rfl⟩ := Extended.eq_real_of_isFinite hslopeLow
  obtain ⟨s', rfl⟩ := Extended.eq_real_of_isFinite hslopeHigh
  exact ⟨⟨low, v, s⟩, ⟨high, v', s'⟩, rfl, rfl⟩

/-- Whatever the values and slopes are, the order of the ends does not matter. -/
theorem minimizer?_comm {low high : ℝ} (hne : low ≠ high)
    (valueLow valueHigh slopeLow slopeHigh : Extended) :
    minimizer? ⟨real high, valueHigh, slopeHigh⟩ ⟨real low, valueLow, slopeLow⟩ =
      minimizer? ⟨real low, valueLow, slopeLow⟩ ⟨real high, valueHigh, slopeHigh⟩ := by
  have hswap : ∀ a b : Sample ℝ, a.reals = ⟨real low, valueLow, slopeLow⟩ →
      b.reals = ⟨real high, valueHigh, slopeHigh⟩ →
      minimizer? b.reals a.reals = minimizer? a.reals b.reals := by
    intro a b ha hb
    have hsteps : a.step ≠ b.step := by
      rwa [Extended.real.inj (congrArg Sample.step ha), Extended.real.inj (congrArg Sample.step hb)]
    rw [minimizer?_reals hsteps, minimizer?_reals hsteps.symm, minimizer?_real_comm hsteps]
  cases hforth : minimizer? ⟨real low, valueLow, slopeLow⟩ ⟨real high, valueHigh, slopeHigh⟩ with
  | some c =>
    obtain ⟨a, b, ha, hb⟩ := exists_reals_of_minimizer? hforth
    rw [← hforth, ← ha, ← hb, hswap a b ha hb]
  | none =>
    cases hback : minimizer? ⟨real high, valueHigh, slopeHigh⟩ ⟨real low, valueLow, slopeLow⟩ with
    | none => rfl
    | some c =>
      obtain ⟨b, a, hb, ha⟩ := exists_reals_of_minimizer? hback
      rw [← hforth, ← hback, ← ha, ← hb, hswap a b ha hb]

/-! ## Trial steps -/

section Plain

variable {α : Type} [Scalar α] (phi slope : α → α) {distance low high : α}

/-- No end is at a distance from both ends, so the middle stands in for a minimiser that is
missing or no improvement. -/
theorem plainInterpolate_of_ne (hne : (low == high) = false)
    (hlow : Scalar.abs (low - low) ≤ distance) (hhigh : Scalar.abs (high - high) ≤ distance) :
    plainInterpolate phi slope distance low high =
      match minimizer? ⟨low, phi low, slope low⟩ ⟨high, phi high, slope high⟩ with
      | none => 0.5 * (low + high)
      | some c => if phi c < phi low ∧ phi c < phi high then keepAway distance low high c
        else 0.5 * (low + high) := by
  have hbetter : keepAway distance low high (if phi high < phi low then high else low) =
      0.5 * (low + high) := by
    by_cases hlower : phi high < phi low
    · rw [if_pos hlower]
      exact if_pos (Or.inr hhigh)
    · rw [if_neg hlower]
      exact if_pos (Or.inl hlow)
  rw [plainInterpolate_eq, hne, if_neg Bool.false_ne_true]
  cases minimizer? ⟨low, phi low, slope low⟩ ⟨high, phi high, slope high⟩ with
  | none => exact hbetter
  | some c =>
    dsimp only
    by_cases himproves : phi c < phi low ∧ phi c < phi high
    · rw [if_pos himproves, if_pos himproves]
    · rw [if_neg himproves, if_neg himproves, hbetter]

end Plain

section Safeguard

variable (phi slope : Extended → Extended) {distance low high : ℝ}

theorem middle_reals (low high : ℝ) :
    0.5 * (real low + real high) = real ((low + high) / 2) := by
  have hhalf : (0.5 : ℝ) * (low + high) = (low + high) / 2 := by
    norm_num
    ring
  rw [Extended.ofScientific_eq, Extended.real_add, Extended.real_mul, hhalf]

theorem keepAway_reals (distance low high t : ℝ) :
    keepAway (real distance) (real low) (real high) (real t) =
      if |t - low| ≤ distance ∨ |t - high| ≤ distance then real ((low + high) / 2)
      else real t := by
  unfold keepAway
  simp only [middle_reals, Extended.real_sub, Extended.abs_real, Extended.real_le_real]

theorem middle_between (hne : low ≠ high) :
    min low high < (low + high) / 2 ∧ (low + high) / 2 < max low high := by
  have hlt : min low high < max low high := min_lt_max.mpr hne
  have hsum : min low high + max low high = low + high := min_add_max low high
  constructor <;> linarith

/-- A step of the interval, ends included, leaves the ends. -/
theorem keepAway_between (hdistance : 0 ≤ distance) (hne : low ≠ high) {s : ℝ}
    (hmin : min low high ≤ s) (hmax : s ≤ max low high) :
    ∃ t, keepAway (real distance) (real low) (real high) (real s) = real t ∧
      min low high < t ∧ t < max low high := by
  rw [keepAway_reals]
  split_ifs with hclose
  · exact ⟨_, rfl, middle_between hne⟩
  obtain ⟨hlow, hhigh⟩ := not_or.mp hclose
  have hslow : s ≠ low := by
    rintro rfl
    rw [sub_self, abs_zero] at hlow
    exact hlow hdistance
  have hshigh : s ≠ high := by
    rintro rfl
    rw [sub_self, abs_zero] at hhigh
    exact hhigh hdistance
  refine ⟨s, rfl, lt_of_le_of_ne hmin ?_, lt_of_le_of_ne hmax ?_⟩
  · rcases min_choice low high with hm | hm <;> rw [hm]
    exacts [hslow.symm, hshigh.symm]
  · rcases max_choice low high with hm | hm <;> rw [hm]
    exacts [hslow, hshigh]

theorem plainInterpolate_reals (hdistance : 0 ≤ distance) (hne : low ≠ high) :
    plainInterpolate phi slope (real distance) (real low) (real high) =
      match minimizer? ⟨real low, phi (real low), slope (real low)⟩
        ⟨real high, phi (real high), slope (real high)⟩ with
      | none => real ((low + high) / 2)
      | some c => if phi c < phi (real low) ∧ phi c < phi (real high) then
          keepAway (real distance) (real low) (real high) c
        else real ((low + high) / 2) := by
  have hend : ∀ t : ℝ, Scalar.abs (real t - real t) ≤ real distance := by
    intro t
    rwa [Extended.real_sub, sub_self, Extended.abs_real, abs_zero]
  rw [plainInterpolate_of_ne phi slope (decide_eq_false hne) (hend low) (hend high), middle_reals]
  cases minimizer? ⟨real low, phi (real low), slope (real low)⟩
      ⟨real high, phi (real high), slope (real high)⟩ with
  | none | some c => rfl

theorem plainInterpolate_self (distance low : ℝ) :
    plainInterpolate phi slope (real distance) (real low) (real low) = real low := by
  rw [plainInterpolate_eq, Extended.real_beq_real, decide_eq_true rfl, if_pos rfl]

theorem plainInterpolate_comm (hdistance : 0 ≤ distance) :
    plainInterpolate phi slope (real distance) (real high) (real low) =
      plainInterpolate phi slope (real distance) (real low) (real high) := by
  by_cases hne : low = high
  · rw [hne]
  rw [plainInterpolate_reals phi slope hdistance hne,
    plainInterpolate_reals phi slope hdistance (Ne.symm hne), minimizer?_comm hne, add_comm high]
  cases hc : minimizer? ⟨real low, phi (real low), slope (real low)⟩
      ⟨real high, phi (real high), slope (real high)⟩ with
  | none => rfl
  | some c =>
    obtain ⟨t, rfl, -⟩ := minimizer?_mem rfl rfl hc
    dsimp only
    simp only [keepAway_reals, and_comm, or_comm, add_comm high]

/-- A trial step other than the middle is at a distance from both ends, and the function is
lower there than at both. -/
theorem plainInterpolate_cases (hdistance : 0 ≤ distance) (hne : low ≠ high) :
    plainInterpolate phi slope (real distance) (real low) (real high) =
        real ((low + high) / 2) ∨
      ∃ t, plainInterpolate phi slope (real distance) (real low) (real high) = real t ∧
        min low high ≤ t ∧ t ≤ max low high ∧ distance < |t - low| ∧ distance < |t - high| ∧
        phi (real t) < phi (real low) ∧ phi (real t) < phi (real high) := by
  rw [plainInterpolate_reals phi slope hdistance hne]
  cases hc : minimizer? ⟨real low, phi (real low), slope (real low)⟩
      ⟨real high, phi (real high), slope (real high)⟩ with
  | none => exact Or.inl rfl
  | some c =>
    obtain ⟨t, rfl, hmin, hmax⟩ := minimizer?_mem rfl rfl hc
    dsimp only
    rw [keepAway_reals]
    split_ifs with himproves hclose
    · exact Or.inl rfl
    · obtain ⟨hlow, hhigh⟩ := not_or.mp hclose
      exact Or.inr ⟨t, rfl, hmin, hmax, not_le.mp hlow, not_le.mp hhigh, himproves⟩
    · exact Or.inl rfl

theorem plainInterpolate_between (hdistance : 0 ≤ distance) (hne : low ≠ high) :
    ∃ t, plainInterpolate phi slope (real distance) (real low) (real high) = real t ∧
      min low high < t ∧ t < max low high := by
  rw [plainInterpolate_reals phi slope hdistance hne]
  cases hc : minimizer? ⟨real low, phi (real low), slope (real low)⟩
      ⟨real high, phi (real high), slope (real high)⟩ with
  | none => exact ⟨_, rfl, middle_between hne⟩
  | some c =>
    obtain ⟨t, rfl, hmin, hmax⟩ := minimizer?_mem rfl rfl hc
    dsimp only
    split_ifs
    · exact keepAway_between hdistance hne hmin hmax
    · exact ⟨_, rfl, middle_between hne⟩

/-- Whatever the function and its slopes are, infinite and undefined ones included, the trial
step between two steps does not depend on their order.  Between different steps it lies
strictly, and it is the middle or a step at a distance from both at which the function is
lower than at both. -/
theorem interpolation_safeguarded (hdistance : 0 ≤ distance) (low high : ℝ) :
    plainInterpolate phi slope (real distance) (real low) (real high) =
        plainInterpolate phi slope (real distance) (real high) (real low) ∧
      (low = high →
        plainInterpolate phi slope (real distance) (real low) (real high) = real low) ∧
      (low ≠ high → ∃ t,
        plainInterpolate phi slope (real distance) (real low) (real high) = real t ∧
        min low high < t ∧ t < max low high ∧
        (t = (low + high) / 2 ∨ distance < |t - low| ∧ distance < |t - high| ∧
          phi (real t) < phi (real low) ∧ phi (real t) < phi (real high))) := by
  refine ⟨plainInterpolate_comm phi slope hdistance, ?_, fun hne => ?_⟩
  · rintro rfl
    exact plainInterpolate_self phi slope distance low
  obtain ⟨t, ht, hmin, hmax⟩ := plainInterpolate_between phi slope hdistance hne
  refine ⟨t, ht, hmin, hmax, ?_⟩
  rcases plainInterpolate_cases phi slope hdistance hne with
    hmiddle | ⟨t', ht', -, -, hlow, hhigh, himproves⟩
  · rw [hmiddle, Extended.real_inj] at ht
    exact Or.inl ht.symm
  · rw [ht', Extended.real_inj] at ht
    rw [ht] at hlow hhigh himproves
    exact Or.inr ⟨hlow, hhigh, himproves⟩

/-- Where nothing is known of the function the trial step is the middle. -/
theorem interpolation_safeguarded_undefined :
    plainInterpolate (fun _ => .undefined) (fun _ => .undefined) (real (1 / 1000)) (real 6)
      (real 0) = real 3 := by
  obtain ⟨-, -, hdifferent⟩ := interpolation_safeguarded (fun _ => .undefined)
    (fun _ => .undefined) (show (0 : ℝ) ≤ 1 / 1000 by norm_num) 6 0
  obtain ⟨t, ht, -, -, rfl | ⟨-, -, hlower, -⟩⟩ := hdifferent (by norm_num)
  · rw [ht]
    norm_num
  · exact hlower.elim

end Safeguard

end Cubic

end Downhill
