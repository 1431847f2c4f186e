import Downhill.Proofs.Linear.Box
import Downhill.Stochastic.Rule

/-!
# Proximal steps

A step against a gradient, a move towards zero and a projection on an interval, one
after the other, minimise a function of one number over the interval: a line with the
gradient for its slope, the squared distance from where the step began, and a weighted
absolute value.  The weight is a subgradient away from the move, and the projection
leaves every number of the interval on its far side, so what the two leave out adds up
with the right sign.

Over several coordinates the minimiser is found coordinate by coordinate.
-/

namespace Downhill

open Matrix

/-! ## Moves towards zero -/

namespace Threshold

open Extended

/-- A real number moved towards zero. -/
noncomputable def shrink (v threshold : ℝ) : ℝ :=
  (if 0 < v then 1 else if v < 0 then -1 else 0) * max (|v| - threshold) 0

theorem sign_real (v : ℝ) :
    Scalar.sign (real v) = real (if 0 < v then 1 else if v < 0 then -1 else 0) := by
  unfold Scalar.sign
  rw [isNaN_real, if_neg Bool.false_ne_true, zero_eq]
  rcases lt_trichotomy v 0 with hneg | rfl | hpos
  · rw [if_neg (mt real_lt_real.mp (not_lt.mpr hneg.le)), if_pos (real_lt_real.mpr hneg),
      if_neg (not_lt.mpr hneg.le), if_pos hneg]
    rfl
  · rw [if_neg (Extended.lt_irrefl _), if_neg (Extended.lt_irrefl _), if_neg (lt_irrefl _),
      if_neg (lt_irrefl _)]
  · rw [if_pos (real_lt_real.mpr hpos), if_pos hpos]
    rfl

theorem soft_real (v threshold : ℝ) :
    soft (real v) (real threshold) = real (shrink v threshold) := by
  unfold soft
  rw [sign_real, abs_real, real_sub, zero_eq, maximum_real, real_mul]
  rfl

theorem shrink_zero (v : ℝ) : shrink v 0 = v := by
  unfold shrink
  rw [sub_zero, max_eq_left (abs_nonneg v)]
  rcases lt_trichotomy v 0 with hneg | rfl | hpos
  · rw [if_neg (not_lt.mpr hneg.le), if_pos hneg, abs_of_neg hneg]
    ring
  · simp
  · rw [if_pos hpos, abs_of_pos hpos, one_mul]

/-- A number is moved by the threshold times a slope of the absolute value at the
result. -/
theorem exists_slope (v : ℝ) {threshold : ℝ} (h : 0 ≤ threshold) :
    ∃ slope : ℝ, |slope| ≤ 1 ∧ v - shrink v threshold = threshold * slope ∧
      slope * shrink v threshold = |shrink v threshold| := by
  rcases le_or_gt |v| threshold with hsmall | hlarge
  · have hzero : shrink v threshold = 0 := by
      unfold shrink
      rw [max_eq_right (by linarith), mul_zero]
    rcases h.eq_or_lt with rfl | hpos
    · have hv : v = 0 := abs_eq_zero.mp (le_antisymm hsmall (abs_nonneg v))
      refine ⟨0, by norm_num, ?_, by rw [hzero]; norm_num⟩
      rw [hzero, hv]
      ring
    · refine ⟨v / threshold, ?_, ?_, by rw [hzero]; norm_num⟩
      · rw [abs_div, abs_of_pos hpos, div_le_one hpos]
        exact hsmall
      · rw [hzero, sub_zero, mul_div_cancel₀ _ hpos.ne']
  · rcases le_or_gt v 0 with hneg | hpos
    · have hv : v < 0 := by
        rcases hneg.eq_or_lt with rfl | hlt
        · rw [abs_zero] at hlarge
          exact absurd h (not_le.mpr hlarge)
        · exact hlt
      have hshrink : shrink v threshold = v + threshold := by
        unfold shrink
        rw [if_neg (not_lt.mpr hneg), if_pos hv, max_eq_left (by linarith), abs_of_neg hv]
        ring
      rw [abs_of_neg hv] at hlarge
      refine ⟨-1, by norm_num, by rw [hshrink]; ring, ?_⟩
      rw [hshrink, abs_of_nonpos (by linarith)]
      ring
    · have hshrink : shrink v threshold = v - threshold := by
        unfold shrink
        rw [if_pos hpos, max_eq_left (by linarith), abs_of_pos hpos, one_mul]
      rw [abs_of_pos hpos] at hlarge
      refine ⟨1, by norm_num, by rw [hshrink]; ring, ?_⟩
      rw [hshrink, abs_of_nonneg (by linarith), one_mul]

/-- A slope of the absolute value at a number is one further away from it too, for
steps that lead on in the same direction. -/
theorem slope_le {slope w y z : ℝ} (hslope : |slope| ≤ 1) (hw : slope * w = |w|)
    (hside : (w ≤ y ∧ y ≤ z) ∨ (z ≤ y ∧ y ≤ w)) : slope * (z - y) ≤ |z| - |y| := by
  obtain ⟨hlow, hhigh⟩ := abs_le.mp hslope
  rcases hside with ⟨hwy, hyz⟩ | ⟨hzy, hyw⟩
  · rcases le_or_gt 0 y with hy | hy
    · rw [abs_of_nonneg hy, abs_of_nonneg (hy.trans hyz)]
      nlinarith
    · have hw' : w < 0 := hwy.trans_lt hy
      have hone : slope = -1 := by
        rw [abs_of_neg hw', ← neg_one_mul] at hw
        exact mul_right_cancel₀ hw'.ne hw
      rw [abs_of_neg hy, hone]
      linarith [neg_abs_le z]
  · rcases le_or_gt y 0 with hy | hy
    · rw [abs_of_nonpos hy, abs_of_nonpos (hzy.trans hy)]
      nlinarith
    · have hw' : 0 < w := hy.trans_le hyw
      have hone : slope = 1 := by
        rw [abs_of_pos hw', ← one_mul w] at hw
        exact mul_right_cancel₀ hw'.ne' (by rw [one_mul] at hw; rw [one_mul]; exact hw)
      rw [abs_of_pos hy, hone]
      linarith [le_abs_self z]

end Threshold

/-! ## Minimisers -/

/-- What a proximal step minimises: a slope, the squared distance to a point by a scale,
and a weighted sum of absolute values. -/
noncomputable def proximalCost {n : Nat} (slope point scale : Fin n → ℝ) (step weight : ℝ)
    (z : Fin n → ℝ) : ℝ :=
  slope ⬝ᵥ z + ∑ i, (z i - point i) ^ 2 / (2 * step * scale i) + weight * ∑ i, |z i|

/-- In one coordinate the nearest number to what a move towards zero leads to is better
than every other number. -/
theorem proximal_lt {g x t l y z : ℝ} {set : Set ℝ} (ht : 0 < t) (hl : 0 ≤ l)
    (hy : Nearest set (Threshold.shrink (x - t * g) (t * l)) y) (hz : z ∈ set) (hne : z ≠ y) :
    g * y + (y - x) ^ 2 / (2 * t) + l * |y| < g * z + (z - x) ^ 2 / (2 * t) + l * |z| := by
  obtain ⟨slope, hslope, hmoved, hcontact⟩ :=
    Threshold.exists_slope (x - t * g) (mul_nonneg ht.le hl)
  have hside := hy.side z hz
  generalize Threshold.shrink (x - t * g) (t * l) = w at hmoved hcontact hside
  have habs := Threshold.slope_le hslope hcontact hside
  -- What the projection and the move leave out both point away from `z`.
  have hprojection : 0 ≤ (z - y) * (y - w) := by
    rcases hside with ⟨hwy, hyz⟩ | ⟨hzy, hyw⟩
    · exact mul_nonneg (by linarith) (by linarith)
    · exact mul_nonneg_of_nonpos_of_nonpos (by linarith) (by linarith)
  have hweight : t * l * (slope * (z - y)) ≤ t * l * (|z| - |y|) :=
    mul_le_mul_of_nonneg_left habs (mul_nonneg ht.le hl)
  have hsquare : 0 < (z - y) ^ 2 := by
    have := sub_ne_zero.mpr hne
    positivity
  have hkey : 0 < 2 * t * ((g * z + (z - x) ^ 2 / (2 * t) + l * |z|) -
      (g * y + (y - x) ^ 2 / (2 * t) + l * |y|)) := by
    have hexpand : 2 * t * ((g * z + (z - x) ^ 2 / (2 * t) + l * |z|) -
        (g * y + (y - x) ^ 2 / (2 * t) + l * |y|)) =
          (z - y) ^ 2 + 2 * ((z - y) * (y - w) + (z - y) * (w - (x - t * g)) +
            t * l * (|z| - |y|)) := by
      field_simp
      ring
    have hturned : (z - y) * (w - (x - t * g)) = -(t * l * (slope * (z - y))) := by
      have hw : w - (x - t * g) = -(t * l * slope) := by linarith
      rw [hw]
      ring
    rw [hexpand, hturned]
    linarith
  have hpositive := (mul_pos_iff_of_pos_left (by positivity)).mp hkey
  linarith

theorem proximalCost_lt {n : Nat} {g x s y z : Fin n → ℝ} {a l : ℝ} {set : Fin n → Set ℝ}
    (ha : 0 < a) (hs : ∀ i, 0 < s i) (hl : 0 ≤ l)
    (hy : ∀ i, Nearest (set i) (Threshold.shrink (x i - a * s i * g i) (a * s i * l)) (y i))
    (hz : ∀ i, z i ∈ set i) (hne : z ≠ y) :
    proximalCost g x s a l y < proximalCost g x s a l z := by
  have hsum : ∀ u : Fin n → ℝ, proximalCost g x s a l u =
      ∑ i, (g i * u i + (u i - x i) ^ 2 / (2 * (a * s i)) + l * |u i|) := by
    intro u
    unfold proximalCost dotProduct
    rw [Finset.mul_sum, ← Finset.sum_add_distrib, ← Finset.sum_add_distrib]
    simp only [mul_assoc]
  have hbetter : ∀ i, z i ≠ y i → g i * y i + (y i - x i) ^ 2 / (2 * (a * s i)) + l * |y i| <
      g i * z i + (z i - x i) ^ 2 / (2 * (a * s i)) + l * |z i| := fun i hi =>
    proximal_lt (mul_pos ha (hs i)) hl (hy i) (hz i) hi
  rw [hsum, hsum]
  refine Finset.sum_lt_sum (fun i _ => ?_) ?_
  · rcases eq_or_ne (z i) (y i) with heq | hi
    · rw [heq]
    · exact (hbetter i hi).le
  · obtain ⟨i, hi⟩ := Function.ne_iff.mp hne
    exact ⟨i, Finset.mem_univ i, hbetter i hi⟩

end Downhill
