import Downhill.Proofs.LineSearch.Symmetry
import Mathlib.Analysis.Calculus.Deriv.Polynomial
import Mathlib.Analysis.Calculus.LocalExtr.Basic
import Mathlib.Tactic.ComputeDegree

/-!
# Interpolation of cubics

A cubic is its own interpolant, so the minimiser that interpolation finds is its minimiser.
Around an interior minimiser at which the cubic is lower than at both ends it has the form
`q s² + k s³`, and `q + k s` is positive at both ends.  Therefore `q`, which lies between
these two numbers, is positive as well, and the denominator of the closed form does not
vanish.
-/

namespace Downhill

namespace Cubic

/-! ## The closed form on a centred cubic -/

/-- The sample at `t` of the cubic with the value `v` at the flat point `o`. -/
noncomputable def centered (v q k o t : ℝ) : Sample ℝ :=
  ⟨t, v + (q + k * (t - o)) * (t - o) ^ 2, 2 * q * (t - o) + 3 * k * (t - o) ^ 2⟩

section Centered

variable {v q k o low high : ℝ}

theorem bend_centered (hne : low ≠ high) :
    bend (centered v q k o low) (centered v q k o high) =
      -(q * (low - o + (high - o))) - 3 * k * (low - o) * (high - o) := by
  have hstep : low - high ≠ 0 := sub_ne_zero.mpr hne
  unfold bend centered
  dsimp only
  field_simp
  ring

theorem radicand_centered (hne : low ≠ high) :
    radicand (centered v q k o low) (centered v q k o high) = (q * (high - low)) ^ 2 := by
  unfold radicand
  rw [bend_centered hne]
  unfold centered
  ring

theorem root_centered (hq : 0 ≤ q) (hne : low ≠ high) :
    root (centered v q k o low) (centered v q k o high) = q * (high - low) := by
  unfold root
  rw [radicand_centered hne, Real.sqrt_sq_eq_abs, abs_mul, abs_of_nonneg hq]
  show withSign (q * |high - low|) (high - low) = _
  unfold withSign
  split_ifs with hsign
  · rw [abs_of_neg hsign]
    ring
  · rw [abs_of_nonneg (not_lt.mp hsign)]

theorem denominator_centered (hq : 0 ≤ q) (hne : low ≠ high) :
    denominator (centered v q k o low) (centered v q k o high) =
      (high - low) * (4 * q + 3 * k * (low - o + (high - o))) := by
  unfold denominator
  rw [root_centered hq hne]
  unfold centered
  ring

theorem candidate_centered (hq : 0 ≤ q) (hne : low ≠ high)
    (hzero : 4 * q + 3 * k * (low - o + (high - o)) ≠ 0) :
    candidate (centered v q k o low) (centered v q k o high) = o := by
  have hstep : high - low ≠ 0 := sub_ne_zero.mpr hne.symm
  unfold candidate
  rw [denominator_centered hq hne, root_centered hq hne, bend_centered hne]
  unfold centered
  dsimp only
  rw [mul_div_mul_left _ _ hstep, sub_eq_iff_eq_add, ← sub_eq_iff_eq_add', eq_div_iff hzero]
  ring

/-- Between two steps at which the cubic is higher, the closed form finds the flat point. -/
theorem minimizer?_centered (hbetween : (low - o) * (high - o) < 0)
    (hlow : 0 < q + k * (low - o)) (hhigh : 0 < q + k * (high - o)) :
    minimizer? (centered v q k o low) (centered v q k o high) = some o := by
  have hne : low ≠ high := by
    rintro rfl
    exact hbetween.not_ge (mul_self_nonneg _)
  have hside : 0 < -((low - o) * (high - o)) := neg_pos_of_neg hbetween
  have hspan : 0 < (high - o) * (high - low) := by
    linarith [mul_self_nonneg (high - o), (by ring : (high - o) * (high - low) =
      (high - o) * (high - o) + -((low - o) * (high - o)))]
  -- The factor `q` is an average of the two positive numbers, and so is what they leave of
  -- their sum.
  have hq : 0 < q := by
    refine (mul_pos_iff_of_pos_right hspan).mp ?_
    calc 0 < -((low - o) * (high - o)) * (q + k * (high - o)) := mul_pos hside hhigh
      _ ≤ (high - o) ^ 2 * (q + k * (low - o)) +
          -((low - o) * (high - o)) * (q + k * (high - o)) :=
        le_add_of_nonneg_left (mul_nonneg (sq_nonneg _) hlow.le)
      _ = q * ((high - o) * (high - low)) := by ring
  have hrest : 0 < q + k * (low - o) + (q + k * (high - o)) - q := by
    refine (mul_pos_iff_of_pos_right hspan).mp ?_
    calc 0 < -((low - o) * (high - o)) * (q + k * (low - o)) := mul_pos hside hlow
      _ ≤ (high - o) ^ 2 * (q + k * (high - o)) +
          -((low - o) * (high - o)) * (q + k * (low - o)) :=
        le_add_of_nonneg_left (mul_nonneg (sq_nonneg _) hhigh.le)
      _ = (q + k * (low - o) + (q + k * (high - o)) - q) * ((high - o) * (high - low)) := by ring
  have hpositive : 0 < 4 * q + 3 * k * (low - o + (high - o)) := by linarith
  have hinside : min low high ≤ o ∧ o ≤ max low high := by
    rcases mul_neg_iff.mp hbetween with ⟨hleft, hright⟩ | ⟨hleft, hright⟩
    · exact ⟨min_le_iff.mpr (Or.inr (by linarith)), le_max_iff.mpr (Or.inl (by linarith))⟩
    · exact ⟨min_le_iff.mpr (Or.inl (by linarith)), le_max_iff.mpr (Or.inr (by linarith))⟩
  have hdenominator : denominator (centered v q k o low) (centered v q k o high) ≠ 0 := by
    rw [denominator_centered hq.le hne]
    exact mul_ne_zero (sub_ne_zero.mpr hne.symm) hpositive.ne'
  rw [minimizer?_real_eq, radicand_centered hne, if_pos (sq_nonneg _), if_neg hdenominator,
    candidate_centered hq.le hne hpositive.ne']
  exact if_pos hinside

end Centered

/-- A cubic with a flat point, seen from there. -/
theorem exists_centered {p : Polynomial ℝ} (hp : p.natDegree ≤ 3) {a : ℝ}
    (hflat : p.derivative.eval a = 0) : ∃ q k : ℝ,
      (∀ t, p.eval t = p.eval a + (q + k * (t - a)) * (t - a) ^ 2) ∧
      ∀ t, p.derivative.eval t = 2 * q * (t - a) + 3 * k * (t - a) ^ 2 := by
  have heval : ∀ t, p.eval t = p.coeff 0 + p.coeff 1 * t + p.coeff 2 * t ^ 2 +
      p.coeff 3 * t ^ 3 := by
    intro t
    rw [Polynomial.eval_eq_sum_range' (Nat.lt_succ_of_le hp)]
    simp [Finset.sum_range_succ]
  have hderivative : ∀ t, p.derivative.eval t = p.coeff 1 + 2 * p.coeff 2 * t +
      3 * p.coeff 3 * t ^ 2 := by
    intro t
    have hdegree : p.derivative.natDegree ≤ 2 :=
      (Polynomial.natDegree_derivative_le p).trans (Nat.sub_le_sub_right hp 1)
    rw [Polynomial.eval_eq_sum_range' (Nat.lt_succ_of_le hdegree)]
    simp [Finset.sum_range_succ, Polynomial.coeff_derivative]
    ring
  rw [hderivative] at hflat
  refine ⟨p.coeff 2 + 3 * p.coeff 3 * a, p.coeff 3, fun t => ?_, fun t => ?_⟩
  · rw [heval, heval a]
    linear_combination (t - a) * hflat
  · rw [hderivative]
    linear_combination hflat

/-! ## Cubics and their minimisers -/

section Minimizer

variable {p : Polynomial ℝ} {low high a distance : ℝ}

theorem mul_neg_of_mem_uIcc (hmem : a ∈ Set.uIcc low high) (hlow : a ≠ low) (hhigh : a ≠ high) :
    (low - a) * (high - a) < 0 := by
  rcases Set.mem_uIcc.mp hmem with ⟨hle, hge⟩ | ⟨hge, hle⟩
  · exact mul_neg_of_neg_of_pos (sub_neg.mpr (lt_of_le_of_ne hle hlow.symm))
      (sub_pos.mpr (lt_of_le_of_ne hge hhigh))
  · exact mul_neg_of_pos_of_neg (sub_pos.mpr (lt_of_le_of_ne hle hlow))
      (sub_neg.mpr (lt_of_le_of_ne hge hhigh.symm))

/-- At an interior minimiser the slope vanishes. -/
theorem derivative_eq_zero (hbetween : (low - a) * (high - a) < 0)
    (hmin : IsMinOn (fun t => p.eval t) (Set.uIcc low high) a) : p.derivative.eval a = 0 := by
  have hinterior : Set.uIcc low high ∈ nhds a := by
    rcases mul_neg_iff.mp hbetween with ⟨hleft, hright⟩ | ⟨hleft, hright⟩
    · rw [Set.uIcc_comm]
      exact Set.uIcc_of_le (a := high) (b := low) (by linarith) ▸
        Icc_mem_nhds (by linarith) (by linarith)
    · exact Set.uIcc_of_le (a := low) (b := high) (by linarith) ▸
        Icc_mem_nhds (by linarith) (by linarith)
  exact (hmin.isLocalMin hinterior).hasDerivAt_eq_zero (p.hasDerivAt a)

/-- The interpolating cubic of a cubic has the same interior minimiser. -/
theorem minimizer?_of_isMinOn (hp : p.natDegree ≤ 3) (hmem : a ∈ Set.uIcc low high)
    (hmin : IsMinOn (fun t => p.eval t) (Set.uIcc low high) a) (hlow : p.eval a < p.eval low)
    (hhigh : p.eval a < p.eval high) :
    minimizer? ⟨low, p.eval low, p.derivative.eval low⟩
      ⟨high, p.eval high, p.derivative.eval high⟩ = some a := by
  have halow : a ≠ low := by
    rintro rfl
    exact lt_irrefl _ hlow
  have hahigh : a ≠ high := by
    rintro rfl
    exact lt_irrefl _ hhigh
  have hbetween := mul_neg_of_mem_uIcc hmem halow hahigh
  obtain ⟨q, k, heval, hderivative⟩ := exists_centered hp (derivative_eq_zero hbetween hmin)
  have hfactor : ∀ t, p.eval a < p.eval t → 0 < q + k * (t - a) := by
    intro t ht
    rw [heval t] at ht
    refine lt_of_mul_lt_mul_right ?_ (sq_nonneg (t - a))
    rw [zero_mul]
    linarith
  rw [heval low, heval high, hderivative low, hderivative high]
  exact minimizer?_centered hbetween (hfactor low hlow) (hfactor high hhigh)

/-- On a cubic that is lower at a minimiser between two steps than at both of them, the
trial step is the minimiser, as long as it is at a distance from both, and the middle
otherwise. -/
theorem interpolation_exact (hp : p.natDegree ≤ 3) (hdistance : 0 ≤ distance)
    (hmem : a ∈ Set.uIcc low high) (hmin : IsMinOn (fun t => p.eval t) (Set.uIcc low high) a)
    (hlow : p.eval a < p.eval low) (hhigh : p.eval a < p.eval high) :
    plainInterpolate (fun t => p.eval t) (fun t => p.derivative.eval t) distance low high =
      if distance < |a - low| ∧ distance < |a - high| then a else (low + high) / 2 := by
  have hne : low ≠ high := by
    rintro rfl
    rw [Set.uIcc_self, Set.mem_singleton_iff] at hmem
    rw [hmem] at hlow
    exact lt_irrefl _ hlow
  have hend : ∀ t : ℝ, Scalar.abs (t - t) ≤ distance := by
    intro t
    rwa [sub_self, Scalar.real_abs, abs_zero]
  have hmiddle : (0.5 : ℝ) * (low + high) = (low + high) / 2 := by
    norm_num
    ring
  rw [plainInterpolate_of_ne _ _ (decide_eq_false hne) (hend low) (hend high),
    minimizer?_of_isMinOn hp hmem hmin hlow hhigh]
  dsimp only
  rw [if_pos ⟨hlow, hhigh⟩]
  unfold keepAway
  rw [Scalar.real_abs, Scalar.real_abs, hmiddle]
  by_cases hclose : |a - low| ≤ distance ∨ |a - high| ≤ distance
  · rw [if_pos hclose, if_neg fun h => hclose.elim h.1.not_ge h.2.not_ge]
  · obtain ⟨hfar, hfar'⟩ := not_or.mp hclose
    rw [if_neg hclose, if_pos ⟨not_le.mp hfar, not_le.mp hfar'⟩]

/-- The cubic `t³ - 3 t` has its minimiser at one, and it is found from either side. -/
theorem interpolation_exact_one :
    plainInterpolate (fun t => (Polynomial.X ^ 3 - 3 * Polynomial.X : Polynomial ℝ).eval t)
      (fun t => (Polynomial.X ^ 3 - 3 * Polynomial.X : Polynomial ℝ).derivative.eval t)
      (1 / 1000) 2 0 = 1 := by
  have heval : ∀ t : ℝ, (Polynomial.X ^ 3 - 3 * Polynomial.X : Polynomial ℝ).eval t =
      t ^ 3 - 3 * t := by
    intro t
    simp
  have hdegree : (Polynomial.X ^ 3 - 3 * Polynomial.X : Polynomial ℝ).natDegree ≤ 3 := by
    compute_degree
  have hmin : IsMinOn (fun t => (Polynomial.X ^ 3 - 3 * Polynomial.X : Polynomial ℝ).eval t)
      (Set.uIcc 2 0) 1 := by
    intro t ht
    rw [Set.uIcc_of_ge zero_le_two] at ht
    show Polynomial.eval 1 _ ≤ Polynomial.eval t _
    rw [heval, heval]
    nlinarith [mul_nonneg (add_nonneg ht.1 zero_le_two) (sq_nonneg (t - 1))]
  have hmem : (1 : ℝ) ∈ Set.uIcc 2 0 := by
    rw [Set.uIcc_of_ge zero_le_two]
    exact ⟨zero_le_one, one_le_two⟩
  rw [interpolation_exact hdegree (by norm_num) hmem hmin (by rw [heval, heval]; norm_num)
    (by rw [heval, heval]; norm_num)]
  norm_num

end Minimizer

end Cubic

end Downhill
