import Downhill.Proofs.LineSearch.Symmetry
import Mathlib.Tactic.Linarith
import Mathlib.Tactic.NormNum

/-!
# Trial steps of the zoom

With the distance that the zoom keeps from the ends, a trial step lies strictly between two
different real steps, whatever the function and its slopes are there.  Between the start and
an infinite step it is infinite.
-/

namespace Downhill

namespace Cubic

open Extended (real)

theorem margin_eq : (margin : Extended) = real (1 / 1000) := by
  rw [margin, Extended.ofScientific_eq]
  norm_num

/-- A step of the interval, ends included, gives way to one between the ends. -/
theorem keepAway_margin {low high : ℝ} (hne : low ≠ high) {step : Extended}
    (hstep : ∃ u, step = real u ∧ min low high ≤ u ∧ u ≤ max low high) :
    ∃ t, keepAway margin (real low) (real high) step = real t ∧
      min low high < t ∧ t < max low high := by
  obtain ⟨u, rfl, hmin, hmax⟩ := hstep
  rw [margin_eq]
  exact keepAway_between (by norm_num) hne hmin hmax

theorem plainTrial_between (phi slope : Extended → Extended) {low high : ℝ}
    (hne : low ≠ high) :
    ∃ t, plainTrial phi slope (real low) (real high) = real t ∧
      min low high < t ∧ t < max low high := by
  have heq : plainTrial phi slope (real low) (real high) =
      plainInterpolate phi slope (real (1 / 1000)) (real low) (real high) := by
    rw [← margin_eq]
    rfl
  rw [heq]
  exact plainInterpolate_between phi slope (by norm_num) hne

/-! ## An infinite step -/

theorem minimizer?_top {a b : Sample Extended} {c : Extended} (ha : a.step = 0)
    (hb : b.step = .top) (h : minimizer? a b = some c) : c = .top := by
  unfold minimizer? at h
  simp only [ha, hb] at h
  split_ifs at h with _ _ _ hmem
  cases h
  have hwhole : Extended.top - 0 = .top := rfl
  rw [hwhole] at hmem ⊢
  rcases Extended.top_sub (Extended.isFinite_div (Extended.isFinite_top_mul _) _) with htop | hnone
  · exact htop
  · rw [hnone] at hmem
    exact hmem.2.elim

/-- Between the start and an infinite step the trial step is infinite. -/
theorem plainTrial_top (phi slope : Extended → Extended) :
    plainTrial phi slope 0 .top = .top := by
  have hfar : keepAway (margin : Extended) 0 .top .top = .top := by
    unfold keepAway
    rw [if_neg]
    rw [margin_eq]
    rintro (h | h) <;> exact h
  have hclose : keepAway (margin : Extended) 0 .top 0 = .top := by
    unfold keepAway
    rw [if_pos]
    · show Extended.real (0.5 : ℝ) * .top = .top
      exact if_pos (by norm_num)
    · refine Or.inl ?_
      rw [margin_eq, Extended.zero_eq, Extended.real_sub, Extended.abs_real,
        Extended.real_le_real]
      norm_num
  have hbetter : keepAway margin 0 .top (if phi .top < phi 0 then Extended.top else 0) = .top := by
    split_ifs
    exacts [hfar, hclose]
  rw [plainTrial_eq, if_neg (show ¬((0 : Extended) == .top) = true from Bool.false_ne_true)]
  split
  · exact hbetter
  · rename_i c hc
    rw [minimizer?_top rfl rfl hc, if_neg fun h => Extended.lt_irrefl _ h.2]
    exact hbetter

end Cubic

end Downhill
