import Downhill.Proofs.LineSearch.Exits

/-!
# Steps that ascend

A strong Wolfe search along a ray that descends can return a step that is higher
than the start by two exits only: the largest step, which need not have been
tried, and a trial step of the zoom that failed the decrease test.  Both of them
can.
-/

namespace Downhill

open Extended (real)

namespace Wolfe

/-- A line of slope minus one that soon jumps up and is level from there on. -/
noncomputable def plateau (a : Extended) : Extended := if a ≤ usual.c1 then -a else 1

/-- The slope of the plateau. -/
noncomputable def plateauSlope (a : Extended) : Extended :=
  if a ≤ usual.c1 then real (-1) else 0

theorem fall_neg : real (-1) < 0 := Extended.real_lt_real.mpr neg_one_lt_zero

theorem plateau_above {h : ℝ} (hh : 1 / 10000 < h) : plateau (real h) = 1 :=
  if_neg (not_le.mpr hh)

theorem plateau_start : plateau 0 = 0 := by
  have hlow : real 0 ≤ usual.c1 := show (0 : ℝ) ≤ 1 / 10000 by norm_num
  unfold plateau
  rw [Extended.zero_eq, if_pos hlow, Extended.real_neg, neg_zero]

theorem plateauSlope_start : plateauSlope 0 = real (-1) :=
  if_pos (show (0 : ℝ) ≤ 1 / 10000 by norm_num)

/-- On the plateau every trial step halves the bracket at the start: the function is
lower only where it is too close to the start. -/
theorem plainTrial_plateau (slope : Extended → Extended) {h : ℝ} (hh : 1 / 10000 < h) :
    Cubic.plainTrial plateau slope (real 0) (real h) = real (h / 2) := by
  have hpos : 0 < h := lt_trans (by norm_num) hh
  have hmiddle : ∀ c, |c| ≤ 1 / 10000 →
      Cubic.keepAway Cubic.margin (real 0) (real h) (real c) = real (h / 2) := by
    intro c hc
    unfold Cubic.keepAway
    rw [if_pos]
    · show real (0.5 * (0 + h)) = real (h / 2)
      norm_num
      ring
    · refine Or.inl ?_
      rw [Extended.real_sub, sub_zero, Extended.abs_real, Cubic.margin_eq, Extended.real_le_real]
      linarith
  have hstart : Cubic.keepAway Cubic.margin (real 0) (real h) (real 0) = real (h / 2) :=
    hmiddle 0 (by norm_num)
  have hhigh : ¬plateau (real h) < plateau (real 0) := by
    rw [plateau_above hh, ← Extended.zero_eq, plateau_start]
    exact not_lt.mpr (zero_le_one : (0 : ℝ) ≤ 1)
  rw [Cubic.plainTrial_eq, Extended.real_beq_real, decide_eq_false hpos.ne,
    if_neg Bool.false_ne_true, if_neg hhigh]
  split
  · exact hstart
  · rename_i c hc
    obtain ⟨t, rfl, hmin, -⟩ := Cubic.minimizer?_mem rfl rfl hc
    rw [min_eq_left hpos.le] at hmin
    split_ifs with hlower
    · -- A candidate that is lower than the start lies before the jump.
      refine hmiddle t ?_
      rw [abs_of_nonneg hmin]
      by_contra hbeyond
      rw [plateau_above (not_le.mp hbeyond), ← Extended.zero_eq, plateau_start] at hlower
      exact not_lt.mpr (zero_le_one : (0 : ℝ) ≤ 1) hlower.1
    · exact hstart

theorem plateau_exceeds {h : ℝ} (hh : 1 / 10000 < h) :
    usual.exceeds usualLine.start (real h) (plateau (real h)) := by
  rw [plateau_above hh]
  refine Or.inr (Extended.real_lt_real.mpr ?_)
  show 0 + 1 / 10000 * h * -1 < (1 : ℝ)
  linarith

theorem plainNarrow_plateau (slope : Extended → Extended) {h : ℝ} (hh : 1 / 10000 < h / 2) :
    usual.plainNarrow plateau slope usualLine.start (real 0) (real h)
      (Cubic.plainTrial plateau slope (real 0) (real h)) = some (real 0, real (h / 2)) := by
  rw [plainTrial_plateau slope (by linarith), plainNarrow_eq]
  exact if_pos (Or.inl (plateau_exceeds hh))

/-- After the first trial step none improves, and the zoom stalls at the twelfth. -/
theorem plainZoomFrom_plateau (slope : Extended → Extended) (left : Nat) :
    ∀ (j done idle : Nat) {h : ℝ}, 1 / 10000 < h / 2 ^ (j + 1) → idle + j = Zoom.patience →
      usual.plainZoomFrom plateau slope usualLine.start (left + j + 1) done
        ⟨real 0, real h, some 1, idle⟩ = ⟨real (h / 2 ^ (j + 1)), .stalled (done + j + 1)⟩ := by
  have hidle : ∀ {h : ℝ}, 1 / 10000 < h / 2 → ∀ i idle,
      usual.plainZoomStep plateau slope usualLine.start i ⟨real 0, real h, some 1, idle⟩ =
        if Zoom.patience < idle + 1 then .inr ⟨real (h / 2), .stalled i⟩
        else .inl ⟨real 0, real (h / 2), some 1, idle + 1⟩ := by
    intro h hh i idle
    rw [plainZoomStep_eq]
    dsimp only
    rw [plainNarrow_plateau slope hh, plainTrial_plateau slope (by linarith), plateau_above hh]
    exact if_neg (lt_irrefl (1 : ℝ))
  intro j
  induction j with
  | zero =>
    intro done idle h hh hj
    rw [zero_add, pow_one] at hh
    rw [plainZoomFrom_succ, hidle hh, if_pos (by omega)]
    simp
  | succ j ih =>
    intro done idle h hh hj
    have hhalf : h / 2 ^ (j + 1 + 1) = h / 2 / 2 ^ (j + 1) := by rw [div_div, ← pow_succ']
    rw [hhalf] at hh ⊢
    have hpos : 0 < h / 2 := by
      by_contra hneg
      have := div_nonpos_of_nonpos_of_nonneg (not_lt.mp hneg) (pow_nonneg two_pos.le (j + 1))
      linarith
    have hnext : 1 / 10000 < h / 2 :=
      hh.trans_le (div_le_self hpos.le (one_le_pow₀ one_le_two))
    rw [plainZoomFrom_succ, hidle hnext, if_neg (by omega)]
    show usual.plainZoomFrom plateau slope usualLine.start (left + j + 1) (done + 1)
      ⟨real 0, real (h / 2), some 1, idle + 1⟩ = _
    rw [ih (done + 1) (idle + 1) hh (by omega),
      show done + 1 + j + 1 = done + (j + 1) + 1 by omega]

theorem plainSearch_plateau :
    usual.plainSearch plateau plateauSlope (real 1) = ⟨real (1 / 4096), .stalled 12⟩ := by
  have hone : (1 : ℝ) / 10000 < 1 := by norm_num
  have hhalf : (1 : ℝ) / 10000 < 1 / 2 := by norm_num
  have hfirst : usual.firstStep (real 1) = real 1 := by
    refine if_pos ⟨Extended.real_lt_real.mpr ?_, Extended.real_lt_real.mpr ?_⟩ <;> norm_num
  have hslope : plateauSlope 0 < 0 := by
    rw [plateauSlope_start]
    exact fall_neg
  have hstart : (⟨plateau 0, plateauSlope 0⟩ : Start Extended) = usualLine.start := by
    rw [plateau_start, plateauSlope_start]
    rfl
  have hbracketing : usual.plainBracketing plateau plateauSlope (real 1) =
      .bracket (real 0) (real 1) := by
    unfold plainBracketing
    rw [hfirst, hstart]
    show usual.plainExpand plateau plateauSlope usualLine.start (_ + 1) none (real 1) = _
    rw [plainExpand_succ, if_pos (show usual.Refuses plateau usualLine.start (real 1) none from
      Or.inl (plateau_exceeds hone))]
    rfl
  have hstep : usual.plainZoomStep plateau plateauSlope usualLine.start 1
      (Zoom.start (real 0) (real 1)) = .inl ⟨real 0, real (1 / 2), some 1, 0⟩ := by
    rw [plainZoomStep_eq]
    dsimp only [Zoom.start]
    rw [plainNarrow_plateau plateauSlope hhalf, plainTrial_plateau plateauSlope hone,
      plateau_above hhalf]
    exact if_pos (Or.inl rfl)
  rw [plainSearch_eq, if_pos hslope, hbracketing, hstart]
  show usual.plainZoomFrom plateau plateauSlope usualLine.start (99 + 1) 0
    (Zoom.start (real 0) (real 1)) = _
  rw [plainZoomFrom_succ, hstep]
  show usual.plainZoomFrom plateau plateauSlope usualLine.start (88 + 10 + 1) 1
    ⟨real 0, real (1 / 2), some 1, 0⟩ = _
  rw [plainZoomFrom_plateau plateauSlope 88 10 1 0 (by norm_num) rfl]
  norm_num

end Wolfe

end Downhill
