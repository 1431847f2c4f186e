import Downhill.Proofs.LineSearch.Exits
import Mathlib

/-!
# Acceptable steps inside a bracket

A function that descends from one step towards another one, where it is not lower,
has a minimum strictly between them.  In a bracket whose better end comes first
this is applied to the function above the line of sufficient decrease, and in one
whose better end comes last to the function itself.
-/

namespace Downhill

open Extended (real)

/-- A function that descends at zero and is not lower at one has a critical point
in between that is lower than at zero. -/
theorem exists_critical_below_zero {g g' : ℝ → ℝ} (hg : ∀ x, HasDerivAt g (g' x) x)
    (hdescends : g' 0 < 0) (hle : g 0 ≤ g 1) :
    ∃ x, 0 < x ∧ x < 1 ∧ g' x = 0 ∧ g x < g 0 := by
  have hcontinuous : Continuous g :=
    continuous_iff_continuousAt.mpr fun x => (hg x).continuousAt
  obtain ⟨x, hx, hmin⟩ := isCompact_Icc.exists_isMinOn (Set.nonempty_Icc.mpr zero_le_one)
    hcontinuous.continuousOn
  -- Soon after zero the function is lower than at zero.
  have hlower : ∃ y ∈ Set.Ioo (0 : ℝ) 1, g y < g 0 := by
    have hslope := (hasDerivWithinAt_iff_tendsto_slope' Set.self_notMem_Ioi).mp
      ((hg 0).hasDerivWithinAt (s := Set.Ioi 0))
    have hnear : ∀ᶠ y in nhdsWithin (0 : ℝ) (Set.Ioi 0), y ∈ Set.Ioo (0 : ℝ) 1 :=
      Ioo_mem_nhdsGT one_pos
    obtain ⟨y, hfall, hy⟩ := ((hslope.eventually_lt_const hdescends).and hnear).exists
    refine ⟨y, hy, ?_⟩
    rw [slope_def_field, sub_zero] at hfall
    rw [div_lt_iff₀ hy.1, zero_mul] at hfall
    linarith
  obtain ⟨y, hy, hylower⟩ := hlower
  have hxlower : g x < g 0 := (hmin (Set.Ioo_subset_Icc_self hy)).trans_lt hylower
  have hpos : 0 < x := lt_of_le_of_ne hx.1 fun h => by
    rw [← h] at hxlower
    exact lt_irrefl _ hxlower
  have hone : x < 1 := lt_of_le_of_ne hx.2 fun h => by
    rw [h] at hxlower
    exact absurd hxlower (not_lt.mpr hle)
  exact ⟨x, hpos, hone, (hmin.isLocalMin (Icc_mem_nhds hpos hone)).hasDerivAt_eq_zero (hg x),
    hxlower⟩

/-- The same between two steps in either order. -/
theorem exists_critical_between {f f' : ℝ → ℝ} (hf : ∀ x, HasDerivAt f (f' x) x) {low high : ℝ}
    (hheading : f' low * (high - low) < 0) (hle : f low ≤ f high) :
    ∃ t, min low high < t ∧ t < max low high ∧ f' t = 0 ∧ f t < f low := by
  have hpath : ∀ x, HasDerivAt (fun s => low + s * (high - low)) (high - low) x := by
    intro x
    have h := ((hasDerivAt_id x).mul_const (high - low)).const_add low
    rwa [one_mul] at h
  have hg : ∀ x, HasDerivAt (fun s => f (low + s * (high - low)))
      (f' (low + x * (high - low)) * (high - low)) x :=
    fun x => (hf _).comp x (hpath x)
  have hstart : low + 0 * (high - low) = low := by ring
  have hend : low + 1 * (high - low) = high := by ring
  have hne : high - low ≠ 0 := by
    rintro h
    rw [h, mul_zero] at hheading
    exact lt_irrefl 0 hheading
  obtain ⟨x, hpos, hone, hcritical, hlower⟩ :=
    exists_critical_below_zero hg (by rwa [hstart]) (by rwa [hstart, hend])
  rw [hstart] at hlower
  refine ⟨low + x * (high - low), ?_, ?_, (mul_eq_zero.mp hcritical).resolve_right hne, hlower⟩
  · rcases lt_or_gt_of_ne hne with h | h
    · rw [min_eq_right (by linarith)]
      nlinarith
    · rw [min_eq_left (by linarith)]
      nlinarith
  · rcases lt_or_gt_of_ne hne with h | h
    · rw [max_eq_left (by linarith)]
      nlinarith
    · rw [max_eq_right (by linarith)]
      nlinarith

namespace WolfeLine

variable {l : WolfeLine} {f f' : ℝ → ℝ} {phi slope : Extended → Extended} {low high : ℝ}

theorem bound_le_bound (l : WolfeLine) {s t : ℝ} (h : s ≤ t) : l.bound t ≤ l.bound s := by
  have hfactor : l.c1 * l.slope < 0 := mul_neg_of_pos_of_neg l.c1_pos l.slope_neg
  unfold bound
  nlinarith

theorem Bracket.of_real (hphi : ∀ a, phi (real a) = real (f a))
    (hslope : ∀ a, slope (real a) = real (f' a)) (h : l.Bracket phi slope low high) :
    f low ≤ l.bound low ∧ -l.c2 * l.slope < |f' low| ∧ f' low * (high - low) < 0 ∧
      (l.bound high < f high ∨ f low ≤ f high) := by
  refine ⟨?_, ?_, ?_, ?_⟩
  · obtain ⟨y, hy, hle⟩ := (l.not_exceeds_iff low _).mp h.decreases
    rw [hphi, Extended.real_inj] at hy
    rwa [hy]
  · have hsteep := h.steep
    rw [hslope, l.flat_real_iff] at hsteep
    exact not_le.mp hsteep
  · have hheading := h.heading
    rw [hslope, Extended.real_sub, Extended.real_mul, Extended.zero_eq,
      Extended.real_le_real] at hheading
    exact not_le.mp hheading
  · have hworse := h.worse
    rw [hphi, hphi, exceeds_iff, Extended.real_lt_real, Extended.real_le_real] at hworse
    exact hworse.imp_left fun hexceeds => hexceeds.resolve_left Bool.noConfusion

/-- Every bracket of a differentiable function holds a step that satisfies both
conditions. -/
theorem Bracket.exists_acceptable (hf : ∀ x, HasDerivAt f (f' x) x)
    (hphi : ∀ a, phi (real a) = real (f a)) (hslope : ∀ a, slope (real a) = real (f' a))
    (h : l.Bracket phi slope low high) :
    ∃ t, min low high < t ∧ t < max low high ∧ f t ≤ l.bound t ∧ |f' t| ≤ -l.c2 * l.slope := by
  obtain ⟨hdecreases, hsteep, hheading, hworse⟩ := h.of_real hphi hslope
  have hc : l.c2 * l.slope < l.c1 * l.slope := mul_lt_mul_of_neg_right l.c1_lt_c2 l.slope_neg
  have hc1 : l.c1 * l.slope < 0 := mul_neg_of_pos_of_neg l.c1_pos l.slope_neg
  rcases lt_or_gt_of_ne h.ne with hlt | hgt
  · -- The better end comes first: minimise the height above the bound.
    have hdescends : f' low < 0 := neg_of_mul_neg_left hheading (sub_pos.mpr hlt).le
    rw [abs_of_neg hdescends] at hsteep
    have hheight : ∀ x, HasDerivAt (fun a => f a - l.bound a) (f' x - l.c1 * l.slope) x := by
      intro x
      have hbound : HasDerivAt l.bound (l.c1 * l.slope) x := by
        have hline := (((hasDerivAt_id x).const_mul l.c1).mul_const l.slope).const_add l.value
        rwa [mul_one] at hline
      exact (hf x).sub hbound
    have hdown : (f' low - l.c1 * l.slope) * (high - low) < 0 :=
      mul_neg_of_neg_of_pos (by linarith) (sub_pos.mpr hlt)
    have hrise : f low - l.bound low ≤ f high - l.bound high := by
      have hfall := l.bound_le_bound hlt.le
      rcases hworse with hexceeds | hle
      · linarith
      · linarith
    obtain ⟨t, hmin, hmax, hcritical, hlower⟩ := exists_critical_between hheight hdown hrise
    refine ⟨t, hmin, hmax, by linarith, ?_⟩
    rw [sub_eq_zero.mp hcritical, abs_of_neg hc1]
    linarith
  · -- The better end comes last: minimise the function.
    have hrise : f low ≤ f high := by
      have hfall := l.bound_le_bound hgt.le
      rcases hworse with hexceeds | hle
      · linarith
      · exact hle
    obtain ⟨t, hmin, hmax, hcritical, hlower⟩ := exists_critical_between hf hheading hrise
    have hfall : l.bound low ≤ l.bound t := by
      refine l.bound_le_bound ?_
      rw [max_eq_left hgt.le] at hmax
      exact hmax.le
    refine ⟨t, hmin, hmax, by linarith, ?_⟩
    rw [hcritical, abs_zero]
    linarith

end WolfeLine

namespace Wolfe

/-- Over the real numbers, with the derivative for a slope, a step that satisfies
both conditions lies strictly between the ends of every bracket that the zoom of a
search cuts. -/
theorem reached_holds_acceptable {c1 c2 maxStep : ℝ} {limit : Nat}
    (hw : checkConstants (real c1) (real c2) (real maxStep) = .ok ()) {f f' : ℝ → ℝ}
    {phi slope : Extended → Extended} (hf : ∀ a, HasDerivAt f (f' a) a) (hneg : f' 0 < 0)
    (hphi : ∀ a, phi (real a) = real (f a)) (hslope : ∀ a, slope (real a) = real (f' a))
    {proposal : Extended} {i : Nat} {z : Zoom Extended}
    (hz : Reached ⟨real c1, real c2, real maxStep, limit⟩ phi slope proposal i z) :
    ∃ low high t, z.low = real low ∧ z.high = real high ∧
      min low high < t ∧ t < max low high ∧
      f t ≤ f 0 + c1 * t * f' 0 ∧ |f' t| ≤ -c2 * f' 0 := by
  obtain ⟨⟨hc1, -⟩, ⟨hc12, hc2⟩, hmax⟩ := checkConstants_eq_ok_iff.mp hw
  let l : WolfeLine := ⟨c1, c2, real maxStep, limit, f 0, f' 0, hc1, hc12, hc2, hmax, hneg⟩
  obtain ⟨a, ha, -⟩ := exists_firstStep (w := l.wolfe) l.maxStep_pos rfl proposal
  obtain ⟨low, high, hlow, hhigh, h⟩ :=
    WolfeLine.bracket_of_reached (l := l) (hphi 0) (hslope 0) ha hz
  obtain ⟨t, hmin, hmax, hdecreases, hflat⟩ := h.exists_acceptable hf hphi hslope
  exact ⟨low, high, t, hlow, hhigh, hmin, hmax, hdecreases, hflat⟩

/-- The parabola with its lowest point at one, and its slope. -/
noncomputable def parabola (a : Extended) : Extended := (a - 1) * (a - 1)

noncomputable def parabolaSlope (a : Extended) : Extended := 2.0 * (a - 1)

theorem parabola_real (a : ℝ) : parabola (real a) = real ((a - 1) * (a - 1)) := by
  unfold parabola
  rw [Extended.one_eq, Extended.real_sub, Extended.real_mul]

theorem parabolaSlope_real (a : ℝ) : parabolaSlope (real a) = real (2 * (a - 1)) := by
  unfold parabolaSlope
  rw [Extended.one_eq, Extended.real_sub, Extended.ofScientific_eq, Extended.real_mul]
  norm_num

/-- A first step of six is too long for the parabola. -/
theorem reached_parabola :
    usual.Reached parabola parabolaSlope (real 6) 0 (Zoom.start (real 0) (real 6)) := by
  have hfirst : usual.firstStep (real 6) = real 6 := by
    refine if_pos ⟨Extended.real_lt_real.mpr ?_, Extended.real_lt_real.mpr ?_⟩ <;> norm_num
  have hslope : parabolaSlope 0 < 0 := by
    rw [Extended.zero_eq, parabolaSlope_real, Extended.real_lt_real]
    norm_num
  have hrefuses : usual.Refuses parabola ⟨parabola 0, parabolaSlope 0⟩ (real 6) none := by
    refine Or.inl (Or.inr ?_)
    rw [Extended.zero_eq, parabola_real, parabola_real, parabolaSlope_real]
    show (0 - 1) * (0 - 1) + 1 / 10000 * 6 * (2 * (0 - 1)) < ((6 : ℝ) - 1) * (6 - 1)
    norm_num
  refine .start hslope ?_
  unfold trialBound
  rw [hfirst, plainExpand_succ, if_pos hrefuses]
  rfl

theorem reached_holds_acceptable_parabola :
    ∃ low high t, (Zoom.start (real 0) (real 6)).low = real low ∧
      (Zoom.start (real 0) (real 6)).high = real high ∧ min low high < t ∧ t < max low high ∧
      (t - 1) * (t - 1) ≤ (0 - 1) * (0 - 1) + 1 / 10000 * t * (2 * (0 - 1)) ∧
      |2 * (t - 1)| ≤ -(9 / 10) * (2 * ((0 : ℝ) - 1)) := by
  have hderiv : ∀ a : ℝ, HasDerivAt (fun a : ℝ => (a - 1) * (a - 1)) (2 * (a - 1)) a := by
    intro a
    have hline : HasDerivAt (fun x : ℝ => x - 1) 1 a := (hasDerivAt_id a).sub_const 1
    refine (hline.mul hline).congr_deriv ?_
    ring
  exact reached_holds_acceptable check_usual hderiv (by norm_num) parabola_real
    parabolaSlope_real reached_parabola

end Wolfe

end Downhill
