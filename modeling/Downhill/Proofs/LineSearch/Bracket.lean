import Downhill.LineSearch
import Downhill.Proofs.LineSearch.Interpolation

/-!
# Brackets

A bracket of the zoom holds two different steps in either order.  The better one
decreases the objective sufficiently, is not flat, and does not ascend towards the
other; the other one does not decrease sufficiently, or is not lower than the
better one.  The doubling phase ends with such a bracket or with a step, and every
cut keeps one.

Slopes may be anything, and values may be infinite or undefined away from the
start: what the tests of the search say is all that is used.
-/

namespace Downhill

open Extended (real)

theorem Wolfe.checkConstants_eq_ok_iff {α : Type} [Scalar α] {c1 c2 maxStep : α} :
    checkConstants c1 c2 maxStep = .ok () ↔
      (0 < c1 ∧ c1 < 1) ∧ (c1 < c2 ∧ c2 < 1) ∧ 0 < maxStep := by
  unfold checkConstants
  simp only [Fault.bind_eq_ok_iff, Fault.refuse_eq_ok_iff, not_not, exists_const]

/-- A strong Wolfe search along a descent direction: constants that pass the
checks, the limit on zoom iterations, and the value and the slope at the start.
The largest step may be infinite. -/
structure WolfeLine where
  c1 : ℝ
  c2 : ℝ
  maxStep : Extended
  limit : Nat
  value : ℝ
  slope : ℝ
  c1_pos : 0 < c1
  c1_lt_c2 : c1 < c2
  c2_lt_one : c2 < 1
  maxStep_pos : 0 < maxStep
  slope_neg : slope < 0

namespace WolfeLine

variable (l : WolfeLine) (phi slope : Extended → Extended)

def wolfe : Wolfe Extended := ⟨real l.c1, real l.c2, l.maxStep, l.limit⟩

def start : Start Extended := ⟨real l.value, real l.slope⟩

/-- The value that a step may have at most. -/
def bound (t : ℝ) : ℝ := l.value + l.c1 * t * l.slope

/-- The steps that the search may return. -/
def range : Set ℝ := {t | 0 ≤ t ∧ real t ≤ l.maxStep}

theorem exists_of_check {w : Wolfe Extended} {value slope : Extended}
    (hw : Wolfe.checkConstants w.c1 w.c2 w.maxStep = .ok ())
    (hvalue : Scalar.isFinite value = true) (hslope : Scalar.isFinite slope = true)
    (hneg : slope < 0) :
    ∃ l : WolfeLine, w = l.wolfe ∧ value = real l.value ∧ slope = real l.slope := by
  obtain ⟨hc1, hc2, hpos⟩ := Wolfe.checkConstants_eq_ok_iff.mp hw
  obtain ⟨v, rfl⟩ := Extended.eq_real_of_isFinite hvalue
  obtain ⟨s, rfl⟩ := Extended.eq_real_of_isFinite hslope
  obtain ⟨c1, hc1', hc1pos, -⟩ := Extended.eq_real_of_lt hc1.1 hc1.2
  rw [hc1'] at hc2
  obtain ⟨c2, hc2', hlt, hone⟩ := Extended.eq_real_of_lt hc2.1 hc2.2
  refine ⟨⟨c1, c2, w.maxStep, w.zoomLimit, v, s, hc1pos, hlt, hone, hpos, hneg⟩, ?_, rfl, rfl⟩
  cases w
  simp only at hc1' hc2'
  rw [hc1', hc2']
  rfl

/-! ## The tests of the search -/

theorem exceeds_iff (t : ℝ) (b : Extended) :
    l.wolfe.exceeds l.start (real t) b ↔ Scalar.isFinite b = false ∨ real (l.bound t) < b :=
  Iff.rfl

theorem not_exceeds_iff (t : ℝ) (b : Extended) :
    ¬l.wolfe.exceeds l.start (real t) b ↔ ∃ y, b = real y ∧ y ≤ l.bound t := by
  rw [exceeds_iff]
  constructor
  · intro h
    obtain ⟨hfin, hle⟩ := not_or.mp h
    obtain ⟨y, rfl⟩ := Extended.eq_real_of_isFinite (Bool.eq_true_of_not_eq_false hfin)
    exact ⟨y, rfl, not_lt.mp (mt Extended.real_lt_real.mpr hle)⟩
  · rintro ⟨y, rfl, hy⟩ (h | h)
    · cases h
    · exact absurd (Extended.real_lt_real.mp h) (not_lt.mpr hy)

theorem flat_real_iff (y : ℝ) :
    l.wolfe.flat l.start (real y) ↔ |y| ≤ -l.c2 * l.slope := Iff.rfl

theorem neg_mul_pos : 0 < -l.c2 * l.slope :=
  mul_pos_of_neg_of_neg (neg_neg_of_pos (l.c1_pos.trans l.c1_lt_c2)) l.slope_neg

/-- The slope at the start is not flat, because `c2` is less than one. -/
theorem start_not_flat : ¬l.wolfe.flat l.start (real l.slope) := by
  rw [flat_real_iff, abs_of_neg l.slope_neg]
  have h := mul_lt_mul_of_neg_right l.c2_lt_one l.slope_neg
  linarith

/-- A slope that is not flat has at most one sign. -/
theorem not_nonpos_of_not_flat {a : Extended} (h : ¬l.wolfe.flat l.start a) (hge : 0 ≤ a) :
    ¬a ≤ 0 := by
  intro hle
  have hzero := Extended.eq_zero_of_le_of_ge hle hge
  rw [hzero, Extended.zero_eq, flat_real_iff, abs_zero] at h
  exact h l.neg_mul_pos.le

/-! ## Brackets and their cuts -/

/-- Two steps that hold an acceptable one between them, as far as the tests can
tell. -/
structure Bracket (low high : ℝ) : Prop where
  low_mem : low ∈ l.range
  high_mem : high ∈ l.range
  ne : low ≠ high
  decreases : ¬l.wolfe.exceeds l.start (real low) (phi (real low))
  steep : ¬l.wolfe.flat l.start (slope (real low))
  heading : ¬0 ≤ slope (real low) * (real high - real low)
  worse : l.wolfe.exceeds l.start (real high) (phi (real high)) ∨
    phi (real low) ≤ phi (real high)

/-- A step that the doubling phase went beyond, or the start itself. -/
structure Passed (t : ℝ) : Prop where
  mem : t ∈ l.range
  decreases : ¬l.wolfe.exceeds l.start (real t) (phi (real t))
  steep : ¬l.wolfe.flat l.start (slope (real t))
  descends : ¬0 ≤ slope (real t)

/-- A step that satisfies both conditions. -/
structure Accepted (t : ℝ) : Prop where
  mem : t ∈ l.range
  decreases : ¬l.wolfe.exceeds l.start (real t) (phi (real t))
  flat : l.wolfe.flat l.start (slope (real t))

variable {l phi slope}

theorem le_of_not_le {a b : ℝ} (ha : ¬l.wolfe.exceeds l.start (real a) (phi (real a)))
    (hb : ¬l.wolfe.exceeds l.start (real b) (phi (real b)))
    (h : ¬phi (real a) ≤ phi (real b)) : phi (real b) ≤ phi (real a) := by
  obtain ⟨x, hx, -⟩ := (l.not_exceeds_iff a _).mp ha
  obtain ⟨y, hy, -⟩ := (l.not_exceeds_iff b _).mp hb
  rw [hx, hy, Extended.real_le_real] at h
  rw [hx, hy, Extended.real_le_real]
  exact (not_le.mp h).le

/-- From either end, a step between them and the other end lie in one direction. -/
theorem signs_of_between {low high t : ℝ} (hmin : min low high < t) (hmax : t < max low high) :
    0 < (t - low) * (high - low) ∧ 0 < (high - t) * (high - low) := by
  rcases le_total low high with hle | hle
  · rw [min_eq_left hle] at hmin
    rw [max_eq_right hle] at hmax
    have hlt : 0 < high - low := by linarith
    exact ⟨mul_pos (sub_pos.mpr hmin) hlt, mul_pos (sub_pos.mpr hmax) hlt⟩
  · rw [min_eq_right hle] at hmin
    rw [max_eq_left hle] at hmax
    have hlt : high - low < 0 := by linarith
    exact ⟨mul_pos_of_neg_of_neg (sub_neg.mpr hmax) hlt,
      mul_pos_of_neg_of_neg (sub_neg.mpr hmin) hlt⟩

theorem ne_of_between {low high t : ℝ} (hmin : min low high < t) (hmax : t < max low high) :
    t ≠ low ∧ t ≠ high := by
  obtain ⟨hlow, hhigh⟩ := signs_of_between hmin hmax
  exact ⟨sub_ne_zero.mp (left_ne_zero_of_mul hlow.ne'),
    (sub_ne_zero.mp (left_ne_zero_of_mul hhigh.ne')).symm⟩

/-- A slope that is not flat and does not descend in one direction descends in the
other. -/
theorem heading_turned {a : Extended} {x y : ℝ} (hxy : 0 < x * y)
    (hsteep : ¬l.wolfe.flat l.start a) (ha : 0 ≤ a * real y) : ¬0 ≤ a * real (-x) := by
  rcases pos_and_pos_or_neg_and_neg_of_mul_pos hxy with ⟨hx, hy⟩ | ⟨hx, hy⟩
  · rw [Extended.nonneg_mul_pos hy] at ha
    rw [Extended.nonneg_mul_neg (neg_neg_of_pos hx)]
    exact l.not_nonpos_of_not_flat hsteep ha
  · rw [Extended.nonneg_mul_neg hy] at ha
    rw [Extended.nonneg_mul_pos (neg_pos_of_neg hx)]
    exact fun hge => l.not_nonpos_of_not_flat hsteep hge ha

theorem mem_of_between {low high t : ℝ} (hlow : low ∈ l.range) (hhigh : high ∈ l.range)
    (hmin : min low high < t) (hmax : t < max low high) : t ∈ l.range := by
  refine ⟨(le_min hlow.1 hhigh.1).trans hmin.le, ?_⟩
  rcases le_max_iff.mp hmax.le with hle | hle
  · exact Extended.le_trans (Extended.real_le_real.mpr hle) hlow.2
  · exact Extended.le_trans (Extended.real_le_real.mpr hle) hhigh.2

/-- A cut at a trial step accepts it or keeps a bracket with it as an end. -/
theorem Bracket.narrow {low high t : ℝ} (h : l.Bracket phi slope low high)
    (hmin : min low high < t) (hmax : t < max low high) :
    (l.wolfe.plainNarrow phi slope l.start (real low) (real high) (real t) = none ∧
      l.Accepted phi slope t) ∨
    ∃ low' high', l.wolfe.plainNarrow phi slope l.start (real low) (real high) (real t) =
      some (real low', real high') ∧ l.Bracket phi slope low' high' := by
  have hmem : t ∈ l.range := mem_of_between h.low_mem h.high_mem hmin hmax
  obtain ⟨hlowSide, hhighSide⟩ := signs_of_between hmin hmax
  obtain ⟨htlow, hthigh⟩ := ne_of_between hmin hmax
  rw [Wolfe.plainNarrow_eq]
  by_cases hrefuses : l.wolfe.Refuses phi l.start (real t) (some (real low))
  · rw [if_pos hrefuses]
    refine Or.inr ⟨low, t, rfl, h.low_mem, hmem, htlow.symm, h.decreases, h.steep, ?_, ?_⟩
    · rw [Extended.real_sub, Extended.nonneg_mul_congr hlowSide, ← Extended.real_sub]
      exact h.heading
    · refine hrefuses.imp_right ?_
      rintro ⟨other, hother, hle⟩
      cases hother
      exact hle
  rw [if_neg hrefuses]
  obtain ⟨hdecreases, hrival⟩ := not_or.mp hrefuses
  have hlower : phi (real t) ≤ phi (real low) :=
    le_of_not_le h.decreases hdecreases fun hle => hrival ⟨real low, rfl, hle⟩
  by_cases hflat : l.wolfe.flat l.start (slope (real t))
  · rw [if_pos hflat]
    exact Or.inl ⟨rfl, hmem, hdecreases, hflat⟩
  rw [if_neg hflat]
  by_cases hturn : 0 ≤ slope (real t) * (real high - real low)
  · rw [if_pos hturn]
    refine Or.inr ⟨t, low, rfl, hmem, h.low_mem, htlow, hdecreases, hflat, ?_, Or.inr hlower⟩
    rw [Extended.real_sub, ← neg_sub]
    exact heading_turned hlowSide hflat hturn
  · rw [if_neg hturn]
    refine Or.inr ⟨t, high, rfl, hmem, h.high_mem, hthigh, hdecreases, hflat, ?_, ?_⟩
    · rw [Extended.real_sub, Extended.nonneg_mul_congr hhighSide, ← Extended.real_sub]
      exact hturn
    · exact h.worse.imp_right fun hle => Extended.le_trans hlower hle

end WolfeLine

end Downhill
