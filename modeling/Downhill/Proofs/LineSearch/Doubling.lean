import Downhill.Proofs.LineSearch.Bracket

/-!
# The doubling phase

Trial steps double from the first one on.  The phase ends with an acceptable step,
with a bracket, or because the next step would pass the largest one.  It may take
any number of trials here.  A search allows for the binades between the first step
and the largest one, which is enough if the largest step is finite: then the trials
do not run out.
-/

namespace Downhill

open Extended (real)

namespace Wolfe

variable {w : Wolfe Extended}

/-- The first trial step lies inside the range of steps, unless the largest step is
infinite and half of it has to do. -/
theorem firstStep_cases (hpos : 0 < w.maxStep) (proposal : Extended) :
    (∃ a, w.firstStep proposal = real a ∧ 0 < a ∧ real a < w.maxStep) ∨
      w.maxStep = .top ∧ w.firstStep proposal = .top := by
  unfold firstStep
  split_ifs with h
  · obtain ⟨a, rfl, ha⟩ := Extended.eq_real_of_pos_of_lt h.1 h.2
    exact Or.inl ⟨a, rfl, ha, h.2⟩
  · have htwo : (2.0 : ℝ) = 2 := by norm_num
    show (∃ a, w.maxStep / real (2.0 : ℝ) = real a ∧ _) ∨ _ ∧ w.maxStep / real (2.0 : ℝ) = .top
    rw [htwo]
    rcases Extended.eq_real_or_top_of_pos hpos with ⟨m, hm, hpos⟩ | htop
    · rw [hm, Extended.real_div _ two_ne_zero]
      exact Or.inl ⟨m / 2, rfl, half_pos hpos, half_lt_self hpos⟩
    · rw [htop]
      exact Or.inr ⟨rfl, if_neg (not_lt.mpr two_pos.le)⟩

variable {m : ℝ}

theorem exists_firstStep (hpos : 0 < w.maxStep) (hm : w.maxStep = real m) (proposal : Extended) :
    ∃ a, w.firstStep proposal = real a ∧ 0 < a ∧ a < m := by
  rcases firstStep_cases hpos proposal with ⟨a, ha, hapos, hlt⟩ | ⟨htop, -⟩
  · rw [hm, Extended.real_lt_real] at hlt
    exact ⟨a, ha, hapos, hlt⟩
  · rw [hm] at htop
    cases htop

/-- Doubling as often as the bound allows passes a finite largest step. -/
theorem maxStep_lt_of_trialBound (hpos : 0 < w.maxStep) (hm : w.maxStep = real m) {a : ℝ}
    (ha : 0 < a) : m < a * 2 ^ w.trialBound (real a) := by
  rw [hm] at hpos
  show m < a * 2 ^ ((Scalar.binade w.maxStep - Int.log 2 |a|).toNat + 3)
  rw [hm, Extended.binade_real, abs_of_pos (Extended.real_lt_real.mp hpos), abs_of_pos ha]
  set top := Int.log 2 m
  set bottom := Int.log 2 a
  have hmax : m < 2 ^ (top + 1) := Int.lt_zpow_succ_log_self Nat.one_lt_two _
  have hbottom : (2 : ℝ) ^ bottom ≤ a := Int.zpow_log_le_self Nat.one_lt_two ha
  have hexponent : top + 1 ≤ bottom + ((top - bottom).toNat + 3 : ℕ) := by omega
  calc m < 2 ^ (top + 1) := hmax
    _ ≤ (2 : ℝ) ^ (bottom + ((top - bottom).toNat + 3 : ℕ)) :=
      zpow_le_zpow_right₀ one_le_two hexponent
    _ = 2 ^ bottom * 2 ^ ((top - bottom).toNat + 3) := by
      rw [zpow_add₀ two_ne_zero, zpow_natCast]
    _ ≤ a * 2 ^ ((top - bottom).toNat + 3) :=
      mul_le_mul_of_nonneg_right hbottom (pow_nonneg two_pos.le _)

theorem two_mul_mul_pow (a : ℝ) (k : ℕ) : 2 * a * 2 ^ k = a * 2 ^ (k + 1) := by ring

/-- Before the first trial step stands the start. -/
theorem before_eq {previous : Option Extended} {p : ℝ}
    (hprevious : previous = none ∧ p = 0 ∨ previous = some (real p)) :
    previous.getD 0 = real p := by
  rcases hprevious with ⟨rfl, rfl⟩ | rfl
  · rfl
  · rfl

end Wolfe

namespace WolfeLine

variable {l : WolfeLine} {phi slope : Extended → Extended}

/-- What the doubling phase can end with, for a number of trials from a step on.
When it passes the largest step, the last trial step is a doubling of that step.
It is cut off if the trials run out before. -/
inductive Expanded (l : WolfeLine) (phi slope : Extended → Extended) (trials : Nat) (a : ℝ) :
    Expansion Extended → Prop
  | accepted {t : ℝ} (h : l.Accepted phi slope t) :
    Expanded l phi slope trials a (.outcome ⟨real t, .accepted⟩)
  | capped {k : Nat} (h : l.Passed phi slope (a * 2 ^ k))
    (hlast : l.maxStep < real (2 * (a * 2 ^ k))) :
    Expanded l phi slope trials a (.outcome ⟨l.maxStep, .capped⟩)
  | cutOff (h : ∀ m, l.maxStep = real m → a * 2 ^ trials ≤ m) :
    Expanded l phi slope trials a (.outcome ⟨l.maxStep, .capped⟩)
  | bracket {low high : ℝ} (h : l.Bracket phi slope low high) :
    Expanded l phi slope trials a (.bracket (real low) (real high))

theorem start_passed (hphi : phi 0 = real l.value) (hslope : slope 0 = real l.slope) :
    l.Passed phi slope 0 where
  mem := ⟨le_rfl, Extended.le_of_lt l.maxStep_pos⟩
  decreases := by
    rw [not_exceeds_iff]
    refine ⟨l.value, hphi, ?_⟩
    unfold bound
    linarith
  steep := by
    rw [← Extended.zero_eq, hslope]
    exact l.start_not_flat
  descends := by
    rw [← Extended.zero_eq, hslope]
    exact not_le.mpr l.slope_neg

theorem le_start (hphi : phi 0 = real l.value) {t : ℝ} (ht : 0 ≤ t)
    (h : ¬l.wolfe.exceeds l.start (real t) (phi (real t))) : phi (real t) ≤ phi 0 := by
  obtain ⟨y, hy, hle⟩ := (l.not_exceeds_iff t _).mp h
  rw [hy, hphi, Extended.real_le_real]
  have hfall : l.c1 * t * l.slope ≤ 0 :=
    mul_nonpos_of_nonneg_of_nonpos (mul_nonneg l.c1_pos.le ht) l.slope_neg.le
  unfold bound at hle
  linarith

/-- A trial step that the doubling phase does not refuse is not higher than the step
`p` before it, which is the start as long as there was no trial. -/
theorem le_of_not_refuses (hphi : phi 0 = real l.value) {previous : Option Extended} {p a : ℝ}
    (hprevious : previous = none ∧ p = 0 ∨ previous = some (real p))
    (hp : ¬l.wolfe.exceeds l.start (real p) (phi (real p))) (ha : 0 ≤ a)
    (h : ¬l.wolfe.Refuses phi l.start (real a) previous) : phi (real a) ≤ phi (real p) := by
  obtain ⟨hdecreases, hrival⟩ := not_or.mp h
  rcases hprevious with ⟨-, rfl⟩ | rfl
  · exact le_start hphi ha hdecreases
  · exact le_of_not_le hp hdecreases fun hle => hrival ⟨real p, rfl, hle⟩

/-- The doubling phase beyond a step `p`, which is the start as long as there was no
trial. -/
theorem plainExpand_expanded (hphi : phi 0 = real l.value) {p : ℝ} (trials : Nat)
    (previous : Option Extended) (a : ℝ)
    (hprevious : previous = none ∧ p = 0 ∨ previous = some (real p))
    (hp : l.Passed phi slope p) (hpa : p < a) (hmem : real a ≤ l.maxStep) :
    l.Expanded phi slope trials a
      (l.wolfe.plainExpand phi slope l.start trials previous (real a)) := by
  induction trials generalizing previous a p with
  | zero =>
    rw [Wolfe.plainExpand_zero]
    refine .cutOff fun m hm => ?_
    rw [hm, Extended.real_le_real] at hmem
    rwa [pow_zero, mul_one]
  | succ trials ih =>
    have hpos : 0 < a := hp.mem.1.trans_lt hpa
    have ha : a ∈ l.range := ⟨hpos.le, hmem⟩
    rw [Wolfe.plainExpand_succ, Wolfe.before_eq hprevious]
    by_cases hrefuses : l.wolfe.Refuses phi l.start (real a) previous
    · rw [if_pos hrefuses]
      refine .bracket ⟨hp.mem, ha, hpa.ne, hp.decreases, hp.steep, ?_, ?_⟩
      · rw [Extended.real_sub, Extended.nonneg_mul_pos (sub_pos.mpr hpa)]
        exact hp.descends
      · refine hrefuses.imp_right ?_
        rintro ⟨other, hother, hle⟩
        rcases hprevious with ⟨rfl, -⟩ | rfl
        · cases hother
        · cases hother
          exact hle
    rw [if_neg hrefuses]
    have hdecreases := (not_or.mp hrefuses).1
    by_cases hflat : l.wolfe.flat l.start (slope (real a))
    · rw [if_pos hflat]
      exact .accepted ⟨ha, hdecreases, hflat⟩
    rw [if_neg hflat]
    by_cases hturn : 0 ≤ slope (real a)
    · rw [if_pos hturn]
      have hlower := le_of_not_refuses hphi hprevious hp.decreases ha.1 hrefuses
      refine .bracket ⟨ha, hp.mem, hpa.ne', hdecreases, hflat, ?_, Or.inr hlower⟩
      rw [Extended.real_sub, Extended.nonneg_mul_neg (sub_neg.mpr hpa)]
      exact l.not_nonpos_of_not_flat hflat hturn
    rw [if_neg hturn, Extended.two_mul_real]
    have hpassed : l.Passed phi slope a := ⟨ha, hdecreases, hflat, hturn⟩
    by_cases hlast : l.maxStep < real (2 * a)
    · rw [if_pos (show l.wolfe.maxStep < real (2 * a) from hlast)]
      refine .capped (k := 0) ?_ ?_
      · rwa [pow_zero, mul_one]
      · rwa [pow_zero, mul_one]
    · rw [if_neg (show ¬l.wolfe.maxStep < real (2 * a) from hlast)]
      have hnext := ih (some (real a)) (2 * a) (Or.inr rfl) hpassed (by linarith)
        (Extended.le_of_not_lt l.maxStep_pos hlast)
      generalize l.wolfe.plainExpand phi slope l.start trials (some (real a)) (real (2 * a)) = e
        at hnext ⊢
      cases hnext with
      | accepted h => exact .accepted h
      | capped h hlast =>
        rw [Wolfe.two_mul_mul_pow] at h hlast
        exact .capped h hlast
      | cutOff h =>
        rw [Wolfe.two_mul_mul_pow] at h
        exact .cutOff h
      | bracket h => exact .bracket h

variable {proposal : Extended} {a : ℝ}

theorem first_between (ha : l.wolfe.firstStep proposal = real a) :
    0 < a ∧ real a < l.maxStep := by
  rcases Wolfe.firstStep_cases (w := l.wolfe) l.maxStep_pos proposal with
    ⟨b, hb, hpos, hlt⟩ | ⟨-, htop⟩
  · rw [← Extended.real_inj.mp (hb.symm.trans ha)]
    exact ⟨hpos, hlt⟩
  · rw [htop] at ha
    cases ha

/-- The doubling phase from the first step on, if that is finite. -/
theorem expanded_of_first (hphi : phi 0 = real l.value) (hslope : slope 0 = real l.slope)
    (ha : l.wolfe.firstStep proposal = real a) (trials : Nat) :
    l.Expanded phi slope trials a (l.wolfe.plainExpand phi slope ⟨phi 0, slope 0⟩ trials none
      (l.wolfe.firstStep proposal)) := by
  obtain ⟨hpos, hlt⟩ := first_between ha
  rw [ha, hphi, hslope]
  exact plainExpand_expanded hphi trials none a (Or.inl ⟨rfl, rfl⟩) (start_passed hphi hslope)
    hpos (Extended.le_of_lt hlt)

end WolfeLine

end Downhill
