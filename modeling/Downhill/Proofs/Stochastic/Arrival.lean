import Downhill.Objective.Basic
import Downhill.Proofs.Stochastic.Stopping
import Mathlib.Algebra.Order.Floor.Semiring
import Mathlib.LinearAlgebra.Matrix.DotProduct

/-!
# Arrival in a corner of a box

On a linear function every coordinate moves at a speed of its own until it comes to the bound
that it is heading for, and a coordinate on which the function does not depend stays where
it is.  Equal steps that are cut off at the bounds one by one lead where their sum leads when
it is cut off once.  So it is known beforehand when the last coordinate arrives, and the run
stops when the point has been idle for as long after that as it waits for.
-/

namespace Downhill

/-! ## One coordinate -/

namespace Drift

variable {x l u s : ℝ} {k : ℕ}

/-- Where a number gets by so many equal steps down, between its bounds. -/
noncomputable def position (x l u s : ℝ) (k : ℕ) : ℝ := min (max (x - k * s) l) u

/-- Where it is heading for. -/
noncomputable def target (x l u s : ℝ) : ℝ := if 0 < s then l else if s < 0 then u else x

theorem position_zero (hl : l ≤ x) (hu : x ≤ u) : position x l u s 0 = x := by
  unfold position
  rw [Nat.cast_zero, zero_mul, sub_zero, max_eq_left hl, min_eq_left hu]

/-- A step from where the number got by the steps before. -/
theorem position_succ (hl : l ≤ x) (hu : x ≤ u) :
    min (max (position x l u s k - s) l) u = position x l u s (k + 1) := by
  have hk : (0 : ℝ) ≤ k := k.cast_nonneg
  unfold position
  rw [Nat.cast_succ, add_one_mul]
  rcases le_total 0 s with hs | hs
  · have hfar : 0 ≤ k * s := mul_nonneg hk hs
    simp only [min_def, max_def]
    split_ifs <;> linarith
  · have hfar : k * s ≤ 0 := mul_nonpos_of_nonneg_of_nonpos hk hs
    simp only [min_def, max_def]
    split_ifs <;> linarith

section Sign

variable (k)

theorem position_of_pos (hs : 0 < s) (hl : l ≤ x) (hu : x ≤ u) :
    position x l u s k = max (x - k * s) l := by
  have hdown : x - k * s ≤ x := sub_le_self x (mul_nonneg k.cast_nonneg hs.le)
  exact min_eq_left (max_le (hdown.trans hu) (hl.trans hu))

theorem position_of_neg (hs : s < 0) (hl : l ≤ x) : position x l u s k = min (x - k * s) u := by
  have hup : k * s ≤ 0 := mul_nonpos_of_nonneg_of_nonpos k.cast_nonneg hs.le
  unfold position
  rw [max_eq_left (by linarith)]

theorem position_of_zero (hl : l ≤ x) (hu : x ≤ u) : position x l u 0 k = x := by
  unfold position
  rw [mul_zero, sub_zero, max_eq_left hl, min_eq_left hu]

end Sign

/-- A number has come to where it is heading for when the steps are as long as the way. -/
theorem position_eq_target_iff (hl : l ≤ x) (hu : x ≤ u) :
    position x l u s k = target x l u s ↔ |x - target x l u s| ≤ k * |s| := by
  rcases lt_trichotomy s 0 with hs | rfl | hs
  · have htarget : target x l u s = u := (if_neg hs.not_gt).trans (if_pos hs)
    rw [position_of_neg k hs hl, htarget, min_eq_right_iff, abs_of_nonpos (sub_nonpos.mpr hu),
      abs_of_neg hs, mul_neg, neg_le_neg_iff, le_sub_comm]
  · have htarget : target x l u 0 = x := (if_neg (lt_irrefl 0)).trans (if_neg (lt_irrefl 0))
    rw [position_of_zero k hl hu, htarget, sub_self, abs_zero, mul_zero]
    exact iff_of_true rfl le_rfl
  · have htarget : target x l u s = l := if_pos hs
    rw [position_of_pos k hs hl hu, htarget, max_eq_right_iff, abs_of_nonneg (sub_nonneg.mpr hl),
      abs_of_pos hs, sub_le_comm]

/-- Only there does a step change nothing. -/
theorem position_succ_eq_iff (hl : l ≤ x) (hu : x ≤ u) :
    position x l u s (k + 1) = position x l u s k ↔ position x l u s k = target x l u s := by
  have hnext : x - (k + 1 : ℕ) * s = x - k * s - s := by
    rw [Nat.cast_succ, add_one_mul, sub_sub]
  rcases lt_trichotomy s 0 with hs | rfl | hs
  · have htarget : target x l u s = u := (if_neg hs.not_gt).trans (if_pos hs)
    rw [htarget, position_of_neg _ hs hl, position_of_neg _ hs hl, hnext, min_eq_right_iff]
    constructor
    · intro heq
      by_contra hshort
      rw [min_eq_left (not_le.mp hshort).le] at heq
      exact (lt_min (by linarith) (not_le.mp hshort)).ne' heq
    · intro harrived
      rw [min_eq_right harrived, min_eq_right (by linarith)]
  · have htarget : target x l u 0 = x := (if_neg (lt_irrefl 0)).trans (if_neg (lt_irrefl 0))
    rw [htarget, position_of_zero _ hl hu, position_of_zero _ hl hu]
  · have htarget : target x l u s = l := if_pos hs
    rw [htarget, position_of_pos _ hs hl hu, position_of_pos _ hs hl hu, hnext, max_eq_right_iff]
    constructor
    · intro heq
      by_contra hshort
      rw [max_eq_left (not_le.mp hshort).le] at heq
      exact (max_lt (by linarith) (not_le.mp hshort)).ne heq
    · intro harrived
      rw [max_eq_right harrived, max_eq_right (by linarith)]

/-- The length of the steps does not change where a number is heading for. -/
theorem target_mul {a : ℝ} (ha : 0 < a) : target x l u (a * s) = target x l u s := by
  have hfalls : a * s < 0 ↔ s < 0 :=
    ⟨fun h => neg_of_mul_neg_right h ha.le, mul_neg_of_pos_of_neg ha⟩
  unfold target
  simp only [mul_pos_iff_of_pos_left ha, hfalls]

end Drift

/-! ## Every coordinate -/

section Corner

variable {n : ℕ} {a : ℝ} {c x l u : Fin n → ℝ} {k : ℕ}

/-- Where a linear function leads: to the lower bound of a coordinate in which it rises, to
the upper bound of one in which it falls, and nowhere in the others. -/
noncomputable def corner (c x l u : Fin n → ℝ) : Fin n → ℝ := fun i =>
  if 0 < c i then l i else if c i < 0 then u i else x i

/-- How many steps it takes until the last coordinate is there. -/
noncomputable def arrival (a : ℝ) (c x l u : Fin n → ℝ) : ℕ :=
  (Finset.univ.filter fun i => c i ≠ 0).sup fun i => ⌈|x i - corner c x l u i| / (a * |c i|)⌉₊

/-- The points on the way. -/
noncomputable def driftPoint (a : ℝ) (c x l u : Fin n → ℝ) (k : ℕ) : Fin n → ℝ := fun i =>
  Drift.position (x i) (l i) (u i) (a * c i) k

theorem corner_eq_target (ha : 0 < a) (i : Fin n) :
    corner c x l u i = Drift.target (x i) (l i) (u i) (a * c i) :=
  (Drift.target_mul ha).symm

theorem arrival_le_iff (ha : 0 < a) :
    arrival a c x l u ≤ k ↔ ∀ i, |x i - corner c x l u i| ≤ k * (a * |c i|) := by
  unfold arrival
  rw [Finset.sup_le_iff]
  refine forall_congr' fun i => ?_
  rw [Finset.mem_filter_univ, Nat.ceil_le]
  by_cases hc : c i = 0
  · have hcorner : corner c x l u i = x i := by
      unfold corner
      rw [hc, if_neg (lt_irrefl 0), if_neg (lt_irrefl 0)]
    rw [hcorner, hc, sub_self, abs_zero, mul_zero, mul_zero]
    exact iff_of_true (fun hne => absurd rfl hne) le_rfl
  · rw [div_le_iff₀ (mul_pos ha (abs_pos.mpr hc))]
    exact ⟨fun h => h hc, fun h _ => h⟩

section Between

variable (ha : 0 < a) (hbetween : ∀ i, l i ≤ x i ∧ x i ≤ u i)
include ha hbetween

theorem driftPoint_eq_corner_iff :
    driftPoint a c x l u k = corner c x l u ↔ arrival a c x l u ≤ k := by
  rw [arrival_le_iff ha, funext_iff]
  refine forall_congr' fun i => ?_
  have hstep : a * |c i| = |a * c i| := by rw [abs_mul, abs_of_pos ha]
  rw [hstep, corner_eq_target ha]
  exact Drift.position_eq_target_iff (hbetween i).1 (hbetween i).2

theorem driftPoint_succ_eq_iff :
    driftPoint a c x l u (k + 1) = driftPoint a c x l u k ↔ arrival a c x l u ≤ k := by
  rw [← driftPoint_eq_corner_iff ha hbetween, funext_iff, funext_iff]
  refine forall_congr' fun i => ?_
  rw [corner_eq_target ha]
  exact Drift.position_succ_eq_iff (hbetween i).1 (hbetween i).2

end Between

end Corner

/-- If all entries but the first ones are idle, so many in a row are found as many entries
after those. -/
theorem stalled_iff_of_idle_iff {idle : ℕ → Prop} {p k K : ℕ} (hp : 0 < p)
    (hidle : ∀ j, idle (j + 1) ↔ K ≤ j) : Stalled idle p k ↔ K + p ≤ k := by
  constructor
  · rintro ⟨hle, hall⟩
    have hfirst := hall (p - 1) (Nat.sub_lt hp Nat.one_pos)
    rw [show k - (p - 1) = k - p + 1 by omega, hidle] at hfirst
    omega
  · intro hle
    refine ⟨by omega, fun i hi => ?_⟩
    rw [show k - i = k - i - 1 + 1 by omega, hidle]
    omega

/-! ## The walk -/

open Extended Vec Stochastic StochasticM

/-- A box of finite bounds cuts off every coordinate at its own. -/
theorem Box.clamp_of_finite {n : ℕ} {box : Box Extended} {l u : Fin n → ℝ}
    (hsize : box.checkDimension n = .ok ())
    (hlower : ∀ i : Fin n, entryAt box.lower bot i = real (l i))
    (hupper : ∀ i : Fin n, entryAt box.upper top i = real (u i)) (w : Fin n → ℝ) :
    box.clamp (reals w) = .ok (reals fun i => min (max (w i) (l i)) (u i)) := by
  unfold reals
  rw [clamp_ofFn hsize]
  simp only [hlower, hupper, maximum_real, minimum_real]

/-- Settings with equal steps between finite bounds and without penalties.  An idle point is
one that has not changed at all. -/
structure StochasticSettings.Drifts {n : ℕ} (settings : StochasticSettings Extended) (a : ℝ)
    (l u : Fin n → ℝ) : Prop where
  schedule : settings.schedule = .constant
  parameters : settings.parameters = [real a]
  size : settings.box.checkDimension n = .ok ()
  lower : ∀ i : Fin n, Box.entryAt settings.box.lower bot i = real (l i)
  upper : ∀ i : Fin n, Box.entryAt settings.box.upper top i = real (u i)
  l1_eq : settings.l1 = 0
  l2_eq : settings.l2 = 0
  checksPoint : settings.checksPoint = true
  pointTolerance : settings.pointTolerance = 0
  pointPatience : 0 < settings.pointPatience
  predicate : settings.predicate = none

namespace Walk

/-- Equal steps down a linear function. -/
noncomputable def drift {n : ℕ} (G : Type) (a : ℝ) (c x l u : Fin n → ℝ) (d : ℝ) :
    Walk (StepRule Extended) G Extended where
  rule _ := .plain
  problem _ := .plain (Objective.linear (reals c) (real d))
  point k := reals (driftPoint a c x l u k)
  gradient _ := reals c
  direction _ := reals (-c)
  step _ := real a

section Drift

variable {n : ℕ} {G : Type} {a : ℝ} {c x l u : Fin n → ℝ} {d : ℝ}
  {settings : StochasticSettings Extended} (h : settings.Drifts a l u)
  (hbetween : ∀ i, l i ≤ x i ∧ x i ≤ u i)

include h in
theorem penalised_of_drifts (point : Vec Extended) :
    penalised settings point (reals c) = .ok (reals c) := by
  have hunused : ¬settings.usesL2 := by
    unfold StochasticSettings.usesL2
    rw [h.l2_eq]
    exact lt_irrefl (0 : ℝ)
  exact if_neg hunused

include h hbetween in
theorem drift_follows [IndexSource G] (k : ℕ) : (drift G a c x l u d).Follows settings k where
  direction := congrArg (fun d => (Except.ok d, StepRule.plain)) (neg_reals c)
  step := by
    rw [h.schedule, h.parameters]
    rfl
  point := by
    have hunused : ¬settings.usesL1 := by
      unfold StochasticSettings.usesL1
      rw [h.l1_eq]
      exact lt_irrefl (0 : ℝ)
    have halong := along_reals (driftPoint a c x l u k) (-c) a
    refine ⟨reals (driftPoint a c x l u k + a • -c), ?_, ?_⟩
    · show StepRule.reach settings .plain (reals (driftPoint a c x l u k)) (real a)
        (reals (-c)) = _
      unfold StepRule.reach
      rw [halong]
      exact if_neg hunused
    · rw [Box.clamp_of_finite h.size h.lower h.upper]
      refine congrArg (Except.ok ∘ reals) (funext fun i => ?_)
      rw [Pi.add_apply, Pi.smul_apply, Pi.neg_apply, smul_neg, smul_eq_mul, ← sub_eq_add_neg]
      exact Drift.position_succ (hbetween i).1 (hbetween i).2
  gradient := ⟨reals c, rfl, penalised_of_drifts h _⟩

include h hbetween in
theorem drift_returns [SeededSource G] :
    (drift G a c x l u d).Returns settings (.plain (Objective.linear (reals c) (real d))) where
  gradient := ⟨_, reals c, rfl, rfl, penalised_of_drifts h _⟩
  follows k _ := drift_follows h hbetween k
  difference _ _ _ _ := ⟨_, sub_reals _ _⟩
  predicate _ _ _ _ _ hp := nomatch h.predicate.symm.trans hp

include h hbetween in
theorem drift_idle_iff (ha : 0 < a) (k : ℕ) :
    (drift G a c x l u d).PointIdle settings (k + 1) ↔ arrival a c x l u ≤ k := by
  have hchange : (drift G a c x l u d).pointChange (k + 1) =
      some (Vec.norm (reals (driftPoint a c x l u (k + 1) - driftPoint a c x l u k))) := by
    show ((reals _).sub (reals _)).toOption.map Vec.norm = _
    rw [sub_reals]
    rfl
  rw [← driftPoint_succ_eq_iff ha hbetween, ← sub_eq_zero]
  generalize driftPoint a c x l u (k + 1) - driftPoint a c x l u k = moved at hchange ⊢
  have hnonneg : 0 ≤ moved ⬝ᵥ moved := Finset.sum_nonneg fun i _ => mul_self_nonneg (moved i)
  unfold PointIdle
  rw [hchange, h.pointTolerance, norm_reals]
  constructor
  · rintro ⟨change, hsome, hle⟩
    obtain rfl := Option.some.inj hsome
    have hzero := (real_le_real.mp hle).antisymm (Real.sqrt_nonneg _)
    exact dotProduct_self_eq_zero.mp ((Real.sqrt_eq_zero hnonneg).mp hzero)
  · rintro rfl
    refine ⟨_, rfl, real_le_real.mpr ?_⟩
    rw [dotProduct_zero, Real.sqrt_zero]

include h hbetween in
/-- Before the limit there is a reason to stop just when the point has been idle for long
enough after the arrival. -/
theorem drift_ends_iff (ha : 0 < a) {k : ℕ} (hk : k < settings.maxIterations) {e : Ending} :
    (drift G a c x l u d).Ends settings k e ↔
      e = .point ∧ arrival a c x l u + settings.pointPatience ≤ k := by
  cases e with
  | limit => exact iff_of_false (not_le.mpr hk) fun he => nomatch he.1
  | custom =>
    exact iff_of_false (fun ⟨_, hp, _⟩ => nomatch h.predicate.symm.trans hp) fun he => nomatch he.1
  | point =>
    have hstalled := stalled_iff_of_idle_iff (k := k) h.pointPatience
      (drift_idle_iff (G := G) (c := c) (d := d) h hbetween ha)
    have hpatience := h.pointPatience
    constructor
    · rintro ⟨-, -, hends⟩
      exact ⟨rfl, hstalled.mp hends⟩
    · rintro ⟨-, hlate⟩
      exact ⟨h.checksPoint, by omega, hstalled.mpr hlate⟩

end Drift

end Walk

namespace Stochastic

open Walk

/-- On a linear function between finite bounds a solver with equal steps stops at the corner
that the function leads to.  It gets there when the last coordinate does, and stops as many
iterations later as the point has to be idle for. -/
theorem solve_linear_arrives {n : ℕ} {G : Type} [SeededSource G] {a d : ℝ}
    {c x l u : Fin n → ℝ} {settings : StochasticSettings Extended} {start : Nested Extended}
    (h : settings.Drifts a l u) (ha : 0 < a) (hbetween : ∀ i, l i ≤ x i ∧ x i ≤ u i)
    (hstart : start.toPoint = .ok (reals x))
    (hlimit : arrival a c x l u + settings.pointPatience < settings.maxIterations) (keeps : Bool) :
    ∃ (solver final : Stochastic (StepRule Extended) G Extended) (found : Summary Extended),
      create .stochastic settings (.plain (Objective.linear (reals c) (real d))) start keeps =
        .ok solver ∧
      solve.on solver = (.ok (reals (corner c x l u)), final) ∧
      (summary.on final).1 = .ok found ∧ found.success = true ∧
      found.iterations = arrival a c x l u + settings.pointPatience ∧
      found.point = reals (corner c x l u) ∧
      found.value = real (c ⬝ᵥ corner c x l u + d) := by
  have hreturns := drift_returns (G := G) (c := c) (d := d) h hbetween
  obtain ⟨solver, k, e, final, -, hstarted, hsolve, -, hreaches, hfirst, hstopped, -⟩ :=
    hreturns.exists_solve .stochastic keeps
  have hends := (drift_ends_iff (G := G) (d := d) h hbetween ha hlimit).mpr ⟨rfl, le_rfl⟩
  have hk : k ≤ arrival a c x l u + settings.pointPatience :=
    Nat.le_of_not_lt fun hk => hreaches _ hk .point hends
  obtain ⟨rfl, hlate⟩ := (drift_ends_iff h hbetween ha (hk.trans_lt hlimit)).mp hfirst.1
  obtain rfl := hk.antisymm hlate
  have hcorner := (driftPoint_eq_corner_iff (c := c) ha hbetween).mpr
    (Nat.le_add_right (arrival a c x l u) settings.pointPatience)
  have hpoint : (drift G a c x l u d).point (arrival a c x l u + settings.pointPatience) =
      reals (corner c x l u) := congrArg reals hcorner
  have hfirstPoint : (drift G a c x l u d).point 0 = reals x :=
    congrArg reals (funext fun i => Drift.position_zero (hbetween i).1 (hbetween i).2)
  have hvalue : (Objective.linear (reals c) (real d)).value (reals (corner c x l u)) =
      .ok (real (c ⬝ᵥ corner c x l u + d)) := by
    show (Vec.dot (reals c) (reals _) >>= fun product => Except.ok (product + real d)) = _
    rw [dot_reals]
    rfl
  rw [hpoint] at hsolve
  rw [hfirstPoint] at hstarted
  have hcreate : create .stochastic settings
      (.plain (Objective.linear (reals c) (real d)) : Problem Extended G) start keeps =
        .ok solver := by
    rw [create_eq_start .stochastic settings _ keeps hstart ((length_reals x).symm ▸ h.size)]
    exact hstarted
  refine ⟨solver, final, _, hcreate, hsolve, hstopped.summary _ ?_, rfl, rfl, hpoint, rfl⟩
  rw [hpoint]
  exact hvalue

/-! ### Three coordinates in a cube

The first coordinate goes down by a half at a time and takes two steps, the second one goes up
by one and takes one, and the third one stays. -/

noncomputable def cubeSettings : StochasticSettings Extended :=
  { settlingSettings with
    parameters := [real (1 / 2)]
    box := ⟨some [real 0], some [real 1]⟩ }

theorem cube_drifts : cubeSettings.Drifts (1 / 2) (0 : Fin 3 → ℝ) 1 :=
  ⟨rfl, rfl, rfl, fun _ => rfl, fun _ => rfl, rfl, rfl, rfl, rfl, Nat.succ_pos 1, rfl⟩

theorem cube_corner : corner ![1, -2, 0] ![1, 0, 1 / 2] 0 1 = ![0, 1, 1 / 2] := by
  funext i
  fin_cases i <;> norm_num [corner]

theorem cube_arrival : arrival (1 / 2) ![1, -2, 0] ![1, 0, 1 / 2] 0 1 = 2 := by
  have hiff (k : ℕ) := arrival_le_iff (a := 1 / 2) (c := ![1, -2, 0]) (x := ![1, 0, 1 / 2])
    (l := 0) (u := 1) (k := k) (by norm_num)
  rw [cube_corner] at hiff
  refine le_antisymm ((hiff 2).mpr fun i => ?_) (Nat.le_of_not_lt fun hlt => ?_)
  · fin_cases i <;> norm_num
  · have hfirst := (hiff 1).mp (Nat.le_of_lt_succ hlt) 0
    norm_num at hfirst

theorem solve_linear_arrives_cube :
    ∃ (solver final : Stochastic (StepRule Extended) Generator Extended)
      (found : Summary Extended),
      create .stochastic cubeSettings
        (.plain (Objective.linear (reals ![1, -2, 0]) (real 0)))
        (Nested.ofVec (reals ![1, 0, 1 / 2])) true = .ok solver ∧
      solve.on solver = (.ok (reals ![0, 1, 1 / 2]), final) ∧
      (summary.on final).1 = .ok found ∧ found.success = true ∧ found.iterations = 4 := by
  have hbetween : ∀ i, (0 : Fin 3 → ℝ) i ≤ (![1, 0, 1 / 2] : Fin 3 → ℝ) i ∧
      (![1, 0, 1 / 2] : Fin 3 → ℝ) i ≤ (1 : Fin 3 → ℝ) i := by
    intro i
    fin_cases i <;> norm_num
  have hstart : (Nested.ofVec (reals ![1, 0, 1 / 2])).toPoint = .ok (reals ![1, 0, 1 / 2]) :=
    Nested.toPoint_ofVec (List.cons_ne_nil _ _)
  have hlimit : arrival (1 / 2) ![1, -2, 0] ![1, 0, 1 / 2] 0 1 + cubeSettings.pointPatience <
      cubeSettings.maxIterations := by
    rw [cube_arrival]
    decide
  obtain ⟨solver, final, found, hcreate, hsolve, hfound, hsuccess, hiterations, -⟩ :=
    solve_linear_arrives (G := Generator) (d := 0) cube_drifts (by norm_num) hbetween hstart
      hlimit true
  rw [cube_corner] at hsolve
  rw [cube_arrival] at hiterations
  exact ⟨solver, final, found, hcreate, hsolve, hfound, hsuccess, hiterations⟩

end Stochastic

end Downhill
