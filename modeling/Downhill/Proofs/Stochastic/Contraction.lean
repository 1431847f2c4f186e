import Downhill.Proofs.Stochastic.Iteration
import Downhill.Proofs.Stochastic.Loop

/-!
# Contraction to the penalised minimiser

With a penalty on squares a linear objective has one minimiser over a box.  It is the
proximal point of zero for one step size, and a proximal step of any other size leaves it
where it is, since a cost that is convex along the segment could otherwise be lowered.  The
move towards zero and the projection do not increase distances, so a step with the penalty
on squares in its gradient brings every coordinate nearer by the same factor.
-/

namespace Downhill

open Matrix

variable {n : Nat}

/-! ## Distances -/

theorem Nearest.abs_sub_le {set : Set ℝ} {w w' y y' : ℝ} (h : Nearest set w y)
    (h' : Nearest set w' y') : |y - y'| ≤ |w - w'| := by
  have hside := h.side y' h'.mem
  have hside' := h'.side y h.mem
  have hleft := neg_abs_le (w - w')
  have hright := le_abs_self (w - w')
  rw [abs_le]
  constructor
  · rcases hside with hside | hside <;> rcases hside' with hside' | hside' <;> linarith
  · rcases hside with hside | hside <;> rcases hside' with hside' | hside' <;> linarith

namespace Threshold

/-- The slopes of the absolute value at two numbers are in the order of the numbers. -/
theorem shrink_monotone {threshold : ℝ} (h : 0 ≤ threshold) (v v' : ℝ) :
    (shrink v threshold - shrink v' threshold) * (shrink v threshold - shrink v' threshold) ≤
      (v - v') * (shrink v threshold - shrink v' threshold) := by
  obtain ⟨slope, hslope, hmoved, hcontact⟩ := exists_slope v h
  obtain ⟨slope', hslope', hmoved', hcontact'⟩ := exists_slope v' h
  generalize shrink v threshold = w at hmoved hcontact ⊢
  generalize shrink v' threshold = w' at hmoved' hcontact' ⊢
  have hcross : slope * w' ≤ |w'| := by
    calc slope * w' ≤ |slope| * |w'| := (le_abs_self _).trans (abs_mul slope w').le
      _ ≤ 1 * |w'| := mul_le_mul_of_nonneg_right hslope (abs_nonneg w')
      _ = |w'| := one_mul _
  have hcross' : slope' * w ≤ |w| := by
    calc slope' * w ≤ |slope'| * |w| := (le_abs_self _).trans (abs_mul slope' w).le
      _ ≤ 1 * |w| := mul_le_mul_of_nonneg_right hslope' (abs_nonneg w)
      _ = |w| := one_mul _
  have hslopes : 0 ≤ (slope - slope') * (w - w') := by linarith
  have hdifference : v - v' = (w - w') + threshold * (slope - slope') := by linarith
  rw [hdifference]
  nlinarith [mul_nonneg h hslopes]

theorem abs_shrink_sub_le {threshold : ℝ} (h : 0 ≤ threshold) (v v' : ℝ) :
    |shrink v threshold - shrink v' threshold| ≤ |v - v'| := by
  have hmonotone := shrink_monotone h v v'
  generalize shrink v threshold - shrink v' threshold = difference at hmonotone ⊢
  rcases eq_or_ne difference 0 with rfl | hne
  · rw [abs_zero]
    exact abs_nonneg _
  · refine le_of_mul_le_mul_right ?_ (abs_pos.mpr hne)
    calc |difference| * |difference| = difference * difference := abs_mul_abs_self _
      _ ≤ |(v - v') * difference| := hmonotone.trans (le_abs_self _)
      _ = |v - v'| * |difference| := abs_mul _ _

end Threshold

/-- The numbers between two bounds are an interval. -/
theorem Box.between_segment {box : Box Extended} {i : Nat} {y z s : ℝ} (hy : y ∈ box.between i)
    (hz : z ∈ box.between i) (hs : 0 ≤ s) (hs' : s ≤ 1) : z + s * (y - z) ∈ box.between i := by
  rcases le_total y z with h | h
  · have hlow : y ≤ z + s * (y - z) := by nlinarith
    have hhigh : z + s * (y - z) ≤ z := by nlinarith
    exact ⟨Extended.le_trans hy.1 (Extended.real_le_real.mpr hlow),
      Extended.le_trans (Extended.real_le_real.mpr hhigh) hz.2⟩
  · have hlow : z ≤ z + s * (y - z) := by nlinarith
    have hhigh : z + s * (y - z) ≤ y := by nlinarith
    exact ⟨Extended.le_trans hz.1 (Extended.real_le_real.mpr hlow),
      Extended.le_trans (Extended.real_le_real.mpr hhigh) hy.2⟩

/-! ## The minimiser -/

/-- The value of a linear function with the penalties on absolute values and squares. -/
noncomputable def penalisedCost (c : Fin n → ℝ) (l1 l2 : ℝ) (u : Fin n → ℝ) : ℝ :=
  c ⬝ᵥ u + l2 * ∑ i, u i ^ 2 + l1 * ∑ i, |u i|

/-- The only best point of a box for a linear function with the penalties. -/
structure PenalisedBest (c : Fin n → ℝ) (l1 l2 : ℝ) (box : Box Extended) (z : Fin n → ℝ) :
    Prop where
  mem : z ∈ box.region n
  lt : ∀ y ∈ box.region n, y ≠ z → penalisedCost c l1 l2 z < penalisedCost c l1 l2 y

/-- The cost of one coordinate. -/
def coordinateCost (c l1 l2 u : ℝ) : ℝ := c * u + l2 * u ^ 2 + l1 * |u|

theorem penalisedCost_eq (c : Fin n → ℝ) (l1 l2 : ℝ) (u : Fin n → ℝ) :
    penalisedCost c l1 l2 u = ∑ i, coordinateCost (c i) l1 l2 (u i) := by
  unfold penalisedCost coordinateCost dotProduct
  rw [Finset.mul_sum, Finset.mul_sum, ← Finset.sum_add_distrib, ← Finset.sum_add_distrib]

variable {c l1 l2 : ℝ} {set : Set ℝ}

/-- The proximal point of zero is the only minimiser. -/
theorem coordinateCost_lt {y z : ℝ} (hl1 : 0 ≤ l1) (hl2 : 0 < l2)
    (hz : Nearest set (Threshold.shrink (0 - 1 / (2 * l2) * c) (1 / (2 * l2) * l1)) z)
    (hy : y ∈ set) (hne : y ≠ z) : coordinateCost c l1 l2 z < coordinateCost c l1 l2 y := by
  have hlt := proximal_lt (by positivity) hl1 hz hy hne
  have hsquare : ∀ u : ℝ, (u - 0) ^ 2 / (2 * (1 / (2 * l2))) = l2 * u ^ 2 := by
    intro u
    field_simp
    ring
  rw [hsquare, hsquare] at hlt
  exact hlt

/-- Every proximal step leaves a minimiser where it is. -/
theorem eq_of_coordinateCost_le {a y z : ℝ} (ha : 0 < a) (hl1 : 0 ≤ l1) (hl2 : 0 < l2)
    (hz : z ∈ set) (hbest : ∀ u ∈ set, coordinateCost c l1 l2 z ≤ coordinateCost c l1 l2 u)
    (hsegment : ∀ s, 0 ≤ s → s ≤ 1 → z + s * (y - z) ∈ set)
    (hy : Nearest set (Threshold.shrink (z - a * (c + 2 * l2 * z)) (a * l1)) y) : z = y := by
  by_contra hne
  have hstep := proximal_lt ha hl1 hy hz hne
  have hgap : 0 < (y - z) ^ 2 := by
    have := sub_ne_zero.mpr (Ne.symm hne)
    positivity
  -- A part of the way so short that the squares gain less than the step does.
  let s := min 1 (1 / (2 * a * l2))
  have hs : 0 < s := lt_min one_pos (by positivity)
  have hshort : l2 * s ≤ 1 / (2 * a) := by
    calc l2 * s ≤ l2 * (1 / (2 * a * l2)) := mul_le_mul_of_nonneg_left (min_le_right _ _) hl2.le
      _ = 1 / (2 * a) := by field_simp
  have hdown : c * (y - z) + 2 * l2 * z * (y - z) + l1 * (|y| - |z|) <
      -((y - z) ^ 2 / (2 * a)) := by
    rw [sub_self, zero_pow two_ne_zero, zero_div] at hstep
    linarith
  have habs : |z + s * (y - z)| ≤ |z| + s * (|y| - |z|) := by
    have hs' : 0 ≤ 1 - s := sub_nonneg.mpr (min_le_left _ _)
    calc |z + s * (y - z)| = |(1 - s) * z + s * y| := by ring_nf
      _ ≤ |(1 - s) * z| + |s * y| := abs_add_le _ _
      _ = |z| + s * (|y| - |z|) := by
        rw [abs_mul, abs_mul, abs_of_nonneg hs', abs_of_pos hs]
        ring
  have hlow := hbest _ (hsegment s hs.le (min_le_left _ _))
  have hexpand : coordinateCost c l1 l2 (z + s * (y - z)) - coordinateCost c l1 l2 z =
      s * (c * (y - z) + 2 * l2 * z * (y - z)) + s * (l2 * s) * (y - z) ^ 2 +
        l1 * (|z + s * (y - z)| - |z|) := by
    unfold coordinateCost
    ring
  have hfar : l1 * (|z + s * (y - z)| - |z|) ≤ s * (l1 * (|y| - |z|)) := by
    calc l1 * (|z + s * (y - z)| - |z|) ≤ l1 * (s * (|y| - |z|)) :=
        mul_le_mul_of_nonneg_left (by linarith) hl1
      _ = s * (l1 * (|y| - |z|)) := by ring
  have hsquares : s * (l2 * s) * (y - z) ^ 2 ≤ s * ((y - z) ^ 2 / (2 * a)) := by
    calc s * (l2 * s) * (y - z) ^ 2 ≤ s * (1 / (2 * a)) * (y - z) ^ 2 := by gcongr
      _ = s * ((y - z) ^ 2 / (2 * a)) := by ring
  have hdescent := mul_lt_mul_of_pos_left hdown hs
  linarith

/-- One step brings a coordinate nearer to the minimiser. -/
theorem abs_sub_le_of_nearest {a x y z : ℝ} (ha : 0 < a) (hl1 : 0 ≤ l1)
    (hz : Nearest set (Threshold.shrink (z - a * (c + 2 * l2 * z)) (a * l1)) z)
    (hy : Nearest set (Threshold.shrink (x - a * (c + 2 * l2 * x)) (a * l1)) y) :
    |y - z| ≤ |1 - 2 * a * l2| * |x - z| := by
  calc |y - z| ≤ |(x - a * (c + 2 * l2 * x)) - (z - a * (c + 2 * l2 * z))| :=
        (hy.abs_sub_le hz).trans (Threshold.abs_shrink_sub_le (mul_nonneg ha.le hl1) _ _)
    _ = |(1 - 2 * a * l2) * (x - z)| := by ring_nf
    _ = |1 - 2 * a * l2| * |x - z| := abs_mul _ _

/-- A box with a real point has one best point, and no step moves it. -/
theorem exists_penalisedBest (c : Fin n → ℝ) {l1 l2 : ℝ} {box : Box Extended} (hl1 : 0 ≤ l1)
    (hl2 : 0 < l2) (hregion : (box.region n).Nonempty) :
    ∃ z, PenalisedBest c l1 l2 box z ∧ ∀ a, 0 < a → ∀ i : Fin n, Nearest (box.between i)
      (Threshold.shrink (z i - a * (c i + 2 * l2 * z i)) (a * l1)) (z i) := by
  obtain ⟨z₀, hz₀⟩ := hregion
  choose z hz using fun i : Fin n => Box.exists_nearest
    (Threshold.shrink (0 - 1 / (2 * l2) * c i) (1 / (2 * l2) * l1)) (hz₀ i).1 (hz₀ i).2
  have hlt : ∀ i : Fin n, ∀ u ∈ box.between i, u ≠ z i →
      coordinateCost (c i) l1 l2 (z i) < coordinateCost (c i) l1 l2 u := fun i u hu hne =>
    coordinateCost_lt hl1 hl2 (hz i).2 hu hne
  have hle : ∀ i : Fin n, ∀ u ∈ box.between i,
      coordinateCost (c i) l1 l2 (z i) ≤ coordinateCost (c i) l1 l2 u := by
    intro i u hu
    rcases eq_or_ne u (z i) with rfl | hne
    · exact le_rfl
    · exact (hlt i u hu hne).le
  refine ⟨z, ⟨fun i => (hz i).2.mem, fun y hy hne => ?_⟩, fun a ha i => ?_⟩
  · obtain ⟨i, hi⟩ := Function.ne_iff.mp hne
    rw [penalisedCost_eq, penalisedCost_eq]
    exact Finset.sum_lt_sum (fun j _ => hle j (y j) (hy j))
      ⟨i, Finset.mem_univ i, hlt i _ (hy i) hi⟩
  · obtain ⟨y, -, hy⟩ := Box.exists_nearest
      (Threshold.shrink (z i - a * (c i + 2 * l2 * z i)) (a * l1)) (hz₀ i).1 (hz₀ i).2
    have hfixed := eq_of_coordinateCost_le ha hl1 hl2 (hz i).2.mem (hle i)
      (fun s hs hs' => Box.between_segment hy.mem (hz i).2.mem hs hs') hy
    rw [hfixed]
    rw [hfixed] at hy
    exact hy

/-! ## Runs on a linear function -/

namespace Stochastic

open Extended Vec

variable {G : Type} {settings : StochasticSettings Extended} {kind : SolverKind}
  {l1 l2 epsilon d : ℝ} {c : Fin n → ℝ}

theorem Tracks.gradient_of_linear [IndexSource G] {k : Nat} {squares x e g : Fin n → ℝ}
    {s : Stochastic (StepRule Extended) G Extended} (h : Tracks settings kind l2 k squares x e g s)
    (hlinear : s.problem = .plain (Objective.linear (reals c) (real d))) :
    g = c + (2 * l2) • x := by
  obtain ⟨earlier, hraw⟩ := h.estimate
  rw [hlinear] at hraw
  have he : e = c := by
    cases earlier with
    | plain f =>
      obtain ⟨hestimate, hproblem⟩ := Prod.mk.inj hraw
      rw [Problem.plain.inj hproblem] at hestimate
      exact reals_injective (Except.ok.inj hestimate).symm
    | quadratic q => cases congrArg Prod.snd hraw
    | empirical e sampler => cases congrArg Prod.snd hraw
  rw [h.penalised, he]

/-- The problem stays as it is along a round. -/
theorem Passes.problem_of_linear [IndexSource G] {s t : Stochastic (StepRule Extended) G Extended}
    (h : Passes s t) (hlinear : s.problem = .plain (Objective.linear (reals c) (real d))) :
    t.problem = .plain (Objective.linear (reals c) (real d)) := by
  obtain ⟨rule, direction, step, raw, problem, gradient, -, hraw, -, -, hproblem, -⟩ :=
    h.exists_moves
  rw [hlinear] at hraw
  rw [hproblem]
  exact (congrArg Prod.snd hraw).symm

/-- On a linear function every iteration succeeds. -/
theorem Tracks.exists_passes_of_linear [IndexSource G] (w : settings.Weighs l1 l2 epsilon)
    (hsize : settings.box.checkDimension n = .ok ()) (hregion : (settings.box.region n).Nonempty)
    {k : Nat} {squares x e g : Fin n → ℝ} {s : Stochastic (StepRule Extended) G Extended}
    (h : Tracks settings kind l2 k squares x e g s) (hsquares : ∀ i, 0 ≤ squares i) {a : ℝ}
    (hstep : settings.schedule.compute (k : Extended) settings.parameters = .ok (real a))
    (hlinear : s.problem = .plain (Objective.linear (reals c) (real d)))
    (hcheck : check.on s = (.ok false, s)) (hpredicate : predicateHolds.on s = (.ok false, s)) :
    ∃ t, Passes s t := by
  obtain ⟨next, direction, y, -, hmoves, -⟩ := h.exists_moves w hsize hregion hsquares hstep
  have hraw : rawEstimate s.problem s.settings.batchSize (reals y) =
      (.ok (reals c), s.problem) := by
    rw [hlinear]
    rfl
  have hpenalised := w.penalised_reals y c
  rw [← h.settings] at hpenalised
  have hadvance := (hmoves.advance_on.2 _).mpr ⟨_, _, _, hraw, hpenalised, rfl⟩
  obtain ⟨events, hrecord⟩ := record_on _
  exact ⟨_, s, _, hcheck, hpredicate, hadvance, hrecord⟩

/-- A run on a linear function comes nearer to a point that no step moves. -/
theorem IsRun.nearer [IndexSource G] (w : settings.Weighs l1 l2 epsilon)
    (hkind : kind ≠ .adaptive) (hsize : settings.box.checkDimension n = .ok ())
    (hregion : (settings.box.region n).Nonempty) {a : ℝ} (ha : 0 < a)
    (hstep : ∀ k : Nat, settings.schedule.compute (k : Extended) settings.parameters = .ok (real a))
    {z : Fin n → ℝ} (hz : ∀ i : Fin n, Nearest (settings.box.between i)
      (Threshold.shrink (z i - a * (c i + 2 * l2 * z i)) (a * l1)) (z i))
    {x₀ e g : Fin n → ℝ} {solver : Stochastic (StepRule Extended) G Extended}
    (hfirst : Tracks settings kind l2 0 0 x₀ e g solver)
    (hlinear : solver.problem = .plain (Objective.linear (reals c) (real d))) {k : Nat}
    {run : Nat → Stochastic (StepRule Extended) G Extended} (hrun : IsRun solver run k) :
    (run k).iteration = k ∧ ∃ x : Fin n → ℝ, (run k).point = reals x ∧
      ∀ i, |x i - z i| ≤ |1 - 2 * a * l2| ^ k * |x₀ i - z i| := by
  have htracks : ∀ j ≤ k, ∃ squares x e g : Fin n → ℝ, (∀ i, 0 ≤ squares i) ∧
      Tracks settings kind l2 j squares x e g (run j) ∧
      (run j).problem = .plain (Objective.linear (reals c) (real d)) ∧
      ∀ i, |x i - z i| ≤ |1 - 2 * a * l2| ^ j * |x₀ i - z i| := by
    intro j
    induction j with
    | zero =>
      intro _
      have hzero : Tracks settings kind l2 0 0 x₀ e g (run 0) :=
        hfirst.of_alike (hrun.start ▸ ⟨rfl, rfl, rfl, rfl, rfl, rfl⟩)
      refine ⟨0, x₀, e, g, fun i => le_rfl, hzero, ?_, fun i => ?_⟩
      · rw [hrun.start]
        exact hlinear
      · rw [pow_zero, one_mul]
    | succ j ih =>
      intro hj
      obtain ⟨squares, x, e, g, hsquares, htracks, hproblem, hnear⟩ := ih (Nat.le_of_succ_le hj)
      have hpasses := hrun.passes j hj
      obtain ⟨y, e', g', hnext, hnearest⟩ :=
        htracks.of_passes w hsize hregion hsquares (hstep j) hpasses
      have hscale : stepScale kind epsilon (squares + g * g) = 1 := funext fun i => if_neg hkind
      rw [hscale, htracks.gradient_of_linear hproblem] at hnearest
      simp only [Pi.one_apply, mul_one, Pi.add_apply, Pi.smul_apply, smul_eq_mul] at hnearest
      refine ⟨squares + g * g, y, e', g', fun i => add_nonneg (hsquares i) (mul_self_nonneg (g i)),
        hnext, hpasses.problem_of_linear hproblem, fun i => ?_⟩
      calc |y i - z i| ≤ |1 - 2 * a * l2| * |x i - z i| :=
            abs_sub_le_of_nearest ha w.l1_nonneg (hz i) (hnearest i)
        _ ≤ |1 - 2 * a * l2| * (|1 - 2 * a * l2| ^ j * |x₀ i - z i|) :=
            mul_le_mul_of_nonneg_left (hnear i) (abs_nonneg _)
        _ = |1 - 2 * a * l2| ^ (j + 1) * |x₀ i - z i| := by ring
  obtain ⟨_, x, _, _, -, hlast, -, hnear⟩ := htracks k le_rfl
  exact ⟨hlast.iteration, x, hlast.point, hnear⟩

section Create

variable [SeededSource G] {x₀ : Fin n → ℝ} {start : Nested Extended}

/-- With a constant step and a penalty on squares the points of a run on a linear function
approach its only penalised minimiser over the box, in every coordinate by the same factor. -/
theorem linear_contracts {lower upper : Option (Nested Extended)} {a : ℝ}
    (w : settings.Weighs l1 l2 epsilon) (hl2 : 0 < l2) (ha : 0 < a)
    (hschedule : settings.schedule = .constant) (hparameters : settings.parameters = [real a])
    (hbox : Box.ofBounds lower upper = .ok settings.box) (hproper : settings.box.Proper)
    (hsize : settings.box.checkDimension n = .ok ()) (hstart : start.toPoint = .ok (reals x₀))
    (keeps : Bool) :
    ∃ (solver : Stochastic (StepRule Extended) G Extended) (z : Fin n → ℝ),
      create .stochastic settings (.plain (Objective.linear (reals c) (real d))) start keeps =
        .ok solver ∧
      PenalisedBest c l1 l2 settings.box z ∧
      (∀ k run, IsRun solver run k → ∃ x : Fin n → ℝ, (run k).point = reals x ∧
        ∀ i, |x i - z i| ≤ |1 - 2 * a * l2| ^ k * |x₀ i - z i|) ∧
      ∀ point final, solve.on solver = (.ok point, final) → ∃ x : Fin n → ℝ, point = reals x ∧
        ∀ i, |x i - z i| ≤ |1 - 2 * a * l2| ^ final.iteration * |x₀ i - z i| := by
  have hregion := Box.region_nonempty hbox hsize hproper
  have hstep : ∀ k : Nat, settings.schedule.compute (k : Extended) settings.parameters =
      .ok (real a) := by
    intro k
    rw [hschedule, hparameters]
    rfl
  obtain ⟨z, hbest, hfixed⟩ := exists_penalisedBest c w.l1_nonneg hl2 hregion
  obtain ⟨solver, hcreate, hlinear, -⟩ := exists_create_linear (G := G) w hsize hstart
    .stochastic c d keeps
  have hestimates : (Problem.plain (Objective.linear (reals c) (real d)) :
      Problem Extended G).EstimatesReals n := by
    intro x estimate hestimate
    exact ⟨c, (Except.ok.inj hestimate).symm⟩
  obtain ⟨-, e, g, hfirst⟩ := exists_tracks_of_create w hestimates hstart hcreate
  have hnearer : ∀ k run, IsRun solver run k → (run k).iteration = k ∧ ∃ x : Fin n → ℝ,
      (run k).point = reals x ∧ ∀ i, |x i - z i| ≤ |1 - 2 * a * l2| ^ k * |x₀ i - z i| :=
    fun k run hrun => hrun.nearer w (by decide) hsize hregion ha hstep (hfixed a ha) hfirst hlinear
  refine ⟨solver, z, hcreate, hbest, fun k run hrun => (hnearer k run hrun).2, ?_⟩
  intro point final hsolve
  obtain ⟨k, -, run, hrun, ended, hends, rfl, rfl⟩ := exists_run_of_solve hsolve
  obtain ⟨hiteration, x, hpoint, hnear⟩ := hnearer k run hrun
  refine ⟨x, hends.alike.point.trans hpoint, ?_⟩
  have hended : (ended.announce (.settled ended.verdict ended.iteration)).iteration = k :=
    hends.alike.iteration.trans hiteration
  rw [hended]
  exact hnear

end Create

/-! ### A tilted line -/

noncomputable def gentleSettings : StochasticSettings Extended :=
  { tiltSettings with parameters := [real (1 / 4)] }

theorem gentle_weighs : gentleSettings.Weighs (1 / 2) 1 1 :=
  ⟨rfl, rfl, rfl, by norm_num, by norm_num, by norm_num⟩

/-- A step of a quarter halves the distance. -/
theorem linear_contracts_tilt :
    ∃ (solver : Stochastic (StepRule Extended) Generator Extended) (run : Nat → _)
      (z x : Fin 1 → ℝ),
      create .stochastic gentleSettings tilt (Nested.ofVec [0]) true = .ok solver ∧
      PenalisedBest (fun _ => 1) (1 / 2) 1 gentleSettings.box z ∧ IsRun solver run 1 ∧
      (run 1).point = reals x ∧ |x 0 - z 0| ≤ 1 / 2 * |0 - z 0| := by
  have hpoint : (Nested.ofVec [(0 : Extended)]).toPoint = .ok (reals fun _ : Fin 1 => 0) :=
    Nested.toPoint_ofVec (List.cons_ne_nil _ _)
  have hsize : gentleSettings.box.checkDimension 1 = .ok () := rfl
  obtain ⟨solver, z, hcreate, hbest, hnear, -⟩ := linear_contracts (G := Generator)
    (c := fun _ : Fin 1 => 1) (d := 0) (a := 1 / 4) gentle_weighs one_pos (by norm_num) rfl rfl
    tilt_box tilt_proper hsize hpoint true
  obtain ⟨_, hcreate', hlinear, -⟩ := exists_create_linear (G := Generator) gentle_weighs
    hsize hpoint .stochastic (fun _ => 1) 0 true
  obtain rfl := Except.ok.inj (hcreate.symm.trans hcreate')
  obtain ⟨-, e, g, hfirst⟩ := exists_tracks_of_create gentle_weighs tilt_estimates hpoint hcreate
  have hstarted := hfirst.of_alike (t := solver.announce (.started solver.kind))
    ⟨rfl, rfl, rfl, rfl, rfl, rfl⟩
  have hcheck := check_of_first hstarted.iteration
  rw [hstarted.settings] at hcheck
  have hpredicate : predicateHolds.on (solver.announce (.started solver.kind)) =
      (.ok false, solver.announce (.started solver.kind)) := by
    refine predicateHolds_on (fun p hp => ?_) fun _ => rfl
    rw [hstarted.settings] at hp
    cases hp
  obtain ⟨t, hpasses⟩ := hstarted.exists_passes_of_linear gentle_weighs hsize
    (Box.region_nonempty tilt_box hsize tilt_proper) (fun _ => le_rfl) rfl hlinear hcheck hpredicate
  have hrun : IsRun solver (fun k => Nat.casesOn k (solver.announce (.started solver.kind))
      fun _ => t) 1 := by
    refine ⟨rfl, fun k hk => ?_⟩
    obtain rfl : k = 0 := Nat.lt_one_iff.mp hk
    exact hpasses
  obtain ⟨x, hx, hdistance⟩ := hnear 1 _ hrun
  have hfactor : |1 - 2 * (1 / 4) * 1| ^ 1 = (1 / 2 : ℝ) := by norm_num
  have hhalf := hdistance 0
  rw [hfactor] at hhalf
  exact ⟨solver, _, z, x, hcreate, hbest, hrun, hx, hhalf⟩

end Stochastic

end Downhill
