import Downhill.Objective.Basic
import Downhill.Proofs.Stochastic.Step

/-!
# Iterations of a stochastic solver

An iteration is a proximal step with the estimate, the penalty on squares included, for
its slope.  The adaptive rule scales the distance in every coordinate by the estimates
there so far, the last one included.  Estimates and steps are real numbers; the bounds
of the box may be infinite.
-/

namespace Downhill

open Extended Vec

variable {G : Type} {n : Nat}

/-- At a real point every estimate is a vector of as many real numbers. -/
def Problem.EstimatesReals (n : Nat) : Problem Extended G → Prop
  | .plain f => ∀ (x : Fin n → ℝ) estimate, f.gradient (reals x) = .ok estimate →
      ∃ e : Fin n → ℝ, estimate = reals e
  | .quadratic q => ∀ (x : Fin n → ℝ) estimate, q.gradient (reals x) = .ok estimate →
      ∃ e : Fin n → ℝ, estimate = reals e
  | .empirical e _ => ∀ (x : Fin n → ℝ) batch estimate,
      e.batchGradient (reals x) batch = .ok estimate → ∃ e : Fin n → ℝ, estimate = reals e

namespace Problem.EstimatesReals

theorem of_rawEstimate [IndexSource G] {problem next : Problem Extended G} {batch : Nat}
    {x : Fin n → ℝ} {raw : Vec Extended} (h : problem.EstimatesReals n)
    (hraw : Stochastic.rawEstimate problem batch (reals x) = (.ok raw, next)) :
    (∃ e : Fin n → ℝ, raw = reals e) ∧ next.EstimatesReals n := by
  cases problem with
  | plain f =>
    obtain ⟨hgradient, rfl⟩ := Prod.mk.inj hraw
    exact ⟨h x raw hgradient, h⟩
  | quadratic q =>
    obtain ⟨hgradient, rfl⟩ := Prod.mk.inj hraw
    exact ⟨h x raw hgradient, h⟩
  | empirical e sampler =>
    unfold Stochastic.rawEstimate Problem.estimate at hraw
    dsimp only at hraw
    split at hraw
    · cases hraw
    · obtain ⟨hgradient, rfl⟩ := Prod.mk.inj hraw
      exact ⟨h x _ raw hgradient, h⟩

theorem of_prepare [SeededSource G] {settings : StochasticSettings Extended}
    {problem prepared : Problem Extended G} (h : problem.EstimatesReals n)
    (hprepared : Stochastic.prepare settings problem = .ok prepared) :
    prepared.EstimatesReals n := by
  cases problem with
  | plain f =>
    cases hprepared
    exact h
  | quadratic q =>
    cases hprepared
    exact h
  | empirical e sampler =>
    unfold Stochastic.prepare at hprepared
    dsimp only at hprepared
    split at hprepared
    · cases hprepared
      exact h
    · obtain ⟨source, -, hprepared⟩ := Fault.bind_eq_ok_iff.mp hprepared
      cases hprepared
      exact h

end Problem.EstimatesReals

namespace Stochastic

/-- A solver at a real point with an estimate there, to which the derivative of the penalty
on squares has been added. -/
structure Estimated [IndexSource G] (l2 : ℝ) (x e g : Fin n → ℝ)
    (s : Stochastic (StepRule Extended) G Extended) : Prop where
  point : s.point = reals x
  estimate : ∃ earlier,
    rawEstimate earlier s.settings.batchSize (reals x) = (.ok (reals e), s.problem)
  gradient : s.gradient = reals g
  penalised : g = e + (2 * l2) • x

/-- A solver before an iteration that has summed up the squares of earlier estimates. -/
structure Tracks [IndexSource G] (settings : StochasticSettings Extended) (kind : SolverKind)
    (l2 : ℝ) (k : Nat) (squares x e g : Fin n → ℝ)
    (s : Stochastic (StepRule Extended) G Extended) : Prop extends Estimated l2 x e g s where
  problem : s.problem.EstimatesReals n
  rule : s.rule.Sums kind squares
  iteration : s.iteration = k
  settings : s.settings = settings

section Tracks

variable [IndexSource G] {settings : StochasticSettings Extended} {kind : SolverKind}
  {l1 l2 epsilon : ℝ} {k : Nat} {squares x e g : Fin n → ℝ}
  {s t : Stochastic (StepRule Extended) G Extended}

theorem Tracks.of_alike (h : Tracks settings kind l2 k squares x e g s) (halike : Alike s t) :
    Tracks settings kind l2 k squares x e g t where
  point := halike.point.trans h.point
  estimate := by
    rw [halike.settings, halike.problem]
    exact h.estimate
  gradient := halike.gradient.trans h.gradient
  penalised := h.penalised
  problem := halike.problem ▸ h.problem
  rule := halike.rule ▸ h.rule
  iteration := halike.iteration.trans h.iteration
  settings := halike.settings.trans h.settings

/-- An iteration moves every coordinate against the estimate and towards zero, and then to
the nearest number between its bounds. -/
theorem Tracks.exists_moves (w : settings.Weighs l1 l2 epsilon)
    (hsize : settings.box.checkDimension n = .ok ()) (hregion : (settings.box.region n).Nonempty)
    (h : Tracks settings kind l2 k squares x e g s) (hsquares : ∀ i, 0 ≤ squares i) {a : ℝ}
    (hstep : settings.schedule.compute (k : Extended) settings.parameters = .ok (real a)) :
    ∃ next direction, ∃ y : Fin n → ℝ, next.Sums kind (squares + g * g) ∧
      s.Moves next direction (real a) (reals y) ∧
      ∀ i : Fin n, Nearest (settings.box.between i)
        (Threshold.shrink (x i - a * stepScale kind epsilon (squares + g * g) i * g i)
          (a * stepScale kind epsilon (squares + g * g) i * l1)) (y i) := by
  obtain ⟨next, hsums, hscales, hdirection⟩ := w.exists_direction h.rule hsquares g
  generalize stepScale kind epsilon (squares + g * g) = scales at hscales hdirection ⊢
  have harrived : x + a • (-g * scales) = fun i => x i - a * scales i * g i := by
    funext i
    simp only [Pi.add_apply, Pi.smul_apply, Pi.mul_apply, Pi.neg_apply, smul_eq_mul]
    ring
  have hmoved : (reals x).along (real a) (reals (-g * scales)) =
      .ok (reals fun i => x i - a * scales i * g i) := by
    rw [along_reals, harrived]
  have hreach := w.reach_reals hscales hmoved
  obtain ⟨y, hclamp, hnearest⟩ := Box.exists_clamp hsize hregion
    fun i => Threshold.shrink (x i - a * scales i * g i) (a * scales i * l1)
  refine ⟨next, reals (-g * scales), y, hsums, ?_, hnearest⟩
  constructor
  · rw [h.settings, h.gradient]
    exact hdirection
  · rw [h.settings, h.iteration]
    exact hstep
  · rw [h.settings, h.point]
    exact ⟨_, hreach, hclamp⟩

/-- After an iteration there is a new estimate, and the square of the last one has been
added. -/
theorem Tracks.of_advance (w : settings.Weighs l1 l2 epsilon)
    (h : Tracks settings kind l2 k squares x e g s) {next : StepRule Extended}
    {direction : Vec Extended} {step : Extended} {y : Fin n → ℝ}
    (hsums : next.Sums kind (squares + g * g)) (hmoves : s.Moves next direction step (reals y))
    (ht : advance.on s = (.ok (), t)) :
    ∃ e' g', Tracks settings kind l2 (k + 1) (squares + g * g) y e' g' t := by
  obtain ⟨raw, problem, gradient, hraw, hpenalised, rfl⟩ := (hmoves.advance_on.2 t).mp ht
  obtain ⟨⟨e', rfl⟩, hproblem⟩ := h.problem.of_rawEstimate hraw
  rw [h.settings, w.penalised_reals] at hpenalised
  obtain rfl := Except.ok.inj hpenalised
  exact ⟨e', _, ⟨rfl, ⟨s.problem, hraw⟩, rfl, rfl⟩, hproblem, hsums, congrArg (· + 1) h.iteration,
    h.settings⟩

theorem Tracks.of_passes (w : settings.Weighs l1 l2 epsilon)
    (hsize : settings.box.checkDimension n = .ok ()) (hregion : (settings.box.region n).Nonempty)
    (h : Tracks settings kind l2 k squares x e g s) (hsquares : ∀ i, 0 ≤ squares i) {a : ℝ}
    (hstep : settings.schedule.compute (k : Extended) settings.parameters = .ok (real a))
    (hpasses : Passes s t) :
    ∃ y e' g', Tracks settings kind l2 (k + 1) (squares + g * g) y e' g' t ∧
      ∀ i : Fin n, Nearest (settings.box.between i)
        (Threshold.shrink (x i - a * stepScale kind epsilon (squares + g * g) i * g i)
          (a * stepScale kind epsilon (squares + g * g) i * l1)) (y i) := by
  obtain ⟨checked, advanced, hcheck, -, hadvance, hrecord⟩ := hpasses
  have hchecked := h.of_alike (alike_of_check hcheck)
  obtain ⟨next, direction, y, hsums, hmoves, hnearest⟩ :=
    hchecked.exists_moves w hsize hregion hsquares hstep
  obtain ⟨e', g', hadvanced⟩ := hchecked.of_advance w hsums hmoves hadvance
  obtain ⟨events, hnoted⟩ := record_on advanced
  obtain rfl := congrArg Prod.snd (hnoted.symm.trans hrecord)
  exact ⟨y, e', g', hadvanced.of_alike ⟨rfl, rfl, rfl, rfl, rfl, rfl⟩, hnearest⟩

/-- The estimates of a run, read off its states. -/
noncomputable def gradientsOf (run : Nat → Stochastic (StepRule Extended) G Extended) (n : Nat)
    (j : Nat) : Fin n → ℝ := reading n (run j).gradient

/-- The sum of the squared estimates before an iteration of a run. -/
noncomputable def squaresOf (g : Nat → Fin n → ℝ) (k : Nat) : Fin n → ℝ :=
  ∑ j ∈ Finset.range k, g j * g j

theorem squaresOf_nonneg (g : Nat → Fin n → ℝ) (k : Nat) (i : Fin n) : 0 ≤ squaresOf g k i := by
  unfold squaresOf
  rw [Finset.sum_apply]
  exact Finset.sum_nonneg fun j _ => mul_self_nonneg (g j i)

theorem exists_tracks (w : settings.Weighs l1 l2 epsilon)
    (hsize : settings.box.checkDimension n = .ok ()) (hregion : (settings.box.region n).Nonempty)
    {solver : Stochastic (StepRule Extended) G Extended} {run : Nat → Stochastic _ G _}
    (hrun : IsRun solver run k) (hfirst : Tracks settings kind l2 0 0 x e g solver) {a : Nat → ℝ}
    (hsteps : ∀ j < k, settings.schedule.compute (j : Extended) settings.parameters =
      .ok (real (a j))) :
    ∃ x e g : Nat → Fin n → ℝ, ∀ j ≤ k,
      Tracks settings kind l2 j (squaresOf g j) (x j) (e j) (g j) (run j) := by
  have htracks : ∀ j ≤ k, ∃ x e,
      Tracks settings kind l2 j (squaresOf (gradientsOf run n) j) x e (gradientsOf run n j)
        (run j) := by
    intro j
    induction j with
    | zero =>
      intro _
      have hzero : Tracks settings kind l2 0 0 x e g (run 0) :=
        hfirst.of_alike (hrun.start ▸ ⟨rfl, rfl, rfl, rfl, rfl, rfl⟩)
      have hestimate : gradientsOf run n 0 = g := by
        unfold gradientsOf
        rw [hzero.gradient, reading_reals]
      rw [hestimate]
      exact ⟨x, e, hzero⟩
    | succ j ih =>
      intro hj
      obtain ⟨x, e, hj'⟩ := ih (Nat.le_of_succ_le hj)
      obtain ⟨y, e', g', hnext, -⟩ :=
        hj'.of_passes w hsize hregion (squaresOf_nonneg _ j) (hsteps j hj) (hrun.passes j hj)
      have hestimate : gradientsOf run n (j + 1) = g' := by
        unfold gradientsOf
        rw [hnext.gradient, reading_reals]
      rw [hestimate]
      refine ⟨y, e', ?_⟩
      unfold squaresOf at hnext ⊢
      rw [Finset.sum_range_succ]
      exact hnext
  choose! x e hboth using htracks
  exact ⟨x, e, gradientsOf run n, hboth⟩

end Tracks

section Create

variable [SeededSource G] {settings : StochasticSettings Extended} {kind : SolverKind}
  {l1 l2 epsilon : ℝ} {x : Fin n → ℝ} {problem : Problem Extended G} {start : Nested Extended}
  {keeps : Bool} {solver : Stochastic (StepRule Extended) G Extended}

theorem exists_tracks_of_create (w : settings.Weighs l1 l2 epsilon)
    (hproblem : problem.EstimatesReals n) (hstart : start.toPoint = .ok (reals x))
    (hcreate : create kind settings problem start keeps = .ok solver) :
    settings.box.checkDimension n = .ok () ∧
      ∃ e g, Tracks settings kind l2 0 0 x e g solver := by
  obtain ⟨point, hpoint, hsize, hstarted⟩ := exists_start_of_create hcreate
  obtain rfl := Except.ok.inj (hstart.symm.trans hpoint)
  rw [length_reals] at hsize hstarted
  obtain ⟨prepared, raw, hprepared, hraw, hpenalised, hsettings, hrule, hiteration, hpoint⟩ :=
    exists_of_start hstarted
  obtain ⟨⟨e, rfl⟩, hnext⟩ := (hproblem.of_prepare hprepared).of_rawEstimate hraw
  rw [w.penalised_reals] at hpenalised
  have hsums : solver.rule.Sums kind (0 : Fin n → ℝ) := by
    rw [hrule]
    by_cases hkind : kind = .adaptive
    · rw [if_pos hkind]
      exact ⟨hkind, zeros_eq_reals⟩
    · rw [if_neg hkind]
      exact hkind
  refine ⟨hsize, e, _, ⟨hpoint, ⟨prepared, ?_⟩, (Except.ok.inj hpenalised).symm, rfl⟩, hnext,
    hsums, hiteration, hsettings⟩
  rw [hsettings]
  exact hraw

/-- A linear function can be estimated at every point. -/
theorem exists_create_linear (w : settings.Weighs l1 l2 epsilon)
    (hsize : settings.box.checkDimension n = .ok ()) (hstart : start.toPoint = .ok (reals x))
    (kind : SolverKind) (c : Fin n → ℝ) (d : ℝ) (keeps : Bool) :
    ∃ solver : Stochastic (StepRule Extended) G Extended,
      create kind settings (.plain (Objective.linear (reals c) (real d))) start keeps =
        .ok solver ∧
      solver.problem = .plain (Objective.linear (reals c) (real d)) ∧
      solver.pointConverged = false := by
  have hestimate : (rawEstimate (.plain (Objective.linear (reals c) (real d)) : Problem Extended G)
      settings.batchSize (reals x)).1 >>= penalised settings (reals x) =
        .ok (reals (c + (2 * l2) • x)) := w.penalised_reals x c
  rw [create_eq_start kind settings _ keeps hstart ((length_reals x).symm ▸ hsize)]
  unfold Stochastic.start
  rw [show prepare settings (.plain (Objective.linear (reals c) (real d)) : Problem Extended G) =
    .ok (.plain (Objective.linear (reals c) (real d))) from rfl]
  dsimp only [bind, Except.bind]
  rw [estimate_on]
  dsimp only
  rw [hestimate]
  exact ⟨_, rfl, rfl, rfl⟩

/-- Every iteration of a solver whose settings are accepted is a proximal step, from a
point with an estimate there to the only minimiser over the box. -/
theorem advance_proximal {lower upper : Option (Nested Extended)} {k : Nat}
    {run : Nat → Stochastic (StepRule Extended) G Extended} {a : Nat → ℝ}
    (w : settings.Weighs l1 l2 epsilon) (hbox : Box.ofBounds lower upper = .ok settings.box)
    (hproper : settings.box.Proper) (hproblem : problem.EstimatesReals n)
    (hstart : start.toPoint = .ok (reals x))
    (hcreate : create kind settings problem start keeps = .ok solver) (hrun : IsRun solver run k)
    (hsteps : ∀ j ≤ k, 0 < a j ∧
      settings.schedule.compute (j : Extended) settings.parameters = .ok (real (a j))) :
    ∃ x e g : Nat → Fin n → ℝ,
      (∀ j ≤ k, Estimated l2 (x j) (e j) (g j) (run j)) ∧
      ∀ checked, check.on (run k) = (.ok false, checked) →
        ∃ y ∈ settings.box.region n, (advance.on checked).2.point = reals y ∧
          ∀ z ∈ settings.box.region n, z ≠ y →
            proximalCost (g k) (x k) (stepScale kind epsilon (squaresOf g (k + 1))) (a k) l1 y <
              proximalCost (g k) (x k) (stepScale kind epsilon (squaresOf g (k + 1)))
                (a k) l1 z := by
  obtain ⟨hsize, e₀, g₀, hfirst⟩ := exists_tracks_of_create w hproblem hstart hcreate
  have hregion := Box.region_nonempty hbox hsize hproper
  obtain ⟨x, e, g, htracks⟩ :=
    exists_tracks w hsize hregion hrun hfirst fun j hj => (hsteps j hj.le).2
  obtain ⟨ha, hstep⟩ := hsteps k le_rfl
  refine ⟨x, e, g, fun j hj => (htracks j hj).toEstimated, fun checked hcheck => ?_⟩
  have hchecked := (htracks k le_rfl).of_alike (alike_of_check hcheck)
  obtain ⟨next, direction, y, -, hmoves, hnearest⟩ :=
    hchecked.exists_moves w hsize hregion (squaresOf_nonneg g k) hstep
  have hsquares : squaresOf g k + g k * g k = squaresOf g (k + 1) :=
    (Finset.sum_range_succ _ k).symm
  rw [hsquares] at hnearest
  refine ⟨y, fun i => (hnearest i).mem, hmoves.advance_on.1, fun z hz hne => ?_⟩
  exact proximalCost_lt ha (stepScale_pos kind w.epsilon_pos _) w.l1_nonneg hnearest hz hne

end Create

/-! ### A tilted line

The adaptive rule moves down a line, with both penalties and up to an upper bound. -/

noncomputable def tilt : Problem Extended Generator := .plain (Objective.linear [real 1] 0)

noncomputable def tiltSettings : StochasticSettings Extended where
  maxIterations := 10
  pointTolerance := 0
  pointPatience := 1
  checksPoint := false
  box := ⟨some [bot], some [real 2]⟩
  predicate := none
  logEvery := 0
  batchSize := 1
  withReplacement := false
  schedule := .constant
  parameters := [1]
  l1 := real (1 / 2)
  l2 := real 1
  method := .adaptive
  epsilon := real 1
  seed := none

theorem tilt_weighs : tiltSettings.Weighs (1 / 2) 1 1 :=
  ⟨rfl, rfl, rfl, by norm_num, by norm_num, by norm_num⟩

theorem tilt_estimates : tilt.EstimatesReals 1 := by
  intro x estimate h
  cases h
  exact ⟨fun _ => 1, rfl⟩

theorem tilt_box :
    Box.ofBounds (some (.entry bot)) (some (.entry (real 2))) = .ok tiltSettings.box := by
  have horder : Box.checkOrder (some [bot]) (some [real 2]) = .ok () := by
    refine Fault.refuse_eq_ok_iff.mpr fun hcrosses => ?_
    obtain ⟨b, -, hb⟩ := List.any_eq_true.mp hcrosses
    exact Box.not_lt_bot b (of_decide_eq_true hb)
  show (Box.checkOrder (some [bot]) (some [real 2]) >>= _) = _
  rw [horder]
  rfl

theorem tilt_proper : tiltSettings.box.Proper := by
  constructor
  · intro entries h
    cases h
    exact fun hmem => nomatch List.mem_singleton.mp hmem
  · intro entries h
    cases h
    exact fun hmem => nomatch List.mem_singleton.mp hmem

theorem tilt_create : ∃ solver : Stochastic (StepRule Extended) Generator Extended,
    create .adaptive tiltSettings tilt (Nested.ofVec [0]) true = .ok solver ∧
      solver.problem = tilt ∧ solver.pointConverged = false := by
  have hpoint : (Nested.ofVec [(0 : Extended)]).toPoint = .ok (reals fun _ : Fin 1 => 0) :=
    Nested.toPoint_ofVec (List.cons_ne_nil _ _)
  exact exists_create_linear tilt_weighs rfl hpoint .adaptive (fun _ => 1) 0 true

theorem tilt_check {s : Stochastic (StepRule Extended) Generator Extended}
    (hsettings : s.settings = tiltSettings) (hiteration : s.iteration < 10)
    (hconverged : s.pointConverged = false) : check.on s = (.ok false, s) := by
  unfold check
  rw [StochasticM.on_bind (StochasticM.on_get s), hsettings]
  by_cases hzero : s.iteration = 0
  · rw [if_pos hzero]
    rfl
  · have hlimit : ¬tiltSettings.maxIterations ≤ s.iteration := Nat.not_le_of_lt hiteration
    have hchecks : ¬tiltSettings.checksPoint = true := Bool.false_ne_true
    rw [if_neg hzero, if_neg hlimit]
    dsimp only
    rw [if_neg hchecks, StochasticM.on_bind (StochasticM.on_get s), hconverged]
    rfl

theorem advance_proximal_tilt :
    ∃ (solver : Stochastic (StepRule Extended) Generator Extended) (run : Nat → _)
      (x g : Nat → Fin 1 → ℝ) (y : Fin 1 → ℝ),
      create .adaptive tiltSettings tilt (Nested.ofVec [0]) true = .ok solver ∧
      IsRun solver run 1 ∧ (run 1).point = reals (x 1) ∧ (run 1).gradient = reals (g 1) ∧
      (advance.on (run 1)).2.point = reals y ∧ y ∈ tiltSettings.box.region 1 ∧
      ∀ z ∈ tiltSettings.box.region 1, z ≠ y →
        proximalCost (g 1) (x 1) (stepScale .adaptive 1 (squaresOf g 2)) 1 (1 / 2) y <
          proximalCost (g 1) (x 1) (stepScale .adaptive 1 (squaresOf g 2)) 1 (1 / 2) z := by
  obtain ⟨solver, hcreate, hproblem, hconverged⟩ := tilt_create
  have hpoint : (Nested.ofVec [(0 : Extended)]).toPoint = .ok (reals (0 : Fin 1 → ℝ)) :=
    Nested.toPoint_ofVec (List.cons_ne_nil _ _)
  obtain ⟨hsize, e, g, hfirst⟩ :=
    exists_tracks_of_create tilt_weighs tilt_estimates hpoint hcreate
  have hregion := Box.region_nonempty tilt_box hsize tilt_proper
  have hsteps : ∀ j : Nat, tiltSettings.schedule.compute (j : Extended) tiltSettings.parameters =
      .ok (real 1) := fun _ => rfl
  -- The first round, part by part.
  have hstarted := hfirst.of_alike (t := solver.announce (.started solver.kind))
    ⟨rfl, rfl, rfl, rfl, rfl, rfl⟩
  have hcheck := tilt_check hstarted.settings (hstarted.iteration ▸ by decide) hconverged
  have hpredicate : predicateHolds.on (solver.announce (.started solver.kind)) =
      (.ok false, solver.announce (.started solver.kind)) := by
    unfold predicateHolds
    rw [StochasticM.on_bind (StochasticM.on_get _), hstarted.settings]
    rfl
  obtain ⟨next, direction, y₀, -, hmoves, -⟩ :=
    hstarted.exists_moves tilt_weighs hsize hregion (fun _ => le_rfl) (hsteps 0)
  have hraw : rawEstimate (solver.announce (.started solver.kind)).problem
      (solver.announce (.started solver.kind)).settings.batchSize (reals y₀) =
        (.ok (reals fun _ : Fin 1 => 1), tilt) := by
    show rawEstimate solver.problem _ _ = _
    rw [hproblem]
    rfl
  have hpenalised := tilt_weighs.penalised_reals y₀ fun _ => 1
  rw [← hstarted.settings] at hpenalised
  have hadvance := (hmoves.advance_on.2 _).mpr ⟨_, _, _, hraw, hpenalised, rfl⟩
  obtain ⟨events, hrecord⟩ := record_on _
  obtain ⟨t, hpasses, hsettings, hiteration, hconverged'⟩ :
      ∃ t, Passes (solver.announce (.started solver.kind)) t ∧ t.settings = tiltSettings ∧
        t.iteration = 1 ∧ t.pointConverged = false :=
    ⟨_, ⟨_, _, hcheck, hpredicate, hadvance, hrecord⟩, hstarted.settings,
      congrArg (· + 1) hstarted.iteration, hconverged⟩
  let run : Nat → Stochastic (StepRule Extended) Generator Extended := fun k =>
    Nat.casesOn k (solver.announce (.started solver.kind)) fun _ => t
  have hrun : IsRun solver run 1 := by
    refine ⟨rfl, fun k hk => ?_⟩
    obtain rfl : k = 0 := Nat.lt_one_iff.mp hk
    exact hpasses
  obtain ⟨x, e, g, hestimated, hproximal⟩ := advance_proximal (a := fun _ => 1) tilt_weighs tilt_box
    tilt_proper tilt_estimates hpoint hcreate hrun fun j _ => ⟨one_pos, hsteps j⟩
  have hearly : t.iteration < 10 := by rw [hiteration]; decide
  obtain ⟨y, hy, hreached, hbest⟩ := hproximal t (tilt_check hsettings hearly hconverged')
  exact ⟨solver, run, x, g, y, hcreate, hrun, (hestimated 1 le_rfl).point,
    (hestimated 1 le_rfl).gradient, hreached, hy, hbest⟩

end Stochastic

end Downhill
