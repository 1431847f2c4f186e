import Downhill.Proofs.Schedule
import Downhill.Proofs.Stochastic.Iteration
import Downhill.Proofs.Stochastic.Stopping

/-!
# Accumulation by the adaptive rule

The adaptive rule adds the square of an estimate before the step that uses it.  So the sums
that a solver has after so many iterations are those of the estimates of these iterations,
without the one at the point it is at, and the scales beside them are those of the last step.
The sums only grow and the scales shrink with them, and as the estimate of a step is part of
its own sum, no coordinate moves as far as the schedule says.
-/

namespace Downhill

open Extended Vec

variable {n : Nat}

theorem Box.between_of_unbounded (i : Nat) (z : ℝ) :
    z ∈ (⟨none, none⟩ : Box Extended).between i := ⟨trivial, trivial⟩

/-! ## Scales -/

section Scale

variable {epsilon : ℝ} {squares squares' : Fin n → ℝ}

theorem stepScale_antitone (hepsilon : 0 < epsilon) (h : squares ≤ squares') :
    stepScale .adaptive epsilon squares' ≤ stepScale .adaptive epsilon squares := by
  intro i
  unfold stepScale
  rw [if_pos rfl, if_pos rfl]
  have hpos : 0 < √(squares i) + epsilon := add_pos_of_nonneg_of_pos (Real.sqrt_nonneg _) hepsilon
  exact one_div_le_one_div_of_le hpos (add_le_add_left (Real.sqrt_le_sqrt (h i)) epsilon)

/-- The estimate is part of the sum that it is divided by. -/
theorem abs_stepScale_mul_lt (hepsilon : 0 < epsilon) (hsquares : ∀ i, 0 ≤ squares i)
    (g : Fin n → ℝ) (i : Fin n) : |stepScale .adaptive epsilon (squares + g * g) i * g i| < 1 := by
  have hroot : |g i| ≤ √((squares + g * g) i) :=
    Real.abs_le_sqrt (by
      rw [pow_two]
      exact le_add_of_nonneg_left (hsquares i))
  have hpos : 0 < √((squares + g * g) i) + epsilon :=
    add_pos_of_nonneg_of_pos (Real.sqrt_nonneg _) hepsilon
  unfold stepScale
  rw [if_pos rfl, one_div_mul_eq_div, abs_div, abs_of_pos hpos, div_lt_one hpos]
  linarith

theorem squaresOf_mono (g : Nat → Fin n → ℝ) {i j : Nat} (hij : i ≤ j) :
    Stochastic.squaresOf g i ≤ Stochastic.squaresOf g j := by
  unfold Stochastic.squaresOf
  refine Finset.sum_le_sum_of_subset_of_nonneg (Finset.range_subset_range.mpr hij) ?_
  exact fun j _ _ i => mul_self_nonneg (g j i)

theorem StepRule.eq_adaptive {rule : StepRule Extended} {scales : Fin n → ℝ}
    (hsums : rule.Sums .adaptive squares) (hscales : rule.Scales scales) :
    rule = .adaptive (reals squares) (reals scales) := by
  cases rule with
  | plain => exact absurd rfl hsums
  | adaptive sums scaling => rw [hsums.2, show scaling = reals scales from hscales]

end Scale

namespace Stochastic

section Round

variable {G : Type} [IndexSource G] {settings : StochasticSettings Extended} {l1 l2 epsilon : ℝ}
  {k : Nat} {squares x e g : Fin n → ℝ} {s t : Stochastic (StepRule Extended) G Extended}

/-- A round leaves the rule with the estimate that it has used, and with the scales of its
step. -/
theorem Tracks.rule_of_passes (w : settings.Weighs l1 l2 epsilon)
    (h : Tracks settings .adaptive l2 k squares x e g s) (hsquares : ∀ i, 0 ≤ squares i)
    (hpasses : Passes s t) :
    t.rule = .adaptive (reals (squares + g * g))
      (reals (stepScale .adaptive epsilon (squares + g * g))) := by
  obtain ⟨rule, direction, step, raw, problem, gradient, hmoves, -, -, -, -, -, rfl, -⟩ :=
    hpasses.exists_moves
  obtain ⟨next, hsums, hscales, hdirection⟩ := w.exists_direction h.rule hsquares g
  have hproposed := hmoves.proposed
  rw [h.settings, h.gradient] at hproposed
  rw [(Prod.mk.inj (hproposed.symm.trans hdirection)).2]
  exact StepRule.eq_adaptive hsums hscales

/-- Without a penalty on absolute values and without bounds no coordinate moves by a whole
step. -/
theorem Tracks.abs_sub_lt_of_passes (w : settings.Weighs 0 l2 epsilon)
    (hbox : settings.box = ⟨none, none⟩) (h : Tracks settings .adaptive l2 k squares x e g s)
    (hsquares : ∀ i, 0 ≤ squares i) {a : ℝ} (ha : 0 < a)
    (hstep : settings.schedule.compute (k : Extended) settings.parameters = .ok (real a))
    (hpasses : Passes s t) {y : Fin n → ℝ} (hy : t.point = reals y) (i : Fin n) :
    |y i - x i| < a := by
  have hsize : settings.box.checkDimension n = .ok () := by
    rw [hbox]
    rfl
  have hregion : (settings.box.region n).Nonempty := by
    rw [hbox]
    exact ⟨0, fun i => Box.between_of_unbounded i 0⟩
  obtain ⟨y', e', g', hnext, hnearest⟩ := h.of_passes w hsize hregion hsquares hstep hpasses
  obtain rfl := reals_injective (hy.symm.trans hnext.point)
  have hmoved := hnearest i
  rw [hbox, mul_zero, Threshold.shrink_zero] at hmoved
  have hlength := abs_stepScale_mul_lt w.epsilon_pos hsquares g i
  generalize stepScale .adaptive epsilon (squares + g * g) i = scale at hmoved hlength
  rw [hmoved.eq_of_mem (Box.between_of_unbounded i _)]
  calc |x i - a * scale * g i - x i| = a * |scale * g i| := by
        rw [sub_sub_cancel_left, mul_assoc, abs_neg, abs_mul, abs_of_pos ha]
    _ < a * 1 := mul_lt_mul_of_pos_left hlength ha
    _ = a := mul_one a

end Round

section Create

variable {G : Type} [SeededSource G] {settings : StochasticSettings Extended}
  {l1 l2 epsilon : ℝ} {x₀ : Fin n → ℝ} {problem : Problem Extended G} {start : Nested Extended}
  {keeps : Bool} {solver : Stochastic (StepRule Extended) G Extended} {k : Nat}
  {run : Nat → Stochastic (StepRule Extended) G Extended}

theorem start_adaptive (n : Nat) :
    StepRule.start .adaptive n = .adaptive (reals (0 : Fin n → ℝ)) (reals (1 : Fin n → ℝ)) := by
  have hones : List.replicate n (1 : Extended) = reals (1 : Fin n → ℝ) :=
    (List.ofFn_const n (real 1)).symm
  rw [StepRule.start, zeros_eq_reals, hones]

theorem rule_of_create (hstart : start.toPoint = .ok (reals x₀))
    (hcreate : create .adaptive settings problem start keeps = .ok solver) :
    solver.rule = .adaptive (reals (0 : Fin n → ℝ)) (reals (1 : Fin n → ℝ)) := by
  obtain ⟨point, hpoint, -, hstarted⟩ := exists_start_of_create hcreate
  obtain rfl := Except.ok.inj (hstart.symm.trans hpoint)
  obtain ⟨_, _, -, -, -, -, hrule, -⟩ := exists_of_start hstarted
  rw [hrule, if_pos rfl, length_reals, start_adaptive]

/-- The scales that an adaptive solver has at an entry of its run. -/
noncomputable def scalesOf (epsilon : ℝ) (g : Nat → Fin n → ℝ) : Nat → Fin n → ℝ
  | 0 => 1
  | k + 1 => stepScale .adaptive epsilon (squaresOf g (k + 1))

/-- After so many iterations an adaptive solver has summed up the squares of the estimates
that these have used, with the penalty on squares.  From one step to the next its scales do
not grow.  Without the other penalty and without bounds every coordinate moves by less than
the step of the schedule. -/
theorem adaptive_accumulates {lower upper : Option (Nested Extended)} {parameters : List ℝ}
    (w : settings.Weighs l1 l2 epsilon) (hbox : Box.ofBounds lower upper = .ok settings.box)
    (hproper : settings.box.Proper) (hparameters : settings.parameters = parameters.map real)
    (hvalid : settings.schedule.validate settings.parameters = .ok ())
    (hproblem : problem.EstimatesReals n) (hstart : start.toPoint = .ok (reals x₀))
    (hcreate : create .adaptive settings problem start keeps = .ok solver)
    (hrun : IsRun solver run k) :
    ∃ x e g scaling : Nat → Fin n → ℝ,
      (∀ j ≤ k, Estimated l2 (x j) (e j) (g j) (run j) ∧
        (run j).rule = .adaptive (reals (∑ i ∈ Finset.range j, g i * g i)) (reals (scaling j))) ∧
      (∀ i j, 0 < i → i ≤ j → j ≤ k → scaling j ≤ scaling i) ∧
      (l1 = 0 → settings.box = ⟨none, none⟩ → ∀ j < k, ∃ a,
        settings.schedule.compute (j : Extended) settings.parameters = .ok (real a) ∧
        ∀ i, |x (j + 1) i - x j i| < a) := by
  obtain ⟨hsize, e₀, g₀, hfirst⟩ := exists_tracks_of_create w hproblem hstart hcreate
  have hregion := Box.region_nonempty hbox hsize hproper
  rw [hparameters] at hvalid
  have hrange := Schedule.inRange_of_validate hvalid
  have hsteps : ∀ j : Nat, settings.schedule.compute (j : Extended) settings.parameters =
      .ok (real (settings.schedule.step parameters j)) := by
    intro j
    rw [hparameters]
    exact Schedule.compute_reals hrange j
  obtain ⟨x, e, g, htracks⟩ := exists_tracks w hsize hregion hrun hfirst fun j _ => hsteps j
  have hrules : ∀ j ≤ k,
      (run j).rule = .adaptive (reals (squaresOf g j)) (reals (scalesOf epsilon g j)) := by
    intro j hj
    cases j with
    | zero =>
      rw [hrun.start]
      show solver.rule = _
      exact rule_of_create hstart hcreate
    | succ j =>
      have hrule := (htracks j (Nat.le_of_succ_le hj)).rule_of_passes w (squaresOf_nonneg g j)
        (hrun.passes j hj)
      rw [hrule, scalesOf, squaresOf, squaresOf, Finset.sum_range_succ]
  refine ⟨x, e, g, scalesOf epsilon g, fun j hj => ⟨(htracks j hj).toEstimated, hrules j hj⟩,
    fun i j hi hij _ => ?_, fun hl1 hopen j hj => ⟨_, hsteps j, ?_⟩⟩
  · obtain ⟨i, rfl⟩ := Nat.exists_eq_succ_of_ne_zero hi.ne'
    obtain ⟨j, rfl⟩ := Nat.exists_eq_succ_of_ne_zero (hi.trans_le hij).ne'
    exact stepScale_antitone w.epsilon_pos (squaresOf_mono g hij)
  · subst hl1
    exact (htracks j hj.le).abs_sub_lt_of_passes w hopen (squaresOf_nonneg g j)
      (Schedule.step_pos hrange j) (hsteps j) (hrun.passes j hj) (htracks (j + 1) hj).point

end Create

/-! ### Gliding down a line

The estimate is always one, so that the sums count the iterations. -/

/-- Two iterations with a step of one, without penalties and bounds. -/
noncomputable def glideSettings : StochasticSettings Extended :=
  { tiltSettings with maxIterations := 2, box := ⟨none, none⟩, l1 := 0, l2 := 0 }

theorem glide_weighs : glideSettings.Weighs 0 0 1 := ⟨rfl, rfl, rfl, le_rfl, le_rfl, one_pos⟩

/-- The scales for estimates that are all one. -/
noncomputable def glideScales : Nat → Fin 1 → ℝ := scalesOf 1 fun _ => 1

noncomputable def glide : Walk (StepRule Extended) Generator Extended where
  rule k := .adaptive (reals (squaresOf (fun _ => (1 : Fin 1 → ℝ)) k)) (reals (glideScales k))
  problem _ := tilt
  point k := reals (-∑ j ∈ Finset.range k, glideScales (j + 1))
  gradient _ := reals (1 : Fin 1 → ℝ)
  direction k := reals (-glideScales (k + 1))
  step _ := real 1

theorem glide_penalised (x : Fin 1 → ℝ) :
    penalised glideSettings (reals x) (reals (1 : Fin 1 → ℝ)) = .ok (reals (1 : Fin 1 → ℝ)) := by
  have h := glide_weighs.penalised_reals x 1
  rw [mul_zero, zero_smul, add_zero] at h
  exact h

theorem glide_follows (k : Nat) : glide.Follows glideSettings k := by
  have hsum : squaresOf (fun _ => (1 : Fin 1 → ℝ)) k + 1 * 1 = squaresOf (fun _ => 1) (k + 1) :=
    (Finset.sum_range_succ _ k).symm
  have hbefore : (glide.rule k).Sums .adaptive (squaresOf (fun _ => (1 : Fin 1 → ℝ)) k) :=
    ⟨rfl, rfl⟩
  obtain ⟨next, hsums, hscales, hdirection⟩ :=
    glide_weighs.exists_direction hbefore (squaresOf_nonneg (fun _ => 1) k) 1
  rw [hsum] at hsums hscales hdirection
  have hrule : next = glide.rule (k + 1) := StepRule.eq_adaptive hsums hscales
  rw [hrule, neg_one_mul] at hdirection
  have hmoved : (glide.point k).along (glide.step k) (glide.direction k) =
      .ok (glide.point (k + 1)) := by
    show (reals _).along (real 1) (reals (-glideScales (k + 1))) = .ok (reals _)
    rw [along_reals, Finset.sum_range_succ, one_smul, neg_add]
  have hreach := glide_weighs.reach_reals (hrule ▸ hscales) hmoved
  simp only [mul_zero, Threshold.shrink_zero] at hreach
  exact ⟨hdirection, rfl, ⟨_, hreach, rfl⟩, _, rfl, glide_penalised _⟩

theorem glide_returns : glide.Returns glideSettings tilt where
  gradient := ⟨tilt, _, rfl, rfl, glide_penalised _⟩
  follows k _ := glide_follows k
  difference _ _ _ hchecks := absurd hchecks Bool.false_ne_true
  predicate _ _ _ _ _ hp := nomatch hp

theorem adaptive_accumulates_glide :
    ∃ (solver : Stochastic (StepRule Extended) Generator Extended) (run : Nat → _)
      (x g scaling : Nat → Fin 1 → ℝ),
      create .adaptive glideSettings tilt (Nested.ofVec [0]) true = .ok solver ∧
      IsRun solver run 2 ∧
      (run 2).rule = .adaptive (reals (∑ i ∈ Finset.range 2, g i * g i)) (reals (scaling 2)) ∧
      scaling 2 ≤ scaling 1 ∧ (run 2).point = reals (x 2) ∧ |x 2 0 - x 1 0| < 1 := by
  obtain ⟨solver, k, e, -, run, hstarted, -, hrun, hreaches, hfirst, -⟩ :=
    glide_returns.exists_solve .adaptive true
  have hlimit : glide.Ends glideSettings 2 .limit := Nat.le_refl 2
  obtain rfl : k = 2 := by
    refine le_antisymm (Nat.le_of_not_lt fun hlt => hreaches 2 hlt .limit hlimit) ?_
    cases e with
    | limit => exact hfirst.1
    | point => exact absurd hfirst.1.1 Bool.false_ne_true
    | custom =>
      obtain ⟨_, hp, -⟩ := hfirst.1
      cases hp
  have hpoint : (Nested.ofVec [(0 : Extended)]).toPoint = .ok (reals (0 : Fin 1 → ℝ)) :=
    Nested.toPoint_ofVec (List.cons_ne_nil _ _)
  have hrule : glide.rule 0 = StepRule.start .adaptive 1 := (start_adaptive 1).symm
  have hzero : glide.point 0 = reals 0 := congrArg reals neg_zero
  rw [hrule, hzero] at hstarted
  have hcreate : create .adaptive glideSettings tilt (Nested.ofVec [0]) true = .ok solver :=
    (create_eq_start .adaptive glideSettings tilt true hpoint rfl).trans hstarted
  have hbox : Box.ofBounds none none = .ok glideSettings.box := rfl
  have hproper : glideSettings.box.Proper := ⟨(fun _ h => nomatch h), fun _ h => nomatch h⟩
  have hparameters : glideSettings.parameters = ([1] : List ℝ).map real := rfl
  have hvalid : glideSettings.schedule.validate glideSettings.parameters = .ok () :=
    Fault.refuse_eq_ok_iff.mpr (one_pos (α := ℝ)).not_ge
  obtain ⟨x, e, g, scaling, hrules, hantitone, hmoves⟩ := adaptive_accumulates
    glide_weighs hbox hproper hparameters hvalid tilt_estimates hpoint hcreate hrun
  obtain ⟨a, hstep, hless⟩ := hmoves rfl rfl 1 (Nat.lt_succ_self 1)
  obtain rfl : 1 = a := real.inj (Except.ok.inj hstep)
  exact ⟨solver, run, x, g, scaling, hcreate, hrun, (hrules 2 le_rfl).2,
    hantitone 1 2 Nat.one_pos (Nat.le_succ 1) le_rfl, (hrules 2 le_rfl).1.point, hless 0⟩

end Stochastic

end Downhill
