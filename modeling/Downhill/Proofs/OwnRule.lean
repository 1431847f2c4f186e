import Downhill.Objective.Basic
import Downhill.Proofs.Descent.Alignment
import Downhill.Proofs.Stochastic.Stopping

/-!
# Success by a rule of the caller's own

A line search solver asks the rule of the caller's own before it looks at the limit on
iterations, a stochastic solver asks it after that.  So when the rule holds where a run
returns, the result is a success, unless a stochastic solver has used up its iterations:
there its checks look at the limit alone, and the result is no success whatever holds.
-/

namespace Downhill

variable {α : Type}

/-! ## Line search solvers -/

namespace Descent

open DescentM

variable {R S : Type} [Scalar α] [DirectionRule R α] {s t : Descent R S α}

/-- A check at a point where the rule of the caller's own holds ends the run. -/
theorem converged_of_check {stops : Bool} (h : check.on s = (.ok stops, t)) {p : Predicate α}
    (hp : s.settings.predicate = some p) (hholds : p s.current.point = .ok true) :
    t.converged = true := by
  cases hlong : (s.gradientMeasured.settings.checksGradient &&
      gradientIsShort s.gradientMeasured.gradientNorm
        s.gradientMeasured.settings.gradientTolerance) with
  | true =>
    obtain ⟨hchecks, hshort⟩ := Bool.and_eq_true_iff.mp hlong
    cases (check_of_short hchecks hshort).symm.trans h
    rfl
  | false =>
    have hpredicate : predicateHolds.on s.gradientMeasured = (.ok true, s.gradientMeasured) := by
      refine predicateHolds_on (fun p' hp' => ?_) fun hnone => ?_
      · cases hp'.symm.trans hp
        exact hholds
      · cases hnone.symm.trans hp
    cases (check_of_predicate rfl hlong hpredicate).symm.trans h
    unfold converged
    exact Bool.or_true _

end Descent

/-! ## Stochastic solvers -/

namespace Stochastic

open StochasticM

variable {R G : Type}

section Estimates

variable [Scalar α] [IndexSource G]

theorem objective_rawEstimate (problem : Problem α G) (batch : Nat) (p : Vec α) :
    (rawEstimate problem batch p).2.objective = problem.objective := by
  cases problem with
  | plain f => rfl
  | quadratic q => rfl
  | empirical e sampler => rfl

end Estimates

section Start

variable [Scalar α] [SeededSource G]

theorem objective_of_prepare {settings : StochasticSettings α} {problem prepared : Problem α G}
    (h : prepare settings problem = .ok prepared) : prepared.objective = problem.objective := by
  cases problem with
  | plain f =>
    cases h
    rfl
  | quadratic q =>
    cases h
    rfl
  | empirical e sampler =>
    unfold prepare at h
    dsimp only at h
    split at h
    · cases h
      rfl
    · obtain ⟨source, -, h⟩ := Fault.bind_eq_ok_iff.mp h
      cases h
      rfl

theorem converged_of_start {kind : SolverKind} {settings : StochasticSettings α}
    {problem : Problem α G} {rule : R} {keeps : Bool} {point : Vec α} {solver : Stochastic R G α}
    (h : start kind settings problem rule keeps point = .ok solver) :
    solver.converged = false ∧ solver.problem.objective = problem.objective := by
  obtain ⟨prepared, raw, hprepared, hraw, -⟩ := exists_of_start h
  constructor
  · unfold start at h
    obtain ⟨_, -, h⟩ := Fault.bind_eq_ok_iff.mp h
    dsimp only at h
    rw [estimate_on] at h
    obtain ⟨gradient, -, h⟩ := Fault.bind_eq_ok_iff.mp h
    cases h
    rfl
  · have hkept := objective_rawEstimate prepared settings.batchSize point
    rw [hraw] at hkept
    exact hkept.trans (objective_of_prepare hprepared)

end Start

section Check

variable [Scalar α] {s t : Stochastic R G α}

theorem customConverged_of_measurePoint (h : measurePoint.on s = (.ok (), t)) :
    t.customConverged = s.customConverged := by
  unfold measurePoint at h
  rw [on_bind (on_get s)] at h
  split at h
  · cases h
    rfl
  · obtain ⟨difference, _, hanswer, h⟩ := exists_of_on_bind h
    obtain rfl := congrArg Prod.snd hanswer
    cases h
    rfl

theorem check_at_limit (h : s.iteration = s.settings.maxIterations) :
    check.on s = (.ok true, s) := by
  by_cases hzero : s.iteration = 0
  · rw [check_of_first hzero, ← h, hzero]
    rfl
  · exact check_of_limit hzero h.ge

/-- Before the limit a check stops the loop just when the point has come to rest. -/
theorem converged_of_check {stops : Bool} (h : check.on s = (.ok stops, t))
    (hlimit : s.iteration < s.settings.maxIterations) (hs : s.converged = false) :
    t.converged = stops := by
  obtain ⟨hpoint, hcustom⟩ := Bool.or_eq_false_iff.mp hs
  unfold check at h
  rw [on_bind (on_get s)] at h
  split_ifs at h with hzero hreached hchecks
  · cases h
    rw [hs]
    exact (decide_eq_false (by omega)).symm
  · exact absurd hlimit (not_lt.mpr hreached)
  · obtain ⟨_, u, hmeasured, h⟩ := exists_of_on_bind h
    have hkept := customConverged_of_measurePoint hmeasured
    cases h
    unfold converged
    rw [hkept, hcustom, Bool.or_false]
  · cases h
    rw [hs, hpoint]

end Check

section Loop

variable [Elementary α] [IndexSource G] [StochasticRule R α] {s t : Stochastic R G α}

/-- An iteration decides nothing and keeps the objective. -/
theorem converged_of_advance (h : advance.on s = (.ok (), t)) :
    t.converged = s.converged ∧ t.iteration = s.iteration + 1 ∧ t.settings = s.settings ∧
      t.problem.objective = s.problem.objective := by
  obtain ⟨rule, direction, step, point, hmoves⟩ := exists_moves_of_advance h
  obtain ⟨raw, problem, gradient, hraw, -, rfl⟩ := (hmoves.advance_on.2 t).mp h
  have hkept := objective_rawEstimate s.problem s.settings.batchSize point
  rw [hraw] at hkept
  exact ⟨rfl, rfl, rfl, hkept⟩

/-- A loop that has not ended before ends without a reason of its own just at the limit. -/
theorem converged_of_iterate {left : Nat} (h : (iterate left).on s = (.ok (), t))
    (hleft : s.iteration + left = s.settings.maxIterations) (hs : s.converged = false) :
    (t.converged = false ↔ t.iteration = s.settings.maxIterations) ∧
      t.problem.objective = s.problem.objective := by
  induction left generalizing s with
  | zero =>
    cases (iterate_of_stop 0 (check_at_limit hleft)).symm.trans h
    exact ⟨iff_of_true hs hleft, rfl⟩
  | succ left ih =>
    have hlimit : s.iteration < s.settings.maxIterations := by omega
    unfold iterate at h
    obtain ⟨stops, checked, hcheck, h⟩ := exists_of_on_bind h
    have halike := alike_of_check hcheck
    have hstops := converged_of_check hcheck hlimit hs
    have hbefore : checked.iteration ≠ s.settings.maxIterations := by
      rw [halike.iteration]
      exact hlimit.ne
    cases stops with
    | true =>
      cases h
      refine ⟨iff_of_false ?_ hbefore, congrArg Problem.objective halike.problem⟩
      rw [hstops]
      exact Bool.noConfusion
    | false =>
      rw [if_neg Bool.false_ne_true] at h
      obtain ⟨holds, _, hpredicate, h⟩ := exists_of_on_bind h
      obtain rfl := eq_of_predicateHolds hpredicate
      cases holds with
      | true =>
        cases h
        refine ⟨iff_of_false ?_ hbefore, congrArg Problem.objective halike.problem⟩
        unfold converged
        rw [Bool.or_true]
        exact Bool.noConfusion
      | false =>
        rw [if_neg Bool.false_ne_true] at h
        obtain ⟨_, advanced, hadvance, h⟩ := exists_of_on_bind h
        obtain ⟨_, recorded, hrecord, h⟩ := exists_of_on_bind h
        obtain ⟨hkept, hiteration, hsettings, hobjective⟩ := converged_of_advance hadvance
        obtain ⟨events, hnoted⟩ := record_on advanced
        obtain rfl := congrArg Prod.snd (hnoted.symm.trans hrecord)
        rw [halike.settings] at hsettings
        rw [halike.iteration] at hiteration
        rw [halike.problem] at hobjective
        have hcount : advanced.iteration + left = advanced.settings.maxIterations := by
          rw [hsettings, hiteration]
          omega
        have hnext := ih h hcount (hkept.trans hstops)
        dsimp only at hnext
        rwa [hsettings, hobjective] at hnext

end Loop

end Stochastic

/-! ## All solvers -/

/-- The stopping rule of the caller's own. -/
def Settings.predicate : Settings α → Option (Predicate α)
  | descent s => s.predicate
  | stochastic s => s.predicate
  | unsupported _ => none

namespace Solver

variable [Elementary α] {G : Type} [SeededSource G] {kind : SolverKind} {settings : Settings α}
  {problem : Problem α G} {start : Nested α} {keeps : Bool} {solver final : Solver α G} {x : Vec α}

omit [SeededSource G] in
theorem success_of_descent {settings : DescentSettings α}
    {solver final : Descent (Strategy α) (Search α) α}
    (hcreate : Descent.create kind settings problem start keeps = .ok solver)
    (hsolve : Descent.solve.on solver = (.ok x, final)) {p : Predicate α}
    (hp : settings.predicate = some p) (hholds : p x = .ok true) :
    final.converged = true ∧ final.point = x := by
  obtain ⟨x₀, rule, search, counts, -, -, -, hstarted⟩ := Descent.exists_start_of_create hcreate
  obtain ⟨n, -, run, hrun, stops, checked, hcheck, rfl, rfl⟩ :=
    Descent.exists_run_of_solve hsolve
  obtain ⟨-, -, -, hkept⟩ := Descent.aligned_of_isRun hstarted hrun
  rw [← (hkept n (Nat.le_refl n)).1] at hp
  have hpoint : checked.point = (run n).current.point :=
    congrArg Iterate.point (Descent.alike_of_check hcheck).current
  rw [hpoint] at hholds
  have hconverged := Descent.converged_of_check hcheck hp hholds
  exact ⟨hconverged, rfl⟩

theorem success_of_stochastic {settings : StochasticSettings α}
    {solver final : Stochastic (StepRule α) G α}
    (hcreate : Stochastic.create kind settings problem start keeps = .ok solver)
    (hsolve : Stochastic.solve.on solver = (.ok x, final)) :
    (final.converged = false ↔ final.iteration = settings.maxIterations) ∧ final.point = x ∧
      final.problem.objective = problem.objective := by
  obtain ⟨x₀, -, -, hstarted⟩ := Stochastic.exists_start_of_create hcreate
  obtain ⟨_, _, -, -, -, hsettings, -, hzero, -⟩ := Stochastic.exists_of_start hstarted
  obtain ⟨hconverged, hobjective⟩ := Stochastic.converged_of_start hstarted
  unfold Stochastic.solve at hsolve
  rw [StochasticM.on_bind (StochasticM.on_modify solver _),
    StochasticM.on_bind (StochasticM.on_get _)] at hsolve
  obtain ⟨_, ended, hloop, hsolve⟩ := StochasticM.exists_of_on_bind hsolve
  rw [StochasticM.on_bind (StochasticM.on_get ended),
    StochasticM.on_bind (StochasticM.on_modify ended _)] at hsolve
  cases hsolve
  have hcount : solver.iteration + (solver.settings.maxIterations - solver.iteration) =
      solver.settings.maxIterations := by omega
  obtain ⟨hends, hkept⟩ := Stochastic.converged_of_iterate hloop hcount hconverged
  rw [← hsettings]
  exact ⟨hends, rfl, hkept.trans hobjective⟩

omit [SeededSource G] in
theorem exists_summary [IndexSource G] {s : Stochastic (StepRule α) G α} {value : α}
    (h : s.problem.objective.value s.point = .ok value) :
    ∃ found last, (Solver.stochastic s).summary = (.ok found, last) ∧ found.point = s.point ∧
      found.iterations = s.iteration ∧ found.success = s.converged := by
  have hsummary := Stochastic.summary_on s h
  refine ⟨_, (Solver.stochastic s).summary.2, Prod.ext hsummary rfl, ?_⟩
  exact ⟨rfl, rfl, rfl⟩

/-- When the rule of the caller's own holds at the point that a run returns, the result
that is read off afterwards is a success, unless the solver is a stochastic one and has made
as many iterations as it may. -/
theorem success_of_predicate (hcreate : createKind kind settings problem start keeps = .ok solver)
    (hsolve : solver.solve = (.ok x, final)) {p : Predicate α} (hp : settings.predicate = some p)
    (hholds : p x = .ok true) {value : α} (hvalue : problem.objective.value x = .ok value) :
    ∃ found last, final.summary = (.ok found, last) ∧ found.point = x ∧
      (found.success = false ↔
        ∃ s, settings = .stochastic s ∧ found.iterations = s.maxIterations) := by
  cases settings with
  | descent s =>
    obtain ⟨created, hcreated, h⟩ := Fault.bind_eq_ok_iff.mp hcreate
    cases h
    obtain ⟨hresult, rfl⟩ := Prod.mk.inj hsolve
    obtain ⟨hconverged, hpoint⟩ := success_of_descent hcreated (Prod.ext hresult rfl) hp hholds
    refine ⟨_, _, rfl, hpoint, iff_of_false ?_ ?_⟩
    · exact fun hfails => Bool.noConfusion (hfails.symm.trans hconverged)
    · rintro ⟨_, hdescent, -⟩
      cases hdescent
  | stochastic s =>
    obtain ⟨created, hcreated, h⟩ := Fault.bind_eq_ok_iff.mp hcreate
    cases h
    obtain ⟨hresult, rfl⟩ := Prod.mk.inj hsolve
    obtain ⟨hends, hpoint, hobjective⟩ := success_of_stochastic hcreated (Prod.ext hresult rfl)
    rw [← hobjective, ← hpoint] at hvalue
    obtain ⟨found, last, hfound, hsame, hcount, hsuccess⟩ := exists_summary hvalue
    refine ⟨found, last, hfound, hsame.trans hpoint, ?_⟩
    rw [hsuccess, hcount, hends]
    constructor
    · exact fun hlimit => ⟨s, rfl, hlimit⟩
    · rintro ⟨_, hsettings, hlimit⟩
      cases hsettings
      exact hlimit
  | unsupported name => cases hcreate

end Solver

/-! ### A slide

Steps of one lead down a line, and the rule of the caller's own begins to hold where the
third one leads.  Three iterations are all that there may be. -/

namespace Stochastic

open Walk

noncomputable def slideProblem : Problem Extended Generator :=
  .plain (Objective.linear [1] 0)

noncomputable def slide : Walk (StepRule Extended) Generator Extended where
  rule _ := .plain
  problem _ := slideProblem
  point k := Vec.reals fun _ : Fin 1 => -(k : ℝ)
  gradient _ := Vec.reals fun _ : Fin 1 => 1
  direction _ := Vec.reals fun _ : Fin 1 => -1
  step _ := 1

noncomputable def slideRule : Predicate Extended := fun x =>
  .ok (decide (x.headD 0 ≤ Extended.real (-3)))

noncomputable def slideSettings : StochasticSettings Extended :=
  { settlingSettings with maxIterations := 3, checksPoint := false, predicate := some slideRule }

theorem slide_weighs : slideSettings.Weighs 0 0 1 :=
  ⟨rfl, rfl, rfl, le_rfl, le_rfl, one_pos⟩

theorem slideRule_point (k : Nat) : slideRule (slide.point k) = .ok (decide (3 ≤ k)) := by
  have hiff : Extended.real (-(k : ℝ)) ≤ Extended.real (-3) ↔ 3 ≤ k := by
    rw [Extended.real_le_real, neg_le_neg_iff]
    exact Nat.ofNat_le_cast
  show Except.ok (decide (Extended.real (-(k : ℝ)) ≤ Extended.real (-3))) = _
  rw [decide_eq_decide.mpr hiff]

theorem slide_penalised (k : Nat) :
    penalised slideSettings (slide.point k) [1] = .ok (slide.gradient k) := by
  have h := slide_weighs.penalised_reals (fun _ : Fin 1 => -(k : ℝ)) fun _ => 1
  rw [mul_zero, zero_smul, add_zero] at h
  exact h

theorem slide_follows (k : Nat) : slide.Follows slideSettings k where
  direction := congrArg (fun d => (Except.ok d, StepRule.plain)) (Vec.neg_reals fun _ : Fin 1 => 1)
  step := rfl
  point := by
    have hmoved : (fun _ : Fin 1 => -(k : ℝ)) + (1 : ℝ) • (fun _ => -1) =
        fun _ => -((k + 1 : ℕ) : ℝ) := by
      funext i
      simp only [Pi.add_apply, Pi.smul_apply, smul_eq_mul, Nat.cast_add, Nat.cast_one]
      ring
    have halong := Vec.along_reals (fun _ : Fin 1 => -(k : ℝ)) (fun _ => -1) 1
    rw [hmoved] at halong
    have hreach := slide_weighs.reach_reals (show StepRule.plain.Scales 1 from rfl) halong
    simp only [mul_zero, Threshold.shrink_zero] at hreach
    exact ⟨_, hreach, rfl⟩
  gradient := ⟨_, rfl, slide_penalised (k + 1)⟩

theorem slide_returns : slide.Returns slideSettings slideProblem where
  gradient := ⟨slideProblem, _, rfl, rfl, slide_penalised 0⟩
  follows k _ := slide_follows k
  difference _ _ _ hchecks := absurd hchecks Bool.false_ne_true
  predicate k _ _ _ p hp := by
    obtain rfl := Option.some.inj hp
    exact ⟨_, slideRule_point k⟩

theorem exists_solve_slide : ∃ solver final : Solver Extended Generator,
    Solver.createKind .stochastic (.stochastic slideSettings) slideProblem (Nested.ofVec [0]) true =
        .ok solver ∧
      solver.solve = (.ok (slide.point 3), final) ∧
      ∃ found last, final.summary = (.ok found, last) ∧ found.iterations = 3 ∧
        found.success = false := by
  obtain ⟨solver, k, e, final, -, hstart, hsolve, -, hreaches, hfirst, hstopped, -⟩ :=
    slide_returns.exists_solve .stochastic true
  have hle : k ≤ 3 := Nat.le_of_not_lt fun hlt => hreaches 3 hlt .limit (Nat.le_refl 3)
  obtain rfl : k = 3 := by
    refine Nat.le_antisymm hle ?_
    cases e with
    | limit => exact hfirst.1
    | point => exact absurd hfirst.1.1 Bool.false_ne_true
    | custom =>
      obtain ⟨p, hp, hholds⟩ := hfirst.1
      obtain rfl := Option.some.inj hp
      rw [slideRule_point] at hholds
      exact of_decide_eq_true (Except.ok.inj hholds)
  obtain rfl : e = .limit := by
    have hplace : e.place ≤ 0 := hfirst.2 .limit (Nat.le_refl 3)
    cases e with
    | limit => rfl
    | point | custom => exact absurd hplace (by decide)
  have hpoint : (Nested.ofVec [(0 : Extended)]).toPoint = .ok (slide.point 0) := by
    have hzero : -((0 : ℕ) : ℝ) = 0 := by norm_num
    rw [Nested.toPoint_ofVec (List.cons_ne_nil _ _)]
    exact congrArg (fun x : ℝ => Except.ok [Extended.real x]) hzero.symm
  have hcreate : Stochastic.create .stochastic slideSettings slideProblem (Nested.ofVec [0]) true =
      .ok solver :=
    (Stochastic.create_eq_start .stochastic slideSettings slideProblem true hpoint rfl).trans hstart
  have hsummary := hstopped.summary _ rfl
  refine ⟨.stochastic solver, .stochastic final, ?_, ?_, _, _, Prod.ext hsummary rfl, rfl, rfl⟩
  · exact Fault.bind_eq_ok_iff.mpr ⟨solver, hcreate, rfl⟩
  · show (Stochastic.solve.on solver).map id Solver.stochastic = _
    rw [hsolve]
    rfl

theorem success_of_predicate_slide : ∃ (solver final : Solver Extended Generator)
    (found : Summary Extended) (last : Solver Extended Generator),
    Solver.createKind .stochastic (.stochastic slideSettings) slideProblem (Nested.ofVec [0]) true =
        .ok solver ∧
      solver.solve = (.ok (slide.point 3), final) ∧ slideRule (slide.point 3) = .ok true ∧
      final.summary = (.ok found, last) ∧ found.point = slide.point 3 ∧
      (found.success = false ↔
        ∃ s, Settings.stochastic slideSettings = .stochastic s ∧
          found.iterations = s.maxIterations) := by
  obtain ⟨solver, final, hcreate, hsolve, -⟩ := exists_solve_slide
  have hholds : slideRule (slide.point 3) = .ok true := slideRule_point 3
  have hvalue : slideProblem.objective.value (slide.point 3) =
      .ok (Vec.total [1 * Extended.real (-(3 : ℕ))] + 0) := rfl
  obtain ⟨found, last, hfound, hpoint, hiff⟩ :=
    Solver.success_of_predicate hcreate hsolve (p := slideRule) rfl hholds hvalue
  exact ⟨solver, final, found, last, hcreate, hsolve, hholds, hfound, hpoint, hiff⟩

/-- The rule of the caller's own holds where the run returns, and the result is no success. -/
theorem success_denied_slide : ∃ (solver final : Solver Extended Generator) (x : Vec Extended)
    (found : Summary Extended) (last : Solver Extended Generator),
    Solver.createKind .stochastic (.stochastic slideSettings) slideProblem (Nested.ofVec [0]) true =
        .ok solver ∧
      solver.solve = (.ok x, final) ∧ slideSettings.predicate = some slideRule ∧
      slideRule x = .ok true ∧ final.summary = (.ok found, last) ∧
      found.iterations = slideSettings.maxIterations ∧ found.success = false := by
  obtain ⟨solver, final, hcreate, hsolve, found, last, hfound, hcount, hfails⟩ :=
    exists_solve_slide
  exact ⟨solver, final, _, found, last, hcreate, hsolve, rfl, slideRule_point 3, hfound, hcount,
    hfails⟩

end Stochastic

end Downhill
