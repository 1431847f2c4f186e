import Downhill.Minimize
import Downhill.Proofs.Sequence

/-!
# Runs of a stochastic solver

What the parts of an iteration do to a solver, and what a round of the loop does.  A
check and a note change nothing that an iteration reads.  The next point is found before
the gradient there is estimated, so it is there even if the estimate fails.
-/

namespace Downhill

variable {R G α β γ : Type}

namespace StochasticM

variable (s : Stochastic R G α)

@[simp] theorem on_pure (b : β) : (pure b : StochasticM R G α β).on s = (.ok b, s) := rfl

@[simp] theorem on_get : (get : StochasticM R G α (Stochastic R G α)).on s = (.ok s, s) := rfl

@[simp] theorem on_set (s' : Stochastic R G α) :
    (set s' : StochasticM R G α PUnit).on s = (.ok ⟨⟩, s') := rfl

@[simp] theorem on_modify (f : Stochastic R G α → Stochastic R G α) :
    (modify f : StochasticM R G α PUnit).on s = (.ok ⟨⟩, f s) := rfl

@[simp] theorem on_answer (result : Except Fault β) :
    (answer result : StochasticM R G α β).on s = (result, s) := rfl

variable {s} {t : Stochastic R G α} {x : StochasticM R G α β}

theorem on_bind {b : β} (h : x.on s = (.ok b, t)) (f : β → StochasticM R G α γ) :
    (x >>= f).on s = (f b).on t := run_bind_of_ok h

theorem on_bind_of_error {fault : Fault} (h : x.on s = (.error fault, t))
    (f : β → StochasticM R G α γ) : (x >>= f).on s = (.error fault, t) := run_bind_of_error h

theorem exists_of_on_bind {f : β → StochasticM R G α γ} {c : γ}
    (h : (x >>= f).on s = (.ok c, t)) :
    ∃ b u, x.on s = (.ok b, u) ∧ (f b).on u = (.ok c, t) := exists_of_run_bind h

end StochasticM

namespace Stochastic

open StochasticM

/-- States of a solver that an iteration does not tell apart. -/
structure Alike (s t : Stochastic R G α) : Prop where
  settings : t.settings = s.settings
  problem : t.problem = s.problem
  rule : t.rule = s.rule
  iteration : t.iteration = s.iteration
  point : t.point = s.point
  gradient : t.gradient = s.gradient

theorem Alike.refl (s : Stochastic R G α) : Alike s s := ⟨rfl, rfl, rfl, rfl, rfl, rfl⟩

/-! ## Checks and notes -/

section Check

variable [Scalar α] {s t : Stochastic R G α}

theorem alike_of_measurePoint (h : measurePoint.on s = (.ok (), t)) : Alike s t := by
  unfold measurePoint at h
  rw [on_bind (on_get s)] at h
  split at h
  · obtain rfl : s = t := congrArg Prod.snd h
    exact Alike.refl s
  · obtain ⟨difference, _, hanswer, h⟩ := exists_of_on_bind h
    obtain rfl : s = _ := congrArg Prod.snd hanswer
    obtain rfl := congrArg Prod.snd h
    exact ⟨rfl, rfl, rfl, rfl, rfl, rfl⟩

theorem alike_of_check {stops : Bool} (h : check.on s = (.ok stops, t)) : Alike s t := by
  unfold check at h
  rw [on_bind (on_get s)] at h
  dsimp only at h
  split at h
  · obtain rfl : s = t := congrArg Prod.snd h
    exact Alike.refl s
  split at h
  · obtain rfl : s = t := congrArg Prod.snd h
    exact Alike.refl s
  split at h
  · obtain ⟨_, u, hmeasured, h⟩ := exists_of_on_bind h
    obtain rfl : u = t := congrArg Prod.snd h
    exact alike_of_measurePoint hmeasured
  · obtain rfl : s = t := congrArg Prod.snd h
    exact Alike.refl s

theorem check_of_first (h : s.iteration = 0) :
    check.on s = (.ok (decide (s.settings.maxIterations = 0)), s) := by
  unfold check
  rw [on_bind (on_get s), if_pos h]
  rfl

theorem check_of_limit (h : s.iteration ≠ 0) (hlimit : s.settings.maxIterations ≤ s.iteration) :
    check.on s = (.ok true, s) := by
  unfold check
  rw [on_bind (on_get s), if_neg h, if_pos hlimit]
  rfl

def pointMeasured (s : Stochastic R G α) (change : α) : Stochastic R G α :=
  { s with
    pointChange := some change
    idlePoint := if change ≤ s.settings.pointTolerance then s.idlePoint + 1 else 0
    pointConverged := s.pointConverged || decide (s.settings.pointPatience ≤
      if change ≤ s.settings.pointTolerance then s.idlePoint + 1 else 0) }

theorem measurePoint_on {previous difference : Vec α} (hprevious : s.previousPoint = some previous)
    (hdifference : s.point.sub previous = .ok difference) :
    measurePoint.on s = (.ok (), s.pointMeasured (Vec.norm difference)) := by
  unfold measurePoint pointMeasured
  rw [on_bind (on_get s), hprevious]
  dsimp only
  rw [hdifference]
  rfl

theorem check_of_unmeasured (h : s.iteration ≠ 0)
    (hlimit : ¬s.settings.maxIterations ≤ s.iteration) (hchecks : ¬s.settings.checksPoint = true) :
    check.on s = (.ok s.pointConverged, s) := by
  unfold check
  rw [on_bind (on_get s), if_neg h, if_neg hlimit]
  dsimp only
  rw [if_neg hchecks]
  rfl

theorem check_of_measured {previous difference : Vec α} (h : s.iteration ≠ 0)
    (hlimit : ¬s.settings.maxIterations ≤ s.iteration) (hchecks : s.settings.checksPoint = true)
    (hprevious : s.previousPoint = some previous)
    (hdifference : s.point.sub previous = .ok difference) :
    check.on s = (.ok (s.pointMeasured (Vec.norm difference)).pointConverged,
      s.pointMeasured (Vec.norm difference)) := by
  unfold check
  rw [on_bind (on_get s), if_neg h, if_neg hlimit]
  dsimp only
  rw [if_pos hchecks, on_bind (measurePoint_on hprevious hdifference)]
  rfl

end Check

theorem predicateHolds_on {s : Stochastic R G α} {holds : Bool}
    (hsome : ∀ p, s.settings.predicate = some p → p s.point = .ok holds)
    (hnone : s.settings.predicate = none → holds = false) :
    predicateHolds.on s = (.ok holds, s) := by
  unfold predicateHolds
  rw [on_bind (on_get s)]
  cases hpredicate : s.settings.predicate with
  | none =>
    rw [hnone hpredicate]
    rfl
  | some p =>
    dsimp only
    rw [hsome p hpredicate]
    rfl

theorem record_on (s : Stochastic R G α) :
    ∃ events, record.on s = (.ok (), { s with
      history := if s.keepsHistory then s.point :: s.history else s.history
      events }) := by
  have hnoted : (if s.keepsHistory then { s with history := s.point :: s.history } else s) =
      { s with history := if s.keepsHistory then s.point :: s.history else s.history } := by
    split
    · rfl
    · rfl
  unfold record
  rw [on_bind (on_modify s _), on_bind (on_get _), hnoted]
  dsimp only
  split
  · exact ⟨_, rfl⟩
  · exact ⟨s.events, rfl⟩

/-! ## One iteration -/

theorem estimate_on [Scalar α] [IndexSource G] (s : Stochastic R G α) (p : Vec α) :
    (estimate p).on s = ((rawEstimate s.problem s.settings.batchSize p).1 >>=
        penalised s.settings p,
      { s with
        problem := (rawEstimate s.problem s.settings.batchSize p).2
        estimates := s.estimates + 1 }) := by
  unfold estimate
  rw [on_bind (on_get s)]
  rcases rawEstimate s.problem s.settings.batchSize p with ⟨raw, problem⟩
  dsimp only
  rw [on_bind (on_set s _)]
  cases raw with
  | error fault => rfl
  | ok estimate => rfl

section Iteration

variable [Elementary α] [IndexSource G] [StochasticRule R α]

/-- The state in which the next point has been found. -/
def moved (s : Stochastic R G α) (rule : R) (direction : Vec α) (step : α) (point : Vec α) :
    Stochastic R G α :=
  { s with rule, direction := some direction, step, previousPoint := some s.point, point }

/-- The parts of an iteration that come before the next estimate all succeed. -/
structure Moves (s : Stochastic R G α) (rule : R) (direction : Vec α) (step : α)
    (point : Vec α) : Prop where
  proposed : StochasticRule.direction s.settings s.rule s.gradient = (.ok direction, rule)
  scheduled : s.settings.schedule.compute (s.iteration : α) s.settings.parameters = .ok step
  reached : ∃ reached, StochasticRule.reach s.settings rule s.point step direction = .ok reached ∧
    s.settings.box.clamp reached = .ok point

variable {s t : Stochastic R G α} {rule : R} {direction point : Vec α} {step : α}

omit [Elementary α] [IndexSource G] in
theorem findDirection_on
    (h : StochasticRule.direction s.settings s.rule s.gradient = (.ok direction, rule)) :
    findDirection.on s = (.ok direction, { s with rule }) := by
  unfold findDirection
  rw [on_bind (on_get s), h]
  rfl

/-- A step that the schedule cannot give ends an iteration. -/
theorem advance_of_unscheduled {fault : Fault}
    (h : StochasticRule.direction s.settings s.rule s.gradient = (.ok direction, rule))
    (hstep : s.settings.schedule.compute (s.iteration : α) s.settings.parameters = .error fault) :
    advance.on s = (.error fault, { s with rule, direction := some direction }) := by
  have hfails : findStep.on { s with rule, direction := some direction } =
      (.error fault, { s with rule, direction := some direction }) := by
    unfold findStep
    rw [on_bind (on_get _)]
    exact Prod.ext hstep rfl
  have honce : advanceOnce.on s = (.error fault, { s with rule, direction := some direction }) := by
    unfold advanceOnce
    rw [on_bind (findDirection_on h), on_bind (on_modify _ _)]
    exact on_bind_of_error hfails _
  exact on_bind_of_error honce _

theorem Moves.advanceOnce_on (h : s.Moves rule direction step point) :
    advanceOnce.on s = (do
      let gradient ← estimate point
      modify fun s => { s with gradient } : StochasticM R G α Unit).on
        (s.moved rule direction step point) := by
  obtain ⟨reached, hreached, hclamp⟩ := h.reached
  have hdirection := findDirection_on h.proposed
  have hstep : findStep.on { s with rule, direction := some direction } =
      (.ok step, { s with rule, direction := some direction }) := by
    unfold findStep
    rw [on_bind (on_get _)]
    exact Prod.ext h.scheduled rfl
  have hpoint : (findPoint direction step).on
      { s with rule, direction := some direction, step, previousPoint := some s.point } =
        (.ok point,
          { s with rule, direction := some direction, step, previousPoint := some s.point }) := by
    unfold findPoint
    rw [on_bind (on_get _)]
    dsimp only
    rw [hreached, on_bind (on_answer _ (.ok reached)), hclamp]
    rfl
  unfold advanceOnce
  rw [on_bind hdirection, on_bind (on_modify _ _), on_bind hstep, on_bind (on_modify _ _),
    on_bind hpoint, on_bind (on_modify _ _)]
  rfl

/-- An iteration leads to the point that is found, whether or not it can be estimated
there, and it succeeds just when it can. -/
theorem Moves.advance_on (h : s.Moves rule direction step point) :
    (advance.on s).2.point = point ∧
    ∀ t, advance.on s = (.ok (), t) ↔ ∃ raw problem gradient,
      rawEstimate s.problem s.settings.batchSize point = (.ok raw, problem) ∧
      penalised s.settings point raw = .ok gradient ∧
      t = { s.moved rule direction step point with
        problem, gradient, estimates := s.estimates + 1, iteration := s.iteration + 1 } := by
  have honce := h.advanceOnce_on
  have hestimate := (s.moved rule direction step point).estimate_on point
  have hraw : rawEstimate (s.moved rule direction step point).problem
      (s.moved rule direction step point).settings.batchSize point =
        rawEstimate s.problem s.settings.batchSize point := rfl
  rw [hraw] at hestimate
  unfold advance
  generalize rawEstimate s.problem s.settings.batchSize point = answered at hestimate ⊢
  obtain ⟨raw, problem⟩ := answered
  cases hpenalised : raw >>= penalised s.settings point with
  | error fault =>
    rw [show (raw >>= penalised (s.moved rule direction step point).settings point) =
      .error fault from hpenalised] at hestimate
    rw [on_bind_of_error hestimate] at honce
    rw [on_bind_of_error honce]
    refine ⟨rfl, fun t => ⟨(fun heq => nomatch congrArg Prod.fst heq), ?_⟩⟩
    rintro ⟨e, problem', gradient, heq, hgradient, -⟩
    obtain ⟨rfl, rfl⟩ := Prod.mk.inj heq
    exact nomatch hpenalised.symm.trans hgradient
  | ok gradient =>
    rw [show (raw >>= penalised (s.moved rule direction step point).settings point) =
      .ok gradient from hpenalised] at hestimate
    rw [on_bind hestimate, on_modify] at honce
    rw [on_bind honce, on_modify]
    obtain ⟨e, rfl, hgradient⟩ := Fault.bind_eq_ok_iff.mp hpenalised
    refine ⟨rfl, fun t => ⟨fun heq => ?_, ?_⟩⟩
    · exact ⟨e, problem, gradient, rfl, hgradient, (congrArg Prod.snd heq).symm⟩
    · rintro ⟨e', problem', gradient', heq, hgradient', rfl⟩
      obtain ⟨hraw, rfl⟩ := Prod.mk.inj heq
      obtain rfl := Except.ok.inj hraw
      obtain rfl := Except.ok.inj (hgradient.symm.trans hgradient')
      rfl

end Iteration

/-! ## Construction -/

section Construction

variable [Scalar α] [SeededSource G] {kind : SolverKind} {settings : StochasticSettings α}
  {problem prepared : Problem α G} {rule : R} {keeps : Bool} {initial : Nested α}
  {point raw gradient : Vec α}

/-- A solver starts with an estimate at its first point. -/
theorem exists_of_start {solver : Stochastic R G α}
    (h : start kind settings problem rule keeps point = .ok solver) :
    ∃ prepared raw, prepare settings problem = .ok prepared ∧
      rawEstimate prepared settings.batchSize point = (.ok raw, solver.problem) ∧
      penalised settings point raw = .ok solver.gradient ∧ solver.settings = settings ∧
      solver.rule = rule ∧ solver.iteration = 0 ∧ solver.point = point := by
  unfold start at h
  obtain ⟨prepared, hprepared, h⟩ := Fault.bind_eq_ok_iff.mp h
  dsimp only at h
  rw [estimate_on] at h
  dsimp only at h
  obtain ⟨gradient, hgradient, h⟩ := Fault.bind_eq_ok_iff.mp h
  obtain ⟨raw, hraw, hgradient⟩ := Fault.bind_eq_ok_iff.mp hgradient
  cases h
  exact ⟨prepared, raw, hprepared, Prod.ext hraw rfl, hgradient, rfl, rfl, rfl, rfl⟩

/-- Where the estimate succeeds a solver can start. -/
theorem exists_start (kind : SolverKind) (rule : R) (keeps : Bool)
    (hprepared : prepare settings problem = .ok prepared)
    (hraw : (rawEstimate prepared settings.batchSize point).1 = .ok raw)
    (hpenalised : penalised settings point raw = .ok gradient) :
    ∃ solver, start kind settings problem rule keeps point = .ok solver := by
  unfold start
  rw [hprepared]
  dsimp only [bind, Except.bind]
  rw [estimate_on, hraw]
  dsimp only [bind, Except.bind]
  rw [hpenalised]
  exact ⟨_, rfl⟩

theorem create_eq_start (kind : SolverKind) (settings : StochasticSettings α)
    (problem : Problem α G) (keeps : Bool) (hpoint : initial.toPoint = .ok point)
    (hsize : settings.box.checkDimension point.length = .ok ()) :
    create kind settings problem initial keeps =
      start kind settings problem
        (StepRule.start (if kind = .adaptive then .adaptive else .plain) point.length) keeps
        point := by
  unfold create
  rw [hpoint]
  dsimp only [bind, Except.bind]
  rw [hsize]

/-- A solver that has been made has started at its point, which the box fits. -/
theorem exists_start_of_create {solver : Stochastic (StepRule α) G α}
    (h : create kind settings problem initial keeps = .ok solver) :
    ∃ point, initial.toPoint = .ok point ∧
      settings.box.checkDimension point.length = .ok () ∧
      start kind settings problem
        (StepRule.start (if kind = .adaptive then .adaptive else .plain) point.length) keeps
        point = .ok solver := by
  obtain ⟨point, hpoint, h⟩ := Fault.bind_eq_ok_iff.mp h
  obtain ⟨_, hsize, h⟩ := Fault.bind_eq_ok_iff.mp h
  exact ⟨point, hpoint, hsize, h⟩

end Construction

/-! ## Rounds -/

variable [Elementary α] [IndexSource G] [StochasticRule R α]

/-- A round of the loop leads from one state to the next. -/
def Passes (s t : Stochastic R G α) : Prop :=
  ∃ checked advanced, check.on s = (.ok false, checked) ∧
    predicateHolds.on checked = (.ok false, checked) ∧
    advance.on checked = (.ok (), advanced) ∧ record.on advanced = (.ok (), t)

/-- The states of a solver at the head of its loop, up to a number of iterations. -/
structure IsRun (solver : Stochastic R G α) (run : Nat → Stochastic R G α) (n : Nat) : Prop where
  start : run 0 = solver.announce (.started solver.kind)
  passes : ∀ k < n, Passes (run k) (run (k + 1))

end Stochastic

end Downhill
