import Downhill.Descent.Solver
import Downhill.Proofs.Sequence

/-!
# Runs of a line search solver

What each part of an iteration does to a solver when it succeeds, and what the
iteration, a check and the loop do.  A part leaves everything alone that it does
not name; how much is counted and announced on the way is left open.
-/

namespace Downhill

variable {R S α β γ : Type}

/-- The settings that leave only the gradient and the limit to end the loop. -/
structure DescentSettings.OnlyGradient (s : DescentSettings α) : Prop where
  checksGradient : s.checksGradient = true
  checksPoint : s.checksPoint = false
  checksValue : s.checksValue = false
  predicate : s.predicate = none

/-- The settings that leave only the limit to end the loop. -/
structure DescentSettings.Unchecked (s : DescentSettings α) : Prop where
  checksGradient : s.checksGradient = false
  checksPoint : s.checksPoint = false
  checksValue : s.checksValue = false
  predicate : s.predicate = none

/-! ## Parts in sequence -/

namespace DescentM

variable (s : Descent R S α)

@[simp] theorem on_pure (b : β) : (pure b : DescentM R S α β).on s = (.ok b, s) := rfl

@[simp] theorem on_get : (get : DescentM R S α (Descent R S α)).on s = (.ok s, s) := rfl

@[simp] theorem on_set (s' : Descent R S α) :
    (set s' : DescentM R S α PUnit).on s = (.ok ⟨⟩, s') := rfl

@[simp] theorem on_modify (f : Descent R S α → Descent R S α) :
    (modify f : DescentM R S α PUnit).on s = (.ok ⟨⟩, f s) := rfl

@[simp] theorem on_revise (change : Iterate α → Iterate α) :
    (revise change : DescentM R S α Unit).on s = (.ok (), s.update change) := rfl

@[simp] theorem on_answer (result : Except Fault β) :
    (answer result : DescentM R S α β).on s = (result, s) := rfl

/-- A part that succeeds hands its result and its solver to the next one. -/
theorem on_bind {s s' : Descent R S α} {x : DescentM R S α β} {b : β}
    (h : x.on s = (.ok b, s')) (f : β → DescentM R S α γ) : (x >>= f).on s = (f b).on s' :=
  run_bind_of_ok h

/-- Requests are counted whether or not they are answered. -/
theorem on_ask {m : EvalM α β} {result : Except Fault β} {journal : Journal α}
    (h : m.journaled = (result, journal)) :
    (ask m : DescentM R S α β).on s = (result, s.count journal) := by
  unfold ask
  rw [h]
  rfl

end DescentM

namespace Descent

open DescentM

/-! ## One iteration -/

theorem findDirection_on [DirectionRule R α] {s : Descent R S α} {proposal direction : Vec α}
    {rule : R} {journal : Journal α}
    (hpropose : DirectionRule.propose s.rule s.sight = (.ok proposal, rule))
    (horient : (DirectionRule.orient rule s.objective s.sight proposal).journaled =
      (.ok direction, journal)) :
    findDirection.on s = (.ok direction, ({ s with rule }).count journal) := by
  unfold findDirection
  rw [on_bind (on_get s), hpropose]
  dsimp only
  rw [on_bind (on_set s { s with rule }), on_bind (on_answer _ (.ok proposal))]
  exact on_ask _ horient

theorem findStep_on [LineSearch S α] {s : Descent R S α} {direction : Vec α} {outcome : Outcome α}
    {journal : Journal α}
    (hsearch : (LineSearch.stepSize s.search s.objective (s.query direction)).journaled =
      (.ok outcome, journal)) :
    ∃ tally, (findStep direction).on s =
      (.ok outcome.step, ({ s with tally }).announce (.searched outcome)) := by
  unfold findStep
  rw [on_bind (on_get s)]
  dsimp only
  by_cases hcounts : s.countsSearch = true
  · refine ⟨(s.count journal).tally, ?_⟩
    rw [if_pos hcounts, on_bind (on_ask s hsearch)]
    rfl
  · refine ⟨s.tally, ?_⟩
    have huncounted : (askUncounted (LineSearch.stepSize s.search s.objective
        (s.query direction)) : DescentM R S α (Outcome α)).on s = (.ok outcome, s) := by
      unfold askUncounted
      rw [hsearch]
      rfl
    rw [if_neg hcounts, on_bind huncounted]
    rfl

theorem findPoint_on [Scalar α] {s : Descent R S α} {direction reached point : Vec α} {step : α}
    (hreached : s.current.point.along step direction = .ok reached)
    (hclamp : s.settings.box.clamp reached = .ok point) :
    (findPoint direction step).on s = (.ok point, s) := by
  unfold findPoint
  rw [on_bind (on_get s), hreached, on_bind (on_answer s (.ok reached)), hclamp]
  rfl

/-- What the rule sees once an iteration has begun: the last direction has become
the previous one. -/
def openingSight (s : Descent R S α) : Sight α :=
  { s.sight with previousDirection := s.current.direction }

/-- What the search is told once a direction has been found. -/
def openingQuery (s : Descent R S α) (direction : Vec α) : Query α where
  point := s.current.point
  direction := direction
  previousPoint := s.current.previousPoint
  previousDirection := s.current.direction
  previousStep := s.current.step

theorem record_on (s : Descent R S α) :
    ∃ events, record.on s = (.ok (), { s with
      history := if s.keepsHistory then s.current.point :: s.history else s.history
      events }) := by
  have hnoted : (if s.keepsHistory then { s with history := s.current.point :: s.history } else s) =
      { s with
        history := if s.keepsHistory then s.current.point :: s.history else s.history } := by
    by_cases hkeeps : s.keepsHistory = true
    · rw [if_pos hkeeps, if_pos hkeeps]
    · rw [if_neg hkeeps, if_neg hkeeps]
  unfold record
  rw [on_bind (on_modify s _), on_bind (on_get _), hnoted]
  dsimp only
  by_cases hreports : s.settings.reports s.current.iteration = true
  · rw [if_pos hreports]
    exact ⟨_, rfl⟩
  · rw [if_neg hreports]
    exact ⟨s.events, rfl⟩

variable [Scalar α] [DirectionRule R α] [LineSearch S α]

section Step

variable {s : Descent R S α} {proposal direction reached point : Vec α} {rule : R}
  {outcome : Outcome α} {asked searched : Journal α}
  (hpropose : DirectionRule.propose s.rule s.openingSight = (.ok proposal, rule))
  (horient : (DirectionRule.orient rule s.objective s.openingSight proposal).journaled =
    (.ok direction, asked))
  (hsearch : (LineSearch.stepSize s.search s.objective (s.openingQuery direction)).journaled =
    (.ok outcome, searched))
  (hreached : s.current.point.along outcome.step direction = .ok reached)
  (hclamp : s.settings.box.clamp reached = .ok point)
include hpropose horient hsearch hreached hclamp

/-- Once the next point has been found, an iteration asks for gradient and value there. -/
theorem step_on_found : ∃ tally events, step.on s = (do
    let gradient ← ask (s.objective.askGradient point)
    revise fun i => { i with gradient, previousValue := some i.value }
    let value ← ask (s.objective.askValue point)
    revise fun i => { i with value } : DescentM R S α Unit).on { s with
      rule := DirectionRule.moved rule point
      current := { s.current with
        point
        previousPoint := some s.current.point
        previousGradient := some s.current.gradient
        direction := some direction
        previousDirection := s.current.direction
        step := outcome.step
        previousStep := s.current.step }
      tally, events } := by
  unfold step
  rw [on_bind (on_revise s _)]
  have hdirection := findDirection_on
    (s := s.update fun i => { i with previousDirection := i.direction }) hpropose horient
  rw [on_bind hdirection, on_bind (on_revise _ _)]
  generalize hopened : Descent.update _ (count asked _) = opened
  have hstep : ∃ tally, (findStep direction).on opened =
      (.ok outcome.step, ({ opened with tally }).announce (.searched outcome)) := by
    subst hopened
    exact findStep_on hsearch
  obtain ⟨tally, hstep⟩ := hstep
  rw [on_bind hstep, on_bind (on_revise _ _)]
  generalize hmeasured : Descent.update _ (announce _ _) = measured
  have hpoint : (findPoint direction outcome.step).on measured = (.ok point, measured) := by
    subst hmeasured hopened
    exact findPoint_on hreached hclamp
  rw [on_bind hpoint, on_bind (on_revise _ _), on_bind (on_modify _ _), on_bind (on_revise _ _),
    on_bind (on_get _)]
  subst hmeasured hopened
  dsimp only [update, count, announce]
  exact ⟨_, _, rfl⟩

theorem step_on {gradient : Vec α} {value : α}
    (hgradient : s.objective.gradient point = .ok gradient)
    (hvalue : s.objective.value point = .ok value) :
    ∃ tally events, step.on s = (.ok (), { s with
      rule := DirectionRule.moved rule point
      current := {
        iteration := s.current.iteration
        point, gradient, value
        previousPoint := some s.current.point
        previousGradient := some s.current.gradient
        previousValue := some s.current.value
        direction := some direction
        previousDirection := s.current.direction
        step := outcome.step
        previousStep := s.current.step }
      tally, events }) := by
  obtain ⟨tally, events, hfound⟩ := step_on_found hpropose horient hsearch hreached hclamp
  have hasked := s.objective.journaled_askGradient point
  rw [hgradient] at hasked
  have hvalued := s.objective.journaled_askValue point
  rw [hvalue] at hvalued
  rw [hfound, on_bind (on_ask _ hasked), on_bind (on_revise _ _), on_bind (on_ask _ hvalued),
    on_revise]
  exact ⟨_, _, rfl⟩

end Step

theorem advance_on {s s' : Descent R S α} (h : step.on s = (.ok (), s')) :
    advance.on s = (.ok (), s'.update fun i => { i with iteration := i.iteration + 1 }) := by
  unfold advance
  rw [on_bind h]
  rfl

/-! ## Checks -/

omit [LineSearch S α] in
theorem check_of_short {s : Descent R S α} (hchecks : s.settings.checksGradient = true)
    (hshort : gradientIsShort (Vec.norm s.current.gradient) s.settings.gradientTolerance = true) :
    check.on s = (.ok true,
      { s with gradientNorm := Vec.norm s.current.gradient, gradientConverged := true }) := by
  unfold check
  rw [on_bind (on_modify s _), on_bind (on_get _)]
  dsimp only
  rw [hchecks, hshort, if_pos (Bool.and_self true), on_bind (on_set _ _)]
  rfl

omit [LineSearch S α] in
/-- With nothing else to check, a check that finds a longer gradient below the limit
lets the loop go on. -/
theorem check_of_long {s : Descent R S α} (hsettings : s.settings.OnlyGradient)
    (hlong : gradientIsShort (Vec.norm s.current.gradient) s.settings.gradientTolerance = false)
    (hlimit : s.current.iteration < s.settings.maxIterations)
    (hpoint : s.pointConverged = false) (hvalue : s.valueConverged = false) :
    check.on s = (.ok false, { s with gradientNorm := Vec.norm s.current.gradient }) := by
  have hpredicate : ∀ s' : Descent R S α, s'.settings = s.settings →
      predicateHolds.on s' = (.ok false, s') := by
    intro s' hs'
    unfold predicateHolds
    rw [on_bind (on_get s'), hs', hsettings.predicate]
    rfl
  unfold check
  rw [on_bind (on_modify s _), on_bind (on_get _)]
  dsimp only
  rw [hlong, Bool.and_false, if_neg Bool.false_ne_true,
    on_bind (hpredicate { s with gradientNorm := Vec.norm s.current.gradient } rfl),
    if_neg Bool.false_ne_true, if_neg (Nat.not_le.mpr hlimit)]
  by_cases hfirst : s.current.iteration = 0
  · rw [if_pos hfirst]
    rfl
  · rw [if_neg hfirst, hsettings.checksPoint, hsettings.checksValue, if_neg Bool.false_ne_true,
      if_neg Bool.false_ne_true, on_bind (on_get _)]
    dsimp only
    rw [hpoint, hvalue]
    rfl

/-! ## The loop -/

theorem iterate_of_stop {s s' : Descent R S α} (left : Nat) (h : check.on s = (.ok true, s')) :
    (iterate left).on s = (.ok (), s') := by
  cases left with
  | zero =>
    unfold iterate
    rw [on_bind h]
    rfl
  | succ left =>
    unfold iterate
    rw [on_bind h]
    rfl

theorem iterate_succ {s checked advanced recorded : Descent R S α} (left : Nat)
    (hcheck : check.on s = (.ok false, checked))
    (hadvance : advance.on checked = (.ok (), advanced))
    (hrecord : record.on advanced = (.ok (), recorded)) :
    (iterate (left + 1)).on s = (iterate left).on recorded := by
  rw [iterate, on_bind hcheck, if_neg Bool.false_ne_true, on_bind hadvance, on_bind hrecord]

/-- The loop of a run, between the announcements of its start and its end. -/
theorem solve_on {s s' : Descent R S α}
    (h : (iterate (s.settings.maxIterations - s.current.iteration)).on
      (s.announce (.started s.kind)) = (.ok (), s')) :
    solve.on s = (.ok s'.point,
      s'.announce (.finished s'.verdict s'.current.iteration s'.current.value)) := by
  unfold solve
  rw [on_bind (on_modify s _), on_bind (on_get _)]
  have hrun : (iterate ((s.announce (.started s.kind)).settings.maxIterations -
      (s.announce (.started s.kind)).current.iteration)).on (s.announce (.started s.kind)) =
      (.ok (), s') := h
  rw [on_bind hrun, on_bind (on_get _)]
  rfl

/-! ## Construction -/

omit [DirectionRule R α] [LineSearch S α] in
/-- A solver starts with gradient and value of its first point, and without a past. -/
theorem start_eq {objective : Objective α} {point gradient : Vec α} {value : α}
    (hgradient : objective.gradient point = .ok gradient)
    (hvalue : objective.value point = .ok value) (kind : SolverKind)
    (settings : DescentSettings α) (rule : R) (search : S) (countsSearch keepsHistory : Bool) :
    ∃ tally, start kind settings objective rule search countsSearch keepsHistory point = .ok {
      kind, settings, objective, rule, search, countsSearch, keepsHistory, tally
      history := if keepsHistory then [point] else []
      current := {
        iteration := 0
        point, gradient, value
        previousPoint := none
        previousGradient := none
        previousValue := none
        direction := none
        previousDirection := none
        step := 0
        previousStep := 0 }
      gradientNorm := Vec.norm gradient
      pointChange := none
      valueChange := none
      idlePoint := 0
      idleValue := 0
      gradientConverged := false
      customConverged := false
      pointConverged := false
      valueConverged := false
      events := [] } := by
  have hasked : (do
      let gradient ← objective.askGradient point
      let value ← objective.askValue point
      return (gradient, value) : EvalM α (Vec α × α)).journaled =
        (.ok (gradient, value), [.value point, .gradient point]) := by
    unfold Objective.askGradient Objective.askValue
    rw [hgradient, hvalue]
    rfl
  unfold start
  rw [hasked]
  exact ⟨_, rfl⟩

end Descent

end Downhill
