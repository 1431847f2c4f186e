import Downhill.Minimize
import Downhill.Objective.Difference
import Downhill.Proofs.Descent.Loop
import Downhill.Proofs.LineSearch.Raised
import Downhill.Proofs.Steepest.Rate

/-!
# Runs on a raised objective

A constant that is added to an objective changes the values that a solver keeps and reports,
and nothing else.  Every part of a run on the raised objective mirrors the same part of the
run on the objective itself, so the two runs make the same requests, visit the same points
with the same directions and steps, and stop at the same iteration for the same reason.
-/

namespace Downhill

open Extended

variable {K : ℝ} {β γ : Type}

/-! ## Directions -/

noncomputable def Sight.raise (K : ℝ) (sight : Sight Extended) : Sight Extended :=
  { sight with value := Extended.raise K sight.value }

theorem Strategy.propose_raise (rule : Strategy Extended) (sight : Sight Extended) :
    rule.propose (sight.raise K) = rule.propose sight := by
  cases rule with
  | steepest | conjugate | coordinate => rfl

/-- The probe of a coordinate goes by a difference of values. -/
theorem Coordinate.mirrors_orient (f : Objective Extended) (point : Vec Extended)
    (value : Extended) (direction : Vec Extended) :
    EvalM.Mirrors id (orient f point value direction)
      (orient (f.raise K) point (Extended.raise K value) direction) := by
  refine (EvalM.mirrors_refl (EvalM.answer (point.along probe direction))).bind fun probed => ?_
  refine (EvalM.mirrors_askValue f probed).bind fun probedValue => ?_
  rw [raise_sub_raise]
  exact EvalM.mirrors_refl _

theorem Strategy.mirrors_orient (rule : Strategy Extended) (f : Objective Extended)
    (sight : Sight Extended) (direction : Vec Extended) :
    EvalM.Mirrors id (rule.orient f sight direction)
      (rule.orient (f.raise K) (sight.raise K) direction) := by
  cases rule with
  | steepest | conjugate => exact EvalM.mirrors_refl _
  | coordinate => exact Coordinate.mirrors_orient f sight.point sight.value direction

/-! ## States -/

/-- The line search solver with the rules and searches of this library. -/
abbrev Runner := Descent (Strategy Extended) (Search Extended) Extended

noncomputable def Iterate.raise (K : ℝ) (i : Iterate Extended) : Iterate Extended :=
  { i with
    value := Extended.raise K i.value
    previousValue := i.previousValue.map (Extended.raise K) }

noncomputable def Event.raise (K : ℝ) : Event Extended → Event Extended
  | .progressed iteration value gradientNorm step =>
    .progressed iteration (Extended.raise K value) gradientNorm step
  | .finished verdict iterations value =>
    .finished verdict iterations (Extended.raise K value)
  | event => event

/-- The state of a solver on the raised objective: only the values differ. -/
noncomputable def Descent.raise (K : ℝ) (s : Runner) : Runner :=
  { s with
    objective := s.objective.raise K
    current := s.current.raise K
    events := s.events.map (Event.raise K) }

section Unchanged

variable (K : ℝ) (s : Runner)

@[simp] theorem Descent.raise_settings : (s.raise K).settings = s.settings := rfl

@[simp] theorem Descent.raise_iteration :
    (s.raise K).current.iteration = s.current.iteration := rfl

@[simp] theorem Descent.raise_previousPoint :
    (s.raise K).current.previousPoint = s.current.previousPoint := rfl

@[simp] theorem Descent.raise_previousValue : (s.raise K).current.previousValue =
    s.current.previousValue.map (Extended.raise K) := rfl

end Unchanged

namespace DescentM

/-- A part of a run is mirrored by the same part on the raised objective. -/
abbrev Raises (K : ℝ) (onResult : β → γ)
    (x : DescentM (Strategy Extended) (Search Extended) Extended β)
    (y : DescentM (Strategy Extended) (Search Extended) Extended γ) : Prop :=
  Mirrors (Descent.raise K) onResult x y

theorem raises_answer (result : Except Fault β) : Raises K id (answer result) (answer result) := by
  intro s
  rw [Except.map_id]
  rfl

theorem raises_revise {f g : Iterate Extended → Iterate Extended}
    (h : ∀ i, g (i.raise K) = (f i).raise K) : Raises K id (revise f) (revise g) :=
  .modify fun s => congrArg (fun i => { s.raise K with current := i }) (h s.current)

theorem raises_ask {onResult : β → γ} {m : EvalM Extended β} {raised : EvalM Extended γ}
    (h : EvalM.Mirrors onResult m raised) : Raises K onResult (ask m) (ask raised) := by
  intro s
  exact (on_ask _ h.journaled).trans (congrArg (Prod.map (Except.map onResult) (Descent.raise K))
    (on_ask s (show m.journaled = (m.journaled.1, m.journaled.2) from rfl))).symm

theorem raises_askUncounted {m raised : EvalM Extended β} (h : EvalM.Mirrors id m raised) :
    Raises K id (askUncounted m) (askUncounted raised) := by
  unfold askUncounted
  rw [h.journaled, Except.map_id]
  exact raises_answer m.journaled.1

variable {x : DescentM (Strategy Extended) (Search Extended) Extended β}
  {y : DescentM (Strategy Extended) (Search Extended) Extended β} {s t : Runner}
  {result : Except Fault β}

theorem Raises.on_raise (h : Raises K id x y) (hx : x.on s = (result, t)) :
    y.on (s.raise K) = (result, t.raise K) := by
  have hy : y.on (s.raise K) = ((x.on s).1.map id, (x.on s).2.raise K) := h s
  rw [hx, Except.map_id] at hy
  exact hy

theorem Raises.exists_on (h : Raises K id x y) (hy : y.on (s.raise K) = (result, t)) :
    ∃ t', x.on s = (result, t') ∧ t = t'.raise K := by
  have hraised := h.on_raise (s := s) rfl
  rw [hy] at hraised
  obtain ⟨rfl, rfl⟩ := Prod.mk.inj hraised
  exact ⟨(x.on s).2, rfl, rfl⟩

end DescentM

namespace Descent

open DescentM

/-! ## One iteration -/

theorem raises_findDirection : Raises K id findDirection findDirection := by
  unfold findDirection
  refine Mirrors.get.bind fun s => ?_
  have hproposed : DirectionRule.propose (s.raise K).rule (s.raise K).sight =
      DirectionRule.propose s.rule s.sight := Strategy.propose_raise s.rule s.sight
  rw [hproposed]
  rcases DirectionRule.propose s.rule s.sight with ⟨proposal, rule⟩
  refine (Mirrors.set { s with rule }).bind fun _ => ?_
  refine (raises_answer proposal).bind fun direction => ?_
  exact raises_ask (Strategy.mirrors_orient rule s.objective s.sight direction)

theorem raises_findStep (direction : Vec Extended) :
    Raises K id (findStep direction) (findStep direction) := by
  unfold findStep
  refine Mirrors.get.bind fun s => ?_
  have hsearch := Search.mirrors_stepSize (K := K) s.search s.objective (s.query direction)
  have hnoted : ∀ outcome : Outcome Extended, Raises K id
      (do modify (announce (.searched outcome)); return outcome.step)
      (do modify (announce (.searched outcome)); return outcome.step) :=
    fun outcome => (Mirrors.modify (by intro; rfl)).bind fun _ => .pure id _
  dsimp only
  by_cases hcounts : s.countsSearch = true
  · rw [if_pos hcounts, if_pos (show (s.raise K).countsSearch = true from hcounts)]
    exact (raises_ask hsearch).bind hnoted
  · rw [if_neg hcounts, if_neg (show ¬(s.raise K).countsSearch = true from hcounts)]
    exact (raises_askUncounted hsearch).bind hnoted

theorem raises_findPoint (direction : Vec Extended) (step : Extended) :
    Raises K id (findPoint direction step) (findPoint direction step) := by
  unfold findPoint
  refine Mirrors.get.bind fun s => ?_
  exact (raises_answer _).bind fun reached => raises_answer _

theorem raises_step : Raises K id Descent.step Descent.step := by
  unfold Descent.step
  refine (raises_revise (by intro; rfl)).bind fun _ => ?_
  refine raises_findDirection.bind fun direction => ?_
  refine (raises_revise (by intro; rfl)).bind fun _ => ?_
  refine (raises_findStep direction).bind fun step => ?_
  refine (raises_revise (by intro; rfl)).bind fun _ => ?_
  refine (raises_findPoint direction step).bind fun point => ?_
  refine (raises_revise (by intro; rfl)).bind fun _ => ?_
  refine (Mirrors.modify (by intro; rfl)).bind fun _ => ?_
  refine (raises_revise (by intro; rfl)).bind fun _ => ?_
  refine Mirrors.get.bind fun s => ?_
  refine (raises_ask (EvalM.mirrors_refl (s.objective.askGradient point))).bind fun gradient => ?_
  refine (raises_revise (by intro; rfl)).bind fun _ => ?_
  refine (raises_ask (EvalM.mirrors_askValue s.objective point)).bind fun value => ?_
  exact raises_revise fun _ => rfl

theorem raises_advance : Raises K id advance advance := by
  unfold advance
  exact raises_step.bind fun _ => raises_revise fun _ => rfl

/-! ## Checks -/

theorem raises_measurePoint : Raises K id measurePoint measurePoint := by
  unfold measurePoint
  refine Mirrors.get.bind fun s => ?_
  rw [raise_previousPoint]
  cases s.current.previousPoint with
  | none => exact .pure id _
  | some previous =>
    refine (raises_answer _).bind fun difference => ?_
    exact Mirrors.set _

/-- The change of the value is the same on the raised objective. -/
theorem raises_measureValue : Raises K id measureValue measureValue := by
  unfold measureValue
  refine Mirrors.get.bind fun s => ?_
  rw [raise_previousValue]
  cases s.current.previousValue with
  | none => exact .pure id _
  | some previous =>
    have hchange : (s.raise K).current.value - Extended.raise K previous =
        s.current.value - previous := raise_sub_raise K s.current.value previous
    simp only [Option.map_some]
    rw [hchange]
    exact Mirrors.set _

theorem raises_predicateHolds : Raises K id predicateHolds predicateHolds := by
  unfold predicateHolds
  refine Mirrors.get.bind fun s => ?_
  rw [raise_settings]
  cases s.settings.predicate with
  | none => exact .pure id _
  | some predicate => exact raises_answer _

theorem raises_check : Raises K id check check := by
  unfold check
  refine (Mirrors.modify (by intro; rfl)).bind fun _ => ?_
  refine Mirrors.get.bind fun s => ?_
  rw [raise_settings, raise_iteration, show (s.raise K).gradientNorm = s.gradientNorm from rfl]
  split
  · refine (Mirrors.set { s with gradientConverged := true }).bind fun _ => ?_
    exact .pure id true
  refine raises_predicateHolds.bind fun holds => ?_
  dsimp only [id]
  split
  · refine (Mirrors.set { s with customConverged := true }).bind fun _ => ?_
    exact .pure id true
  split
  · exact .pure id true
  split
  · exact .pure id false
  -- Either measurement is left out when its change is not checked.
  have hlast : Raises K id (do let s ← get; return s.pointConverged || s.valueConverged)
      (do let s ← get; return s.pointConverged || s.valueConverged) := by
    refine Mirrors.get.bind fun s => ?_
    exact .pure id _
  split
  · refine raises_measurePoint.bind fun _ => ?_
    split
    · exact raises_measureValue.bind fun _ => hlast
    · exact hlast
  · split
    · exact raises_measureValue.bind fun _ => hlast
    · exact hlast

/-! ## The loop -/

theorem raises_record : Raises K id record record := by
  unfold record
  refine (Mirrors.modify fun s => ?_).bind fun _ => ?_
  · rw [show (s.raise K).keepsHistory = s.keepsHistory from rfl]
    split
    · rfl
    · rfl
  refine Mirrors.get.bind fun s => ?_
  rw [raise_settings, raise_iteration]
  split
  · exact Mirrors.modify fun _ => rfl
  · exact .pure id _

theorem raises_iterate (left : Nat) : Raises K id (iterate left) (iterate left) := by
  induction left with
  | zero =>
    unfold iterate
    refine raises_check.bind fun _ => ?_
    exact .pure id _
  | succ left ih =>
    unfold iterate
    refine raises_check.bind fun stops => ?_
    dsimp only [id]
    split
    · exact .pure id _
    · refine raises_advance.bind fun _ => ?_
      exact raises_record.bind fun _ => ih

theorem raises_solve : Raises K id solve solve := by
  unfold solve
  refine (Mirrors.modify (by intro; rfl)).bind fun _ => ?_
  refine Mirrors.get.bind fun s => ?_
  rw [raise_settings, raise_iteration]
  refine (raises_iterate _).bind fun _ => ?_
  refine Mirrors.get.bind fun s => ?_
  refine (Mirrors.modify (by intro; rfl)).bind fun _ => ?_
  exact .pure id _

end Descent

/-! ## Problems -/

/-- The raised problem has the raised objective and the same matrix, if any. -/
structure Problem.RaisedTo {G : Type} (K : ℝ) (problem raised : Problem Extended G) : Prop where
  objective : raised.objective = problem.objective.raise K
  matrix : raised.matrix? = problem.matrix?

noncomputable def Quadratic.raise (K : ℝ) (q : Quadratic Extended) : Quadratic Extended :=
  { q with constant := Extended.raise K q.constant }

theorem Quadratic.toObjective_raise (K : ℝ) (q : Quadratic Extended) :
    (q.raise K).toObjective = q.toObjective.raise K := by
  have hvalue : ∀ x, (q.raise K).value x = Extended.raise K <$> q.value x := by
    intro x
    unfold value
    simp only [map_bind, map_pure, ← add_raise]
    rfl
  exact congrArg (Objective.mk · q.gradient) (funext hvalue)

/-- Difference quotients do not see a constant. -/
theorem Objective.ofValue_raise (K : ℝ) (f : Vec Extended → Except Fault Extended)
    (h : Extended) : Objective.ofValue (fun p => Extended.raise K <$> f p) h =
      (Objective.ofValue f h).raise K := by
  have hquotient : ∀ p, centralDifference (fun p => Extended.raise K <$> f p) p h =
      centralDifference f p h := by
    intro p
    funext i
    unfold centralDifference
    simp only [bind_map_left, raise_sub_raise]
  have hgradient : ∀ p, differenceGradient (fun p => Extended.raise K <$> f p) p h =
      differenceGradient f p h := by
    intro p
    unfold differenceGradient
    rw [hquotient]
  exact congrArg (Objective.mk _) (funext hgradient)

namespace Problem

variable {G : Type}

theorem RaisedTo.plain (K : ℝ) (f : Objective Extended) :
    RaisedTo K (.plain f : Problem Extended G) (.plain (f.raise K)) := ⟨rfl, rfl⟩

theorem RaisedTo.ofValue (K : ℝ) (f : Vec Extended → Except Fault Extended) (h : Extended) :
    RaisedTo K (.plain (.ofValue f h) : Problem Extended G)
      (.plain (.ofValue (fun p => Extended.raise K <$> f p) h)) :=
  ⟨Objective.ofValue_raise K f h, rfl⟩

theorem RaisedTo.quadratic (K : ℝ) (q : Quadratic Extended) :
    RaisedTo K (.quadratic q : Problem Extended G) (.quadratic (q.raise K)) :=
  ⟨q.toObjective_raise K, rfl⟩

theorem RaisedTo.empirical (K : ℝ) (e : Empirical Extended) (sampler : Sampler G) :
    RaisedTo K (.empirical e sampler) (.plain (e.toObjective.raise K)) := ⟨rfl, rfl⟩

end Problem

namespace Descent

variable {G : Type} {problem raised : Problem Extended G}

/-! ## Construction -/

theorem chooseSearch_of_matrix (settings : DescentSettings Extended)
    (h : raised.matrix? = problem.matrix?) :
    chooseSearch settings raised = chooseSearch settings problem := by
  unfold chooseSearch
  cases settings.search with
  | some search => rfl
  | none =>
    dsimp only
    cases problem with
    | plain | empirical =>
      cases raised with
      | plain | empirical => rfl
      | quadratic => cases h
    | quadratic q =>
      cases raised with
      | plain | empirical => cases h
      | quadratic r =>
        have hmatrix : r.matrix = q.matrix := Option.some.inj h
        unfold Quadratic.isPositiveDefinite
        dsimp only
        rw [hmatrix]

theorem start_raise (kind : SolverKind) (settings : DescentSettings Extended)
    (f : Objective Extended) (rule : Strategy Extended) (search : Search Extended)
    (counts keeps : Bool) (point : Vec Extended) :
    start kind settings (f.raise K) rule search counts keeps point =
      Descent.raise K <$> start kind settings f rule search counts keeps point := by
  have hasked : EvalM.Mirrors (Prod.map id (Extended.raise K))
      (do
        let gradient ← f.askGradient point
        let value ← f.askValue point
        return (gradient, value))
      (do
        let gradient ← (f.raise K).askGradient point
        let value ← (f.raise K).askValue point
        return (gradient, value)) := by
    refine (EvalM.mirrors_refl (f.askGradient point)).bind fun gradient => ?_
    refine (EvalM.mirrors_askValue f point).bind fun value => ?_
    exact .pure _ (gradient, value)
  unfold start
  rw [hasked.journaled]
  generalize EvalM.journaled _ = answered
  rcases answered with ⟨results, journal⟩
  cases results with
  | error fault => rfl
  | ok results => rfl

/-- Sizes, method and search are those of the problem itself. -/
theorem create_raise (h : problem.RaisedTo K raised) (kind : SolverKind)
    (settings : DescentSettings Extended) (start : Nested Extended) (keeps : Bool) :
    create kind settings raised start keeps =
      Descent.raise K <$> create kind settings problem start keeps := by
  unfold create
  simp only [map_bind, h.objective, chooseSearch_of_matrix settings h.matrix, start_raise,
    bind_map_left]
  rfl

/-! ## Runs -/

/-- A round of the loop on the raised objective is a round on the objective itself. -/
theorem passes_raise_iff {s t : Runner} :
    Passes (s.raise K) t ↔ ∃ t', Passes s t' ∧ t = t'.raise K := by
  constructor
  · rintro ⟨_, _, hcheck, hadvance, hrecord⟩
    obtain ⟨checked, hchecked, rfl⟩ := raises_check.exists_on hcheck
    obtain ⟨advanced, hadvanced, rfl⟩ := raises_advance.exists_on hadvance
    obtain ⟨t', hrecorded, rfl⟩ := raises_record.exists_on hrecord
    exact ⟨t', ⟨checked, advanced, hchecked, hadvanced, hrecorded⟩, rfl⟩
  · rintro ⟨t', ⟨checked, advanced, hcheck, hadvance, hrecord⟩, rfl⟩
    exact ⟨checked.raise K, advanced.raise K, raises_check.on_raise hcheck,
      raises_advance.on_raise hadvance, raises_record.on_raise hrecord⟩

/-- The states of a solver on the raised objective are those on the objective itself. -/
theorem isRun_raise_iff {solver : Runner} {run : Nat → Runner} {n : Nat} :
    IsRun (solver.raise K) run n ↔
      ∃ run', IsRun solver run' n ∧ ∀ k ≤ n, run k = (run' k).raise K := by
  constructor
  · intro h
    induction n with
    | zero =>
      refine ⟨fun _ => solver.announce (.started solver.kind), ⟨rfl, ?_⟩, ?_⟩
      · exact fun k hk => absurd hk k.not_lt_zero
      · intro k hk
        obtain rfl := Nat.le_zero.mp hk
        exact h.start
    | succ n ih =>
      obtain ⟨run', hrun, hraised⟩ := ih ⟨h.start, fun k hk => h.passes k (Nat.lt_succ_of_lt hk)⟩
      have hpass := h.passes n n.lt_succ_self
      rw [hraised n n.le_refl] at hpass
      obtain ⟨t, hpass, hlast⟩ := passes_raise_iff.mp hpass
      -- The new state is put after the run so far.
      refine ⟨Function.update run' (n + 1) t, ⟨?_, fun k hk => ?_⟩, fun k hk => ?_⟩
      · rw [Function.update_of_ne (by omega)]
        exact hrun.start
      · rw [Function.update_of_ne (by omega)]
        by_cases hinside : k < n
        · rw [Function.update_of_ne (by omega)]
          exact hrun.passes k hinside
        · obtain rfl : k = n := by omega
          rw [Function.update_self]
          exact hpass
      · by_cases hinside : k ≤ n
        · rw [Function.update_of_ne (by omega)]
          exact hraised k hinside
        · obtain rfl : k = n + 1 := by omega
          rw [Function.update_self]
          exact hlast
  · rintro ⟨run', hrun, hraised⟩
    refine ⟨?_, fun k hk => ?_⟩
    · rw [hraised 0 n.zero_le, hrun.start]
      rfl
    · rw [hraised k (Nat.le_of_lt hk), hraised (k + 1) hk]
      exact passes_raise_iff.mpr ⟨run' (k + 1), hrun.passes k hk, rfl⟩

/-- A constant added to the objective raises the value that is reported, and changes nothing
else: a solver on the raised problem is made exactly when one is made on the problem itself,
goes through the same points with the same directions and step sizes, stops with the same
result, and reports the same apart from the value. -/
theorem solve_raise (h : problem.RaisedTo K raised) (kind : SolverKind)
    (settings : DescentSettings Extended) (start : Nested Extended) (keeps : Bool) :
    create kind settings raised start keeps =
        Descent.raise K <$> create kind settings problem start keeps ∧
      ∀ solver, create kind settings problem start keeps = .ok solver →
        (∀ run n, IsRun (solver.raise K) run n ↔
          ∃ run', IsRun solver run' n ∧ ∀ k ≤ n, run k = (run' k).raise K) ∧
        ∀ result final, solve.on solver = (result, final) →
          solve.on (solver.raise K) = (result, final.raise K) ∧
          (final.raise K).summary =
            { final.summary with value := final.summary.value + real K } := by
  refine ⟨create_raise h kind settings start keeps, fun solver _ => ⟨?_, ?_⟩⟩
  · exact fun run n => isRun_raise_iff
  · exact fun result final hsolve => ⟨raises_solve.on_raise hsolve, rfl⟩

theorem solve_raise_valley : ∃ (solver final : Runner) (run : Nat → Runner) (x : Fin 2 → ℝ),
    create .steepest twoSteps
      (.quadratic (Quadratic.ofReals valley 0 0) : Problem Extended Unit)
      (Nested.ofVec [real 8, real 1]) true = .ok solver ∧
    create .steepest twoSteps
      (.quadratic ((Quadratic.ofReals valley 0 0).raise 5) : Problem Extended Unit)
      (Nested.ofVec [real 8, real 1]) true = .ok (solver.raise 5) ∧
    IsRun solver run 2 ∧ IsRun (solver.raise 5) (fun k => (run k).raise 5) 2 ∧
    solve.on solver = (.ok (Vec.reals x), final) ∧
    solve.on (solver.raise 5) = (.ok (Vec.reals x), final.raise 5) ∧
    final.current.iteration = 2 ∧
    (final.raise 5).summary.value = final.summary.value + real 5 := by
  obtain ⟨solver, run, final, hcreate, hrun, hsolve, hiteration⟩ := exists_run_of_unchecked
    (valley_curvesBetween.posDef valley_isSymm) (valley_isPositiveDefinite 0 0)
    (show twoSteps.search = none from rfl) Box.region_open (toPoint_reals_two 8 1) Unit true rfl
    ⟨rfl, rfl, rfl, rfl⟩
  obtain ⟨hmade, hsolver⟩ := solve_raise (.quadratic 5 (Quadratic.ofReals valley 0 0)) .steepest
    twoSteps (Nested.ofVec [real 8, real 1]) true
  rw [hcreate] at hmade
  obtain ⟨hruns, hsolved⟩ := hsolver solver hcreate
  obtain ⟨hraised, hsummary⟩ := hsolved _ final hsolve
  exact ⟨solver, final, run, _, hcreate, hmade, hrun, (hruns _ 2).mpr ⟨run, hrun, fun _ _ => rfl⟩,
    hsolve, hraised, hiteration, congrArg Summary.value hsummary⟩

end Descent

end Downhill
