import Downhill.Minimize
import Downhill.Proofs.Descent.Stopping

/-!
# Alignment of points, gradients and directions

The states of a run describe one course: point, gradient and value of a state belong
together, its previous ones are those of the state before, and every direction and
step is the answer to the entries of its own iteration.  The summary of a complete run
is the last entry.
-/

namespace Downhill

variable {R S α : Type} [Scalar α] [DirectionRule R α] [LineSearch S α]

/-- A course that the states of a run describe up to a number of iterations. -/
structure Course.Aligned (c : Course R α) (settings : DescentSettings α)
    (objective : Objective α) (search : S) (run : Nat → Descent R S α) (n : Nat) : Prop where
  gradient : ∀ k ≤ n, objective.gradient (c.point k) = .ok (c.gradient k)
  value : ∀ k ≤ n, objective.value (c.point k) = .ok (c.value k)
  follows : ∀ k < n, c.Follows settings objective search k
  rule : ∀ k ≤ n, (run k).rule = c.rule k
  current : ∀ k ≤ n, (run k).current = c.iterate k

namespace Descent

open DescentM

/-- The course of a run.  Direction and step of an iteration are found in the state
after it. -/
def course (run : Nat → Descent R S α) : Course R α where
  rule k := (run k).rule
  point k := (run k).current.point
  gradient k := (run k).current.gradient
  value k := (run k).current.value
  direction k := (run (k + 1)).current.direction.getD []
  step k := (run (k + 1)).current.step

omit [DirectionRule R α] [LineSearch S α] in
theorem exists_of_start {kind : SolverKind} {settings : DescentSettings α}
    {objective : Objective α} {rule : R} {search : S} {counts keeps : Bool} {point : Vec α}
    {solver : Descent R S α}
    (h : start kind settings objective rule search counts keeps point = .ok solver) :
    ∃ gradient value, objective.gradient point = .ok gradient ∧
      objective.value point = .ok value := by
  unfold start at h
  unfold Objective.askGradient Objective.askValue at h
  cases hgradient : objective.gradient point with
  | error fault =>
    rw [hgradient] at h
    cases h
  | ok gradient =>
    cases hvalue : objective.value point with
    | error fault =>
      rw [hgradient, hvalue] at h
      cases h
    | ok value => exact ⟨gradient, value, rfl, rfl⟩

omit [DirectionRule R α] [LineSearch S α] in
/-- The first requests do not depend on the rule. -/
theorem start_of_start {kind : SolverKind} {settings : DescentSettings α}
    {objective : Objective α} {rule : R} {search : S} {counts keeps : Bool} {point : Vec α}
    {solver : Descent R S α}
    (h : start kind settings objective rule search counts keeps point = .ok solver) (rule' : R) :
    start kind settings objective rule' search counts keeps point =
      .ok { solver with rule := rule' } := by
  unfold start at h ⊢
  generalize EvalM.journaled _ = answered at h ⊢
  obtain ⟨results, journal⟩ := answered
  cases results with
  | error fault => cases h
  | ok results =>
    cases h
    rfl

/-- A solver of any kind is started with the rule and the search that are chosen for
it. -/
theorem exists_start_of_create {G : Type} {kind : SolverKind} {settings : DescentSettings α}
    {problem : Problem α G} {start : Nested α} {keeps : Bool}
    {solver : Descent (Strategy α) (Search α) α}
    (h : create kind settings problem start keeps = .ok solver) :
    ∃ point rule search counts, start.toPoint = .ok point ∧
      chooseRule kind settings point = .ok rule ∧
      chooseSearch settings problem = .ok (search, counts) ∧
      Descent.start kind settings problem.objective rule search counts keeps point =
        .ok solver := by
  unfold create at h
  obtain ⟨point, hpoint, h⟩ := Fault.bind_eq_ok_iff.mp h
  obtain ⟨_, hsize, h⟩ := Fault.bind_eq_ok_iff.mp h
  obtain ⟨⟨search, counts⟩, hsearch, h⟩ := Fault.bind_eq_ok_iff.mp h
  obtain ⟨started, hstarted, h⟩ := Fault.bind_eq_ok_iff.mp h
  obtain ⟨rule, hrule, h⟩ := Fault.bind_eq_ok_iff.mp h
  obtain rfl := Except.ok.inj h
  exact ⟨point, rule, search, counts, hpoint, hrule, hsearch, start_of_start hstarted rule⟩

theorem exists_size_of_create {G : Type} {kind : SolverKind} {settings : DescentSettings α}
    {problem : Problem α G} {start : Nested α} {keeps : Bool}
    {solver : Descent (Strategy α) (Search α) α}
    (h : create kind settings problem start keeps = .ok solver) :
    ∃ point, start.toPoint = .ok point ∧ settings.box.checkDimension point.length = .ok () := by
  unfold create at h
  obtain ⟨point, hpoint, h⟩ := Fault.bind_eq_ok_iff.mp h
  obtain ⟨_, hsize, -⟩ := Fault.bind_eq_ok_iff.mp h
  exact ⟨point, hpoint, hsize⟩

/-- A quadratic that passes for definite is searched exactly. -/
theorem chooseSearch_of_definite {G : Type} {settings : DescentSettings α} {q : Quadratic α}
    (hdefinite : q.isPositiveDefinite = .ok true) (hsearch : settings.search = none) :
    chooseSearch settings (.quadratic q : Problem α G) = .ok (.exact q.matrix, true) := by
  unfold chooseSearch
  rw [hsearch]
  dsimp only
  rw [hdefinite]
  rfl

/-- A solver that starts with what is chosen for it is the one that is created. -/
theorem create_of_start {G : Type} {kind : SolverKind} {settings : DescentSettings α}
    {problem : Problem α G} {start : Nested α} {keeps counts : Bool} {point : Vec α}
    {rule : Strategy α} {search : Search α} {solver : Descent (Strategy α) (Search α) α}
    (hpoint : start.toPoint = .ok point) (hsize : settings.box.checkDimension point.length = .ok ())
    (hsearch : chooseSearch settings problem = .ok (search, counts))
    (hrule : chooseRule kind settings point = .ok rule)
    (h : Descent.start kind settings problem.objective rule search counts keeps point =
      .ok solver) : create kind settings problem start keeps = .ok solver := by
  have hsteepest := start_of_start h .steepest
  have hsame : { solver with rule } = solver :=
    Except.ok.inj ((start_of_start h rule).symm.trans h)
  unfold create
  simp only [hpoint, hsize, hsearch, hsteepest, hrule, bind, Except.bind]
  exact congrArg Except.ok hsame

namespace IsRun

variable {solver : Descent R S α} {run : Nat → Descent R S α} {n k : Nat}

theorem follows (h : IsRun solver run n) (hk : k < n) (hs : (course run).Describes k (run k)) :
    (course run).Follows (run k).settings (run k).objective (run k).search k ∧
      (course run).Describes (k + 1) (run (k + 1)) ∧ SameSetting (run k) (run (k + 1)) ∧
      (run (k + 1)).history = if (run k).keepsHistory then
        (course run).point (k + 1) :: (run k).history else (run k).history :=
  (h.passes k hk).follows hs rfl rfl rfl rfl rfl rfl

theorem describes (h : IsRun solver run n) (hzero : (course run).Describes 0 (run 0))
    (hk : k ≤ n) : (course run).Describes k (run k) ∧ SameSetting (run 0) (run k) := by
  induction k with
  | zero => exact ⟨hzero, SameSetting.refl _⟩
  | succ k ih =>
    obtain ⟨hs, hsame⟩ := ih (Nat.le_of_succ_le hk)
    obtain ⟨-, hnext, hkept, -⟩ := h.follows hk hs
    exact ⟨hnext, hsame.trans hkept⟩

theorem points (h : IsRun solver run n) (hzero : (course run).Describes 0 (run 0))
    (hfirst : (run 0).points = if (run 0).keepsHistory then [(run 0).point] else [])
    (hk : k ≤ n) : (run k).points =
      if (run 0).keepsHistory then (List.range (k + 1)).map (course run).point else [] := by
  induction k with
  | zero => exact hfirst
  | succ k ih =>
    obtain ⟨hs, hsame⟩ := h.describes hzero (Nat.le_of_succ_le hk)
    obtain ⟨-, -, -, hhistory⟩ := h.follows hk hs
    have hpoints := ih (Nat.le_of_succ_le hk)
    unfold Descent.points at hpoints ⊢
    rw [hhistory, hsame.keepsHistory]
    by_cases hkeeps : (run 0).keepsHistory = true
    · rw [if_pos hkeeps] at hpoints ⊢
      rw [if_pos hkeeps, List.reverse_cons, hpoints, List.range_succ (n := k + 1), List.map_append]
      rfl
    · rw [if_neg hkeeps] at hpoints ⊢
      rw [if_neg hkeeps, hpoints]

end IsRun

/-- Every run of a started solver has a course, and keeps its points on request. -/
theorem aligned_of_isRun {kind : SolverKind} {settings : DescentSettings α}
    {objective : Objective α} {rule : R} {search : S} {counts keeps : Bool} {point : Vec α}
    {solver : Descent R S α} {run : Nat → Descent R S α} {n : Nat}
    (hstart : start kind settings objective rule search counts keeps point = .ok solver)
    (h : IsRun solver run n) :
    (course run).Aligned settings objective search run n ∧ (course run).point 0 = point ∧
      (course run).rule 0 = rule ∧ ∀ k ≤ n, (run k).settings = settings ∧ (run k).points =
        if keeps then (List.range (k + 1)).map (course run).point else [] := by
  obtain ⟨gradient, value, hgradient, hvalue⟩ := exists_of_start hstart
  obtain ⟨tally, heq⟩ := start_eq hgradient hvalue kind settings rule search counts keeps
  obtain rfl := Except.ok.inj (heq.symm.trans hstart)
  have hzero : (course run).Describes 0 (run 0) := by
    refine ⟨rfl, ?_⟩
    show (run 0).current = {
      iteration := 0
      point := (run 0).current.point
      gradient := (run 0).current.gradient
      value := (run 0).current.value
      previousPoint := none
      previousGradient := none
      previousValue := none
      direction := none
      previousDirection := none
      step := 0
      previousStep := 0 }
    rw [h.start]
    rfl
  have hsame : ∀ k ≤ n, (run k).settings = settings ∧ (run k).objective = objective ∧
      (run k).search = search := by
    intro k hk
    obtain ⟨-, hkept⟩ := h.describes hzero hk
    rw [hkept.settings, hkept.objective, hkept.search, h.start]
    exact ⟨rfl, rfl, rfl⟩
  have hfollows : ∀ k < n, (course run).Follows settings objective search k := by
    intro k hk
    obtain ⟨hs, -⟩ := h.describes hzero (Nat.le_of_lt hk)
    obtain ⟨hsettings, hobjective, hsearch⟩ := hsame k (Nat.le_of_lt hk)
    have hk' := (h.follows hk hs).1
    rw [hsettings, hobjective, hsearch] at hk'
    exact hk'
  have hpoint : (course run).point 0 = point := by
    show (run 0).current.point = point
    rw [h.start]
    rfl
  refine ⟨⟨?_, ?_, hfollows, fun k hk => (h.describes hzero hk).1.rule,
    fun k hk => (h.describes hzero hk).1.current⟩, hpoint, ?_, ?_⟩
  · intro k hk
    cases k with
    | zero =>
      show objective.gradient (run 0).current.point = .ok (run 0).current.gradient
      rw [h.start]
      exact hgradient
    | succ k => exact (hfollows k hk).gradient
  · intro k hk
    cases k with
    | zero =>
      show objective.value (run 0).current.point = .ok (run 0).current.value
      rw [h.start]
      exact hvalue
    | succ k => exact (hfollows k hk).value
  · show (run 0).rule = rule
    rw [h.start]
    rfl
  · intro k hk
    refine ⟨(hsame k hk).1, ?_⟩
    have hkeeps : (run 0).keepsHistory = keeps := by
      rw [h.start]
      rfl
    have hpoints := h.points hzero ?_ hk
    · rw [hkeeps] at hpoints
      exact hpoints
    · rw [hkeeps, h.start]
      cases keeps with
      | true => rfl
      | false => rfl

/-- The states of a run are aligned, and so is the result that is read off a solver when
its loop has ended. -/
theorem solve_aligned {G : Type} {kind : SolverKind} {settings : DescentSettings α}
    {problem : Problem α G} {start : Nested α} {keeps : Bool}
    {solver : Descent (Strategy α) (Search α) α}
    (hcreate : create kind settings problem start keeps = .ok solver) :
    (∀ n run, IsRun solver run n → ∃ c : Course (Strategy α) α,
      start.toPoint = .ok (c.point 0) ∧ chooseRule kind settings (c.point 0) = .ok (c.rule 0) ∧
      c.Aligned settings problem.objective solver.search run n) ∧
    ∀ x final, solve.on solver = (.ok x, final) → ∃ n run, ∃ c : Course (Strategy α) α,
      IsRun solver run n ∧ start.toPoint = .ok (c.point 0) ∧
      chooseRule kind settings (c.point 0) = .ok (c.rule 0) ∧
      c.Aligned settings problem.objective solver.search run n ∧
      n ≤ settings.maxIterations ∧ x = c.point n ∧
      final.summary.point = c.point n ∧ final.summary.iterations = n ∧
      problem.objective.value (c.point n) = .ok final.summary.value ∧
      (∃ gradient, problem.objective.gradient (c.point n) = .ok gradient ∧
        final.summary.gradientNorm = Vec.norm gradient) ∧
      final.summary.history = if keeps then (List.range (n + 1)).map c.point else [] := by
  obtain ⟨point, rule, search, counts, hpoint, hrule, hsearch, hstart⟩ :=
    exists_start_of_create hcreate
  obtain ⟨gradient, value, hgradient, hvalue⟩ := exists_of_start hstart
  obtain ⟨tally, heq⟩ := start_eq hgradient hvalue kind settings rule search counts keeps
  obtain rfl := Except.ok.inj (heq.symm.trans hstart)
  constructor
  · intro n run hrun
    obtain ⟨haligned, hfirst, hzero, -⟩ := aligned_of_isRun hstart hrun
    refine ⟨course run, ?_, ?_, haligned⟩
    · rw [hfirst]
      exact hpoint
    · rw [hfirst, hzero]
      exact hrule
  · intro x final hsolve
    obtain ⟨n, hn, run, hrun, stops, checked, hcheck, rfl, rfl⟩ := exists_run_of_solve hsolve
    obtain ⟨haligned, hfirst, hzero, hkept⟩ := aligned_of_isRun hstart hrun
    have halike := alike_of_check hcheck
    have hcurrent : checked.current = (course run).iterate n :=
      halike.current.trans (haligned.current n (Nat.le_refl n))
    have hreached : checked.current.point = (course run).point n := by rw [hcurrent]; rfl
    refine ⟨n, run, course run, hrun, ?_, ?_, haligned, hn, hreached, hreached, ?_, ?_, ?_, ?_⟩
    · rw [hfirst]
      exact hpoint
    · rw [hfirst, hzero]
      exact hrule
    · show checked.current.iteration = n
      rw [hcurrent]
      rfl
    · show _ = Except.ok checked.current.value
      rw [hcurrent]
      exact haligned.value n (Nat.le_refl n)
    · refine ⟨_, haligned.gradient n (Nat.le_refl n), ?_⟩
      show Vec.norm checked.current.gradient = _
      rw [hcurrent]
      rfl
    · rw [← (hkept n (Nat.le_refl n)).2]
      show checked.history.reverse = (run n).history.reverse
      rw [halike.history]

theorem solve_aligned_halving :
    ∃ (solver final : Descent (Strategy ℝ) (Search ℝ) ℝ) (run : Nat → _) (c : Course _ ℝ),
      create .steepest halvingSettings (.plain halvingObjective : Problem ℝ Unit)
        (Nested.ofVec [1]) true = .ok solver ∧
      solve.on solver = (.ok [1 / 8], final) ∧ IsRun solver run 3 ∧
      c.Aligned halvingSettings halvingObjective solver.search run 3 ∧
      c.point 0 = [1] ∧ c.point 3 = [1 / 8] ∧
      final.summary.history = [c.point 0, c.point 1, c.point 2, c.point 3] := by
  obtain ⟨solver, hstart, htracks⟩ := tracks_of_start halving_returns .steepest false true
  obtain ⟨k, e, final, hsolve, hreaches, hfirst, hstopped⟩ :=
    solve_of_tracks halving_returns htracks
  obtain ⟨rfl, -⟩ := halving_first hreaches hfirst
  have hone : (Nested.ofVec [(1 : ℝ)]).toPoint = .ok [1] :=
    Nested.toPoint_ofVec (List.cons_ne_nil _ _)
  have hzero : halving.point 0 = [1] := congrArg (fun x : ℝ => [x]) (pow_zero _)
  have hthree : halving.point 3 = [1 / 8] := congrArg (fun x : ℝ => [x]) (by norm_num)
  rw [hzero] at hstart
  rw [hthree] at hsolve
  have hcreate : create .steepest halvingSettings (.plain halvingObjective : Problem ℝ Unit)
      (Nested.ofVec [1]) true = .ok solver := by
    unfold create
    rw [hone]
    -- Every solver starts with the steepest rule, and here it keeps it.
    show (start .steepest halvingSettings halvingObjective Strategy.steepest
      (.exact [[2]] : Search ℝ) false true [1] >>= Except.ok) = _
    rw [show start .steepest halvingSettings halvingObjective Strategy.steepest
      (.exact [[2]] : Search ℝ) false true [1] = .ok solver from hstart]
    rfl
  obtain ⟨n, run, c, hrun, hpoint, -, haligned, -, hx, -, hn, -, -, hhistory⟩ :=
    (solve_aligned hcreate).2 _ _ hsolve
  obtain rfl : n = 3 := by
    rw [← hn]
    show final.current.iteration = 3
    rw [hstopped.current]
    rfl
  rw [hone] at hpoint
  exact ⟨solver, final, run, c, hcreate, hsolve, hrun, haligned, (Except.ok.inj hpoint).symm,
    hx.symm, hhistory⟩

end Descent

end Downhill
