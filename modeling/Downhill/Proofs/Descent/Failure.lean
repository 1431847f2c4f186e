import Downhill.Proofs.Descent.Alignment
import Downhill.Proofs.LineSearch.Memory

/-!
# Where a failed run leaves a solver

What a part of an iteration has written stays when a later part fails.  The point is
written before the gradient and the value there are asked for, and everything else that
can fail comes before that.  So a solver whose run has failed is at the end of its last
complete round, except that it has moved on to a point that has no gradient, or to one
that has a gradient and no value.
-/

namespace Downhill

variable {R S α β γ : Type}

namespace Descent

open DescentM

/-- States of a solver with the same objective, at the same entry of its course. -/
structure SameEntry (s t : Descent R S α) : Prop where
  objective : t.objective = s.objective
  history : t.history = s.history
  iteration : t.current.iteration = s.current.iteration
  point : t.current.point = s.current.point
  gradient : t.current.gradient = s.current.gradient
  value : t.current.value = s.current.value

theorem SameEntry.refl (s : Descent R S α) : SameEntry s s := ⟨rfl, rfl, rfl, rfl, rfl, rfl⟩

theorem SameEntry.trans {s t u : Descent R S α} (h : SameEntry s t) (h' : SameEntry t u) :
    SameEntry s u :=
  ⟨h'.objective.trans h.objective, h'.history.trans h.history, h'.iteration.trans h.iteration,
    h'.point.trans h.point, h'.gradient.trans h.gradient, h'.value.trans h.value⟩

/-- A part that does not leave the entry, whether it succeeds or not. -/
def Stays (s : Descent R S α) (x : DescentM R S α β) : Prop :=
  Ensures s x (fun _ t => SameEntry s t) fun _ t => SameEntry s t

namespace Stays

variable {s t : Descent R S α} {x : DescentM R S α β} {f : β → DescentM R S α γ}

theorem of_sameEntry (h : SameEntry s t) (hx : Stays t x) :
    Ensures t x (fun _ u => SameEntry s u) fun _ u => SameEntry s u :=
  hx.mono (fun _ _ => h.trans) fun _ _ => h.trans

theorem bind (hx : Stays s x) (hf : ∀ b t, Stays t (f b)) : Stays s (x >>= f) :=
  Ensures.bind hx fun b t h => of_sameEntry h (hf b t)

theorem pure (s : Descent R S α) (b : β) : Stays s (Pure.pure b) := SameEntry.refl s

theorem get_bind {f : Descent R S α → DescentM R S α β} (h : Stays s (f s)) :
    Stays s (get >>= f) := h

theorem set (h : SameEntry s t) : Stays s (set t) := h

theorem modify {change : Descent R S α → Descent R S α} (h : SameEntry s (change s)) :
    Stays s (modify change) := h

theorem answer (s : Descent R S α) (result : Except Fault β) : Stays s (answer result) :=
  Ensures.answer (fun _ _ => SameEntry.refl s) fun _ _ => SameEntry.refl s

theorem ask (s : Descent R S α) (m : EvalM α β) : Stays s (ask m) := by
  unfold DescentM.ask
  exact bind (modify ⟨rfl, rfl, rfl, rfl, rfl, rfl⟩) fun _ t => answer t _

theorem askUncounted (s : Descent R S α) (m : EvalM α β) : Stays s (askUncounted m) :=
  answer s _

end Stays

section Parts

variable (s : Descent R S α)

theorem predicateHolds_keeps :
    Ensures s predicateHolds (fun _ t => t = s) fun _ t => SameEntry s t := by
  unfold predicateHolds
  refine Ensures.get_bind ?_
  split
  · exact Ensures.pure rfl
  · exact Ensures.answer (fun _ _ => rfl) fun _ _ => SameEntry.refl s

theorem findDirection_stays [DirectionRule R α] : Stays s findDirection := by
  unfold findDirection
  refine Stays.get_bind ?_
  rcases DirectionRule.propose s.rule s.sight with ⟨proposal, rule⟩
  refine Stays.bind (Stays.set ⟨rfl, rfl, rfl, rfl, rfl, rfl⟩) fun _ t => ?_
  exact Stays.bind (Stays.answer t _) fun direction u => Stays.ask u _

theorem findStep_stays [LineSearch S α] (direction : Vec α) : Stays s (findStep direction) := by
  have hnote : ∀ (outcome : Outcome α) (t : Descent R S α), Stays t (do
      modify (Descent.announce (.searched outcome))
      return outcome.step : DescentM R S α α) :=
    fun outcome t => Stays.bind (Stays.modify ⟨rfl, rfl, rfl, rfl, rfl, rfl⟩)
      fun _ u => Stays.pure u _
  unfold findStep
  refine Stays.get_bind ?_
  dsimp only
  split
  · exact Stays.bind (Stays.ask s _) hnote
  · exact Stays.bind (Stays.askUncounted s _) hnote

variable [Scalar α]

theorem findPoint_stays (direction : Vec α) (step : α) : Stays s (findPoint direction step) := by
  unfold findPoint
  refine Stays.get_bind ?_
  exact Stays.bind (Stays.answer s _) fun reached t => Stays.answer t _

variable [DirectionRule R α]

theorem measurePoint_stays : Stays s measurePoint := by
  unfold measurePoint
  refine Stays.get_bind ?_
  split
  · exact Stays.pure s _
  · have hanswer : ∀ result, Ensures s (answer result : DescentM R S α (Vec α))
        (fun _ t => t = s) fun _ t => SameEntry s t :=
      fun result => Ensures.answer (fun _ _ => rfl) fun _ _ => SameEntry.refl s
    refine Ensures.bind (hanswer _) fun difference t ht => ?_
    subst ht
    exact Stays.set ⟨rfl, rfl, rfl, rfl, rfl, rfl⟩

theorem measureValue_stays : Stays s measureValue := by
  unfold measureValue
  refine Stays.get_bind ?_
  split
  · exact Stays.pure s _
  · exact Stays.set ⟨rfl, rfl, rfl, rfl, rfl, rfl⟩

/-- A check does not leave the entry, even if the rule of the caller's own raises. -/
theorem check_stays : Stays s check := by
  have hdone : ∀ t : Descent R S α, Stays t (do
      let s ← get
      return s.pointConverged || s.valueConverged : DescentM R S α Bool) :=
    fun t => Stays.get_bind (Stays.pure t _)
  unfold check
  refine Stays.bind (Stays.modify ⟨rfl, rfl, rfl, rfl, rfl, rfl⟩) fun _ t => ?_
  refine Stays.get_bind ?_
  dsimp only
  split
  · exact Stays.bind (Stays.set ⟨rfl, rfl, rfl, rfl, rfl, rfl⟩) fun _ u => Stays.pure u _
  refine Ensures.bind (predicateHolds_keeps t) fun holds u hu => ?_
  subst hu
  split
  · exact Stays.bind (Stays.set ⟨rfl, rfl, rfl, rfl, rfl, rfl⟩) fun _ u => Stays.pure u _
  split
  · exact Stays.pure u _
  split
  · exact Stays.pure u _
  split
  · refine Stays.bind (measurePoint_stays u) fun _ v => ?_
    split
    · exact Stays.bind (measureValue_stays v) fun _ w => hdone w
    · exact hdone v
  · split
    · exact Stays.bind (measureValue_stays u) fun _ w => hdone w
    · exact hdone u

/-! ## An iteration that fails -/

/-- How an iteration that fails leaves a solver: where it was, or at a new point that has
no gradient, or at one that has a gradient and no value. -/
inductive Interrupted (s : Descent R S α) (fault : Fault) (t : Descent R S α) : Prop
  | stayed (h : SameEntry s t)
  | noGradient (history : t.history = s.history)
    (iteration : t.current.iteration = s.current.iteration)
    (gradient : t.current.gradient = s.current.gradient)
    (value : t.current.value = s.current.value)
    (raises : s.objective.gradient t.current.point = .error fault)
  | noValue (history : t.history = s.history)
    (iteration : t.current.iteration = s.current.iteration)
    (gradient : s.objective.gradient t.current.point = .ok t.current.gradient)
    (value : t.current.value = s.current.value)
    (raises : s.objective.value t.current.point = .error fault)

omit [Scalar α] [DirectionRule R α] in
theorem ask_spec (m : EvalM α β) : Ensures s (ask m)
    (fun b t => m.journaled.1 = .ok b ∧ t = s.count m.journaled.2)
    fun fault t => m.journaled.1 = .error fault ∧ t = s.count m.journaled.2 := by
  unfold DescentM.ask
  have hmodify : Ensures s (modify (count m.journaled.2) : DescentM R S α PUnit)
      (fun _ t => t = s.count m.journaled.2)
      fun fault t => m.journaled.1 = .error fault ∧ t = s.count m.journaled.2 :=
    Ensures.modify rfl
  refine Ensures.bind hmodify fun _ t ht => ?_
  exact Ensures.answer (fun b h => ⟨h, ht⟩) fun fault h => ⟨h, ht⟩

variable [LineSearch S α]

theorem step_interrupted :
    Ensures s step (fun _ _ => True) fun fault t => Interrupted s fault t := by
  -- Up to the point, every part stays at the entry.
  have hpart : ∀ {δ : Type} {t : Descent R S α} {x : DescentM R S α δ}, SameEntry s t →
      Stays t x → Ensures t x (fun _ u => SameEntry s u) fun fault u => Interrupted s fault u :=
    fun h hx => hx.mono (fun _ _ => h.trans) fun _ _ h' => .stayed (h.trans h')
  unfold step
  refine Ensures.bind (hpart (SameEntry.refl s) (Stays.modify ⟨rfl, rfl, rfl, rfl, rfl, rfl⟩))
    fun _ t ht => ?_
  refine Ensures.bind (hpart ht (findDirection_stays t)) fun direction t ht => ?_
  refine Ensures.bind (hpart ht (Stays.modify ⟨rfl, rfl, rfl, rfl, rfl, rfl⟩)) fun _ t ht => ?_
  refine Ensures.bind (hpart ht (findStep_stays t direction)) fun size t ht => ?_
  refine Ensures.bind (hpart ht (Stays.modify ⟨rfl, rfl, rfl, rfl, rfl, rfl⟩)) fun _ t ht => ?_
  refine Ensures.bind (hpart ht (findPoint_stays t direction size)) fun point t ht => ?_
  refine Ensures.modify_bind (Ensures.modify_bind (Ensures.modify_bind (Ensures.get_bind ?_)))
  have hobjective := ht.objective
  -- The solver is at the new point, with the gradient and the value of the entry.
  refine Ensures.bind ((ask_spec _ _).mono (fun _ _ h => h) ?_) ?_
  · rintro fault u ⟨hraises, rfl⟩
    refine .noGradient ht.history ht.iteration ht.gradient ht.value ?_
    rw [← hobjective]
    exact hraises
  · rintro gradient u ⟨hgradient, rfl⟩
    refine Ensures.modify_bind ?_
    refine Ensures.bind ((ask_spec _ _).mono (fun _ _ h => h) ?_) fun value v _ => ?_
    · rintro fault v ⟨hraises, rfl⟩
      refine .noValue ht.history ht.iteration ?_ ht.value ?_
      · rw [← hobjective]
        exact hgradient
      · rw [← hobjective]
        exact hraises
    · exact Ensures.modify trivial

theorem interrupted_of_advance {fault : Fault} {t : Descent R S α}
    (h : advance.on s = (.error fault, t)) : Interrupted s fault t := by
  have hadvance : Ensures s (advance : DescentM R S α Unit) (fun _ _ => True)
      fun fault t => Interrupted s fault t :=
    Ensures.bind (step_interrupted s) fun _ _ _ => Ensures.modify trivial
  exact hadvance.of_error h

end Parts

/-! ## A run that fails -/

section Runs

variable [Scalar α] [DirectionRule R α] [LineSearch S α] {s solver failed : Descent R S α}
  {fault : Fault}

/-- The round after a state fails, at its check or in its iteration. -/
def FailsAfter (s : Descent R S α) (fault : Fault) (failed : Descent R S α) : Prop :=
  check.on s = (.error fault, failed) ∨
    ∃ checked, check.on s = (.ok false, checked) ∧ advance.on checked = (.error fault, failed)

theorem FailsAfter.interrupted (h : FailsAfter s fault failed) : Interrupted s fault failed := by
  rcases h with hcheck | ⟨checked, hcheck, hadvance⟩
  · exact .stayed ((check_stays s).of_error hcheck)
  · have hsame : SameEntry s checked := (check_stays s).of_ok hcheck
    cases interrupted_of_advance checked hadvance with
    | stayed h => exact .stayed (hsame.trans h)
    | noGradient history iteration gradient value raises =>
      rw [hsame.objective] at raises
      exact .noGradient (history.trans hsame.history) (iteration.trans hsame.iteration)
        (gradient.trans hsame.gradient) (value.trans hsame.value) raises
    | noValue history iteration gradient value raises =>
      rw [hsame.objective] at gradient raises
      exact .noValue (history.trans hsame.history) (iteration.trans hsame.iteration) gradient
        (value.trans hsame.value) raises

/-- A loop that fails does so in the round after some complete rounds. -/
theorem exists_run_of_iterate_failed {left : Nat}
    (h : (iterate left).on s = (.error fault, failed)) :
    ∃ n ≤ left, ∃ run : Nat → Descent R S α, run 0 = s ∧
      (∀ k < n, Passes (run k) (run (k + 1))) ∧ FailsAfter (run n) fault failed := by
  induction left generalizing s with
  | zero =>
    rcases hcheck : check.on s with ⟨result, checked⟩
    unfold iterate at h
    cases result with
    | ok stops =>
      rw [on_bind hcheck] at h
      cases h
    | error fault' =>
      cases (run_bind_of_error hcheck).symm.trans h
      exact ⟨0, Nat.le_refl 0, fun _ => s, rfl, fun k hk => absurd hk k.not_lt_zero,
        Or.inl hcheck⟩
  | succ left ih =>
    rcases hcheck : check.on s with ⟨result, checked⟩
    unfold iterate at h
    cases result with
    | error fault' =>
      cases (run_bind_of_error hcheck).symm.trans h
      exact ⟨0, Nat.zero_le _, fun _ => s, rfl, fun k hk => absurd hk k.not_lt_zero,
        Or.inl hcheck⟩
    | ok stops =>
      rw [on_bind hcheck] at h
      cases stops with
      | true => cases h
      | false =>
        rw [if_neg Bool.false_ne_true] at h
        rcases hadvance : advance.on checked with ⟨result, advanced⟩
        cases result with
        | error fault' =>
          cases (run_bind_of_error hadvance).symm.trans h
          exact ⟨0, Nat.zero_le _, fun _ => s, rfl, fun k hk => absurd hk k.not_lt_zero,
            Or.inr ⟨checked, hcheck, hadvance⟩⟩
        | ok done =>
          rw [on_bind hadvance] at h
          obtain ⟨events, hrecord⟩ := record_on advanced
          rw [on_bind hrecord] at h
          obtain ⟨n, hn, run, hrun, hpasses, hlast⟩ := ih h
          -- The first round is put before the run of the rest.
          refine ⟨n + 1, Nat.succ_le_succ hn, fun k => Nat.casesOn k s run, rfl, ?_, hlast⟩
          intro k hk
          cases k with
          | zero =>
            show Passes s (run 0)
            rw [hrun]
            exact ⟨checked, advanced, hcheck, hadvance, hrecord⟩
          | succ k => exact hpasses k (Nat.lt_of_succ_lt_succ hk)

theorem exists_run_of_solve_failed (h : solve.on solver = (.error fault, failed)) :
    ∃ n ≤ solver.settings.maxIterations - solver.current.iteration, ∃ run,
      IsRun solver run n ∧ FailsAfter (run n) fault failed := by
  unfold solve at h
  rw [on_bind (on_modify solver _), on_bind (on_get _)] at h
  rcases hloop : DescentM.on (iterate _) (solver.announce (.started solver.kind)) with
    ⟨result, ended⟩
  cases result with
  | error fault' =>
    cases (run_bind_of_error hloop).symm.trans h
    obtain ⟨n, hn, run, hstart, hpasses, hfails⟩ := exists_run_of_iterate_failed hloop
    exact ⟨n, hn, run, ⟨hstart, hpasses⟩, hfails⟩
  | ok done =>
    rw [on_bind hloop] at h
    cases h

theorem solve_failed_first {left : Nat} {checked : Descent R S α}
    (hleft : solver.settings.maxIterations - solver.current.iteration = left + 1)
    (hcheck : check.on (solver.announce (.started solver.kind)) = (.ok false, checked))
    (hadvance : advance.on checked = (.error fault, failed)) :
    solve.on solver = (.error fault, failed) := by
  unfold solve
  rw [on_bind (on_modify solver _), on_bind (on_get _)]
  show DescentM.on (iterate (solver.settings.maxIterations - solver.current.iteration) >>= _) _ = _
  rw [hleft]
  refine run_bind_of_error ?_
  show (iterate (left + 1)).on _ = _
  unfold iterate
  rw [on_bind hcheck, if_neg Bool.false_ne_true]
  exact run_bind_of_error hadvance

end Runs

/-- When a run fails, the value that is read off the solver is that of the last complete
round, and so are the count of iterations and the history.  The point and the gradient are
those of that round as well, unless the objective has no gradient or no value at the next
point: the point is that one then, and the gradient belongs to it if there is one. -/
theorem solve_failed {G : Type} [Scalar α] {kind : SolverKind} {settings : DescentSettings α}
    {problem : Problem α G} {start : Nested α} {keeps : Bool}
    {solver failed : Descent (Strategy α) (Search α) α} {fault : Fault}
    (hcreate : create kind settings problem start keeps = .ok solver)
    (hsolve : solve.on solver = (.error fault, failed)) :
    ∃ n run, IsRun solver run n ∧ failed.summary.iterations = n ∧
      problem.objective.value (run n).point = .ok failed.summary.value ∧
      (keeps = true → failed.summary.history.length = failed.summary.iterations + 1 ∧
        failed.summary.history.getLast? = some (run n).point) ∧
      ∃ gradient, failed.summary.gradientNorm = Vec.norm gradient ∧
        (failed.summary.point = (run n).point ∧
            problem.objective.gradient (run n).point = .ok gradient ∨
          problem.objective.gradient failed.summary.point = .error fault ∧
            problem.objective.gradient (run n).point = .ok gradient ∨
          problem.objective.value failed.summary.point = .error fault ∧
            problem.objective.gradient failed.summary.point = .ok gradient) := by
  obtain ⟨point, rule, search, counts, -, -, -, hstart⟩ := exists_start_of_create hcreate
  obtain ⟨n, -, run, hrun, hfails⟩ := exists_run_of_solve_failed hsolve
  obtain ⟨haligned, -, -, hkept⟩ := aligned_of_isRun hstart hrun
  have hcurrent : (run n).current = (course run).iterate n := haligned.current n (Nat.le_refl n)
  have hiteration : (run n).current.iteration = n := congrArg Iterate.iteration hcurrent
  have hgradient : problem.objective.gradient (run n).point = .ok (run n).current.gradient :=
    haligned.gradient n (Nat.le_refl n)
  have hvalue : problem.objective.value (run n).point = .ok (run n).current.value :=
    haligned.value n (Nat.le_refl n)
  have hobjective : (run n).objective = problem.objective := by
    obtain ⟨gradient, value, hfirst, hfirstValue⟩ := exists_of_start hstart
    obtain ⟨tally, heq⟩ := start_eq hfirst hfirstValue kind settings rule search counts keeps
    obtain rfl := Except.ok.inj (heq.symm.trans hstart)
    have hzero : (course run).Describes 0 (run 0) :=
      ⟨haligned.rule 0 (Nat.zero_le n), haligned.current 0 (Nat.zero_le n)⟩
    rw [(hrun.describes hzero (Nat.le_refl n)).2.objective, hrun.start]
    rfl
  have hhistory : failed.history = (run n).history → keeps = true →
      failed.summary.history.length = n + 1 ∧
        failed.summary.history.getLast? = some (run n).point := by
    intro hsame hkeeps
    have hpoints : failed.points = (List.range (n + 1)).map (course run).point := by
      unfold points
      rw [hsame]
      exact (hkept n (Nat.le_refl n)).2.trans (if_pos hkeeps)
    show failed.points.length = n + 1 ∧ failed.points.getLast? = _
    rw [hpoints, List.length_map, List.length_range, List.range_succ, List.map_append]
    exact ⟨rfl, List.getLast?_concat⟩
  refine ⟨n, run, hrun, ?_⟩
  cases hfails.interrupted with
  | stayed h =>
    have hcount : failed.summary.iterations = n := h.iteration.trans hiteration
    rw [hcount]
    refine ⟨rfl, hvalue.trans (congrArg _ h.value.symm), hhistory h.history, _,
      congrArg Vec.norm h.gradient, Or.inl ⟨h.point, hgradient⟩⟩
  | noGradient history iteration gradient value raises =>
    have hcount : failed.summary.iterations = n := iteration.trans hiteration
    rw [hobjective] at raises
    rw [hcount]
    exact ⟨rfl, hvalue.trans (congrArg _ value.symm), hhistory history, _,
      congrArg Vec.norm gradient, Or.inr (Or.inl ⟨raises, hgradient⟩)⟩
  | noValue history iteration gradient value raises =>
    have hcount : failed.summary.iterations = n := iteration.trans hiteration
    rw [hobjective] at gradient raises
    rw [hcount]
    exact ⟨rfl, hvalue.trans (congrArg _ value.symm), hhistory history, _, rfl,
      Or.inr (Or.inr ⟨raises, gradient⟩)⟩

/-! ### A brim

The square of a number has a gradient below one only.  Without a check of the gradient, a run
that starts out at zero goes nowhere until its first point is brought into a box that begins
at one. -/

noncomputable def brimObjective : Objective ℝ where
  value := fun x => .ok (x.headD 0 * x.headD 0)
  gradient := fun x =>
    if x.headD 0 < 1 then .ok [2 * x.headD 0] else .error (.nonSmooth "no gradient at the brim")

noncomputable def brimSettings : DescentSettings ℝ :=
  { halvingSettings with
    box := ⟨some [1], none⟩
    predicate := none
    checksGradient := false
    search := none }

/-- The search along a flat ray stays where it is. -/
theorem brim_search (query : Query ℝ) (hpoint : query.point = [0])
    (hdirection : query.direction = [0]) (hprevious : query.previousPoint = none) :
    ((Search.wolfe brimSettings.wolfe brimSettings.firstTrial).stepSize brimObjective
      query).journaled.1 = .ok ⟨0, .uphill 0⟩ := by
  obtain ⟨point, direction, previousPoint, previousDirection, previousStep⟩ := query
  dsimp only at hpoint hdirection hprevious
  subst hpoint hdirection hprevious
  have hanswers : (⟨brimObjective, [0], [0]⟩ : Ray ℝ).Answers (fun _ => 0) fun _ => 0 := by
    constructor
    · intro step
      refine ⟨[0 + step * 0], rfl, ?_⟩
      show Except.ok ((0 + step * 0) * (0 + step * 0)) = .ok 0
      norm_num
    · intro step
      refine ⟨[0 + step * 0], [2 * (0 + step * 0)], rfl, if_pos ?_, ?_⟩
      · show 0 + step * 0 < 1
        norm_num
      · show Except.ok (0 + 2 * (0 + step * 0) * 0) = .ok 0
        norm_num
  have hflat : brimSettings.wolfe.plainSearch (fun _ => 0) (fun _ => 0) previousStep =
      ⟨0, .uphill 0⟩ := by
    rw [Wolfe.plainSearch_eq]
    exact if_neg (lt_irrefl 0)
  rw [← hflat]
  exact brimSettings.wolfe.explore_search hanswers previousStep

/-- A solver at zero, at any time before there was an iteration. -/
structure AtBrim (s : Descent (Strategy ℝ) (Search ℝ) ℝ) : Prop where
  settings : s.settings = brimSettings
  objective : s.objective = brimObjective
  rule : s.rule = .steepest
  search : s.search = .wolfe brimSettings.wolfe brimSettings.firstTrial
  iteration : s.current.iteration = 0
  point : s.current.point = [0]
  gradient : s.current.gradient = [0]
  previousPoint : s.current.previousPoint = none

theorem AtBrim.advance_fails {s : Descent (Strategy ℝ) (Search ℝ) ℝ} (h : AtBrim s) :
    ∃ failed, advance.on s = (.error (.nonSmooth "no gradient at the brim"), failed) ∧
      failed.current.point = [1] ∧ failed.current.value = s.current.value ∧
      failed.history = s.history := by
  have hpropose : DirectionRule.propose s.rule s.openingSight = (.ok [0], .steepest) := by
    rw [h.rule]
    show (Except.ok (Vec.neg s.current.gradient), Strategy.steepest) = _
    rw [h.gradient]
    exact congrArg (fun x : ℝ => (Except.ok [x], Strategy.steepest)) neg_zero
  have hstep : (LineSearch.stepSize s.search s.objective (s.openingQuery [0])).journaled.1 =
      .ok ⟨0, .uphill 0⟩ := by
    rw [h.search, h.objective]
    exact brim_search _ h.point rfl h.previousPoint
  obtain ⟨searched, hsearch⟩ : ∃ searched,
      (LineSearch.stepSize s.search s.objective (s.openingQuery [0])).journaled =
        (.ok ⟨0, .uphill 0⟩, searched) := ⟨_, Prod.ext hstep rfl⟩
  have hreached : s.current.point.along (0 : ℝ) [0] = .ok [0 + 0 * 0] := by
    rw [h.point]
    rfl
  have hclamp : s.settings.box.clamp [(0 : ℝ) + 0 * 0] = .ok [1] := by
    rw [h.settings]
    show Except.ok [Scalar.larger ((0 : ℝ) + 0 * 0) 1] = .ok [1]
    rw [Scalar.real_larger]
    norm_num
  have hasked := s.objective.journaled_askGradient [1]
  have hraises : s.objective.gradient [1] = .error (.nonSmooth "no gradient at the brim") := by
    rw [h.objective]
    exact if_neg (lt_irrefl 1)
  rw [hraises] at hasked
  obtain ⟨tally, events, hfound⟩ := step_on_found hpropose rfl hsearch hreached hclamp
  have hfails := hfound.trans (run_bind_of_error (on_ask _ hasked))
  exact ⟨_, run_bind_of_error hfails, rfl, rfl, rfl⟩

theorem AtBrim.solve_fails {solver : Descent (Strategy ℝ) (Search ℝ) ℝ} (h : AtBrim solver) :
    ∃ failed, solve.on solver = (.error (.nonSmooth "no gradient at the brim"), failed) ∧
      failed.current.point = [1] ∧ failed.current.value = solver.current.value ∧
      failed.history = solver.history := by
  generalize hs : (solver.announce (.started solver.kind)).gradientMeasured = s
  have hat : AtBrim s := by
    subst hs
    exact ⟨h.settings, h.objective, h.rule, h.search, h.iteration, h.point, h.gradient,
      h.previousPoint⟩
  have hunchecked : s.settings.checksGradient = false := by
    rw [hat.settings]
    rfl
  have hpredicate : predicateHolds.on s = (.ok false, s) := by
    refine predicateHolds_on (fun p hp => ?_) fun _ => rfl
    rw [hat.settings] at hp
    cases hp
  have hlimit : ¬s.settings.maxIterations ≤ s.current.iteration := by
    rw [hat.settings, hat.iteration]
    decide
  have hcheck := check_of_first hs (by rw [hunchecked]; rfl) hpredicate hlimit hat.iteration
  obtain ⟨failed, hadvance, hpoint, hvalue, hhistory⟩ := hat.advance_fails
  have hleft : solver.settings.maxIterations - solver.current.iteration = 9 + 1 := by
    rw [h.settings, h.iteration]
    rfl
  subst hs
  exact ⟨failed, solve_failed_first hleft hcheck hadvance, hpoint, hvalue, hhistory⟩

theorem exists_failed_brim : ∃ solver : Descent (Strategy ℝ) (Search ℝ) ℝ,
    create .steepest brimSettings (.plain brimObjective : Problem ℝ Unit) (Nested.ofVec [0]) true =
        .ok solver ∧
      ∃ failed, solve.on solver = (.error (.nonSmooth "no gradient at the brim"), failed) ∧
        failed.current.point = [1] ∧ failed.current.value = 0 ∧ failed.history = [[0]] := by
  have hgradient : brimObjective.gradient [0] = .ok [0] := by
    show (if (0 : ℝ) < 1 then Except.ok [2 * 0] else _) = Except.ok [0]
    rw [if_pos one_pos, mul_zero]
  have hvalue : brimObjective.value [0] = .ok 0 := congrArg Except.ok (mul_zero 0)
  obtain ⟨tally, hstart⟩ := start_eq (R := Strategy ℝ) hgradient hvalue .steepest brimSettings
    .steepest (Search.wolfe brimSettings.wolfe brimSettings.firstTrial) true true
  have hcreate : create .steepest brimSettings (.plain brimObjective : Problem ℝ Unit)
      (Nested.ofVec [0]) true = .ok _ :=
    create_of_start (Nested.toPoint_ofVec (List.cons_ne_nil (0 : ℝ) [])) rfl rfl rfl hstart
  exact ⟨_, hcreate, AtBrim.solve_fails ⟨rfl, rfl, rfl, rfl, rfl, rfl, rfl, rfl⟩⟩

theorem solve_failed_brim : ∃ (solver failed : Descent (Strategy ℝ) (Search ℝ) ℝ) (fault : Fault)
    (n : Nat) (run : Nat → Descent (Strategy ℝ) (Search ℝ) ℝ),
    create .steepest brimSettings (.plain brimObjective : Problem ℝ Unit) (Nested.ofVec [0]) true =
        .ok solver ∧
      solve.on solver = (.error fault, failed) ∧ IsRun solver run n ∧
      failed.summary.iterations = n ∧
      brimObjective.value (run n).point = .ok failed.summary.value ∧
      failed.summary.history.getLast? = some (run n).point := by
  obtain ⟨solver, hcreate, failed, hsolve, -⟩ := exists_failed_brim
  obtain ⟨n, run, hrun, hcount, hvalue, hhistory, -⟩ := solve_failed hcreate hsolve
  exact ⟨solver, failed, _, n, run, hcreate, hsolve, hrun, hcount, hvalue, (hhistory rfl).2⟩

/-- What is read off the solver after the failure belongs to two points. -/
theorem solve_failed_apart : ∃ (solver failed : Descent (Strategy ℝ) (Search ℝ) ℝ) (fault : Fault),
    create .steepest brimSettings (.plain brimObjective : Problem ℝ Unit) (Nested.ofVec [0]) true =
        .ok solver ∧
      brimSettings.search = none ∧ solve.on solver = (.error fault, failed) ∧
      brimObjective.value failed.summary.point ≠ .ok failed.summary.value ∧
      brimObjective.gradient failed.summary.point = .error fault ∧
      failed.summary.history.getLast? ≠ some failed.summary.point := by
  obtain ⟨solver, hcreate, failed, hsolve, hpoint, hvalue, hhistory⟩ := exists_failed_brim
  refine ⟨solver, failed, _, hcreate, rfl, hsolve, ?_, ?_, ?_⟩
  · show brimObjective.value failed.current.point ≠ .ok failed.current.value
    rw [hpoint, hvalue]
    intro h
    have hone : (1 : ℝ) * 1 = 0 := Except.ok.inj h
    norm_num at hone
  · show brimObjective.gradient failed.current.point = _
    rw [hpoint]
    exact if_neg (lt_irrefl 1)
  · show failed.history.reverse.getLast? ≠ some failed.current.point
    rw [hpoint, hhistory]
    intro h
    have hzero : (0 : ℝ) = 1 := (List.cons.inj (Option.some.inj h)).1
    norm_num at hzero

end Descent

end Downhill
