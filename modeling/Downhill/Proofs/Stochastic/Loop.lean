import Downhill.Proofs.Stochastic.Run

/-!
# The loop of a stochastic solver

An iteration that succeeds is a move and an estimate where it leads to, and a loop that
succeeds is a sequence of rounds with a check behind it.  The rule of the caller's own
is asked after every check that lets the loop go on, so it can end the loop as well.
-/

namespace Downhill

namespace Stochastic

open StochasticM

variable {R G α : Type} {s t : Stochastic R G α}

theorem eq_of_predicateHolds [Scalar α] {holds : Bool}
    (h : predicateHolds.on s = (.ok holds, t)) : t = s := by
  unfold predicateHolds at h
  rw [on_bind (on_get s)] at h
  split at h
  · exact (congrArg Prod.snd h).symm
  · exact (congrArg Prod.snd h).symm

/-- How a loop ends at the state after its last round: at a check, or by the rule of the
caller's own. -/
def EndsAt [Scalar α] (s final : Stochastic R G α) : Prop :=
  ∃ stops checked, check.on s = (.ok stops, checked) ∧
    (final = checked ∨ stops = false ∧ predicateHolds.on checked = (.ok true, checked) ∧
      final = { checked with customConverged := true })

theorem EndsAt.alike [Scalar α] {final : Stochastic R G α} (h : EndsAt s final) :
    Alike s final := by
  obtain ⟨stops, checked, hcheck, rfl | ⟨-, -, rfl⟩⟩ := h
  · exact alike_of_check hcheck
  · have halike := alike_of_check hcheck
    exact ⟨halike.settings, halike.problem, halike.rule, halike.iteration, halike.point,
      halike.gradient⟩

theorem exists_of_summary [Elementary α] {found : Summary α}
    (h : summary.on s = (.ok found, t)) :
    found.point = s.point ∧ found.iterations = s.iteration := by
  unfold summary at h
  rw [on_bind (on_modify s _), on_bind (on_get _)] at h
  obtain ⟨value, _, hanswer, h⟩ := exists_of_on_bind h
  cases h
  exact ⟨rfl, rfl⟩

theorem summary_on [Elementary α] {value : α} (s : Stochastic R G α)
    (h : s.problem.objective.value s.point = .ok value) :
    (summary.on s).1 = .ok {
      point := s.point, value, iterations := s.iteration, success := s.converged
      verdict := s.verdict, gradientNorm := Vec.norm s.gradient, values := s.values + 1
      gradients := s.estimates, history := s.points } := by
  unfold summary
  rw [on_bind (on_modify s _), on_bind (on_get _)]
  dsimp only
  rw [h]
  rfl

/-! ## Iterations -/

theorem exists_of_findDirection [StochasticRule R α] {direction : Vec α}
    (h : findDirection.on s = (.ok direction, t)) :
    ∃ rule, StochasticRule.direction s.settings s.rule s.gradient = (.ok direction, rule) ∧
      t = { s with rule } := by
  unfold findDirection at h
  rw [on_bind (on_get s)] at h
  rcases hproposed : StochasticRule.direction s.settings s.rule s.gradient with ⟨answered, rule⟩
  rw [hproposed] at h
  dsimp only at h
  rw [on_bind (on_set s _), on_answer] at h
  obtain ⟨rfl, rfl⟩ := Prod.mk.inj h
  exact ⟨rule, rfl, rfl⟩

theorem exists_of_findStep [Elementary α] {step : α} (h : findStep.on s = (.ok step, t)) :
    s.settings.schedule.compute (s.iteration : α) s.settings.parameters = .ok step ∧ t = s := by
  unfold findStep at h
  rw [on_bind (on_get s), on_answer] at h
  obtain ⟨hstep, rfl⟩ := Prod.mk.inj h
  exact ⟨hstep, rfl⟩

theorem exists_of_findPoint [Elementary α] [StochasticRule R α] {direction point : Vec α}
    {step : α}
    (h : (findPoint direction step).on s = (.ok point, t)) :
    (∃ reached, StochasticRule.reach s.settings s.rule s.point step direction = .ok reached ∧
      s.settings.box.clamp reached = .ok point) ∧ t = s := by
  unfold findPoint at h
  rw [on_bind (on_get s)] at h
  obtain ⟨reached, _, hanswer, h⟩ := exists_of_on_bind h
  rw [on_answer] at hanswer h
  obtain ⟨hreached, rfl⟩ := Prod.mk.inj hanswer
  obtain ⟨hclamp, rfl⟩ := Prod.mk.inj h
  exact ⟨⟨reached, hreached, hclamp⟩, rfl⟩

variable [Elementary α] [IndexSource G] [StochasticRule R α]

/-- An iteration that succeeds has found a point first. -/
theorem exists_moves_of_advance (h : advance.on s = (.ok (), t)) :
    ∃ rule direction step point, s.Moves rule direction step point := by
  unfold advance at h
  obtain ⟨_, u, h, -⟩ := exists_of_on_bind h
  unfold advanceOnce at h
  obtain ⟨direction, _, hfound, h⟩ := exists_of_on_bind h
  obtain ⟨rule, hproposed, rfl⟩ := exists_of_findDirection hfound
  rw [on_bind (on_modify _ _)] at h
  obtain ⟨step, _, hfound, h⟩ := exists_of_on_bind h
  obtain ⟨hstep, rfl⟩ := exists_of_findStep hfound
  rw [on_bind (on_modify _ _)] at h
  obtain ⟨point, _, hfound, -⟩ := exists_of_on_bind h
  obtain ⟨hreached, rfl⟩ := exists_of_findPoint hfound
  exact ⟨rule, direction, step, point, hproposed, hstep, hreached⟩

/-! ## Rounds -/

/-- A round moves to a point in the box and estimates the gradient there. -/
theorem Passes.exists_moves (h : Passes s t) :
    ∃ rule direction step raw problem gradient, s.Moves rule direction step t.point ∧
      rawEstimate s.problem s.settings.batchSize t.point = (.ok raw, problem) ∧
      penalised s.settings t.point raw = .ok gradient ∧ t.settings = s.settings ∧
      t.problem = problem ∧ t.gradient = gradient ∧ t.rule = rule ∧
      t.iteration = s.iteration + 1 := by
  obtain ⟨checked, advanced, hcheck, -, hadvance, hrecord⟩ := h
  have halike := alike_of_check hcheck
  obtain ⟨rule, direction, step, point, hmoves⟩ := exists_moves_of_advance hadvance
  obtain ⟨raw, problem, gradient, hraw, hpenalised, rfl⟩ :=
    (hmoves.advance_on.2 advanced).mp hadvance
  obtain ⟨events, hnoted⟩ := record_on _
  obtain rfl := congrArg Prod.snd (hnoted.symm.trans hrecord)
  obtain ⟨hproposed, hscheduled, hreached⟩ := hmoves
  rw [halike.settings, halike.rule, halike.gradient] at hproposed
  rw [halike.settings, halike.iteration] at hscheduled
  rw [halike.settings, halike.point] at hreached
  rw [halike.settings, halike.problem] at hraw
  rw [halike.settings] at hpenalised
  exact ⟨rule, direction, step, raw, problem, gradient, ⟨hproposed, hscheduled, hreached⟩, hraw,
    hpenalised, halike.settings, rfl, rfl, rfl, congrArg (· + 1) halike.iteration⟩

theorem iterate_of_stop (left : Nat) (h : check.on s = (.ok true, t)) :
    (iterate left).on s = (.ok (), t) := by
  cases left with
  | zero =>
    unfold iterate
    rw [on_bind h]
    rfl
  | succ left =>
    unfold iterate
    rw [on_bind h]
    rfl

theorem iterate_of_predicate (left : Nat) (h : check.on s = (.ok false, t))
    (hpredicate : predicateHolds.on t = (.ok true, t)) :
    (iterate (left + 1)).on s = (.ok (), { t with customConverged := true }) := by
  rw [iterate, on_bind h, if_neg Bool.false_ne_true, on_bind hpredicate, if_pos rfl]
  rfl

theorem iterate_succ {checked advanced : Stochastic R G α} (left : Nat)
    (hcheck : check.on s = (.ok false, checked))
    (hpredicate : predicateHolds.on checked = (.ok false, checked))
    (hadvance : advance.on checked = (.ok (), advanced))
    (hrecord : record.on advanced = (.ok (), t)) :
    (iterate (left + 1)).on s = (iterate left).on t := by
  rw [iterate, on_bind hcheck, if_neg Bool.false_ne_true, on_bind hpredicate,
    if_neg Bool.false_ne_true, on_bind hadvance, on_bind hrecord]

/-- The loop of a run, between the announcements of its start and its end. -/
theorem solve_on (h : (iterate (s.settings.maxIterations - s.iteration)).on
      (s.announce (.started s.kind)) = (.ok (), t)) :
    solve.on s = (.ok t.point, t.announce (.settled t.verdict t.iteration)) := by
  unfold solve
  rw [on_bind (on_modify s _), on_bind (on_get _)]
  have hloop : (iterate ((s.announce (.started s.kind)).settings.maxIterations -
      (s.announce (.started s.kind)).iteration)).on (s.announce (.started s.kind)) =
        (.ok (), t) := h
  rw [on_bind hloop, on_bind (on_get _)]
  rfl

theorem exists_run_of_iterate {left : Nat} {final : Stochastic R G α}
    (h : (iterate left).on s = (.ok (), final)) :
    ∃ n ≤ left, ∃ run : Nat → Stochastic R G α, run 0 = s ∧
      (∀ k < n, Passes (run k) (run (k + 1))) ∧ EndsAt (run n) final := by
  induction left generalizing s with
  | zero =>
    unfold iterate at h
    obtain ⟨stops, checked, hcheck, h⟩ := exists_of_on_bind h
    obtain rfl : checked = final := congrArg Prod.snd h
    exact ⟨0, Nat.le_refl 0, fun _ => s, rfl, fun k hk => absurd hk k.not_lt_zero, stops, checked,
      hcheck, Or.inl rfl⟩
  | succ left ih =>
    unfold iterate at h
    obtain ⟨stops, checked, hcheck, h⟩ := exists_of_on_bind h
    cases stops with
    | true =>
      obtain rfl : checked = final := congrArg Prod.snd h
      exact ⟨0, Nat.zero_le _, fun _ => s, rfl, fun k hk => absurd hk k.not_lt_zero, true, checked,
        hcheck, Or.inl rfl⟩
    | false =>
      rw [if_neg Bool.false_ne_true] at h
      obtain ⟨holds, _, hpredicate, h⟩ := exists_of_on_bind h
      obtain rfl := eq_of_predicateHolds hpredicate
      cases holds with
      | true =>
        obtain rfl : _ = final := congrArg Prod.snd h
        exact ⟨0, Nat.zero_le _, fun _ => s, rfl, fun k hk => absurd hk k.not_lt_zero, false, _,
          hcheck, Or.inr ⟨rfl, hpredicate, rfl⟩⟩
      | false =>
        rw [if_neg Bool.false_ne_true] at h
        obtain ⟨_, advanced, hadvance, h⟩ := exists_of_on_bind h
        obtain ⟨_, recorded, hrecord, h⟩ := exists_of_on_bind h
        obtain ⟨n, hn, run, hrun, hpasses, hlast⟩ := ih h
        -- The first round is put before the run of the rest.
        refine ⟨n + 1, Nat.succ_le_succ hn, fun k => Nat.casesOn k s run, rfl, ?_, hlast⟩
        intro k hk
        cases k with
        | zero =>
          show Passes s (run 0)
          rw [hrun]
          exact ⟨_, advanced, hcheck, hpredicate, hadvance, hrecord⟩
        | succ k => exact hpasses k (Nat.lt_of_succ_lt_succ hk)

theorem exists_run_of_solve {solver final : Stochastic R G α} {x : Vec α}
    (h : solve.on solver = (.ok x, final)) :
    ∃ n ≤ solver.settings.maxIterations - solver.iteration, ∃ run, IsRun solver run n ∧
      ∃ ended, EndsAt (run n) ended ∧ x = ended.point ∧
        final = ended.announce (.settled ended.verdict ended.iteration) := by
  unfold solve at h
  rw [on_bind (on_modify solver _), on_bind (on_get _)] at h
  obtain ⟨_, ended, hloop, h⟩ := exists_of_on_bind h
  obtain ⟨n, hn, run, hstart, hpasses, hends⟩ := exists_run_of_iterate hloop
  rw [on_bind (on_get ended), on_bind (on_modify ended _)] at h
  cases h
  exact ⟨n, hn, run, ⟨hstart, hpasses⟩, ended, hends, rfl, rfl⟩

/-- A run counts its iterations and keeps its settings, and every point after the first
one has been brought into the box. -/
theorem IsRun.clamped {solver : Stochastic R G α} {run : Nat → Stochastic R G α} {n k : Nat}
    (h : IsRun solver run n) (hzero : solver.iteration = 0) (hk : k ≤ n) :
    (run k).settings = solver.settings ∧ (run k).iteration = k ∧
      ((k = 0 ∧ (run k).point = solver.point) ∨
        ∃ reached, solver.settings.box.clamp reached = .ok (run k).point) := by
  induction k with
  | zero =>
    rw [h.start]
    exact ⟨rfl, hzero, Or.inl ⟨rfl, rfl⟩⟩
  | succ k ih =>
    obtain ⟨hsettings, hiteration, -⟩ := ih (Nat.le_of_succ_le hk)
    obtain ⟨_, _, _, _, _, _, hmoves, -, -, hkept, -, -, -, hcounted⟩ :=
      (h.passes k hk).exists_moves
    obtain ⟨reached, -, hclamp⟩ := hmoves.reached
    rw [hsettings] at hclamp
    exact ⟨hkept.trans hsettings, by omega, Or.inr ⟨reached, hclamp⟩⟩

end Stochastic

end Downhill
