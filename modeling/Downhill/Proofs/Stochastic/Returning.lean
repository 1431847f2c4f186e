import Downhill.Proofs.Linear.Sizes
import Downhill.Proofs.Stochastic.Loop
import Mathlib.Data.List.Basic

/-!
# Stochastic runs that return

On a problem whose gradient can be estimated at every point of the size of the first one, a
run of a stochastic solver can fail in one place only: where its schedule takes a power of a
number and the result is out of range.  The parameters of a schedule are checked one by one
before the run, and that does not bound the powers.
-/

namespace Downhill

variable {α G : Type} {n : Nat}

/-! ## Schedules -/

/-- The faults of arithmetic with single numbers. -/
def Fault.Arithmetic (fault : Fault) : Prop :=
  fault = .zeroDivision ∨ fault = .overflow ∨ fault = .notReal

namespace Schedule

variable {fault : Fault}

theorem arithmetic_of_toReal {power : Power α} (h : power.toReal = .error fault) :
    fault.Arithmetic := by
  cases power with
  | real value => cases h
  | turned modulus =>
    cases h
    exact Or.inr (Or.inr rfl)

variable [Elementary α]

theorem arithmetic_of_raise {base exponent : α} (h : Power.raise base exponent = .error fault) :
    fault.Arithmetic := by
  unfold Power.raise at h
  dsimp only at h
  split_ifs at h <;> cases h
  · exact Or.inl rfl
  · exact Or.inr (Or.inl rfl)
  · exact Or.inr (Or.inl rfl)

/-- What fails at a step of a schedule with accepted parameters is arithmetic. -/
theorem arithmetic_of_compute {s : Schedule} {parameters : List α}
    (hvalid : s.validate parameters = .ok ()) {k : α}
    (h : s.compute k parameters = .error fault) : fault.Arithmetic := by
  obtain ⟨_, hlength, -⟩ := Fault.bind_eq_ok_iff.mp hvalid
  have hcount := Decidable.not_not.mp (Fault.refuse_eq_ok_iff.mp hlength)
  cases s with
  | constant =>
    obtain ⟨a, rfl⟩ := List.length_eq_one_iff.mp hcount
    cases h
  | scaled =>
    obtain ⟨tau, kappa, rfl⟩ := List.length_eq_two.mp hcount
    rcases Fault.bind_eq_error_iff.mp h with hraise | ⟨power, -, hreal⟩
    · exact arithmetic_of_raise hraise
    · exact arithmetic_of_toReal hreal
  | inverseDecay =>
    obtain ⟨a, b, p, rfl⟩ := List.length_eq_three.mp hcount
    rcases Fault.bind_eq_error_iff.mp h with hraise | ⟨power, -, hdivides⟩
    · exact arithmetic_of_raise hraise
    · split at hdivides
      · cases hdivides
        exact Or.inl rfl
      · rcases Fault.bind_eq_error_iff.mp hdivides with hreal | ⟨divisor, -, hdone⟩
        · exact arithmetic_of_toReal hreal
        · cases hdone
  | exponential =>
    obtain ⟨a, gamma, rfl⟩ := List.length_eq_two.mp hcount
    rcases Fault.bind_eq_error_iff.mp h with hraise | ⟨power, -, hmultiplies⟩
    · exact arithmetic_of_raise hraise
    · rcases Fault.bind_eq_error_iff.mp hmultiplies with hreal | ⟨factor, -, hdone⟩
      · exact arithmetic_of_toReal hreal
      · cases hdone

end Schedule

/-- The schedule has no step in an iteration before the limit. -/
structure StochasticSettings.Unscheduled [Elementary α] (s : StochasticSettings α)
    (iteration : Nat) (fault : Fault) : Prop where
  before : iteration < s.maxIterations
  fails : s.schedule.compute (iteration : α) s.parameters = .error fault

/-! ## Rules -/

section Rules

variable [Scalar α]

/-- A rule that keeps a sum and a scale for every coordinate. -/
def StepRule.Fits (rule : StepRule α) (n : Nat) : Prop :=
  match rule with
  | .plain => True
  | .adaptive squares scaling => squares.length = n ∧ scaling.length = n

namespace StepRule

variable {rule : StepRule α} {g x d : Vec α}

theorem fits_start (method : StochasticMethod) (n : Nat) :
    (start method n : StepRule α).Fits n := by
  cases method with
  | plain => trivial
  | adaptive => exact ⟨Vec.length_zeros n, List.length_replicate⟩

theorem Fits.exists_direction (h : rule.Fits n) (s : StochasticSettings α) (hg : g.length = n) :
    ∃ d next, direction s rule g = (.ok d, next) ∧ d.length = n ∧ next.Fits n := by
  have hneg : g.neg.length = n := (Vec.length_neg g).trans hg
  cases rule with
  | plain => exact ⟨_, _, rfl, hneg, trivial⟩
  | adaptive squares scaling =>
    obtain ⟨sums, hsums, hlength⟩ := Vec.exists_combine (· + ·) h.1
      (y := g.map fun a => a * a) ((List.length_map _).trans hg)
    have hscale : (sums.map (scale s.epsilon)).length = n := (List.length_map _).trans hlength
    obtain ⟨d, hd, hdLength⟩ := Vec.exists_combine (· * ·) hneg hscale
    have hadd : squares.add (g.map fun a => a * a) = .ok sums := hsums
    refine ⟨d, adaptive sums (sums.map (scale s.epsilon)), ?_, hdLength, hlength, hscale⟩
    simp only [direction, hadd]
    exact Prod.ext hd rfl

theorem Fits.exists_reach (h : rule.Fits n) (s : StochasticSettings α) (hx : x.length = n)
    (step : α) (hd : d.length = n) : ∃ y, reach s rule x step d = .ok y ∧ y.length = n := by
  obtain ⟨moved, hmoved, hlength⟩ := Vec.exists_along hx step hd
  unfold reach
  simp only [hmoved, bind, Except.bind]
  split
  · cases rule with
    | plain => exact ⟨_, rfl, (List.length_map _).trans hlength⟩
    | adaptive squares scaling =>
      exact Vec.exists_combine Threshold.soft hlength ((Vec.length_scale _ _).trans h.2)
  · exact ⟨moved, rfl, hlength⟩

end StepRule

end Rules

namespace Stochastic

open StochasticM

/-! ## Estimates -/

section Estimates

variable [Scalar α]

theorem exists_penalised {x e : Vec α} (s : StochasticSettings α) (hx : x.length = n)
    (he : e.length = n) : ∃ g, penalised s x e = .ok g ∧ g.length = n := by
  unfold penalised
  split
  · exact Vec.exists_combine (· + ·) he ((Vec.length_scale _ x).trans hx)
  · exact ⟨e, rfl, he⟩

variable [IndexSource G]

/-- Estimates at points of the size lead from one problem to another. -/
inductive LeadsTo (batch n : Nat) : Problem α G → Problem α G → Prop
  | refl (problem : Problem α G) : LeadsTo batch n problem problem
  | head {problem later : Problem α G} {x : Vec α} (hx : x.length = n)
      (h : LeadsTo batch n (rawEstimate problem batch x).2 later) : LeadsTo batch n problem later

/-- However many estimates have been made before, the gradient can be estimated at every
point of the size. -/
def Estimable (batch n : Nat) (problem : Problem α G) : Prop :=
  ∀ later, LeadsTo batch n problem later → ∀ x : Vec α, x.length = n →
    ∃ g, (rawEstimate later batch x).1 = .ok g ∧ g.length = n

theorem Estimable.exists_estimate {batch : Nat} {problem : Problem α G} {x : Vec α}
    (h : Estimable batch n problem) (hx : x.length = n) :
    ∃ g next, rawEstimate problem batch x = (.ok g, next) ∧ g.length = n ∧
      Estimable batch n next := by
  obtain ⟨g, hg, hlength⟩ := h problem (.refl problem) x hx
  exact ⟨g, _, Prod.ext hg rfl, hlength, fun later hlater => h later (.head hx hlater)⟩

/-- It is enough if an estimate leaves the problem as it is. -/
theorem estimable_of_fixed {batch : Nat} {problem : Problem α G}
    (h : ∀ x : Vec α, x.length = n →
      ∃ g, rawEstimate problem batch x = (.ok g, problem) ∧ g.length = n) :
    Estimable batch n problem := by
  intro later hlater
  have hsame : later = problem := by
    induction hlater with
    | refl problem => rfl
    | head hx _ ih =>
      obtain ⟨g, hg, -⟩ := h _ hx
      rw [hg] at ih
      exact ih h
  subst hsame
  intro x hx
  obtain ⟨g, hg, hlength⟩ := h x hx
  exact ⟨g, congrArg Prod.fst hg, hlength⟩

end Estimates

/-! ## One round -/

/-- A solver whose parts all fit the size, on a problem that can be estimated. -/
structure Ready [Scalar α] [IndexSource G] (s : Stochastic (StepRule α) G α) (n : Nat) :
    Prop where
  settings : s.settings.toLoopSettings.Fits n
  problem : Estimable s.settings.batchSize n s.problem
  rule : s.rule.Fits n
  point : s.point.length = n
  gradient : s.gradient.length = n

/-- After an iteration the solver knows an earlier point. -/
def KnowsEarlier (s : Stochastic (StepRule α) G α) (n : Nat) : Prop :=
  s.iteration ≠ 0 → ∃ p, s.previousPoint = some p ∧ p.length = n

section Rounds

variable [Elementary α] [IndexSource G] {s t : Stochastic (StepRule α) G α}

theorem Ready.of_alike (h : s.Ready n) (ht : Alike s t) : t.Ready n := by
  obtain ⟨settings, problem, rule, point, gradient⟩ := h
  rw [← ht.settings] at settings problem
  rw [← ht.problem] at problem
  rw [← ht.rule] at rule
  rw [← ht.point] at point
  rw [← ht.gradient] at gradient
  exact ⟨settings, problem, rule, point, gradient⟩

theorem Ready.exists_check (h : s.Ready n) (hearlier : s.KnowsEarlier n) :
    ∃ stops t, check.on s = (.ok stops, t) := by
  by_cases hfirst : s.iteration = 0
  · exact ⟨_, _, check_of_first hfirst⟩
  by_cases hlimit : s.settings.maxIterations ≤ s.iteration
  · exact ⟨_, _, check_of_limit hfirst hlimit⟩
  by_cases hchecks : s.settings.checksPoint = true
  · obtain ⟨p, hprevious, hlength⟩ := hearlier hfirst
    obtain ⟨difference, hdifference, -⟩ := Vec.exists_combine (· - ·) h.point hlength
    exact ⟨_, _, check_of_measured hfirst hlimit hchecks hprevious hdifference⟩
  · exact ⟨_, _, check_of_unmeasured hfirst hlimit hchecks⟩

theorem Ready.exists_predicateHolds (h : s.Ready n) :
    ∃ holds, predicateHolds.on s = (.ok holds, s) := by
  obtain ⟨holds, hsome, hnone⟩ := h.settings.exists_holds s.point
  exact ⟨holds, predicateHolds_on hsome hnone⟩

/-- An iteration succeeds if the schedule has a step for it. -/
theorem Ready.advance_cases (h : s.Ready n) :
    (∃ t, advance.on s = (.ok (), t) ∧ t.Ready n ∧ t.KnowsEarlier n ∧ t.settings = s.settings ∧
      t.iteration = s.iteration + 1) ∨
    ∃ fault t, advance.on s = (.error fault, t) ∧ t.iteration = s.iteration ∧
      s.settings.schedule.compute (s.iteration : α) s.settings.parameters = .error fault := by
  obtain ⟨direction, rule, hproposed, hdirection, hrule⟩ :=
    h.rule.exists_direction s.settings h.gradient
  cases hstep : s.settings.schedule.compute (s.iteration : α) s.settings.parameters with
  | error fault =>
    exact Or.inr ⟨fault, _, advance_of_unscheduled hproposed hstep, rfl, rfl⟩
  | ok step =>
    obtain ⟨reached, hreached, hlength⟩ :=
      hrule.exists_reach s.settings h.point step hdirection
    obtain ⟨point, hclamp, hpoint⟩ := h.settings.box.exists_clamp hlength
    obtain ⟨raw, problem, hraw, hrawLength, hproblem⟩ := h.problem.exists_estimate hpoint
    obtain ⟨gradient, hpenalised, hgradient⟩ := exists_penalised s.settings hpoint hrawLength
    have hmoves : s.Moves rule direction step point := ⟨hproposed, hstep, reached, hreached, hclamp⟩
    have hadvance := (hmoves.advance_on.2 _).mpr ⟨raw, problem, gradient, hraw, hpenalised, rfl⟩
    exact Or.inl ⟨_, hadvance, ⟨h.settings, hproblem, hrule, hpoint, hgradient⟩,
      fun _ => ⟨s.point, rfl, h.point⟩, rfl, rfl⟩

/-! ## Runs -/

theorem Ready.iterate_cases (left : Nat) (h : s.Ready n) (hearlier : s.KnowsEarlier n)
    (hleft : s.iteration + left ≤ s.settings.maxIterations) :
    (∃ t, (iterate left).on s = (.ok (), t)) ∨
      ∃ fault t, (iterate left).on s = (.error fault, t) ∧
        s.settings.Unscheduled t.iteration fault := by
  induction left generalizing s with
  | zero =>
    obtain ⟨stops, checked, hcheck⟩ := h.exists_check hearlier
    refine Or.inl ⟨checked, ?_⟩
    unfold iterate
    rw [on_bind hcheck]
    rfl
  | succ left ih =>
    obtain ⟨stops, checked, hcheck⟩ := h.exists_check hearlier
    cases stops with
    | true => exact Or.inl ⟨checked, iterate_of_stop (left + 1) hcheck⟩
    | false =>
      have halike := alike_of_check hcheck
      have hready := h.of_alike halike
      obtain ⟨holds, hpredicate⟩ := hready.exists_predicateHolds
      cases holds with
      | true => exact Or.inl ⟨_, iterate_of_predicate left hcheck hpredicate⟩
      | false =>
        rcases hready.advance_cases with
          ⟨advanced, hadvance, hadvanced, hknows, hsettings, hiteration⟩ |
          ⟨fault, failed, hfails, hstays, hstep⟩
        · obtain ⟨events, hrecord⟩ := record_on advanced
          rw [halike.settings] at hsettings
          rw [halike.iteration] at hiteration
          rw [iterate_succ left hcheck hpredicate hadvance hrecord, ← hsettings]
          refine ih ⟨hadvanced.settings, hadvanced.problem, hadvanced.rule, hadvanced.point,
            hadvanced.gradient⟩ hknows ?_
          show advanced.iteration + left ≤ advanced.settings.maxIterations
          rw [hsettings, hiteration]
          omega
        · rw [halike.settings, halike.iteration] at hstep
          rw [halike.iteration] at hstays
          refine Or.inr ⟨fault, failed, ?_, hstays ▸ ⟨by omega, hstep⟩⟩
          rw [iterate, on_bind hcheck, if_neg Bool.false_ne_true, on_bind hpredicate,
            if_neg Bool.false_ne_true]
          exact on_bind_of_error hfails _

theorem Ready.solve_cases (h : s.Ready n) (hfirst : s.iteration = 0) :
    (∃ x final, solve.on s = (.ok x, final)) ∨
      ∃ fault final, solve.on s = (.error fault, final) ∧
        s.settings.Unscheduled final.iteration fault := by
  have hready : (s.announce (.started s.kind)).Ready n :=
    ⟨h.settings, h.problem, h.rule, h.point, h.gradient⟩
  have hleft : s.iteration + (s.settings.maxIterations - s.iteration) ≤
      s.settings.maxIterations := by
    omega
  rcases hready.iterate_cases (s.settings.maxIterations - s.iteration)
    (fun hne => absurd hfirst hne) hleft with ⟨t, hloop⟩ | ⟨fault, t, hloop, hfails⟩
  · exact Or.inl ⟨_, _, solve_on hloop⟩
  · refine Or.inr ⟨fault, t, ?_, hfails⟩
    unfold solve
    rw [on_bind (on_modify s _), on_bind (on_get _)]
    exact on_bind_of_error hloop _

end Rounds

/-! ## Construction -/

section Create

variable [SeededSource G] {settings : StochasticSettings α} {problem : Problem α G}
  {start : Nested α} {point : Vec α}

/-- A problem cannot be prepared just when it is to be sampled from a seed that is refused. -/
theorem prepare_eq_error_iff {fault : Fault} : prepare settings problem = .error fault ↔
    ∃ e sampler seed, problem = .empirical e sampler ∧ settings.seed = some seed ∧
      (SeededSource.ofSeed seed : Except Fault G) = .error fault := by
  cases problem with
  | plain f | quadratic q =>
    refine iff_of_false (fun h => nomatch h) ?_
    rintro ⟨_, _, _, h, -⟩
    cases h
  | empirical e sampler =>
    unfold prepare
    dsimp only
    cases hseed : settings.seed with
    | none =>
      refine iff_of_false (fun h => nomatch h) ?_
      rintro ⟨_, _, _, -, h, -⟩
      cases h
    | some seed =>
      dsimp only
      rw [Fault.bind_eq_error_iff]
      constructor
      · rintro (h | ⟨source, -, h⟩)
        · exact ⟨e, sampler, seed, rfl, rfl, h⟩
        · cases h
      · rintro ⟨_, _, _, -, h, hfails⟩
        obtain rfl := Option.some.inj h
        exact Or.inl hfails

variable [Scalar α]

/-- Once the problem is prepared, a solver can be made. -/
theorem exists_create_of_prepare {prepared : Problem α G} (kind : SolverKind) (keeps : Bool)
    (hpoint : start.toPoint = .ok point)
    (hsettings : settings.toLoopSettings.Fits point.length)
    (hprepared : prepare settings problem = .ok prepared)
    (hestimable : Estimable settings.batchSize point.length prepared) :
    ∃ solver, create kind settings problem start keeps = .ok solver ∧
      solver.Ready point.length ∧ solver.settings = settings ∧ solver.iteration = 0 := by
  obtain ⟨raw, next, hraw, hlength, hnext⟩ := hestimable.exists_estimate rfl
  obtain ⟨gradient, hgradient, hgradientLength⟩ := exists_penalised settings rfl hlength
  have hestimated : ((rawEstimate prepared settings.batchSize point).1 >>=
      penalised settings point) = .ok gradient := by
    rw [hraw]
    exact hgradient
  have hproblem : Estimable settings.batchSize point.length
      (rawEstimate prepared settings.batchSize point).2 := by
    rw [hraw]
    exact hnext
  rw [create_eq_start kind settings problem keeps hpoint hsettings.box.checkDimension]
  unfold Stochastic.start
  rw [hprepared]
  dsimp only [bind, Except.bind]
  rw [estimate_on]
  dsimp only
  rw [hestimated]
  exact ⟨_, rfl, ⟨hsettings, hproblem, StepRule.fits_start _ _, rfl, hgradientLength⟩, rfl, rfl⟩

theorem create_of_prepare_error {fault : Fault} (kind : SolverKind) (keeps : Bool)
    (hpoint : start.toPoint = .ok point)
    (hsettings : settings.toLoopSettings.Fits point.length)
    (hprepare : prepare settings problem = .error fault) :
    create kind settings problem start keeps = .error fault := by
  rw [create_eq_start kind settings problem keeps hpoint hsettings.box.checkDimension]
  unfold Stochastic.start
  rw [hprepare]
  rfl

end Create

end Stochastic

end Downhill
