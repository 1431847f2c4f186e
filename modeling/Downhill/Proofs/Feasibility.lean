import Downhill.Proofs.Linear.Clamp
import Downhill.Proofs.Number.Elementary
import Downhill.Proofs.Steepest.Bounds
import Downhill.Proofs.Stochastic.Loop

/-!
# Feasible results

Every solver brings the point of an iteration into the box and does nothing to the point
it starts from.  So what a run returns lies in the box if there was an iteration or if
the run started there, and otherwise it is the starting point itself.
-/

namespace Downhill

open Extended Matrix

variable {G : Type} {kind : SolverKind} {start : Nested Extended} {keeps : Bool}
  {x : Vec Extended}

/-! ## The two families -/

/-- The point that a run returns is its first one, or one that was brought into the box. -/
def ReturnsFrom (box : Box Extended) (x₀ x : Vec Extended) (iterations : Nat) : Prop :=
  (iterations = 0 ∧ x = x₀) ∨ (iterations ≠ 0 ∧ ∃ reached, box.clamp reached = .ok x)

theorem ReturnsFrom.holds {box : Box Extended} {x₀ : Vec Extended} {iterations : Nat}
    (h : ReturnsFrom box x₀ x iterations) (hbox : box.Accepted)
    (hstart : iterations ≠ 0 ∨ box.Holds x₀) : box.Holds x := by
  rcases h with ⟨hzero, rfl⟩ | ⟨-, reached, hclamp⟩
  · exact hstart.resolve_left fun hne => hne hzero
  · exact Box.holds_of_clamp hbox hclamp

theorem Descent.returnsFrom {settings : DescentSettings Extended} {problem : Problem Extended G}
    {solver final : Descent (Strategy Extended) (Search Extended) Extended}
    (hcreate : create kind settings problem start keeps = .ok solver)
    (hsolve : solve.on solver = (.ok x, final)) :
    ∃ x₀, start.toPoint = .ok x₀ ∧ final.point = x ∧
      ReturnsFrom settings.box x₀ x final.current.iteration := by
  obtain ⟨x₀, rule, search, counts, hpoint, -, -, hstarted⟩ := exists_start_of_create hcreate
  obtain ⟨n, -, run, hrun, stops, checked, hcheck, rfl, rfl⟩ := exists_run_of_solve hsolve
  obtain ⟨haligned, hfirst, -, -⟩ := aligned_of_isRun hstarted hrun
  have hcurrent : checked.current = (course run).iterate n :=
    (alike_of_check hcheck).current.trans (haligned.current n (Nat.le_refl n))
  have hiteration : checked.current.iteration = n := congrArg Iterate.iteration hcurrent
  have hreached : checked.point = (course run).point n := by
    show checked.current.point = _
    rw [hcurrent]
    rfl
  refine ⟨x₀, hpoint, rfl, ?_⟩
  show ReturnsFrom settings.box x₀ checked.point checked.current.iteration
  rw [hiteration, hreached]
  cases n with
  | zero => exact Or.inl ⟨rfl, hfirst⟩
  | succ n =>
    obtain ⟨reached, -, hclamp⟩ := (haligned.follows n n.lt_succ_self).point
    exact Or.inr ⟨n.succ_ne_zero, reached, hclamp⟩

theorem Stochastic.returnsFrom [SeededSource G] {settings : StochasticSettings Extended}
    {problem : Problem Extended G} {solver final : Stochastic (StepRule Extended) G Extended}
    (hcreate : create kind settings problem start keeps = .ok solver)
    (hsolve : solve.on solver = (.ok x, final)) :
    ∃ x₀, start.toPoint = .ok x₀ ∧ final.point = x ∧
      ReturnsFrom settings.box x₀ x final.iteration := by
  obtain ⟨x₀, hpoint, -, hstarted⟩ := exists_start_of_create hcreate
  obtain ⟨_, _, -, -, -, hsettings, -, hzero, hfirst⟩ := exists_of_start hstarted
  obtain ⟨n, -, run, hrun, ended, hends, rfl, rfl⟩ := exists_run_of_solve hsolve
  obtain ⟨-, hiteration, hclamped⟩ := hrun.clamped hzero (Nat.le_refl n)
  have hcounted : ended.iteration = n := hends.alike.iteration.trans hiteration
  refine ⟨x₀, hpoint, rfl, ?_⟩
  show ReturnsFrom settings.box x₀ ended.point ended.iteration
  rw [hcounted, hends.alike.point]
  by_cases hn : n = 0
  · subst hn
    refine Or.inl ⟨rfl, ?_⟩
    rw [hrun.start]
    exact hfirst
  · obtain ⟨hn', -⟩ | hclamped := hclamped
    · exact absurd hn' hn
    · rw [hsettings] at hclamped
      exact Or.inr ⟨hn, hclamped⟩

/-! ## All solvers -/

theorem LoopDraft.accepted_of_validate {draft : LoopDraft Extended}
    {settings : LoopSettings Extended} (h : draft.validate = .ok settings) :
    settings.box.Accepted := by
  obtain ⟨_, -, h⟩ := Fault.bind_eq_ok_iff.mp h
  obtain ⟨_, -, h⟩ := Fault.bind_eq_ok_iff.mp h
  obtain ⟨_, -, h⟩ := Fault.bind_eq_ok_iff.mp h
  obtain ⟨_, -, h⟩ := Fault.bind_eq_ok_iff.mp h
  obtain ⟨_, -, h⟩ := Fault.bind_eq_ok_iff.mp h
  obtain ⟨box, hbox, h⟩ := Fault.bind_eq_ok_iff.mp h
  cases h
  exact ⟨_, _, hbox⟩

theorem DescentDraft.parts_of_validate {α : Type} [Scalar α] {draft : DescentDraft α}
    {settings : DescentSettings α} (h : draft.validate = .ok settings) :
    draft.toLoopDraft.validate = .ok settings.toLoopSettings ∧
      settings.search = draft.search := by
  obtain ⟨loop, hloop, h⟩ := Fault.bind_eq_ok_iff.mp h
  obtain ⟨_, -, h⟩ := Fault.bind_eq_ok_iff.mp h
  obtain ⟨_, -, h⟩ := Fault.bind_eq_ok_iff.mp h
  obtain ⟨_, -, h⟩ := Fault.bind_eq_ok_iff.mp h
  obtain ⟨_, -, h⟩ := Fault.bind_eq_ok_iff.mp h
  obtain ⟨_, -, h⟩ := Fault.bind_eq_ok_iff.mp h
  obtain ⟨_, -, h⟩ := Fault.bind_eq_ok_iff.mp h
  obtain ⟨_, -, h⟩ := Fault.bind_eq_ok_iff.mp h
  cases h
  exact ⟨hloop, rfl⟩

theorem StochasticDraft.parts_of_validate {α : Type} [Scalar α] {draft : StochasticDraft α}
    {settings : StochasticSettings α} (h : draft.validate = .ok settings) :
    draft.toLoopDraft.validate = .ok settings.toLoopSettings ∧
      settings.schedule.validate settings.parameters = .ok () := by
  obtain ⟨loop, hloop, h⟩ := Fault.bind_eq_ok_iff.mp h
  obtain ⟨_, -, h⟩ := Fault.bind_eq_ok_iff.mp h
  obtain ⟨_, -, h⟩ := Fault.bind_eq_ok_iff.mp h
  obtain ⟨_, -, h⟩ := Fault.bind_eq_ok_iff.mp h
  obtain ⟨_, -, h⟩ := Fault.bind_eq_ok_iff.mp h
  obtain ⟨_, -, h⟩ := Fault.bind_eq_ok_iff.mp h
  obtain ⟨_, hschedule, h⟩ := Fault.bind_eq_ok_iff.mp h
  obtain ⟨_, -, h⟩ := Fault.bind_eq_ok_iff.mp h
  cases h
  exact ⟨hloop, hschedule⟩

namespace Settings

/-- Settings that were accepted from a draft. -/
def Accepted : Settings Extended → Prop
  | descent s => ∃ draft : DescentDraft Extended, draft.validate = .ok s
  | stochastic s => ∃ draft : StochasticDraft Extended, draft.validate = .ok s
  | unsupported _ => False

def box : Settings Extended → Box Extended
  | descent s => s.box
  | stochastic s => s.box
  | unsupported _ => ⟨none, none⟩

theorem Accepted.box {settings : Settings Extended} (h : settings.Accepted) :
    settings.box.Accepted := by
  cases settings with
  | descent s =>
    obtain ⟨draft, h⟩ := h
    exact LoopDraft.accepted_of_validate (DescentDraft.parts_of_validate h).1
  | stochastic s =>
    obtain ⟨draft, h⟩ := h
    exact LoopDraft.accepted_of_validate (StochasticDraft.parts_of_validate h).1
  | unsupported _ => exact h.elim

end Settings

namespace Solver

variable [SeededSource G] {settings : Settings Extended} {problem : Problem Extended G}
  {solver final : Solver Extended G}

def iteration : Solver Extended G → Nat
  | descent s => s.current.iteration
  | stochastic s => s.iteration

def point : Solver Extended G → Vec Extended
  | descent s => s.point
  | stochastic s => s.point

theorem returnsFrom (hcreate : createKind kind settings problem start keeps = .ok solver)
    (hsolve : solver.solve = (.ok x, final)) :
    ∃ x₀, start.toPoint = .ok x₀ ∧ final.point = x ∧
      ReturnsFrom settings.box x₀ x final.iteration := by
  cases settings with
  | descent s =>
    obtain ⟨created, hcreated, h⟩ := Fault.bind_eq_ok_iff.mp hcreate
    cases h
    obtain ⟨hresult, rfl⟩ := Prod.mk.inj hsolve
    exact Descent.returnsFrom hcreated (Prod.ext hresult rfl)
  | stochastic s =>
    obtain ⟨created, hcreated, h⟩ := Fault.bind_eq_ok_iff.mp hcreate
    cases h
    obtain ⟨hresult, rfl⟩ := Prod.mk.inj hsolve
    exact Stochastic.returnsFrom hcreated (Prod.ext hresult rfl)
  | unsupported name => cases hcreate

omit [SeededSource G] in
theorem summary_point [IndexSource G] {summary : Summary Extended} {last : Solver Extended G}
    (h : final.summary = (.ok summary, last)) :
    summary.point = final.point ∧ summary.iterations = final.iteration := by
  cases final with
  | descent s =>
    cases h
    exact ⟨rfl, rfl⟩
  | stochastic s =>
    obtain ⟨hsummary, -⟩ := Prod.mk.inj h
    exact Stochastic.exists_of_summary (Prod.ext hsummary rfl)

/-- In every run of every solver with accepted settings, the point that is returned lies in
the box if an iteration was made or if the starting point lies there.  Otherwise it is the
starting point.  The result that is read off afterwards has the same point. -/
theorem solve_feasible (haccepted : settings.Accepted)
    (hcreate : createKind kind settings problem start keeps = .ok solver)
    (hsolve : solver.solve = (.ok x, final)) :
    ∃ x₀, start.toPoint = .ok x₀ ∧ (final.iteration = 0 → x = x₀) ∧
      (final.iteration ≠ 0 ∨ settings.box.Holds x₀ → settings.box.Holds x) ∧
      ∀ summary last, final.summary = (.ok summary, last) →
        summary.point = x ∧ summary.iterations = final.iteration := by
  obtain ⟨x₀, hpoint, rfl, hreturns⟩ := returnsFrom hcreate hsolve
  refine ⟨x₀, hpoint, fun hzero => ?_, hreturns.holds haccepted.box, fun _ _ => summary_point⟩
  rcases hreturns with ⟨-, heq⟩ | ⟨hne, -⟩
  · exact heq
  · exact absurd hzero hne

/-! ### Lower bounds in a valley

With nothing but lower bounds set, steepest descent in the valley starts out from `(8, 1)`,
and it stays at the lowest point of the valley even if that lies below the bounds. -/

noncomputable def aboveDraft (l₁ l₂ : ℝ) : DescentDraft Extended :=
  { method := .absent, lower := some (Nested.ofVec [real l₁, real l₂]) }

/-- The default settings, apart from the method and the lower bounds. -/
noncomputable def aboveSettings (l₁ l₂ : ℝ) : DescentSettings Extended where
  maxIterations := 10000
  pointTolerance := 1e-10
  pointPatience := 1
  checksPoint := true
  box := ⟨some [real l₁, real l₂], none⟩
  predicate := none
  logEvery := 0
  wolfe := ⟨1e-4, 0.1, 10.0, Wolfe.defaultZoomLimit⟩
  firstTrial := .firstOrder
  method := none
  restart := .orthogonality
  gradientTolerance := 1e-6
  checksGradient := true
  valueTolerance := 1e-10
  valuePatience := 1
  checksValue := true
  search := none

theorem refuse_of_nonneg {x : ℝ} (hx : 0 ≤ x) (cause : Invalid) :
    Fault.refuse (real x < 0) cause = .ok () :=
  Fault.refuse_eq_ok_iff.mpr (mt real_lt_real.mp (not_lt.mpr hx))

theorem validate_above (l₁ l₂ : ℝ) : (aboveDraft l₁ l₂).validate = .ok (aboveSettings l₁ l₂) := by
  have hloop : (aboveDraft l₁ l₂).toLoopDraft.validate =
      .ok (aboveSettings l₁ l₂).toLoopSettings := by
    refine Fault.bind_eq_ok_iff.mpr ⟨(), rfl, ?_⟩
    refine Fault.bind_eq_ok_iff.mpr ⟨(), refuse_of_nonneg (by norm_num) _, ?_⟩
    rfl
  refine Fault.bind_eq_ok_iff.mpr ⟨_, hloop, ?_⟩
  refine Fault.bind_eq_ok_iff.mpr ⟨(), ?_, ?_⟩
  · show Wolfe.checkConstants (real 1e-4) (real 0.1) (real 10.0) = .ok ()
    unfold Wolfe.checkConstants
    simp only [Fault.bind_eq_ok_iff, Fault.refuse_eq_ok_iff, zero_eq, one_eq, real_lt_real]
    norm_num
  refine Fault.bind_eq_ok_iff.mpr ⟨(), refuse_of_nonneg (by norm_num) _, ?_⟩
  refine Fault.bind_eq_ok_iff.mpr ⟨(), refuse_of_nonneg (by norm_num) _, ?_⟩
  rfl

theorem exists_solve_above (l₁ l₂ x y : ℝ) : ∃ (solver final : Solver Extended Generator) (k : Nat)
    (e : Ending),
    createKind .steepest (.descent (aboveSettings l₁ l₂))
        (.quadratic (Quadratic.ofReals valley 0 0)) (Nested.ofVec [real x, real y]) true =
      .ok solver ∧
    solver.solve =
      (.ok (Vec.reals (steepestPoint valley 0 (aboveSettings l₁ l₂).box ![x, y] k)), final) ∧
    final.iteration = k ∧
    (steepestCourse valley 0 0 (aboveSettings l₁ l₂).box ![x, y]).Reaches
      (aboveSettings l₁ l₂) k ∧
    (steepestCourse valley 0 0 (aboveSettings l₁ l₂).box ![x, y]).EndsFirst
      (aboveSettings l₁ l₂) k e := by
  have hregion : ((aboveSettings l₁ l₂).box.region 2).Nonempty :=
    ⟨_, Box.mem_region_above le_rfl le_rfl⟩
  obtain ⟨solver, k, e, final, run, hcreate, hsolve, -, hcurrent, hreaches, hfirst⟩ :=
    exists_solve (valley_curvesBetween.posDef valley_isSymm) (valley_isPositiveDefinite 0 0)
      (show (aboveSettings l₁ l₂).search = none from rfl) hregion (toPoint_reals_two x y) Generator
      true rfl (fun p hp => nomatch hp)
  refine ⟨.descent solver, .descent final, k, e, ?_, ?_, congrArg Iterate.iteration hcurrent,
    hreaches, hfirst⟩
  · exact Fault.bind_eq_ok_iff.mpr ⟨solver, hcreate, rfl⟩
  · show ((Descent.solve.on solver).map id Solver.descent) = _
    rw [hsolve]
    rfl

theorem endsAt_gradient_iff (l₁ l₂ x y : ℝ) :
    (steepestCourse valley 0 0 (aboveSettings l₁ l₂).box ![x, y]).Ends (aboveSettings l₁ l₂) 0
      .gradient ↔ √(x * x + 4 * y * (4 * y)) ≤ 1e-6 := by
  have hnorm : Vec.norm (Vec.reals (formGradient valley 0 ![x, y])) =
      real √(x * x + 4 * y * (4 * y)) := by
    rw [formGradient_valley, Vec.norm_reals]
    simp [dotProduct, Fin.sum_univ_two]
  have htolerance : Scalar.larger (real 1e-6) Descent.gradientFloor = real 1e-6 := by
    unfold Descent.gradientFloor
    rw [ofScientific_eq, larger_real]
    norm_num
  show true = true ∧ Vec.norm (Vec.reals (formGradient valley 0 ![x, y])) ≤
    Scalar.larger (real 1e-6) Descent.gradientFloor ↔ _
  rw [hnorm, htolerance, real_le_real]
  exact and_iff_right rfl

theorem solve_feasible_above : ∃ (solver final : Solver Extended Generator) (x : Vec Extended),
    (Settings.descent (aboveSettings 0 2)).Accepted ∧
    createKind .steepest (.descent (aboveSettings 0 2))
        (.quadratic (Quadratic.ofReals valley 0 0)) (Nested.ofVec [real 8, real 1]) true =
      .ok solver ∧
    solver.solve = (.ok x, final) ∧ ¬(aboveSettings 0 2).box.Holds (Vec.reals ![8, 1]) ∧
    (aboveSettings 0 2).box.Holds x := by
  have haccepted : (Settings.descent (aboveSettings 0 2)).Accepted := ⟨_, validate_above 0 2⟩
  obtain ⟨solver, final, k, e, hcreate, hsolve, hiteration, hreaches, hfirst⟩ :=
    exists_solve_above 0 2 8 1
  obtain ⟨x₀, -, -, hfeasible, -⟩ := solve_feasible haccepted hcreate hsolve
  -- The gradient is long where the run starts, and nothing else can end it there.
  have hmoved : k ≠ 0 := by
    rintro rfl
    cases e with
    | gradient =>
      have hshort := (endsAt_gradient_iff 0 2 8 1).mp hfirst.1
      have hlong : (1 : ℝ) ≤ √(8 * 8 + 4 * 1 * (4 * 1)) := Real.one_le_sqrt.mpr (by norm_num)
      have hfloor : (1 : ℝ) ≤ 1e-6 := hlong.trans hshort
      norm_num at hfloor
    | custom =>
      obtain ⟨p, hp, -⟩ := hfirst.1
      cases hp
    | limit =>
      have hlimit : 10000 ≤ 0 := hfirst.1
      omega
    | point | value => exact absurd hfirst.1.2.1 (Nat.lt_irrefl 0)
  refine ⟨solver, final, _, haccepted, hcreate, hsolve, ?_,
    hfeasible (Or.inl (hiteration.symm ▸ hmoved))⟩
  intro hholds
  have hlow := real_le_real.mp (hholds 1 (real 1) rfl rfl).1
  norm_num at hlow

theorem solve_infeasible_above : ∃ (solver final : Solver Extended Generator) (x : Vec Extended),
    (Settings.descent (aboveSettings 1 1)).Accepted ∧
    createKind .steepest (.descent (aboveSettings 1 1))
        (.quadratic (Quadratic.ofReals valley 0 0)) (Nested.ofVec [real 0, real 0]) true =
      .ok solver ∧
    solver.solve = (.ok x, final) ∧ ¬(aboveSettings 1 1).box.Holds x := by
  obtain ⟨solver, final, k, e, hcreate, hsolve, -, hreaches, -⟩ := exists_solve_above 1 1 0 0
  have hends : (steepestCourse valley 0 0 (aboveSettings 1 1).box ![0, 0]).Ends
      (aboveSettings 1 1) 0 .gradient := by
    rw [endsAt_gradient_iff]
    norm_num
  obtain rfl : k = 0 := by
    by_contra hk
    exact hreaches 0 (Nat.pos_of_ne_zero hk) .gradient hends
  refine ⟨solver, final, _, ⟨_, validate_above 1 1⟩, hcreate, hsolve, ?_⟩
  intro hholds
  have hlow := real_le_real.mp (hholds 0 (real 0) rfl rfl).1
  norm_num at hlow

end Solver

end Downhill
