import Downhill.Proofs.Conjugate.Iteration
import Downhill.Proofs.Descent.Alignment
import Mathlib.Algebra.Order.Star.Real

/-!
# Termination of the conjugate gradient solver

On a positive definite quadratic with `n` variables the solver with the exact
search stops within `n` iterations because the gradient is short.  Its formula and
its policy make no difference to the points it visits, the gradients at these are
orthogonal, and after `n` iterations the gradient is zero.
-/

namespace Downhill

open Matrix

theorem Descent.gradientIsShort_zero {n : Nat} (tolerance : ℝ) :
    gradientIsShort (Vec.norm (List.ofFn (0 : Fin n → ℝ))) tolerance = true := by
  have hfloor : (0 : ℝ) ≤ gradientFloor := by
    unfold gradientFloor
    norm_num
  unfold gradientIsShort
  rw [Vec.norm_ofFn, dotProduct_zero, Real.sqrt_zero, Scalar.real_larger]
  exact decide_eq_true (hfloor.trans (le_max_right _ _))

namespace ConjugateLine

variable {n : Nat} {l : ConjugateLine n} {tolerance : ℝ}

/-- Whether the gradient at an iteration ends the loop. -/
def Ends (l : ConjugateLine n) (tolerance : ℝ) (k : Nat) : Prop :=
  Descent.gradientIsShort (Vec.norm (List.ofFn (l.gradient k))) tolerance = true

theorem gradient_ne_zero {k : Nat} (h : ¬l.Ends tolerance k) : l.gradient k ≠ 0 := by
  intro hzero
  refine h ?_
  unfold Ends
  rw [hzero]
  exact Descent.gradientIsShort_zero tolerance

/-- The first iteration with a short gradient comes within the dimension. -/
theorem exists_first_end (l : ConjugateLine n) (tolerance : ℝ) :
    ∃ last ≤ n, l.Ends tolerance last ∧ ∀ j < last, ¬l.Ends tolerance j := by
  classical
  have hexists : ∃ k, k ≤ n ∧ l.Ends tolerance k := by
    by_contra hnone
    have hlong : ∀ k ≤ n, ¬l.Ends tolerance k := fun k hk hends => hnone ⟨k, hk, hends⟩
    have hzero := gradient_dimension_eq_zero fun j hj => gradient_ne_zero (hlong j hj.le)
    exact gradient_ne_zero (hlong n le_rfl) hzero
  obtain ⟨hle, hends⟩ := Nat.find_spec hexists
  exact ⟨Nat.find hexists, hle, hends, fun j hj hshort =>
    Nat.find_min hexists hj ⟨hj.le.trans hle, hshort⟩⟩

end ConjugateLine

namespace FollowsLine

variable {q : Quadratic ℝ} {l : ConjugateLine q.dimension} {settings : DescentSettings ℝ}
  {keeps : Bool} {k : Nat} {s : Descent (Strategy ℝ) (Search ℝ) ℝ}

/-- What is measured and announced has no influence. -/
theorem of_report (h : FollowsLine q l settings keeps k s) (gradientNorm : ℝ)
    (events : List (Event ℝ)) :
    FollowsLine q l settings keeps k { s with gradientNorm, events } :=
  ⟨h.matrix_eq, h.linear_eq, h.settings, h.objective, h.search, h.rule, h.keepsHistory, h.history,
    h.iteration, h.point, h.gradient, h.previousGradient, h.direction, h.pointConverged,
    h.valueConverged⟩

theorem stops (hsettings : settings.OnlyGradient) (h : FollowsLine q l settings keeps k s)
    (hends : l.Ends settings.gradientTolerance k) (left : Nat) :
    ∃ stopped, FollowsLine q l settings keeps k stopped ∧
      (Descent.iterate left).on s = (.ok (), { stopped with gradientConverged := true }) := by
  refine ⟨{ s with gradientNorm := Vec.norm s.current.gradient }, h.of_report _ _, ?_⟩
  refine Descent.iterate_of_stop left (Descent.check_of_short ?_ ?_)
  · rw [h.settings]
    exact hsettings.checksGradient
  · rw [h.settings, h.gradient]
    exact hends

theorem goes_on (hsettings : settings.OnlyGradient) (h : FollowsLine q l settings keeps k s)
    (hlong : ¬l.Ends settings.gradientTolerance k) (hlimit : k < settings.maxIterations) :
    Descent.check.on s =
      (.ok false, { s with gradientNorm := Vec.norm s.current.gradient }) := by
  refine Descent.check_of_long (h.settings ▸ hsettings) ?_ ?_ h.pointConverged h.valueConverged
  · rw [h.settings, h.gradient]
    exact Bool.eq_false_of_not_eq_true hlong
  · rw [h.settings, h.iteration]
    exact hlimit

/-- The loop follows the recurrence up to the first short gradient. -/
theorem iterate (hsettings : settings.OnlyGradient) (hbox : settings.box = ⟨none, none⟩)
    {last : Nat} (hends : l.Ends settings.gradientTolerance last)
    (hlong : ∀ j < last, ¬l.Ends settings.gradientTolerance j) (hdimension : last ≤ q.dimension)
    (hlimit : last ≤ settings.maxIterations) (left : Nat)
    (h : FollowsLine q l settings keeps k s) (hk : k ≤ last) (hleft : last ≤ k + left) :
    ∃ stopped, FollowsLine q l settings keeps last stopped ∧
      (Descent.iterate left).on s = (.ok (), { stopped with gradientConverged := true }) := by
  induction left generalizing k s with
  | zero =>
    obtain rfl : k = last := by omega
    exact h.stops hsettings hends 0
  | succ left ih =>
    by_cases hlast : k = last
    · subst hlast
      exact h.stops hsettings hends (left + 1)
    have hlt : k < last := by omega
    have hcheck := h.goes_on hsettings (hlong k hlt) (by omega)
    obtain ⟨advanced, recorded, hadvance, hrecord, hnext⟩ :=
      (h.of_report (Vec.norm s.current.gradient) s.events).advance hbox
        (fun j hj => ConjugateLine.gradient_ne_zero (hlong j (hj.trans_lt hlt)))
        (hlt.trans_le hdimension)
    obtain ⟨stopped, hstopped, hrun⟩ := ih hnext hlt (by omega)
    refine ⟨stopped, hstopped, ?_⟩
    rw [Descent.iterate_succ left hcheck hadvance hrecord]
    exact hrun

theorem exists_create {G : Type} (settings : DescentSettings ℝ) (keeps : Bool)
    {start : Nested ℝ} (hmatrix : l.matrix = q.toMatrix)
    (hlinear : l.linear = q.toLinear) (hdefinite : q.isPositiveDefinite = .ok true)
    (hstart : start.toPoint = .ok (List.ofFn l.start)) (hsearch : settings.search = none)
    (hbox : settings.box = ⟨none, none⟩) {formula : BetaFormula}
    (hmethod : settings.method = some (.conjugate formula)) :
    ∃ solver, Descent.create .conjugate settings (.quadratic q : Problem ℝ G) start keeps =
      .ok solver ∧ FollowsLine q l settings keeps 0 solver := by
  have hgradient : q.toObjective.gradient (List.ofFn l.start) = .ok (List.ofFn (l.gradient 0)) :=
    ConjugateLine.quadratic_gradient hmatrix hlinear 0
  have hvalue : q.toObjective.value (List.ofFn l.start) = _ := q.value_ofFn l.start
  have hbounds : settings.box.checkDimension (List.ofFn l.start).length = .ok () := by
    rw [hbox]
    rfl
  have hrule : Descent.chooseRule .conjugate settings (List.ofFn l.start) =
      .ok (.conjugate (Conjugate.start formula settings.restart (List.ofFn l.start).length)) := by
    unfold Descent.chooseRule
    rw [hmethod]
    rfl
  obtain ⟨tally, hstarted⟩ := Descent.start_eq hgradient hvalue .conjugate settings
    (.conjugate (Conjugate.start formula settings.restart (List.ofFn l.start).length) : Strategy ℝ)
    (.exact q.matrix : Search ℝ) true keeps
  refine ⟨_, Descent.create_of_start hstart hbounds
    (Descent.chooseSearch_of_definite hdefinite hsearch) hrule hstarted, ?_⟩
  exact {
    matrix_eq := hmatrix
    linear_eq := hlinear
    settings := rfl
    objective := rfl
    search := rfl
    rule := ⟨_, rfl, List.length_ofFn, rfl⟩
    keepsHistory := rfl
    history := rfl
    iteration := rfl
    point := rfl
    gradient := rfl
    previousGradient := rfl
    direction := rfl
    pointConverged := rfl
    valueConverged := rfl }

end FollowsLine

/-! ## Complete runs -/

/-- The points of the recurrence up to the first short gradient have orthogonal
gradients. -/
theorem ConjugateLine.visited_orthogonal {q : Quadratic ℝ} {l : ConjugateLine q.dimension}
    (hmatrix : l.matrix = q.toMatrix) (hlinear : l.linear = q.toLinear) {last : Nat}
    (hne : ∀ j < last, l.gradient j ≠ 0) :
    (l.visited (last + 1)).Pairwise fun x y => ∃ g g', q.gradient x = .ok g ∧
      q.gradient y = .ok g' ∧ Vec.dot g g' = .ok 0 := by
  unfold visited
  rw [List.pairwise_map]
  refine List.Pairwise.imp_of_mem ?_ List.pairwise_lt_range
  intro i j _ hj hij
  refine ⟨_, _, quadratic_gradient hmatrix hlinear i, quadratic_gradient hmatrix hlinear j, ?_⟩
  rw [List.mem_range] at hj
  rw [Vec.dot_ofFn, dotProduct_comm, gradient_dot_gradient (fun k hk => hne k (by omega)) hij]

/-- Conjugate gradients with the exact search stop within as many iterations as
there are variables.  The points are the same for all formulas and policies. -/
theorem conjugate_terminates {G : Type} {q : Quadratic ℝ} {start : Nested ℝ} {x₀ : Vec ℝ}
    {settings : DescentSettings ℝ} (hposDef : q.toMatrix.PosDef)
    (hdefinite : q.isPositiveDefinite = .ok true) (hstart : start.toPoint = .ok x₀)
    (hsize : x₀.length = q.dimension) (hsearch : settings.search = none)
    (hbox : settings.box = ⟨none, none⟩) (hsettings : settings.OnlyGradient)
    (hlimit : q.dimension ≤ settings.maxIterations) :
    ∃ xs : List (Vec ℝ), xs.length ≤ q.dimension + 1 ∧
      (xs.Pairwise fun x y => ∃ g g', q.gradient x = .ok g ∧ q.gradient y = .ok g' ∧
        Vec.dot g g' = .ok 0) ∧
      (∀ x, xs[q.dimension]? = some x → q.gradient x = .ok (Vec.zeros q.dimension)) ∧
      ∀ (formula : BetaFormula) (policy : RestartPolicy) (keeps : Bool), ∃ solver last final,
        Descent.create .conjugate
          { settings with method := some (.conjugate formula), restart := policy }
          (.quadratic q : Problem ℝ G) start keeps = .ok solver ∧
        Descent.solve.on solver = (.ok last, final) ∧ final.verdict = .gradient ∧
        final.current.iteration + 1 = xs.length ∧ xs.getLast? = some last ∧
        final.points = if keeps then xs else [] := by
  have hpoint : List.ofFn (x₀.coordinates q.dimension) = x₀ := Vec.ofFn_coordinates hsize
  let l : ConjugateLine q.dimension :=
    ⟨q.toMatrix, q.toLinear, x₀.coordinates q.dimension, hposDef⟩
  obtain ⟨last, hlast, hends, hlong⟩ := l.exists_first_end settings.gradientTolerance
  have hne : ∀ j < last, l.gradient j ≠ 0 :=
    fun j hj => ConjugateLine.gradient_ne_zero (hlong j hj)
  refine ⟨l.visited (last + 1), ?_, l.visited_orthogonal rfl rfl hne, ?_, ?_⟩
  · rw [ConjugateLine.length_visited]
    omega
  · intro x hx
    obtain ⟨hn, rfl⟩ := ConjugateLine.of_visited hx
    obtain rfl : last = q.dimension := by omega
    rw [ConjugateLine.quadratic_gradient (l := l) rfl rfl, Vec.zeros_eq_ofFn,
      ConjugateLine.gradient_dimension_eq_zero hne]
  · intro formula policy keeps
    have honly : DescentSettings.OnlyGradient
        { settings with method := some (.conjugate formula), restart := policy } :=
      ⟨hsettings.checksGradient, hsettings.checksPoint, hsettings.checksValue,
        hsettings.predicate⟩
    obtain ⟨solver, hcreate, hsolver⟩ := FollowsLine.exists_create (G := G) (l := l)
      { settings with method := some (.conjugate formula), restart := policy } keeps
      rfl rfl hdefinite (hpoint.symm ▸ hstart) hsearch hbox rfl
    have hstarted := hsolver.of_report solver.gradientNorm (.started solver.kind :: solver.events)
    obtain ⟨stopped, hstopped, hrun⟩ := hstarted.iterate honly hbox hends hlong hlast
      (hlast.trans hlimit) (settings.maxIterations - 0) (Nat.zero_le last) (by omega)
    have hloop : (Descent.iterate (solver.settings.maxIterations - solver.current.iteration)).on
        (solver.announce (.started solver.kind)) =
          (.ok (), { stopped with gradientConverged := true }) := by
      rw [hsolver.settings, hsolver.iteration]
      exact hrun
    refine ⟨solver, _, _, hcreate, Descent.solve_on hloop, rfl, ?_, ?_, ?_⟩
    · rw [ConjugateLine.length_visited]
      exact congrArg (· + 1) hstopped.iteration
    · rw [ConjugateLine.visited_succ, List.getLast?_concat]
      exact congrArg some hstopped.point.symm
    · show stopped.history.reverse = _
      rw [hstopped.history]
      cases keeps with
      | true => exact List.reverse_reverse _
      | false => rfl

/-! ## A bowl of two variables -/

theorem Tridiagonal.negligible_zero (before after : ℝ) : negligible before 0 after = true := by
  unfold negligible
  rw [Scalar.real_abs, abs_zero]
  refine decide_eq_true (mul_nonneg (mul_nonneg (Real.sqrt_nonneg _) (Real.sqrt_nonneg _)) ?_)
  unfold roundoff
  norm_num

/-- A matrix with nothing beside its diagonal has its diagonal for eigenvalues. -/
theorem Tridiagonal.eigenvalues_of_uncoupled {links : List (ℝ × ℝ)}
    (hlinks : ∀ link ∈ links, link.1 = 0) (first : ℝ) {n sweeps : Nat} (hn : links.length < n)
    (hsweeps : sweeps ≠ 0) :
    eigenvalues n sweeps ⟨first, links⟩ = .ok (first :: links.map (·.2)) := by
  induction links generalizing first n with
  | nil =>
    cases n with
    | zero => exact absurd hn (Nat.lt_irrefl 0)
    | succ n => rfl
  | cons link links ih =>
    obtain ⟨beside, entry⟩ := link
    obtain rfl : beside = 0 := hlinks _ List.mem_cons_self
    cases n with
    | zero => exact absurd hn (Nat.not_lt_zero _)
    | succ n =>
      have hsplit : split negligible first ((0, entry) :: links) = ([], (0, entry) :: links) := by
        rw [split, if_pos (negligible_zero first entry)]
      have hrest := ih (fun link h => hlinks link (List.mem_cons_of_mem _ h)) entry
        (Nat.lt_of_succ_lt_succ hn)
      have hblock : Fault.orElse .noConvergence (solveBlock sweeps (⟨first, []⟩ : Tridiagonal ℝ)) =
          .ok ([first], sweeps) := rfl
      rw [eigenvalues]
      simp only [hsplit, hblock, bind, Except.bind, if_neg hsweeps, hrest]
      rfl

/-- The quadratic `½ (x² + 2 y²) - x - y` of two variables. -/
noncomputable def bowl : Quadratic ℝ where
  matrix := [[1, 0], [0, 2.0]]
  linear := [1, 1]
  constant := 0
  rows_eq := rfl
  columns_eq := by
    intro row hrow
    rcases List.mem_pair.mp hrow with rfl | rfl
    · rfl
    · rfl

theorem bowl_matrix : bowl.matrix = [[1, 0], [0, 2]] := by
  have htwo : (2.0 : ℝ) = 2 := by norm_num
  show [[1, 0], [0, 2.0]] = _
  rw [htwo]

theorem bowl_toMatrix : bowl.toMatrix = Matrix.diagonal ![1, 2] := by
  unfold Quadratic.toMatrix
  rw [bowl_matrix]
  ext i j
  fin_cases i <;> fin_cases j <;> rfl

theorem bowl_posDef : bowl.toMatrix.PosDef := by
  rw [bowl_toMatrix]
  refine Matrix.PosDef.diagonal fun i => ?_
  fin_cases i
  · exact one_pos
  · exact two_pos

theorem rangeFactor_two : Mat.rangeFactor (2 : ℝ) = 1 := by
  have hlarge : (2 : ℝ) ≤ Mat.largeMatrix := by
    have hpow : ∀ n : Nat, n ≠ 0 → (2 : ℝ) ≤ (Nat.pow 2 n : ℕ) :=
      fun n hn => by exact_mod_cast Nat.le_self_pow hn 2
    unfold Mat.largeMatrix
    apply hpow
    decide
  have hsmall : (Mat.smallMatrix : ℝ) ≤ 2 := by
    have hone : (1 : ℝ) / Mat.largeMatrix ≤ 1 := by
      rw [div_le_one (by linarith)]
      linarith
    exact hone.trans one_le_two
  unfold Mat.rangeFactor
  rw [if_neg fun h => not_lt.mpr hsmall h.2, if_neg (not_lt.mpr hlarge)]

theorem bowl_eigenvalues : bowl.matrix.eigenvalues = .ok [1, 2] := by
  have hcolumns : bowl.matrix.lowerColumns = [[1, 0], [2]] := by
    rw [bowl_matrix]
    rfl
  have hsize : [[1, 0], [2]].foldl (fun m c => Scalar.maximum m (Vec.greatest c)) (0 : ℝ) = 2 := by
    simp [Vec.greatest, Scalar.maximum]
  have hscaled : ([[1, 0], [2]] : List (Vec ℝ)).map (·.map (· * 1)) = [[1, 0], [2]] := by
    simp
  have hform : Mat.tridiagonal 1 ([[1, 0], [2]] : List (Vec ℝ)) = ⟨1, [(0, 2)]⟩ := by
    simp [Mat.tridiagonal, Reflection.clearing?, Vec.safeNorm, Vec.greatest]
  have hfound : Tridiagonal.eigenvalues 2 60 (⟨1, [(0, 2)]⟩ : Tridiagonal ℝ) = .ok [1, 2] := by
    refine Tridiagonal.eigenvalues_of_uncoupled ?_ 1 (by norm_num) (by norm_num)
    intro link hlink
    rw [List.mem_singleton.mp hlink]
  unfold Mat.eigenvalues
  rw [hcolumns]
  dsimp only
  rw [if_neg (by decide), hsize, rangeFactor_two, hscaled]
  show (Tridiagonal.eigenvalues 2 60 (Mat.tridiagonal 1 [[1, 0], [2]]) >>= fun found =>
    Except.ok (found.map (· * ((1 : ℝ) / 1)))) = _
  rw [hform, hfound]
  show Except.ok [(1 : ℝ) * (1 / 1), 2 * (1 / 1)] = _
  norm_num

theorem bowl_isPositiveDefinite : bowl.isPositiveDefinite = .ok true := by
  unfold Quadratic.isPositiveDefinite
  rw [Mat.isPositiveDefinite_eq_true_iff]
  refine ⟨?_, [1, 2], bowl_eigenvalues, ?_⟩
  · simp [bowl, Mat.nearlySymmetric, Mat.close, Mat.entry, List.range_succ]
  · have htolerance : (Mat.definitenessTolerance : ℝ) < 1 := by
      unfold Mat.definitenessTolerance
      norm_num
    intro x hx
    rcases List.mem_pair.mp hx with rfl | rfl
    · exact htolerance
    · exact htolerance.trans one_lt_two

/-- Settings that leave the gradient and a limit of two iterations to end the loop. -/
noncomputable def twoIterations : DescentSettings ℝ where
  maxIterations := 2
  pointTolerance := 0
  pointPatience := 1
  checksPoint := false
  box := ⟨none, none⟩
  predicate := none
  logEvery := 0
  wolfe := ⟨1e-4, 0.1, 10.0, 100⟩
  firstTrial := .firstOrder
  method := none
  restart := .never
  gradientTolerance := 0
  checksGradient := true
  valueTolerance := 0
  valuePatience := 1
  checksValue := false
  search := none

theorem conjugate_terminates_bowl :
    ∃ xs : List (Vec ℝ), xs.length ≤ 3 ∧
      (∀ x, xs[2]? = some x → bowl.gradient x = .ok (Vec.zeros 2)) ∧
      ∀ (formula : BetaFormula) (policy : RestartPolicy), ∃ solver last final,
        Descent.create .conjugate
          { twoIterations with method := some (.conjugate formula), restart := policy }
          (.quadratic bowl : Problem ℝ Unit) (Nested.ofVec [0, 0]) true = .ok solver ∧
        Descent.solve.on solver = (.ok last, final) ∧ final.verdict = .gradient ∧
        final.points = xs := by
  have hsettings : twoIterations.OnlyGradient := ⟨rfl, rfl, rfl, rfl⟩
  obtain ⟨xs, hlength, -, hzero, hruns⟩ := conjugate_terminates (G := Unit) bowl_posDef
    bowl_isPositiveDefinite (Nested.toPoint_ofVec (x := [0, 0]) (List.cons_ne_nil _ _)) rfl
    (show twoIterations.search = none from rfl) rfl hsettings le_rfl
  refine ⟨xs, hlength, hzero, fun formula policy => ?_⟩
  obtain ⟨solver, last, final, hcreate, hsolve, hverdict, -, -, hpoints⟩ :=
    hruns formula policy true
  exact ⟨solver, last, final, hcreate, hsolve, hverdict, hpoints⟩

end Downhill
