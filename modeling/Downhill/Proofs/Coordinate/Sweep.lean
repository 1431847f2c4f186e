import Downhill.Proofs.Coordinate.Relaxation
import Downhill.Proofs.Conjugate.Termination
import Downhill.Proofs.Descent.Prescribed

/-!
# Sweeps of coordinate descent

In the cyclic order the solver relaxes one coordinate after the other.  If it stops
because the point has not moved in a whole sweep, no relaxation moves the point at which
it stops, and all slopes there are hidden from the probe.
-/

namespace Downhill

open Matrix

/-! ## The course -/

section Turns

variable {n : Nat} (hn : 0 < n)
include hn

/-- The coordinate that is the turn of an iteration. -/
def axisOf (k : Nat) : Fin n := ⟨k % n, Nat.mod_lt k hn⟩

/-- Every coordinate has its turn among as many iterations as there are coordinates. -/
theorem exists_axisOf_eq (s : Nat) (i : Fin n) : ∃ k, s ≤ k ∧ k < s + n ∧ axisOf hn k = i := by
  obtain ⟨k, hlow, hhigh, hheading⟩ :=
    (@CoordinateOrder.covers_iff .cycle n hn n).mpr le_rfl s i i.isLt
  exact ⟨k, hlow, hhigh, Fin.ext (Heading.axis.inj hheading)⟩

end Turns

/-- The rule of the cyclic order in an iteration. -/
def cycleRule {P : Type} (n : Nat) (point : P) (k : Nat) : Coordinate P :=
  { Coordinate.start .cycle n point with current := k % n }

theorem cycleRule_zero {P : Type} (n : Nat) (point : P) :
    cycleRule n point 0 = .start .cycle n point := by
  unfold cycleRule
  rw [Nat.zero_mod]
  rfl

theorem cycleRule_next {n : Nat} (hn : 0 < n) (point : Vec ℝ) (k : Nat) :
    (cycleRule n point k).next =
      (.ok (List.ofFn (Pi.single (axisOf hn k) 1)), cycleRule n point (k + 1)) := by
  unfold Coordinate.next Coordinate.nextWith
  rw [if_neg (show (cycleRule n point k).dimension ≠ 0 from hn.ne')]
  refine Prod.ext (Vec.unit_ofFn (axisOf hn k)) ?_
  unfold cycleRule
  rw [← Nat.mod_add_mod]
  rfl

section Course

variable (q : Quadratic ℝ) (hn : 0 < q.dimension) (x₀ : Fin q.dimension → ℝ)

/-- The coordinates are relaxed in turn. -/
noncomputable def sweepPoint : Nat → Fin q.dimension → ℝ
  | 0 => x₀
  | k + 1 => relax q.toMatrix q.toLinear (sweepPoint k) (axisOf hn k)

noncomputable def sweepCourse : Course (Strategy ℝ) ℝ where
  rule k := .coordinate (cycleRule q.dimension (List.ofFn x₀) k)
  point k := List.ofFn (sweepPoint q hn x₀ k)
  gradient k := List.ofFn (formGradient q.toMatrix q.toLinear (sweepPoint q hn x₀ k))
  value k := formValue q.toMatrix q.toLinear q.constant (sweepPoint q hn x₀ k)
  direction k :=
    List.ofFn (axisDirection q.toMatrix q.toLinear (sweepPoint q hn x₀ k) (axisOf hn k))
  step k := axisStep q.toMatrix q.toLinear (sweepPoint q hn x₀ k) (axisOf hn k)

variable {q}

theorem sweepCourse_follows {settings : DescentSettings ℝ} (hposDef : q.toMatrix.PosDef)
    (hbox : settings.box = ⟨none, none⟩) (k : Nat) :
    (sweepCourse q hn x₀).Follows settings q.toObjective (.exact q.matrix : Search ℝ) k where
  direction := by
    have hnext := cycleRule_next hn (List.ofFn x₀) k
    refine ⟨List.ofFn (Pi.single (axisOf hn k) 1),
      .coordinate (cycleRule q.dimension (List.ofFn x₀) (k + 1)), ?_, ?_, rfl⟩
    · show (let (direction, rule) := (cycleRule q.dimension (List.ofFn x₀) k).next
        (direction, Strategy.coordinate rule)) = _
      rw [hnext]
    · exact Coordinate.orient_single (isSymm_of_posDef hposDef) _ _
  step := ⟨.accepted, Exact.search_eq_bestStep rfl rfl⟩
  point := by
    let x := sweepPoint q hn x₀ k
    let i := axisOf hn k
    refine ⟨_, Vec.along_ofFn _ _ _, ?_⟩
    show settings.box.clamp (List.ofFn (x + axisStep q.toMatrix q.toLinear x i •
      axisDirection q.toMatrix q.toLinear x i)) = _
    rw [add_axisStep_smul q.toLinear hposDef.diag_pos, hbox]
    rfl
  gradient := q.gradient_eq_form _
  value := q.value_eq_form _

/-! ## Sweeps without a change -/

section Idle

variable {hn x₀} {settings : DescentSettings ℝ} {p k : Nat}
  (htolerance : settings.pointTolerance = 0)
include htolerance

/-- Without a tolerance an entry is idle only if the point has not moved at all. -/
theorem sweepCourse_pointIdle_iff : (sweepCourse q hn x₀).PointIdle settings (k + 1) ↔
    sweepPoint q hn x₀ (k + 1) = sweepPoint q hn x₀ k := by
  let move := sweepPoint q hn x₀ (k + 1) - sweepPoint q hn x₀ k
  have hchange : (sweepCourse q hn x₀).pointChange (k + 1) = some √(move ⬝ᵥ move) := by
    unfold Course.pointChange
    rw [Nat.add_sub_cancel, ← Vec.norm_ofFn]
    exact congrArg (fun moved => moved.toOption.map Vec.norm) (Vec.sub_ofFn _ _)
  unfold Course.PointIdle
  rw [hchange, htolerance, ← sub_eq_zero]
  constructor
  · rintro ⟨change, hsome, hle⟩
    obtain rfl := Option.some.inj hsome
    have hzero := le_antisymm (Real.sqrt_eq_zero'.mp (le_antisymm hle (Real.sqrt_nonneg _)))
      (dotProduct_self_nonneg move)
    exact dotProduct_self_eq_zero.mp hzero
  · intro hzero
    refine ⟨_, rfl, ?_⟩
    rw [show move = 0 from hzero, dotProduct_zero, Real.sqrt_zero]

theorem sweepPoint_eq_of_stalled (h : Stalled ((sweepCourse q hn x₀).PointIdle settings) p k)
    {j : Nat} (hlow : k - p ≤ j) (hhigh : j ≤ k) :
    sweepPoint q hn x₀ k = sweepPoint q hn x₀ j := by
  obtain ⟨-, hidle⟩ := h
  have hupTo : ∀ m, j ≤ m → m ≤ k → sweepPoint q hn x₀ m = sweepPoint q hn x₀ j := by
    intro m hm
    induction m, hm using Nat.le_induction with
    | base => exact fun _ => rfl
    | succ m hm ih =>
      intro hle
      have hlast := hidle (k - (m + 1)) (by omega)
      rw [Nat.sub_sub_self hle, sweepCourse_pointIdle_iff htolerance] at hlast
      exact hlast.trans (ih (Nat.le_of_succ_le hle))
  exact hupTo k hhigh le_rfl

/-- A point that has stayed for a sweep is one that no relaxation moves. -/
theorem relax_sweepPoint_of_stalled
    (h : Stalled ((sweepCourse q hn x₀).PointIdle settings) p k) (hp : q.dimension ≤ p)
    (i : Fin q.dimension) :
    relax q.toMatrix q.toLinear (sweepPoint q hn x₀ k) i = sweepPoint q hn x₀ k := by
  have hlong := h.1
  obtain ⟨j, hlow, hhigh, rfl⟩ := exists_axisOf_eq hn (k - p) i
  have hbefore := sweepPoint_eq_of_stalled htolerance h hlow (by omega)
  have hafter := sweepPoint_eq_of_stalled htolerance h (j := j + 1) (by omega) (by omega)
  rw [hbefore]
  exact hafter.symm.trans hbefore

end Idle

end Course

/-! ## The solver -/

section Solver

variable {G : Type} {q : Quadratic ℝ} {settings : DescentSettings ℝ} {start : Nested ℝ}

theorem sweepCourse_prescribed {x₀ : Fin q.dimension → ℝ} (hposDef : q.toMatrix.PosDef)
    (hdefinite : q.isPositiveDefinite = .ok true)
    (hmethod : settings.method = some (.coordinate .cycle)) (hsearch : settings.search = none)
    (hbox : settings.box = ⟨none, none⟩) (hn : 0 < q.dimension)
    (hstart : start.toPoint = .ok (List.ofFn x₀)) :
    (sweepCourse q hn x₀).Prescribed .coordinate settings (.quadratic q : Problem ℝ G) start
      (.exact q.matrix) true where
  point := hstart
  size := by
    rw [hbox]
    rfl
  rule := by
    have horder : settings.order = .cycle := by
      unfold DescentSettings.order
      rw [hmethod]
    rw [chooseRule_coordinate, horder]
    show _ = Except.ok (Strategy.coordinate (cycleRule q.dimension (List.ofFn x₀) 0))
    rw [cycleRule_zero]
    show Except.ok (Strategy.coordinate (Coordinate.start _ (List.ofFn x₀).length _)) = _
    rw [List.length_ofFn]
    rfl
  chosen := Descent.chooseSearch_of_definite hdefinite hsearch
  gradient := q.gradient_eq_form _
  value := q.value_eq_form _
  follows := sweepCourse_follows hn x₀ hposDef hbox

/-- In the cyclic order, with exact searches and without bounds, every iteration relaxes the
coordinate whose turn it is.  The solver returns unless a rule of the caller's own fails.  If
without a tolerance it stops because the point no longer changes, then at the point that it
returns no slope along a coordinate is positive, and none falls faster than the curvature
makes up for over half the size of the probe. -/
theorem coordinate_relaxes {x₀ : Vec ℝ} (keeps : Bool) (hposDef : q.toMatrix.PosDef)
    (hdefinite : q.isPositiveDefinite = .ok true)
    (hmethod : settings.method = some (.coordinate .cycle)) (hsearch : settings.search = none)
    (hbox : settings.box = ⟨none, none⟩) (hstart : start.toPoint = .ok x₀)
    (hsize : x₀.length = q.dimension) :
    ∃ solver, Descent.create .coordinate settings (.quadratic q : Problem ℝ G) start keeps =
        .ok solver ∧
      (∀ run last, Descent.IsRun solver run last → ∀ k < last,
        ∃ (x : Fin q.dimension → ℝ) (i : Fin q.dimension), (i : Nat) = k % q.dimension ∧
          (run k).current.iteration = k ∧ (run k).point = List.ofFn x ∧
          (run (k + 1)).point = List.ofFn (relax q.toMatrix q.toLinear x i)) ∧
      ((∀ p, settings.predicate = some p → ∀ x, ∃ holds, p x = .ok holds) →
        ∃ y final, Descent.solve.on solver = (.ok y, final)) ∧
      (settings.pointTolerance = 0 → ∀ y final, Descent.solve.on solver = (.ok y, final) →
        final.pointConverged = true → ∃ x : Fin q.dimension → ℝ, y = List.ofFn x ∧
          ∀ i, -(Coordinate.probe * q.toMatrix i i / 2) ≤ formGradient q.toMatrix q.toLinear x i ∧
            formGradient q.toMatrix q.toLinear x i ≤ 0) := by
  have hpoint : List.ofFn (x₀.coordinates q.dimension) = x₀ := Vec.ofFn_coordinates hsize
  have hn : 0 < q.dimension := hsize ▸ Descent.length_pos_of_toPoint hstart
  have hprescribed := sweepCourse_prescribed (G := G) hposDef hdefinite hmethod hsearch hbox hn
    (hpoint.symm ▸ hstart)
  obtain ⟨solver, hcreate⟩ := hprescribed.exists_create keeps
  refine ⟨solver, hcreate, ?_, ?_, ?_⟩
  · intro run last hrun k hk
    have hnow := (hprescribed.tracks_of_isRun hcreate hrun hk.le).1.current
    have hnext := (hprescribed.tracks_of_isRun hcreate hrun hk).1.current
    exact ⟨_, axisOf hn k, rfl, congrArg Iterate.iteration hnow, congrArg Iterate.point hnow,
      congrArg Iterate.point hnext⟩
  · intro hpredicate
    obtain ⟨k, e, final, run, hsolve, -⟩ := hprescribed.exists_solve hcreate hpredicate
    exact ⟨_, final, hsolve⟩
  · intro htolerance y final hsolve hflag
    obtain ⟨k, rfl, hends, -⟩ := hprescribed.ends_of_solve hcreate hsolve
    obtain ⟨-, -, hstalled⟩ := hends hflag
    refine ⟨_, rfl, fun i => ?_⟩
    rw [← relax_eq_self_iff q.toLinear hposDef.diag_pos]
    exact relax_sweepPoint_of_stalled htolerance hstalled (le_max_right _ _) i

end Solver

/-! ### A sweep over a bowl

Two relaxations lead from the origin to the bottom of the bowl, and no other moves the point
from there. -/

/-- Settings that leave a point at rest and a limit of ten iterations to end the loop. -/
noncomputable def untilIdle : DescentSettings ℝ :=
  { twoIterations with
    maxIterations := 10
    method := some (.coordinate .cycle)
    checksPoint := true
    checksGradient := false }

theorem bowl_diag (i : Fin 2) : bowl.toMatrix i i = ![1, 2] i := by
  rw [bowl_toMatrix]
  exact diagonal_apply_eq _ _

theorem bowl_formGradient (x : Fin 2 → ℝ) (i : Fin 2) :
    formGradient bowl.toMatrix bowl.toLinear x i = ![1, 2] i * x i - 1 := by
  have hmatrix : (bowl.toMatrix *ᵥ x) i = ![1, 2] i * x i := by
    rw [bowl_toMatrix]
    exact mulVec_diagonal _ _ _
  have hlinear : bowl.toLinear i = 1 := by fin_cases i <;> rfl
  show (bowl.toMatrix *ᵥ x) i - bowl.toLinear i = _
  rw [hmatrix, hlinear]

theorem bowl_relax (x : Fin 2 → ℝ) (i : Fin 2) (hx : x i = 0) :
    relax bowl.toMatrix bowl.toLinear x i = Function.update x i (1 / ![1, 2] i) := by
  have hslope : formGradient bowl.toMatrix bowl.toLinear x i = -1 := by
    rw [bowl_formGradient, hx, mul_zero, zero_sub]
  have hfalls : -1 < -(Coordinate.probe * bowl.toMatrix i i / 2) := by
    rw [bowl_diag]
    unfold Coordinate.probe
    fin_cases i <;> norm_num
  have hsolved : x i - formGradient bowl.toMatrix bowl.toLinear x i / bowl.toMatrix i i =
      1 / ![1, 2] i := by
    rw [hslope, bowl_diag, hx, zero_sub, neg_div, neg_neg]
  rw [← hslope] at hfalls
  exact (if_pos (Or.inr hfalls)).trans (congrArg (Function.update x i) hsolved)

theorem bowl_sweepPoint_two (hn : 0 < bowl.dimension) : sweepPoint bowl hn 0 2 = ![1, 1 / 2] := by
  have hone : sweepPoint bowl hn 0 1 = ![1, 0] := by
    refine (bowl_relax 0 0 rfl).trans ?_
    ext i
    fin_cases i <;> simp
  show relax bowl.toMatrix bowl.toLinear (sweepPoint bowl hn 0 1) (1 : Fin 2) = _
  rw [hone]
  refine (bowl_relax _ 1 rfl).trans ?_
  ext i
  fin_cases i <;> simp

theorem bowl_relax_bottom (i : Fin 2) :
    relax bowl.toMatrix bowl.toLinear ![1, 1 / 2] i = ![1, 1 / 2] := by
  have hzero : formGradient bowl.toMatrix bowl.toLinear ![1, 1 / 2] i = 0 := by
    rw [bowl_formGradient]
    fin_cases i <;> norm_num
  refine (relax_eq_self_iff bowl.toLinear bowl_posDef.diag_pos).mpr ?_
  rw [hzero]
  exact ⟨(neg_half_probe_lt bowl_posDef.diag_pos).le, le_rfl⟩

theorem bowl_sweepPoint (hn : 0 < bowl.dimension) (k : Nat) :
    sweepPoint bowl hn 0 (k + 2) = ![1, 1 / 2] := by
  induction k with
  | zero => exact bowl_sweepPoint_two hn
  | succ k ih =>
    show relax bowl.toMatrix bowl.toLinear (sweepPoint bowl hn 0 (k + 2)) _ = _
    rw [ih]
    exact bowl_relax_bottom _

theorem bowl_ends_point (hn : 0 < bowl.dimension) :
    (sweepCourse bowl hn 0).Ends untilIdle 4 .point := by
  have hidle : ∀ k, (sweepCourse bowl hn 0).PointIdle untilIdle (k + 3) := fun k =>
    (sweepCourse_pointIdle_iff rfl).mpr
      ((bowl_sweepPoint hn (k + 1)).trans (bowl_sweepPoint hn k).symm)
  refine ⟨rfl, Nat.succ_pos 3, ?_⟩
  show Stalled _ 2 4
  exact stalled_succ_iff.mpr ⟨hidle 1, stalled_succ_iff.mpr ⟨hidle 0, Nat.zero_le _,
    fun i hi => absurd hi i.not_lt_zero⟩⟩

theorem coordinate_relaxes_bowl :
    ∃ (solver final : Descent (Strategy ℝ) (Search ℝ) ℝ)
      (run : Nat → Descent (Strategy ℝ) (Search ℝ) ℝ) (last : Nat),
      Descent.create .coordinate untilIdle (.quadratic bowl : Problem ℝ Unit)
        (Nested.ofVec [0, 0]) true = .ok solver ∧
      Descent.IsRun solver run last ∧ Descent.solve.on solver = (.ok [1, 1 / 2], final) ∧
      final.pointConverged = true ∧
      (∀ k < last, ∃ (x : Fin 2 → ℝ) (i : Fin 2), (i : Nat) = k % 2 ∧
        (run k).current.iteration = k ∧ (run k).point = List.ofFn x ∧
        (run (k + 1)).point = List.ofFn (relax bowl.toMatrix bowl.toLinear x i)) ∧
      ∃ x : Fin 2 → ℝ, [1, 1 / 2] = List.ofFn x ∧
        ∀ i : Fin 2, -(Coordinate.probe * bowl.toMatrix i i / 2) ≤
          formGradient bowl.toMatrix bowl.toLinear x i ∧
            formGradient bowl.toMatrix bowl.toLinear x i ≤ 0 := by
  have hn : 0 < bowl.dimension := Nat.succ_pos 1
  have hstart : (Nested.ofVec [(0 : ℝ), 0]).toPoint = .ok [0, 0] :=
    Nested.toPoint_ofVec (List.cons_ne_nil _ _)
  have hprescribed : (sweepCourse bowl hn 0).Prescribed .coordinate untilIdle
      (.quadratic bowl : Problem ℝ Unit) (Nested.ofVec [0, 0]) (.exact bowl.matrix) true :=
    sweepCourse_prescribed bowl_posDef bowl_isPositiveDefinite rfl rfl rfl hn hstart
  obtain ⟨solver, hcreate, hrelaxes, -, hhidden⟩ := coordinate_relaxes (G := Unit) true
    bowl_posDef bowl_isPositiveDefinite (show untilIdle.method = some (.coordinate .cycle) from rfl)
    rfl rfl hstart rfl
  obtain ⟨k, e, final, run, hsolve, hrun, hreaches, ⟨hends, -⟩, hstopped⟩ :=
    hprescribed.exists_solve hcreate fun p hp => nomatch hp
  have hk : k ≤ 4 := Nat.le_of_not_lt fun hk => hreaches 4 hk .point (bowl_ends_point hn)
  obtain rfl : e = .point := by
    cases e with
    | gradient | value => exact absurd hends.1 Bool.false_ne_true
    | custom =>
      obtain ⟨p, hp, -⟩ := hends
      cases hp
    | limit => exact absurd hends (show ¬10 ≤ k by omega)
    | point => rfl
  have hflag := hstopped.pointConverged.mpr rfl
  have hbottom : (sweepCourse bowl hn 0).point k = [1, 1 / 2] := by
    have hlong : 2 ≤ k := hends.2.2.1
    obtain ⟨j, rfl⟩ := Nat.exists_eq_add_of_le' hlong
    exact congrArg List.ofFn (bowl_sweepPoint hn j)
  rw [hbottom] at hsolve
  exact ⟨solver, final, run, k, hcreate, hrun, hsolve, hflag, hrelaxes run k hrun,
    hhidden rfl _ final hsolve hflag⟩

end Downhill
