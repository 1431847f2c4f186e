import Downhill.Proofs.Descent.Prescribed
import Downhill.Proofs.LineSearch.Exact
import Downhill.Proofs.Linear.Box

/-!
# Steepest descent on a quadratic form

On a positive definite quadratic the exact step along the negative gradient has a
closed form, and so has the whole course of the solver: every point is the one before,
moved by that step and brought into the box.
-/

namespace Downhill

open Matrix Extended

variable {n : Nat} {A : Matrix (Fin n) (Fin n) ℝ} {b x₀ : Fin n → ℝ} {c : ℝ}
  {box : Box Extended}

/-! ## The course -/

variable (A b) in
/-- The step to the lowest point along the negative gradient.  There is none to make
where the gradient vanishes. -/
noncomputable def exactStep (x : Fin n → ℝ) : ℝ :=
  (formGradient A b x ⬝ᵥ formGradient A b x) /
    (formGradient A b x ⬝ᵥ A *ᵥ formGradient A b x)

variable (A b) in
/-- Where the step leads to. -/
noncomputable def exactMove (x : Fin n → ℝ) : Fin n → ℝ :=
  x - exactStep A b x • formGradient A b x

/-- A real point brought into a box. -/
noncomputable def Box.bring (box : Box Extended) (w : Fin n → ℝ) : Fin n → ℝ :=
  Vec.reading n ((box.clamp (Vec.reals w)).toOption.getD [])

variable (A b) in
noncomputable def steepestPoint (box : Box Extended) (x₀ : Fin n → ℝ) : Nat → Fin n → ℝ
  | 0 => x₀
  | k + 1 => box.bring (exactMove A b (steepestPoint box x₀ k))

variable (A b c) in
noncomputable def steepestCourse (box : Box Extended) (x₀ : Fin n → ℝ) :
    Course (Strategy Extended) Extended where
  rule _ := .steepest
  point k := Vec.reals (steepestPoint A b box x₀ k)
  gradient k := Vec.reals (formGradient A b (steepestPoint A b box x₀ k))
  value k := real (formValue A b c (steepestPoint A b box x₀ k))
  direction k := Vec.reals (-formGradient A b (steepestPoint A b box x₀ k))
  step k := real (exactStep A b (steepestPoint A b box x₀ k))

theorem exactStep_nonneg (hposDef : A.PosDef) (x : Fin n → ℝ) : 0 ≤ exactStep A b x :=
  div_nonneg (dotProduct_self_nonneg _) (curvature_nonneg hposDef _)

theorem Box.clamp_reals (hsize : box.checkDimension n = .ok ()) (hregion : (box.region n).Nonempty)
    (w : Fin n → ℝ) : box.clamp (Vec.reals w) = .ok (Vec.reals (box.bring w)) ∧
      ∀ i : Fin n, Nearest (box.between i) (w i) (box.bring w i) := by
  obtain ⟨y, hclamp, hnearest⟩ := box.exists_clamp hsize hregion w
  have hbring : box.bring w = y := by
    unfold Box.bring
    rw [hclamp]
    exact Vec.reading_reals y
  rw [hbring]
  exact ⟨hclamp, hnearest⟩

/-- The exact search finds the step along the negative gradient. -/
theorem steepestCourse_search (hposDef : A.PosDef) (k : Nat) :
    (Exact.search (Quadratic.ofReals A b c).matrix (Quadratic.ofReals A b c).toObjective
      ((steepestCourse A b c box x₀).query k)).journaled.1 =
      .ok ⟨(steepestCourse A b c box x₀).step k, .accepted⟩ := by
  let g := formGradient A b (steepestPoint A b box x₀ k)
  have hflip : (-g) ⬝ᵥ A *ᵥ (-g) = g ⬝ᵥ A *ᵥ g := by
    rw [mulVec_neg, neg_dotProduct_neg]
  by_cases hzero : g = 0
  · have hnone : exactStep A b (steepestPoint A b box x₀ k) = 0 := by
      show (g ⬝ᵥ g) / _ = 0
      rw [hzero, zero_dotProduct, zero_div]
    have hsearch := Exact.search_of_flat (b := b) (c := c) (d := -g)
      (q := (steepestCourse A b c box x₀).query k) rfl
      (by rw [hflip, hzero, zero_dotProduct])
    rw [hsearch]
    exact congrArg (fun a => Except.ok (⟨real a, .accepted⟩ : Outcome Extended)) hnone.symm
  · have hcurvature := curvature_pos hposDef hzero
    have hsearch := Exact.search_ofReals (A := A) (b := b) (c := c)
      (x := steepestPoint A b box x₀ k) (d := -g)
      (q := (steepestCourse A b c box x₀).query k) rfl rfl
      (by rw [hflip]; exact hcurvature)
    have hvertex : max 0 (-(g ⬝ᵥ -g) / (-g ⬝ᵥ A *ᵥ -g)) =
        exactStep A b (steepestPoint A b box x₀ k) := by
      rw [hflip, dotProduct_neg, neg_neg]
      exact max_eq_right (exactStep_nonneg hposDef _)
    rw [hsearch]
    exact congrArg (fun a => Except.ok (⟨real a, .accepted⟩ : Outcome Extended)) hvertex

theorem steepestCourse_follows {settings : DescentSettings Extended} (hposDef : A.PosDef)
    (hsize : settings.box.checkDimension n = .ok ())
    (hregion : (settings.box.region n).Nonempty) (k : Nat) :
    (steepestCourse A b c settings.box x₀).Follows settings (Quadratic.ofReals A b c).toObjective
      (.exact (Quadratic.ofReals A b c).matrix : Search Extended) k where
  direction := by
    refine ⟨_, .steepest, rfl, ?_, rfl⟩
    exact congrArg Except.ok (Vec.neg_reals _)
  step := ⟨.accepted, steepestCourse_search hposDef k⟩
  point := by
    let x := steepestPoint A b settings.box x₀ k
    refine ⟨Vec.reals (exactMove A b x), ?_, (Box.clamp_reals hsize hregion _).1⟩
    have hmove : exactMove A b x = x + exactStep A b x • -formGradient A b x := by
      rw [smul_neg, ← sub_eq_add_neg]
      rfl
    rw [hmove]
    exact Vec.along_reals _ _ _
  gradient := Quadratic.gradient_ofReals ..
  value := Quadratic.value_ofReals ..

/-! ## The solver -/

variable {G : Type} {settings : DescentSettings Extended} {start : Nested Extended} {keeps : Bool}
  {solver : Descent (Strategy Extended) (Search Extended) Extended}

section Runs

variable (hposDef : A.PosDef) (hdefinite : (Quadratic.ofReals A b c).isPositiveDefinite = .ok true)
  (hsearch : settings.search = none) (hregion : (settings.box.region n).Nonempty)
  (hstart : start.toPoint = .ok (Vec.reals x₀))
include hposDef hdefinite hsearch hregion hstart

theorem steepestCourse_prescribed (G : Type) (hsize : settings.box.checkDimension n = .ok ()) :
    (steepestCourse A b c settings.box x₀).Prescribed .steepest settings
      (.quadratic (Quadratic.ofReals A b c) : Problem Extended G) start
      (.exact (Quadratic.ofReals A b c).matrix) true where
  point := hstart
  size := by
    show settings.box.checkDimension (Vec.reals x₀).length = _
    rw [Vec.length_reals, hsize]
  rule := rfl
  chosen := Descent.chooseSearch_of_definite hdefinite hsearch
  gradient := Quadratic.gradient_ofReals ..
  value := Quadratic.value_ofReals ..
  follows := steepestCourse_follows hposDef hsize hregion

theorem exists_create (G : Type) (keeps : Bool)
    (hsize : settings.box.checkDimension n = .ok ()) : ∃ solver, Descent.create .steepest settings
      (.quadratic (Quadratic.ofReals A b c) : Problem Extended G) start keeps = .ok solver :=
  (steepestCourse_prescribed hposDef hdefinite hsearch hregion hstart G hsize).exists_create keeps

/-- Every run of the solver goes through the points of the course. -/
theorem describes_of_isRun {run : Nat → Descent _ _ Extended} {m k : Nat}
    (hcreate : Descent.create .steepest settings
      (.quadratic (Quadratic.ofReals A b c) : Problem Extended G) start keeps = .ok solver)
    (hrun : Descent.IsRun solver run m) (hk : k ≤ m) :
    (steepestCourse A b c settings.box x₀).Describes k (run k) := by
  obtain ⟨point, hpoint, hsize⟩ := Descent.exists_size_of_create hcreate
  obtain rfl : Vec.reals x₀ = point := Except.ok.inj (hstart.symm.trans hpoint)
  rw [Vec.length_reals] at hsize
  have hprescribed := steepestCourse_prescribed (A := A) (b := b) (c := c) hposDef hdefinite hsearch
    hregion hstart G hsize
  exact (hprescribed.tracks_of_isRun hcreate hrun hk).1.toDescribes

/-- Unless a rule of the caller's own fails, the loop of the solver comes to an end. -/
theorem exists_solve (G : Type) (keeps : Bool) (hsize : settings.box.checkDimension n = .ok ())
    (hpredicate : ∀ p, settings.predicate = some p → ∀ x, ∃ holds, p x = .ok holds) :
    ∃ solver k e final run, Descent.create .steepest settings
        (.quadratic (Quadratic.ofReals A b c) : Problem Extended G) start keeps = .ok solver ∧
      Descent.solve.on solver =
        (.ok (Vec.reals (steepestPoint A b settings.box x₀ k)), final) ∧
      Descent.IsRun solver run k ∧
      final.current = (steepestCourse A b c settings.box x₀).iterate k ∧
      (steepestCourse A b c settings.box x₀).Reaches settings k ∧
      (steepestCourse A b c settings.box x₀).EndsFirst settings k e := by
  have hprescribed := steepestCourse_prescribed (A := A) (b := b) (c := c) hposDef hdefinite hsearch
    hregion hstart G hsize
  obtain ⟨solver, hcreate⟩ := hprescribed.exists_create keeps
  obtain ⟨k, e, final, run, hsolve, hrun, hreaches, hfirst, hstopped⟩ :=
    hprescribed.exists_solve hcreate hpredicate
  exact ⟨solver, k, e, final, run, hcreate, hsolve, hrun, hstopped.current, hreaches, hfirst⟩

/-- With nothing to check but the limit on iterations, the run takes all of them. -/
theorem exists_run_of_unchecked (G : Type) (keeps : Bool)
    (hsize : settings.box.checkDimension n = .ok ()) (hunchecked : settings.Unchecked) :
    ∃ solver run final, Descent.create .steepest settings
        (.quadratic (Quadratic.ofReals A b c) : Problem Extended G) start keeps = .ok solver ∧
      Descent.IsRun solver run settings.maxIterations ∧
      Descent.solve.on solver =
        (.ok (Vec.reals (steepestPoint A b settings.box x₀ settings.maxIterations)), final) ∧
      final.current.iteration = settings.maxIterations := by
  obtain ⟨solver, k, e, final, run, hcreate, hsolve, hrun, hcurrent, hreaches, hfirst⟩ :=
    exists_solve hposDef hdefinite hsearch hregion hstart G keeps hsize
      (fun p hp => by rw [hunchecked.predicate] at hp; cases hp)
  have hlimit : settings.maxIterations ≤ k := hfirst.1.limit_of_unchecked hunchecked
  have hk : k = settings.maxIterations := by
    by_contra hne
    exact hreaches settings.maxIterations (by omega) .limit (Nat.le_refl _)
  subst hk
  exact ⟨solver, run, final, hcreate, hrun, hsolve, congrArg Iterate.iteration hcurrent⟩

end Runs

end Downhill
