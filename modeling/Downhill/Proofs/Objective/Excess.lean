import Downhill.Objective.Basic
import Downhill.Proofs.Linear.Difference
import Downhill.Proofs.Sampling.Estimates

/-!
# What central differences exceed a gradient by

The excess of a mean is the mean of the excesses.  A squared residual leaves none, and so least
squares leave none.  In the curved valley every coordinate but the last has an excess, from the
fourth power of the coordinate.
-/

namespace Downhill

open Matrix

/-! ## Means -/

namespace Empirical

variable {e : Empirical ℝ} {step : ℝ}

theorem select_everyIndex {p : Vec ℝ} (hp : p.length = e.dimension) :
    e.select p e.everyIndex = .ok e.terms := by
  have hterms : e.everyIndex.mapM e.term = .ok e.terms := by
    unfold everyIndex
    rw [List.mapM_map]
    refine (Fault.mapM_range_eq_ok fun i => term_ofNat i.isLt).trans ?_
    exact congrArg Except.ok (List.ofFn_getElem)
  unfold select
  rw [hterms]
  exact if_pos hp

section Mean

variable {v : Objective ℝ → (Fin e.dimension → ℝ) → ℝ}
  {g excess : Objective ℝ → (Fin e.dimension → ℝ) → Fin e.dimension → ℝ}

theorem sum_opposite {terms : List (Objective ℝ)}
    (h : ∀ t ∈ terms, t.Exceeds step (v t) (g t) (excess t)) (x : Fin e.dimension → ℝ)
    (i : Fin e.dimension) :
    (terms.map (v · (x + Pi.single i step))).sum -
        (terms.map (v · (x + Pi.single i (-step)))).sum =
      2 * step * ((terms.map (g · x)).sum i + (terms.map (excess · x)).sum i) := by
  induction terms with
  | nil => simp
  | cons t terms ih =>
    have hfirst := (h t List.mem_cons_self).change x i
    have hrest := ih fun t' ht' => h t' (List.mem_cons_of_mem t ht')
    simp only [List.map_cons, List.sum_cons, Pi.add_apply]
    linarith

/-- The excess of a mean is the mean of the excesses. -/
theorem exceeds_mean (hne : e.terms ≠ [])
    (h : ∀ t ∈ e.terms, t.Exceeds step (v t) (g t) (excess t)) :
    e.toObjective.Exceeds step
      (fun x => (e.terms.length : ℝ)⁻¹ * (e.terms.map (v · x)).sum)
      (fun x => (e.terms.length : ℝ)⁻¹ • (e.terms.map (g · x)).sum)
      (fun x => (e.terms.length : ℝ)⁻¹ • (e.terms.map (excess · x)).sum) where
  value x := by
    have hvalues : e.terms.mapM (·.value (List.ofFn x)) = .ok (e.terms.map (v · x)) :=
      Fault.mapM_eq_ok fun t ht => (h t ht).value x
    show e.value (List.ofFn x) = _
    unfold value exampleValues
    rw [select_everyIndex List.length_ofFn]
    show e.terms.mapM (·.value (List.ofFn x)) >>= _ = _
    rw [hvalues]
    show Except.ok (Vec.mean _) = _
    unfold Vec.mean
    rw [Vec.total_eq_sum, List.length_map, div_eq_inv_mul]
  gradient x := by
    have hrows : e.terms.mapM (·.gradient (List.ofFn x)) =
        .ok ((e.terms.map (g · x)).map List.ofFn) := by
      rw [List.map_map]
      exact Fault.mapM_eq_ok fun t ht => (h t ht).gradient x
    show e.gradient (List.ofFn x) = _
    unfold gradient exampleGradients
    rw [select_everyIndex List.length_ofFn]
    show e.terms.mapM (·.gradient (List.ofFn x)) >>= _ = _
    rw [hrows]
    refine (Vec.meanRows_ofFn fun hnil => hne (List.map_eq_nil_iff.mp hnil)).trans ?_
    rw [List.length_map]
  change x i := by
    rw [← mul_sub, sum_opposite h, Pi.smul_apply, Pi.smul_apply, smul_eq_mul, smul_eq_mul]
    ring

end Mean

end Empirical

/-! ## The curved valley -/

namespace Valley

variable (a b : ℝ)

theorem value_cons_cons (x y : ℝ) (rest : Vec ℝ) :
    value a b (x :: y :: rest) = term a b x y + value a b (y :: rest) := by
  unfold value
  rw [Vec.total_eq_sum, Vec.total_eq_sum]
  exact List.sum_cons

theorem value_singleton (x : ℝ) : value a b [x] = 0 := rfl

theorem value_cons_shift (x y h : ℝ) (rest : Vec ℝ) (i : Nat) :
    value a b (x :: Vec.shift (y :: rest) i h) =
      term a b x (if i = 0 then y + h else y) + value a b (Vec.shift (y :: rest) i h) := by
  cases i with
  | zero => exact value_cons_cons a b x (y + h) rest
  | succ i => exact value_cons_cons a b x y (Vec.shift rest i h)

@[simp] theorem length_gradientFrom (carried : ℝ) (x : Vec ℝ) :
    (gradientFrom a b carried x).length = x.length := by
  induction x generalizing carried with
  | nil => rfl
  | cons x rest ih =>
    cases rest with
    | nil => rfl
    | cons y rest => exact congrArg (· + 1) (ih _)

/-- In its second coordinate a term is a parabola, which leaves no excess. -/
theorem term_opposite_second (x y h : ℝ) :
    term a b x (y + h) - term a b x (y + -h) = 2 * h * (2.0 * b * (y - x * x)) := by
  unfold term
  norm_num
  ring

/-- In its first coordinate a term has a fourth power. -/
theorem term_opposite_first (x y h : ℝ) :
    term a b (x + h) y - term a b (x + -h) y =
      2 * h * (-2.0 * (a - x) - 4.0 * b * x * (y - x * x) + 4 * b * x * h ^ 2) := by
  unfold term
  norm_num
  ring

/-- Between opposite moves of a coordinate, what the coordinate before carries over is left to
the term before. -/
theorem value_opposite (h carried : ℝ) {x : Vec ℝ} {i : Nat} (hi : i < x.length) :
    value a b (x.shift i h) - value a b (x.shift i (-h)) =
      2 * h * ((gradientFrom a b carried x).getD i 0 - (if i = 0 then carried else 0) +
        if i + 1 < x.length then 4 * b * x.getD i 0 * h ^ 2 else 0) := by
  induction x generalizing i carried with
  | nil => exact absurd hi (Nat.not_lt_zero i)
  | cons x rest ih =>
    cases rest with
    | nil =>
      obtain rfl : i = 0 := by simpa using hi
      show value a b [x + h] - value a b [x + -h] = _
      rw [value_singleton, value_singleton]
      simp [gradientFrom]
    | cons y rest =>
      cases i with
      | zero =>
        show value a b ((x + h) :: y :: rest) - value a b ((x + -h) :: y :: rest) = _
        have hfirst := term_opposite_first a b x y h
        have hlast : 0 + 1 < (x :: y :: rest).length := Nat.succ_lt_succ (Nat.succ_pos _)
        rw [value_cons_cons, value_cons_cons, if_pos rfl, if_pos hlast]
        simp only [gradientFrom, List.getD_cons_zero]
        linarith
      | succ i =>
        have hrest := ih (2.0 * b * (y - x * x)) (Nat.lt_of_succ_lt_succ hi)
        have hterm : term a b x (if i = 0 then y + h else y) -
            term a b x (if i = 0 then y + -h else y) =
              2 * h * if i = 0 then 2.0 * b * (y - x * x) else 0 := by
          by_cases hzero : i = 0
          · simp only [if_pos hzero]
            exact term_opposite_second a b x y h
          · simp [if_neg hzero]
        show value a b (x :: Vec.shift (y :: rest) i h) -
          value a b (x :: Vec.shift (y :: rest) i (-h)) = _
        rw [value_cons_shift, value_cons_shift]
        simp only [gradientFrom, List.getD_cons_succ, List.length_cons, Nat.add_lt_add_iff_right,
          Nat.add_one_ne_zero, if_false, sub_zero] at hrest ⊢
        linarith

/-- Every coordinate but the last has an excess. -/
theorem exceeds (n : Nat) (step : ℝ) :
    (Objective.valley a b).Exceeds step (fun x => value a b (List.ofFn x))
      (fun x => (gradient a b (List.ofFn x)).coordinates n)
      (fun x i => if i.val + 1 < n then 4 * b * x i * step ^ 2 else 0) where
  value _ := rfl
  gradient x := by
    have hlength : (gradient a b (List.ofFn x)).length = n :=
      (length_gradientFrom a b 0 _).trans List.length_ofFn
    rw [Vec.ofFn_coordinates hlength]
    rfl
  change x i := by
    have hi : i.val < (List.ofFn x).length := i.isLt.trans_eq List.length_ofFn.symm
    have hopposite := value_opposite a b step 0 hi
    rw [Vec.shift_ofFn, Vec.shift_ofFn, ite_self, sub_zero, List.length_ofFn,
      List.getD_eq_getElem _ _ hi, List.getElem_ofFn] at hopposite
    exact hopposite

end Valley

/-! ## Least squares -/

namespace LeastSquares

variable {n : Nat} (features : Fin n → ℝ) (target step : ℝ)

/-- A squared residual is a parabola along every coordinate. -/
theorem exceeds_term : (term (List.ofFn features) target).Exceeds step
    (fun x => (features ⬝ᵥ x - target) * (features ⬝ᵥ x - target))
    (fun x => (2 * (features ⬝ᵥ x - target)) • features) 0 where
  value x := by
    show Vec.dot (List.ofFn features) (List.ofFn x) >>= _ = _
    rw [Vec.dot_ofFn]
    rfl
  gradient x := by
    have htwo : (2.0 : ℝ) = 2 := by norm_num
    show Vec.dot (List.ofFn features) (List.ofFn x) >>= _ = _
    rw [Vec.dot_ofFn]
    show Except.ok (Vec.scale (2.0 * (features ⬝ᵥ x - target)) (List.ofFn features)) = _
    rw [Vec.scale_ofFn, htwo]
  change x i := by
    simp only [dotProduct_add, dotProduct_single, Pi.smul_apply, smul_eq_mul, Pi.zero_apply]
    ring

end LeastSquares

namespace Empirical

variable {features targets : Nested ℝ} {rows columns : Nat} {y : Vec ℝ}

/-- A matrix with at least one row is accepted with one target for each row. -/
theorem leastSquares_eq_ok (hfeatures : features.shape = .ok [rows, columns])
    (htargets : targets.toVec = .ok y) (hlength : y.length = rows) (hrows : 0 < rows) :
    leastSquares features targets =
      .ok ⟨columns, List.zipWith LeastSquares.term features.toRows y⟩ := by
  unfold leastSquares ofRows
  rw [hfeatures, htargets]
  simp [Fault.refuse, hlength, hrows.ne', bind, Except.bind, pure, Except.pure]

/-- The mean of squared residuals leaves no excess. -/
theorem exists_exceeds_zero (step : ℝ) (hfeatures : features.shape = .ok [rows, columns])
    (hlength : y.length = rows) (hrows : 0 < rows) :
    let e : Empirical ℝ := ⟨columns, List.zipWith LeastSquares.term features.toRows y⟩
    ∃ (v : (Fin columns → ℝ) → ℝ) (g : (Fin columns → ℝ) → Fin columns → ℝ),
      e.toObjective.Exceeds step v g 0 := by
  intro e
  have hterms : ∀ t ∈ e.terms, ∃ (v : (Fin columns → ℝ) → ℝ)
      (g : (Fin columns → ℝ) → Fin columns → ℝ), t.Exceeds step v g 0 := by
    intro t ht
    obtain ⟨x, target, hx, rfl⟩ := exists_of_mem_terms hfeatures ht
    rw [← Vec.ofFn_coordinates hx]
    exact ⟨_, _, LeastSquares.exceeds_term (x.coordinates columns) target step⟩
  have hne : e.terms ≠ [] := by
    apply List.ne_nil_of_length_pos
    show 0 < (List.zipWith LeastSquares.term features.toRows y).length
    rw [List.length_zipWith, Nested.length_toRows (Nested.shape?_of_shape hfeatures), hlength,
      Nat.min_self]
    exact hrows
  choose! v g hexceeds using hterms
  have hmean := exceeds_mean hne hexceeds
  simp only [Pi.zero_apply, List.map_const', List.sum_replicate, smul_zero] at hmean
  exact ⟨_, _, hmean⟩

end Empirical

/-! ## The reference objectives -/

/-- Central differences of the value of a curved valley exceed its gradient in every coordinate
but the last, by an amount that goes with the square of the step.  Those of the value of a least
squares objective are its gradient, whatever the step. -/
theorem reference_differences {step : ℝ} (hstep : 0 < step) :
    (∀ (a b : ℝ) (x : Vec ℝ), ∃ d g,
      differenceGradient (Objective.valley a b).value x step = .ok d ∧
      (Objective.valley a b).gradient x = .ok g ∧
      d.sub g = .ok (List.ofFn fun i : Fin x.length =>
        if i.val + 1 < x.length then 4 * b * x[i] * step ^ 2 else 0)) ∧
    ∀ (features targets : Nested ℝ) (rows columns : Nat) (y : Vec ℝ),
      features.shape = .ok [rows, columns] → targets.toVec = .ok y → y.length = rows →
      0 < rows → ∃ e, Empirical.leastSquares features targets = .ok e ∧
        ∀ p : Vec ℝ, p.length = columns →
          ∃ g, differenceGradient e.value p step = .ok g ∧ e.gradient p = .ok g := by
  constructor
  · intro a b x
    obtain ⟨hdifference, hgradient⟩ := (Valley.exceeds a b x.length step).of_length hstep rfl
    refine ⟨_, _, hdifference, hgradient, ?_⟩
    rw [Vec.sub_ofFn, add_sub_cancel_left]
    congr 2
    funext i
    unfold Vec.coordinates
    rw [List.getD_eq_getElem _ _ i.isLt]
    rfl
  · intro features targets rows columns y hfeatures htargets hlength hrows
    obtain ⟨v, g, hexceeds⟩ := Empirical.exists_exceeds_zero step hfeatures hlength hrows
    refine ⟨_, Empirical.leastSquares_eq_ok hfeatures htargets hlength hrows, ?_⟩
    intro p hp
    obtain ⟨hdifference, hgradient⟩ := hexceeds.of_length hstep hp
    rw [Pi.zero_apply, add_zero] at hdifference
    exact ⟨_, hdifference, hgradient⟩

/-- With a step of one half, at a point of the usual valley beside the bottom and for three
examples of a line through the origin. -/
theorem reference_differences_half : (0 : ℝ) < 1 / 2 ∧
    (∃ d g, differenceGradient (Objective.valley 1 100).value [-1, 2] (1 / 2) = .ok d ∧
      (Objective.valley 1 100).gradient [-1, 2] = .ok g ∧ d.sub g = .ok [(-100 : ℝ), 0]) ∧
    ∃ g, differenceGradient Empirical.line.value [1] (1 / 2) = .ok g ∧
      Empirical.line.gradient [1] = .ok g := by
  have hstep : (0 : ℝ) < 1 / 2 := by norm_num
  obtain ⟨hvalley, hsquares⟩ := reference_differences hstep
  refine ⟨hstep, ?_, ?_⟩
  · obtain ⟨d, g, hdifference, hgradient, hexcess⟩ := hvalley 1 100 [-1, 2]
    refine ⟨d, g, hdifference, hgradient, hexcess.trans ?_⟩
    norm_num [List.ofFn_succ]
  · obtain ⟨e, he, hsame⟩ := hsquares (.row [.ofVec [1], .ofVec [2], .ofVec [3]])
      (.ofVec [0, 1, 1]) 3 1 [0, 1, 1] rfl (Nested.toVec_ofVec _) rfl (by decide)
    rw [Empirical.leastSquares_line] at he
    cases he
    exact hsame [1] rfl

end Downhill
