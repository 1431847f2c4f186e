import Downhill.Proofs.Conjugate.Safeguard

/-!
# Sufficient descent of the formula of Hager and Zhang

The formula subtracts from the value of Hestenes and Stiefel a multiple of the previous
direction that is large enough for every direction to descend: the slope is at most seven
eighths of that of steepest descent, whatever the line search did before.  The bound from
below keeps this, because it raises the value only where that does not raise the slope.
-/

namespace Downhill

open Matrix

variable {n : Nat} {g g' d : Fin n → ℝ} {beta : ℝ}

namespace BetaFormula

/-- The value of Hager and Zhang before it is bounded, for the change `y` of the gradient. -/
noncomputable def unbounded (g d y : Fin n → ℝ) : ℝ :=
  (y - (2 * (y ⬝ᵥ y) / (d ⬝ᵥ y)) • d) ⬝ᵥ g / (d ⬝ᵥ y)

/-- A change across the previous direction gives zero.  Any other change gives the unbounded
value, kept above a negative bound if there is one. -/
theorem cases_of_hagerZhangBeta {y : Fin n → ℝ} {previousSq : ℝ}
    (h : hagerZhangBeta (List.ofFn g) (List.ofFn d) (List.ofFn y) previousSq = .ok beta) :
    d ⬝ᵥ y = 0 ∧ beta = 0 ∨ d ⬝ᵥ y ≠ 0 ∧
      (beta = unbounded g d y ∨ ∃ bound < 0, beta = max (unbounded g d y) bound) := by
  have htwo : (2.0 : ℝ) = 2 := by norm_num
  have hscaled : (fun i => d i * (2.0 * (y ⬝ᵥ y) / (d ⬝ᵥ y))) =
      (2 * (y ⬝ᵥ y) / (d ⬝ᵥ y)) • d := by
    rw [htwo]
    exact funext fun i => mul_comm _ _
  unfold hagerZhangBeta at h
  simp only [Vec.dot_ofFn, bind, Except.bind, Scalar.real_beq, Scalar.real_isFinite, Bool.not_true,
    Bool.or_false, decide_eq_true_eq, List.map_ofFn, Function.comp_def, hscaled, Vec.sub_ofFn] at h
  split_ifs at h with hflat hscale
  · exact Or.inl ⟨hflat, (Except.ok.inj h).symm⟩
  · rw [Scalar.real_larger] at h
    exact Or.inr ⟨hflat, Or.inr ⟨_, div_neg_of_neg_of_pos neg_one_lt_zero hscale,
      (Except.ok.inj h).symm⟩⟩
  · exact Or.inr ⟨hflat, Or.inl (Except.ok.inj h).symm⟩

/-- What the unbounded value adds to the slope is at most an eighth of the squared length of
the gradient: the two differ by an eighth of a square. -/
theorem unbounded_mul_le {y : Fin n → ℝ} (hy : d ⬝ᵥ y ≠ 0) :
    unbounded g d y * (g ⬝ᵥ d) ≤ 1 / 8 * (g ⬝ᵥ g) := by
  set r := (g ⬝ᵥ d) / (d ⬝ᵥ y) with hr
  have hadded : unbounded g d y * (g ⬝ᵥ d) = r * (g ⬝ᵥ y) - 2 * r ^ 2 * (y ⬝ᵥ y) := by
    rw [unbounded, sub_dotProduct, smul_dotProduct, dotProduct_comm y g, dotProduct_comm d g,
      smul_eq_mul, hr]
    field_simp
  have hsquare : (g - (4 * r) • y) ⬝ᵥ (g - (4 * r) • y) =
      g ⬝ᵥ g - 8 * (r * (g ⬝ᵥ y) - 2 * r ^ 2 * (y ⬝ᵥ y)) := by
    simp only [sub_dotProduct, dotProduct_sub, smul_dotProduct, dotProduct_smul, smul_eq_mul,
      dotProduct_comm y g]
    ring
  have hnonneg := dotProduct_self_nonneg (g - (4 * r) • y)
  rw [hadded]
  linarith

/-- A bound that is not positive takes nothing away.  It can only raise the value, which
raises the slope only where the previous direction ascends, and there zero is no worse. -/
theorem max_mul_le {value bound slope limit : ℝ} (hlimit : 0 ≤ limit)
    (hvalue : value * slope ≤ limit) (hbound : bound ≤ 0) :
    max value bound * slope ≤ limit := by
  rcases max_choice value bound with hmax | hmax
  · rwa [hmax]
  rcases le_total 0 slope with hup | hdown
  · rw [hmax]
    exact (mul_nonpos_of_nonpos_of_nonneg hbound hup).trans hlimit
  · exact (mul_le_mul_of_nonpos_right (le_max_left value bound) hdown).trans hvalue

theorem beta_hagerZhang : hagerZhang.beta (List.ofFn g) (List.ofFn g') (List.ofFn d) =
    hagerZhangBeta (List.ofFn g) (List.ofFn d) (List.ofFn (g - g')) (g' ⬝ᵥ g') := by
  unfold beta
  simp only [Vec.sub_ofFn, Vec.dot_ofFn, bind, Except.bind]

theorem beta_mul_le
    (hbeta : hagerZhang.beta (List.ofFn g) (List.ofFn g') (List.ofFn d) = .ok beta) :
    beta * (g ⬝ᵥ d) ≤ 1 / 8 * (g ⬝ᵥ g) := by
  have hlimit : 0 ≤ 1 / 8 * (g ⬝ᵥ g) := mul_nonneg (by norm_num) (dotProduct_self_nonneg g)
  rw [beta_hagerZhang] at hbeta
  obtain ⟨-, rfl⟩ | ⟨hy, rfl | ⟨bound, hbound, rfl⟩⟩ := cases_of_hagerZhangBeta hbeta
  · rwa [zero_mul]
  · exact unbounded_mul_le hy
  · exact max_mul_le hlimit (unbounded_mul_le hy) hbound.le

end BetaFormula

namespace Conjugate

/-- The direction that goes on from the previous one descends sufficiently. -/
theorem slope_continued_le
    (hbeta : BetaFormula.hagerZhang.beta (List.ofFn g) (List.ofFn g') (List.ofFn d) = .ok beta) :
    g ⬝ᵥ (-g + beta • d) ≤ -(7 / 8) * (g ⬝ᵥ g) := by
  have hadded := BetaFormula.beta_mul_le hbeta
  rw [dotProduct_continued]
  linarith

theorem slope_neg_le (g : Fin n → ℝ) : g ⬝ᵥ -g ≤ -(7 / 8) * (g ⬝ᵥ g) := by
  have hnonneg := dotProduct_self_nonneg g
  rw [dotProduct_neg]
  linarith

/-- With the formula of Hager and Zhang every direction descends at least seven eighths as
steeply as steepest descent, whatever the history, the policy and the dimension.  So for a
gradient that is not zero the safeguard never fires: a direction is a restart exactly when
history is missing or the policy asks for it. -/
theorem hagerZhang_descends {c : Conjugate ℝ} (hformula : c.formula = .hagerZhang)
    (g : Fin n → ℝ) (g' d : Option (Fin n → ℝ)) :
    ∃ next c', c.next (List.ofFn g) (g'.map List.ofFn) (d.map List.ofFn) =
        .ok (List.ofFn next, c') ∧
      g ⬝ᵥ next ≤ -(7 / 8) * (g ⬝ᵥ g) ∧
      (g ≠ 0 → (c'.restarted = true ↔
        g' = none ∨ d = none ∨ ∃ previous, g' = some previous ∧ c.Asks g previous)) ∧
      (c'.restarted = true → next = -g) ∧
      (c'.restarted = false → ∃ previous direction beta,
        g' = some previous ∧ d = some direction ∧
        BetaFormula.hagerZhang.beta (List.ofFn g) (List.ofFn previous) (List.ofFn direction) =
          .ok beta ∧
        next = -g + beta • direction) := by
  by_cases hmissing : g' = none ∨ d = none
  · exact ⟨-g, _, c.next_of_missing g hmissing, slope_neg_le g,
      fun _ => iff_of_true rfl (or_assoc.mp (Or.inl hmissing)), fun _ => rfl, nofun⟩
  obtain ⟨hgradient, hdirection⟩ := not_or.mp hmissing
  obtain ⟨previous, rfl⟩ := Option.ne_none_iff_exists'.mp hgradient
  obtain ⟨direction, rfl⟩ := Option.ne_none_iff_exists'.mp hdirection
  obtain ⟨beta, hbeta, ⟨hasks, -, hnext⟩ | ⟨hreason, hnext⟩⟩ := c.next_cases g previous direction
  · rw [hformula] at hbeta
    refine ⟨_, _, hnext, slope_continued_le hbeta, fun _ => iff_of_false Bool.false_ne_true ?_,
      nofun, fun _ => ⟨previous, direction, beta, rfl, rfl, hbeta, rfl⟩⟩
    rintro (hnone | hnone | ⟨u, hu, hasked⟩)
    · cases hnone
    · cases hnone
    · cases hu
      exact hasks hasked
  · rw [hformula] at hbeta
    refine ⟨_, _, hnext, slope_neg_le g, fun hg => iff_of_true rfl ?_, fun _ => rfl, nofun⟩
    -- The direction would have descended, so only the policy can have stopped it.
    have hdescends : g ⬝ᵥ (-g + beta • direction) < 0 := by
      have hslope := slope_continued_le hbeta
      have hsq := dotProduct_self_pos hg
      linarith
    exact Or.inr (Or.inr ⟨previous, rfl, hreason.resolve_right fun hup => hup hdescends⟩)

/-- A gradient that jumps, where the bound from below decides. -/
theorem hagerZhang_descends_jump :
    ∃ next c', (start .hagerZhang .never 1).next (List.ofFn ![(200 : ℝ)])
        (some (List.ofFn ![(1 : ℝ)])) (some (List.ofFn ![(1 : ℝ)])) =
          .ok (List.ofFn next, c') ∧
      ![(200 : ℝ)] ⬝ᵥ next ≤ -35000 ∧ c'.restarted = false := by
  obtain ⟨next, c', hnext, hslope, hrestarted, -⟩ :=
    hagerZhang_descends (c := start .hagerZhang .never 1) rfl ![200] (some ![1]) (some ![1])
  have hg : (![200] : Fin 1 → ℝ) ≠ 0 := by
    intro hzero
    have hentry := congrFun hzero 0
    norm_num at hentry
  refine ⟨next, c', hnext, hslope.trans ?_, ?_⟩
  · norm_num [Matrix.vecHead, Matrix.vecTail]
  · rw [Bool.eq_false_iff, Ne, hrestarted hg]
    rintro (hnone | hnone | ⟨u, -, hasked⟩)
    · cases hnone
    · cases hnone
    · cases hasked

end Conjugate

end Downhill
