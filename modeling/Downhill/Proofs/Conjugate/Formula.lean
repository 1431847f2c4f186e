import Downhill.Direction.Conjugate
import Downhill.Proofs.Conjugate.Recurrence
import Downhill.Proofs.Linear.Coordinates

/-!
# Formulas and policies on the recurrence

When a gradient is orthogonal to the gradient and to the direction before it, and
that direction headed down like its gradient, all formulas give the same value:
the quotient of the squared lengths.  No bound and no clamp changes it.  On such
gradients no policy asks for a restart, and no direction is replaced because it
would not descend.
-/

namespace Downhill

open Matrix

variable {n : Nat} {g g' d : Fin n → ℝ} {beta : ℝ}

namespace BetaFormula

/-- What the formulas are asked about on a positive definite quadratic: `g` is the
gradient, `g'` the one before it and `d` the direction between them. -/
structure Regular (g g' d : Fin n → ℝ) : Prop where
  gradients : g ⬝ᵥ g' = 0
  direction : g ⬝ᵥ d = 0
  heading : g' ⬝ᵥ d = -(g' ⬝ᵥ g')
  ne_zero : g' ≠ 0

theorem ratio_of_ne_zero {numerator denominator : ℝ} (h : denominator ≠ 0) :
    ratio numerator denominator = numerator / denominator := by
  unfold ratio
  rw [Scalar.real_beq, decide_eq_false h, Scalar.real_isFinite]
  rfl

theorem hybrid_self {r : ℝ} (hr : 0 ≤ r) : hybrid r r = r := by
  unfold hybrid
  rw [Scalar.real_abs, if_neg (by linarith), if_pos (abs_of_nonneg hr).le]

namespace Regular

variable (h : Regular g g' d)
include h

theorem previousSq_pos : 0 < g' ⬝ᵥ g' := dotProduct_self_pos h.ne_zero

theorem quotient_nonneg : 0 ≤ (g ⬝ᵥ g) / (g' ⬝ᵥ g') :=
  div_nonneg (Finset.sum_nonneg fun i _ => mul_self_nonneg (g i)) h.previousSq_pos.le

theorem gradient_change : g ⬝ᵥ (g - g') = g ⬝ᵥ g := by
  rw [dotProduct_sub, h.gradients, sub_zero]

theorem direction_change : d ⬝ᵥ (g - g') = g' ⬝ᵥ g' := by
  rw [dotProduct_sub, dotProduct_comm d, dotProduct_comm d, h.direction, h.heading, zero_sub,
    neg_neg]

/-- The correction of Hager and Zhang has no effect, and the value is above their
bound. -/
theorem hagerZhangBeta_eq :
    hagerZhangBeta (List.ofFn g) (List.ofFn d) (List.ofFn (g - g')) (g' ⬝ᵥ g') =
      .ok ((g ⬝ᵥ g) / (g' ⬝ᵥ g')) := by
  have hsq := h.previousSq_pos
  have hcorrected : ∀ c : ℝ, (g - g' - fun i => d i * c) ⬝ᵥ g = g ⬝ᵥ g := by
    intro c
    have hscaled : (fun i => d i * c) = c • d := funext fun i => mul_comm _ _
    rw [hscaled, sub_dotProduct, smul_dotProduct, dotProduct_comm d, h.direction, smul_zero,
      sub_zero, dotProduct_comm, h.gradient_change]
  unfold hagerZhangBeta
  simp only [Vec.dot_ofFn, h.direction_change, bind, Except.bind, Scalar.real_beq,
    decide_eq_false hsq.ne', Scalar.real_isFinite, Bool.not_true, Bool.or_false,
    Bool.false_eq_true, if_false]
  rw [List.map_ofFn]
  simp only [Vec.sub_ofFn, Function.comp_def, Vec.dot_ofFn, hcorrected]
  split_ifs with hscale
  · rw [Scalar.real_larger, max_eq_left]
    · rfl
    · exact (div_neg_of_neg_of_pos neg_one_lt_zero hscale).le.trans h.quotient_nonneg
  · rfl

theorem beta_eq (formula : BetaFormula) :
    formula.beta (List.ofFn g) (List.ofFn g') (List.ofFn d) =
      .ok ((g ⬝ᵥ g) / (g' ⬝ᵥ g')) := by
  have hsq := h.previousSq_pos.ne'
  unfold beta
  simp only [Vec.sub_ofFn, Vec.dot_ofFn, bind, Except.bind, h.gradient_change,
    h.direction_change, ratio_of_ne_zero hsq, h.hagerZhangBeta_eq]
  cases formula with
  | polakRibierePlus =>
    show Except.ok (Scalar.larger 0 ((g ⬝ᵥ g) / (g' ⬝ᵥ g'))) = _
    rw [Scalar.real_larger, max_eq_right h.quotient_nonneg]
  | fletcherReevesPolakRibiere =>
    show Except.ok (hybrid _ _) = _
    rw [hybrid_self h.quotient_nonneg]
  | fletcherReeves | polakRibiere | hestenesStiefel | daiYuan | hagerZhang => rfl

end Regular

end BetaFormula

theorem RestartPolicy.asks_orthogonality (g g' : Fin n → ℝ) (steps dimension : Int) :
    orthogonality.asks (List.ofFn g) (List.ofFn g') steps dimension =
      .ok (if g ⬝ᵥ g = 0 then true else decide (threshold ≤ |g ⬝ᵥ g'| / (g ⬝ᵥ g))) := by
  simp only [asks, Vec.dot_ofFn, bind, Except.bind, Scalar.real_beq, Scalar.real_abs]
  by_cases hsq : g ⬝ᵥ g = 0
  · rw [decide_eq_true hsq, if_pos rfl, if_pos hsq]
    rfl
  · rw [decide_eq_false hsq, if_neg Bool.false_ne_true, if_neg hsq]
    rfl

/-- No policy asks for a restart between orthogonal gradients, before as many steps
as there are coordinates. -/
theorem RestartPolicy.asks_eq_false (policy : RestartPolicy) {steps dimension : Int}
    (hg : g ≠ 0) (horthogonal : g ⬝ᵥ g' = 0) (hsteps : steps < dimension) :
    policy.asks (List.ofFn g) (List.ofFn g') steps dimension = .ok false := by
  cases policy with
  | never => rfl
  | periodic =>
    show Except.ok (decide (dimension ≤ steps)) = _
    rw [decide_eq_false (not_le.mpr hsteps)]
  | orthogonality =>
    have hsq : g ⬝ᵥ g ≠ 0 := (dotProduct_self_pos hg).ne'
    have hthreshold : ¬(threshold : ℝ) ≤ 0 := by
      unfold threshold
      norm_num
    rw [asks_orthogonality, if_neg hsq, horthogonal, abs_zero, zero_div,
      decide_eq_false hthreshold]

namespace Conjugate

/-- The next direction goes on from the previous one, unless the policy asks for a restart
or the direction would not descend. -/
theorem next_ofFn {c : Conjugate ℝ} {asks : Bool}
    (hbeta : c.formula.beta (List.ofFn g) (List.ofFn g') (List.ofFn d) = .ok beta)
    (hasks : c.policy.asks (List.ofFn g) (List.ofFn g') (c.steps + 1 : Nat) c.dimension =
      .ok asks) :
    c.next (List.ofFn g) (some (List.ofFn g')) (some (List.ofFn d)) = .ok
      (if asks = false ∧ g ⬝ᵥ (-g + beta • d) < 0 then (List.ofFn (-g + beta • d),
          { c with steps := c.steps + 1, restarted := false, lastBeta := beta })
        else (List.ofFn (-g), { c with steps := 0, restarted := true, lastBeta := 0 })) := by
  have hcontinue : c.continue? (List.ofFn g) (List.ofFn g') (List.ofFn d) =
      .ok (if g ⬝ᵥ (-g + beta • d) < 0 then some (List.ofFn (-g + beta • d),
        { c with steps := c.steps + 1, restarted := false, lastBeta := beta }) else none) := by
    unfold continue?
    simp only [hbeta, bind, Except.bind, Vec.neg_ofFn, Vec.scale_ofFn, Vec.add_ofFn,
      Scalar.real_isFinite, if_true, Vec.dot_ofFn]
    split <;> rfl
  unfold next
  simp only [hasks, hcontinue, bind, Except.bind, restart, Vec.neg_ofFn]
  cases asks with
  | true =>
    rw [if_pos rfl, if_neg fun h => Bool.noConfusion h.1]
    rfl
  | false =>
    rw [if_neg Bool.false_ne_true]
    by_cases hdescends : g ⬝ᵥ (-g + beta • d) < 0
    · rw [if_pos hdescends, if_pos ⟨rfl, hdescends⟩]
      rfl
    · rw [if_neg hdescends, if_neg fun h => hdescends h.2]
      rfl

/-- The direction goes on from the previous one. -/
theorem next_eq {c : Conjugate ℝ} (h : BetaFormula.Regular g g' d) (hg : g ≠ 0)
    (hsteps : c.steps + 1 < c.dimension) :
    c.next (List.ofFn g) (some (List.ofFn g')) (some (List.ofFn d)) =
      .ok (List.ofFn (-g + ((g ⬝ᵥ g) / (g' ⬝ᵥ g')) • d),
        { c with steps := c.steps + 1, restarted := false,
                 lastBeta := (g ⬝ᵥ g) / (g' ⬝ᵥ g') }) := by
  have hasks : c.policy.asks (List.ofFn g) (List.ofFn g') (c.steps + 1 : Nat) c.dimension =
      .ok false :=
    c.policy.asks_eq_false hg h.gradients (by exact_mod_cast hsteps)
  have hslope : g ⬝ᵥ (-g + ((g ⬝ᵥ g) / (g' ⬝ᵥ g')) • d) < 0 := by
    rw [dotProduct_add, dotProduct_neg, dotProduct_smul, h.direction, smul_zero, add_zero]
    exact neg_neg_of_pos (dotProduct_self_pos hg)
  rw [next_ofFn (h.beta_eq c.formula) hasks, if_pos ⟨rfl, hslope⟩]

end Conjugate

end Downhill
