import Downhill.Proofs.Conjugate.Formula
import Downhill.Proofs.Conjugate.Sizes

/-!
# Where the safeguard is idle

A direction that would not descend is replaced by steepest descent.  Three formulas never
need it when every step satisfies the curvature condition with a constant below one half:
the slope of a direction bounds the slope along it at the next point, and that bounds the
slope of the next direction.  The formula of Fletcher and Reeves and its hybrid keep the
slope, measured by the squared length of the gradient, in a fixed interval around minus one;
the formula of Dai and Yuan keeps it negative.  A restart begins at minus one again, so
restarts may occur anywhere.
-/

namespace Downhill

open Matrix

variable {n : Nat} {g g' d : Fin n → ℝ} {c2 beta : ℝ}

namespace BetaFormula

theorem beta_fletcherReeves : fletcherReeves.beta (List.ofFn g) (List.ofFn g') (List.ofFn d) =
    .ok (ratio (g ⬝ᵥ g) (g' ⬝ᵥ g')) := by
  unfold beta
  simp only [Vec.sub_ofFn, Vec.dot_ofFn, bind, Except.bind]
  rfl

theorem beta_hybrid :
    fletcherReevesPolakRibiere.beta (List.ofFn g) (List.ofFn g') (List.ofFn d) =
      .ok (hybrid (ratio (g ⬝ᵥ g) (g' ⬝ᵥ g')) (ratio (g ⬝ᵥ (g - g')) (g' ⬝ᵥ g'))) := by
  unfold beta
  simp only [Vec.sub_ofFn, Vec.dot_ofFn, bind, Except.bind]
  rfl

theorem beta_daiYuan : daiYuan.beta (List.ofFn g) (List.ofFn g') (List.ofFn d) =
    .ok (ratio (g ⬝ᵥ g) (d ⬝ᵥ (g - g'))) := by
  unfold beta
  simp only [Vec.sub_ofFn, Vec.dot_ofFn, bind, Except.bind]
  rfl

theorem exists_beta (formula : BetaFormula) (g g' d : Fin n → ℝ) :
    ∃ beta, formula.beta (List.ofFn g) (List.ofFn g') (List.ofFn d) = .ok beta :=
  formula.exists_beta_of_length List.length_ofFn List.length_ofFn List.length_ofFn

/-- The clamp of the hybrid keeps its value between the bound and its negative. -/
theorem abs_hybrid_le {r : ℝ} (hr : 0 ≤ r) (p : ℝ) : |hybrid r p| ≤ r := by
  unfold hybrid
  rw [Scalar.real_abs]
  split_ifs with hlow hsmall
  · rw [abs_neg, abs_of_nonneg hr]
  · exact hsmall
  · rw [abs_of_nonneg hr]

/-- Neither the formula of Fletcher and Reeves nor its hybrid goes beyond the quotient of
the squared lengths. -/
theorem abs_beta_le {formula : BetaFormula}
    (hformula : formula = fletcherReeves ∨ formula = fletcherReevesPolakRibiere) (hg' : g' ≠ 0)
    (hbeta : formula.beta (List.ofFn g) (List.ofFn g') (List.ofFn d) = .ok beta) :
    |beta| ≤ (g ⬝ᵥ g) / (g' ⬝ᵥ g') := by
  have hsq : 0 < g' ⬝ᵥ g' := dotProduct_self_pos hg'
  have hquotient : 0 ≤ (g ⬝ᵥ g) / (g' ⬝ᵥ g') := div_nonneg (dotProduct_self_nonneg g) hsq.le
  rcases hformula with rfl | rfl
  · rw [beta_fletcherReeves, ratio_of_ne_zero hsq.ne'] at hbeta
    obtain rfl := Except.ok.inj hbeta
    exact (abs_of_nonneg hquotient).le
  · rw [beta_hybrid, ratio_of_ne_zero hsq.ne'] at hbeta
    obtain rfl := Except.ok.inj hbeta
    exact abs_hybrid_le hquotient _

end BetaFormula

theorem RestartPolicy.exists_asks (policy : RestartPolicy) (g g' : Fin n → ℝ)
    (steps dimension : Int) :
    ∃ asks, policy.asks (List.ofFn g) (List.ofFn g') steps dimension = .ok asks :=
  policy.exists_asks_of_length List.length_ofFn List.length_ofFn steps dimension

/-! ## Slopes -/

/-- The slope of a direction, measured by the squared length of the gradient, lies in the
interval around minus one that belongs to a curvature constant. -/
def SlopeWithin (c2 : ℝ) (g d : Fin n → ℝ) : Prop :=
  -1 / (1 - c2) ≤ (g ⬝ᵥ d) / (g ⬝ᵥ g) ∧ (g ⬝ᵥ d) / (g ⬝ᵥ g) ≤ -(1 - 2 * c2) / (1 - c2)

theorem dotProduct_continued (g d : Fin n → ℝ) (beta : ℝ) :
    g ⬝ᵥ (-g + beta • d) = -(g ⬝ᵥ g) + beta * (g ⬝ᵥ d) := by
  rw [dotProduct_add, dotProduct_neg, dotProduct_smul, smul_eq_mul]

theorem SlopeWithin.descends (h : SlopeWithin c2 g d) (hc2 : c2 < 1 / 2) : g ⬝ᵥ d < 0 := by
  have hbound : -(1 - 2 * c2) / (1 - c2) < 0 := div_neg_of_neg_of_pos (by linarith) (by linarith)
  have hquotient := h.2.trans_lt hbound
  rcases div_neg_iff.mp hquotient with ⟨-, hneg⟩ | ⟨hneg, -⟩
  · exact absurd (dotProduct_self_nonneg g) (not_le.mpr hneg)
  · exact hneg

theorem slopeWithin_neg (hc2 : 0 < c2) (hc2' : c2 < 1 / 2) (hg : g ≠ 0) :
    SlopeWithin c2 g (-g) := by
  have hpos : 0 < 1 - c2 := by linarith
  have hslope : (g ⬝ᵥ -g) / (g ⬝ᵥ g) = -1 := by
    rw [dotProduct_neg, neg_div, div_self (dotProduct_self_pos hg).ne']
  unfold SlopeWithin
  rw [hslope, div_le_iff₀ hpos, le_div_iff₀ hpos]
  constructor <;> linarith

/-- The curvature condition bounds what the previous direction adds to the slope. -/
theorem slopeWithin_continued (hc2 : 0 < c2) (hc2' : c2 < 1 / 2) (hg : g ≠ 0) (hg' : g' ≠ 0)
    (hprevious : SlopeWithin c2 g' d) (hcurvature : |g ⬝ᵥ d| ≤ -c2 * (g' ⬝ᵥ d))
    (hbeta : |beta| ≤ (g ⬝ᵥ g) / (g' ⬝ᵥ g')) : SlopeWithin c2 g (-g + beta • d) := by
  have hpos : 0 < 1 - c2 := by linarith
  have hsq := dotProduct_self_pos hg
  have hsq' := dotProduct_self_pos hg'
  have hadded : |beta * (g ⬝ᵥ d) / (g ⬝ᵥ g)| ≤ c2 / (1 - c2) := by
    calc |beta * (g ⬝ᵥ d) / (g ⬝ᵥ g)|
        = |beta| * |g ⬝ᵥ d| / (g ⬝ᵥ g) := by rw [abs_div, abs_mul, abs_of_pos hsq]
      _ ≤ (g ⬝ᵥ g) / (g' ⬝ᵥ g') * (-c2 * (g' ⬝ᵥ d)) / (g ⬝ᵥ g) := by gcongr
      _ = -c2 * ((g' ⬝ᵥ d) / (g' ⬝ᵥ g')) := by field_simp
      _ ≤ -c2 * (-1 / (1 - c2)) := mul_le_mul_of_nonpos_left hprevious.1 (by linarith)
      _ = c2 / (1 - c2) := by ring
  obtain ⟨hlow, hhigh⟩ := abs_le.mp hadded
  have hslope : (g ⬝ᵥ (-g + beta • d)) / (g ⬝ᵥ g) = -1 + beta * (g ⬝ᵥ d) / (g ⬝ᵥ g) := by
    rw [dotProduct_continued, add_div, neg_div, div_self hsq.ne']
  have hleft : -1 / (1 - c2) = -1 - c2 / (1 - c2) := by
    field_simp
    ring
  have hright : -(1 - 2 * c2) / (1 - c2) = -1 + c2 / (1 - c2) := by
    field_simp
    ring
  unfold SlopeWithin
  rw [hslope, hleft, hright]
  constructor <;> linarith

/-- The formula of Dai and Yuan divides by the growth of the slope along the previous
direction, so the slope of the next direction has the sign of the previous one. -/
theorem descends_daiYuan (hc2 : c2 < 1) (hg : g ≠ 0) (hprevious : g' ⬝ᵥ d < 0)
    (hcurvature : |g ⬝ᵥ d| ≤ -c2 * (g' ⬝ᵥ d))
    (hbeta : BetaFormula.daiYuan.beta (List.ofFn g) (List.ofFn g') (List.ofFn d) = .ok beta) :
    g ⬝ᵥ (-g + beta • d) < 0 := by
  have hgrowth : 0 < d ⬝ᵥ (g - g') := by
    rw [dotProduct_sub, dotProduct_comm d, dotProduct_comm d]
    nlinarith [(abs_le.mp hcurvature).1]
  rw [BetaFormula.beta_daiYuan, BetaFormula.ratio_of_ne_zero hgrowth.ne'] at hbeta
  obtain rfl := Except.ok.inj hbeta
  have hslope : g ⬝ᵥ (-g + ((g ⬝ᵥ g) / (d ⬝ᵥ (g - g'))) • d) =
      (g ⬝ᵥ g) * (g' ⬝ᵥ d) / (d ⬝ᵥ (g - g')) := by
    rw [dotProduct_continued, eq_div_iff hgrowth.ne', add_mul, mul_right_comm,
      div_mul_cancel₀ _ hgrowth.ne', dotProduct_sub, dotProduct_comm d, dotProduct_comm d]
    ring
  rw [hslope]
  exact div_neg_of_neg_of_pos (mul_neg_of_pos_of_neg (dotProduct_self_pos hg) hprevious) hgrowth

/-- What a formula keeps up from one direction to the next. -/
def BetaFormula.Keeps (formula : BetaFormula) (c2 : ℝ) (g d : Fin n → ℝ) : Prop :=
  match formula with
  | .fletcherReeves | .fletcherReevesPolakRibiere => SlopeWithin c2 g d
  | .daiYuan => g ⬝ᵥ d < 0
  | _ => False

namespace BetaFormula.Keeps

variable {formula : BetaFormula}

theorem descends (h : formula.Keeps c2 g d) (hc2 : c2 < 1 / 2) : g ⬝ᵥ d < 0 := by
  cases formula with
  | fletcherReeves | fletcherReevesPolakRibiere => exact SlopeWithin.descends h hc2
  | daiYuan => exact h
  | polakRibiere | polakRibierePlus | hestenesStiefel | hagerZhang => exact h.elim

theorem slopeWithin (h : formula.Keeps c2 g d) (hformula : formula ≠ .daiYuan) :
    SlopeWithin c2 g d := by
  cases formula with
  | fletcherReeves | fletcherReevesPolakRibiere => exact h
  | daiYuan => exact absurd rfl hformula
  | polakRibiere | polakRibierePlus | hestenesStiefel | hagerZhang => exact h.elim

/-- Every one of the formulas keeps it up at a restart. -/
theorem restart (hformula : formula = .fletcherReeves ∨ formula = .fletcherReevesPolakRibiere ∨
    formula = .daiYuan) (hc2 : 0 < c2) (hc2' : c2 < 1 / 2) (hg : g ≠ 0) :
    formula.Keeps c2 g (-g) := by
  have hwithin : SlopeWithin c2 g (-g) := slopeWithin_neg hc2 hc2' hg
  rcases hformula with rfl | rfl | rfl
  · exact hwithin
  · exact hwithin
  · exact hwithin.descends hc2'

/-- And under the curvature condition when a direction goes on from the one before. -/
theorem continued (h : formula.Keeps c2 g' d) (hc2 : 0 < c2) (hc2' : c2 < 1 / 2) (hg : g ≠ 0)
    (hg' : g' ≠ 0) (hcurvature : |g ⬝ᵥ d| ≤ -c2 * (g' ⬝ᵥ d))
    (hbeta : formula.beta (List.ofFn g) (List.ofFn g') (List.ofFn d) = .ok beta) :
    formula.Keeps c2 g (-g + beta • d) := by
  cases formula with
  | fletcherReeves =>
    exact slopeWithin_continued hc2 hc2' hg hg' h hcurvature (abs_beta_le (Or.inl rfl) hg' hbeta)
  | fletcherReevesPolakRibiere =>
    exact slopeWithin_continued hc2 hc2' hg hg' h hcurvature (abs_beta_le (Or.inr rfl) hg' hbeta)
  | daiYuan => exact descends_daiYuan (by linarith) hg h hcurvature hbeta
  | polakRibiere | polakRibierePlus | hestenesStiefel | hagerZhang => exact h.elim

end BetaFormula.Keeps

namespace Conjugate

/-! ## One direction -/

/-- Whether the policy asks for a restart at the gradient after the given one. -/
def Asks (c : Conjugate ℝ) (g g' : Fin n → ℝ) : Prop :=
  c.policy.asks (List.ofFn g) (List.ofFn g') (c.steps + 1 : Nat) c.dimension = .ok true

/-- Without a previous gradient or without a previous direction the next direction is
steepest descent. -/
theorem next_of_missing (c : Conjugate ℝ) (g : Fin n → ℝ) {g' d : Option (Fin n → ℝ)}
    (hmissing : g' = none ∨ d = none) :
    c.next (List.ofFn g) (g'.map List.ofFn) (d.map List.ofFn) = .ok (List.ofFn (-g),
      { c with steps := 0, restarted := true, lastBeta := 0 }) := by
  have hrestart : c.next (List.ofFn g) (g'.map List.ofFn) (d.map List.ofFn) =
      .ok (c.restart (List.ofFn g)) := by
    rcases hmissing with rfl | rfl
    · rfl
    · cases g' <;> rfl
  rw [hrestart, restart, Vec.neg_ofFn]

theorem next_none (c : Conjugate ℝ) (g : Fin n → ℝ) :
    c.next (List.ofFn g) none none = .ok (List.ofFn (-g),
      { c with steps := 0, restarted := true, lastBeta := 0 }) := by
  have hmissing : (none : Option (Fin n → ℝ)) = none ∨ (none : Option (Fin n → ℝ)) = none :=
    Or.inl rfl
  exact c.next_of_missing g hmissing

/-- A direction goes on from the one before it with the value of the formula, or it is
steepest descent because the policy asks or the safeguard fires. -/
theorem next_cases (c : Conjugate ℝ) (g g' d : Fin n → ℝ) : ∃ beta,
    c.formula.beta (List.ofFn g) (List.ofFn g') (List.ofFn d) = .ok beta ∧
    ((¬c.Asks g g' ∧ g ⬝ᵥ (-g + beta • d) < 0 ∧
        c.next (List.ofFn g) (some (List.ofFn g')) (some (List.ofFn d)) =
          .ok (List.ofFn (-g + beta • d),
            { c with steps := c.steps + 1, restarted := false, lastBeta := beta })) ∨
      ((c.Asks g g' ∨ ¬g ⬝ᵥ (-g + beta • d) < 0) ∧
        c.next (List.ofFn g) (some (List.ofFn g')) (some (List.ofFn d)) =
          .ok (List.ofFn (-g), { c with steps := 0, restarted := true, lastBeta := 0 }))) := by
  obtain ⟨beta, hbeta⟩ := c.formula.exists_beta g g' d
  obtain ⟨asks, hasks⟩ := c.policy.exists_asks g g' (c.steps + 1 : Nat) c.dimension
  have hiff : c.Asks g g' ↔ asks = true := by
    unfold Asks
    rw [hasks]
    exact ⟨Except.ok.inj, congrArg Except.ok⟩
  have hnext := next_ofFn hbeta hasks
  refine ⟨beta, hbeta, ?_⟩
  by_cases hgoes : asks = false ∧ g ⬝ᵥ (-g + beta • d) < 0
  · rw [if_pos hgoes] at hnext
    refine Or.inl ⟨?_, hgoes.2, hnext⟩
    rw [hiff, hgoes.1]
    exact Bool.false_ne_true
  · rw [if_neg hgoes] at hnext
    refine Or.inr ⟨?_, hnext⟩
    rw [hiff]
    by_contra hneither
    obtain ⟨hasks, hdescends⟩ := not_or.mp hneither
    exact hgoes ⟨Bool.eq_false_iff.mpr hasks, not_not.mp hdescends⟩

/-! ## Sequences of directions -/

/-- The directions for a sequence of gradients, each from the gradient and the direction
before it, and the states of the rule after them. -/
structure Directs (c : Conjugate ℝ) (g d : Nat → Fin n → ℝ) (s : Nat → Conjugate ℝ) : Prop where
  first : c.next (List.ofFn (g 0)) none none = .ok (List.ofFn (d 0), s 0)
  later : ∀ k, (s k).next (List.ofFn (g (k + 1))) (some (List.ofFn (g k)))
    (some (List.ofFn (d k))) = .ok (List.ofFn (d (k + 1)), s (k + 1))

/-- Every sequence of gradients has directions. -/
theorem exists_directs (c : Conjugate ℝ) (g : Nat → Fin n → ℝ) : ∃ d s, c.Directs g d s := by
  have hnext : ∀ (c : Conjugate ℝ) (g g' d : Fin n → ℝ), ∃ next : (Fin n → ℝ) × Conjugate ℝ,
      c.next (List.ofFn g) (some (List.ofFn g')) (some (List.ofFn d)) =
        .ok (List.ofFn next.1, next.2) := by
    intro c g g' d
    obtain ⟨beta, -, ⟨-, -, hnext⟩ | ⟨-, hnext⟩⟩ := c.next_cases g g' d
    · exact ⟨(_, _), hnext⟩
    · exact ⟨(_, _), hnext⟩
  choose next hnext using hnext
  let run : Nat → (Fin n → ℝ) × Conjugate ℝ := fun k => Nat.rec
    (-g 0, { c with steps := 0, restarted := true, lastBeta := 0 })
    (fun k last => next last.2 (g (k + 1)) (g k) last.1) k
  exact ⟨fun k => (run k).1, fun k => (run k).2, c.next_none (g 0), fun k => hnext _ _ _ _⟩

namespace Directs

variable {c : Conjugate ℝ} {g d : Nat → Fin n → ℝ} {s : Nat → Conjugate ℝ}

theorem first_eq (h : c.Directs g d s) :
    d 0 = -g 0 ∧ s 0 = { c with steps := 0, restarted := true, lastBeta := 0 } := by
  have heq := Except.ok.inj (h.first.symm.trans (c.next_none (g 0)))
  exact ⟨List.ofFn_injective (congrArg Prod.fst heq), congrArg Prod.snd heq⟩

/-- A direction goes on from the one before it with the value of the formula, or it is
steepest descent because the policy asks or the safeguard fires. -/
theorem later_cases (h : c.Directs g d s) (k : Nat) : ∃ beta,
    (s k).formula.beta (List.ofFn (g (k + 1))) (List.ofFn (g k)) (List.ofFn (d k)) = .ok beta ∧
    ((¬(s k).Asks (g (k + 1)) (g k) ∧ g (k + 1) ⬝ᵥ (-g (k + 1) + beta • d k) < 0 ∧
        d (k + 1) = -g (k + 1) + beta • d k ∧
        s (k + 1) = { s k with steps := (s k).steps + 1, restarted := false, lastBeta := beta }) ∨
      (((s k).Asks (g (k + 1)) (g k) ∨ ¬g (k + 1) ⬝ᵥ (-g (k + 1) + beta • d k) < 0) ∧
        d (k + 1) = -g (k + 1) ∧
        s (k + 1) = { s k with steps := 0, restarted := true, lastBeta := 0 })) := by
  obtain ⟨beta, hbeta, ⟨hasks, hdescends, hnext⟩ | ⟨hreason, hnext⟩⟩ :=
    (s k).next_cases (g (k + 1)) (g k) (d k)
  · have heq := Except.ok.inj ((h.later k).symm.trans hnext)
    exact ⟨beta, hbeta, Or.inl ⟨hasks, hdescends, List.ofFn_injective (congrArg Prod.fst heq),
      congrArg Prod.snd heq⟩⟩
  · have heq := Except.ok.inj ((h.later k).symm.trans hnext)
    exact ⟨beta, hbeta, Or.inr ⟨hreason, List.ofFn_injective (congrArg Prod.fst heq),
      congrArg Prod.snd heq⟩⟩

theorem formula_eq (h : c.Directs g d s) (k : Nat) : (s k).formula = c.formula := by
  induction k with
  | zero => rw [h.first_eq.2]
  | succ k ih =>
    obtain ⟨beta, -, ⟨-, -, -, hnext⟩ | ⟨-, -, hnext⟩⟩ := h.later_cases k
    · rw [hnext]
      exact ih
    · rw [hnext]
      exact ih

/-- What a formula keeps up is kept up along the whole sequence, restarts included. -/
theorem keeps (h : c.Directs g d s) (hformula : c.formula = .fletcherReeves ∨
      c.formula = .fletcherReevesPolakRibiere ∨ c.formula = .daiYuan)
    (hc2 : 0 < c2) (hc2' : c2 < 1 / 2) (hg : ∀ k, g k ≠ 0) {k : Nat}
    (hcurvature : ∀ j < k, |g (j + 1) ⬝ᵥ d j| ≤ -c2 * (g j ⬝ᵥ d j)) :
    c.formula.Keeps c2 (g k) (d k) := by
  induction k with
  | zero =>
    rw [h.first_eq.1]
    exact .restart hformula hc2 hc2' (hg 0)
  | succ k ih =>
    have hkept := ih fun j hj => hcurvature j (Nat.lt_succ_of_lt hj)
    obtain ⟨beta, hbeta, ⟨-, -, hdirection, -⟩ | ⟨-, hdirection, -⟩⟩ := h.later_cases k
    · rw [h.formula_eq k] at hbeta
      rw [hdirection]
      exact hkept.continued hc2 hc2' (hg (k + 1)) (hg k) (hcurvature k k.lt_succ_self) hbeta
    · rw [hdirection]
      exact .restart hformula hc2 hc2' (hg (k + 1))

/-- The safeguard does not fire at a direction that goes on from one with the slope that is
kept up. -/
theorem later_eq (h : c.Directs g d s) (hc2 : 0 < c2) (hc2' : c2 < 1 / 2) (hg : ∀ k, g k ≠ 0)
    {k : Nat} (hkept : c.formula.Keeps c2 (g k) (d k))
    (hcurvature : |g (k + 1) ⬝ᵥ d k| ≤ -c2 * (g k ⬝ᵥ d k)) :
    ((s k).Asks (g (k + 1)) (g k) ∧ (s (k + 1)).restarted = true ∧ d (k + 1) = -g (k + 1)) ∨
      (¬(s k).Asks (g (k + 1)) (g k) ∧ (s (k + 1)).restarted = false ∧ ∃ beta,
        c.formula.beta (List.ofFn (g (k + 1))) (List.ofFn (g k)) (List.ofFn (d k)) = .ok beta ∧
        d (k + 1) = -g (k + 1) + beta • d k) := by
  obtain ⟨beta, hbeta, ⟨hasks, -, hdirection, hnext⟩ | ⟨hasks, hdirection, hnext⟩⟩ :=
    h.later_cases k
  · rw [h.formula_eq k] at hbeta
    exact Or.inr ⟨hasks, congrArg restarted hnext, beta, hbeta, hdirection⟩
  · rw [h.formula_eq k] at hbeta
    have hdescends := (hkept.continued hc2 hc2' (hg (k + 1)) (hg k) hcurvature hbeta).descends hc2'
    have hasks := hasks.resolve_right fun hup => hup hdescends
    exact Or.inl ⟨hasks, congrArg restarted hnext, hdirection⟩

end Directs

/-- Under the curvature condition with a constant below one half, three formulas give
directions that descend by themselves: the first direction is steepest descent, and a later
one is exactly when the policy asks for it. -/
theorem safeguard_idle {c : Conjugate ℝ} {g : Nat → Fin n → ℝ}
    (hformula : c.formula = .fletcherReeves ∨ c.formula = .fletcherReevesPolakRibiere ∨
      c.formula = .daiYuan)
    (hc2 : 0 < c2) (hc2' : c2 < 1 / 2) (hg : ∀ k, g k ≠ 0) :
    (∃ d s, c.Directs g d s) ∧ ∀ d s, c.Directs g d s → ∀ k,
      (∀ j < k, |g (j + 1) ⬝ᵥ d j| ≤ -c2 * (g j ⬝ᵥ d j)) →
      (c.formula ≠ .daiYuan → -1 / (1 - c2) ≤ (g k ⬝ᵥ d k) / (g k ⬝ᵥ g k) ∧
        (g k ⬝ᵥ d k) / (g k ⬝ᵥ g k) ≤ -(1 - 2 * c2) / (1 - c2)) ∧
      g k ⬝ᵥ d k < 0 ∧
      ((s k).restarted = true ↔ k = 0 ∨ ∃ j, k = j + 1 ∧ (s j).Asks (g k) (g j)) ∧
      ((s k).restarted = true → d k = -g k) ∧
      ((s k).restarted = false → ∃ j beta, k = j + 1 ∧
        c.formula.beta (List.ofFn (g k)) (List.ofFn (g j)) (List.ofFn (d j)) = .ok beta ∧
        d k = -g k + beta • d j) := by
  refine ⟨c.exists_directs g, fun d s h k hcurvature => ?_⟩
  have hkept := h.keeps hformula hc2 hc2' hg hcurvature
  refine ⟨hkept.slopeWithin, hkept.descends hc2', ?_⟩
  cases k with
  | zero =>
    obtain ⟨hdirection, hfirst⟩ := h.first_eq
    have hrestarted : (s 0).restarted = true := congrArg restarted hfirst
    refine ⟨iff_of_true hrestarted (Or.inl rfl), fun _ => hdirection, fun hcontinued => ?_⟩
    rw [hrestarted] at hcontinued
    cases hcontinued
  | succ k =>
    have hasks : (k + 1 = 0 ∨ ∃ j, k + 1 = j + 1 ∧ (s j).Asks (g (k + 1)) (g j)) ↔
        (s k).Asks (g (k + 1)) (g k) := by
      constructor
      · rintro (hzero | ⟨j, hj, hasks⟩)
        · exact absurd hzero k.succ_ne_zero
        · obtain rfl := Nat.succ.inj hj
          exact hasks
      · exact fun hasks => Or.inr ⟨k, rfl, hasks⟩
    have hbefore := h.keeps hformula hc2 hc2' hg fun j hj => hcurvature j (Nat.lt_succ_of_lt hj)
    rw [hasks]
    rcases h.later_eq hc2 hc2' hg hbefore (hcurvature k k.lt_succ_self) with
      ⟨hasked, hrestarted, hdirection⟩ | ⟨hnot, hcontinued, beta, hbeta, hdirection⟩
    · refine ⟨iff_of_true hrestarted hasked, fun _ => hdirection, fun hfalse => ?_⟩
      rw [hrestarted] at hfalse
      cases hfalse
    · refine ⟨iff_of_false ?_ hnot, fun htrue => ?_, fun _ => ⟨k, beta, rfl, hbeta, hdirection⟩⟩
      · rw [hcontinued]
        exact Bool.false_ne_true
      · rw [hcontinued] at htrue
        cases htrue

/-- A gradient that turns by almost a right angle and then stays. -/
noncomputable def turning (k : Nat) : Fin 2 → ℝ := if k = 0 then ![1, 0] else ![1 / 16, 1]

/-- The second direction for it goes on from the first one, below the bound that belongs to
a quarter. -/
theorem safeguard_idle_turning :
    ∃ d s, (start .fletcherReevesPolakRibiere .orthogonality 2).Directs turning d s ∧
      (turning 1 ⬝ᵥ d 1) / (turning 1 ⬝ᵥ turning 1) ≤ -2 / 3 ∧ (s 1).restarted = false := by
  have hg : ∀ k, turning k ≠ 0 := by
    intro k hk
    unfold turning at hk
    split at hk
    · exact one_ne_zero (congrFun hk 0)
    · exact one_ne_zero (congrFun hk 1)
  obtain ⟨⟨d, s, h⟩, hall⟩ := safeguard_idle
    (c := start .fletcherReevesPolakRibiere .orthogonality 2) (Or.inr (Or.inl rfl))
    (show (0 : ℝ) < 1 / 4 by norm_num) (by norm_num) hg
  obtain ⟨hfirst, hstate⟩ := h.first_eq
  have hcurvature : ∀ j < 1, |turning (j + 1) ⬝ᵥ d j| ≤ -(1 / 4) * (turning j ⬝ᵥ d j) := by
    intro j hj
    obtain rfl := Nat.lt_one_iff.mp hj
    rw [hfirst]
    norm_num [turning, Matrix.vecHead, Matrix.vecTail]
  have hasks : ¬(s 0).Asks (turning 1) (turning 0) := by
    have hsq : turning 1 ⬝ᵥ turning 1 ≠ 0 := (dotProduct_self_pos (hg 1)).ne'
    have hnear :
        ¬RestartPolicy.threshold ≤ |turning 1 ⬝ᵥ turning 0| / (turning 1 ⬝ᵥ turning 1) := by
      norm_num [turning, RestartPolicy.threshold]
    intro hasks
    rw [hstate] at hasks
    have hasked := (RestartPolicy.asks_orthogonality (turning 1) (turning 0) _ _).symm.trans hasks
    rw [if_neg hsq, decide_eq_false hnear] at hasked
    cases hasked
  obtain ⟨hslope, -, hrestarted, -⟩ := hall d s h 1 hcurvature
  have hupper : -(1 - 2 * (1 / 4)) / (1 - 1 / 4) = (-2 / 3 : ℝ) := by norm_num
  refine ⟨d, s, h, ?_, ?_⟩
  · rw [← hupper]
    exact (hslope (by decide)).2
  · rw [Bool.eq_false_iff, Ne, hrestarted]
    rintro (hzero | ⟨j, hj, hasked⟩)
    · exact one_ne_zero hzero
    · obtain rfl := Nat.succ.inj hj
      exact hasks hasked

end Conjugate

end Downhill
