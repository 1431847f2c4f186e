import Downhill.Proofs.Linear.Form
import Downhill.Proofs.Number.Real
import Mathlib.Analysis.RCLike.Basic
import Mathlib.LinearAlgebra.Dimension.Constructions
import Mathlib.Tactic.FieldSimp
import Mathlib.Tactic.LinearCombination

/-!
# The recurrence of conjugate gradients

Points, gradients and directions of the method on a quadratic with a positive
definite matrix, with the best step along each direction.  As long as no gradient
vanishes, a gradient is orthogonal to all directions and gradients before it, and
the directions are conjugate.  In `n` dimensions there are no `n + 1` orthogonal
gradients, so the gradient vanishes after `n` steps at the latest.
-/

namespace Downhill

open Matrix

/-- Orthogonal vectors none of which is zero are no more than the dimension. -/
theorem card_le_of_orthogonal {n m : Nat} {g : Fin m → Fin n → ℝ} (hne : ∀ i, g i ≠ 0)
    (horthogonal : ∀ i j, i ≠ j → g i ⬝ᵥ g j = 0) : m ≤ n := by
  have hindependent : LinearIndependent ℝ g := by
    rw [Fintype.linearIndependent_iff]
    intro c hc i
    have hproduct : (∑ j, c j • g j) ⬝ᵥ g i = c i * (g i ⬝ᵥ g i) := by
      rw [sum_dotProduct, Finset.sum_eq_single i]
      · rw [smul_dotProduct, smul_eq_mul]
      · intro j _ hj
        rw [smul_dotProduct, horthogonal j i hj, smul_zero]
      · intro hi
        exact absurd (Finset.mem_univ i) hi
    rw [hc, zero_dotProduct] at hproduct
    exact (mul_eq_zero.mp hproduct.symm).resolve_right
      fun h => hne i (dotProduct_self_eq_zero.mp h)
  have hcard := hindependent.fintype_card_le_finrank
  rwa [Fintype.card_fin, Module.finrank_fin_fun] at hcard

/-- A positive definite quadratic `½ x'Ax - b'x` and a point to start from. -/
structure ConjugateLine (n : Nat) where
  matrix : Matrix (Fin n) (Fin n) ℝ
  linear : Fin n → ℝ
  start : Fin n → ℝ
  posDef : matrix.PosDef

namespace ConjugateLine

variable {n : Nat} (l : ConjugateLine n)

/-- The gradient at a point. -/
def gradientAt (x : Fin n → ℝ) : Fin n → ℝ := l.matrix *ᵥ x - l.linear

/-- The best step along a direction that heads down like the gradient. -/
noncomputable def bestStep (g d : Fin n → ℝ) : ℝ := (g ⬝ᵥ g) / (d ⬝ᵥ l.matrix *ᵥ d)

/-- The point and the direction of each iteration. -/
noncomputable def iterate : Nat → (Fin n → ℝ) × (Fin n → ℝ)
  | 0 => (l.start, -l.gradientAt l.start)
  | k + 1 =>
    let (x, d) := iterate k
    let g := l.gradientAt x
    let next := x + l.bestStep g d • d
    let g' := l.gradientAt next
    (next, -g' + ((g' ⬝ᵥ g') / (g ⬝ᵥ g)) • d)

noncomputable def point (k : Nat) : Fin n → ℝ := (l.iterate k).1

noncomputable def direction (k : Nat) : Fin n → ℝ := (l.iterate k).2

noncomputable def gradient (k : Nat) : Fin n → ℝ := l.gradientAt (l.point k)

noncomputable def step (k : Nat) : ℝ := l.bestStep (l.gradient k) (l.direction k)

noncomputable def beta (k : Nat) : ℝ :=
  (l.gradient (k + 1) ⬝ᵥ l.gradient (k + 1)) / (l.gradient k ⬝ᵥ l.gradient k)

theorem point_succ (k : Nat) : l.point (k + 1) = l.point k + l.step k • l.direction k := rfl

theorem direction_zero : l.direction 0 = -l.gradient 0 := rfl

theorem direction_succ (k : Nat) :
    l.direction (k + 1) = -l.gradient (k + 1) + l.beta k • l.direction k := rfl

theorem gradient_succ (k : Nat) :
    l.gradient (k + 1) = l.gradient k + l.step k • l.matrix *ᵥ l.direction k := by
  unfold gradient gradientAt
  rw [point_succ, mulVec_add, mulVec_smul, add_sub_right_comm]

theorem dot_mulVec_comm (u v : Fin n → ℝ) : u ⬝ᵥ l.matrix *ᵥ v = v ⬝ᵥ l.matrix *ᵥ u :=
  dotProduct_mulVec_comm (isSymm_of_posDef l.posDef) u v

/-! ## Conjugacy -/

/-- What holds at an iteration that no vanishing gradient precedes. -/
structure Conjugated (k : Nat) : Prop where
  orthogonal : ∀ j < k, l.gradient k ⬝ᵥ l.direction j = 0
  conjugate : ∀ j < k, l.direction k ⬝ᵥ l.matrix *ᵥ l.direction j = 0
  heading : l.gradient k ⬝ᵥ l.direction k = -(l.gradient k ⬝ᵥ l.gradient k)

variable {l}

/-- Gradients lie in the span of the directions so far. -/
theorem dot_gradient_eq_zero {v : Fin n → ℝ} {j : Nat}
    (h : ∀ i ≤ j, v ⬝ᵥ l.direction i = 0) : v ⬝ᵥ l.gradient j = 0 := by
  cases j with
  | zero =>
    have hzero := h 0 le_rfl
    rwa [direction_zero, dotProduct_neg, neg_eq_zero] at hzero
  | succ j =>
    have hlast := h (j + 1) le_rfl
    rw [direction_succ, dotProduct_add, dotProduct_neg, dotProduct_smul, h j (Nat.le_succ j),
      smul_zero, add_zero, neg_eq_zero] at hlast
    exact hlast

theorem Conjugated.gradient_dot_gradient {k j : Nat} (h : l.Conjugated k) (hj : j < k) :
    l.gradient k ⬝ᵥ l.gradient j = 0 :=
  dot_gradient_eq_zero fun i hi => h.orthogonal i (hi.trans_lt hj)

theorem Conjugated.direction_ne_zero {k : Nat} (h : l.Conjugated k) (hg : l.gradient k ≠ 0) :
    l.direction k ≠ 0 := by
  intro hd
  have hheading := h.heading
  rw [hd, dotProduct_zero] at hheading
  linarith [dotProduct_self_pos hg]

theorem Conjugated.curvature_direction_pos {k : Nat} (h : l.Conjugated k)
    (hg : l.gradient k ≠ 0) : 0 < l.direction k ⬝ᵥ l.matrix *ᵥ l.direction k :=
  curvature_pos l.posDef (h.direction_ne_zero hg)

theorem Conjugated.step_pos {k : Nat} (h : l.Conjugated k) (hg : l.gradient k ≠ 0) :
    0 < l.step k := div_pos (dotProduct_self_pos hg) (h.curvature_direction_pos hg)

/-- The best step leads to where the direction no longer descends. -/
theorem Conjugated.step_mul_curvature {k : Nat} (h : l.Conjugated k) (hg : l.gradient k ≠ 0) :
    l.step k * (l.direction k ⬝ᵥ l.matrix *ᵥ l.direction k) = l.gradient k ⬝ᵥ l.gradient k :=
  div_mul_cancel₀ _ (h.curvature_direction_pos hg).ne'

theorem Conjugated.next_orthogonal {k : Nat} (h : l.Conjugated k) (hg : l.gradient k ≠ 0)
    {j : Nat} (hj : j < k + 1) : l.gradient (k + 1) ⬝ᵥ l.direction j = 0 := by
  rw [gradient_succ, add_dotProduct, smul_dotProduct, dotProduct_comm (l.matrix *ᵥ _),
    dot_mulVec_comm, smul_eq_mul]
  rcases Nat.lt_succ_iff_lt_or_eq.mp hj with hlt | rfl
  · rw [h.orthogonal j hlt, h.conjugate j hlt, mul_zero, add_zero]
  · rw [h.heading, h.step_mul_curvature hg, neg_add_cancel]

/-- A product with the image of a direction is a difference of products with
gradients. -/
theorem step_mul_dot_mulVec (v : Fin n → ℝ) (j : Nat) :
    l.step j * (v ⬝ᵥ l.matrix *ᵥ l.direction j) =
      v ⬝ᵥ l.gradient (j + 1) - v ⬝ᵥ l.gradient j := by
  rw [gradient_succ, dotProduct_add, dotProduct_smul, smul_eq_mul, add_sub_cancel_left]

/-- The next direction is conjugate to the directions so far: to those before the
last because the next gradient is orthogonal to all gradients, and to the last one
by the choice of `beta`. -/
theorem next_conjugate {k : Nat} (hall : ∀ j ≤ k, l.Conjugated j)
    (hne : ∀ j ≤ k, l.gradient j ≠ 0) {j : Nat} (hj : j < k + 1) :
    l.direction (k + 1) ⬝ᵥ l.matrix *ᵥ l.direction j = 0 := by
  have h := hall k le_rfl
  have hg := hne k le_rfl
  have hgradients : ∀ i < k + 1, l.gradient (k + 1) ⬝ᵥ l.gradient i = 0 :=
    fun i hi => dot_gradient_eq_zero fun m hm => h.next_orthogonal hg (hm.trans_lt hi)
  have himage := step_mul_dot_mulVec (l := l) (l.gradient (k + 1)) j
  rw [hgradients j hj, sub_zero] at himage
  rw [direction_succ, add_dotProduct, neg_dotProduct, smul_dotProduct, smul_eq_mul]
  rcases Nat.lt_succ_iff_lt_or_eq.mp hj with hlt | rfl
  · rw [hgradients (j + 1) (by omega)] at himage
    have hstep : l.step j ≠ 0 := ((hall j hlt.le).step_pos (hne j hlt.le)).ne'
    rw [h.conjugate j hlt, (mul_eq_zero.mp himage).resolve_left hstep, neg_zero, mul_zero,
      add_zero]
  · have hlength := h.step_mul_curvature hg
    have hbeta : l.beta j * (l.gradient j ⬝ᵥ l.gradient j) =
        l.gradient (j + 1) ⬝ᵥ l.gradient (j + 1) :=
      div_mul_cancel₀ _ (dotProduct_self_pos hg).ne'
    refine (mul_eq_zero.mp ?_).resolve_left (h.step_pos hg).ne'
    linear_combination l.beta j * hlength - himage + hbeta

/-- The invariant of the recurrence. -/
theorem conjugated (l : ConjugateLine n) (k : Nat) (hne : ∀ j < k, l.gradient j ≠ 0) :
    l.Conjugated k := by
  induction k using Nat.strong_induction_on with
  | _ k ih =>
    cases k with
    | zero =>
      refine ⟨nofun, nofun, ?_⟩
      rw [direction_zero, dotProduct_neg]
    | succ k =>
      have hall : ∀ j ≤ k, l.Conjugated j :=
        fun j hj => ih j (Nat.lt_succ_of_le hj) fun i hi => hne i (by omega)
      have hbefore : ∀ j ≤ k, l.gradient j ≠ 0 := fun j hj => hne j (Nat.lt_succ_of_le hj)
      have horthogonal : ∀ j < k + 1, l.gradient (k + 1) ⬝ᵥ l.direction j = 0 :=
        fun j hj => (hall k le_rfl).next_orthogonal (hbefore k le_rfl) hj
      refine ⟨horthogonal, fun j hj => next_conjugate hall hbefore hj, ?_⟩
      rw [direction_succ, dotProduct_add, dotProduct_neg, dotProduct_smul,
        horthogonal k (Nat.lt_succ_self k), smul_zero, add_zero]

/-! ## Termination -/

theorem gradient_dot_gradient {k j : Nat} (hne : ∀ i < k, l.gradient i ≠ 0) (hj : j < k) :
    l.gradient k ⬝ᵥ l.gradient j = 0 := (l.conjugated k hne).gradient_dot_gradient hj

/-- After as many steps as there are dimensions the gradient vanishes, if none did
before. -/
theorem gradient_dimension_eq_zero (hne : ∀ j < n, l.gradient j ≠ 0) : l.gradient n = 0 := by
  by_contra hlast
  have hall : ∀ i < n + 1, l.gradient i ≠ 0 := by
    intro i hi
    rcases Nat.lt_succ_iff_lt_or_eq.mp hi with hlt | rfl
    · exact hne i hlt
    · exact hlast
  have hcard : n + 1 ≤ n := by
    refine card_le_of_orthogonal (g := fun i : Fin (n + 1) => l.gradient i)
      (fun i => hall i i.isLt) fun i j hij => ?_
    rcases lt_or_gt_of_ne (Fin.val_ne_of_ne hij) with hlt | hgt
    · rw [dotProduct_comm]
      exact gradient_dot_gradient (fun k hk => hall k (hk.trans j.isLt)) hlt
    · exact gradient_dot_gradient (fun k hk => hall k (hk.trans i.isLt)) hgt
  exact absurd hcard (Nat.not_succ_le_self n)

end ConjugateLine

end Downhill
