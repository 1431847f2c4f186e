import Downhill.Proofs.Linear.Quadratic
import Downhill.Proofs.Linear.Reals
import Mathlib.LinearAlgebra.Matrix.PosDef

/-!
# Quadratic forms of real numbers

A quadratic whose matrix, vector and constant are real takes real values and has real
gradients at real points.  A move changes the value by the slope along it and half the
curvature along it.
-/

namespace Downhill

open Matrix Extended

variable {n : Nat} (A : Matrix (Fin n) (Fin n) ℝ) (b : Fin n → ℝ) (c : ℝ)

/-- The value `½ x'Ax - b'x + c`. -/
noncomputable def formValue (x : Fin n → ℝ) : ℝ := 1 / 2 * (x ⬝ᵥ A *ᵥ x) - b ⬝ᵥ x + c

/-- The gradient `Ax - b`. -/
def formGradient (x : Fin n → ℝ) : Fin n → ℝ := A *ᵥ x - b

section Move

variable {A}

theorem dotProduct_self_nonneg (u : Fin n → ℝ) : 0 ≤ u ⬝ᵥ u :=
  Finset.sum_nonneg fun i _ => mul_self_nonneg (u i)

theorem dotProduct_self_pos {u : Fin n → ℝ} (hu : u ≠ 0) : 0 < u ⬝ᵥ u :=
  lt_of_le_of_ne (dotProduct_self_nonneg u) fun h => hu (dotProduct_self_eq_zero.mp h.symm)

theorem isSymm_of_posDef (h : A.PosDef) : A.IsSymm := by
  have hsymm := h.isHermitian
  rwa [IsHermitian, conjTranspose_eq_transpose_of_trivial] at hsymm

theorem curvature_pos (h : A.PosDef) {d : Fin n → ℝ} (hd : d ≠ 0) : 0 < d ⬝ᵥ A *ᵥ d :=
  (posDef_iff_dotProduct_mulVec.mp h).2 hd

theorem curvature_nonneg (h : A.PosDef) (d : Fin n → ℝ) : 0 ≤ d ⬝ᵥ A *ᵥ d := by
  by_cases hd : d = 0
  · rw [hd, zero_dotProduct]
  · exact (curvature_pos h hd).le

theorem dotProduct_mulVec_comm (hsymm : A.IsSymm) (u v : Fin n → ℝ) :
    u ⬝ᵥ A *ᵥ v = v ⬝ᵥ A *ᵥ u := by
  rw [dotProduct_mulVec, ← mulVec_transpose, hsymm.eq, dotProduct_comm]

theorem formValue_add (hsymm : A.IsSymm) (x s : Fin n → ℝ) :
    formValue A b c (x + s) =
      formValue A b c x + formGradient A b x ⬝ᵥ s + 1 / 2 * (s ⬝ᵥ A *ᵥ s) := by
  have hcross : s ⬝ᵥ A *ᵥ x = x ⬝ᵥ A *ᵥ s := dotProduct_mulVec_comm hsymm s x
  have hslope : A *ᵥ x ⬝ᵥ s = x ⬝ᵥ A *ᵥ s := by rw [dotProduct_comm, hcross]
  unfold formValue formGradient
  simp only [mulVec_add, dotProduct_add, add_dotProduct, sub_dotProduct, hcross, hslope]
  ring

/-- Above the point where the gradient vanishes lies half the curvature. -/
theorem formValue_sub_best (hsymm : A.IsSymm) {best : Fin n → ℝ} (hbest : A *ᵥ best = b)
    (x : Fin n → ℝ) : formValue A b c x - formValue A b c best =
      1 / 2 * ((x - best) ⬝ᵥ A *ᵥ (x - best)) := by
  have hzero : formGradient A b best = 0 := sub_eq_zero.mpr hbest
  have hmove := formValue_add b c hsymm best (x - best)
  rw [add_sub_cancel, hzero, zero_dotProduct] at hmove
  rw [hmove]
  ring

end Move

namespace Quadratic

noncomputable def ofReals : Quadratic Extended where
  matrix := List.ofFn fun i => Vec.reals (A i)
  linear := Vec.reals b
  constant := real c
  rows_eq := by simp
  columns_eq := by simp

variable (x d : Fin n → ℝ)

@[simp] theorem mulVec_ofReals :
    (ofReals A b c).matrix.mulVec (Vec.reals x) = .ok (Vec.reals (A *ᵥ x)) := by
  have hrows : ∀ row ∈ List.ofFn fun i => Vec.reals (A i),
      Vec.dot row (Vec.reals x) = .ok (real (Vec.reading n row ⬝ᵥ x)) := by
    intro row hrow
    obtain ⟨i, rfl⟩ := List.mem_ofFn.mp hrow
    rw [Vec.dot_reals, Vec.reading_reals]
  refine (Fault.mapM_eq_ok hrows).trans ?_
  rw [List.map_ofFn]
  simp only [Function.comp_def, Vec.reading_reals]
  rfl

@[simp] theorem gradient_ofReals :
    (ofReals A b c).gradient (Vec.reals x) = .ok (Vec.reals (formGradient A b x)) := by
  unfold gradient
  rw [mulVec_ofReals]
  exact Vec.sub_reals _ _

@[simp] theorem curvature_ofReals :
    curvature (ofReals A b c).matrix (Vec.reals d) = .ok (real (d ⬝ᵥ A *ᵥ d)) := by
  unfold curvature
  rw [mulVec_ofReals]
  exact Vec.dot_reals _ _

@[simp] theorem value_ofReals :
    (ofReals A b c).value (Vec.reals x) = .ok (real (formValue A b c x)) := by
  have hhalf : (Vec.reals x).scale 0.5 = Vec.reals ((1 / 2 : ℝ) • x) := by
    rw [ofScientific_eq, Vec.scale_reals]
    norm_num
  have hlinear : Vec.dot (ofReals A b c).linear (Vec.reals x) = .ok (real (b ⬝ᵥ x)) :=
    Vec.dot_reals b x
  unfold value
  rw [mulVec_ofReals, hhalf, hlinear]
  show (do
    let half ← Vec.dot (Vec.reals ((1 / 2 : ℝ) • x)) (Vec.reals (A *ᵥ x))
    return half - real (b ⬝ᵥ x) + real c : Except Fault Extended) = _
  rw [Vec.dot_reals, smul_dotProduct]
  show Except.ok (real ((1 / 2 : ℝ) • (x ⬝ᵥ A *ᵥ x)) - real (b ⬝ᵥ x) + real c) = _
  rw [real_sub, real_add]
  rfl

section Coordinates

variable (q : Quadratic ℝ) (x : Fin q.dimension → ℝ)

theorem value_eq_form :
    q.value (List.ofFn x) = .ok (formValue q.toMatrix q.toLinear q.constant x) := by
  have hhalf : (0.5 : ℝ) = 1 / 2 := by norm_num
  rw [value_ofFn, smul_dotProduct, smul_eq_mul, hhalf]
  rfl

theorem gradient_eq_form :
    q.gradient (List.ofFn x) = .ok (List.ofFn (formGradient q.toMatrix q.toLinear x)) :=
  gradient_ofFn q x

end Coordinates

end Quadratic

end Downhill
