import Downhill.Objective.Difference
import Downhill.Proofs.Linear.Form

/-!
# Central differences of a quadratic

Between opposite moves along a coordinate the value of an objective changes by twice the step,
times the derivative and an excess that the step may leave.  Central differences then exceed
the gradient by just that.

The value of a quadratic sees the symmetric part of the matrix only, and along a
coordinate the curvature cancels between opposite moves.  So central differences of the
value are the gradient with the symmetric part, whatever the step.  The gradient that a
quadratic reports is taken with the matrix itself.  The two agree at a point if the matrix
and its transpose do, and everywhere if the matrix is symmetric.
-/

namespace Downhill

open Matrix

section SymmetricPart

variable {n : Nat} (A : Matrix (Fin n) (Fin n) ℝ) (b : Fin n → ℝ) (c : ℝ) (x s : Fin n → ℝ)

/-- The mean of a matrix and its transpose. -/
noncomputable def symmetricPart : Matrix (Fin n) (Fin n) ℝ := (1 / 2 : ℝ) • (A + Aᵀ)

theorem symmetricPart_isSymm : (symmetricPart A).IsSymm := by
  have hsum : (A + Aᵀ)ᵀ = A + Aᵀ := by rw [transpose_add, transpose_transpose, add_comm]
  show ((1 / 2 : ℝ) • (A + Aᵀ))ᵀ = (1 / 2 : ℝ) • (A + Aᵀ)
  rw [transpose_smul, hsum]

theorem symmetricPart_mulVec : symmetricPart A *ᵥ x = (1 / 2 : ℝ) • (A *ᵥ x + Aᵀ *ᵥ x) := by
  unfold symmetricPart
  rw [smul_mulVec, add_mulVec]

theorem formValue_symmetricPart : formValue (symmetricPart A) b c x = formValue A b c x := by
  have htranspose : x ⬝ᵥ Aᵀ *ᵥ x = x ⬝ᵥ A *ᵥ x := by
    rw [mulVec_transpose, dotProduct_comm, ← dotProduct_mulVec]
  have hcurve : x ⬝ᵥ symmetricPart A *ᵥ x = x ⬝ᵥ A *ᵥ x := by
    rw [symmetricPart_mulVec, dotProduct_smul, dotProduct_add, htranspose, smul_eq_mul]
    ring
  unfold formValue
  rw [hcurve]

/-- Between opposite moves the value changes by twice the slope along them. -/
theorem formValue_opposite {A : Matrix (Fin n) (Fin n) ℝ} (hsymm : A.IsSymm) :
    formValue A b c (x + s) - formValue A b c (x + -s) = 2 * (formGradient A b x ⬝ᵥ s) := by
  have hback : -s ⬝ᵥ A *ᵥ -s = s ⬝ᵥ A *ᵥ s := by
    rw [mulVec_neg, neg_dotProduct_neg]
  rw [formValue_add b c hsymm x s, formValue_add b c hsymm x (-s), hback, dotProduct_neg]
  ring

theorem formGradient_eq_symmetricPart_iff :
    formGradient (symmetricPart A) b x = formGradient A b x ↔ A *ᵥ x = Aᵀ *ᵥ x := by
  unfold formGradient
  rw [sub_left_inj, symmetricPart_mulVec]
  constructor
  · intro h
    funext i
    have hi := congrFun h i
    simp only [Pi.smul_apply, Pi.add_apply, smul_eq_mul] at hi
    linarith
  · intro h
    rw [← h, ← two_smul ℝ (A *ᵥ x), smul_smul]
    norm_num

end SymmetricPart

theorem Vec.shift_ofFn {n : Nat} (x : Fin n → ℝ) (i : Fin n) (h : ℝ) :
    Vec.shift (List.ofFn x) i h = List.ofFn (x + Pi.single i h) := by
  unfold Vec.shift
  refine List.ext_getElem (by simp) fun j hj hj' => ?_
  rw [List.getElem_modify, List.getElem_ofFn, List.getElem_ofFn, Pi.add_apply, Pi.single_apply]
  by_cases hij : (i : Nat) = j
  · have hji : (⟨j, by simpa using hj'⟩ : Fin n) = i := Fin.ext hij.symm
    rw [if_pos hij, if_pos hji]
  · have hji : ¬(⟨j, by simpa using hj'⟩ : Fin n) = i := fun heq => hij (congrArg Fin.val heq).symm
    rw [if_neg hij, if_neg hji, add_zero]

theorem Fault.mapM_range_eq_ok {β : Type} {n : Nat} {f : Nat → Except Fault β} {v : Fin n → β}
    (h : ∀ i : Fin n, f i = .ok (v i)) : (List.range n).mapM f = .ok (List.ofFn v) := by
  rw [← List.map_coe_finRange_eq_range, List.mapM_map, List.ofFn_eq_map]
  exact mapM_eq_ok fun i _ => h i

/-- An objective that is given by a function of the coordinates and the derivatives of it, up
to an excess of the central differences of one step. -/
structure Objective.Exceeds {n : Nat} (f : Objective ℝ) (step : ℝ) (v : (Fin n → ℝ) → ℝ)
    (g excess : (Fin n → ℝ) → Fin n → ℝ) : Prop where
  value : ∀ x, f.value (List.ofFn x) = .ok (v x)
  gradient : ∀ x, f.gradient (List.ofFn x) = .ok (List.ofFn (g x))
  change : ∀ x i, v (x + Pi.single i step) - v (x + Pi.single i (-step)) =
    2 * step * (g x i + excess x i)

namespace Objective.Exceeds

variable {n : Nat} {f : Objective ℝ} {step : ℝ} {v : (Fin n → ℝ) → ℝ}
  {g excess : (Fin n → ℝ) → Fin n → ℝ}

theorem centralDifference_eq (h : f.Exceeds step v g excess) (hstep : 0 < step) (x : Fin n → ℝ)
    (i : Fin n) : centralDifference f.value (List.ofFn x) step i = .ok (g x i + excess x i) := by
  have htwo : (2.0 : ℝ) = 2 := by norm_num
  unfold centralDifference
  rw [Vec.shift_ofFn, Vec.shift_ofFn, h.value, h.value]
  simp only [bind, Except.bind, pure, Except.pure, h.change, htwo]
  congr 1
  field_simp

theorem differenceGradient_eq (h : f.Exceeds step v g excess) (hstep : 0 < step)
    (x : Fin n → ℝ) :
    differenceGradient f.value (List.ofFn x) step = .ok (List.ofFn (g x + excess x)) := by
  have haccepted : Fault.refuse (step ≤ 0) .differenceStep = .ok () :=
    Fault.refuse_eq_ok_iff.mpr (not_le.mpr hstep)
  unfold differenceGradient
  rw [haccepted, List.length_ofFn]
  exact Fault.mapM_range_eq_ok (h.centralDifference_eq hstep x)

/-- What central differences and the gradient are at a point of the right size. -/
theorem of_length (h : f.Exceeds step v g excess) (hstep : 0 < step) {x : Vec ℝ}
    (hx : x.length = n) :
    differenceGradient f.value x step =
        .ok (List.ofFn (g (x.coordinates n) + excess (x.coordinates n))) ∧
      f.gradient x = .ok (List.ofFn (g (x.coordinates n))) := by
  have hdifference := h.differenceGradient_eq hstep (x.coordinates n)
  have hgradient := h.gradient (x.coordinates n)
  rw [Vec.ofFn_coordinates hx] at hdifference hgradient
  exact ⟨hdifference, hgradient⟩

end Objective.Exceeds

namespace Quadratic

variable (q : Quadratic ℝ) {step : ℝ}

/-- The excess is what the gradient with the symmetric part has beyond the reported one. -/
theorem exceeds (step : ℝ) : q.toObjective.Exceeds step
    (formValue q.toMatrix q.toLinear q.constant) (formGradient q.toMatrix q.toLinear)
    (fun x => formGradient (symmetricPart q.toMatrix) q.toLinear x -
      formGradient q.toMatrix q.toLinear x) where
  value := value_eq_form q
  gradient := gradient_eq_form q
  change x i := by
    have hchange := formValue_opposite q.toLinear q.constant x (Pi.single i step)
      (symmetricPart_isSymm q.toMatrix)
    rw [formValue_symmetricPart, formValue_symmetricPart, dotProduct_single,
      ← Pi.single_neg] at hchange
    rw [hchange, Pi.sub_apply]
    ring

/-- Central differences of the value are the gradient with the symmetric part of the
matrix. -/
theorem differenceGradient_value (hstep : 0 < step) (x : Fin q.dimension → ℝ) :
    differenceGradient q.value (List.ofFn x) step =
      .ok (List.ofFn (formGradient (symmetricPart q.toMatrix) q.toLinear x)) := by
  have hdifference := (exceeds q step).differenceGradient_eq hstep x
  rw [add_sub_cancel] at hdifference
  exact hdifference

theorem differenceGradient_eq_gradient_iff (hstep : 0 < step) (x : Fin q.dimension → ℝ) :
    differenceGradient q.value (List.ofFn x) step = q.gradient (List.ofFn x) ↔
      q.toMatrix *ᵥ x = q.toMatrixᵀ *ᵥ x := by
  rw [differenceGradient_value q hstep, gradient_eq_form, Except.ok.injEq, List.ofFn_inj]
  exact formGradient_eq_symmetricPart_iff q.toMatrix q.toLinear x

/-- At a point of the right size, central differences of the value are the gradient of the
quadratic with the symmetric part of the matrix.  They are the gradient that the quadratic
reports exactly where the matrix and its transpose agree, and they are so at every point
exactly if the matrix is symmetric. -/
theorem differences_eq_gradient_iff (hstep : 0 < step) :
    (∀ x : Vec ℝ, x.length = q.dimension →
      differenceGradient q.value x step = .ok (List.ofFn
        (formGradient (symmetricPart q.toMatrix) q.toLinear (x.coordinates q.dimension))) ∧
      (differenceGradient q.value x step = q.gradient x ↔
        q.toMatrix *ᵥ x.coordinates q.dimension = q.toMatrixᵀ *ᵥ x.coordinates q.dimension)) ∧
    ((∀ x : Vec ℝ, x.length = q.dimension →
      differenceGradient q.value x step = q.gradient x) ↔ q.toMatrix.IsSymm) := by
  have hagree : ∀ x : Vec ℝ, x.length = q.dimension →
      (differenceGradient q.value x step = q.gradient x ↔
        q.toMatrix *ᵥ x.coordinates q.dimension = q.toMatrixᵀ *ᵥ x.coordinates q.dimension) := by
    intro x hx
    rw [← differenceGradient_eq_gradient_iff q hstep, Vec.ofFn_coordinates hx]
  refine ⟨fun x hx => ⟨?_, hagree x hx⟩, ?_⟩
  · rw [← differenceGradient_value q hstep, Vec.ofFn_coordinates hx]
  constructor
  · intro h
    show q.toMatrixᵀ = q.toMatrix
    apply Eq.symm
    apply ext_iff_mulVec.mpr
    intro v
    exact (differenceGradient_eq_gradient_iff q hstep v).mp (h _ List.length_ofFn)
  · intro hsymm x hx
    exact (hagree x hx).mpr (by rw [hsymm.eq])

/-- The product of two variables, as a quadratic with all of it above the diagonal. -/
noncomputable def product : Quadratic ℝ where
  matrix := [[0, 2], [0, 0]]
  linear := [0, 0]
  constant := 0
  rows_eq := rfl
  columns_eq := by simp

theorem differences_eq_gradient_iff_product :
    (0 : ℝ) < 1 / 2 ∧ ¬∀ x : Vec ℝ, x.length = product.dimension →
      differenceGradient product.value x (1 / 2) = product.gradient x := by
  refine ⟨by norm_num, fun hsame => ?_⟩
  have hsymm := (differences_eq_gradient_iff product (by norm_num)).2.mp hsame
  have hentry : (0 : ℝ) = 2 := hsymm.apply (0 : Fin 2) (1 : Fin 2)
  norm_num at hentry

theorem ofParts_product : Quadratic.ofParts
    (.row [.row [.entry 0, .entry 2], .row [.entry 0, .entry 0]])
    (.row [.entry 0, .entry 0]) 0 = .ok product := by
  simp [Quadratic.ofParts, Nested.shape, Nested.shape?, Nested.allShaped, Nested.toVec,
    Nested.flatten, Nested.flattenAll, Nested.toRows, Nested.axisLimit, Fault.orElse,
    Fault.refuse, product, bind, Except.bind, pure, Except.pure]

theorem product_toMatrix : product.toMatrix = (!![0, 2; 0, 0] : Matrix (Fin 2) (Fin 2) ℝ) := by
  funext i j
  fin_cases i <;> fin_cases j <;> rfl

/-- The constructor accepts the matrix, and at the point `(1, 1)` the reported gradient is
not the one of the values. -/
theorem gradient_differs_product :
    Quadratic.ofParts (.row [.row [.entry 0, .entry 2], .row [.entry 0, .entry 0]])
      (.row [.entry 0, .entry 0]) 0 = .ok product ∧
    differenceGradient product.value [1, 1] (1 / 2) = .ok [1, 1] ∧
    product.gradient [1, 1] = .ok [2, 0] := by
  have hlinear : product.toLinear = (![0, 0] : Fin 2 → ℝ) := by
    funext i
    fin_cases i <;> rfl
  have hpart : symmetricPart !![0, 2; 0, 0] = (!![0, 1; 1, 0] : Matrix (Fin 2) (Fin 2) ℝ) := by
    funext i j
    fin_cases i <;> fin_cases j <;> simp [symmetricPart]
  have hvalues : formGradient (symmetricPart !![0, 2; 0, 0]) ![0, 0] ![1, 1] =
      (![1, 1] : Fin 2 → ℝ) := by
    funext i
    unfold formGradient
    rw [hpart]
    fin_cases i <;> simp
  have hreported : formGradient !![0, 2; 0, 0] ![0, 0] ![1, 1] = (![2, 0] : Fin 2 → ℝ) := by
    funext i
    unfold formGradient
    fin_cases i <;> simp
  have hdifference := differenceGradient_value product (by norm_num : (0 : ℝ) < 1 / 2)
    (![1, 1] : Fin 2 → ℝ)
  have hgradient := gradient_eq_form product (![1, 1] : Fin 2 → ℝ)
  rw [product_toMatrix, hlinear] at hdifference hgradient
  exact ⟨ofParts_product, hdifference.trans (congrArg (Except.ok ∘ List.ofFn) hvalues),
    hgradient.trans (congrArg (Except.ok ∘ List.ofFn) hreported)⟩

end Quadratic

end Downhill
