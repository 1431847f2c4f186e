import Downhill.Proofs.Linear.Coordinates
import Downhill.Proofs.Number.Extended

/-!
# Vectors of real numbers among those that need not be finite

Every operation on vectors of real numbers succeeds and gives a vector of real numbers,
and does to the numbers what its name says.
-/

namespace Downhill

namespace Extended

/-- The number, if it is a real one, and zero otherwise. -/
noncomputable def toReal : Extended → ℝ
  | real x => x
  | _ => 0

end Extended

namespace Vec

open Extended Matrix

variable {n : Nat}

/-- A vector of real numbers. -/
def reals (u : Fin n → ℝ) : Vec Extended := List.ofFn fun i => real (u i)

/-- The numbers of a vector, as a function. -/
noncomputable def reading (n : Nat) (x : Vec Extended) : Fin n → ℝ := fun i => (x.getD i 0).toReal

variable (u v : Fin n → ℝ)

@[simp] theorem length_reals : (reals u).length = n := List.length_ofFn

@[simp] theorem reading_reals : reading n (reals u) = u := by
  funext i
  unfold reading reals
  rw [List.getD_eq_getElem _ _ (by rw [List.length_ofFn]; exact i.isLt), List.getElem_ofFn]
  rfl

theorem reals_injective : Function.Injective (reals : (Fin n → ℝ) → Vec Extended) :=
  Function.LeftInverse.injective reading_reals

@[simp] theorem add_reals : add (reals u) (reals v) = .ok (reals (u + v)) := combine_ofFn ..

@[simp] theorem sub_reals : sub (reals u) (reals v) = .ok (reals (u - v)) := by
  unfold sub reals
  simp only [combine_ofFn, real_sub]
  rfl

@[simp] theorem mul_reals : mul (reals u) (reals v) = .ok (reals (u * v)) := combine_ofFn ..

@[simp] theorem neg_reals : neg (reals u) = reals (-u) := List.map_ofFn

@[simp] theorem scale_reals (c : ℝ) : scale (real c) (reals u) = reals (c • u) := List.map_ofFn

@[simp] theorem along_reals (step : ℝ) :
    along (reals u) (real step) (reals v) = .ok (reals (u + step • v)) := by
  unfold along
  rw [scale_reals, add_reals]

theorem total_reals : total (reals u) = real (∑ i, u i) := by
  have hsum : ∀ (x : List ℝ) (start : ℝ),
      (x.map real).foldl (· + ·) (real start) = real (start + x.sum) := by
    intro x
    induction x with
    | nil => intro start; simp
    | cons a x ih =>
      intro start
      rw [List.map_cons, List.foldl_cons, real_add, ih, List.sum_cons, add_assoc]
  have hlist : reals u = (List.ofFn u).map real := (List.map_ofFn).symm
  unfold total
  rw [hlist, zero_eq, hsum, List.sum_ofFn, zero_add]

@[simp] theorem dot_reals : dot (reals u) (reals v) = .ok (real (u ⬝ᵥ v)) := by
  have hproducts : List.zipWith (· * ·) (reals u) (reals v) = reals (u * v) := zipWith_ofFn ..
  rw [dot_of_length_eq (by simp), hproducts, total_reals]
  rfl

@[simp] theorem norm_reals : norm (reals u) = real √(u ⬝ᵥ u) := by
  have hsquares : (reals u).map (fun a => a * a) = reals (u * u) := List.map_ofFn
  have hnonneg : 0 ≤ u ⬝ᵥ u := Finset.sum_nonneg fun i _ => mul_self_nonneg (u i)
  unfold norm normSq
  rw [hsquares, total_reals]
  exact sqrt_real hnonneg

theorem map_reals {f : Extended → Extended} {g : ℝ → ℝ} (h : ∀ i, f (real (u i)) = real (g (u i))) :
    (reals u).map f = reals fun i => g (u i) := by
  unfold reals
  rw [List.map_ofFn]
  exact congrArg List.ofFn (funext h)

theorem zeros_eq_reals : (zeros n : Vec Extended) = reals (0 : Fin n → ℝ) :=
  (List.ofFn_const n (real 0)).symm

end Vec

end Downhill
