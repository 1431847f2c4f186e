import Downhill.Proofs.Number.Real
import Downhill.Vec
import Mathlib.Algebra.BigOperators.Fin
import Mathlib.Data.List.GetD
import Mathlib.Data.Matrix.Mul

/-!
# Vectors of coordinates

A vector of real numbers is the list of the values of a function on its
coordinates.  On such lists every operation succeeds, and it does what its name
says with the functions.
-/

namespace Downhill

namespace Vec

open Matrix

variable {n : Nat}

/-- The coordinates of a vector, as a function. -/
def coordinates (n : Nat) (x : Vec ℝ) : Fin n → ℝ := fun i => x.getD i 0

theorem ofFn_coordinates {x : Vec ℝ} (h : x.length = n) : List.ofFn (x.coordinates n) = x := by
  refine List.ext_getElem (by rw [List.length_ofFn, h]) fun i _ hi => ?_
  rw [List.getElem_ofFn]
  exact List.getD_eq_getElem x 0 hi

theorem total_eq_sum (x : Vec ℝ) : total x = x.sum := List.sum_eq_foldl.symm

section Entries

variable {α : Type} (u v : Fin n → α) (f : α → α → α)

theorem zipWith_ofFn :
    List.zipWith f (List.ofFn u) (List.ofFn v) = List.ofFn fun i => f (u i) (v i) := by
  refine List.ext_getElem (by simp) fun i _ _ => ?_
  rw [List.getElem_zipWith, List.getElem_ofFn, List.getElem_ofFn, List.getElem_ofFn]

@[simp] theorem combine_ofFn :
    combine f (List.ofFn u) (List.ofFn v) = .ok (List.ofFn fun i => f (u i) (v i)) := by
  rw [combine_of_length_eq f (by rw [List.length_ofFn, List.length_ofFn]), zipWith_ofFn]

end Entries

variable (u v : Fin n → ℝ)

@[simp] theorem add_ofFn : add (List.ofFn u) (List.ofFn v) = .ok (List.ofFn (u + v)) :=
  combine_ofFn u v _

@[simp] theorem sub_ofFn : sub (List.ofFn u) (List.ofFn v) = .ok (List.ofFn (u - v)) :=
  combine_ofFn u v _

@[simp] theorem neg_ofFn : neg (List.ofFn u) = List.ofFn (-u) := List.map_ofFn

@[simp] theorem scale_ofFn (c : ℝ) : scale c (List.ofFn u) = List.ofFn (c • u) := List.map_ofFn

@[simp] theorem along_ofFn (step : ℝ) :
    along (List.ofFn u) step (List.ofFn v) = .ok (List.ofFn (u + step • v)) := by
  unfold along
  rw [scale_ofFn, add_ofFn]

@[simp] theorem dot_ofFn : dot (List.ofFn u) (List.ofFn v) = .ok (u ⬝ᵥ v) := by
  rw [dot_of_length_eq (by rw [List.length_ofFn, List.length_ofFn]), zipWith_ofFn, total_eq_sum,
    List.sum_ofFn]
  rfl

@[simp] theorem norm_ofFn : norm (List.ofFn u) = √(u ⬝ᵥ u) := by
  unfold norm normSq
  rw [List.map_ofFn, total_eq_sum, List.sum_ofFn]
  rfl

theorem zeros_eq_ofFn : (zeros n : Vec ℝ) = List.ofFn (0 : Fin n → ℝ) := by
  unfold zeros
  exact (List.ofFn_const n 0).symm

end Vec

end Downhill
