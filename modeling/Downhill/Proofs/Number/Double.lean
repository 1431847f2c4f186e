import Downhill.Scalar

/-!
# Doubles beside zero

A double is unpacked to its sign and its size, to an infinity, or to what is not a number.
What is not a number is the only double that does not compare with zero, so a test that
refuses one side of zero lets the other side pass and what is not a number.
-/

namespace Downhill
namespace Double

open Float.Model

theorem compare_zero_swap (a : UnpackedFloat) :
    UnpackedFloat.compare (.zero .positive) a =
      (a.compare (.zero .positive)).map Ordering.swap := by
  cases a with
  | infinity sign => cases sign <;> rfl
  | finite sign m e hm => cases sign <;> rfl
  | zero sign => rfl
  | notANumber => rfl

theorem compare_zero_eq_none_iff {a : UnpackedFloat} :
    a.compare (.zero .positive) = none ↔ a.isNaN = true := by
  cases a with
  | infinity sign => cases sign <;> decide
  | finite sign m e hm => cases sign <;> exact iff_of_false (fun h => nomatch h) (fun h => nomatch h)
  | zero sign => exact iff_of_false (fun h => nomatch h) (fun h => nomatch h)
  | notANumber => exact iff_of_true rfl rfl

theorem unpacked_beside_zero (a : UnpackedFloat) :
    (¬a.lt (.zero .positive) = true ↔
      UnpackedFloat.le (.zero .positive) a = true ∨ a.isNaN = true) ∧
    (¬a.le (.zero .positive) = true ↔
      UnpackedFloat.lt (.zero .positive) a = true ∨ a.isNaN = true) := by
  unfold UnpackedFloat.lt UnpackedFloat.le
  rw [compare_zero_swap, ← compare_zero_eq_none_iff]
  cases a.compare (.zero .positive) with
  | none => decide
  | some order => cases order <;> decide

theorem lt_iff {x y : Float} : x < y ↔ x.toModel.unpack.lt y.toModel.unpack = true :=
  decide_eq_true_iff

theorem le_iff {x y : Float} : x ≤ y ↔ x.toModel.unpack.le y.toModel.unpack = true :=
  decide_eq_true_iff

theorem unpack_zero : (0 : Float).toModel.unpack = .zero .positive := rfl

/-- What is not below zero: the doubles from zero on, and what is not a number. -/
theorem not_lt_zero_iff {x : Float} : ¬x < 0 ↔ 0 ≤ x ∨ x.isNaN = true := by
  rw [lt_iff, le_iff, unpack_zero]
  exact (unpacked_beside_zero _).1

/-- What is neither below zero nor zero: the doubles above it, and what is not a number. -/
theorem not_le_zero_iff {x : Float} : ¬x ≤ 0 ↔ 0 < x ∨ x.isNaN = true := by
  rw [lt_iff, le_iff, unpack_zero]
  exact (unpacked_beside_zero _).2

theorem isNaN_of_compare {a b : UnpackedFloat} {order : Ordering}
    (h : a.compare b = some order) : a.isNaN = false ∧ b.isNaN = false := by
  constructor
  · cases a with
    | infinity sign => rfl
    | finite sign m e hm => rfl
    | zero sign => rfl
    | notANumber => cases h
  · cases b with
    | infinity sign => rfl
    | finite sign m e hm => rfl
    | zero sign => rfl
    | notANumber => cases a <;> cases h

/-- What compares is a number. -/
theorem isNaN_of_lt {x y : Float} (h : x < y) : x.isNaN = false ∧ y.isNaN = false :=
  isNaN_of_compare (eq_of_beq (lt_iff.mp h))

theorem isNaN_of_le {x y : Float} (h : x ≤ y) : x.isNaN = false ∧ y.isNaN = false := by
  obtain ⟨order, horder, -⟩ := (Option.any_eq_true _ _).mp (le_iff.mp h)
  exact isNaN_of_compare horder

end Double
end Downhill
