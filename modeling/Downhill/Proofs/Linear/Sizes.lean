import Downhill.Iteration.Settings
import Downhill.Objective

/-!
# Sizes

Arithmetic on vectors of one size succeeds and gives vectors of the size, and so does
bringing a point into a box whose bounds fit.
-/

namespace Downhill

variable {α : Type} {n : Nat}

namespace Vec

variable {f : α → α → α} {x y z : Vec α}

theorem combine_of_fits (f : α → α → α) (h : x.length = y.length ∨ y.length = 1) :
    ∃ z, combine f x y = .ok z := by
  rcases h with h | h
  · exact ⟨_, combine_of_length_eq f h⟩
  · obtain ⟨b, rfl⟩ := List.length_eq_one_iff.mp h
    unfold combine
    split
    · exact ⟨_, rfl⟩
    · match x with
      | [] | [a] | a :: a' :: x => exact ⟨_, rfl⟩

theorem fits_of_combine (h : combine f x y = .ok z) : z.length = x.length ∨ x.length = 1 := by
  unfold combine at h
  split at h
  case isTrue hlength =>
    cases h
    rw [List.length_zipWith, hlength, Nat.min_self]
    exact Or.inl rfl
  case isFalse =>
    split at h
    · exact Or.inr rfl
    · cases h
      exact Or.inl (List.length_map _)
    · cases h

theorem exists_combine (f : α → α → α) (hx : x.length = n) (hy : y.length = n) :
    ∃ z, combine f x y = .ok z ∧ z.length = n := by
  have hlength := hx.trans hy.symm
  have h := combine_of_length_eq f hlength
  exact ⟨_, h, (length_of_combine hlength h).trans hx⟩

theorem exists_combine_of_fits (f : α → α → α) (hx : x.length = n)
    (hy : y.length = 1 ∨ y.length = n) : ∃ z, combine f x y = .ok z ∧ z.length = n := by
  by_cases hsame : y.length = n
  · exact exists_combine f hx hsame
  · have hone := hy.resolve_right hsame
    obtain ⟨z, hz⟩ := combine_of_fits f (x := x) (Or.inr hone)
    have hlength := fits_of_combine hz
    exact ⟨z, hz, by omega⟩

variable [Scalar α]

theorem exists_along (hx : x.length = n) (step : α) (hy : y.length = n) :
    ∃ z, x.along step y = .ok z ∧ z.length = n :=
  exists_combine _ hx ((length_scale step y).trans hy)

theorem exists_dot (hx : x.length = n) (hy : y.length = n) : ∃ product, dot x y = .ok product :=
  ⟨_, dot_of_length_eq (hx.trans hy.symm)⟩

theorem exists_unit {i : Nat} (hi : i < n) : ∃ e : Vec α, unit n i = .ok e ∧ e.length = n := by
  refine ⟨_, if_pos hi, ?_⟩
  rw [List.length_set, length_zeros]

end Vec

namespace Box

variable {box : Box α} {x y : Vec α}

/-- Each bound has a single entry or one per coordinate. -/
structure Fits (box : Box α) (n : Nat) : Prop where
  lower : ∀ bound, box.lower = some bound → bound.length = 1 ∨ bound.length = n
  upper : ∀ bound, box.upper = some bound → bound.length = 1 ∨ bound.length = n

theorem Fits.checkDimension (h : box.Fits n) : box.checkDimension n = .ok () := by
  have hsize : ∀ (name : String) (bound : Option (Vec α)),
      (∀ entries, bound = some entries → entries.length = 1 ∨ entries.length = n) →
      checkSize n name bound = .ok () := by
    intro name bound hbound
    cases bound with
    | none => rfl
    | some entries =>
      have hlength := hbound entries rfl
      exact Fault.refuse_eq_ok_iff.mpr (by omega)
  exact Fault.bind_eq_ok_iff.mpr ⟨(), hsize _ _ h.lower, hsize _ _ h.upper⟩

variable [Scalar α]

/-- Bringing a point into a box keeps its size, if that is not one. -/
theorem fits_of_clamp (h : box.clamp x = .ok y) : y.length = x.length ∨ x.length = 1 := by
  unfold Box.clamp at h
  obtain ⟨raised, hraised, hcapped⟩ := Fault.bind_eq_ok_iff.mp h
  have hfirst : raised.length = x.length ∨ x.length = 1 := by
    unfold Box.raise at hraised
    split at hraised
    · cases hraised
      exact Or.inl rfl
    · exact Vec.fits_of_combine hraised
  have hsecond : y.length = raised.length ∨ raised.length = 1 := by
    unfold Box.cap at hcapped
    split at hcapped
    · cases hcapped
      exact Or.inl rfl
    · exact Vec.fits_of_combine hcapped
  omega

theorem Fits.exists_clamp (h : box.Fits n) (hx : x.length = n) :
    ∃ y, box.clamp x = .ok y ∧ y.length = n := by
  have hraise : ∃ raised, box.raise x = .ok raised ∧ raised.length = n := by
    unfold Box.raise
    split
    · exact ⟨x, rfl, hx⟩
    · rename_i bound hbound
      exact Vec.exists_combine_of_fits _ hx (h.lower bound hbound)
  obtain ⟨raised, hraised, hlength⟩ := hraise
  have hcap : ∃ y, box.cap raised = .ok y ∧ y.length = n := by
    unfold Box.cap
    split
    · exact ⟨raised, rfl, hlength⟩
    · rename_i bound hbound
      exact Vec.exists_combine_of_fits _ hlength (h.upper bound hbound)
  obtain ⟨y, hcapped, hy⟩ := hcap
  exact ⟨y, Fault.bind_eq_ok_iff.mpr ⟨raised, hraised, hcapped⟩, hy⟩

end Box

/-- Bounds of the right sizes, and a rule of the caller's own that always answers. -/
structure LoopSettings.Fits (s : LoopSettings α) (n : Nat) : Prop where
  box : s.box.Fits n
  predicate : ∀ p, s.predicate = some p → ∀ x, ∃ holds, p x = .ok holds

/-- The rule of the caller's own, if there is one, tells whether to stop. -/
theorem LoopSettings.Fits.exists_holds {s : LoopSettings α} (h : s.Fits n) (x : Vec α) :
    ∃ holds, (∀ p, s.predicate = some p → p x = .ok holds) ∧
      (s.predicate = none → holds = false) := by
  cases hrule : s.predicate with
  | none => exact ⟨false, fun p hp => (nomatch hp), fun _ => rfl⟩
  | some p =>
    obtain ⟨holds, hholds⟩ := h.predicate p hrule x
    refine ⟨holds, fun p' hp' => ?_, fun hnone => nomatch hnone⟩
    obtain rfl := Option.some.inj hp'
    exact hholds

/-- An objective has a value and a gradient of the same size at every point of the size. -/
structure Objective.Answers (f : Objective α) (n : Nat) : Prop where
  value {x : Vec α} (h : x.length = n) : ∃ v, f.value x = .ok v
  gradient {x : Vec α} (h : x.length = n) : ∃ g, f.gradient x = .ok g ∧ g.length = n

end Downhill
