import Downhill.Proofs.LineSearch.Memory

/-!
# Backtracking

Along a ray the backtracking search returns what it returns over the plain functions of
values and slopes, and there it is one recursion: the trial step is tested, and shrunk
if it fails.
-/

namespace Downhill

namespace Backtracking

variable {α : Type} [Scalar α] (b : Backtracking α) (phi slope : α → α)

/-- The shrinking of a trial step for at most the given number of trials. -/
def plainShrink (value startSlope : α) (left : Nat) (step : α) : Outcome α :=
  Id.run (b.shrink phi value startSlope left step)

theorem plainShrink_succ (value startSlope : α) (left : Nat) (step : α) :
    b.plainShrink phi value startSlope (left + 1) step =
      if phi step ≤ value + b.c * step * startSlope then ⟨step, .accepted⟩
      else b.plainShrink phi value startSlope left (step * b.rho) := rfl

/-- The search from a proposed first step. -/
def plainSearch (proposal : α) : Outcome α := Id.run (b.search phi slope proposal)

theorem plainSearch_eq (proposal : α) :
    b.plainSearch phi slope proposal =
      b.plainShrink phi (phi 0) (slope 0) b.limit (firstStep proposal) := rfl

variable {phi slope} [SoundEquality α] {ray : Ray α}

theorem follows_shrink (hray : ray.Answers phi slope) (value startSlope : α) (left : Nat)
    (step : α) :
    Follows phi slope (b.shrink ray.value value startSlope left step)
      (b.plainShrink phi value startSlope left step) := by
  induction left generalizing step with
  | zero => exact follows_pure _
  | succ left ih =>
    rw [plainShrink_succ, shrink]
    refine (follows_value hray step).bind ?_
    split
    · exact follows_pure _
    · exact ih (step * b.rho)

theorem follows_search (hray : ray.Answers phi slope) (proposal : α) :
    Follows phi slope (b.search ray.value ray.slope proposal)
      (b.plainSearch phi slope proposal) := by
  rw [plainSearch_eq]
  unfold search
  refine (follows_value hray 0).bind ((follows_slope hray 0).bind ?_)
  exact b.follows_shrink hray _ _ b.limit _

/-- Along a ray the search returns what it returns over the values and slopes. -/
theorem explore_search (hray : ray.Answers phi slope) (proposal : α) :
    (Ray.explore (b.search ray.value ray.slope proposal)).journaled.1 =
      .ok (b.plainSearch phi slope proposal) :=
  Ray.explore_eq (b.follows_search hray proposal)

end Backtracking

end Downhill
