import Downhill.LineSearch.Backtracking
import Downhill.LineSearch.Wolfe

/-!
# Searches over plain functions

A line search asks for values and slopes through a monad.  Read in the identity
monad it is a function of two plain functions, and the equations of this file
say what that function does at each part of the search.
-/

namespace Downhill

variable {α : Type} [Scalar α] (phi slope : α → α)

namespace Cubic

/-- The trial step between two known steps, at a distance from both. -/
def plainInterpolate (distance low high : α) : α := Id.run (trial phi slope distance low high)

theorem plainInterpolate_eq (distance low high : α) :
    plainInterpolate phi slope distance low high =
      if low == high then low
      else match minimizer? ⟨low, phi low, slope low⟩ ⟨high, phi high, slope high⟩ with
        | none => keepAway distance low high (if phi high < phi low then high else low)
        | some c => keepAway distance low high
            (if phi c < phi low ∧ phi c < phi high then c
              else if phi high < phi low then high else low) := by
  unfold plainInterpolate trial
  split
  · rfl
  · dsimp only [bind, pure, Id.run]
    rfl

/-- The trial step between two known steps. -/
def plainTrial (low high : α) : α := Id.run (trial phi slope margin low high)

theorem plainTrial_eq (low high : α) :
    plainTrial phi slope low high =
      if low == high then low
      else match minimizer? ⟨low, phi low, slope low⟩ ⟨high, phi high, slope high⟩ with
        | none => keepAway margin low high (if phi high < phi low then high else low)
        | some c => keepAway margin low high
            (if phi c < phi low ∧ phi c < phi high then c
              else if phi high < phi low then high else low) :=
  plainInterpolate_eq phi slope margin low high

end Cubic

namespace Wolfe

variable (w : Wolfe α) (start : Start α)

/-- Whether a step cannot be the better end of a bracket. -/
def Refuses (step : α) (rival : Option α) : Prop :=
  w.exceeds start step (phi step) ∨ ∃ other, rival = some other ∧ phi other ≤ phi step

theorem rejects_eq_true_iff (step : α) (rival : Option α) :
    Id.run (w.rejects phi start step (phi step) rival) = true ↔
      w.Refuses phi start step rival := by
  unfold rejects Refuses
  by_cases h : w.exceeds start step (phi step)
  · rw [if_pos h]
    exact iff_of_true rfl (Or.inl h)
  · rw [if_neg h]
    cases rival with
    | none => simp [h]
    | some other =>
      show decide (phi other ≤ phi step) = true ↔ _
      simp [h]

/-- The bracket after a trial step, or nothing if the trial step is acceptable. -/
def plainNarrow (low high step : α) : Option (α × α) :=
  Id.run (w.narrow phi slope start low high step (phi step))

open Classical in
theorem plainNarrow_eq (low high step : α) :
    w.plainNarrow phi slope start low high step =
      if w.Refuses phi start step (some low) then some (low, step)
      else if w.flat start (slope step) then none
      else if 0 ≤ slope step * (high - low) then some (step, low)
      else some (step, high) := by
  have hrejects := w.rejects_eq_true_iff phi start step (some low)
  unfold plainNarrow narrow
  by_cases h : w.Refuses phi start step (some low)
  · rw [if_pos h]
    have hr := hrejects.mpr h
    show (if Id.run (w.rejects phi start step (phi step) (some low)) = true then _ else _) = _
    rw [if_pos hr]
    rfl
  · rw [if_neg h]
    have hr := mt hrejects.mp h
    show (if Id.run (w.rejects phi start step (phi step) (some low)) = true then _ else _) = _
    rw [if_neg hr]
    show (if w.flat start (slope step) then _ else if 0 ≤ slope step * (high - low) then _ else _)
      = _
    rfl

/-- One iteration of the zoom. -/
def plainZoomStep (iteration : Nat) (z : Zoom α) : Zoom α ⊕ Outcome α :=
  Id.run (w.zoomStep phi slope start iteration z)

theorem plainZoomStep_eq (iteration : Nat) (z : Zoom α) :
    w.plainZoomStep phi slope start iteration z =
      let step := Cubic.plainTrial phi slope z.low z.high
      match w.plainNarrow phi slope start z.low z.high step with
      | none => .inr ⟨step, .accepted⟩
      | some (low, high) =>
        if z.improves (phi step) then .inl ⟨low, high, some (phi step), 0⟩
        else if Zoom.patience < z.idle + 1 then .inr ⟨step, .stalled iteration⟩
        else .inl ⟨low, high, z.best, z.idle + 1⟩ := rfl

/-- The zoom for a number of iterations, of which `done` are over. -/
def plainZoomFrom (left done : Nat) (z : Zoom α) : Outcome α :=
  Id.run (w.zoomFrom phi slope start left done z)

theorem plainZoomFrom_zero (done : Nat) (z : Zoom α) :
    w.plainZoomFrom phi slope start 0 done z = ⟨z.low, .exhausted done⟩ := rfl

theorem plainZoomFrom_succ (left done : Nat) (z : Zoom α) :
    w.plainZoomFrom phi slope start (left + 1) done z =
      match w.plainZoomStep phi slope start (done + 1) z with
      | .inl z => w.plainZoomFrom phi slope start left (done + 1) z
      | .inr outcome => outcome := rfl

/-- The doubling phase. -/
def plainExpand (left : Nat) (previous : Option α) (step : α) : Expansion α :=
  Id.run (w.expand phi slope start left previous step)

theorem plainExpand_zero (previous : Option α) (step : α) :
    w.plainExpand phi slope start 0 previous step = .outcome ⟨w.maxStep, .capped⟩ := rfl

open Classical in
theorem plainExpand_succ (left : Nat) (previous : Option α) (step : α) :
    w.plainExpand phi slope start (left + 1) previous step =
      if w.Refuses phi start step previous then .bracket (previous.getD 0) step
      else if w.flat start (slope step) then .outcome ⟨step, .accepted⟩
      else if 0 ≤ slope step then .bracket step (previous.getD 0)
      else if w.maxStep < 2.0 * step then .outcome ⟨w.maxStep, .capped⟩
      else w.plainExpand phi slope start left (some step) (2.0 * step) := by
  have hrejects := w.rejects_eq_true_iff phi start step previous
  unfold plainExpand
  rw [expand]
  by_cases h : w.Refuses phi start step previous
  · rw [if_pos h]
    show (if Id.run (w.rejects phi start step (phi step) previous) = true then _ else _) = _
    rw [if_pos (hrejects.mpr h)]
    rfl
  · rw [if_neg h]
    show (if Id.run (w.rejects phi start step (phi step) previous) = true then _ else _) = _
    rw [if_neg (mt hrejects.mp h)]
    rfl

/-- The search from a proposed first step. -/
def plainSearch (proposal : α) : Outcome α := Id.run (w.search phi slope proposal)

/-- The bracket or the outcome that the doubling phase of a search ends with. -/
def plainBracketing (proposal : α) : Expansion α :=
  w.plainExpand phi slope ⟨phi 0, slope 0⟩ (w.trialBound (w.firstStep proposal)) none
    (w.firstStep proposal)

theorem plainSearch_eq (proposal : α) :
    w.plainSearch phi slope proposal =
      if slope 0 < 0 then
        match w.plainBracketing phi slope proposal with
        | .outcome outcome => outcome
        | .bracket low high =>
          w.plainZoomFrom phi slope ⟨phi 0, slope 0⟩ w.zoomLimit 0 (Zoom.start low high)
      else ⟨0, .uphill (slope 0)⟩ := rfl

end Wolfe

end Downhill
