import Downhill.LineSearch.Cubic
import Downhill.LineSearch.Outcome

/-!
# Strong Wolfe search

With `phi` the objective along a ray, a step `a` is acceptable when

  `phi a ≤ phi 0 + c1 a phi' 0`  and  `|phi' a| ≤ -c2 phi' 0`.

Trial steps are doubled until two of them bracket acceptable steps, and the
bracket is then cut at trial steps that interpolate between its ends.  The
bracket is kept as a pair of steps in either order: `low` is the better one.
-/

namespace Downhill

structure Wolfe (α : Type) where
  c1 : α
  c2 : α
  maxStep : α
  zoomLimit : Nat

/-- The state of a zoom: the bracket, the smallest trial value, and how many
trials in a row have not improved on it. -/
structure Zoom (α : Type) where
  low : α
  high : α
  best : Option α
  idle : Nat

/-- Where the doubling phase ends: with a step, or with a bracket to cut. -/
inductive Expansion (α : Type)
  | outcome (outcome : Outcome α)
  | bracket (low high : α)

structure Start (α : Type) where
  value : α
  slope : α

namespace Zoom

variable {α : Type} [Scalar α]

/-- More idle trials than this end a zoom. -/
def patience : Nat := 10

/-- A zoom starts as if one trial had already been idle. -/
def start (low high : α) : Zoom α := ⟨low, high, none, 1⟩

def improves (z : Zoom α) (value : α) : Prop :=
  match z.best with
  | none => Scalar.belowInfinity value
  | some best => value < best

instance (z : Zoom α) (value : α) : Decidable (z.improves value) := by
  unfold improves
  split <;> infer_instance

end Zoom

namespace Wolfe

variable {α : Type} [Scalar α]

def exceeds (w : Wolfe α) (start : Start α) (step value : α) : Prop :=
  Scalar.isFinite value = false ∨ start.value + w.c1 * step * start.slope < value

instance (w : Wolfe α) (start : Start α) (step value : α) :
    Decidable (w.exceeds start step value) :=
  inferInstanceAs (Decidable (_ ∨ _))

def flat (w : Wolfe α) (start : Start α) (slope : α) : Prop :=
  Scalar.abs slope ≤ -w.c2 * start.slope

instance (w : Wolfe α) (start : Start α) (slope : α) : Decidable (w.flat start slope) :=
  inferInstanceAs (Decidable (_ ≤ _))

variable {m : Type → Type} [Monad m]

/-- Whether a step cannot be the better end of a bracket: it does not decrease
enough, or not below the step it is compared with, if there is one. -/
def rejects (w : Wolfe α) (phi : α → m α) (start : Start α) (step value : α)
    (rival : Option α) : m Bool :=
  if w.exceeds start step value then return true
  else match rival with
    | none => return false
    | some other => do
      let otherValue ← phi other
      return decide (otherValue ≤ value)

/-- The bracket after a trial step, or nothing if the trial step is acceptable. -/
def narrow (w : Wolfe α) (phi slope : α → m α) (start : Start α) (low high step value : α) :
    m (Option (α × α)) := do
  if ← w.rejects phi start step value (some low) then
    return some (low, step)
  else
    let stepSlope ← slope step
    if w.flat start stepSlope then
      return none
    else if 0 ≤ stepSlope * (high - low) then
      return some (step, low)
    else
      return some (step, high)

def zoomStep (w : Wolfe α) (phi slope : α → m α) (start : Start α) (iteration : Nat)
    (z : Zoom α) : m (Zoom α ⊕ Outcome α) := do
  let step ← Cubic.trial phi slope Cubic.margin z.low z.high
  let value ← phi step
  match ← w.narrow phi slope start z.low z.high step value with
  | none => return .inr ⟨step, .accepted⟩
  | some (low, high) =>
    if z.improves value then
      return .inl ⟨low, high, some value, 0⟩
    else if Zoom.patience < z.idle + 1 then
      return .inr ⟨step, .stalled iteration⟩
    else
      return .inl ⟨low, high, z.best, z.idle + 1⟩

/-- Zoom for a number of iterations, of which `done` are over. -/
def zoomFrom (w : Wolfe α) (phi slope : α → m α) (start : Start α) :
    (left done : Nat) → Zoom α → m (Outcome α)
  | 0, done, z => return ⟨z.low, .exhausted done⟩
  | left + 1, done, z => do
    match ← w.zoomStep phi slope start (done + 1) z with
    | .inl z => w.zoomFrom phi slope start left (done + 1) z
    | .inr outcome => return outcome

def zoom (w : Wolfe α) (phi slope : α → m α) (start : Start α) (low high : α) : m (Outcome α) :=
  w.zoomFrom phi slope start w.zoomLimit 0 (Zoom.start low high)

/-- Try a step and double it until it is acceptable, brackets acceptable steps
with the one before it, or passes the largest step.  There is no step before the
first one, which is then compared with no other. -/
def expand (w : Wolfe α) (phi slope : α → m α) (start : Start α) :
    (left : Nat) → (previous : Option α) → (step : α) → m (Expansion α)
  | 0, _, _ => return .outcome ⟨w.maxStep, .capped⟩
  | left + 1, previous, step => do
    let value ← phi step
    let before := previous.getD 0
    if ← w.rejects phi start step value previous then
      return .bracket before step
    else
      let stepSlope ← slope step
      if w.flat start stepSlope then
        return .outcome ⟨step, .accepted⟩
      else if 0 ≤ stepSlope then
        return .bracket step before
      else if w.maxStep < 2.0 * step then
        return .outcome ⟨w.maxStep, .capped⟩
      else
        w.expand phi slope start left (some step) (2.0 * step)

/-- A bound on the number of trial steps of the doubling phase: a doubled step
lies one binade higher, and the largest step is passed at the latest one binade
above its own.  One more trial follows when the steps have become infinite.

An infinite largest step counts with the binade that the scalars give it.  Without
a binade of its own it counts like one.  No number of trials would be enough then,
and after three trial steps of one or more the phase ends as if it had passed the
largest step. -/
def trialBound (w : Wolfe α) (step : α) : Nat :=
  (Scalar.binade w.maxStep - Scalar.binade step).toNat + 3

/-- The first trial step.  A proposal outside the open interval from zero to the
largest step is replaced by half the largest step. -/
def firstStep (w : Wolfe α) (proposal : α) : α :=
  if 0 < proposal ∧ proposal < w.maxStep then proposal else w.maxStep / 2.0

def search (w : Wolfe α) (phi slope : α → m α) (proposal : α) : m (Outcome α) := do
  let value ← phi 0
  let startSlope ← slope 0
  if startSlope < 0 then
    let start : Start α := ⟨value, startSlope⟩
    let first := w.firstStep proposal
    match ← w.expand phi slope start (w.trialBound first) none first with
    | .outcome outcome => return outcome
    | .bracket low high => w.zoom phi slope start low high
  else
    return ⟨0, .uphill startSlope⟩

end Wolfe

end Downhill
