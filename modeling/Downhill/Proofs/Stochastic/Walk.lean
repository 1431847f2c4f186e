import Downhill.Proofs.Descent.Course
import Downhill.Proofs.Stochastic.Loop

/-!
# Walks

The walk of a stochastic solver is the sequence of its points and of the estimates there,
with its directions and steps, the states of its rule and those of its sampler.  It follows
the settings when each entry is what the rule, the schedule, the box and the sampler answer
to the entries before.  Nothing is said here about where a walk ends.
-/

namespace Downhill

variable {R G α : Type}

/-- Points with estimates of the gradient, the directions and steps between them, and the
states of a rule and of a problem, by iteration. -/
structure Walk (R G α : Type) where
  rule : Nat → R
  problem : Nat → Problem α G
  point : Nat → Vec α
  gradient : Nat → Vec α
  direction : Nat → Vec α
  step : Nat → α

namespace Walk

open Stochastic StochasticM

variable (w : Walk R G α)

/-- The points of the first entries. -/
def visited (count : Nat) : List (Vec α) := (List.range count).map w.point

/-- A solver that has completed so many iterations of a walk. -/
structure Describes (keeps : Bool) (k : Nat) (s : Stochastic R G α) : Prop where
  rule : s.rule = w.rule k
  problem : s.problem = w.problem k
  point : s.point = w.point k
  previousPoint : s.previousPoint = before w.point k
  gradient : s.gradient = w.gradient k
  iteration : s.iteration = k
  keepsHistory : s.keepsHistory = keeps
  history : s.history = if keeps then (w.visited (k + 1)).reverse else []
  values : s.values = 0
  estimates : s.estimates = k + 1

variable [Elementary α]

/-- The first entry is what a solver starts with. -/
structure Begins [SeededSource G] (settings : StochasticSettings α) (problem : Problem α G) :
    Prop where
  gradient : ∃ prepared raw, prepare settings problem = .ok prepared ∧
    rawEstimate prepared settings.batchSize (w.point 0) = (.ok raw, w.problem 0) ∧
    penalised settings (w.point 0) raw = .ok (w.gradient 0)

/-- An iteration that follows the settings. -/
structure Follows [IndexSource G] [StochasticRule R α] (settings : StochasticSettings α)
    (k : Nat) : Prop where
  direction : StochasticRule.direction settings (w.rule k) (w.gradient k) =
    (.ok (w.direction k), w.rule (k + 1))
  step : settings.schedule.compute (k : α) settings.parameters = .ok (w.step k)
  point : ∃ reached, StochasticRule.reach settings (w.rule (k + 1)) (w.point k) (w.step k)
      (w.direction k) = .ok reached ∧ settings.box.clamp reached = .ok (w.point (k + 1))
  gradient : ∃ raw, rawEstimate (w.problem k) settings.batchSize (w.point (k + 1)) =
      (.ok raw, w.problem (k + 1)) ∧
    penalised settings (w.point (k + 1)) raw = .ok (w.gradient (k + 1))

variable {w} {settings : StochasticSettings α} {keeps : Bool} {k : Nat} {s : Stochastic R G α}

omit [Elementary α] in
theorem visited_succ (count : Nat) :
    w.visited (count + 1) = w.visited count ++ [w.point count] := by
  unfold visited
  rw [List.range_succ, List.map_append]
  rfl

omit [Elementary α] in
/-- What is measured, decided and announced does not count as progress. -/
theorem Describes.noting (h : w.Describes keeps k s) (pointChange : Option α) (idlePoint : Nat)
    (pointConverged customConverged : Bool) (events : List (Event α)) :
    w.Describes keeps k
      { s with pointChange, idlePoint, pointConverged, customConverged, events } :=
  ⟨h.rule, h.problem, h.point, h.previousPoint, h.gradient, h.iteration, h.keepsHistory,
    h.history, h.values, h.estimates⟩

theorem Begins.start_eq [SeededSource G] {problem : Problem α G} (h : w.Begins settings problem)
    (kind : SolverKind) (keeps : Bool) :
    ∃ solver, start kind settings problem (w.rule 0) keeps (w.point 0) = .ok solver ∧
      w.Describes keeps 0 solver ∧ solver.settings = settings ∧ solver.idlePoint = 0 ∧
      solver.pointConverged = false ∧ solver.customConverged = false := by
  obtain ⟨prepared, raw, hprepared, hraw, hpenalised⟩ := h.gradient
  unfold start
  rw [hprepared]
  dsimp only [bind, Except.bind]
  rw [estimate_on, hraw]
  dsimp only [bind, Except.bind]
  rw [hpenalised]
  exact ⟨_, rfl, ⟨rfl, rfl, rfl, rfl, rfl, rfl, rfl, rfl, rfl, rfl⟩, rfl, rfl, rfl, rfl⟩

/-- The iteration of a solver moves on along its walk, and leaves the flags and the counts of
the last check as they are. -/
theorem Follows.advance_on [IndexSource G] [StochasticRule R α] (h : w.Follows s.settings k)
    (hs : w.Describes keeps k s) :
    ∃ advanced t, advance.on s = (.ok (), advanced) ∧ record.on advanced = (.ok (), t) ∧
      w.Describes keeps (k + 1) t ∧ t.step = w.step k ∧ t.settings = s.settings ∧
      t.idlePoint = s.idlePoint ∧ t.pointConverged = s.pointConverged ∧
      t.customConverged = s.customConverged := by
  obtain ⟨raw, hraw, hpenalised⟩ := h.gradient
  have hmoves : s.Moves (w.rule (k + 1)) (w.direction k) (w.step k) (w.point (k + 1)) := by
    constructor
    · rw [hs.rule, hs.gradient]
      exact h.direction
    · rw [hs.iteration]
      exact h.step
    · rw [hs.point]
      exact h.point
  rw [← hs.problem] at hraw
  have hadvance := (hmoves.advance_on.2 _).mpr ⟨_, _, _, hraw, hpenalised, rfl⟩
  obtain ⟨events, hrecord⟩ := record_on { s.moved (w.rule (k + 1)) (w.direction k) (w.step k)
    (w.point (k + 1)) with
      problem := w.problem (k + 1), gradient := w.gradient (k + 1)
      estimates := s.estimates + 1, iteration := s.iteration + 1 }
  refine ⟨_, _, hadvance, hrecord, ⟨rfl, rfl, rfl, ?_, rfl, congrArg (· + 1) hs.iteration,
    hs.keepsHistory, ?_, hs.values, congrArg (· + 1) hs.estimates⟩, rfl, rfl, rfl, rfl, rfl⟩
  · exact congrArg some hs.point
  · show (if s.keepsHistory then w.point (k + 1) :: s.history else s.history) = _
    rw [hs.keepsHistory, hs.history, visited_succ (k + 1), List.reverse_append]
    cases keeps with
    | false => rfl
    | true => rfl

end Walk

end Downhill
