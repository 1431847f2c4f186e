import Downhill.Minimize
import Downhill.Proofs.Conjugate.Formula
import Downhill.Proofs.Descent.Course
import Downhill.Proofs.LineSearch.Exact

/-!
# Iterations of the conjugate gradient solver

A solver with the exact search on a positive definite quadratic follows the
recurrence, whatever its formula and its policy: its iterations visit the points of
the recurrence as long as the gradient has not vanished.
-/

namespace Downhill

open Matrix

namespace ConjugateLine

variable {n : Nat} (l : ConjugateLine n)

/-- The first points of the recurrence, as many as given. -/
noncomputable def visited (count : Nat) : List (Vec ℝ) :=
  (List.range count).map fun k => List.ofFn (l.point k)

theorem visited_succ (count : Nat) :
    l.visited (count + 1) = l.visited count ++ [List.ofFn (l.point count)] := by
  unfold visited
  rw [List.range_succ, List.map_append]
  rfl

theorem length_visited (count : Nat) : (l.visited count).length = count := by
  unfold visited
  rw [List.length_map, List.length_range]

variable {l}

theorem of_visited {count k : Nat} {x : Vec ℝ} (h : (l.visited count)[k]? = some x) :
    k < count ∧ x = List.ofFn (l.point k) := by
  unfold visited at h
  rw [List.getElem?_map, Option.map_eq_some_iff] at h
  obtain ⟨j, hj, hx⟩ := h
  obtain ⟨hk, hkj⟩ := List.getElem?_eq_some_iff.mp hj
  rw [List.getElem_range] at hkj
  rw [List.length_range] at hk
  rw [hkj]
  exact ⟨hkj ▸ hk, hx.symm⟩

theorem quadratic_gradient {q : Quadratic ℝ} {l : ConjugateLine q.dimension}
    (hmatrix : l.matrix = q.toMatrix) (hlinear : l.linear = q.toLinear) (k : Nat) :
    q.gradient (List.ofFn (l.point k)) = .ok (List.ofFn (l.gradient k)) := by
  have h := q.gradient_ofFn (l.point k)
  rw [← hmatrix, ← hlinear] at h
  exact h

/-- Consecutive gradients and the direction between them, as the formulas see them. -/
theorem regular {k : Nat} (hne : ∀ j ≤ k, l.gradient j ≠ 0) :
    BetaFormula.Regular (l.gradient (k + 1)) (l.gradient k) (l.direction k) where
  gradients := gradient_dot_gradient (fun j hj => hne j (Nat.le_of_lt_succ hj)) k.lt_succ_self
  direction :=
    (l.conjugated (k + 1) fun j hj => hne j (Nat.le_of_lt_succ hj)).orthogonal k k.lt_succ_self
  heading := (l.conjugated k fun j hj => hne j hj.le).heading
  ne_zero := hne k le_rfl

/-- A rule that has restarted at the first iteration only gives the directions of the
recurrence. -/
theorem next_direction {c : Conjugate ℝ} {k : Nat} (hdimension : c.dimension = n)
    (hsteps : c.steps = k - 1) (hne : ∀ j ≤ k, l.gradient j ≠ 0) (hk : k < n) :
    ∃ c' : Conjugate ℝ, c'.dimension = n ∧ c'.steps = k ∧
      c.next (List.ofFn (l.gradient k)) (before (fun j => List.ofFn (l.gradient j)) k)
        (before (fun j => List.ofFn (l.direction j)) k) =
          .ok (List.ofFn (l.direction k), c') := by
  cases k with
  | zero =>
    refine ⟨{ c with steps := 0, restarted := true, lastBeta := 0 }, hdimension, rfl, ?_⟩
    show Except.ok (Vec.neg (List.ofFn (l.gradient 0)), _) = _
    rw [Vec.neg_ofFn]
    rfl
  | succ k =>
    rw [Nat.add_sub_cancel] at hsteps
    have hnext := Conjugate.next_eq (c := c)
      (regular fun j hj => hne j (Nat.le_succ_of_le hj)) (hne (k + 1) le_rfl)
      (by rw [hsteps, hdimension]; exact hk)
    refine ⟨_, ?_, ?_, hnext⟩
    · exact hdimension
    · exact congrArg (· + 1) hsteps

end ConjugateLine

theorem Strategy.propose_conjugate {c c' : Conjugate ℝ} {sight : Sight ℝ} {direction : Vec ℝ}
    (h : c.next sight.gradient sight.previousGradient sight.previousDirection =
      .ok (direction, c')) :
    (Strategy.conjugate c).propose sight = (.ok direction, .conjugate c') := by
  unfold propose
  dsimp only
  rw [h]

/-- A solver that has followed the recurrence for `k` iterations. -/
structure FollowsLine (q : Quadratic ℝ) (l : ConjugateLine q.dimension)
    (settings : DescentSettings ℝ) (keeps : Bool) (k : Nat)
    (s : Descent (Strategy ℝ) (Search ℝ) ℝ) : Prop where
  matrix_eq : l.matrix = q.toMatrix
  linear_eq : l.linear = q.toLinear
  settings : s.settings = settings
  objective : s.objective = q.toObjective
  search : s.search = .exact q.matrix
  /-- No direction but the first was a restart. -/
  rule : ∃ c : Conjugate ℝ, s.rule = .conjugate c ∧ c.dimension = q.dimension ∧ c.steps = k - 1
  keepsHistory : s.keepsHistory = keeps
  history : s.history = if keeps then (l.visited (k + 1)).reverse else []
  iteration : s.current.iteration = k
  point : s.current.point = List.ofFn (l.point k)
  gradient : s.current.gradient = List.ofFn (l.gradient k)
  previousGradient : s.current.previousGradient = before (fun j => List.ofFn (l.gradient j)) k
  direction : s.current.direction = before (fun j => List.ofFn (l.direction j)) k
  pointConverged : s.pointConverged = false
  valueConverged : s.valueConverged = false

namespace FollowsLine

variable {q : Quadratic ℝ} {l : ConjugateLine q.dimension} {settings : DescentSettings ℝ}
  {keeps : Bool} {k : Nat} {s : Descent (Strategy ℝ) (Search ℝ) ℝ}
  (h : FollowsLine q l settings keeps k s)
include h

theorem propose (hne : ∀ j ≤ k, l.gradient j ≠ 0) (hk : k < q.dimension) :
    ∃ c : Conjugate ℝ, c.dimension = q.dimension ∧ c.steps = k ∧
      DirectionRule.propose s.rule s.openingSight =
        (.ok (List.ofFn (l.direction k)), .conjugate c) := by
  obtain ⟨c, hrule, hdimension, hsteps⟩ := h.rule
  obtain ⟨c', hdimension', hsteps', hnext⟩ := l.next_direction hdimension hsteps hne hk
  refine ⟨c', hdimension', hsteps', ?_⟩
  rw [hrule]
  rw [← h.gradient, ← h.previousGradient, ← h.direction] at hnext
  exact Strategy.propose_conjugate hnext

theorem stepSize (hne : ∀ j ≤ k, l.gradient j ≠ 0) :
    (LineSearch.stepSize s.search s.objective
      (s.openingQuery (List.ofFn (l.direction k)))).journaled =
        (.ok ⟨l.step k, .accepted⟩, [.gradient (List.ofFn (l.point k))]) := by
  have hconjugated := l.conjugated k fun j hj => hne j hj.le
  have hcurvature : 0 < l.direction k ⬝ᵥ q.toMatrix *ᵥ l.direction k := by
    rw [← h.matrix_eq]
    exact hconjugated.curvature_direction_pos (hne k le_rfl)
  have hstep : max 0 (-(l.gradient k ⬝ᵥ l.direction k) /
      (l.direction k ⬝ᵥ q.toMatrix *ᵥ l.direction k)) = l.step k := by
    rw [hconjugated.heading, neg_neg, ← h.matrix_eq]
    exact max_eq_right (hconjugated.step_pos (hne k le_rfl)).le
  have hgradient : q.toMatrix *ᵥ l.point k - q.toLinear = l.gradient k := by
    rw [← h.matrix_eq, ← h.linear_eq]
    rfl
  have hvertex := Exact.search_eq_vertex (s.openingQuery (List.ofFn (l.direction k))) h.point rfl
    hcurvature
  rw [hgradient] at hvertex
  rw [h.search, h.objective, ← hstep]
  exact hvertex

theorem history_succ :
    (if keeps then List.ofFn (l.point (k + 1)) :: s.history else s.history) =
      if keeps then (l.visited (k + 1 + 1)).reverse else [] := by
  rw [h.history]
  cases keeps with
  | true =>
    show _ :: (l.visited (k + 1)).reverse = (l.visited (k + 1 + 1)).reverse
    rw [l.visited_succ (k + 1), List.reverse_append]
    rfl
  | false => rfl

/-- One iteration, with the note in the history, is one step of the recurrence. -/
theorem advance (hbox : settings.box = ⟨none, none⟩) (hne : ∀ j ≤ k, l.gradient j ≠ 0)
    (hk : k < q.dimension) :
    ∃ advanced recorded, Descent.advance.on s = (.ok (), advanced) ∧
      Descent.record.on advanced = (.ok (), recorded) ∧
      FollowsLine q l settings keeps (k + 1) recorded := by
  obtain ⟨c, hdimension, hsteps, hpropose⟩ := h.propose hne hk
  have hreached : s.current.point.along (l.step k) (List.ofFn (l.direction k)) =
      .ok (List.ofFn (l.point (k + 1))) := by
    rw [h.point, Vec.along_ofFn]
    rfl
  have hclamp : s.settings.box.clamp (List.ofFn (l.point (k + 1))) =
      .ok (List.ofFn (l.point (k + 1))) := by
    rw [h.settings, hbox]
    rfl
  have hgradient : s.objective.gradient (List.ofFn (l.point (k + 1))) =
      .ok (List.ofFn (l.gradient (k + 1))) := by
    rw [h.objective]
    exact ConjugateLine.quadratic_gradient h.matrix_eq h.linear_eq (k + 1)
  have hvalue : ∃ value, s.objective.value (List.ofFn (l.point (k + 1))) = .ok value := by
    rw [h.objective]
    exact ⟨_, q.value_ofFn _⟩
  obtain ⟨value, hvalue⟩ := hvalue
  obtain ⟨tally, events, hstep⟩ := Descent.step_on hpropose rfl (h.stepSize hne) hreached
    hclamp hgradient hvalue
  have hadvance := Descent.advance_on hstep
  generalize hadvanced : Descent.update _ _ = advanced at hadvance
  obtain ⟨later, hrecord⟩ := Descent.record_on advanced
  refine ⟨advanced, _, hadvance, hrecord, ?_⟩
  subst hadvanced
  have hhistory := h.history_succ
  rw [← h.keepsHistory] at hhistory
  exact {
    matrix_eq := h.matrix_eq
    linear_eq := h.linear_eq
    settings := h.settings
    objective := h.objective
    search := h.search
    rule := ⟨c, rfl, hdimension, hsteps⟩
    keepsHistory := h.keepsHistory
    history := h.keepsHistory ▸ hhistory
    iteration := congrArg (· + 1) h.iteration
    point := rfl
    gradient := rfl
    previousGradient := congrArg some h.gradient
    direction := rfl
    pointConverged := h.pointConverged
    valueConverged := h.valueConverged }

end FollowsLine

end Downhill
