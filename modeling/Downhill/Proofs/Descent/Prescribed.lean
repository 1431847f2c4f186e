import Downhill.Proofs.Descent.Flags

/-!
# Courses known in advance

Sometimes all entries of a course can be written down before anything runs.  If the first
of them is what a solver begins with, and every later one is what rule, search and
objective answer, then the solver can be created, all its runs go along the course, and
it returns the point of the entry at which there first is a reason to stop.
-/

namespace Downhill

open Descent

variable {α G : Type} [Scalar α]

namespace Course

/-- A course that a solver begins, and stays on. -/
structure Prescribed (c : Course (Strategy α) α) (kind : SolverKind)
    (settings : DescentSettings α) (problem : Problem α G) (start : Nested α) (search : Search α)
    (counts : Bool) : Prop where
  point : start.toPoint = .ok (c.point 0)
  size : settings.box.checkDimension (c.point 0).length = .ok ()
  rule : chooseRule kind settings (c.point 0) = .ok (c.rule 0)
  chosen : chooseSearch settings problem = .ok (search, counts)
  gradient : problem.objective.gradient (c.point 0) = .ok (c.gradient 0)
  value : problem.objective.value (c.point 0) = .ok (c.value 0)
  follows : ∀ k, c.Follows settings problem.objective search k

namespace Prescribed

variable {c : Course (Strategy α) α} {kind : SolverKind} {settings : DescentSettings α}
  {problem : Problem α G} {start : Nested α} {search : Search α} {counts keeps : Bool}
  {solver final : Descent (Strategy α) (Search α) α}
  {run : Nat → Descent (Strategy α) (Search α) α} {m k : Nat} {x : Vec α}
  (h : c.Prescribed kind settings problem start search counts)
include h

theorem exists_create (keeps : Bool) :
    ∃ solver, create kind settings problem start keeps = .ok solver := by
  obtain ⟨tally, hstarted⟩ := start_eq h.gradient h.value kind settings (c.rule 0) search counts
    keeps
  exact ⟨_, create_of_start h.point h.size h.chosen h.rule hstarted⟩

section Created

variable (hcreate : create kind settings problem start keeps = .ok solver)
include hcreate

theorem tracks :
    c.Tracks settings 0 problem.objective search 0 (solver.announce (.started solver.kind)) := by
  obtain ⟨_, _, _, _, hpoint, hrule, hchosen, hstarted⟩ := exists_start_of_create hcreate
  obtain rfl := Except.ok.inj (h.point.symm.trans hpoint)
  obtain rfl := Except.ok.inj (h.rule.symm.trans hrule)
  cases h.chosen.symm.trans hchosen
  exact tracks_zero_of_start h.gradient h.value hstarted

/-- No run leaves the course. -/
theorem tracks_of_isRun (hrun : IsRun solver run m) (hk : k ≤ m) :
    c.Tracks settings k problem.objective search (k - 1) (run k) ∧ c.Reaches settings k :=
  hrun.tracks (hrun.start ▸ h.tracks hcreate) (fun k _ _ => h.follows k) hk

/-- A solver that returns has gone along the course, and the flags that are up say what the
changes on it have been. -/
theorem ends_of_solve (hsolve : solve.on solver = (.ok x, final)) :
    ∃ k, x = c.point k ∧ (final.pointConverged = true → c.Ends settings k .point) ∧
      (final.valueConverged = true → c.Ends settings k .value) := by
  obtain ⟨k, -, run, hrun, stops, checked, hcheck, rfl, rfl⟩ := exists_run_of_solve hsolve
  obtain ⟨htracks, hreaches⟩ := h.tracks_of_isRun hcreate hrun (Nat.le_refl k)
  have hcurrent : checked.current = c.iterate k :=
    (alike_of_check hcheck).current.trans htracks.current
  have hflags := htracks.ends_of_check hreaches (fun j _ => h.follows j) hcheck
  exact ⟨k, congrArg Iterate.point hcurrent, hflags⟩

/-- Unless a rule of the caller's own fails, the solver returns. -/
theorem exists_solve
    (hpredicate : ∀ p, settings.predicate = some p → ∀ x, ∃ holds, p x = .ok holds) :
    ∃ k e final run, solve.on solver = (.ok (c.point k), final) ∧ IsRun solver run k ∧
      c.Reaches settings k ∧ c.EndsFirst settings k e ∧ c.StoppedBy settings k e final := by
  have hreturns : c.Returns settings problem.objective search :=
    ⟨h.gradient, h.value, fun _ _ _ p hp => hpredicate p hp _, fun k _ => h.follows k⟩
  obtain ⟨k, e, final, run, hsolve, hrun, -, hreaches, hfirst, hstopped⟩ :=
    exists_run_of_tracks hreturns (h.tracks hcreate)
  exact ⟨k, e, final, run, hsolve, hrun, hreaches, hfirst, hstopped⟩

end Created

end Prescribed

end Course

end Downhill
