import Downhill.Proofs.Descent.Alignment

/-!
# What the flags of a solver say

The declarative rule for the end of a run speaks of the course of the run, and a run of
a solver that returns has one, whatever its objective does elsewhere.  So when a flag is
up at the end, the changes that it stands for have been small for as long as it says.
-/

namespace Downhill

open Descent DescentM Course

variable {R S α : Type} [Scalar α] [DirectionRule R α] {s t : Descent R S α}

/-- A check that goes past the gradient has asked the rule of the caller's own. -/
theorem Descent.exists_predicate_of_check {stops : Bool} (h : check.on s = (.ok stops, t))
    (hlong : ¬(s.settings.checksGradient && gradientIsShort (Vec.norm s.current.gradient)
      s.settings.gradientTolerance) = true)
    {p : Predicate α} (hp : s.settings.predicate = some p) :
    ∃ holds, p s.current.point = .ok holds := by
  unfold check at h
  rw [on_bind (on_modify s _), on_bind (on_get _)] at h
  dsimp only at h
  rw [if_neg hlong] at h
  obtain ⟨holds, _, hpredicate, -⟩ := exists_of_on_bind h
  unfold predicateHolds at hpredicate
  rw [on_bind (on_get _), hp] at hpredicate
  exact ⟨holds, (exists_of_on_answer hpredicate).1⟩

variable [LineSearch S α] {c : Course R α} {settings : DescentSettings α} {k n : Nat}
  {objective : Objective α} {search : S}

/-- A check of a solver on its course that returns has found the first reason to stop, or
none. -/
theorem Course.Tracks.check_cases_of_returned {stops : Bool}
    (h : c.Tracks settings k objective search (k - 1) s) (hreaches : c.Reaches settings k)
    (hfollows : ∀ j, k = j + 1 → c.Follows settings objective search j)
    (hcheck : check.on s = (.ok stops, t)) :
    (stops = true ∧ ∃ e, c.EndsFirst settings k e ∧ c.StoppedBy settings k e t) ∨
      (stops = false ∧ (∀ e, ¬c.Ends settings k e) ∧ c.Tracks settings k objective search k t) := by
  have hpredicate : ¬c.Ends settings k .gradient →
      ∀ p, settings.predicate = some p → ∃ holds, p (c.point k) = .ok holds := by
    intro hlong p hp
    rw [← h.settings] at hp
    obtain ⟨holds, hanswer⟩ :=
      exists_predicate_of_check hcheck (mt h.gradientIsShort_iff.mp hlong) hp
    rw [h.current] at hanswer
    exact ⟨holds, hanswer⟩
  rcases h.check_cases_of hpredicate (fun j hj => (hfollows j hj).exists_sub) hreaches with
    ⟨e, u, hcheck', hfirst, hstopped⟩ | ⟨u, hcheck', hends, htracks⟩
  · cases hcheck'.symm.trans hcheck
    exact Or.inl ⟨rfl, e, hfirst, hstopped⟩
  · cases hcheck'.symm.trans hcheck
    exact Or.inr ⟨rfl, hends, htracks⟩

/-- The flags that are up after a check say what the changes have been. -/
theorem Course.Tracks.ends_of_check {stops : Bool}
    (h : c.Tracks settings k objective search (k - 1) s) (hreaches : c.Reaches settings k)
    (hfollows : ∀ j, k = j + 1 → c.Follows settings objective search j)
    (hcheck : check.on s = (.ok stops, t)) :
    (t.pointConverged = true → c.Ends settings k .point) ∧
      (t.valueConverged = true → c.Ends settings k .value) := by
  obtain ⟨-, e, hfirst, hstopped⟩ | ⟨-, -, hchecked⟩ :=
    h.check_cases_of_returned hreaches hfollows hcheck
  · refine ⟨fun hflag => ?_, fun hflag => (hstopped.valueConverged.mp hflag).2⟩
    rw [← hstopped.pointConverged.mp hflag]
    exact hfirst.1
  · exact ⟨hchecked.pointConverged.mp, hchecked.valueConverged.mp⟩

namespace Descent

variable {solver : Descent R S α} {run : Nat → Descent R S α}

/-- A run keeps count of small changes as it goes, and nothing ends it on the way. -/
theorem IsRun.tracks (h : IsRun solver run n)
    (hzero : c.Tracks settings 0 objective search 0 (run 0))
    (hfollows : ∀ k < n, c.Reaches settings (k + 1) → c.Follows settings objective search k)
    (hk : k ≤ n) :
    c.Tracks settings k objective search (k - 1) (run k) ∧ c.Reaches settings k := by
  induction k with
  | zero => exact ⟨hzero, fun j hj => absurd hj j.not_lt_zero⟩
  | succ k ih =>
    obtain ⟨htracks, hreaches⟩ := ih (Nat.le_of_succ_le hk)
    obtain ⟨checked, advanced, hcheck, hadvance, hrecord⟩ := h.passes k hk
    have hbefore : ∀ j, k = j + 1 → c.Follows settings objective search j :=
      fun j hj => hfollows j (by omega) (hj ▸ hreaches)
    obtain ⟨hstops, -⟩ | ⟨-, hends, hchecked⟩ :=
      htracks.check_cases_of_returned hreaches hbefore hcheck
    · cases hstops
    · obtain ⟨advanced', t, hadvance', hrecord', hnext⟩ :=
        hchecked.round (hfollows k hk (hreaches.succ hends))
      cases hadvance'.symm.trans hadvance
      cases hrecord'.symm.trans hrecord
      exact ⟨hnext, hreaches.succ hends⟩

/-- A solver whose calls return runs along its course up to where it stops. -/
theorem exists_run_of_tracks (h : c.Returns settings objective search)
    (htracks : c.Tracks settings 0 objective search 0 (solver.announce (.started solver.kind))) :
    ∃ k e final run, solve.on solver = (.ok (c.point k), final) ∧ IsRun solver run k ∧
      (∀ j ≤ k, c.Describes j (run j)) ∧ c.Reaches settings k ∧ c.EndsFirst settings k e ∧
      c.StoppedBy settings k e final := by
  obtain ⟨k, e, final, hsolve, hreaches, hfirst, hstopped⟩ := solve_of_tracks h htracks
  obtain ⟨n, -, run, hrun, stops, checked, hcheck, -, rfl⟩ := exists_run_of_solve hsolve
  have hdescribes : ∀ j ≤ n, c.Describes j (run j) := fun j hj =>
    (hrun.tracks (hrun.start ▸ htracks) (fun j _ => h.follows j) hj).1.toDescribes
  -- The run that is found ends at the entry that was told before.
  have hcurrent : c.iterate n = c.iterate k := (hdescribes n (Nat.le_refl n)).current.symm.trans
    ((alike_of_check hcheck).current.symm.trans hstopped.current)
  obtain rfl : n = k := congrArg Iterate.iteration hcurrent
  exact ⟨n, e, _, run, hsolve, hrun, hdescribes, hreaches, hfirst, hstopped⟩

theorem tracks_zero_of_isRun {kind : SolverKind} {rule : R} {counts keeps : Bool} {point : Vec α}
    (hstart : start kind settings objective rule search counts keeps point = .ok solver)
    (h : IsRun solver run n) : (course run).Tracks settings 0 objective search 0 (run 0) := by
  obtain ⟨haligned, rfl, rfl, -⟩ := aligned_of_isRun hstart h
  rw [h.start]
  exact tracks_zero_of_start (haligned.gradient 0 n.zero_le) (haligned.value 0 n.zero_le) hstart

/-- When a solver has returned, the flags that are up say what its changes have been. -/
theorem ends_of_solve {kind : SolverKind} {rule : R} {counts keeps : Bool} {point x : Vec α}
    {final : Descent R S α}
    (hstart : start kind settings objective rule search counts keeps point = .ok solver)
    (hsolve : solve.on solver = (.ok x, final)) :
    ∃ n run, IsRun solver run n ∧ (course run).Aligned settings objective search run n ∧
      (course run).point 0 = point ∧ (course run).rule 0 = rule ∧ final.current.iteration = n ∧
      (final.pointConverged = true → (course run).Ends settings n .point) ∧
      (final.valueConverged = true → (course run).Ends settings n .value) := by
  obtain ⟨n, -, run, hrun, stops, checked, hcheck, -, rfl⟩ := exists_run_of_solve hsolve
  obtain ⟨haligned, hpoint, hrule, -⟩ := aligned_of_isRun hstart hrun
  obtain ⟨htracks, hreaches⟩ :=
    hrun.tracks (tracks_zero_of_isRun hstart hrun) (fun k hk _ => haligned.follows k hk)
      (Nat.le_refl n)
  have hiteration : checked.current.iteration = n := by
    rw [(alike_of_check hcheck).current, haligned.current n (Nat.le_refl n)]
    rfl
  have hflags := htracks.ends_of_check hreaches (fun j hj => haligned.follows j (by omega)) hcheck
  exact ⟨n, run, hrun, haligned, hpoint, hrule, hiteration, hflags⟩

end Descent

end Downhill
