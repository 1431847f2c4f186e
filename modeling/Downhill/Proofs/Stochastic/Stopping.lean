import Downhill.Proofs.Descent.Ending
import Downhill.Proofs.Stochastic.Step
import Downhill.Proofs.Stochastic.Walk
import Mathlib.Order.Bounds.Defs
import Mathlib.Tactic.IntervalCases

/-!
# Where a stochastic run stops

The loop asks its check before the rule of the caller's own, and the check asks for the
limit first and counts small changes only after that.  It stops at the first entry of its
walk at which there is a reason to all the same, and its flags tell the first reason there.
Every iteration up to then has used the step that the schedule has for it.
-/

namespace Downhill

namespace Walk

open Stochastic StochasticM

variable {R G α : Type}

/-- What can end a walk, in the order in which it is looked for. -/
inductive Ending
  | limit
  | point
  | custom
  deriving DecidableEq, Repr

/-- The place in the order. -/
def Ending.place : Ending → Nat
  | limit => 0
  | point => 1
  | custom => 2

section Rule

variable [Elementary α] (w : Walk R G α) (settings : StochasticSettings α) (k : Nat)

/-- How far the point of an entry is from the one before. -/
def pointChange : Option α := ((w.point k).sub (w.point (k - 1))).toOption.map Vec.norm

def PointIdle : Prop := ∃ change, w.pointChange k = some change ∧ change ≤ settings.pointTolerance

/-- Whether there is a reason of the given kind to stop at an entry. -/
def Ends : Ending → Prop
  | .limit => settings.maxIterations ≤ k
  | .point => settings.checksPoint = true ∧ 0 < k ∧
      Stalled (w.PointIdle settings) settings.pointPatience k
  | .custom => ∃ predicate, settings.predicate = some predicate ∧
      predicate (w.point k) = .ok true

/-- The first reason to stop at an entry. -/
def EndsFirst (e : Ending) : Prop :=
  w.Ends settings k e ∧ ∀ e', w.Ends settings k e' → e.place ≤ e'.place

/-- A run gets to an entry if there is no reason to stop before it. -/
def Reaches : Prop := ∀ j < k, ∀ e, ¬w.Ends settings j e

/-- How a reason to stop is reported. -/
def verdict : Ending → Verdict α
  | .limit => .limit
  | .point => .point (w.pointChange k) settings.pointTolerance settings.pointPatience
  | .custom => .custom

/-- The summary of a run that has stopped at an entry, with the value there. -/
def summary (keeps : Bool) (e : Ending) (value : α) : Summary α where
  point := w.point k
  value := value
  iterations := k
  success := decide (e ≠ .limit)
  verdict := w.verdict settings k e
  gradientNorm := Vec.norm (w.gradient k)
  values := 1
  gradients := k + 1
  history := if keeps then w.visited (k + 1) else []

/-- A solver that has stopped at an entry for a reason. -/
structure StoppedBy [IndexSource G] (keeps : Bool) (e : Ending) (s : Stochastic R G α) : Prop
    extends w.Describes keeps k s where
  pointConverged : s.pointConverged = true ↔ e = .point
  customConverged : s.customConverged = true ↔ e = .custom
  verdict : s.verdict = w.verdict settings k e
  summary : ∀ value, (w.problem k).objective.value (w.point k) = .ok value →
    (Stochastic.summary.on s).1 = .ok (w.summary settings k keeps e value)

/-- A solver at an entry that has counted idle iterations, and looked for an end, up to an
entry that need not be the same. -/
structure Tracks (keeps : Bool) (counted : Nat) (s : Stochastic R G α) : Prop
    extends w.Describes keeps k s where
  idlePoint : settings.checksPoint = true → CountsIdle (w.PointIdle settings) counted s.idlePoint
  pointConverged : s.pointConverged = true ↔ w.Ends settings counted .point
  customConverged : s.customConverged = false
  settings : s.settings = settings

/-- The calls of a run all return, as far as the run gets, and the walk is made of what they
return. -/
structure Returns [SeededSource G] [StochasticRule R α] (problem : Problem α G) : Prop
    extends w.Begins settings problem where
  follows : ∀ k, w.Reaches settings (k + 1) → w.Follows settings k
  difference : ∀ k, w.Reaches settings (k + 1) → ¬w.Ends settings (k + 1) .limit →
    settings.checksPoint = true →
    ∃ difference, (w.point (k + 1)).sub (w.point k) = .ok difference
  predicate : ∀ k, w.Reaches settings k → ¬w.Ends settings k .limit →
    ¬w.Ends settings k .point →
    ∀ p, settings.predicate = some p → ∃ holds, p (w.point k) = .ok holds

end Rule

variable [Elementary α] {w : Walk R G α} {settings : StochasticSettings α} {k : Nat} {keeps : Bool}
  {s t : Stochastic R G α} {e : Ending}

theorem Reaches.not_stalled (h : w.Reaches settings k) : ¬w.Ends settings (k - 1) .point := by
  cases k with
  | zero => exact fun hends => absurd hends.2.1 (Nat.lt_irrefl 0)
  | succ k => exact h k k.lt_succ_self .point

theorem Reaches.succ (h : w.Reaches settings k) (hk : ∀ e, ¬w.Ends settings k e) :
    w.Reaches settings (k + 1) := by
  intro j hj
  rcases Nat.lt_succ_iff_lt_or_eq.mp hj with hj | rfl
  · exact h j hj
  · exact hk

theorem Tracks.not_converged (h : w.Tracks settings k keeps (k - 1) s)
    (hreaches : w.Reaches settings k) : s.pointConverged = false :=
  Bool.eq_false_iff.mpr fun hflag => hreaches.not_stalled (h.pointConverged.mp hflag)

/-- The flags of a solver tell why it has stopped, and its counts tell how far it has come. -/
theorem StoppedBy.of_flags [IndexSource G] [StochasticRule R α] (hs : w.Describes keeps k s)
    (hsettings : s.settings = settings) (hpoint : s.pointConverged = true ↔ e = .point)
    (hcustom : s.customConverged = true ↔ e = .custom)
    (hchange : e = .point → s.pointChange = w.pointChange k) :
    w.StoppedBy settings k keeps e s := by
  have hpointFlag : s.pointConverged = decide (e = .point) := by
    rw [Bool.eq_iff_iff, decide_eq_true_iff]
    exact hpoint
  have hcustomFlag : s.customConverged = decide (e = .custom) := by
    rw [Bool.eq_iff_iff, decide_eq_true_iff]
    exact hcustom
  have hverdict : s.verdict = w.verdict settings k e := by
    unfold Stochastic.verdict
    rw [hpointFlag, hcustomFlag, hsettings]
    cases e with
    | limit | custom => rfl
    | point =>
      rw [hchange rfl]
      rfl
  have hsuccess : s.converged = decide (e ≠ .limit) := by
    unfold Stochastic.converged
    rw [hpointFlag, hcustomFlag]
    cases e with
    | limit | point | custom => rfl
  have hhistory : s.points = if keeps then w.visited (k + 1) else [] := by
    unfold Stochastic.points
    rw [hs.history]
    cases keeps with
    | false => rfl
    | true => exact List.reverse_reverse _
  refine ⟨hs, hpoint, hcustom, hverdict, fun value hvalue => ?_⟩
  rw [← hs.problem, ← hs.point] at hvalue
  rw [summary_on s hvalue, hverdict, hsuccess, hhistory, hs.point, hs.iteration, hs.gradient,
    hs.values, hs.estimates]
  rfl

theorem StoppedBy.announce [IndexSource G] (h : w.StoppedBy settings k keeps e s)
    (event : Event α) : w.StoppedBy settings k keeps e (s.announce event) := by
  refine ⟨h.noting _ _ _ _ _, h.pointConverged, h.customConverged, h.verdict,
    fun value hvalue => ?_⟩
  rw [← h.summary value hvalue]
  rw [← h.problem, ← h.point] at hvalue
  exact (summary_on (s.announce event) hvalue).trans (summary_on s hvalue).symm

/-! ## Checks along a walk -/

/-- After the change at an entry has been measured, the count goes up to it. -/
theorem Tracks.pointMeasured {difference : Vec α} (h : w.Tracks settings (k + 1) keeps k s)
    (hreaches : w.Reaches settings (k + 1)) (hchecks : settings.checksPoint = true)
    (hdifference : (w.point (k + 1)).sub (w.point k) = .ok difference) :
    w.Tracks settings (k + 1) keeps (k + 1) (s.pointMeasured (Vec.norm difference)) ∧
      (s.pointMeasured (Vec.norm difference)).pointChange = w.pointChange (k + 1) := by
  have hchange : w.pointChange (k + 1) = some (Vec.norm difference) := by
    unfold pointChange
    rw [Nat.add_sub_cancel, hdifference]
    rfl
  have hidle : w.PointIdle settings (k + 1) ↔ Vec.norm difference ≤ settings.pointTolerance := by
    unfold PointIdle
    rw [hchange]
    exact ⟨fun ⟨_, hsome, hle⟩ => Option.some.inj hsome ▸ hle, fun hle => ⟨_, rfl, hle⟩⟩
  have hcounts := (h.idlePoint hchecks).succ hidle
  obtain rfl := h.settings
  refine ⟨⟨h.noting _ _ _ _ _, fun _ => hcounts, ?_, h.customConverged, rfl⟩, hchange.symm⟩
  unfold Stochastic.pointMeasured
  rw [h.not_converged hreaches, Bool.false_or, decide_eq_true_eq]
  exact ⟨fun hstalled => ⟨hchecks, k.succ_pos, (hcounts _).mp hstalled⟩,
    fun hends => (hcounts _).mpr hends.2.2⟩

theorem Tracks.check_of_limit {counted : Nat} (h : w.Tracks settings k keeps counted s)
    (hlimit : w.Ends settings k .limit) : check.on s = (.ok true, s) := by
  have hmax : s.settings.maxIterations ≤ s.iteration := by
    rw [h.settings, h.iteration]
    exact hlimit
  by_cases hzero : s.iteration = 0
  · rw [check_of_first hzero, decide_eq_true (by omega)]
  · exact Stochastic.check_of_limit hzero hmax

/-- Before the limit the check goes by the flag, which then tells about the entry. -/
theorem Tracks.check_of_below [SeededSource G] [StochasticRule R α] {problem : Problem α G}
    (hreturns : w.Returns settings problem) (h : w.Tracks settings k keeps (k - 1) s)
    (hreaches : w.Reaches settings k) (hlimit : ¬w.Ends settings k .limit) :
    ∃ t, check.on s = (.ok t.pointConverged, t) ∧ w.Tracks settings k keeps k t ∧
      (w.Ends settings k .point → t.pointChange = w.pointChange k) := by
  have hconverged := h.not_converged hreaches
  have hbelow : ¬s.settings.maxIterations ≤ s.iteration := by
    rw [h.settings, h.iteration]
    exact hlimit
  cases k with
  | zero =>
    have hzero := h.iteration
    refine ⟨s, ?_, h, fun hends => absurd hends.2.1 (Nat.lt_irrefl 0)⟩
    rw [check_of_first hzero, hconverged, decide_eq_false (by omega)]
  | succ k =>
    have hlater : s.iteration ≠ 0 := by
      rw [h.iteration]
      exact k.succ_ne_zero
    by_cases hchecks : settings.checksPoint = true
    · obtain ⟨difference, hdifference⟩ := hreturns.difference k hreaches hlimit hchecks
      obtain ⟨htracks, hchange⟩ := h.pointMeasured hreaches hchecks hdifference
      rw [← h.settings] at hchecks
      rw [← h.point] at hdifference
      exact ⟨_, check_of_measured hlater hbelow hchecks h.previousPoint hdifference, htracks,
        fun _ => hchange⟩
    · have hpoint : ¬w.Ends settings (k + 1) .point := fun hends => hchecks hends.1
      have hflag := iff_of_false (Bool.eq_false_iff.mp hconverged) hpoint
      rw [← h.settings] at hchecks
      refine ⟨s, check_of_unmeasured hlater hbelow hchecks, ⟨h.toDescribes, ?_, hflag,
        h.customConverged, h.settings⟩, fun hends => absurd hends hpoint⟩
      rw [h.settings] at hchecks
      exact fun hchecked => absurd hchecked hchecks

/-- The check finds the limit first and then the idle point. -/
theorem Tracks.check_cases [SeededSource G] [StochasticRule R α] {problem : Problem α G}
    (hreturns : w.Returns settings problem) (h : w.Tracks settings k keeps (k - 1) s)
    (hreaches : w.Reaches settings k) :
    (∃ e t, check.on s = (.ok true, t) ∧ w.EndsFirst settings k e ∧
      w.StoppedBy settings k keeps e t) ∨
    ∃ t, check.on s = (.ok false, t) ∧ ¬w.Ends settings k .limit ∧ ¬w.Ends settings k .point ∧
      w.Tracks settings k keeps k t := by
  by_cases hlimit : w.Ends settings k .limit
  · refine Or.inl ⟨.limit, s, h.check_of_limit hlimit, ⟨hlimit, fun _ _ => Nat.zero_le _⟩,
      .of_flags h.toDescribes h.settings ?_ ?_ fun heq => nomatch heq⟩
    · exact iff_of_false (Bool.eq_false_iff.mp (h.not_converged hreaches)) fun heq => nomatch heq
    · exact iff_of_false (Bool.eq_false_iff.mp h.customConverged) fun heq => nomatch heq
  obtain ⟨t, hcheck, htracks, hchange⟩ := h.check_of_below hreturns hreaches hlimit
  by_cases hpoint : w.Ends settings k .point
  · have hflag := htracks.pointConverged.mpr hpoint
    rw [hflag] at hcheck
    refine Or.inl ⟨.point, t, hcheck, ⟨hpoint, ?_⟩, .of_flags htracks.toDescribes
      htracks.settings (iff_of_true hflag rfl) ?_ fun _ => hchange hpoint⟩
    · intro e he
      cases e with
      | limit => exact absurd he hlimit
      | point | custom => decide
    · exact iff_of_false (Bool.eq_false_iff.mp htracks.customConverged) fun heq => nomatch heq
  · have hflag : t.pointConverged = false :=
      Bool.eq_false_iff.mpr fun hflag => hpoint (htracks.pointConverged.mp hflag)
    rw [hflag] at hcheck
    exact Or.inr ⟨t, hcheck, hlimit, hpoint, htracks⟩

/-- After the check the rule of the caller's own is asked. -/
theorem Tracks.predicate_cases [SeededSource G] [StochasticRule R α] {problem : Problem α G}
    (hreturns : w.Returns settings problem) (h : w.Tracks settings k keeps k s)
    (hreaches : w.Reaches settings k) (hlimit : ¬w.Ends settings k .limit)
    (hpoint : ¬w.Ends settings k .point) :
    (predicateHolds.on s = (.ok true, s) ∧ w.EndsFirst settings k .custom ∧
      w.StoppedBy settings k keeps .custom { s with customConverged := true }) ∨
    (predicateHolds.on s = (.ok false, s) ∧ ∀ e, ¬w.Ends settings k e) := by
  by_cases hcustom : w.Ends settings k .custom
  · obtain ⟨p, hp, hholds⟩ := hcustom
    refine Or.inl ⟨predicateHolds_on (fun p' hp' => ?_) fun hnone => ?_, ⟨⟨p, hp, hholds⟩, ?_⟩,
      .of_flags (h.noting _ _ _ _ _) h.settings ?_ (iff_of_true rfl rfl) fun heq => nomatch heq⟩
    · rw [h.settings, hp] at hp'
      rw [← Option.some.inj hp', h.point]
      exact hholds
    · rw [h.settings, hp] at hnone
      cases hnone
    · intro e he
      cases e with
      | limit => exact absurd he hlimit
      | point => exact absurd he hpoint
      | custom => exact Nat.le_refl _
    · exact iff_of_false (fun hflag => hpoint (h.pointConverged.mp hflag)) fun heq => nomatch heq
  · refine Or.inr ⟨predicateHolds_on (fun p hp => ?_) fun _ => rfl, fun e => ?_⟩
    · rw [h.settings] at hp
      obtain ⟨holds, hanswer⟩ := hreturns.predicate k hreaches hlimit hpoint p hp
      rw [h.point]
      cases holds with
      | false => exact hanswer
      | true => exact absurd ⟨p, hp, hanswer⟩ hcustom
    · cases e with
      | limit => exact hlimit
      | point => exact hpoint
      | custom => exact hcustom

/-! ## The loop -/

section Loop

variable [SeededSource G] [StochasticRule R α] {problem : Problem α G}

/-- A round moves on along the walk, with the step of the schedule. -/
theorem Tracks.round (hfollows : w.Follows settings k) (h : w.Tracks settings k keeps k s) :
    ∃ advanced t, advance.on s = (.ok (), advanced) ∧ record.on advanced = (.ok (), t) ∧
      w.Tracks settings (k + 1) keeps k t ∧ t.step = w.step k := by
  rw [← h.settings] at hfollows
  obtain ⟨advanced, t, hadvance, hrecord, hdescribes, hstep, hsettings, hidle, hpoint, hcustom⟩ :=
    hfollows.advance_on h.toDescribes
  refine ⟨advanced, t, hadvance, hrecord, ⟨hdescribes, ?_, ?_, ?_, ?_⟩, hstep⟩
  · rw [hidle]
    exact h.idlePoint
  · rw [hpoint]
    exact h.pointConverged
  · rw [hcustom]
    exact h.customConverged
  · rw [hsettings]
    exact h.settings

/-- The loop runs along the walk up to the first entry with a reason to stop. -/
theorem Tracks.iterate_on (hreturns : w.Returns settings problem) {left : Nat}
    (hleft : left = settings.maxIterations - k) (h : w.Tracks settings k keeps (k - 1) s)
    (hreaches : w.Reaches settings k) :
    ∃ m e final, ∃ run : Nat → Stochastic R G α, (iterate left).on s = (.ok (), final) ∧
      w.Reaches settings (k + m) ∧ w.EndsFirst settings (k + m) e ∧
      w.StoppedBy settings (k + m) keeps e final ∧ run 0 = s ∧
      ∀ j < m, Passes (run j) (run (j + 1)) ∧ (run (j + 1)).point = w.point (k + j + 1) ∧
        (run (j + 1)).step = w.step (k + j) := by
  induction left generalizing k s with
  | zero =>
    rcases h.check_cases hreturns hreaches with ⟨e, t, hcheck, hfirst, hstopped⟩ | ⟨_, _, hends, -⟩
    · exact ⟨0, e, t, fun _ => s, iterate_of_stop 0 hcheck, hreaches, hfirst, hstopped, rfl,
        fun j hj => absurd hj j.not_lt_zero⟩
    · exact absurd (Nat.sub_eq_zero_iff_le.mp hleft.symm) hends
  | succ left ih =>
    rcases h.check_cases hreturns hreaches with
      ⟨e, t, hcheck, hfirst, hstopped⟩ | ⟨checked, hcheck, hlimit, hpoint, htracks⟩
    · exact ⟨0, e, t, fun _ => s, iterate_of_stop _ hcheck, hreaches, hfirst, hstopped, rfl,
        fun j hj => absurd hj j.not_lt_zero⟩
    rcases htracks.predicate_cases hreturns hreaches hlimit hpoint with
      ⟨hholds, hfirst, hstopped⟩ | ⟨hfails, hends⟩
    · exact ⟨0, .custom, _, fun _ => s, iterate_of_predicate left hcheck hholds, hreaches, hfirst,
        hstopped, rfl, fun j hj => absurd hj j.not_lt_zero⟩
    have hreaches' := hreaches.succ hends
    obtain ⟨advanced, t, hadvance, hrecord, hnext, hstep⟩ :=
      htracks.round (hreturns.follows k hreaches')
    obtain ⟨m, e, final, run, hloop, hlast, hfirst, hstopped, hrun, hpasses⟩ :=
      ih (by omega) hnext hreaches'
    rw [← iterate_succ left hcheck hfails hadvance hrecord] at hloop
    have hcount : k + 1 + m = k + (m + 1) := by omega
    rw [hcount] at hlast hfirst hstopped
    -- The first round is put before the run of the rest.
    refine ⟨m + 1, e, final, fun j => Nat.casesOn j s run, hloop, hlast, hfirst, hstopped, rfl, ?_⟩
    intro j hj
    cases j with
    | zero =>
      show Passes s (run 0) ∧ (run 0).point = w.point (k + 0 + 1) ∧ (run 0).step = w.step (k + 0)
      rw [hrun]
      exact ⟨⟨_, advanced, hcheck, hfails, hadvance, hrecord⟩, hnext.point, hstep⟩
    | succ j =>
      have hplace : k + 1 + j = k + (j + 1) := by omega
      have hround := hpasses j (Nat.lt_of_succ_lt_succ hj)
      rw [hplace] at hround
      exact hround

/-- A solver that has just been started has counted nothing. -/
theorem Returns.tracks_of_start (h : w.Returns settings problem) (kind : SolverKind)
    (keeps : Bool) :
    ∃ solver, start kind settings problem (w.rule 0) keeps (w.point 0) = .ok solver ∧
      w.Tracks settings 0 keeps 0 (solver.announce (.started solver.kind)) := by
  obtain ⟨solver, hstart, hdescribes, hsettings, hidle, hpoint, hcustom⟩ :=
    h.toBegins.start_eq kind keeps
  have hcounts : CountsIdle (w.PointIdle settings) 0 solver.idlePoint := by
    rw [hidle]
    exact countsIdle_zero _
  have hzero : ¬w.Ends settings 0 .point := fun hends => absurd hends.2.1 (Nat.lt_irrefl 0)
  exact ⟨solver, hstart, hdescribes.noting _ _ _ _ _, fun _ => hcounts,
    iff_of_false (Bool.eq_false_iff.mp hpoint) hzero, hcustom, hsettings⟩

/-- A solver whose calls return goes along its walk, point by point and step by step, and
returns the point of the entry at which there first is a reason to stop. -/
theorem Returns.exists_solve (h : w.Returns settings problem) (kind : SolverKind) (keeps : Bool) :
    ∃ solver k e final run, start kind settings problem (w.rule 0) keeps (w.point 0) = .ok solver ∧
      solve.on solver = (.ok (w.point k), final) ∧ IsRun solver run k ∧ w.Reaches settings k ∧
      w.EndsFirst settings k e ∧ w.StoppedBy settings k keeps e final ∧
      (∀ j ≤ k, (run j).point = w.point j) ∧ ∀ j < k, (run (j + 1)).step = w.step j := by
  obtain ⟨solver, hstart, htracks⟩ := h.tracks_of_start kind keeps
  have hleft : solver.settings.maxIterations - solver.iteration = settings.maxIterations - 0 := by
    rw [show solver.settings = settings from htracks.settings,
      show solver.iteration = 0 from htracks.iteration]
  obtain ⟨k, e, final, run, hloop, hreaches, hfirst, hstopped, hrun, hpasses⟩ :=
    htracks.iterate_on h hleft fun j hj => absurd hj j.not_lt_zero
  simp only [Nat.zero_add] at hreaches hfirst hstopped hpasses
  have hsolve := solve_on hloop
  rw [hstopped.point] at hsolve
  refine ⟨solver, k, e, _, run, hstart, hsolve, ⟨hrun, fun j hj => (hpasses j hj).1⟩, hreaches,
    hfirst, hstopped.announce _, fun j hj => ?_, fun j hj => (hpasses j hj).2.2⟩
  cases j with
  | zero =>
    rw [hrun]
    exact htracks.point
  | succ j => exact (hpasses j hj).2.1

end Loop

end Walk

namespace Stochastic

open Walk StochasticM

variable {R G α : Type} [Elementary α] [SeededSource G] [StochasticRule R α]

/-- A stochastic solver whose calls return stops at the first entry of its walk at which there
is a reason to, its flags tell the first reason there, and every iteration of the run up to
then takes the step of the schedule. -/
theorem solve_stops_first {w : Walk R G α} {settings : StochasticSettings α}
    {problem : Problem α G} (h : w.Returns settings problem) (kind : SolverKind) (keeps : Bool) :
    ∃ solver k e final run,
      start kind settings problem (w.rule 0) keeps (w.point 0) = .ok solver ∧
      solve.on solver = (.ok (w.point k), final) ∧
      IsLeast {j | ∃ e, w.Ends settings j e} k ∧ w.EndsFirst settings k e ∧
      w.StoppedBy settings k keeps e final ∧ IsRun solver run k ∧
      (∀ j ≤ k, (run j).point = w.point j) ∧
      ∀ j < k, settings.schedule.compute (j : α) settings.parameters = .ok (run (j + 1)).step := by
  obtain ⟨solver, k, e, final, run, hstart, hsolve, hrun, hreaches, hfirst, hstopped, hpoints,
    hsteps⟩ := h.exists_solve kind keeps
  refine ⟨solver, k, e, final, run, hstart, hsolve, ⟨⟨e, hfirst.1⟩, ?_⟩, hfirst, hstopped, hrun,
    hpoints, fun j hj => ?_⟩
  · rintro j ⟨e', hends⟩
    exact Nat.le_of_not_lt fun hj => hreaches j hj e' hends
  · rw [hsteps j hj]
    exact (h.follows j fun i hi => hreaches i (by omega)).step

/-! ### Settling

A full step against the gradient of half the square leads to zero, and the next ones stay
there. -/

noncomputable def settlingPoint (k : Nat) : Fin 1 → ℝ := fun _ => if k = 0 then 1 else 0

noncomputable def settlingProblem : Problem Extended Generator :=
  .plain { value := fun x => .ok (Vec.normSq x / 2), gradient := fun x => .ok x }

noncomputable def settling : Walk (StepRule Extended) Generator Extended where
  rule _ := .plain
  problem _ := settlingProblem
  point k := Vec.reals (settlingPoint k)
  gradient k := Vec.reals (settlingPoint k)
  direction k := Vec.reals (-settlingPoint k)
  step _ := 1

/-- Two iterations in a row without any change end the loop. -/
noncomputable def settlingSettings : StochasticSettings Extended where
  maxIterations := 10
  pointTolerance := 0
  pointPatience := 2
  checksPoint := true
  box := ⟨none, none⟩
  predicate := none
  logEvery := 0
  batchSize := 1
  withReplacement := false
  schedule := .constant
  parameters := [1]
  l1 := 0
  l2 := 0
  method := .plain
  epsilon := 1
  seed := none

theorem settling_weighs : settlingSettings.Weighs 0 0 1 :=
  ⟨rfl, rfl, rfl, le_rfl, le_rfl, one_pos⟩

theorem settling_penalised (k : Nat) :
    penalised settlingSettings (settling.point k) (settling.point k) =
      .ok (settling.gradient k) := by
  have h := settling_weighs.penalised_reals (settlingPoint k) (settlingPoint k)
  rw [mul_zero, zero_smul, add_zero] at h
  exact h

theorem settling_follows (k : Nat) : settling.Follows settlingSettings k where
  direction := congrArg (fun d => (Except.ok d, StepRule.plain)) (Vec.neg_reals (settlingPoint k))
  step := rfl
  point := by
    have hmoved : settlingPoint k + (1 : ℝ) • -settlingPoint k = settlingPoint (k + 1) := by
      rw [one_smul, add_neg_cancel]
      exact funext fun _ => (if_neg k.succ_ne_zero).symm
    have halong := Vec.along_reals (settlingPoint k) (-settlingPoint k) 1
    rw [hmoved] at halong
    have hreach := settling_weighs.reach_reals (show StepRule.plain.Scales 1 from rfl) halong
    simp only [mul_zero, Threshold.shrink_zero] at hreach
    exact ⟨_, hreach, rfl⟩
  gradient := ⟨_, rfl, settling_penalised (k + 1)⟩

theorem settling_pointChange (k : Nat) :
    settling.pointChange (k + 1) = some (if k = 0 then 1 else 0) := by
  have hdifference :
      settlingPoint (k + 1) - settlingPoint k = fun _ => if k = 0 then -1 else 0 := by
    funext i
    unfold settlingPoint
    by_cases hk : k = 0 <;> simp [hk]
  show ((Vec.reals (settlingPoint (k + 1))).sub (Vec.reals (settlingPoint k))).toOption.map _ = _
  rw [Vec.sub_reals, hdifference]
  show some (Vec.norm (Vec.reals _)) = _
  rw [Vec.norm_reals]
  by_cases hk : k = 0 <;> simp [hk, dotProduct, Extended.one_eq, Extended.zero_eq]

theorem settling_idle_iff (k : Nat) : settling.PointIdle settlingSettings (k + 1) ↔ k ≠ 0 := by
  unfold PointIdle
  rw [settling_pointChange]
  constructor
  · rintro ⟨change, hsome, hle⟩ rfl
    obtain rfl := Option.some.inj hsome
    exact absurd (Extended.real_le_real.mp hle) (not_le.mpr one_pos)
  · intro hk
    exact ⟨_, rfl, by rw [if_neg hk]; exact Extended.real_le_real.mpr le_rfl⟩

theorem settling_returns : settling.Returns settlingSettings settlingProblem where
  gradient := ⟨settlingProblem, _, rfl, rfl, settling_penalised 0⟩
  follows k _ := settling_follows k
  difference _ _ _ _ := ⟨_, Vec.sub_reals _ _⟩
  predicate _ _ _ _ _ hp := nomatch hp

theorem settling_ends : settling.Ends settlingSettings 3 .point := by
  refine ⟨rfl, by decide, by decide, fun i hi => ?_⟩
  have hi : i < 2 := hi
  interval_cases i
  · exact (settling_idle_iff 2).mpr (by decide)
  · exact (settling_idle_iff 1).mpr (by decide)

theorem settling_reaches : settling.Reaches settlingSettings 3 := by
  intro j hj e hends
  cases e with
  | limit =>
    have hlimit : 10 ≤ j := hends
    omega
  | point =>
    obtain ⟨-, -, hpatience, hall⟩ := hends
    have hpatience : 2 ≤ j := hpatience
    obtain rfl : j = 2 := by omega
    exact (settling_idle_iff 0).mp (hall 1 (by decide)) rfl
  | custom =>
    obtain ⟨p, hp, -⟩ := hends
    cases hp

theorem solve_stops_first_settling :
    ∃ solver final : Stochastic (StepRule Extended) Generator Extended,
      start .stochastic settlingSettings settlingProblem .plain true (settling.point 0) =
        .ok solver ∧
      solve.on solver = (.ok (settling.point 3), final) ∧ final.pointConverged = true ∧
      final.customConverged = false ∧ final.iteration = 3 ∧ final.estimates = 4 ∧
      final.points = settling.visited 4 := by
  obtain ⟨solver, k, e, final, run, hstart, hsolve, ⟨-, hleast⟩, hfirst, hstopped, -⟩ :=
    solve_stops_first settling_returns .stochastic true
  have hle : k ≤ 3 := hleast ⟨.point, settling_ends⟩
  have hge : 3 ≤ k := Nat.le_of_not_lt fun hlt => settling_reaches k hlt e hfirst.1
  obtain rfl : k = 3 := Nat.le_antisymm hle hge
  have he : e = .point := by
    have hplace : e.place ≤ 1 := hfirst.2 .point settling_ends
    cases e with
    | limit => exact absurd (show 10 ≤ 3 from hfirst.1) (by decide)
    | point => rfl
    | custom => exact absurd hplace (by decide)
  subst he
  have hcustom : ¬final.customConverged = true := fun hflag =>
    nomatch hstopped.customConverged.mp hflag
  refine ⟨solver, final, hstart, hsolve, hstopped.pointConverged.mpr rfl,
    Bool.eq_false_iff.mpr hcustom, hstopped.iteration, hstopped.estimates, ?_⟩
  unfold points
  rw [hstopped.history]
  exact List.reverse_reverse _

end Stochastic

end Downhill
