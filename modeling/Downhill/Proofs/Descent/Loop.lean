import Downhill.Proofs.Descent.Course

/-!
# Rounds of the loop

A round of the loop is a check that lets the loop go on, an iteration, and a note of
it.  A run of a solver is a sequence of rounds, and the loop succeeds at the state
after the last of them.  A check and a note change nothing that an iteration reads.
-/

namespace Downhill

variable {R S α : Type}

namespace Descent

open DescentM

/-- What a run leaves as it is from its start to its end. -/
structure SameSetting (s t : Descent R S α) : Prop where
  settings : t.settings = s.settings
  objective : t.objective = s.objective
  search : t.search = s.search
  keepsHistory : t.keepsHistory = s.keepsHistory

/-- States of a solver that differ at most in what was measured, counted and announced. -/
structure Alike (s t : Descent R S α) : Prop extends SameSetting s t where
  history : t.history = s.history
  rule : t.rule = s.rule
  current : t.current = s.current

theorem SameSetting.refl (s : Descent R S α) : SameSetting s s := ⟨rfl, rfl, rfl, rfl⟩

theorem Alike.refl (s : Descent R S α) : Alike s s := ⟨SameSetting.refl s, rfl, rfl, rfl⟩

theorem SameSetting.trans {s t u : Descent R S α} (h : SameSetting s t) (h' : SameSetting t u) :
    SameSetting s u :=
  ⟨h'.settings.trans h.settings, h'.objective.trans h.objective, h'.search.trans h.search,
    h'.keepsHistory.trans h.keepsHistory⟩

theorem Alike.trans {s t u : Descent R S α} (h : Alike s t) (h' : Alike t u) : Alike s u :=
  ⟨h.toSameSetting.trans h'.toSameSetting, h'.history.trans h.history, h'.rule.trans h.rule,
    h'.current.trans h.current⟩

/-! ## Checks -/

theorem predicateHolds_on {s : Descent R S α} {holds : Bool}
    (hsome : ∀ p, s.settings.predicate = some p → p s.current.point = .ok holds)
    (hnone : s.settings.predicate = none → holds = false) :
    predicateHolds.on s = (.ok holds, s) := by
  unfold predicateHolds
  rw [on_bind (on_get s)]
  cases hpredicate : s.settings.predicate with
  | none =>
    rw [hnone hpredicate]
    rfl
  | some p =>
    dsimp only
    rw [hsome p hpredicate]
    rfl

theorem eq_of_predicateHolds {s t : Descent R S α} {holds : Bool}
    (h : predicateHolds.on s = (.ok holds, t)) : t = s := by
  unfold predicateHolds at h
  rw [on_bind (on_get s)] at h
  split at h
  · exact (congrArg Prod.snd h).symm
  · exact (exists_of_on_answer h).2

section Check

variable [Scalar α]

def gradientMeasured (s : Descent R S α) : Descent R S α :=
  { s with gradientNorm := Vec.norm s.current.gradient }

variable [DirectionRule R α]

def pointMeasured (s : Descent R S α) (change : α) : Descent R S α :=
  { s with
    pointChange := some change
    idlePoint := idleAfter s.idlePoint change s.settings.pointTolerance
    pointConverged := s.pointConverged || decide (s.pointPatience ≤
      idleAfter s.idlePoint change s.settings.pointTolerance) }

def valueMeasured (s : Descent R S α) (change : α) : Descent R S α :=
  { s with
    valueChange := some change
    idleValue := idleAfter s.idleValue change s.settings.valueTolerance
    valueConverged := s.valueConverged || decide (s.valuePatience ≤
      idleAfter s.idleValue change s.settings.valueTolerance) }

/-- The state after the changes that are checked have been measured. -/
def changesMeasured (s : Descent R S α) (pointChange valueChange : α) : Descent R S α :=
  let t := if s.settings.checksPoint then s.pointMeasured pointChange else s
  if s.settings.checksValue then t.valueMeasured valueChange else t

theorem changesMeasured_eq (s : Descent R S α) (pointChange valueChange : α) :
    s.changesMeasured pointChange valueChange = { s with
      pointChange := if s.settings.checksPoint then some pointChange else s.pointChange
      idlePoint := if s.settings.checksPoint then
          idleAfter s.idlePoint pointChange s.settings.pointTolerance
        else s.idlePoint
      pointConverged := if s.settings.checksPoint then
          s.pointConverged || decide (s.pointPatience ≤
            idleAfter s.idlePoint pointChange s.settings.pointTolerance)
        else s.pointConverged
      valueChange := if s.settings.checksValue then some valueChange else s.valueChange
      idleValue := if s.settings.checksValue then
          idleAfter s.idleValue valueChange s.settings.valueTolerance
        else s.idleValue
      valueConverged := if s.settings.checksValue then
          s.valueConverged || decide (s.valuePatience ≤
            idleAfter s.idleValue valueChange s.settings.valueTolerance)
        else s.valueConverged } := by
  unfold changesMeasured
  by_cases hpoint : s.settings.checksPoint = true
  · by_cases hvalue : s.settings.checksValue = true
    · simp only [if_pos hpoint, if_pos hvalue]
      rfl
    · simp only [if_pos hpoint, if_neg hvalue]
      rfl
  · by_cases hvalue : s.settings.checksValue = true
    · simp only [if_neg hpoint, if_pos hvalue]
      rfl
    · simp only [if_neg hpoint, if_neg hvalue]

theorem measurePoint_on {s : Descent R S α} {previous difference : Vec α}
    (hprevious : s.current.previousPoint = some previous)
    (hdifference : s.current.point.sub previous = .ok difference) :
    measurePoint.on s = (.ok (), s.pointMeasured (Vec.norm difference)) := by
  unfold measurePoint
  rw [on_bind (on_get s), hprevious]
  dsimp only
  rw [hdifference]
  rfl

theorem measureValue_on {s : Descent R S α} {previous : α}
    (hprevious : s.current.previousValue = some previous) :
    measureValue.on s = (.ok (), s.valueMeasured (Scalar.abs (s.current.value - previous))) := by
  unfold measureValue
  rw [on_bind (on_get s), hprevious]
  rfl

theorem alike_of_measurePoint {s t : Descent R S α} (h : measurePoint.on s = (.ok (), t)) :
    Alike s t := by
  unfold measurePoint at h
  rw [on_bind (on_get s)] at h
  split at h
  · obtain rfl : s = t := congrArg Prod.snd h
    exact Alike.refl s
  · obtain ⟨difference, _, hanswer, h⟩ := exists_of_on_bind h
    obtain ⟨-, rfl⟩ := exists_of_on_answer hanswer
    obtain rfl := congrArg Prod.snd h
    exact ⟨⟨rfl, rfl, rfl, rfl⟩, rfl, rfl, rfl⟩

theorem alike_of_measureValue {s t : Descent R S α} (h : measureValue.on s = (.ok (), t)) :
    Alike s t := by
  unfold measureValue at h
  rw [on_bind (on_get s)] at h
  split at h
  · obtain rfl : s = t := congrArg Prod.snd h
    exact Alike.refl s
  · obtain rfl := congrArg Prod.snd h
    exact ⟨⟨rfl, rfl, rfl, rfl⟩, rfl, rfl, rfl⟩

/-- A check reads the state and measures, and that is all. -/
theorem alike_of_check {s t : Descent R S α} {stops : Bool} (h : check.on s = (.ok stops, t)) :
    Alike s t := by
  have hnoted : Alike s s.gradientMeasured := ⟨⟨rfl, rfl, rfl, rfl⟩, rfl, rfl, rfl⟩
  unfold check at h
  rw [on_bind (on_modify s _)] at h
  change DescentM.on _ s.gradientMeasured = _ at h
  generalize s.gradientMeasured = u at h hnoted
  refine hnoted.trans ?_
  rw [on_bind (on_get u)] at h
  dsimp only at h
  split at h
  · obtain rfl := congrArg Prod.snd h
    exact ⟨⟨rfl, rfl, rfl, rfl⟩, rfl, rfl, rfl⟩
  obtain ⟨holds, _, hpredicate, h⟩ := exists_of_on_bind h
  obtain rfl := eq_of_predicateHolds hpredicate
  split at h
  · obtain rfl := congrArg Prod.snd h
    exact ⟨⟨rfl, rfl, rfl, rfl⟩, rfl, rfl, rfl⟩
  split at h
  · obtain rfl := congrArg Prod.snd h
    exact Alike.refl _
  split at h
  · obtain rfl := congrArg Prod.snd h
    exact Alike.refl _
  -- Either measurement is left out when its change is not checked.
  split at h
  · obtain ⟨_, v, hmeasured, h⟩ := exists_of_on_bind h
    refine (alike_of_measurePoint hmeasured).trans ?_
    split at h
    · obtain ⟨_, w, hmeasured, h⟩ := exists_of_on_bind h
      obtain rfl := congrArg Prod.snd h
      exact alike_of_measureValue hmeasured
    · obtain rfl := congrArg Prod.snd h
      exact Alike.refl v
  · split at h
    · obtain ⟨_, w, hmeasured, h⟩ := exists_of_on_bind h
      obtain rfl := congrArg Prod.snd h
      exact alike_of_measureValue hmeasured
    · obtain rfl := congrArg Prod.snd h
      exact Alike.refl _

section Later

variable {s u : Descent R S α} (hu : s.gradientMeasured = u)
  (hlong : (u.settings.checksGradient && gradientIsShort u.gradientNorm
    u.settings.gradientTolerance) = false)
include hu hlong

theorem check_of_predicate (hpredicate : predicateHolds.on u = (.ok true, u)) :
    check.on s = (.ok true, { u with customConverged := true }) := by
  unfold check
  rw [on_bind (on_modify s _)]
  change DescentM.on _ s.gradientMeasured = _
  rw [hu, on_bind (on_get u)]
  dsimp only
  rw [if_neg (Bool.eq_false_iff.mp hlong), on_bind hpredicate, if_pos rfl]
  rfl

variable (hpredicate : predicateHolds.on u = (.ok false, u))
include hpredicate

theorem check_of_limit (hlimit : u.settings.maxIterations ≤ u.current.iteration) :
    check.on s = (.ok true, u) := by
  unfold check
  rw [on_bind (on_modify s _)]
  change DescentM.on _ s.gradientMeasured = _
  rw [hu, on_bind (on_get u)]
  dsimp only
  rw [if_neg (Bool.eq_false_iff.mp hlong), on_bind hpredicate, if_neg Bool.false_ne_true,
    if_pos hlimit]
  rfl

variable (hlimit : ¬u.settings.maxIterations ≤ u.current.iteration)
include hlimit

/-- Before the first iteration there is no change to measure. -/
theorem check_of_first (hfirst : u.current.iteration = 0) : check.on s = (.ok false, u) := by
  unfold check
  rw [on_bind (on_modify s _)]
  change DescentM.on _ s.gradientMeasured = _
  rw [hu, on_bind (on_get u)]
  dsimp only
  rw [if_neg (Bool.eq_false_iff.mp hlong), on_bind hpredicate, if_neg Bool.false_ne_true,
    if_neg hlimit, if_pos hfirst]
  rfl

theorem check_of_changes {previous difference : Vec α} {previousValue : α}
    (hlater : u.current.iteration ≠ 0) (hprevious : u.current.previousPoint = some previous)
    (hdifference : u.current.point.sub previous = .ok difference)
    (hvalue : u.current.previousValue = some previousValue) :
    check.on s =
      let measured := u.changesMeasured (Vec.norm difference)
        (Scalar.abs (u.current.value - previousValue))
      (.ok (measured.pointConverged || measured.valueConverged), measured) := by
  unfold check
  rw [on_bind (on_modify s _)]
  change DescentM.on _ s.gradientMeasured = _
  rw [hu, on_bind (on_get u)]
  dsimp only
  rw [if_neg (Bool.eq_false_iff.mp hlong), on_bind hpredicate, if_neg Bool.false_ne_true,
    if_neg hlimit, if_neg hlater]
  unfold changesMeasured
  dsimp only
  by_cases hpoint : u.settings.checksPoint = true
  · rw [if_pos hpoint, if_pos hpoint, on_bind (measurePoint_on hprevious hdifference)]
    by_cases hchecks : u.settings.checksValue = true
    · rw [if_pos hchecks, if_pos hchecks,
        on_bind (measureValue_on (s := u.pointMeasured (Vec.norm difference)) hvalue)]
      rfl
    · rw [if_neg hchecks, if_neg hchecks]
      rfl
  · rw [if_neg hpoint, if_neg hpoint]
    by_cases hchecks : u.settings.checksValue = true
    · rw [if_pos hchecks, if_pos hchecks, on_bind (measureValue_on hvalue)]
      rfl
    · rw [if_neg hchecks, if_neg hchecks]
      rfl

end Later

end Check

/-! ## Rounds -/

section Rounds

variable [Scalar α] [DirectionRule R α] [LineSearch S α]

/-- A round of the loop leads from one state to the next. -/
def Passes (s t : Descent R S α) : Prop :=
  ∃ checked advanced, check.on s = (.ok false, checked) ∧
    advance.on checked = (.ok (), advanced) ∧ record.on advanced = (.ok (), t)

/-- The states of a solver at the head of its loop, up to a number of iterations. -/
structure IsRun (solver : Descent R S α) (run : Nat → Descent R S α) (n : Nat) : Prop where
  start : run 0 = solver.announce (.started solver.kind)
  passes : ∀ k < n, Passes (run k) (run (k + 1))

/-- A round moves on along every course that has its results for the next entries, and
the point that was reached is noted if points are kept. -/
theorem Passes.follows {c : Course R α} {k : Nat} {s t : Descent R S α} (h : Passes s t)
    (hs : c.Describes k s) (hrule : c.rule (k + 1) = t.rule)
    (hpoint : c.point (k + 1) = t.current.point)
    (hgradient : c.gradient (k + 1) = t.current.gradient)
    (hvalue : c.value (k + 1) = t.current.value)
    (hdirection : c.direction k = t.current.direction.getD [])
    (hstep : c.step k = t.current.step) :
    c.Follows s.settings s.objective s.search k ∧ c.Describes (k + 1) t ∧ SameSetting s t ∧
      t.history = if s.keepsHistory then c.point (k + 1) :: s.history else s.history := by
  obtain ⟨checked, advanced, hcheck, hadvance, hrecord⟩ := h
  have halike := alike_of_check hcheck
  have hchecked : c.Describes k checked :=
    ⟨halike.rule.trans hs.rule, halike.current.trans hs.current⟩
  obtain ⟨events, hrecorded⟩ := record_on advanced
  obtain rfl : { advanced with
      history := if advanced.keepsHistory then advanced.current.point :: advanced.history
        else advanced.history
      events } = t := congrArg Prod.snd (hrecorded.symm.trans hrecord)
  obtain ⟨hfollows, tally, events', rfl⟩ := hchecked.of_advance hadvance hrule hpoint hgradient
    hvalue hdirection hstep
  rw [halike.settings, halike.objective, halike.search] at hfollows
  refine ⟨hfollows, ⟨rfl, rfl⟩, ⟨halike.settings, halike.objective, halike.search,
    halike.keepsHistory⟩, ?_⟩
  dsimp only
  rw [halike.keepsHistory, halike.history]
  rfl

/-- The loop succeeds at the state after its last round. -/
theorem exists_run_of_iterate {left : Nat} {s final : Descent R S α}
    (h : (iterate left).on s = (.ok (), final)) :
    ∃ n ≤ left, ∃ run : Nat → Descent R S α, run 0 = s ∧
      (∀ k < n, Passes (run k) (run (k + 1))) ∧ ∃ stops, check.on (run n) = (.ok stops, final) := by
  induction left generalizing s with
  | zero =>
    unfold iterate at h
    obtain ⟨stops, u, hcheck, h⟩ := exists_of_on_bind h
    obtain rfl : u = final := congrArg Prod.snd h
    exact ⟨0, Nat.le_refl 0, fun _ => s, rfl, fun k hk => absurd hk k.not_lt_zero, stops, hcheck⟩
  | succ left ih =>
    unfold iterate at h
    obtain ⟨stops, checked, hcheck, h⟩ := exists_of_on_bind h
    cases stops with
    | true =>
      obtain rfl : checked = final := congrArg Prod.snd h
      exact ⟨0, Nat.zero_le _, fun _ => s, rfl, fun k hk => absurd hk k.not_lt_zero, true, hcheck⟩
    | false =>
      rw [if_neg Bool.false_ne_true] at h
      obtain ⟨_, advanced, hadvance, h⟩ := exists_of_on_bind h
      obtain ⟨_, recorded, hrecord, h⟩ := exists_of_on_bind h
      obtain ⟨n, hn, run, hrun, hpasses, stops, hlast⟩ := ih h
      -- The first round is put before the run of the rest.
      refine ⟨n + 1, Nat.succ_le_succ hn, fun k => Nat.casesOn k s run, rfl, ?_, stops, hlast⟩
      intro k hk
      cases k with
      | zero =>
        show Passes s (run 0)
        rw [hrun]
        exact ⟨checked, advanced, hcheck, hadvance, hrecord⟩
      | succ k => exact hpasses k (Nat.lt_of_succ_lt_succ hk)

theorem exists_run_of_solve {solver final : Descent R S α} {x : Vec α}
    (h : solve.on solver = (.ok x, final)) :
    ∃ n ≤ solver.settings.maxIterations - solver.current.iteration,
      ∃ run, IsRun solver run n ∧ ∃ stops checked, check.on (run n) = (.ok stops, checked) ∧
        x = checked.point ∧ final = checked.announce
          (.finished checked.verdict checked.current.iteration checked.current.value) := by
  unfold solve at h
  rw [on_bind (on_modify solver _), on_bind (on_get _)] at h
  obtain ⟨_, checked, hloop, h⟩ := exists_of_on_bind h
  obtain ⟨n, hn, run, hstart, hpasses, stops, hcheck⟩ := exists_run_of_iterate hloop
  rw [on_bind (on_get checked), on_bind (on_modify checked _)] at h
  cases h
  exact ⟨n, hn, run, ⟨hstart, hpasses⟩, stops, checked, hcheck, rfl, rfl⟩

end Rounds

end Descent

end Downhill
