import Downhill.Proofs.Descent.Ending
import Downhill.Proofs.LineSearch.Exact
import Mathlib.Order.Bounds.Defs
import Mathlib.Tactic.NormNum
import Mathlib.Tactic.Ring

/-!
# Where a run stops

The loop counts small changes instead of looking back at them, and its checks return
early.  It stops at the first entry at which there is a reason to all the same, and it
reports the first reason there.  The counts agree with the changes up to the last check
in which they were made, and that is the last one but one when a check begins.
-/

namespace Downhill

namespace Course

open Descent DescentM

variable {R S α : Type} [Scalar α] [DirectionRule R α]

section Tracks

variable (c : Course R α) (settings : DescentSettings α) (k : Nat)

/-- A solver at an entry that has counted idle iterations, and looked for an end, up to
an entry that need not be the same. -/
structure Tracks (objective : Objective α) (search : S) (counted : Nat)
    (s : Descent R S α) : Prop extends c.Describes k s where
  idlePoint : settings.checksPoint = true →
    CountsIdle (c.PointIdle settings) counted s.idlePoint
  idleValue : settings.checksValue = true →
    CountsIdle (c.ValueIdle settings) counted s.idleValue
  gradientConverged : s.gradientConverged = false
  customConverged : s.customConverged = false
  pointConverged : s.pointConverged = true ↔ c.Ends settings counted .point
  valueConverged : s.valueConverged = true ↔ c.Ends settings counted .value
  objective : s.objective = objective
  search : s.search = search
  settings : s.settings = settings

end Tracks

variable {c : Course R α} {settings : DescentSettings α} {k m : Nat} {objective : Objective α}
  {search : S} {s t : Descent R S α}

theorem Tracks.not_converged (h : c.Tracks settings k objective search (k - 1) s)
    (hreaches : c.Reaches settings k) : s.pointConverged = false ∧ s.valueConverged = false := by
  constructor
  · exact Bool.eq_false_iff.mpr fun hflag =>
      hreaches.not_ends_pred (Or.inl rfl) (h.pointConverged.mp hflag)
  · exact Bool.eq_false_iff.mpr fun hflag =>
      hreaches.not_ends_pred (Or.inr rfl) (h.valueConverged.mp hflag)

/-- After the changes at an entry have been measured, the counts go up to it, and a change
that is checked is known. -/
theorem Tracks.changesMeasured {difference : Vec α}
    (h : c.Tracks settings (k + 1) objective search k s) (hreaches : c.Reaches settings (k + 1))
    (hdifference : (c.point (k + 1)).sub (c.point k) = .ok difference)
    (ht : s.changesMeasured (Vec.norm difference) (c.valueChange (k + 1)) = t) :
    c.Tracks settings (k + 1) objective search (k + 1) t ∧
      (settings.checksPoint = true → t.pointChange = c.pointChange (k + 1)) ∧
      (settings.checksValue = true → t.valueChange = some (c.valueChange (k + 1))) := by
  have hchange : c.pointChange (k + 1) = some (Vec.norm difference) := by
    unfold pointChange
    rw [Nat.add_sub_cancel, hdifference]
    rfl
  have hidle : c.PointIdle settings (k + 1) ↔ Vec.norm difference ≤ settings.pointTolerance := by
    unfold PointIdle
    rw [hchange]
    exact ⟨fun ⟨_, hsome, hle⟩ => Option.some.inj hsome ▸ hle, fun hle => ⟨_, rfl, hle⟩⟩
  obtain ⟨hpoint, hvalue⟩ := h.not_converged hreaches
  subst ht
  rw [Descent.changesMeasured_eq, hpoint, hvalue, h.toDescribes.pointPatience h.settings,
    h.toDescribes.valuePatience h.settings, h.settings]
  refine ⟨⟨⟨h.rule, h.current⟩, ?_, ?_, h.gradientConverged, h.customConverged, ?_, ?_,
    h.objective, h.search, rfl⟩, ?_, ?_⟩
  · intro hchecks
    simp only [if_pos hchecks]
    exact (h.idlePoint hchecks).succ hidle
  · intro hchecks
    simp only [if_pos hchecks]
    exact (h.idleValue hchecks).succ Iff.rfl
  · by_cases hchecks : settings.checksPoint = true
    · simp only [if_pos hchecks, Bool.false_or, decide_eq_true_eq]
      rw [(h.idlePoint hchecks).succ hidle (c.pointPatience settings (k + 1))]
      exact ⟨fun hstalled => ⟨hchecks, k.succ_pos, hstalled⟩, fun hends => hends.2.2⟩
    · simp only [if_neg hchecks]
      exact iff_of_false Bool.false_ne_true fun hends => hchecks hends.1
  · by_cases hchecks : settings.checksValue = true
    · simp only [if_pos hchecks, Bool.false_or, decide_eq_true_eq]
      rw [(h.idleValue hchecks).succ Iff.rfl (c.valuePatience settings (k + 1))]
      exact ⟨fun hstalled => ⟨hchecks, k.succ_pos, hstalled⟩, fun hends => hends.2.2⟩
    · simp only [if_neg hchecks]
      exact iff_of_false Bool.false_ne_true fun hends => hchecks hends.1
  · intro hchecks
    simp only [if_pos hchecks, hchange]
  · intro hchecks
    simp only [if_pos hchecks]

/-! ## Checks along a course -/

theorem Tracks.gradientIsShort_iff (h : c.Tracks settings k objective search m s) :
    (s.settings.checksGradient && Descent.gradientIsShort (Vec.norm s.current.gradient)
      s.settings.gradientTolerance) = true ↔ c.Ends settings k .gradient := by
  rw [Bool.and_eq_true, h.settings, h.current]
  unfold Descent.gradientIsShort
  rw [decide_eq_true_eq]
  rfl

theorem Tracks.gradientMeasured (h : c.Tracks settings k objective search m s) :
    c.Tracks settings k objective search m s.gradientMeasured :=
  ⟨⟨h.rule, h.current⟩, h.idlePoint, h.idleValue, h.gradientConverged, h.customConverged,
    h.pointConverged, h.valueConverged, h.objective, h.search, h.settings⟩

theorem Tracks.check_of_gradient (h : c.Tracks settings k objective search (k - 1) s)
    (hreaches : c.Reaches settings k) (hends : c.Ends settings k .gradient) :
    ∃ t, check.on s = (.ok true, t) ∧ c.EndsFirst settings k .gradient ∧
      c.StoppedBy settings k .gradient t := by
  obtain ⟨hpoint, hvalue⟩ := h.not_converged hreaches
  obtain ⟨hchecks, hshort⟩ := Bool.and_eq_true_iff.mp (h.gradientIsShort_iff.mpr hends)
  refine ⟨_, check_of_short hchecks hshort, ⟨hends, fun _ _ => Nat.zero_le _⟩, ?_⟩
  refine .of_early (fun heq => nomatch heq) (fun heq => nomatch heq) hends ⟨h.rule, h.current⟩
    h.settings (iff_of_true rfl rfl) ?_ hpoint hvalue
  exact iff_of_false (Bool.eq_false_iff.mp h.customConverged) fun heq => nomatch heq

theorem Tracks.check_of_custom (h : c.Tracks settings k objective search (k - 1) s)
    (hreaches : c.Reaches settings k) (hlong : ¬c.Ends settings k .gradient)
    (hends : c.Ends settings k .custom) :
    ∃ t, check.on s = (.ok true, t) ∧ c.EndsFirst settings k .custom ∧
      c.StoppedBy settings k .custom t := by
  obtain ⟨hpoint, hvalue⟩ := h.not_converged hreaches
  obtain ⟨predicate, hpredicate, hholds⟩ := hends
  have hon : predicateHolds.on s.gradientMeasured = (.ok true, s.gradientMeasured) := by
    refine predicateHolds_on ?_ ?_
    · intro p hp
      obtain rfl : predicate = p :=
        Option.some.inj (hpredicate.symm.trans (h.settings ▸ hp))
      rw [← hholds, h.gradientMeasured.current]
      rfl
    · intro hnone
      rw [show s.gradientMeasured.settings = settings from h.settings, hpredicate] at hnone
      cases hnone
  have hcheck := check_of_predicate rfl
    (Bool.eq_false_iff.mpr (mt h.gradientIsShort_iff.mp hlong)) hon
  refine ⟨_, hcheck, ⟨⟨predicate, hpredicate, hholds⟩, ?_⟩, ?_⟩
  · intro e he
    cases e with
    | gradient => exact absurd he hlong
    | custom | limit | point | value => decide
  · refine .of_early (fun heq => nomatch heq) (fun heq => nomatch heq)
      ⟨predicate, hpredicate, hholds⟩ ⟨h.rule, h.current⟩ h.settings ?_ (iff_of_true rfl rfl)
      hpoint hvalue
    exact iff_of_false (Bool.eq_false_iff.mp h.gradientConverged) fun heq => nomatch heq

theorem Tracks.predicateFails (h : c.Tracks settings k objective search m s)
    (hreturns : ∀ p, settings.predicate = some p → ∃ holds, p (c.point k) = .ok holds)
    (hcustom : ¬c.Ends settings k .custom) :
    predicateHolds.on s.gradientMeasured = (.ok false, s.gradientMeasured) := by
  refine predicateHolds_on ?_ fun _ => rfl
  intro p hp
  have hsome : settings.predicate = some p := h.settings ▸ hp
  obtain ⟨holds, hp'⟩ := hreturns p hsome
  rw [h.gradientMeasured.current]
  show p (c.point k) = _
  cases holds with
  | true => exact absurd ⟨p, hsome, hp'⟩ hcustom
  | false => exact hp'

theorem Tracks.check_of_limit (h : c.Tracks settings k objective search (k - 1) s)
    (hreaches : c.Reaches settings k)
    (hreturns : ∀ p, settings.predicate = some p → ∃ holds, p (c.point k) = .ok holds)
    (hlong : ¬c.Ends settings k .gradient) (hcustom : ¬c.Ends settings k .custom)
    (hends : c.Ends settings k .limit) :
    ∃ t, check.on s = (.ok true, t) ∧ c.EndsFirst settings k .limit ∧
      c.StoppedBy settings k .limit t := by
  obtain ⟨hpoint, hvalue⟩ := h.not_converged hreaches
  have hiteration : s.gradientMeasured.current.iteration = k := by
    rw [h.gradientMeasured.current]
    rfl
  refine ⟨s.gradientMeasured, ?_, ⟨hends, ?_⟩, ?_⟩
  · refine Descent.check_of_limit rfl (Bool.eq_false_iff.mpr (mt h.gradientIsShort_iff.mp hlong))
      (h.predicateFails hreturns hcustom) ?_
    rw [hiteration, h.gradientMeasured.settings]
    exact hends
  · intro e he
    cases e with
    | gradient => exact absurd he hlong
    | custom => exact absurd he hcustom
    | limit | point | value => decide
  · refine .of_early (fun heq => nomatch heq) (fun heq => nomatch heq) hends
      ⟨h.rule, h.current⟩ h.settings ?_ ?_ hpoint hvalue
    · exact iff_of_false (Bool.eq_false_iff.mp h.gradientConverged) fun heq => nomatch heq
    · exact iff_of_false (Bool.eq_false_iff.mp h.customConverged) fun heq => nomatch heq

theorem Tracks.check_of_zero (h : c.Tracks settings 0 objective search 0 s)
    (hreturns : ∀ p, settings.predicate = some p → ∃ holds, p (c.point 0) = .ok holds)
    (hlong : ¬c.Ends settings 0 .gradient) (hcustom : ¬c.Ends settings 0 .custom)
    (hlimit : ¬c.Ends settings 0 .limit) :
    check.on s = (.ok false, s.gradientMeasured) ∧ ∀ e, ¬c.Ends settings 0 e := by
  have hiteration : s.gradientMeasured.current.iteration = 0 := by
    rw [h.gradientMeasured.current]
    rfl
  constructor
  · refine check_of_first rfl (Bool.eq_false_iff.mpr (mt h.gradientIsShort_iff.mp hlong))
      (h.predicateFails hreturns hcustom) ?_ hiteration
    rw [hiteration, h.gradientMeasured.settings]
    exact hlimit
  · intro e
    cases e with
    | gradient => exact hlong
    | custom => exact hcustom
    | limit => exact hlimit
    | point | value => exact fun hends => absurd hends.2.1 (Nat.lt_irrefl 0)

/-- A check that gets to the changes goes by the flags it sets. -/
theorem Tracks.check_of_changes (h : c.Tracks settings (k + 1) objective search k s)
    (hreaches : c.Reaches settings (k + 1))
    (hreturns : ∀ p, settings.predicate = some p → ∃ holds, p (c.point (k + 1)) = .ok holds)
    (hfits : ∃ difference, (c.point (k + 1)).sub (c.point k) = .ok difference)
    (hlong : ¬c.Ends settings (k + 1) .gradient) (hcustom : ¬c.Ends settings (k + 1) .custom)
    (hlimit : ¬c.Ends settings (k + 1) .limit) :
    ∃ t, check.on s = (.ok (t.pointConverged || t.valueConverged), t) ∧
      c.Tracks settings (k + 1) objective search (k + 1) t ∧
      (settings.checksPoint = true → t.pointChange = c.pointChange (k + 1)) ∧
      (settings.checksValue = true → t.valueChange = some (c.valueChange (k + 1))) := by
  obtain ⟨difference, hdifference⟩ := hfits
  have hcurrent := h.gradientMeasured.current
  have hbelow : ¬s.gradientMeasured.settings.maxIterations ≤
      s.gradientMeasured.current.iteration := by
    rw [hcurrent, h.gradientMeasured.settings]
    exact hlimit
  have hlater : s.gradientMeasured.current.iteration ≠ 0 := by
    rw [hcurrent]
    exact k.succ_ne_zero
  have hprevious : s.gradientMeasured.current.previousPoint = some (c.point k) := by
    rw [hcurrent]
    rfl
  have hpreviousValue : s.gradientMeasured.current.previousValue = some (c.value k) := by
    rw [hcurrent]
    rfl
  have hmoved : s.gradientMeasured.current.point.sub (c.point k) = .ok difference := by
    rw [hcurrent]
    exact hdifference
  have hcheck := Descent.check_of_changes rfl
    (Bool.eq_false_iff.mpr (mt h.gradientIsShort_iff.mp hlong)) (h.predicateFails hreturns hcustom)
    hbelow hlater hprevious hmoved hpreviousValue
  rw [hcurrent] at hcheck
  exact ⟨_, hcheck, h.gradientMeasured.changesMeasured hreaches hdifference rfl⟩

/-- The check at a later entry, if none of the early tests ends the run. -/
theorem Tracks.check_of_succ (h : c.Tracks settings (k + 1) objective search k s)
    (hreaches : c.Reaches settings (k + 1))
    (hreturns : ∀ p, settings.predicate = some p → ∃ holds, p (c.point (k + 1)) = .ok holds)
    (hfits : ∃ difference, (c.point (k + 1)).sub (c.point k) = .ok difference)
    (hlong : ¬c.Ends settings (k + 1) .gradient) (hcustom : ¬c.Ends settings (k + 1) .custom)
    (hlimit : ¬c.Ends settings (k + 1) .limit) :
    (∃ e t, check.on s = (.ok true, t) ∧ c.EndsFirst settings (k + 1) e ∧
      c.StoppedBy settings (k + 1) e t) ∨
    ∃ t, check.on s = (.ok false, t) ∧ (∀ e, ¬c.Ends settings (k + 1) e) ∧
      c.Tracks settings (k + 1) objective search (k + 1) t := by
  obtain ⟨t, hcheck, htracks, hpointChange, hvalueChange⟩ :=
    h.check_of_changes hreaches hreturns hfits hlong hcustom hlimit
  have hgradientConverged := Bool.eq_false_iff.mp htracks.gradientConverged
  have hcustomConverged := Bool.eq_false_iff.mp htracks.customConverged
  by_cases hpoint : c.Ends settings (k + 1) .point
  · have hflag := htracks.pointConverged.mpr hpoint
    rw [hflag, Bool.true_or] at hcheck
    refine Or.inl ⟨.point, t, hcheck, ⟨hpoint, ?_⟩, .of_flags hpoint htracks.toDescribes
      htracks.settings ?_ ?_ (iff_of_true hflag rfl) ?_ (fun _ => hpointChange hpoint.1)
      fun heq => nomatch heq⟩
    · intro e he
      cases e with
      | gradient => exact absurd he hlong
      | custom => exact absurd he hcustom
      | limit => exact absurd he hlimit
      | point | value => decide
    · exact iff_of_false hgradientConverged fun heq => nomatch heq
    · exact iff_of_false hcustomConverged fun heq => nomatch heq
    · rw [htracks.valueConverged]
      exact (and_iff_right (Or.inl rfl)).symm
  have hpointFlag : t.pointConverged = false :=
    Bool.eq_false_iff.mpr fun hflag => hpoint (htracks.pointConverged.mp hflag)
  rw [hpointFlag, Bool.false_or] at hcheck
  by_cases hvalue : c.Ends settings (k + 1) .value
  · have hflag := htracks.valueConverged.mpr hvalue
    rw [hflag] at hcheck
    refine Or.inl ⟨.value, t, hcheck, ⟨hvalue, ?_⟩, .of_flags hvalue htracks.toDescribes
      htracks.settings ?_ ?_ ?_ (iff_of_true hflag ⟨Or.inr rfl, hvalue⟩)
      (fun heq => nomatch heq) fun _ => hvalueChange hvalue.1⟩
    · intro e he
      cases e with
      | gradient => exact absurd he hlong
      | custom => exact absurd he hcustom
      | limit => exact absurd he hlimit
      | point => exact absurd he hpoint
      | value => exact Nat.le_refl _
    · exact iff_of_false hgradientConverged fun heq => nomatch heq
    · exact iff_of_false hcustomConverged fun heq => nomatch heq
    · exact iff_of_false (Bool.eq_false_iff.mp hpointFlag) fun heq => nomatch heq
  have hvalueFlag : t.valueConverged = false :=
    Bool.eq_false_iff.mpr fun hflag => hvalue (htracks.valueConverged.mp hflag)
  rw [hvalueFlag] at hcheck
  refine Or.inr ⟨t, hcheck, ?_, htracks⟩
  intro e
  cases e with
  | gradient => exact hlong
  | custom => exact hcustom
  | limit => exact hlimit
  | point => exact hpoint
  | value => exact hvalue

/-- A check ends the run for the first reason there is, or there is none. -/
theorem Tracks.check_cases_of (h : c.Tracks settings k objective search (k - 1) s)
    (hpredicate : ¬c.Ends settings k .gradient →
      ∀ p, settings.predicate = some p → ∃ holds, p (c.point k) = .ok holds)
    (hfits : ∀ j, k = j + 1 → ∃ difference, (c.point (j + 1)).sub (c.point j) = .ok difference)
    (hreaches : c.Reaches settings k) :
    (∃ e t, check.on s = (.ok true, t) ∧ c.EndsFirst settings k e ∧ c.StoppedBy settings k e t) ∨
      ∃ t, check.on s = (.ok false, t) ∧ (∀ e, ¬c.Ends settings k e) ∧
        c.Tracks settings k objective search k t := by
  by_cases hshort : c.Ends settings k .gradient
  · exact Or.inl ⟨.gradient, h.check_of_gradient hreaches hshort⟩
  by_cases hcustom : c.Ends settings k .custom
  · exact Or.inl ⟨.custom, h.check_of_custom hreaches hshort hcustom⟩
  have hpredicate := hpredicate hshort
  by_cases hlimit : c.Ends settings k .limit
  · exact Or.inl ⟨.limit, h.check_of_limit hreaches hpredicate hshort hcustom hlimit⟩
  cases k with
  | zero =>
    obtain ⟨hcheck, hends⟩ := h.check_of_zero hpredicate hshort hcustom hlimit
    exact Or.inr ⟨_, hcheck, hends, h.gradientMeasured⟩
  | succ k =>
    exact h.check_of_succ hreaches hpredicate (hfits k rfl) hshort hcustom hlimit

/-! ## The loop -/

variable [LineSearch S α]

omit [LineSearch S α] in
variable (c settings objective search) in
/-- The calls of a run all return, as far as the run gets, and the course is made of what
they return. -/
structure Returns [LineSearch S α] : Prop where
  gradient : objective.gradient (c.point 0) = .ok (c.gradient 0)
  value : objective.value (c.point 0) = .ok (c.value 0)
  predicate : ∀ k, c.Reaches settings k → ¬c.Ends settings k .gradient →
    ∀ p, settings.predicate = some p → ∃ holds, p (c.point k) = .ok holds
  follows : ∀ k, c.Reaches settings (k + 1) → c.Follows settings objective search k

theorem Tracks.check_cases (hreturns : c.Returns settings objective search)
    (h : c.Tracks settings k objective search (k - 1) s) (hreaches : c.Reaches settings k) :
    (∃ e t, check.on s = (.ok true, t) ∧ c.EndsFirst settings k e ∧ c.StoppedBy settings k e t) ∨
      ∃ t, check.on s = (.ok false, t) ∧ (∀ e, ¬c.Ends settings k e) ∧
        c.Tracks settings k objective search k t := by
  refine h.check_cases_of (hreturns.predicate k hreaches) ?_ hreaches
  rintro k rfl
  exact (hreturns.follows k hreaches).exists_sub

theorem Tracks.round (hfollows : c.Follows settings objective search k)
    (h : c.Tracks settings k objective search k s) :
    ∃ advanced t, advance.on s = (.ok (), advanced) ∧ record.on advanced = (.ok (), t) ∧
      c.Tracks settings (k + 1) objective search k t := by
  rw [← h.settings, ← h.objective, ← h.search] at hfollows
  obtain ⟨tally, events, hadvance⟩ := hfollows.advance_on h.toDescribes
  obtain ⟨events', hrecord⟩ := record_on
    { s with rule := c.rule (k + 1), current := c.iterate (k + 1), tally, events }
  exact ⟨_, _, hadvance, hrecord, ⟨rfl, rfl⟩, h.idlePoint, h.idleValue, h.gradientConverged,
    h.customConverged, h.pointConverged, h.valueConverged, h.objective, h.search, h.settings⟩

theorem Tracks.iterate_on (hreturns : c.Returns settings objective search) {left : Nat}
    (hleft : left = settings.maxIterations - k)
    (h : c.Tracks settings k objective search (k - 1) s) (hreaches : c.Reaches settings k) :
    ∃ j e t, (Descent.iterate left).on s = (.ok (), t) ∧ c.Reaches settings j ∧
      c.EndsFirst settings j e ∧ c.StoppedBy settings j e t := by
  induction left generalizing k s with
  | zero =>
    rcases h.check_cases hreturns hreaches with ⟨e, t, hcheck, hfirst, hstopped⟩ | ⟨_, _, hends, -⟩
    · exact ⟨k, e, t, iterate_of_stop 0 hcheck, hreaches, hfirst, hstopped⟩
    · exact absurd (Nat.sub_eq_zero_iff_le.mp hleft.symm) (hends .limit)
  | succ left ih =>
    rcases h.check_cases hreturns hreaches with
      ⟨e, t, hcheck, hfirst, hstopped⟩ | ⟨checked, hcheck, hends, htracks⟩
    · exact ⟨k, e, t, iterate_of_stop _ hcheck, hreaches, hfirst, hstopped⟩
    · have hreaches' := hreaches.succ hends
      obtain ⟨advanced, recorded, hadvance, hrecord, hnext⟩ :=
        htracks.round (hreturns.follows k hreaches')
      rw [iterate_succ left hcheck hadvance hrecord]
      exact ih (by omega) hnext hreaches'

end Course

namespace Descent

open Course

variable {R S α : Type} [Scalar α] [DirectionRule R α] [LineSearch S α]

omit [LineSearch S α] in
/-- A solver that has just been started has counted nothing. -/
theorem tracks_zero_of_start {c : Course R α} {settings : DescentSettings α}
    {objective : Objective α} {search : S} {kind : SolverKind} {counts keeps : Bool}
    {solver : Descent R S α} (hgradient : objective.gradient (c.point 0) = .ok (c.gradient 0))
    (hvalue : objective.value (c.point 0) = .ok (c.value 0))
    (hstart : start kind settings objective (c.rule 0) search counts keeps (c.point 0) =
      .ok solver) :
    c.Tracks settings 0 objective search 0 (solver.announce (.started solver.kind)) := by
  obtain ⟨tally, heq⟩ := start_eq hgradient hvalue kind settings (c.rule 0) search counts keeps
  cases heq.symm.trans hstart
  refine ⟨⟨rfl, rfl⟩, fun _ => countsIdle_zero _, fun _ => countsIdle_zero _, rfl, rfl, ?_, ?_,
    rfl, rfl, rfl⟩
  · exact iff_of_false Bool.false_ne_true fun hends => absurd hends.2.1 (Nat.lt_irrefl 0)
  · exact iff_of_false Bool.false_ne_true fun hends => absurd hends.2.1 (Nat.lt_irrefl 0)

theorem tracks_of_start {c : Course R α} {settings : DescentSettings α} {objective : Objective α}
    {search : S} (h : c.Returns settings objective search) (kind : SolverKind)
    (counts keeps : Bool) :
    ∃ solver, start kind settings objective (c.rule 0) search counts keeps (c.point 0) =
        .ok solver ∧
      c.Tracks settings 0 objective search 0 (solver.announce (.started solver.kind)) := by
  obtain ⟨tally, hstart⟩ := start_eq h.gradient h.value kind settings (c.rule 0) search counts keeps
  exact ⟨_, hstart, tracks_zero_of_start h.gradient h.value hstart⟩

theorem solve_of_tracks {c : Course R α} {settings : DescentSettings α} {objective : Objective α}
    {search : S} {solver : Descent R S α} (h : c.Returns settings objective search)
    (htracks : c.Tracks settings 0 objective search 0 (solver.announce (.started solver.kind))) :
    ∃ k e final, solve.on solver = (.ok (c.point k), final) ∧ c.Reaches settings k ∧
      c.EndsFirst settings k e ∧ c.StoppedBy settings k e final := by
  have hleft : solver.settings.maxIterations - solver.current.iteration =
      settings.maxIterations - 0 := by
    rw [show solver.settings = settings from htracks.settings,
      show solver.current = c.iterate 0 from htracks.current]
    rfl
  obtain ⟨k, e, t, hloop, hreaches, hfirst, hstopped⟩ :=
    htracks.iterate_on h hleft fun j hj => absurd hj j.not_lt_zero
  have hsolve := solve_on hloop
  rw [show t.point = c.point k from congrArg Iterate.point hstopped.current] at hsolve
  exact ⟨k, e, _, hsolve, hreaches, hfirst, hstopped.current, hstopped.gradientConverged,
    hstopped.customConverged, hstopped.pointConverged, hstopped.valueConverged, hstopped.verdict,
    hstopped.success⟩

/-- A solver whose calls return stops at the first entry of its course at which there is
a reason to, and it reports the first reason there. -/
theorem solve_stops {c : Course R α} {settings : DescentSettings α} {objective : Objective α}
    {search : S} (h : c.Returns settings objective search) (kind : SolverKind)
    (counts keeps : Bool) :
    ∃ solver k e final,
      start kind settings objective (c.rule 0) search counts keeps (c.point 0) = .ok solver ∧
      solve.on solver = (.ok (c.point k), final) ∧
      IsLeast {j | ∃ e, c.Ends settings j e} k ∧
      c.EndsFirst settings k e ∧ c.StoppedBy settings k e final := by
  obtain ⟨solver, hstart, htracks⟩ := tracks_of_start h kind counts keeps
  obtain ⟨k, e, final, hsolve, hreaches, hfirst, hstopped⟩ := solve_of_tracks h htracks
  refine ⟨solver, k, e, final, hstart, hsolve, ⟨⟨e, hfirst.1⟩, ?_⟩, hfirst, hstopped⟩
  rintro j ⟨e', hends⟩
  exact Nat.le_of_not_lt fun hj => hreaches j hj e' hends

/-! ### Halving

Half steps against the gradient of half the square halve a number in every iteration. -/

noncomputable def halvingObjective : Objective ℝ where
  value x := .ok (Vec.normSq x / 2)
  gradient x := .ok x

noncomputable def halving : Course (Strategy ℝ) ℝ where
  rule _ := .steepest
  point k := [(1 / 2) ^ k]
  gradient k := [(1 / 2) ^ k]
  value k := (1 / 4) ^ k / 2
  direction k := [-(1 / 2) ^ k]
  step _ := 1 / 2

/-- Two changes in a row of the point up to a quarter, or of the value up to an eighth,
end the loop. -/
noncomputable def halvingSettings : DescentSettings ℝ where
  maxIterations := 10
  pointTolerance := 1 / 4
  pointPatience := 2
  checksPoint := true
  box := ⟨none, none⟩
  predicate := some fun x => .ok (x == [0])
  logEvery := 0
  wolfe := ⟨1e-4, 0.1, 10.0, 100⟩
  firstTrial := .firstOrder
  method := none
  restart := .never
  gradientTolerance := 0
  checksGradient := true
  valueTolerance := 1 / 8
  valuePatience := 2
  checksValue := true
  search := some (.exact [[2]])

theorem norm_singleton (x : ℝ) : Vec.norm [x] = |x| := by
  show √(0 + x * x) = |x|
  rw [zero_add, Real.sqrt_mul_self_eq_abs]

theorem halving_value (k : Nat) :
    halvingObjective.value (halving.point k) = .ok (halving.value k) := by
  show Except.ok ((0 + (1 / 2 : ℝ) ^ k * (1 / 2) ^ k) / 2) = .ok ((1 / 4) ^ k / 2)
  rw [zero_add, ← mul_pow]
  norm_num

theorem halving_search (k : Nat) :
    (LineSearch.stepSize (.exact [[2]] : Search ℝ) halvingObjective (halving.query k)).journaled.1 =
      .ok ⟨1 / 2, .accepted⟩ := by
  have hpos : (0 : ℝ) < (1 / 2) ^ k := by positivity
  have hcurvature : Quadratic.curvature [[2]] (halving.direction k) =
      .ok (2 * (1 / 2) ^ k * (1 / 2) ^ k) := by
    show Except.ok (0 + -(1 / 2) ^ k * (0 + 2 * -(1 / 2) ^ k)) = _
    ring_nf
  have hslope : Vec.dot (halving.gradient k) (halving.direction k) =
      .ok (-((1 / 2) ^ k * (1 / 2) ^ k)) := by
    show Except.ok (0 + (1 / 2) ^ k * -(1 / 2) ^ k) = _
    ring_nf
  have hvertex : Exact.vertex (-((1 / 2 : ℝ) ^ k * (1 / 2) ^ k)) (2 * (1 / 2) ^ k * (1 / 2) ^ k) =
      1 / 2 := by
    unfold Exact.vertex
    rw [Scalar.real_larger, neg_neg, mul_assoc, div_mul_cancel_right₀ (by positivity)]
    norm_num
  show (Exact.search [[2]] halvingObjective (halving.query k)).journaled.1 = _
  unfold Exact.search Objective.askSlope Objective.askGradient
  have hgradient : halvingObjective.gradient (halving.query k).point = .ok (halving.gradient k) :=
    rfl
  have hdirection : (halving.query k).direction = halving.direction k := rfl
  simp only [hdirection, hcurvature, hgradient, EvalM.answer_ok, pure_bind, bind_assoc, hslope,
    hvertex, if_neg (not_le.mpr (show (0 : ℝ) < 2 * (1 / 2) ^ k * (1 / 2) ^ k by positivity))]
  rfl

theorem halving_follows (k : Nat) :
    halving.Follows halvingSettings halvingObjective (.exact [[2]] : Search ℝ) k where
  direction := ⟨halving.direction k, .steepest, rfl, rfl, rfl⟩
  step := ⟨_, halving_search k⟩
  point := by
    refine ⟨halving.point (k + 1), ?_, rfl⟩
    show Except.ok [(1 / 2 : ℝ) ^ k + 1 / 2 * -(1 / 2) ^ k] = .ok [(1 / 2) ^ (k + 1)]
    rw [pow_succ]
    ring_nf
  gradient := rfl
  value := halving_value (k + 1)

theorem halving_returns :
    halving.Returns halvingSettings halvingObjective (.exact [[2]] : Search ℝ) where
  gradient := rfl
  value := halving_value 0
  predicate k _ _ p hp := by
    cases hp
    exact ⟨_, rfl⟩
  follows k _ := halving_follows k

theorem halving_pointChange (k : Nat) :
    halving.pointChange (k + 1) = some ((1 / 2) ^ (k + 1)) := by
  have hpos : (0 : ℝ) < (1 / 2) ^ (k + 1) := by positivity
  show some (Vec.norm [(1 / 2 : ℝ) ^ (k + 1) - (1 / 2) ^ k]) = _
  rw [norm_singleton, show (1 / 2 : ℝ) ^ (k + 1) - (1 / 2) ^ k = -(1 / 2) ^ (k + 1) by ring,
    abs_neg, abs_of_pos hpos]

theorem halving_valueChange (k : Nat) : halving.valueChange (k + 1) = 3 / 8 * (1 / 4) ^ k := by
  have hpos : (0 : ℝ) < 3 / 8 * (1 / 4) ^ k := by positivity
  show |(1 / 4 : ℝ) ^ (k + 1) / 2 - (1 / 4) ^ k / 2| = _
  rw [show (1 / 4 : ℝ) ^ (k + 1) / 2 - (1 / 4) ^ k / 2 = -(3 / 8 * (1 / 4) ^ k) by ring, abs_neg,
    abs_of_pos hpos]

theorem halving_pointIdle_iff (k : Nat) :
    halving.PointIdle halvingSettings (k + 1) ↔ (1 / 2 : ℝ) ^ (k + 1) ≤ 1 / 4 := by
  unfold PointIdle
  rw [halving_pointChange]
  exact ⟨fun ⟨_, hsome, hle⟩ => Option.some.inj hsome ▸ hle, fun hle => ⟨_, rfl, hle⟩⟩

theorem halving_valueIdle_iff (k : Nat) :
    halving.ValueIdle halvingSettings (k + 1) ↔ 3 / 8 * (1 / 4 : ℝ) ^ k ≤ 1 / 8 := by
  unfold ValueIdle
  rw [halving_valueChange]
  rfl

theorem halving_not_ends_early {j : Nat} (hj : j ≤ 3) {e : Ending} (he : e.place < 3) :
    ¬halving.Ends halvingSettings j e := by
  intro hends
  cases e with
  | gradient =>
    have hshort : Vec.norm [(1 / 2 : ℝ) ^ j] ≤ Scalar.larger 0 1e-10 := hends.2
    rw [norm_singleton, Scalar.real_larger] at hshort
    interval_cases j <;> norm_num at hshort
  | custom =>
    obtain ⟨p, hp, hholds⟩ := hends
    cases hp
    have hzero : (([(1 / 2 : ℝ) ^ j] : Vec ℝ) == [0]) = true := Except.ok.inj hholds
    simp at hzero
  | limit =>
    have hlimit : 10 ≤ j := hends
    omega
  | point | value => exact absurd he (by decide)

theorem halving_reaches : halving.Reaches halvingSettings 3 := by
  intro j hj e hends
  cases e with
  | gradient | custom | limit => exact halving_not_ends_early hj.le (by decide) hends
  | point =>
    obtain ⟨-, -, hpatience, hall⟩ := hends
    have hpatience : 2 ≤ j := hpatience
    obtain rfl : j = 2 := by omega
    have hidle := (halving_pointIdle_iff 0).mp (hall 1 (by decide))
    norm_num at hidle
  | value =>
    obtain ⟨-, -, hpatience, hall⟩ := hends
    have hpatience : 2 ≤ j := hpatience
    obtain rfl : j = 2 := by omega
    have hidle := (halving_valueIdle_iff 0).mp (hall 1 (by decide))
    norm_num at hidle

theorem halving_ends : halving.Ends halvingSettings 3 .point ∧
    halving.Ends halvingSettings 3 .value := by
  constructor
  · refine ⟨rfl, by decide, by decide, fun i hi => ?_⟩
    have hi : i < 2 := hi
    interval_cases i
    · exact (halving_pointIdle_iff 2).mpr (by norm_num)
    · exact (halving_pointIdle_iff 1).mpr (by norm_num)
  · refine ⟨rfl, by decide, by decide, fun i hi => ?_⟩
    have hi : i < 2 := hi
    interval_cases i
    · exact (halving_valueIdle_iff 2).mpr (by norm_num)
    · exact (halving_valueIdle_iff 1).mpr (by norm_num)

/-- The first entry and the first reason to stop at it are the only ones to be first. -/
theorem halving_first {k : Nat} {e : Ending} (hreaches : halving.Reaches halvingSettings k)
    (hfirst : halving.EndsFirst halvingSettings k e) : k = 3 ∧ e = .point := by
  obtain ⟨hpoint, -⟩ := halving_ends
  have hk : k = 3 := by
    have hle : k ≤ 3 := Nat.le_of_not_lt fun h => hreaches 3 h .point hpoint
    have hge : 3 ≤ k := Nat.le_of_not_lt fun h => halving_reaches k h e hfirst.1
    omega
  subst hk
  refine ⟨rfl, ?_⟩
  have hplace : e.place ≤ 3 := hfirst.2 .point hpoint
  cases e with
  | gradient | custom | limit =>
    exact absurd hfirst.1 (halving_not_ends_early le_rfl (by decide))
  | point => rfl
  | value => exact absurd hplace (by decide)

theorem solve_stops_halving :
    ∃ solver final : Descent (Strategy ℝ) (Search ℝ) ℝ,
      start .steepest halvingSettings halvingObjective .steepest (.exact [[2]]) false true [1] =
        .ok solver ∧
      solve.on solver = (.ok [1 / 8], final) ∧ final.current.iteration = 3 ∧
      final.verdict = .point (some (1 / 8)) (1 / 4) 2 ∧ final.valueConverged = true ∧
      final.summary.success = true := by
  obtain ⟨solver, k, e, final, hstart, hsolve, ⟨-, hleast⟩, hfirst, hstopped⟩ :=
    solve_stops halving_returns .steepest false true
  have hreaches : halving.Reaches halvingSettings k :=
    fun j hj e' hends => absurd (hleast ⟨e', hends⟩) (Nat.not_le_of_lt hj)
  obtain ⟨rfl, rfl⟩ := halving_first hreaches hfirst
  have hzero : halving.point 0 = [1] := congrArg (fun x : ℝ => [x]) (pow_zero _)
  have heighth : (1 / 2 : ℝ) ^ 3 = 1 / 8 := by norm_num
  have hthree : halving.point 3 = [1 / 8] := congrArg (fun x : ℝ => [x]) heighth
  rw [hzero] at hstart
  rw [hthree] at hsolve
  refine ⟨solver, final, hstart, hsolve, ?_, ?_, ?_, ?_⟩
  · rw [hstopped.current]
    rfl
  · rw [hstopped.verdict]
    show Verdict.point (halving.pointChange 3) (1 / 4) 2 = _
    rw [halving_pointChange, heighth]
  · exact hstopped.valueConverged.mpr ⟨Or.inl rfl, halving_ends.2⟩
  · exact Bool.eq_true_of_not_eq_false fun hfalse => nomatch hstopped.success.mp hfalse

end Descent

end Downhill
