import Downhill.Proofs.LineSearch.Interior

/-!
# The trial steps behind a bracket

The better end of a bracket is the best step that the search has tried.  The trial
steps are the start of the ray, the steps of the doubling phase, and one step for
each iteration of the zoom.  Whether a trial step becomes the better end is decided
against that end alone, and the others are kept away by an invariant: none that
decreases sufficiently is lower than the better end.

Each cut takes the trial step for an end and keeps one of the old ends, and since
the trial step lies strictly between them the bracket shrinks.
-/

namespace Downhill

open Extended (real)

namespace Wolfe

section

variable {α : Type} [Scalar α] (w : Wolfe α) (phi slope : α → α)

/-- The doubling phase goes beyond a step: it neither brackets nor accepts there,
and the next step does not pass the largest one. -/
structure GoesOn (start : Start α) (previous : Option α) (step : α) : Prop where
  keeps : ¬w.Refuses phi start step previous
  steep : ¬w.flat start (slope step)
  descends : ¬0 ≤ slope step
  inside : ¬w.maxStep < 2.0 * step

/-- The trial steps of the doubling phase, from a step on. -/
inductive Doubles (start : Start α) : Option α → α → α → Prop
  | here (previous : Option α) (step : α) : Doubles start previous step step
  | later {previous : Option α} {step t : α} (hon : w.GoesOn phi slope start previous step)
    (h : Doubles start (some step) (2.0 * step) t) : Doubles start previous step t

/-- The trial steps of a search before an iteration of its zoom. -/
inductive Tried (proposal : α) (trials i : Nat) : α → Prop
  | start : Tried proposal trials i 0
  | doubled {t : α}
    (h : w.Doubles phi slope ⟨phi 0, slope 0⟩ none (w.firstStep proposal) t) :
    Tried proposal trials i t
  | zoomed {j : Nat} {z : Zoom α} (hz : w.ReachedWithin phi slope proposal trials j z)
    (hj : j < i) :
    Tried proposal trials i (Cubic.plainTrial phi slope z.low z.high)

variable {w phi slope} {proposal : α} {trials i : Nat}

theorem Doubles.eq_or_later {start : Start α} {previous : Option α} {step t : α}
    (h : w.Doubles phi slope start previous step t) :
    t = step ∨ w.GoesOn phi slope start previous step ∧
      w.Doubles phi slope start (some step) (2.0 * step) t := by
  cases h with
  | here => exact Or.inl rfl
  | later hon h => exact Or.inr ⟨hon, h⟩

/-- The zoom is in one state before each of its iterations. -/
theorem ReachedWithin.unique {z z' : Zoom α}
    (h : w.ReachedWithin phi slope proposal trials i z)
    (h' : w.ReachedWithin phi slope proposal trials i z') : z = z' := by
  induction h generalizing z' with
  | start _ hbracket =>
    cases h' with
    | start _ hbracket' =>
      rw [hbracket] at hbracket'
      cases hbracket'
      rfl
  | step _ _ hstep ih =>
    cases h' with
    | step hprevious _ hstep' =>
      rw [← ih hprevious, hstep] at hstep'
      cases hstep'
      rfl

/-- An iteration adds one trial step to those before. -/
theorem Tried.before_or_trial {z : Zoom α}
    (hz : w.ReachedWithin phi slope proposal trials i z) {t : α}
    (h : w.Tried phi slope proposal trials (i + 1) t) :
    w.Tried phi slope proposal trials i t ∨ t = Cubic.plainTrial phi slope z.low z.high := by
  cases h with
  | start => exact Or.inl .start
  | doubled h => exact Or.inl (.doubled h)
  | zoomed hz' hj =>
    rcases Nat.lt_succ_iff_lt_or_eq.mp hj with hlt | rfl
    · exact Or.inl (.zoomed hz' hlt)
    · rw [hz'.unique hz]
      exact Or.inr rfl

theorem Tried.later {t : α} (h : w.Tried phi slope proposal trials i t) :
    w.Tried phi slope proposal trials (i + 1) t := by
  cases h with
  | start => exact .start
  | doubled h => exact .doubled h
  | zoomed hz hj => exact .zoomed hz (Nat.lt_succ_of_lt hj)

end

end Wolfe

namespace WolfeLine

variable {l : WolfeLine} {phi slope : Extended → Extended} {proposal : Extended} {a : ℝ}
  {trials : Nat}

/-- A step that was tried and is not higher than any of the steps tried that decrease
sufficiently. -/
structure Best (l : WolfeLine) (phi : Extended → Extended) (tried : Extended → Prop)
    (low : ℝ) : Prop where
  mem : tried (real low)
  least {b : Extended} (hb : tried b) : ∃ t, b = real t ∧
    (¬l.wolfe.exceeds l.start (real t) (phi (real t)) → phi (real low) ≤ phi (real t))

theorem le_refl_of_not_exceeds {t : ℝ}
    (h : ¬l.wolfe.exceeds l.start (real t) (phi (real t))) :
    phi (real t) ≤ phi (real t) := by
  obtain ⟨y, hy, -⟩ := (l.not_exceeds_iff t _).mp h
  rw [hy, Extended.real_le_real]

/-- The bracket of the doubling phase, beyond a step `p` that was not refused. -/
theorem best_of_plainExpand (hphi : phi 0 = real l.value) {p : ℝ} (left : Nat)
    (previous : Option Extended) (a : ℝ)
    (hprevious : previous = none ∧ p = 0 ∨ previous = some (real p))
    (hp : ¬l.wolfe.exceeds l.start (real p) (phi (real p))) (ha : 0 ≤ a) {low high : ℝ}
    (h : l.wolfe.plainExpand phi slope l.start left previous (real a) =
      .bracket (real low) (real high)) :
    l.Best phi (fun b => b = real p ∨ l.wolfe.Doubles phi slope l.start previous (real a) b)
      low := by
  induction left generalizing previous a p with
  | zero =>
    rw [Wolfe.plainExpand_zero] at h
    cases h
  | succ left ih =>
    rw [Wolfe.plainExpand_succ, Wolfe.before_eq hprevious] at h
    split_ifs at h with hrefuses hflat hturn hlast
    · -- The step is refused, and the one before it is the better end.
      rw [Expansion.bracket.injEq, Extended.real_inj, Extended.real_inj] at h
      obtain ⟨rfl, rfl⟩ := h
      refine ⟨Or.inl rfl, ?_⟩
      rintro b (rfl | hb)
      · exact ⟨_, rfl, fun _ => le_refl_of_not_exceeds hp⟩
      · obtain rfl | ⟨hon, -⟩ := hb.eq_or_later
        · refine ⟨_, rfl, fun hdecreases => ?_⟩
          obtain ⟨other, hother, hle⟩ := hrefuses.resolve_left hdecreases
          rcases hprevious with ⟨rfl, -⟩ | rfl
          · cases hother
          · cases hother
            exact hle
        · exact absurd hrefuses hon.keeps
    · -- The step ascends, and is the better end.
      rw [Expansion.bracket.injEq, Extended.real_inj, Extended.real_inj] at h
      obtain ⟨rfl, rfl⟩ := h
      have hlower := le_of_not_refuses hphi hprevious hp ha hrefuses
      refine ⟨Or.inr (.here ..), ?_⟩
      rintro b (rfl | hb)
      · exact ⟨_, rfl, fun _ => hlower⟩
      · obtain rfl | ⟨hon, -⟩ := hb.eq_or_later
        · exact ⟨_, rfl, le_refl_of_not_exceeds⟩
        · exact absurd hturn hon.descends
    · have hlower := le_of_not_refuses hphi hprevious hp ha hrefuses
      have hdecreases := (not_or.mp hrefuses).1
      rw [Extended.two_mul_real] at h
      have hbest := ih (some (real a)) (2 * a) (Or.inr rfl) hdecreases (by linarith) h
      obtain ⟨t, ht, hle⟩ := hbest.least (Or.inl rfl)
      cases ht
      refine ⟨Or.inr ?_, ?_⟩
      · rcases hbest.mem with heq | hlater
        · rw [heq]
          exact .here ..
        · refine .later ⟨hrefuses, hflat, hturn, hlast⟩ ?_
          rwa [Extended.two_mul_real]
      · rintro b (rfl | hb)
        · exact ⟨_, rfl, fun _ => Extended.le_trans (hle hdecreases) hlower⟩
        · obtain rfl | ⟨-, hlater⟩ := hb.eq_or_later
          · exact ⟨_, rfl, hle⟩
          · rw [Extended.two_mul_real] at hlater
            exact hbest.least (Or.inr hlater)

/-- A cut at a trial step between the ends: the better end is the trial step or the
old one, it is not higher than either, and the bracket shrinks. -/
theorem of_plainNarrow {low high t low' high' : ℝ}
    (hdecreases : ¬l.wolfe.exceeds l.start (real low) (phi (real low)))
    (hmin : min low high < t) (hmax : t < max low high)
    (h : l.wolfe.plainNarrow phi slope l.start (real low) (real high) (real t) =
      some (real low', real high')) :
    (low' = low ∨ low' = t) ∧ phi (real low') ≤ phi (real low) ∧
      (¬l.wolfe.exceeds l.start (real t) (phi (real t)) → phi (real low') ≤ phi (real t)) ∧
      Set.uIcc low' high' ⊆ Set.uIcc low high ∧ |high' - low'| < |high - low| := by
  have ht : t ∈ Set.uIcc low high := ⟨hmin.le, hmax.le⟩
  obtain ⟨hlowSide, hhighSide⟩ := signs_of_between hmin hmax
  have hfromLow : |t - low| < |high - low| := by
    rw [← sq_lt_sq]
    nlinarith
  have hfromHigh : |high - t| < |high - low| := by
    rw [← sq_lt_sq]
    nlinarith
  rw [Wolfe.plainNarrow_eq] at h
  split_ifs at h with hrefuses hflat hturn
  · cases h
    refine ⟨Or.inl rfl, le_refl_of_not_exceeds hdecreases, fun hnew => ?_,
      Set.uIcc_subset_uIcc Set.left_mem_uIcc ht, hfromLow⟩
    obtain ⟨other, hother, hle⟩ := hrefuses.resolve_left hnew
    cases hother
    exact hle
  all_goals
    obtain ⟨hnew, hrival⟩ := not_or.mp hrefuses
    have hlower : phi (real t) ≤ phi (real low) :=
      le_of_not_le hdecreases hnew fun hle => hrival ⟨real low, rfl, hle⟩
    cases h
    refine ⟨Or.inr rfl, hlower, le_refl_of_not_exceeds, ?_⟩
  · refine ⟨Set.uIcc_subset_uIcc ht Set.left_mem_uIcc, ?_⟩
    rwa [abs_sub_comm]
  · exact ⟨Set.uIcc_subset_uIcc ht Set.right_mem_uIcc, hfromHigh⟩

theorem best_of_first (hphi : phi 0 = real l.value) (hslope : slope 0 = real l.slope)
    (ha : l.wolfe.firstStep proposal = real a) (low high : ℝ)
    (h : l.wolfe.plainExpand phi slope ⟨phi 0, slope 0⟩ trials none
      (l.wolfe.firstStep proposal) = .bracket (real low) (real high)) :
    l.Best phi (l.wolfe.Tried phi slope proposal trials 0) low := by
  rw [ha, start_eq hphi hslope] at h
  have hbest := best_of_plainExpand hphi _ none a (Or.inl ⟨rfl, rfl⟩)
    (start_passed hphi hslope).decreases (first_between ha).1.le h
  rw [← ha, ← start_eq hphi hslope] at hbest
  refine ⟨?_, fun {b} hb => hbest.least ?_⟩
  · rcases hbest.mem with hstart | hdoubled
    · rw [hstart]
      exact .start
    · exact .doubled hdoubled
  · cases hb with
    | start => exact Or.inl rfl
    | doubled h => exact Or.inr h
    | zoomed _ hj => exact absurd hj (Nat.not_lt_zero _)

theorem best_of_reached (hphi : phi 0 = real l.value) (hslope : slope 0 = real l.slope)
    (ha : l.wolfe.firstStep proposal = real a) {i : Nat} {z : Zoom Extended}
    (h : l.wolfe.ReachedWithin phi slope proposal trials i z) {low : ℝ}
    (hlow : z.low = real low) :
    l.Best phi (l.wolfe.Tried phi slope proposal trials i) low := by
  -- The invariant is that the better end is the best step tried, by induction on the
  -- iterations; each of them adds one trial step.
  induction h generalizing low with
  | start hneg hbracket =>
    obtain ⟨low', high, hlow', hhigh, -⟩ :=
      bracket_of_reached hphi hslope ha (.start hneg hbracket)
    cases hlow.symm.trans hlow'
    refine best_of_first hphi hslope ha low high ?_
    rw [hbracket, ← hlow, ← hhigh]
    rfl
  | step hz hi hstep ih =>
    obtain ⟨low₀, high₀, hlow₀, hhigh₀, hbracket₀⟩ := bracket_of_reached hphi hslope ha hz
    obtain ⟨low', high', hlow', hhigh', -⟩ :=
      bracket_of_reached hphi hslope ha (hz.step hi hstep)
    cases hlow.symm.trans hlow'
    obtain ⟨t, ht, hmin, hmax⟩ := Cubic.plainTrial_between phi slope hbracket₀.ne
    have hnarrow := Wolfe.plainNarrow_of_inl hstep
    rw [start_eq hphi hslope, hlow₀, hhigh₀, hlow, hhigh', ht] at hnarrow
    obtain ⟨hend, hlower, htrial, -⟩ := of_plainNarrow hbracket₀.decreases hmin hmax hnarrow
    rw [← hlow₀, ← hhigh₀] at ht
    have hbest := ih hlow₀
    refine ⟨?_, fun {b} hb => ?_⟩
    · rcases hend with rfl | rfl
      · exact hbest.mem.later
      · rw [← ht]
        exact .zoomed hz (Nat.lt_succ_self _)
    · rcases hb.before_or_trial hz with hbefore | rfl
      · obtain ⟨s, rfl, hle⟩ := hbest.least hbefore
        exact ⟨s, rfl, fun hdecreases => Extended.le_trans hlower (hle hdecreases)⟩
      · exact ⟨t, ht, htrial⟩

end WolfeLine

namespace Wolfe

/-- What holds of the bracket of a zoom before an iteration, in terms of a function
along the ray and its slope. -/
structure SoundBracket (f f' : ℝ → ℝ) (c1 : ℝ) (maxStep : Extended)
    (tried : Extended → Prop) (low high : ℝ) : Prop where
  ne : low ≠ high
  low_mem : 0 ≤ low ∧ real low ≤ maxStep
  high_mem : 0 ≤ high ∧ real high ≤ maxStep
  heading : f' low * (high - low) < 0
  decreases : f low ≤ f 0 + c1 * low * f' 0
  low_tried : tried (real low)
  least {b : Extended} (hb : tried b) :
    ∃ t, b = real t ∧ (f t ≤ f 0 + c1 * t * f' 0 → f low ≤ f t)
  worse : f 0 + c1 * high * f' 0 < f high ∨ f low ≤ f high

/-- For any function along the ray that descends at the start, every iteration of the
zoom begins with a sound bracket, and the next one lies inside it and is shorter.
The doubling phase may have taken any number of trials before.  Only if the largest
step is infinite does the proposed first step have to be in range, as half the
largest step replaces it otherwise. -/
theorem zoom_brackets_sound {w : Wolfe Extended} (hw : checkConstants w.c1 w.c2 w.maxStep = .ok ())
    {f f' : ℝ → ℝ} (hneg : f' 0 < 0) {phi slope : Extended → Extended}
    (hphi : ∀ a, phi (real a) = real (f a)) (hslope : ∀ a, slope (real a) = real (f' a))
    {proposal : Extended}
    (hfirst : Scalar.isFinite w.maxStep = true ∨ 0 < proposal ∧ proposal < w.maxStep)
    {trials i : Nat} {z : Zoom Extended} (hz : w.ReachedWithin phi slope proposal trials i z) :
    ∃ c1 low high, w.c1 = real c1 ∧ z.low = real low ∧ z.high = real high ∧
      SoundBracket f f' c1 w.maxStep (w.Tried phi slope proposal trials i) low high ∧
      ∀ z', i < w.zoomLimit →
        w.plainZoomStep phi slope ⟨phi 0, slope 0⟩ (i + 1) z = .inl z' →
        ∃ low' high', z'.low = real low' ∧ z'.high = real high' ∧
          Set.uIcc low' high' ⊆ Set.uIcc low high ∧ |high' - low'| < |high - low| := by
  have hphi0 : phi 0 = real (f 0) := hphi 0
  have hslope0 : slope 0 = real (f' 0) := hslope 0
  have hdescends : real (f' 0) < 0 := Extended.real_lt_real.mpr hneg
  obtain ⟨l, rfl, hvalue, hsteep⟩ := WolfeLine.exists_of_check hw
    (Extended.isFinite_real (f 0)) (Extended.isFinite_real (f' 0)) hdescends
  have hexceeds : ∀ t, ¬l.wolfe.exceeds l.start (real t) (phi (real t)) ↔
      f t ≤ f 0 + l.c1 * t * f' 0 := by
    intro t
    rw [l.not_exceeds_iff, hphi, Extended.real_inj.mp hvalue, Extended.real_inj.mp hsteep]
    constructor
    · rintro ⟨y, hy, hle⟩
      rwa [← Extended.real_inj.mp hy] at hle
    · exact fun hle => ⟨f t, rfl, hle⟩
  rw [hvalue] at hphi0
  rw [hsteep] at hslope0
  obtain ⟨a, ha⟩ : ∃ a, l.wolfe.firstStep proposal = real a := by
    rcases hfirst with hfinite | hrange
    · obtain ⟨m, hm⟩ := Extended.eq_real_of_isFinite hfinite
      obtain ⟨a, ha, -⟩ := exists_firstStep (w := l.wolfe) l.maxStep_pos hm proposal
      exact ⟨a, ha⟩
    · obtain ⟨a, rfl, -⟩ := Extended.eq_real_of_pos_of_lt hrange.1 hrange.2
      exact ⟨a, if_pos hrange⟩
  obtain ⟨low, high, hlow, hhigh, h⟩ := WolfeLine.bracket_of_reached hphi0 hslope0 ha hz
  have hbest := WolfeLine.best_of_reached hphi0 hslope0 ha hz hlow
  obtain ⟨-, -, hheading, -⟩ := h.of_real hphi hslope
  refine ⟨l.c1, low, high, rfl, hlow, hhigh, ⟨h.ne, h.low_mem, h.high_mem, hheading,
    (hexceeds low).mp h.decreases, hbest.mem, fun {b} hb => ?_, ?_⟩, fun z' hi hstep => ?_⟩
  · obtain ⟨t, rfl, hle⟩ := hbest.least hb
    refine ⟨t, rfl, fun hdecreases => ?_⟩
    have hlower := hle ((hexceeds t).mpr hdecreases)
    rwa [hphi, hphi, Extended.real_le_real] at hlower
  · refine h.worse.imp (fun hrises => ?_) fun hle => ?_
    · exact not_le.mp fun hdecreases => (hexceeds high).mpr hdecreases hrises
    · rwa [hphi, hphi, Extended.real_le_real] at hle
  · obtain ⟨low', high', hlow', hhigh', -⟩ :=
      WolfeLine.bracket_of_reached hphi0 hslope0 ha (hz.step hi hstep)
    obtain ⟨t, ht, hmin, hmax⟩ := Cubic.plainTrial_between phi slope h.ne
    have hnarrow := Wolfe.plainNarrow_of_inl hstep
    rw [WolfeLine.start_eq hphi0 hslope0, hlow, hhigh, hlow', hhigh', ht] at hnarrow
    obtain ⟨-, -, -, hinside, hshorter⟩ :=
      WolfeLine.of_plainNarrow h.decreases hmin hmax hnarrow
    exact ⟨low', high', hlow', hhigh', hinside, hshorter⟩

theorem zoom_brackets_sound_parabola :
    ∃ c1 low high, usual.c1 = real c1 ∧ (Zoom.start (real 0) (real 6)).low = real low ∧
      (Zoom.start (real 0) (real 6)).high = real high ∧
      SoundBracket (fun a => (a - 1) * (a - 1)) (fun a => 2 * (a - 1)) c1 usual.maxStep
        (usual.Tried parabola parabolaSlope (real 6)
          (usual.trialBound (usual.firstStep (real 6))) 0) low high ∧
      ∀ z', 0 < usual.zoomLimit →
        usual.plainZoomStep parabola parabolaSlope ⟨parabola 0, parabolaSlope 0⟩ (0 + 1)
          (Zoom.start (real 0) (real 6)) = .inl z' →
        ∃ low' high', z'.low = real low' ∧ z'.high = real high' ∧
          Set.uIcc low' high' ⊆ Set.uIcc low high ∧ |high' - low'| < |high - low| :=
  zoom_brackets_sound check_usual (by norm_num) parabola_real parabolaSlope_real (Or.inl rfl)
    reached_parabola

/-! ### Without a largest step

A first step of zero, as proposed by default, is not in range.  Half the largest step
replaces it, and is infinite. -/

/-- The usual constants without a largest step. -/
noncomputable def endless : Wolfe Extended := { usual with maxStep := .top }

/-- These constants on a line that starts at zero with slope minus one. -/
noncomputable def endlessLine : WolfeLine :=
  { usualLine with maxStep := .top, maxStep_pos := trivial }

/-- A line that jumps up right after the start and is level from there on. -/
noncomputable def ledge (a : Extended) : Extended := if a ≤ 0 then 0 else 1

noncomputable def ledgeSlope (a : Extended) : Extended := if a ≤ 0 then real (-1) else 0

theorem ledge_start : ledge 0 = real endlessLine.value := if_pos (le_rfl (a := (0 : ℝ)))

theorem ledgeSlope_start : ledgeSlope 0 = real endlessLine.slope :=
  if_pos (le_rfl (a := (0 : ℝ)))

theorem firstStep_endless : endless.firstStep 0 = .top := by
  have htwo : ¬(2.0 : ℝ) < 0 := by norm_num
  unfold firstStep
  rw [if_neg fun hrange => Extended.lt_irrefl 0 hrange.1]
  exact if_neg htwo

/-- The zoom starts with the whole ray for its bracket, although the constants are
accepted, and an iteration leaves the bracket as it is. -/
theorem bracket_stays_whole :
    checkConstants endless.c1 endless.c2 endless.maxStep = .ok () ∧
      (∀ a, Scalar.isFinite (ledge a) = true) ∧ ledgeSlope 0 < 0 ∧
      endless.Reached ledge ledgeSlope 0 0 (Zoom.start 0 .top) ∧
      ∃ z', 0 < endless.zoomLimit ∧
        endless.plainZoomStep ledge ledgeSlope ⟨ledge 0, ledgeSlope 0⟩ (0 + 1)
          (Zoom.start 0 .top) = .inl z' ∧
        z'.low = 0 ∧ z'.high = .top ∧ ¬z'.high - z'.low < .top - 0 := by
  obtain ⟨hc1, hc2, -⟩ := checkConstants_eq_ok_iff.mp check_usual
  have hfinite : ∀ a, Scalar.isFinite (ledge a) = true := by
    intro a
    unfold ledge
    split_ifs <;> rfl
  have hslope : ledgeSlope 0 < 0 := by
    rw [ledgeSlope_start]
    exact endlessLine.slope_neg
  have hnarrow : endless.plainNarrow ledge ledgeSlope endlessLine.start 0 .top .top =
      some (0, .top) := WolfeLine.plainNarrow_top
  refine ⟨checkConstants_eq_ok_iff.mpr ⟨hc1, hc2, trivial⟩, hfinite, hslope,
    .start hslope (WolfeLine.plainBracketing_of_top (l := endlessLine) ledge_start
      ledgeSlope_start firstStep_endless),
    ⟨0, .top, some (ledge .top), 0⟩, Nat.succ_pos 99, ?_, rfl, rfl, Extended.lt_irrefl _⟩
  rw [WolfeLine.start_eq ledge_start ledgeSlope_start, plainZoomStep_eq]
  dsimp only [Zoom.start]
  rw [Cubic.plainTrial_top, hnarrow]
  exact if_pos (Or.inl (hfinite .top))

end Wolfe

end Downhill
