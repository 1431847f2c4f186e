import Downhill.Proofs.LineSearch.Doubling

/-!
# Runs of the zoom

The states of the zoom are those that its iterations lead to from the bracket of
the doubling phase, whatever the number of trials that phase may take.  A search
ends in the doubling phase, at an iteration that returns, or with the better end of
the last bracket.  Every state holds a bracket, which tells what a search can return.
-/

namespace Downhill

namespace Wolfe

variable {α : Type} [Scalar α] (w : Wolfe α) (phi slope : α → α) (proposal : α) (trials : Nat)

/-- The states of the zoom after a doubling phase of so many trials at most, with the
number of iterations before. -/
inductive ReachedWithin : Nat → Zoom α → Prop
  | start {low high : α} (hslope : slope 0 < 0)
    (hbracket : w.plainExpand phi slope ⟨phi 0, slope 0⟩ trials none (w.firstStep proposal) =
      .bracket low high) :
    ReachedWithin 0 (Zoom.start low high)
  | step {i : Nat} {z z' : Zoom α} (h : ReachedWithin i z) (hi : i < w.zoomLimit)
    (hstep : w.plainZoomStep phi slope ⟨phi 0, slope 0⟩ (i + 1) z = .inl z') :
    ReachedWithin (i + 1) z'

/-- The states of the zoom of a search, with the number of iterations before. -/
abbrev Reached : Nat → Zoom α → Prop :=
  w.ReachedWithin phi slope proposal (w.trialBound (w.firstStep proposal))

variable {w phi slope proposal trials}

/-- A zoom from a state that is reached ends at an iteration that returns, or with
the better end after all iterations. -/
theorem Reached.plainZoomFrom {left done : Nat} {z : Zoom α}
    (hz : w.Reached phi slope proposal done z) (hlimit : done + left = w.zoomLimit) :
    (∃ i z', w.Reached phi slope proposal i z' ∧ i < w.zoomLimit ∧
      w.plainZoomStep phi slope ⟨phi 0, slope 0⟩ (i + 1) z' =
        .inr (w.plainZoomFrom phi slope ⟨phi 0, slope 0⟩ left done z)) ∨
    ∃ z', w.Reached phi slope proposal w.zoomLimit z' ∧
      w.plainZoomFrom phi slope ⟨phi 0, slope 0⟩ left done z =
        ⟨z'.low, .exhausted w.zoomLimit⟩ := by
  induction left generalizing done z with
  | zero =>
    rw [Nat.add_zero] at hlimit
    subst hlimit
    exact Or.inr ⟨z, hz, plainZoomFrom_zero ..⟩
  | succ left ih =>
    have hi : done < w.zoomLimit := by omega
    rw [plainZoomFrom_succ]
    cases hstep : w.plainZoomStep phi slope ⟨phi 0, slope 0⟩ (done + 1) z with
    | inl z' => exact ih (hz.step hi hstep) (by omega)
    | inr outcome => exact Or.inl ⟨done, z, hz, hi, hstep⟩

variable (w phi slope proposal) in
theorem plainSearch_cases :
    ¬slope 0 < 0 ∧ w.plainSearch phi slope proposal = ⟨0, .uphill (slope 0)⟩ ∨
    slope 0 < 0 ∧
      w.plainBracketing phi slope proposal = .outcome (w.plainSearch phi slope proposal) ∨
    (∃ i z, w.Reached phi slope proposal i z ∧ i < w.zoomLimit ∧
      w.plainZoomStep phi slope ⟨phi 0, slope 0⟩ (i + 1) z =
        .inr (w.plainSearch phi slope proposal)) ∨
    ∃ z, w.Reached phi slope proposal w.zoomLimit z ∧
      w.plainSearch phi slope proposal = ⟨z.low, .exhausted w.zoomLimit⟩ := by
  rw [plainSearch_eq]
  by_cases hslope : slope 0 < 0
  · rw [if_pos hslope]
    cases hbracket : w.plainBracketing phi slope proposal with
    | outcome outcome => exact Or.inr (Or.inl ⟨hslope, rfl⟩)
    | bracket low high =>
      have hz : w.Reached phi slope proposal 0 (Zoom.start low high) := .start hslope hbracket
      exact Or.inr (Or.inr (Reached.plainZoomFrom hz (Nat.zero_add _)))
  · rw [if_neg hslope]
    exact Or.inl ⟨hslope, rfl⟩

theorem plainNarrow_of_inl {start : Start α} {i : Nat} {z z' : Zoom α}
    (h : w.plainZoomStep phi slope start i z = .inl z') :
    w.plainNarrow phi slope start z.low z.high (Cubic.plainTrial phi slope z.low z.high) =
      some (z'.low, z'.high) := by
  rw [plainZoomStep_eq] at h
  dsimp only at h
  split at h
  · cases h
  · rename_i bracket low high hnarrow
    split_ifs at h
    · cases h
      exact hnarrow
    · cases h
      exact hnarrow

/-- An iteration that returns does so at its trial step: either the cut accepts it,
or too many trials in a row have been idle. -/
theorem plainZoomStep_inr {start : Start α} {i : Nat} {z : Zoom α} {outcome : Outcome α}
    (h : w.plainZoomStep phi slope start i z = .inr outcome) :
    outcome.step = Cubic.plainTrial phi slope z.low z.high ∧
    (outcome.exit = .accepted ∧ w.plainNarrow phi slope start z.low z.high outcome.step = none ∨
      outcome.exit = .stalled i ∧ Zoom.patience < z.idle + 1 ∧
        ¬z.improves (phi outcome.step)) := by
  rw [plainZoomStep_eq] at h
  dsimp only at h
  split at h
  · rename_i hnarrow
    cases h
    exact ⟨rfl, Or.inl ⟨rfl, hnarrow⟩⟩
  · split_ifs at h with himproves hidle
    cases h
    exact ⟨rfl, Or.inr ⟨rfl, hidle, himproves⟩⟩

end Wolfe

namespace WolfeLine

open Extended (real)

variable {l : WolfeLine} {phi slope : Extended → Extended} {proposal : Extended} {a : ℝ}
  {trials : Nat}

theorem start_eq (hphi : phi 0 = real l.value) (hslope : slope 0 = real l.slope) :
    (⟨phi 0, slope 0⟩ : Start Extended) = l.start := by
  rw [hphi, hslope]
  rfl

theorem bracket_of_reached (hphi : phi 0 = real l.value) (hslope : slope 0 = real l.slope)
    (ha : l.wolfe.firstStep proposal = real a) {i : Nat} {z : Zoom Extended}
    (h : l.wolfe.ReachedWithin phi slope proposal trials i z) :
    ∃ low high, z.low = real low ∧ z.high = real high ∧ l.Bracket phi slope low high := by
  induction h with
  | start _ hbracket =>
    have hexpanded := expanded_of_first hphi hslope ha trials
    rw [hbracket] at hexpanded
    cases hexpanded with
    | bracket h => exact ⟨_, _, rfl, rfl, h⟩
  | step _ _ hstep ih =>
    obtain ⟨low, high, hlow, hhigh, h⟩ := ih
    obtain ⟨t, ht, hmin, hmax⟩ := Cubic.plainTrial_between phi slope h.ne
    have hnarrow := Wolfe.plainNarrow_of_inl hstep
    rw [start_eq hphi hslope, hlow, hhigh, ht] at hnarrow
    rcases h.narrow hmin hmax with ⟨hnone, -⟩ | ⟨low', high', hsome, h'⟩
    · rw [hnone] at hnarrow
      cases hnarrow
    · rw [hsome, Option.some.injEq, Prod.mk.injEq] at hnarrow
      exact ⟨low', high', hnarrow.1.symm, hnarrow.2.symm, h'⟩

/-- What a search along a descent direction can return, from a first trial step. -/
inductive Classified (l : WolfeLine) (phi slope : Extended → Extended) (proposal : Extended)
    (a : ℝ) : Outcome Extended → Prop
  /-- A step that satisfies both conditions. -/
  | accepted {t : ℝ} (h : l.Accepted phi slope t) :
    Classified l phi slope proposal a ⟨real t, .accepted⟩
  /-- The largest step, once the last trial step cannot be doubled. -/
  | capped {k : Nat} (h : l.Passed phi slope (a * 2 ^ k))
    (hlast : l.maxStep < real (2 * (a * 2 ^ k))) :
    Classified l phi slope proposal a ⟨l.maxStep, .capped⟩
  /-- The largest step, which is infinite, once the trials have run out.  An infinite
  step has no binade of its own that would tell how many of them are enough. -/
  | cutOff (h : ∀ m, l.maxStep ≠ real m) : Classified l phi slope proposal a ⟨l.maxStep, .capped⟩
  /-- A trial step of the zoom, when too many in a row have been idle. -/
  | stalled {i : Nat} {z : Zoom Extended} {t : ℝ} (hz : l.wolfe.Reached phi slope proposal i z)
    (hi : i < l.limit) (ht : t ∈ l.range) (hidle : Zoom.patience < z.idle + 1)
    (himproves : ¬z.improves (phi (real t))) :
    Classified l phi slope proposal a ⟨real t, .stalled (i + 1)⟩
  /-- The better end of the last bracket. -/
  | exhausted {z : Zoom Extended} {low high : ℝ}
    (hz : l.wolfe.Reached phi slope proposal l.limit z) (hlow : z.low = real low)
    (h : l.Bracket phi slope low high) :
    Classified l phi slope proposal a ⟨real low, .exhausted l.limit⟩

theorem plainSearch_classified (hphi : phi 0 = real l.value) (hslope : slope 0 = real l.slope)
    (ha : l.wolfe.firstStep proposal = real a) :
    l.Classified phi slope proposal a (l.wolfe.plainSearch phi slope proposal) := by
  rcases l.wolfe.plainSearch_cases phi slope proposal with
    ⟨hneg, -⟩ | ⟨-, hbracketing⟩ | ⟨i, z, hz, hi, hstep⟩ | ⟨z, hz, hresult⟩
  · rw [hslope] at hneg
    exact absurd l.slope_neg hneg
  · have hexpanded := expanded_of_first hphi hslope ha
      (l.wolfe.trialBound (l.wolfe.firstStep proposal))
    unfold Wolfe.plainBracketing at hbracketing
    rw [hbracketing] at hexpanded
    generalize l.wolfe.plainSearch phi slope proposal = outcome at hexpanded ⊢
    cases hexpanded with
    | accepted h => exact .accepted h
    | capped h hlast => exact .capped h hlast
    | cutOff h =>
      refine .cutOff fun m hm => absurd (h m hm) (not_le.mpr ?_)
      rw [ha]
      exact Wolfe.maxStep_lt_of_trialBound (w := l.wolfe) l.maxStep_pos hm (first_between ha).1
  · obtain ⟨low, high, hlow, hhigh, h⟩ := bracket_of_reached hphi hslope ha hz
    obtain ⟨t, ht, hmin, hmax⟩ := Cubic.plainTrial_between phi slope h.ne
    obtain ⟨htrial, hexit⟩ := Wolfe.plainZoomStep_inr hstep
    rw [hlow, hhigh, ht] at htrial
    rw [start_eq hphi hslope, hlow, hhigh] at hexit
    generalize l.wolfe.plainSearch phi slope proposal = outcome at htrial hexit ⊢
    obtain ⟨step, exit⟩ := outcome
    dsimp only at htrial hexit
    subst htrial
    rcases hexit with ⟨rfl, hnone⟩ | ⟨rfl, hidle, himproves⟩
    · rcases h.narrow hmin hmax with ⟨-, haccepted⟩ | ⟨low', high', hsome, -⟩
      · exact .accepted haccepted
      · rw [hsome] at hnone
        cases hnone
    · exact .stalled hz hi (mem_of_between h.low_mem h.high_mem hmin hmax) hidle himproves
  · obtain ⟨low, high, hlow, -, h⟩ := bracket_of_reached hphi hslope ha hz
    rw [hresult, hlow]
    exact .exhausted hz hlow h

/-! ## An infinite first step -/

theorem exceeds_top (b : Extended) : l.wolfe.exceeds l.start .top b := by
  cases b with
  | real y =>
    refine Or.inr ?_
    have hfactor : real l.c1 * .top = .top := if_pos l.c1_pos
    have hproduct : .top * real l.slope = .bot := by
      show Extended.infinity l.slope = .bot
      rw [Extended.infinity, if_neg l.slope_neg.not_gt, if_pos l.slope_neg]
    show real l.value + real l.c1 * .top * real l.slope < real y
    rw [hfactor, hproduct]
    trivial
  | top | bot | undefined => exact Or.inl rfl

theorem refuses_top (rival : Option Extended) :
    l.wolfe.Refuses phi l.start .top rival := Or.inl (exceeds_top (phi .top))

theorem plainNarrow_top :
    l.wolfe.plainNarrow phi slope l.start 0 .top .top = some (0, .top) := by
  rw [Wolfe.plainNarrow_eq, if_pos (refuses_top _)]

theorem plainBracketing_of_top (hphi : phi 0 = real l.value) (hslope : slope 0 = real l.slope)
    (hfirst : l.wolfe.firstStep proposal = .top) :
    l.wolfe.plainBracketing phi slope proposal = .bracket 0 .top := by
  unfold Wolfe.plainBracketing
  rw [hfirst, start_eq hphi hslope]
  unfold Wolfe.trialBound
  rw [Wolfe.plainExpand_succ, if_pos (refuses_top none)]
  rfl

end WolfeLine

end Downhill
