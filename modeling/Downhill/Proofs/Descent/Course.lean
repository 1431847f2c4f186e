import Downhill.Proofs.Descent.Run
import Downhill.Proofs.Linear.Sizes

/-!
# Courses

The course of a solver is the sequence of its points, gradients, values, directions
and steps, with the state its rule is in.  It follows a rule and a search when each
entry is what they answer, and what the objective answers, from the entries before.
Nothing is said here about where a course ends.

An iteration of a solver that is at the start of an entry leads to the start of the
next one, and there is no other way for an iteration to succeed.
-/

namespace Downhill

variable {R S α β γ : Type}

/-- The entry before the given one, if there is one. -/
def before {β : Type} (f : Nat → β) : Nat → Option β
  | 0 => none
  | k + 1 => some (f k)

/-- Points with their gradients and values, the directions and steps between them,
and the states of a rule, by iteration. -/
structure Course (R α : Type) where
  rule : Nat → R
  point : Nat → Vec α
  gradient : Nat → Vec α
  value : Nat → α
  direction : Nat → Vec α
  step : Nat → α

namespace Course

variable (c : Course R α) (k : Nat)

/-- What the rule is shown in an iteration. -/
def sight : Sight α where
  point := c.point k
  value := c.value k
  gradient := c.gradient k
  previousGradient := before c.gradient k
  previousDirection := before c.direction k

/-- What the search is told in an iteration. -/
def query [Zero α] : Query α where
  point := c.point k
  direction := c.direction k
  previousPoint := before c.point k
  previousDirection := before c.direction k
  previousStep := (before c.step k).getD 0

/-- What a solver knows when it has completed so many iterations. -/
def iterate [Zero α] : Iterate α where
  iteration := k
  point := c.point k
  gradient := c.gradient k
  value := c.value k
  previousPoint := before c.point k
  previousGradient := before c.gradient k
  previousValue := before c.value k
  direction := before c.direction k
  previousDirection := before c.direction (k - 1)
  step := (before c.step k).getD 0
  previousStep := (before c.step (k - 1)).getD 0

/-- An iteration that follows a rule and a search: direction, step and next point are
their answers, and gradient and value belong to the next point. -/
structure Follows [Scalar α] [DirectionRule R α] [LineSearch S α] (c : Course R α)
    (settings : DescentSettings α) (objective : Objective α) (search : S) (k : Nat) : Prop where
  direction : ∃ proposal rule,
    DirectionRule.propose (c.rule k) (c.sight k) = (.ok proposal, rule) ∧
    (DirectionRule.orient rule objective (c.sight k) proposal).journaled.1 =
      .ok (c.direction k) ∧
    c.rule (k + 1) = DirectionRule.moved rule (c.point (k + 1))
  step : ∃ exit,
    (LineSearch.stepSize search objective (c.query k)).journaled.1 = .ok ⟨c.step k, exit⟩
  point : ∃ reached, (c.point k).along (c.step k) (c.direction k) = .ok reached ∧
    settings.box.clamp reached = .ok (c.point (k + 1))
  gradient : objective.gradient (c.point (k + 1)) = .ok (c.gradient (k + 1))
  value : objective.value (c.point (k + 1)) = .ok (c.value (k + 1))

/-- A solver that has completed so many iterations of a course. -/
structure Describes [Zero α] (c : Course R α) (k : Nat) (s : Descent R S α) : Prop where
  rule : s.rule = c.rule k
  current : s.current = c.iterate k

end Course

/-! ## Undoing a sequence -/

namespace DescentM

variable {s t : Descent R S α}

theorem exists_of_on_bind {x : DescentM R S α β} {f : β → DescentM R S α γ} {c : γ}
    (h : (x >>= f).on s = (.ok c, t)) :
    ∃ b u, x.on s = (.ok b, u) ∧ (f b).on u = (.ok c, t) :=
  exists_of_run_bind h

theorem exists_of_on_answer {result : Except Fault β} {b : β}
    (h : (answer result : DescentM R S α β).on s = (.ok b, t)) : result = .ok b ∧ t = s := by
  rw [on_answer] at h
  exact ⟨congrArg Prod.fst h, (congrArg Prod.snd h).symm⟩

theorem exists_of_on_ask {m : EvalM α β} {b : β}
    (h : (ask m : DescentM R S α β).on s = (.ok b, t)) :
    m.journaled.1 = .ok b ∧ t = s.count m.journaled.2 := by
  have hask := on_ask s (show m.journaled = (m.journaled.1, m.journaled.2) from rfl)
  rw [hask] at h
  exact ⟨congrArg Prod.fst h, (congrArg Prod.snd h).symm⟩

end DescentM

/-! ## Iterations -/

namespace Descent

open DescentM

theorem exists_of_findDirection [DirectionRule R α] {s t : Descent R S α} {direction : Vec α}
    (h : findDirection.on s = (.ok direction, t)) :
    ∃ proposal rule, DirectionRule.propose s.rule s.sight = (.ok proposal, rule) ∧
      (DirectionRule.orient rule s.objective s.sight proposal).journaled.1 = .ok direction ∧
      ∃ tally, t = { s with rule, tally } := by
  unfold findDirection at h
  rw [on_bind (on_get s)] at h
  rcases hpropose : DirectionRule.propose s.rule s.sight with ⟨answered, rule⟩
  rw [hpropose] at h
  dsimp only at h
  rw [on_bind (on_set s { s with rule })] at h
  obtain ⟨proposal, _, hanswer, h⟩ := exists_of_on_bind h
  obtain ⟨rfl, rfl⟩ := exists_of_on_answer hanswer
  obtain ⟨horient, rfl⟩ := exists_of_on_ask h
  exact ⟨proposal, rule, rfl, horient, _, rfl⟩

theorem exists_of_findStep [LineSearch S α] {s t : Descent R S α} {direction : Vec α} {step : α}
    (h : (findStep direction).on s = (.ok step, t)) :
    ∃ exit, (LineSearch.stepSize s.search s.objective (s.query direction)).journaled.1 =
        .ok ⟨step, exit⟩ ∧
      ∃ tally events, t = { s with tally, events } := by
  unfold findStep at h
  rw [on_bind (on_get s)] at h
  dsimp only at h
  by_cases hcounts : s.countsSearch = true
  · rw [if_pos hcounts] at h
    obtain ⟨outcome, _, hask, h⟩ := exists_of_on_bind h
    obtain ⟨hsearch, rfl⟩ := exists_of_on_ask hask
    rw [on_bind (on_modify _ _)] at h
    cases h
    exact ⟨outcome.exit, hsearch, _, _, rfl⟩
  · rw [if_neg hcounts] at h
    obtain ⟨outcome, u, hask, h⟩ := exists_of_on_bind h
    obtain ⟨hsearch, hu⟩ := exists_of_on_answer hask
    rw [on_bind (on_modify u _), hu] at h
    cases h
    exact ⟨outcome.exit, hsearch, _, _, rfl⟩

theorem exists_of_findPoint [Scalar α] {s t : Descent R S α} {direction point : Vec α} {step : α}
    (h : (findPoint direction step).on s = (.ok point, t)) :
    (∃ reached, s.current.point.along step direction = .ok reached ∧
      s.settings.box.clamp reached = .ok point) ∧ t = s := by
  unfold findPoint at h
  rw [on_bind (on_get s)] at h
  obtain ⟨reached, _, hanswer, h⟩ := exists_of_on_bind h
  obtain ⟨hreached, rfl⟩ := exists_of_on_answer hanswer
  obtain ⟨hclamp, rfl⟩ := exists_of_on_answer h
  exact ⟨⟨reached, hreached, hclamp⟩, rfl⟩

variable [Scalar α] [DirectionRule R α] [LineSearch S α]

theorem exists_of_step {s t : Descent R S α} (h : step.on s = (.ok (), t)) :
    ∃ proposal rule direction step exit reached point gradient value tally events,
      DirectionRule.propose s.rule s.openingSight = (.ok proposal, rule) ∧
      (DirectionRule.orient rule s.objective s.openingSight proposal).journaled.1 =
        .ok direction ∧
      (LineSearch.stepSize s.search s.objective (s.openingQuery direction)).journaled.1 =
        .ok ⟨step, exit⟩ ∧
      s.current.point.along step direction = .ok reached ∧
      s.settings.box.clamp reached = .ok point ∧
      s.objective.gradient point = .ok gradient ∧
      s.objective.value point = .ok value ∧
      t = { s with
        rule := DirectionRule.moved rule point
        current := {
          iteration := s.current.iteration
          point, gradient, value
          previousPoint := some s.current.point
          previousGradient := some s.current.gradient
          previousValue := some s.current.value
          direction := some direction
          previousDirection := s.current.direction
          step := step
          previousStep := s.current.step }
        tally, events } := by
  unfold Descent.step at h
  rw [on_bind (on_revise s _)] at h
  obtain ⟨direction, _, hfound, h⟩ := exists_of_on_bind h
  obtain ⟨proposal, rule, hpropose, horient, tally₁, rfl⟩ := exists_of_findDirection hfound
  rw [on_bind (on_revise _ _)] at h
  dsimp only [update] at h
  obtain ⟨step, _, hfound, h⟩ := exists_of_on_bind h
  obtain ⟨exit, hsearch, tally₂, events, rfl⟩ := exists_of_findStep hfound
  rw [on_bind (on_revise _ _)] at h
  dsimp only [update] at h
  obtain ⟨point, _, hfound, h⟩ := exists_of_on_bind h
  obtain ⟨⟨reached, hreached, hclamp⟩, rfl⟩ := exists_of_findPoint hfound
  rw [on_bind (on_revise _ _), on_bind (on_modify _ _), on_bind (on_revise _ _),
    on_bind (on_get _)] at h
  dsimp only [update] at h
  obtain ⟨gradient, _, hasked, h⟩ := exists_of_on_bind h
  obtain ⟨hgradient, rfl⟩ := exists_of_on_ask hasked
  rw [on_bind (on_revise _ _)] at h
  dsimp only [update, count] at h
  obtain ⟨value, _, hasked, h⟩ := exists_of_on_bind h
  obtain ⟨hvalue, rfl⟩ := exists_of_on_ask hasked
  rw [on_revise] at h
  dsimp only [update, count] at h
  exact ⟨proposal, rule, direction, step, exit, reached, point, gradient, value, _, _, hpropose,
    horient, hsearch, hreached, hclamp, hgradient, hvalue, (congrArg Prod.snd h).symm⟩

theorem exists_of_advance {s t : Descent R S α} (h : advance.on s = (.ok (), t)) :
    ∃ u, step.on s = (.ok (), u) ∧
      t = u.update fun i => { i with iteration := i.iteration + 1 } := by
  unfold advance at h
  obtain ⟨_, u, hstep, h⟩ := exists_of_on_bind h
  rw [on_revise] at h
  exact ⟨u, hstep, (congrArg Prod.snd h).symm⟩

end Descent

/-! ## Iterations along a course -/

namespace Course

open Descent DescentM

variable [Scalar α] {c : Course R α} {k : Nat} {s t : Descent R S α}

theorem Describes.openingSight (h : c.Describes k s) : s.openingSight = c.sight k := by
  unfold Descent.openingSight Descent.sight
  rw [h.current]
  rfl

theorem Describes.openingQuery (h : c.Describes k s) :
    s.openingQuery (c.direction k) = c.query k := by
  unfold Descent.openingQuery
  rw [h.current]
  rfl

variable [DirectionRule R α] [LineSearch S α]

/-- Where a course follows a rule and a search, the iteration of a solver succeeds and
moves on along the course. -/
theorem Follows.advance_on (h : c.Follows s.settings s.objective s.search k)
    (hs : c.Describes k s) :
    ∃ tally events, advance.on s =
      (.ok (), { s with rule := c.rule (k + 1), current := c.iterate (k + 1), tally, events }) := by
  obtain ⟨proposal, rule, hpropose, horient, hrule⟩ := h.direction
  obtain ⟨exit, hsearch⟩ := h.step
  obtain ⟨reached, hreached, hclamp⟩ := h.point
  rw [← hs.rule, ← hs.openingSight] at hpropose
  rw [← hs.openingSight] at horient
  rw [← hs.openingQuery] at hsearch
  have hpoint : s.current.point = c.point k := by
    rw [hs.current]
    rfl
  rw [← hpoint] at hreached
  obtain ⟨tally, events, hstep⟩ := Descent.step_on hpropose (Prod.ext horient rfl)
    (Prod.ext hsearch rfl) hreached hclamp h.gradient h.value
  refine ⟨tally, events, ?_⟩
  rw [Descent.advance_on hstep]
  unfold Descent.update
  dsimp only
  rw [hs.current, ← hrule]
  rfl

/-- A successful iteration is one along every course that has the results of the
iteration for its next entries. -/
theorem Describes.of_advance (hs : c.Describes k s) (h : advance.on s = (.ok (), t))
    (hrule : c.rule (k + 1) = t.rule) (hpoint : c.point (k + 1) = t.current.point)
    (hgradient : c.gradient (k + 1) = t.current.gradient)
    (hvalue : c.value (k + 1) = t.current.value)
    (hdirection : c.direction k = t.current.direction.getD [])
    (hstep : c.step k = t.current.step) :
    c.Follows s.settings s.objective s.search k ∧
      ∃ tally events, t =
        { s with rule := c.rule (k + 1), current := c.iterate (k + 1), tally, events } := by
  obtain ⟨u, hu, rfl⟩ := exists_of_advance h
  obtain ⟨proposal, rule, direction, step, exit, reached, point, gradient, value, tally, events,
    hpropose, horient, hsearch, hreached, hclamp, hasked, hvalued, rfl⟩ := exists_of_step hu
  dsimp only [Descent.update] at hrule hpoint hgradient hvalue hdirection hstep
  obtain rfl : c.direction k = direction := hdirection
  rw [hs.openingSight] at hpropose horient
  rw [hs.openingQuery] at hsearch
  have hcurrent : s.current.point = c.point k := by
    rw [hs.current]
    rfl
  have hfollows : c.Follows s.settings s.objective s.search k := by
    constructor
    · refine ⟨proposal, rule, ?_, horient, ?_⟩
      · rw [← hs.rule]
        exact hpropose
      · rw [hrule, hpoint]
    · exact ⟨exit, by rw [hstep]; exact hsearch⟩
    · exact ⟨reached, by rw [← hcurrent, hstep]; exact hreached, by rw [hpoint]; exact hclamp⟩
    · rw [hpoint, hgradient]
      exact hasked
    · rw [hpoint, hvalue]
      exact hvalued
  refine ⟨hfollows, tally, events, ?_⟩
  unfold Descent.update iterate
  dsimp only
  rw [hrule, hpoint, hgradient, hvalue, hs.current]
  simp only [before, Nat.add_sub_cancel, hstep]
  rfl

/-- Two points in a row can be compared. -/
theorem Follows.exists_sub {settings : DescentSettings α} {objective : Objective α} {search : S}
    (h : c.Follows settings objective search k) :
    ∃ difference, (c.point (k + 1)).sub (c.point k) = .ok difference := by
  obtain ⟨reached, hreached, hclamp⟩ := h.point
  refine Vec.combine_of_fits _ ?_
  have hfirst := Vec.fits_of_combine hreached
  have hsecond := Box.fits_of_clamp hclamp
  omega

end Course

end Downhill
