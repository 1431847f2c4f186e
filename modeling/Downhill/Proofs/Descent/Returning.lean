import Downhill.Proofs.Conjugate.Sizes
import Downhill.Proofs.Coordinate.Stall
import Downhill.Proofs.LineSearch.Returning

/-!
# Runs that return

On an objective that answers at every point of the size of the first one, no part of a run
of a line search solver fails.  All points, gradients and directions keep that size, and a
coordinate rule keeps its place in its order, so that it never turns to a coordinate there
is not.
-/

namespace Downhill

variable {α : Type} {n : Nat}

/-! ## Coordinate directions -/

/-- A rule at some place in its order, whose cycles begin and end at points of the size. -/
structure Coordinate.Fits (c : Coordinate (Vec α)) (n : Nat) : Prop where
  given : ∃ order k, c.HasGiven order n k
  cycleStart : c.cycleStart.length = n
  cycleEnd : c.cycleEnd.length = n

namespace Coordinate

variable {c : Coordinate (Vec α)}

theorem fits_start (order : CoordinateOrder) {point : Vec α} (hn : 0 < point.length) :
    (start order point.length point).Fits point.length :=
  ⟨⟨order, 0, hasGiven_start hn point⟩, rfl, rfl⟩

theorem Fits.moved (h : c.Fits n) {point : Vec α} (hpoint : point.length = n) :
    (c.moved point).Fits n := by
  obtain ⟨⟨order, k, hgiven⟩, hstart, hend⟩ := h
  refine ⟨⟨order, k, hgiven.moved point⟩, ?_, ?_⟩
  · unfold Coordinate.moved
    split
    · split_ifs <;> assumption
    · exact hstart
  · unfold Coordinate.moved
    split
    · split_ifs <;> assumption
    · exact hend

variable [Scalar α]

theorem Fits.exists_next (h : c.Fits n) (hn : 0 < n) :
    ∃ d rule, c.next = (.ok d, rule) ∧ d.length = n ∧ rule.Fits n := by
  obtain ⟨⟨order, k, hgiven⟩, hstart, hend⟩ := h
  obtain ⟨hheading, hturned⟩ := hgiven.turn hn
  obtain ⟨hkept, hkept'⟩ := c.ends_turn
  unfold next nextWith
  rw [if_neg (by rw [hgiven.dimension_eq]; omega)]
  rcases hturn : c.turn with ⟨heading, rule⟩
  rw [hturn] at hheading hturned hkept hkept'
  have hrule : rule.Fits n := ⟨⟨order, k + 1, hturned⟩, hkept.symm ▸ hstart, hkept'.symm ▸ hend⟩
  cases heading with
  | axis i =>
    obtain ⟨e, he, hlength⟩ := Vec.exists_unit (α := α) (order.lt_of_heading hn hheading.symm)
    rw [← hgiven.dimension_eq] at he
    exact ⟨e, rule, Prod.ext he rfl, hlength, hrule⟩
  | join =>
    obtain ⟨d, hd, hlength⟩ := Vec.exists_combine (· - ·) hrule.cycleEnd hrule.cycleStart
    exact ⟨d, rule, Prod.ext hd rfl, hlength, hrule⟩

theorem returns_orient {f : Objective α} {point d : Vec α} (hf : f.Answers n)
    (hpoint : point.length = n) (hd : d.length = n) (value : α) :
    Returns (orient f point value d) fun direction => direction.length = n := by
  have hprobed : Returns (EvalM.answer (point.along probe d) : EvalM α (Vec α))
      fun x => x.length = n := Returns.answer (Vec.exists_along hpoint probe hd)
  refine hprobed.bind fun x hx => (returns_askValue hf hx).bind fun probedValue _ => .pure ?_
  split
  · exact hd
  · exact (Vec.length_neg d).trans hd

end Coordinate

/-! ## All rules -/

/-- What a rule is shown is of the size. -/
structure Sight.Fits (sight : Sight α) (n : Nat) : Prop where
  point : sight.point.length = n
  gradient : sight.gradient.length = n
  previousGradient : ∀ g, sight.previousGradient = some g → g.length = n
  previousDirection : ∀ d, sight.previousDirection = some d → d.length = n

namespace Strategy

def Fits (s : Strategy α) (n : Nat) : Prop :=
  match s with
  | steepest | conjugate _ => True
  | coordinate rule => rule.Fits n

variable {s : Strategy α} {sight : Sight α}

theorem Fits.moved (h : s.Fits n) {point : Vec α} (hpoint : point.length = n) :
    (s.moved point).Fits n := by
  cases s with
  | steepest | conjugate rule => trivial
  | coordinate rule => exact Coordinate.Fits.moved h hpoint

variable [Scalar α]

theorem Fits.exists_propose (h : s.Fits n) (hn : 0 < n) (hsight : sight.Fits n) :
    ∃ d rule, s.propose sight = (.ok d, rule) ∧ d.length = n ∧ rule.Fits n := by
  cases s with
  | steepest => exact ⟨_, _, rfl, (Vec.length_neg _).trans hsight.gradient, trivial⟩
  | conjugate rule =>
    obtain ⟨⟨d, next⟩, hnext, hlength⟩ := rule.exists_next hsight.gradient
      hsight.previousGradient hsight.previousDirection
    refine ⟨d, .conjugate next, ?_, hlength, trivial⟩
    simp only [propose, hnext]
  | coordinate rule =>
    obtain ⟨d, next, hnext, hlength, hfits⟩ := Coordinate.Fits.exists_next h hn
    refine ⟨d, .coordinate next, ?_, hlength, hfits⟩
    simp only [propose, hnext]

theorem returns_orient {f : Objective α} (hf : f.Answers n) (hsight : sight.Fits n) {d : Vec α}
    (hd : d.length = n) : Returns (s.orient f sight d) fun direction => direction.length = n := by
  cases s with
  | steepest | conjugate rule => exact .pure hd
  | coordinate rule => exact Coordinate.returns_orient hf hsight.point hd sight.value

end Strategy

/-! ## One round -/

/-- What a solver knows is of the size, and after an iteration it knows an earlier one. -/
structure Iterate.Fits (i : Iterate α) (n : Nat) : Prop where
  point : i.point.length = n
  gradient : i.gradient.length = n
  previousPoint : ∀ p, i.previousPoint = some p → p.length = n
  previousGradient : ∀ g, i.previousGradient = some g → g.length = n
  direction : ∀ d, i.direction = some d → d.length = n
  earlier : i.iteration ≠ 0 → ∃ p v, i.previousPoint = some p ∧ i.previousValue = some v

namespace Descent

variable [Scalar α]

/-- A solver whose parts all fit the size, on an objective that answers. -/
structure Ready (s : Descent (Strategy α) (Search α) α) (n : Nat) : Prop where
  objective : s.objective.Answers n
  search : s.search.Fits n
  settings : s.settings.toLoopSettings.Fits n
  rule : s.rule.Fits n
  current : s.current.Fits n

variable {s t : Descent (Strategy α) (Search α) α}

theorem Ready.of_alike (h : s.Ready n) (ht : Alike s t) : t.Ready n := by
  obtain ⟨objective, search, settings, rule, current⟩ := h
  rw [← ht.objective] at objective
  rw [← ht.search] at search
  rw [← ht.settings] at settings
  rw [← ht.rule] at rule
  rw [← ht.current] at current
  exact ⟨objective, search, settings, rule, current⟩

theorem Ready.exists_check (h : s.Ready n) : ∃ stops t, check.on s = (.ok stops, t) := by
  generalize hu : s.gradientMeasured = u
  have hu' : u.Ready n := by
    subst hu
    exact ⟨h.objective, h.search, h.settings, h.rule, h.current⟩
  cases hlong : (u.settings.checksGradient && gradientIsShort u.gradientNorm
      u.settings.gradientTolerance) with
  | true =>
    subst hu
    obtain ⟨hchecks, hshort⟩ := Bool.and_eq_true_iff.mp hlong
    exact ⟨_, _, check_of_short hchecks hshort⟩
  | false =>
    obtain ⟨holds, hsome, hnone⟩ := hu'.settings.exists_holds u.current.point
    have hpredicate : predicateHolds.on u = (.ok holds, u) := predicateHolds_on hsome hnone
    cases holds with
    | true => exact ⟨_, _, check_of_predicate hu hlong hpredicate⟩
    | false =>
      by_cases hlimit : u.settings.maxIterations ≤ u.current.iteration
      · exact ⟨_, _, check_of_limit hu hlong hpredicate hlimit⟩
      by_cases hfirst : u.current.iteration = 0
      · exact ⟨_, _, check_of_first hu hlong hpredicate hlimit hfirst⟩
      obtain ⟨p, v, hprevious, hvalue⟩ := hu'.current.earlier hfirst
      obtain ⟨difference, hdifference, -⟩ := Vec.exists_combine (· - ·) hu'.current.point
        (hu'.current.previousPoint p hprevious)
      exact ⟨_, _, check_of_changes hu hlong hpredicate hlimit hfirst hprevious hdifference hvalue⟩

/-- An iteration finds a direction, a step and a point, and gradient and value there. -/
theorem Ready.exists_advance (h : s.Ready n) (hn : 0 < n) :
    ∃ t, advance.on s = (.ok (), t) ∧ t.Ready n := by
  have hcurrent := h.current
  have hsight : s.openingSight.Fits n :=
    ⟨hcurrent.point, hcurrent.gradient, hcurrent.previousGradient, hcurrent.direction⟩
  obtain ⟨proposal, rule, hpropose, hproposal, hrule⟩ := h.rule.exists_propose hn hsight
  obtain ⟨direction, asked, horient, hdirection⟩ :=
    (Strategy.returns_orient (s := rule) h.objective hsight hproposal).journaled
  have hquery : (s.openingQuery direction).Fits n :=
    ⟨hcurrent.point, hdirection, hcurrent.previousPoint, hcurrent.direction⟩
  obtain ⟨outcome, searched, hsearch, -⟩ :=
    (Search.returns_stepSize h.search h.objective hquery).journaled
  obtain ⟨reached, hreached, hlength⟩ :=
    Vec.exists_along hcurrent.point outcome.step hdirection
  obtain ⟨point, hclamp, hpoint⟩ := h.settings.box.exists_clamp hlength
  obtain ⟨gradient, hgradient, hgradientLength⟩ := h.objective.gradient hpoint
  obtain ⟨value, hvalue⟩ := h.objective.value hpoint
  obtain ⟨tally, events, hstep⟩ :=
    step_on hpropose horient hsearch hreached hclamp hgradient hvalue
  refine ⟨_, advance_on hstep, h.objective, h.search, h.settings, hrule.moved hpoint, ?_⟩
  refine ⟨hpoint, hgradientLength, ?_, ?_, ?_, fun _ => ⟨_, _, rfl, rfl⟩⟩
  · intro p hp
    obtain rfl := Option.some.inj hp
    exact hcurrent.point
  · intro g hg
    obtain rfl := Option.some.inj hg
    exact hcurrent.gradient
  · intro d hd
    obtain rfl := Option.some.inj hd
    exact hdirection

/-! ## Runs -/

theorem Ready.exists_iterate (hn : 0 < n) (left : Nat) (h : s.Ready n) :
    ∃ t, (iterate left).on s = (.ok (), t) := by
  induction left generalizing s with
  | zero =>
    obtain ⟨stops, checked, hcheck⟩ := h.exists_check
    refine ⟨checked, ?_⟩
    unfold iterate
    rw [DescentM.on_bind hcheck]
    rfl
  | succ left ih =>
    obtain ⟨stops, checked, hcheck⟩ := h.exists_check
    cases stops with
    | true => exact ⟨checked, iterate_of_stop (left + 1) hcheck⟩
    | false =>
      have hchecked := h.of_alike (alike_of_check hcheck)
      obtain ⟨advanced, hadvance, hadvanced⟩ := hchecked.exists_advance hn
      obtain ⟨events, hrecord⟩ := record_on advanced
      rw [iterate_succ left hcheck hadvance hrecord]
      exact ih ⟨hadvanced.objective, hadvanced.search, hadvanced.settings, hadvanced.rule,
        hadvanced.current⟩

theorem Ready.exists_solve (hn : 0 < n) (h : s.Ready n) :
    ∃ x final, solve.on s = (.ok x, final) := by
  have hstarted : (s.announce (.started s.kind)).Ready n :=
    ⟨h.objective, h.search, h.settings, h.rule, h.current⟩
  obtain ⟨t, hloop⟩ := hstarted.exists_iterate hn (s.settings.maxIterations - s.current.iteration)
  exact ⟨_, _, solve_on hloop⟩

/-! ## Construction -/

variable {G : Type} {kind : SolverKind} {settings : DescentSettings α} {problem : Problem α G}
  {start : Nested α} {keeps : Bool} {point : Vec α}

/-- Settings select a solver that takes their method. -/
theorem exists_chooseRule_of_select (hkind : (Settings.descent settings).select = .ok kind)
    (hn : 0 < point.length) :
    ∃ rule, chooseRule kind settings point = .ok rule ∧ rule.Fits point.length := by
  unfold Settings.select at hkind
  dsimp only at hkind
  unfold chooseRule
  cases hmethod : settings.method with
  | none =>
    rw [hmethod] at hkind
    cases hkind
    exact ⟨.steepest, rfl, trivial⟩
  | some method =>
    rw [hmethod] at hkind
    cases method with
    | conjugate formula =>
      cases hkind
      exact ⟨_, rfl, trivial⟩
    | coordinate order =>
      cases hkind
      exact ⟨_, rfl, Coordinate.fits_start order hn⟩

/-- Without a search of the caller's own no search can be chosen just when it cannot be told
whether a quadratic is definite. -/
theorem chooseSearch_eq_error_iff (hsearch : settings.search = none) {fault : Fault} :
    chooseSearch settings problem = .error fault ↔
      ∃ q, problem = .quadratic q ∧ q.isPositiveDefinite = .error fault := by
  unfold chooseSearch
  rw [hsearch]
  cases problem with
  | plain f | empirical e sampler =>
    refine iff_of_false (fun h => nomatch h) ?_
    rintro ⟨q, h, -⟩
    cases h
  | quadratic q =>
    dsimp only
    rw [Fault.bind_eq_error_iff]
    constructor
    · rintro (h | ⟨definite, -, h⟩)
      · exact ⟨q, rfl, h⟩
      · split at h <;> cases h
    · rintro ⟨_, h, hfails⟩
      cases h
      exact Or.inl hfails

theorem fits_of_chooseSearch (hsearch : settings.search = none)
    (hf : problem.objective.Answers n) {search : Search α} {counts : Bool}
    (h : chooseSearch settings problem = .ok (search, counts)) : search.Fits n := by
  unfold chooseSearch at h
  rw [hsearch] at h
  cases problem with
  | plain f | empirical e sampler =>
    cases h
    trivial
  | quadratic q =>
    obtain ⟨definite, -, h⟩ := Fault.bind_eq_ok_iff.mp h
    split at h
    · cases h
      exact Quadratic.search_fits hf
    · cases h
      trivial

theorem exists_start_of_answers (kind : SolverKind) (keeps counts : Bool)
    {objective : Objective α} {rule : Strategy α} {search : Search α}
    (hf : objective.Answers point.length) (hsearch : search.Fits point.length)
    (hsettings : settings.toLoopSettings.Fits point.length) (hrule : rule.Fits point.length) :
    ∃ solver, Descent.start kind settings objective rule search counts keeps point = .ok solver ∧
      solver.Ready point.length := by
  obtain ⟨gradient, hgradient, hlength⟩ := hf.gradient rfl
  obtain ⟨value, hvalue⟩ := hf.value rfl
  obtain ⟨tally, hstart⟩ := start_eq hgradient hvalue kind settings rule search counts keeps
  refine ⟨_, hstart, hf, hsearch, hsettings, hrule, rfl, hlength, ?_, ?_, ?_,
    fun hne => absurd rfl hne⟩
  · exact fun p hp => nomatch hp
  · exact fun g hg => nomatch hg
  · exact fun d hd => nomatch hd

/-- Once a search is chosen, a solver can be made. -/
theorem exists_create_of_chooseSearch (keeps : Bool)
    (hkind : (Settings.descent settings).select = .ok kind) (hsearch : settings.search = none)
    (hpoint : start.toPoint = .ok point) (hf : problem.objective.Answers point.length)
    (hsettings : settings.toLoopSettings.Fits point.length) {search : Search α} {counts : Bool}
    (hchosen : chooseSearch settings problem = .ok (search, counts)) :
    ∃ solver, create kind settings problem start keeps = .ok solver ∧
      solver.Ready point.length := by
  obtain ⟨rule, hrule, hruleFits⟩ :=
    exists_chooseRule_of_select hkind (length_pos_of_toPoint hpoint)
  obtain ⟨solver, hstart, hready⟩ := exists_start_of_answers kind keeps counts hf
    (fits_of_chooseSearch hsearch hf hchosen) hsettings hruleFits
  exact ⟨solver, create_of_start hpoint hsettings.box.checkDimension hchosen hrule hstart, hready⟩

theorem create_of_chooseSearch_error {fault : Fault} (kind : SolverKind) (keeps : Bool)
    (hpoint : start.toPoint = .ok point) (hsettings : settings.toLoopSettings.Fits point.length)
    (hfails : chooseSearch settings problem = .error fault) :
    create kind settings problem start keeps = .error fault := by
  unfold create
  simp only [hpoint, hsettings.box.checkDimension, hfails, bind, Except.bind]

end Descent

end Downhill
