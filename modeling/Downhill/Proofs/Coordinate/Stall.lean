import Downhill.Objective.Basic
import Downhill.Proofs.Coordinate.Schedule
import Downhill.Proofs.Descent.Flags
import Downhill.Proofs.LineSearch.Backtracking

/-!
# Stalls of coordinate descent

A coordinate solver that stops because nothing changes has waited for at least as many
iterations as there are coordinates.  That is a whole period of the cyclic order.  Of the
other orders it need not be one, and then a coordinate can be left out.
-/

namespace Downhill

open Descent

variable {α : Type} [Scalar α]

/-- The direction that led to a state is along a coordinate, up to its sign. -/
def Descent.Searched {R S : Type} (s : Descent R S α) (n i : Nat) : Prop :=
  ∃ e, Vec.unit n i = .ok e ∧ (s.current.direction = some e ∨ s.current.direction = some e.neg)

/-- The order that a coordinate solver takes. -/
def DescentSettings.order (settings : DescentSettings α) : CoordinateOrder :=
  match settings.method with
  | some (.coordinate order) => order
  | _ => .cycleAndJoin

theorem chooseRule_coordinate (settings : DescentSettings α) (point : Vec α) :
    chooseRule .coordinate settings point =
      .ok (.coordinate (Coordinate.start settings.order point.length point)) := by
  unfold chooseRule DescentSettings.order chooseRule.coordinate
  cases settings.method with
  | none => rfl
  | some method =>
    cases method with
    | conjugate formula => rfl
    | coordinate order => rfl

namespace Coordinate

/-- The sign is all that is decided about a direction. -/
theorem eq_or_neg_of_orient {f : Objective α} {point d direction : Vec α} {value : α}
    (h : (orient f point value direction).journaled.1 = .ok d) :
    d = direction ∨ d = direction.neg := by
  obtain ⟨probed, _, -, h⟩ := exists_of_run_bind (Prod.ext h rfl)
  obtain ⟨probedValue, _, -, h⟩ := exists_of_run_bind h
  have hd : (if probedValue - value < 0 then direction else direction.neg) = d :=
    Except.ok.inj (congrArg Prod.fst h)
  split at hd
  · exact Or.inl hd.symm
  · exact Or.inr hd.symm

/-- The value at the end of the probe decides. -/
theorem orient_of_probed {f : Objective α} {point direction probed : Vec α}
    {value probedValue : α} (hprobed : point.along probe direction = .ok probed)
    (hvalue : f.value probed = .ok probedValue) :
    (orient f point value direction).journaled.1 =
      .ok (if probedValue - value < 0 then direction else direction.neg) := by
  unfold orient Objective.askValue
  rw [hprobed, EvalM.answer_ok, pure_bind, hvalue]
  rfl

/-- A rule that turns to a coordinate proposes the direction along it. -/
theorem HasGiven.next {c : Coordinate (Vec α)} {order : CoordinateOrder} {n k : Nat}
    (h : c.HasGiven order n k) (hn : 0 < n) :
    c.next.2.HasGiven order n (k + 1) ∧
      ∀ i, order.heading n k = .axis i → c.next.1 = Vec.unit n i := by
  obtain ⟨hheading, hturned⟩ := h.turn hn
  unfold Coordinate.next nextWith
  rw [if_neg (by rw [h.dimension_eq]; omega)]
  rcases hturn : c.turn with ⟨heading, next⟩
  rw [hturn] at hheading hturned
  cases heading with
  | axis i =>
    refine ⟨hturned, fun i' hi => ?_⟩
    obtain rfl : i = i' := Heading.axis.inj (hheading.trans hi)
    dsimp only
    rw [h.dimension_eq]
  | join =>
    refine ⟨hturned, fun i' hi => ?_⟩
    cases hheading.trans hi

end Coordinate

/-! ## Along a course -/

namespace Course

variable {S : Type} [LineSearch S α] {c : Course (Strategy α) α} {settings : DescentSettings α}
  {objective : Objective α} {search : S} {k : Nat}

/-- What an iteration of a coordinate rule searches, and where it leaves the rule. -/
theorem Follows.coordinate {rule : Coordinate (Vec α)} {order : CoordinateOrder} {n : Nat}
    (h : c.Follows settings objective search k) (hrule : c.rule k = .coordinate rule)
    (hgiven : rule.HasGiven order n k) (hn : 0 < n) :
    (∃ next : Coordinate (Vec α), c.rule (k + 1) = .coordinate next ∧
      next.HasGiven order n (k + 1)) ∧
      ∀ i, order.heading n k = .axis i → ∃ e, Vec.unit n i = .ok e ∧
        (c.direction k = e ∨ c.direction k = e.neg) := by
  obtain ⟨proposal, next, hpropose, horient, hmoved⟩ := h.direction
  obtain ⟨hnext, haxis⟩ := hgiven.next hn
  rw [hrule] at hpropose
  obtain ⟨hproposal, rfl⟩ := Prod.mk.inj hpropose
  refine ⟨⟨_, hmoved, hnext.moved _⟩, fun i hi => ⟨proposal, ?_, ?_⟩⟩
  · rw [← haxis i hi]
    exact hproposal
  · exact Coordinate.eq_or_neg_of_orient horient

end Course

/-! ## Runs -/

namespace Descent

variable {G : Type} {settings : DescentSettings α} {problem : Problem α G} {start : Nested α}
  {keeps : Bool} {solver final : Descent (Strategy α) (Search α) α} {x : Vec α}
  {run : Nat → Descent (Strategy α) (Search α) α}

omit [Scalar α] in
theorem length_pos_of_toPoint {point : Vec α} (h : start.toPoint = .ok point) :
    0 < point.length := by
  obtain ⟨_, -, h⟩ := Fault.bind_eq_ok_iff.mp h
  obtain ⟨_, hnonempty, h⟩ := Fault.bind_eq_ok_iff.mp h
  cases h
  exact Nat.pos_of_ne_zero (Fault.refuse_eq_ok_iff.mp hnonempty)

/-- Every coordinate is searched in one of the iterations of a stretch. -/
def SearchesAll (run : Nat → Descent (Strategy α) (Search α) α) (n first last : Nat) : Prop :=
  ∀ i < n, ∃ j, first ≤ j ∧ j < last ∧ (run (j + 1)).Searched n i

section Aligned

variable {objective : Objective α} {search : Search α} {point : Vec α} {count : Nat}
  (haligned : (course run).Aligned settings objective search run count)
  (hrule : (course run).rule 0 =
    .coordinate (Coordinate.start settings.order point.length point))
  (hpoint : 0 < point.length)
include haligned hrule hpoint

/-- In every iteration of a run the solver searches where its order says. -/
theorem searches_of_aligned {k : Nat} (hk : k ≤ count) :
    (∃ rule, (course run).rule k = .coordinate rule ∧
      rule.HasGiven settings.order point.length k) ∧
    ∀ j < k, ∀ i, settings.order.heading point.length j = .axis i →
      (run (j + 1)).Searched point.length i := by
  -- The place of the rule in its order is what carries over to the next iteration.
  induction k with
  | zero =>
    exact ⟨⟨_, hrule, Coordinate.hasGiven_start hpoint point⟩, fun j hj => absurd hj j.not_lt_zero⟩
  | succ k ih =>
    obtain ⟨⟨rule, hbefore, hgiven⟩, hsearched⟩ := ih (Nat.le_of_succ_le hk)
    obtain ⟨hnext, haxis⟩ := (haligned.follows k hk).coordinate hbefore hgiven hpoint
    refine ⟨hnext, fun j hj i hi => ?_⟩
    rcases Nat.lt_succ_iff_lt_or_eq.mp hj with hj | rfl
    · exact hsearched j hj i hi
    · obtain ⟨e, hunit, hdirection⟩ := haxis i hi
      have hcurrent : (run (j + 1)).current.direction = some ((course run).direction j) := by
        rw [haligned.current (j + 1) hk]
        rfl
      rw [Searched, hcurrent]
      exact ⟨e, hunit, hdirection.imp (congrArg some) (congrArg some)⟩

theorem patience_of_aligned : DirectionRule.patience ((course run).rule count) = point.length := by
  obtain ⟨rule, hlast, hgiven⟩ := (searches_of_aligned haligned hrule hpoint (Nat.le_refl count)).1
  rw [hlast]
  exact hgiven.dimension_eq

/-- A stretch that is as long as the period of the order leaves no coordinate out. -/
theorem searchesAll_of_period {p : Nat} (hp : settings.order.period point.length ≤ p)
    (hlong : p ≤ count) : SearchesAll run point.length (count - p) count := by
  intro i hi
  obtain ⟨j, hlow, hhigh, hheading⟩ :=
    (CoordinateOrder.covers_iff hpoint p).mpr hp (count - p) i hi
  have hj : j < count := by omega
  exact ⟨j, hlow, hj, (searches_of_aligned haligned hrule hpoint hj).2 j (Nat.lt_succ_self j) i
    hheading⟩

end Aligned

/-- When a coordinate solver stops because point or value have not changed, they have not
for as many iterations as it waits for, and if the order comes around in so many, every
coordinate has been searched among them. -/
theorem stall_searches (hcreate : create .coordinate settings problem start keeps = .ok solver)
    (hsolve : solve.on solver = (.ok x, final)) :
    ∃ point count run, start.toPoint = .ok point ∧ IsRun solver run count ∧
      final.current.iteration = count ∧
      (final.pointConverged = true →
        Stalled ((course run).PointIdle settings) (max settings.pointPatience point.length) count ∧
        (settings.order.period point.length ≤ max settings.pointPatience point.length →
          SearchesAll run point.length (count - max settings.pointPatience point.length) count)) ∧
      (final.valueConverged = true →
        Stalled ((course run).ValueIdle settings) (max settings.valuePatience point.length) count ∧
        (settings.order.period point.length ≤ max settings.valuePatience point.length →
          SearchesAll run point.length (count - max settings.valuePatience point.length)
            count)) := by
  obtain ⟨point, rule, search, counts, hpoint, hchosen, -, hstarted⟩ :=
    exists_start_of_create hcreate
  rw [chooseRule_coordinate] at hchosen
  obtain rfl := Except.ok.inj hchosen
  obtain ⟨count, run, hrun, haligned, -, hrule, hiteration, hpointFlag, hvalueFlag⟩ :=
    ends_of_solve hstarted hsolve
  have hpos := length_pos_of_toPoint hpoint
  have hpatience := patience_of_aligned haligned hrule hpos
  refine ⟨point, count, run, hpoint, hrun, hiteration, fun hflag => ?_, fun hflag => ?_⟩
  · obtain ⟨-, -, hstalled⟩ := hpointFlag hflag
    rw [Course.pointPatience, hpatience] at hstalled
    exact ⟨hstalled, fun hp => searchesAll_of_period haligned hrule hpos hp hstalled.1⟩
  · obtain ⟨-, -, hstalled⟩ := hvalueFlag hflag
    rw [Course.valuePatience, hpatience] at hstalled
    exact ⟨hstalled, fun hp => searchesAll_of_period haligned hrule hpos hp hstalled.1⟩

end Descent

/-! ### A tilted plane

The plane rises along the first of three coordinates and is level along the others.  The
steps along a coordinate go down by one, and only the first coordinate changes the value.
After three steps without a change the cyclic order has come back to it, and the order back
and forth has not. -/

noncomputable def tilted : Objective ℝ := .linear [1, 0, 0] 0

/-- The constants that a backtracking search has by default. -/
noncomputable def armijo : Backtracking ℝ := ⟨1e-4, 0.5, 50⟩

section Tilted

variable {x d : Vec ℝ}

theorem dot_tilted (hx : x.length = 3) : Vec.dot [1, 0, 0] x = .ok (x.headD 0) := by
  obtain ⟨a, b, c, rfl⟩ := List.length_eq_three.mp hx
  show Except.ok (0 + 1 * a + 0 * b + 0 * c) = .ok a
  ring_nf

theorem tilted_value (hx : x.length = 3) : tilted.value x = .ok (x.headD 0) := by
  unfold tilted Objective.linear
  dsimp only
  rw [dot_tilted hx]
  show Except.ok (x.headD 0 + 0) = _
  rw [add_zero]

theorem Vec.headD_neg (d : Vec ℝ) : d.neg.headD 0 = -d.headD 0 := by
  cases d with
  | nil => exact neg_zero.symm
  | cons a d => rfl

theorem exists_along_headD (hx : x.length = 3) (hd : d.length = 3) (t : ℝ) :
    ∃ y, x.along t d = .ok y ∧ y.length = 3 ∧ y.headD 0 = x.headD 0 + t * d.headD 0 := by
  obtain ⟨a, b, c, rfl⟩ := List.length_eq_three.mp hx
  obtain ⟨p, q, r, rfl⟩ := List.length_eq_three.mp hd
  exact ⟨_, rfl, rfl, rfl⟩

theorem along_down {i : Nat} (hx : x.length = 3) (hi : i < 3) :
    x.along 1 (Vec.neg ((Vec.zeros 3).set i 1)) = .ok (x.modify i (· - 1)) := by
  obtain ⟨a, b, c, rfl⟩ := List.length_eq_three.mp hx
  interval_cases i
  · show Except.ok [a + 1 * -1, b + 1 * -0, c + 1 * -0] = .ok [a - 1, b, c]
    ring_nf
  · show Except.ok [a + 1 * -0, b + 1 * -1, c + 1 * -0] = .ok [a, b - 1, c]
    ring_nf
  · show Except.ok [a + 1 * -0, b + 1 * -0, c + 1 * -1] = .ok [a, b, c - 1]
    ring_nf

/-- A coordinate that does not rise towards the positive side is searched towards the
negative one. -/
theorem tilted_orient (hx : x.length = 3) (hd : d.length = 3) (hup : 0 ≤ d.headD 0) :
    (Coordinate.orient tilted x (x.headD 0) d).journaled.1 = .ok d.neg := by
  obtain ⟨y, hy, hlength, hhead⟩ := exists_along_headD hx hd Coordinate.probe
  have hprobe : (0 : ℝ) ≤ Coordinate.probe * d.headD 0 :=
    mul_nonneg (by unfold Coordinate.probe; norm_num) hup
  have hrises : ¬y.headD 0 - x.headD 0 < 0 := by
    rw [hhead]
    linarith
  rw [Coordinate.orient_of_probed hy (tilted_value hlength), if_neg hrises]

theorem tilted_answers (hx : x.length = 3) (hd : d.length = 3) :
    (⟨tilted, x, d⟩ : Ray ℝ).Answers (fun t => x.headD 0 + t * d.headD 0) fun _ => d.headD 0 where
  value t := by
    obtain ⟨y, hy, hlength, hhead⟩ := exists_along_headD hx hd t
    exact ⟨y, hy, (tilted_value hlength).trans (congrArg Except.ok hhead)⟩
  slope t := by
    obtain ⟨y, hy, -⟩ := exists_along_headD hx hd t
    exact ⟨y, [1, 0, 0], hy, rfl, dot_tilted hd⟩

/-- The first trial step is taken along every direction that does not rise. -/
theorem tilted_search {q : Query ℝ} (hx : q.point.length = 3) (hd : q.direction.length = 3)
    (hdown : q.direction.headD 0 ≤ 0) :
    (LineSearch.stepSize (.backtracking armijo .unit : Search ℝ) tilted q).journaled.1 =
      .ok ⟨1, .accepted⟩ := by
  have haccepted : armijo.plainSearch (fun t => q.point.headD 0 + t * q.direction.headD 0)
      (fun _ => q.direction.headD 0) 1 = ⟨1, .accepted⟩ := by
    have hfirst : (Backtracking.firstStep 1 : ℝ) = 1 := if_pos zero_lt_one
    rw [Backtracking.plainSearch_eq, hfirst, show armijo.limit = 49 + 1 from rfl,
      Backtracking.plainShrink_succ, if_pos]
    show _ + 1 * q.direction.headD 0 ≤ _ + 0 * _ + 1e-4 * 1 * q.direction.headD 0
    linarith
  rw [← haccepted]
  exact armijo.explore_search (tilted_answers hx hd) 1

theorem Box.clamp_above (a b c : ℝ) : (⟨some [-1], none⟩ : Box ℝ).clamp [a, b, c] =
    .ok [max a (-1), max b (-1), max c (-1)] := by
  show Except.ok [Scalar.maximum a (-1), Scalar.maximum b (-1), Scalar.maximum c (-1)] = _
  simp [Scalar.maximum]

end Tilted

namespace Descent

open Course

/-- The rule that turns to the next coordinate in every iteration. -/
noncomputable def planeRule (order : CoordinateOrder) : Nat → Coordinate (Vec ℝ)
  | 0 => .start order 3 [0, 0, 0]
  | k + 1 => (planeRule order k).next.2

theorem planeRule_hasGiven (order : CoordinateOrder) (k : Nat) :
    (planeRule order k).HasGiven order 3 k := by
  induction k with
  | zero => exact Coordinate.hasGiven_start (Nat.succ_pos 2) _
  | succ k ih => exact (ih.next (Nat.succ_pos 2)).1

/-- The direction down the coordinate that is the turn of an iteration. -/
noncomputable def planeDirection (order : CoordinateOrder) (k : Nat) : Vec ℝ :=
  match order.heading 3 k with
  | .axis i => Vec.neg ((Vec.zeros 3).set i 1)
  | .join => []

/-- Three coordinates go down one after the other, and a fourth step leads to the given
point. -/
noncomputable def planePoint (last : Vec ℝ) : Nat → Vec ℝ
  | 0 => [0, 0, 0]
  | 1 => [-1, 0, 0]
  | 2 => [-1, -1, 0]
  | 3 => [-1, -1, -1]
  | _ => last

noncomputable def planeCourse (order : CoordinateOrder) (last : Vec ℝ) :
    Course (Strategy ℝ) ℝ where
  rule k := .coordinate (planeRule order k)
  point := planePoint last
  gradient _ := [1, 0, 0]
  value k := (planePoint last k).headD 0
  direction := planeDirection order
  step _ := 1

/-- Settings with which only the value and a limit can end the loop.  The rule asks for three
idle iterations, and they for one. -/
noncomputable def planeSettings (order : CoordinateOrder) (box : Box ℝ) : DescentSettings ℝ :=
  { halvingSettings with
    checksPoint := false
    checksGradient := false
    predicate := none
    valueTolerance := 1e-10
    valuePatience := 1
    method := some (.coordinate order)
    search := some (.backtracking armijo .unit)
    box }

section Plane

variable {order : CoordinateOrder} {box : Box ℝ} {last : Vec ℝ} {k i : Nat}

theorem length_planePoint (hlast : last.length = 3) (k : Nat) :
    (planePoint last k).length = 3 := by
  unfold planePoint
  split
  · rfl
  · rfl
  · rfl
  · rfl
  · exact hlast

theorem planeCourse_follows (hlast : last.length = 3) (horder : order ≠ .cycleAndJoin)
    (haxis : order.heading 3 k = .axis i) (hi : i < 3)
    (hclamp : box.clamp ((planePoint last k).modify i (· - 1)) = .ok (planePoint last (k + 1))) :
    (planeCourse order last).Follows (planeSettings order box) tilted
      (.backtracking armijo .unit : Search ℝ) k := by
  obtain ⟨hgiven, hnext⟩ := (planeRule_hasGiven order k).next (Nat.succ_pos 2)
  have hpoint := length_planePoint hlast k
  have hlength : ((Vec.zeros 3).set i 1 : Vec ℝ).length = 3 := by simp
  have hdirection : planeDirection order k = Vec.neg ((Vec.zeros 3).set i 1) := by
    unfold planeDirection
    rw [haxis]
  have hup : (0 : ℝ) ≤ ((Vec.zeros 3).set i 1 : Vec ℝ).headD 0 := by
    interval_cases i
    · exact zero_le_one
    · exact le_rfl
    · exact le_rfl
  have hproposal : (planeRule order k).next.1 = .ok ((Vec.zeros 3).set i 1) := by
    rw [hnext i haxis]
    exact if_pos hi
  -- Only the order that joins the ends of a cycle looks at the points.
  have hmoved : ∀ x, (planeRule order (k + 1)).moved x = planeRule order (k + 1) := by
    intro x
    unfold Coordinate.moved
    rw [show (planeRule order (k + 1)).order = order from hgiven.order_eq]
    cases order with
    | cycle | backAndForth => rfl
    | cycleAndJoin => exact absurd rfl horder
  constructor
  · refine ⟨(Vec.zeros 3).set i 1, .coordinate (planeRule order (k + 1)), ?_, ?_, ?_⟩
    · exact Prod.ext hproposal rfl
    · show (Coordinate.orient tilted (planePoint last k) ((planePoint last k).headD 0)
        ((Vec.zeros 3).set i 1)).journaled.1 = .ok (planeDirection order k)
      rw [hdirection]
      exact tilted_orient hpoint hlength hup
    · exact congrArg Strategy.coordinate (hmoved _).symm
  · refine ⟨.accepted, tilted_search hpoint ?_ ?_⟩
    · show (planeDirection order k).length = 3
      rw [hdirection, Vec.length_neg, hlength]
    · show (planeDirection order k).headD 0 ≤ 0
      rw [hdirection, Vec.headD_neg]
      exact neg_nonpos.mpr hup
  · refine ⟨_, ?_, hclamp⟩
    show (planePoint last k).along 1 (planeDirection order k) = _
    rw [hdirection, along_down hpoint hi]
  · rfl
  · exact tilted_value (length_planePoint hlast (k + 1))

theorem planeCourse_valueIdle_iff (hhead : last.headD 0 = -1) :
    (planeCourse order last).ValueIdle (planeSettings order box) (k + 1) ↔ k ≠ 0 := by
  have hvalue : ∀ j, (planePoint last (j + 1)).headD 0 = -1 := by
    intro j
    unfold planePoint
    split <;> first | rfl | exact hhead | omega
  show |(planePoint last (k + 1)).headD 0 - (planePoint last k).headD 0| ≤ 1e-10 ↔ _
  rw [hvalue]
  cases k with
  | zero =>
    show |(-1 : ℝ) - 0| ≤ 1e-10 ↔ _
    norm_num
  | succ k =>
    rw [hvalue]
    norm_num

theorem planeCourse_stalled_iff (hhead : last.headD 0 = -1) {p : Nat} :
    Stalled ((planeCourse order last).ValueIdle (planeSettings order box)) p k ↔
      p < k ∨ p = 0 := by
  constructor
  · rintro ⟨hle, hall⟩
    by_contra hshort
    obtain ⟨rfl, hpos⟩ : p = k ∧ 0 < k := by omega
    have hfirst := hall (p - 1) (Nat.sub_lt hpos Nat.one_pos)
    rw [show p - (p - 1) = 0 + 1 by omega] at hfirst
    exact (planeCourse_valueIdle_iff hhead).mp hfirst rfl
  · rintro (hlt | rfl)
    · refine ⟨hlt.le, fun i hi => ?_⟩
      rw [show k - i = k - i - 1 + 1 by omega]
      exact (planeCourse_valueIdle_iff hhead).mpr (by omega)
    · exact ⟨Nat.zero_le k, fun i hi => absurd hi i.not_lt_zero⟩

theorem planeCourse_ends_iff (hhead : last.headD 0 = -1) {e : Ending} (hk : k < 10) :
    (planeCourse order last).Ends (planeSettings order box) k e ↔ e = .value ∧ 3 < k := by
  cases e with
  | gradient | point => exact iff_of_false (fun h => nomatch h.1) fun h => nomatch h.1
  | custom => exact iff_of_false (fun ⟨_, h, _⟩ => nomatch h) fun h => nomatch h.1
  | limit =>
    have hlimit : ¬10 ≤ k := not_le.mpr hk
    exact iff_of_false hlimit fun h => nomatch h.1
  | value =>
    have hpatience : (planeCourse order last).valuePatience (planeSettings order box) k = 3 := by
      show max 1 (planeRule order k).dimension = 3
      rw [(planeRule_hasGiven order k).dimension_eq]
      rfl
    show true = true ∧ 0 < k ∧ Stalled _ _ k ↔ _
    rw [hpatience, planeCourse_stalled_iff hhead]
    simp only [true_and]
    omega

/-- A run that takes the first four steps stops after them. -/
theorem exists_run_plane (hhead : last.headD 0 = -1)
    (hsize : box.checkDimension 3 = .ok ())
    (hfollows : ∀ k < 4, (planeCourse order last).Follows (planeSettings order box) tilted
      (.backtracking armijo .unit : Search ℝ) k) :
    ∃ (solver final : Descent (Strategy ℝ) (Search ℝ) ℝ)
      (run : Nat → Descent (Strategy ℝ) (Search ℝ) ℝ),
      create .coordinate (planeSettings order box) (.plain tilted : Problem ℝ Unit)
        (Nested.ofVec [0, 0, 0]) true = .ok solver ∧
      solve.on solver = (.ok last, final) ∧ IsRun solver run 4 ∧
      final.current.iteration = 4 ∧ final.valueConverged = true ∧
      ∀ k ≤ 4, (run k).current = (planeCourse order last).iterate k := by
  have hends : (planeCourse order last).Ends (planeSettings order box) 4 .value :=
    (planeCourse_ends_iff hhead (by omega)).mpr ⟨rfl, by omega⟩
  have hreturns : (planeCourse order last).Returns (planeSettings order box) tilted
      (.backtracking armijo .unit : Search ℝ) := by
    refine ⟨rfl, tilted_value rfl, fun _ _ _ _ hp => (nomatch hp), fun k hreaches => ?_⟩
    refine hfollows k (Nat.lt_of_not_le fun hk => ?_)
    exact hreaches 4 (Nat.lt_succ_of_le hk) .value hends
  obtain ⟨solver, hstart, htracks⟩ := tracks_of_start hreturns .coordinate false true
  obtain ⟨k, e, final, run, hsolve, hrun, hdescribes, hreaches, hfirst, hstopped⟩ :=
    exists_run_of_tracks hreturns htracks
  have hk : k ≤ 4 := Nat.le_of_not_lt fun hk => hreaches 4 hk .value hends
  obtain ⟨rfl, hlate⟩ := (planeCourse_ends_iff hhead (by omega)).mp hfirst.1
  -- The value can end the loop at the fourth entry, and the run gets no further than that.
  obtain rfl : k = 4 := by omega
  have hcreate : create .coordinate (planeSettings order box) (.plain tilted : Problem ℝ Unit)
      (Nested.ofVec [0, 0, 0]) true = .ok solver :=
    create_of_start (Nested.toPoint_ofVec (List.cons_ne_nil _ _)) hsize rfl rfl hstart
  refine ⟨solver, final, run, hcreate, hsolve, hrun, ?_, ?_, fun k hk => (hdescribes k hk).current⟩
  · rw [hstopped.current]
    rfl
  · exact hstopped.valueConverged.mpr ⟨Or.inr rfl, hends⟩

end Plane

/-- With minus one for a lower bound, the cyclic order has come back to the first coordinate
when the run stops. -/
theorem stall_searches_cycle :
    ∃ (solver final : Descent (Strategy ℝ) (Search ℝ) ℝ)
      (run : Nat → Descent (Strategy ℝ) (Search ℝ) ℝ),
      create .coordinate (planeSettings .cycle ⟨some [-1], none⟩)
        (.plain tilted : Problem ℝ Unit) (Nested.ofVec [0, 0, 0]) true = .ok solver ∧
      solve.on solver = (.ok [-1, -1, -1], final) ∧ IsRun solver run 4 ∧
      final.valueConverged = true ∧ SearchesAll run 3 1 4 := by
  have hfollows : ∀ k < 4, (planeCourse .cycle [-1, -1, -1]).Follows
      (planeSettings .cycle ⟨some [-1], none⟩) tilted
      (.backtracking armijo .unit : Search ℝ) k := by
    intro k hk
    have hclamp : (⟨some [-1], none⟩ : Box ℝ).clamp
        ((planePoint [-1, -1, -1] k).modify (k % 3) (· - 1)) =
          .ok (planePoint [-1, -1, -1] (k + 1)) := by
      interval_cases k <;> refine (Box.clamp_above _ _ _).trans ?_ <;> norm_num [planePoint]
    exact planeCourse_follows rfl (by decide) rfl (Nat.mod_lt k (Nat.succ_pos 2)) hclamp
  obtain ⟨solver, final, run, hcreate, hsolve, hrun, hiteration, hvalue, -⟩ :=
    exists_run_plane rfl rfl hfollows
  obtain ⟨point, count, run, hpoint, hrun, hcount, -, hstalled⟩ := stall_searches hcreate hsolve
  obtain rfl : 4 = count := hiteration.symm.trans hcount
  rw [Nested.toPoint_ofVec (List.cons_ne_nil _ _)] at hpoint
  obtain rfl := Except.ok.inj hpoint
  exact ⟨solver, final, run, hcreate, hsolve, hrun, hvalue, (hstalled hvalue).2 le_rfl⟩

/-- In the order back and forth the run stops after three searches along the other two
coordinates, and the first one would still lead down. -/
theorem stall_leaves_out :
    ∃ (solver final : Descent (Strategy ℝ) (Search ℝ) ℝ)
      (run : Nat → Descent (Strategy ℝ) (Search ℝ) ℝ),
      create .coordinate (planeSettings .backAndForth ⟨none, none⟩)
        (.plain tilted : Problem ℝ Unit) (Nested.ofVec [0, 0, 0]) true = .ok solver ∧
      solve.on solver = (.ok [-1, -2, -1], final) ∧ IsRun solver run 4 ∧
      final.current.iteration = 4 ∧ final.valueConverged = true ∧
      Stalled ((course run).ValueIdle (planeSettings .backAndForth ⟨none, none⟩)) 3 4 ∧
      ¬Stalled ((course run).ValueIdle (planeSettings .backAndForth ⟨none, none⟩)) 4 4 ∧
      ∀ j, 1 ≤ j → j < 4 → ¬(run (j + 1)).Searched 3 0 := by
  have hfollows : ∀ k < 4, (planeCourse .backAndForth [-1, -2, -1]).Follows
      (planeSettings .backAndForth ⟨none, none⟩) tilted
      (.backtracking armijo .unit : Search ℝ) k := by
    intro k hk
    interval_cases k
    · refine planeCourse_follows (i := 0) rfl (by decide) rfl (by decide) ?_
      exact congrArg Except.ok (by norm_num [planePoint])
    · refine planeCourse_follows (i := 1) rfl (by decide) rfl (by decide) ?_
      exact congrArg Except.ok (by norm_num [planePoint])
    · refine planeCourse_follows (i := 2) rfl (by decide) rfl (by decide) ?_
      exact congrArg Except.ok (by norm_num [planePoint])
    · refine planeCourse_follows (i := 1) rfl (by decide) rfl (by decide) ?_
      exact congrArg Except.ok (by norm_num [planePoint])
  obtain ⟨solver, final, run, hcreate, hsolve, hrun, hiteration, hvalue, hcurrent⟩ :=
    exists_run_plane rfl rfl hfollows
  have hidle : ∀ j ≤ 4, (course run).ValueIdle (planeSettings .backAndForth ⟨none, none⟩) j ↔
      (planeCourse .backAndForth [-1, -2, -1]).ValueIdle
        (planeSettings .backAndForth ⟨none, none⟩) j := by
    intro j hj
    have hnow := congrArg Iterate.value (hcurrent j hj)
    have hbefore := congrArg Iterate.value (hcurrent (j - 1) (by omega))
    show |(run j).current.value - (run (j - 1)).current.value| ≤ _ ↔ _
    rw [hnow, hbefore]
    rfl
  have hstalled : ∀ p, Stalled ((course run).ValueIdle
      (planeSettings .backAndForth ⟨none, none⟩)) p 4 ↔ p < 4 ∨ p = 0 := fun p =>
    (stalled_congr hidle).trans (planeCourse_stalled_iff rfl)
  refine ⟨solver, final, run, hcreate, hsolve, hrun, hiteration, hvalue,
    (hstalled 3).mpr (by omega), fun h => absurd ((hstalled 4).mp h) (by omega), ?_⟩
  -- The first entry of a direction tells whether the first coordinate was searched.
  rintro j hlow hhigh ⟨e, hunit, hdirection⟩
  obtain rfl : [1, 0, 0] = e := Except.ok.inj hunit
  have hsearched : (run (j + 1)).current.direction = some (planeDirection .backAndForth j) :=
    congrArg Iterate.direction (hcurrent (j + 1) hhigh)
  have hlevel : (planeDirection .backAndForth j).headD 0 = 0 := by
    interval_cases j <;> exact neg_zero
  rw [hsearched] at hdirection
  rcases hdirection with h | h <;> rw [Option.some.inj h] at hlevel <;> norm_num [Vec.neg] at hlevel

end Descent

end Downhill
