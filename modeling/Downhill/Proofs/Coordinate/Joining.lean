import Downhill.Proofs.Coordinate.Turns

/-!
# Joining the ends of a cycle

A rule that joins the ends of its cycles keeps two points, and writes them at different
times: the one where a cycle ended after the last coordinate, the one where the next cycle
begins after the joining step.  If it is told of every point that is reached, the two are the
ends of the cycle just done whenever it joins them, so the joining direction leads from the
point as many iterations ago as there are coordinates to the present one.

A coordinate solver tells its rule of the points it has brought into the box.
-/

namespace Downhill

namespace CoordinateOrder

/-- The place in the order goes up by one, and the joining step leads back to the first. -/
theorem succ_mod_period {n k : Nat} :
    (k + 1) % (n + 1) = if k % (n + 1) = n then 0 else k % (n + 1) + 1 := by
  have hplace : k % (n + 1) < n + 1 := Nat.mod_lt k n.succ_pos
  rw [← Nat.mod_add_mod]
  split
  · next hlast => rw [hlast, Nat.mod_self]
  · next hlast => exact Nat.mod_eq_of_lt (by omega)

end CoordinateOrder

namespace Coordinate

section Ends

variable {P : Type} {c : Coordinate P} {points : Nat → P} {n k : Nat}

/-- A rule that has given so many directions and was told of the point after each of them.
The end of a cycle is where it should be only when the cycle is done. -/
structure KeepsEnds (c : Coordinate P) (points : Nat → P) (n k : Nat) : Prop
    extends c.HasGiven .cycleAndJoin n k where
  joining : c.joining = false
  cycleStart : c.cycleStart = points (k - k % (n + 1))
  cycleEnd : k % (n + 1) = n → c.cycleEnd = points k

theorem keepsEnds_start (hn : 0 < n) (points : Nat → P) :
    (start .cycleAndJoin n (points 0)).KeepsEnds points n 0 :=
  ⟨hasGiven_start hn _, rfl, rfl, fun _ => rfl⟩

theorem KeepsEnds.turn_eq (h : c.KeepsEnds points n k) : c.turn = c.turnCycleAndJoin := by
  unfold Coordinate.turn
  rw [h.order_eq]

theorem KeepsEnds.turn_of_last (h : c.KeepsEnds points n k) (hlast : k % (n + 1) = n) :
    c.turn = (.join, { c with joining := true, completed := false, current := 0 }) := by
  obtain ⟨hcurrent, hcompleted⟩ := h.place
  have hdone : c.completed = true := by
    rw [hcompleted, hcurrent]
    exact decide_eq_true hlast
  rw [h.turn_eq]
  exact if_pos hdone

theorem KeepsEnds.turn_of_lt (h : c.KeepsEnds points n k) (hlt : k % (n + 1) < n) :
    c.turn = (.axis (k % (n + 1)), { c with
      current := k % (n + 1) + 1
      joining := false
      completed := decide (n ≤ k % (n + 1) + 1) }) := by
  obtain ⟨hcurrent, hcompleted⟩ := h.place
  have hopen : ¬c.completed = true := by
    rw [hcompleted, hcurrent, decide_eq_false hlt.ne]
    exact Bool.false_ne_true
  rw [h.turn_eq, ← hcurrent, ← h.dimension_eq]
  exact if_neg hopen

/-- One direction and the point after it. -/
theorem KeepsEnds.turn_moved (h : c.KeepsEnds points n k) (hn : 0 < n) :
    (c.turn.2.moved (points (k + 1))).KeepsEnds points n (k + 1) := by
  have hgiven := (h.toHasGiven.turn hn).2.moved (points (k + 1))
  have hplace : k % (n + 1) < n + 1 := Nat.mod_lt k n.succ_pos
  rcases Nat.lt_or_ge (k % (n + 1)) n with hlt | hge
  · have hnext : (k + 1) % (n + 1) = k % (n + 1) + 1 := by
      rw [CoordinateOrder.succ_mod_period, if_neg hlt.ne]
    have hstart : k + 1 - (k + 1) % (n + 1) = k - k % (n + 1) := by
      rw [hnext, Nat.add_sub_add_right]
    rw [h.turn_of_lt hlt] at hgiven ⊢
    unfold Coordinate.moved at hgiven ⊢
    simp only [h.order_eq, Bool.false_eq_true, if_false, decide_eq_true_eq] at hgiven ⊢
    -- After the last coordinate the point is the end of the cycle.
    by_cases hdone : n ≤ k % (n + 1) + 1
    · rw [if_pos hdone] at hgiven ⊢
      exact ⟨hgiven, rfl, hstart ▸ h.cycleStart, fun _ => rfl⟩
    · rw [if_neg hdone] at hgiven ⊢
      exact ⟨hgiven, rfl, hstart ▸ h.cycleStart, fun hend => by omega⟩
  · have hlast : k % (n + 1) = n := by omega
    have hnext : (k + 1) % (n + 1) = 0 := by
      rw [CoordinateOrder.succ_mod_period, if_pos hlast]
    rw [h.turn_of_last hlast] at hgiven ⊢
    unfold Coordinate.moved at hgiven ⊢
    simp only [h.order_eq, if_true] at hgiven ⊢
    exact ⟨hgiven, rfl, by rw [hnext]; rfl, fun hend => by omega⟩

end Ends

/-! ## Directions -/

variable {α : Type} [Scalar α] {n k : Nat} {points : Nat → Vec α}

/-- A new rule that is asked for a direction and told the next point, over and over.  The
points begin with the one before the first direction. -/
def driven (n : Nat) (points : Nat → Vec α) : Nat → Coordinate (Vec α)
  | 0 => start .cycleAndJoin n (points 0)
  | k + 1 => (driven n points k).next.2.moved (points (k + 1))

theorem next_snd {c : Coordinate (Vec α)} (h : c.dimension ≠ 0) : c.next.2 = c.turn.2 := by
  unfold next nextWith
  rw [if_neg h]
  split
  · next heq => rw [heq]
  · next heq => rw [heq]

theorem keepsEnds_driven (hn : 0 < n) (points : Nat → Vec α) (k : Nat) :
    (driven n points k).KeepsEnds points n k := by
  induction k with
  | zero => exact keepsEnds_start hn points
  | succ k ih =>
    have hdimension : (driven n points k).dimension ≠ 0 := by
      rw [ih.dimension_eq]
      exact hn.ne'
    unfold driven
    rw [next_snd hdimension]
    exact ih.turn_moved hn

/-- When a cycle is done, the direction joins its ends. -/
theorem KeepsEnds.next_of_last {c : Coordinate (Vec α)} (h : c.KeepsEnds points n k) (hn : 0 < n)
    (hlast : k % (n + 1) = n) : c.next.1 = (points k).sub (points (k - n)) := by
  have hstart := h.cycleStart
  rw [hlast] at hstart
  unfold next nextWith
  rw [if_neg (by rw [h.dimension_eq]; exact hn.ne'), h.turn_of_last hlast]
  show c.cycleEnd.sub c.cycleStart = _
  rw [h.cycleEnd hlast, hstart]

/-- Until then it goes along the coordinate at the place in the cycle. -/
theorem KeepsEnds.next_of_axis {c : Coordinate (Vec α)} (h : c.KeepsEnds points n k) (hn : 0 < n)
    {i : Fin n} (hi : k % (n + 1) = i) : c.next.1 = .ok (Vec.axis i) := by
  have hheading : CoordinateOrder.cycleAndJoin.heading n k = .axis i := by
    unfold CoordinateOrder.heading
    rw [CoordinateOrder.period_cycleAndJoin, hi]
    exact CoordinateOrder.headingAt_of_lt i.isLt
  rw [(h.toHasGiven.next hn).2 i hheading, Vec.unit_eq_axis]

end Coordinate

/-! ## Runs -/

open Coordinate

section Runs

variable {α : Type} [Scalar α] {n k m : Nat}

/-- An iteration asks the rule for a direction, has it oriented, and tells the rule of the
point in the box. -/
theorem Course.Follows.driven {S : Type} [LineSearch S α] {c : Course (Strategy α) α}
    {settings : DescentSettings α} {objective : Objective α} {search : S}
    (h : c.Follows settings objective search k)
    (hrule : c.rule k = .coordinate (driven n c.point k)) :
    c.rule (k + 1) = .coordinate (Coordinate.driven n c.point (k + 1)) ∧
      ∃ proposal, (Coordinate.driven n c.point k).next.1 = .ok proposal ∧
        (orient objective (c.point k) (c.value k) proposal).journaled.1 =
          .ok (c.direction k) := by
  obtain ⟨proposal, next, hpropose, horient, hmoved⟩ := h.direction
  rw [hrule] at hpropose
  obtain ⟨hproposal, rfl⟩ := Prod.mk.inj hpropose
  exact ⟨hmoved, proposal, hproposal, horient⟩

namespace Descent

theorem rule_of_aligned {settings : DescentSettings α} {objective : Objective α}
    {search : Search α} {run : Nat → Descent (Strategy α) (Search α) α}
    (haligned : (course run).Aligned settings objective search run m)
    (hrule : (course run).rule 0 = .coordinate (driven n (course run).point 0)) (hk : k ≤ m) :
    (course run).rule k = .coordinate (driven n (course run).point k) := by
  induction k with
  | zero => exact hrule
  | succ k ih => exact ((haligned.follows k hk).driven (ih (Nat.le_of_succ_le hk))).1

end Descent

open Descent

/-- A new rule that is asked for a direction and then told the next point goes along each
coordinate in turn, and after the last one from the point before the cycle to the point
reached.  In the runs of a coordinate solver the points are those of the run, brought into the
box, and the solver turns the joining direction around if the probe says so. -/
theorem joins_cycle_ends :
    (∀ (n : Nat) (points : Nat → Vec α) (k : Nat), 0 < n →
      (∀ i : Fin n, k % (n + 1) = i → (driven n points k).next.1 = .ok (Vec.axis i)) ∧
      (k % (n + 1) = n → (driven n points k).next.1 = (points k).sub (points (k - n)))) ∧
    ∀ (G : Type) (settings : DescentSettings α) (problem : Problem α G) (start : Nested α)
      (keeps : Bool) (solver : Descent (Strategy α) (Search α) α),
      create .coordinate settings problem start keeps = .ok solver →
      settings.order = .cycleAndJoin → ∀ m run, IsRun solver run m →
      ∃ first, start.toPoint = .ok first ∧ (run 0).point = first ∧
        (∀ k ≤ m, (run k).rule =
          .coordinate (driven first.length (fun j => (run j).point) k)) ∧
        ∀ k < m, (∃ reached, settings.box.clamp reached = .ok (run (k + 1)).point) ∧
          (k % (first.length + 1) = first.length → ∃ joining direction,
            (run k).point.sub (run (k - first.length)).point = .ok joining ∧
            (orient problem.objective (run k).point (run k).current.value joining).journaled.1 =
              .ok direction ∧
            (direction = joining ∨ direction = joining.neg) ∧
            (run (k + 1)).current.direction = some direction) := by
  refine ⟨fun n points k hn => ?_, ?_⟩
  · have hkeeps := keepsEnds_driven hn points k
    exact ⟨fun i hi => hkeeps.next_of_axis hn hi, hkeeps.next_of_last hn⟩
  · intro G settings problem start keeps solver hcreate horder m run hrun
    obtain ⟨first, rule, search, counts, hfirst, hchosen, -, hstarted⟩ :=
      exists_start_of_create hcreate
    rw [chooseRule_coordinate, horder] at hchosen
    obtain rfl := Except.ok.inj hchosen
    obtain ⟨haligned, hpoint, hrule, -⟩ := aligned_of_isRun hstarted hrun
    have hn := length_pos_of_toPoint hfirst
    have hzero : (course run).rule 0 =
        .coordinate (driven first.length (course run).point 0) := by
      rw [hrule, driven, hpoint]
    have hdriven := fun k hk => rule_of_aligned (k := k) haligned hzero hk
    refine ⟨first, hfirst, hpoint, fun k hk => (haligned.rule k hk).trans (hdriven k hk), ?_⟩
    intro k hk
    have hfollows := haligned.follows k hk
    obtain ⟨reached, -, hclamp⟩ := hfollows.point
    refine ⟨⟨reached, hclamp⟩, fun hlast => ?_⟩
    obtain ⟨-, joining, hproposal, horient⟩ := hfollows.driven (hdriven k hk.le)
    rw [(keepsEnds_driven hn _ k).next_of_last hn hlast] at hproposal
    have hcurrent : (run (k + 1)).current.direction = some ((course run).direction k) := by
      rw [haligned.current (k + 1) hk]
      rfl
    exact ⟨joining, _, hproposal, horient, eq_or_neg_of_orient horient, hcurrent⟩

end Runs

/-! ### A cycle on the tilted plane

Three steps go down one coordinate each, to the lower bound, and the fourth one along the
whole way that they have led. -/

namespace Descent

open Course

noncomputable def ledgeCourse : Course (Strategy ℝ) ℝ where
  rule k := .coordinate (driven 3 (planePoint [-1, -1, -1]) k)
  point := planePoint [-1, -1, -1]
  gradient _ := [1, 0, 0]
  value k := (planePoint [-1, -1, -1] k).headD 0
  direction k := if k < 3 then Vec.neg ((Vec.zeros 3).set k 1) else [-1, -1, -1]
  step _ := 1

/-- Settings with which only the limit can end the loop, after one cycle. -/
noncomputable def ledgeSettings : DescentSettings ℝ :=
  { planeSettings .cycleAndJoin ⟨some [-1], none⟩ with checksValue := false, maxIterations := 4 }

theorem ledgeCourse_follows {k : Nat} {proposal reached : Vec ℝ}
    (hproposal : (driven 3 (planePoint [-1, -1, -1]) k).next.1 = .ok proposal)
    (horient : (orient tilted (ledgeCourse.point k) (ledgeCourse.value k) proposal).journaled.1 =
      .ok (ledgeCourse.direction k))
    (hlength : (ledgeCourse.direction k).length = 3)
    (hdown : (ledgeCourse.direction k).headD 0 ≤ 0)
    (hreached : (ledgeCourse.point k).along 1 (ledgeCourse.direction k) = .ok reached)
    (hclamp : ledgeSettings.box.clamp reached = .ok (ledgeCourse.point (k + 1))) :
    ledgeCourse.Follows ledgeSettings tilted (.backtracking armijo .unit : Search ℝ) k where
  direction := ⟨proposal, .coordinate (driven 3 (planePoint [-1, -1, -1]) k).next.2,
    Prod.ext hproposal rfl, horient, rfl⟩
  step := ⟨.accepted, tilted_search (length_planePoint rfl k) hlength hdown⟩
  point := ⟨reached, hreached, hclamp⟩
  gradient := rfl
  value := tilted_value (length_planePoint rfl (k + 1))

theorem ledgeCourse_follows_axis {k : Nat} (hk : k < 3) :
    ledgeCourse.Follows ledgeSettings tilted (.backtracking armijo .unit : Search ℝ) k := by
  have hpoint : (ledgeCourse.point k).length = 3 := length_planePoint rfl k
  have hlength : ((Vec.zeros 3).set k 1 : Vec ℝ).length = 3 := by simp
  have hdirection : ledgeCourse.direction k = Vec.neg ((Vec.zeros 3).set k 1) := if_pos hk
  have hup : (0 : ℝ) ≤ ((Vec.zeros 3).set k 1 : Vec ℝ).headD 0 := by
    interval_cases k
    · exact zero_le_one
    · exact le_rfl
    · exact le_rfl
  have hproposal : (driven 3 (planePoint [-1, -1, -1]) k).next.1 =
      .ok ((Vec.zeros 3).set k 1) := by
    rw [(keepsEnds_driven (Nat.succ_pos 2) _ k).next_of_axis (Nat.succ_pos 2)
      (i := ⟨k, hk⟩) (Nat.mod_eq_of_lt (hk.trans (Nat.lt_succ_self 3))), ← Vec.unit_eq_axis]
    exact if_pos hk
  have hclamp : ledgeSettings.box.clamp ((ledgeCourse.point k).modify k (· - 1)) =
      .ok (ledgeCourse.point (k + 1)) := by
    interval_cases k <;> refine (Box.clamp_above _ _ _).trans ?_ <;>
      norm_num [ledgeCourse, planePoint]
  refine ledgeCourse_follows hproposal ?_ ?_ ?_ ?_ hclamp
  · rw [hdirection]
    exact tilted_orient hpoint hlength hup
  · rw [hdirection, Vec.length_neg, hlength]
  · rw [hdirection, Vec.headD_neg]
    exact neg_nonpos.mpr hup
  · rw [hdirection, along_down hpoint hk]

theorem ledge_sub :
    (planePoint [-1, -1, -1] 3).sub (planePoint [-1, -1, -1] 0) = .ok [-1, -1, -1] := by
  show Except.ok [(-1 : ℝ) - 0, -1 - 0, -1 - 0] = _
  norm_num

/-- The joining direction leads down, and is searched as it is. -/
theorem ledgeCourse_follows_join :
    ledgeCourse.Follows ledgeSettings tilted (.backtracking armijo .unit : Search ℝ) 3 := by
  have hproposal : (driven 3 (planePoint [-1, -1, -1]) 3).next.1 = .ok [-1, -1, -1] := by
    rw [(keepsEnds_driven (Nat.succ_pos 2) _ 3).next_of_last (Nat.succ_pos 2) rfl]
    exact ledge_sub
  have hpoint : (ledgeCourse.point 3).length = 3 := rfl
  obtain ⟨probed, hprobed, hlength, hhead⟩ :=
    exists_along_headD hpoint (d := [-1, -1, -1]) rfl Coordinate.probe
  have hfalls : probed.headD 0 - ledgeCourse.value 3 < 0 := by
    have hprobe : (0 : ℝ) < Coordinate.probe := by
      unfold Coordinate.probe
      norm_num
    rw [hhead, show ledgeCourse.value 3 = (ledgeCourse.point 3).headD 0 from rfl,
      show ([-1, -1, -1] : Vec ℝ).headD 0 = -1 from rfl]
    linarith
  have horient : (orient tilted (ledgeCourse.point 3) (ledgeCourse.value 3)
      [-1, -1, -1]).journaled.1 = .ok [-1, -1, -1] := by
    rw [Coordinate.orient_of_probed hprobed (tilted_value hlength), if_pos hfalls]
  have hclamp : ledgeSettings.box.clamp [-1 + 1 * -1, -1 + 1 * -1, -1 + 1 * -1] =
      .ok (ledgeCourse.point 4) := by
    refine (Box.clamp_above _ _ _).trans ?_
    norm_num [ledgeCourse, planePoint]
  refine ledgeCourse_follows hproposal horient rfl ?_ rfl hclamp
  show (-1 : ℝ) ≤ 0
  norm_num

/-- The fourth direction leads from the first point to the fourth. -/
theorem joins_cycle_ends_ledge :
    ∃ (solver : Descent (Strategy ℝ) (Search ℝ) ℝ)
      (run : Nat → Descent (Strategy ℝ) (Search ℝ) ℝ),
      create .coordinate ledgeSettings (.plain tilted : Problem ℝ Unit) (Nested.ofVec [0, 0, 0])
        true = .ok solver ∧ IsRun solver run 4 ∧
      (driven 3 (planePoint [-1, -1, -1]) 3).next.1 = .ok [-1, -1, -1] ∧
      (run 3).point.sub (run 0).point = .ok [-1, -1, -1] ∧
      (run 4).current.direction = some [-1, -1, -1] := by
  have hreturns : ledgeCourse.Returns ledgeSettings tilted
      (.backtracking armijo .unit : Search ℝ) := by
    refine ⟨rfl, tilted_value rfl, fun _ _ _ _ hp => (nomatch hp), fun k hreaches => ?_⟩
    have hk : k < 4 := Nat.lt_of_not_le fun hk =>
      hreaches 4 (Nat.lt_succ_of_le hk) .limit (show 4 ≤ 4 from le_rfl)
    rcases Nat.lt_succ_iff_lt_or_eq.mp hk with hk | rfl
    · exact ledgeCourse_follows_axis hk
    · exact ledgeCourse_follows_join
  obtain ⟨solver, hstart, htracks⟩ := tracks_of_start hreturns .coordinate false true
  obtain ⟨k, e, -, run, -, hrun, hdescribes, hreaches, hfirst, -⟩ :=
    exists_run_of_tracks hreturns htracks
  have hlimit : 4 ≤ k := hfirst.1.limit_of_unchecked ⟨rfl, rfl, rfl, rfl⟩
  obtain rfl : k = 4 := (hlimit.antisymm (Nat.le_of_not_lt fun hk =>
    hreaches 4 hk .limit (show 4 ≤ 4 from le_rfl))).symm
  have hcreate : create .coordinate ledgeSettings (.plain tilted : Problem ℝ Unit)
      (Nested.ofVec [0, 0, 0]) true = .ok solver :=
    create_of_start (Nested.toPoint_ofVec (List.cons_ne_nil _ _)) rfl rfl rfl hstart
  obtain ⟨hdriven, hruns⟩ := @joins_cycle_ends ℝ _
  have hdirection : (run 4).current.direction = some [-1, -1, -1] :=
    congrArg Iterate.direction (hdescribes 4 le_rfl).current
  have hfourth : (driven 3 (planePoint [-1, -1, -1]) 3).next.1 = .ok [-1, -1, -1] := by
    rw [(hdriven 3 _ 3 (Nat.succ_pos 2)).2 rfl]
    exact ledge_sub
  obtain ⟨first, hfirst, -, -, hjoins⟩ :=
    hruns Unit ledgeSettings _ _ _ solver hcreate rfl 4 run hrun
  rw [Nested.toPoint_ofVec (List.cons_ne_nil _ _)] at hfirst
  obtain rfl := Except.ok.inj hfirst
  obtain ⟨joining, -, hjoining, -⟩ := (hjoins 3 (Nat.lt_succ_self 3)).2 rfl
  have hpoint : ∀ j ≤ 4, (run j).point = planePoint [-1, -1, -1] j := fun j hj =>
    congrArg Iterate.point (hdescribes j hj).current
  have hkept : joining = [-1, -1, -1] := by
    have hsub : (run 3).point.sub (run 0).point = .ok joining := hjoining
    rw [hpoint 3 (Nat.le_succ 3), hpoint 0 (Nat.zero_le 4), ledge_sub] at hsub
    exact (Except.ok.inj hsub).symm
  exact ⟨solver, run, hcreate, hrun, hfourth, hkept ▸ hjoining, hdirection⟩

end Descent

end Downhill
