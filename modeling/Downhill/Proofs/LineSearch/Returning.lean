import Downhill.LineSearch
import Downhill.Proofs.LineSearch.Memory
import Downhill.Proofs.Linear.Sizes
import Downhill.Proofs.Sequence

/-!
# Searches that return

An objective may be defined for points of one size only.  When it has a value and a gradient
of the same size at all of them, no search on it fails: whatever a search asks for is asked
for at points along the ray, and everything else it does is arithmetic on numbers.  Nothing
is said here about the numbers that come out.
-/

namespace Downhill

variable {α β γ : Type}

theorem Returns.journaled {m : EvalM α β} {post : β → Prop} (h : Returns m post) :
    ∃ b journal, m.journaled = (.ok b, journal) ∧ post b := (h []).exists_run

section Requests

variable {f : Objective α} {n : Nat} {x d : Vec α} (hf : f.Answers n)
include hf

theorem returns_askValue (hx : x.length = n) : Returns (f.askValue x) fun _ => True := by
  obtain ⟨v, hv⟩ := hf.value hx
  exact fun _ => Ensures.modify_bind (Returns.answer ⟨v, hv, trivial⟩ _)

theorem returns_askGradient (hx : x.length = n) :
    Returns (f.askGradient x) fun g => g.length = n :=
  fun _ => Ensures.modify_bind (Returns.answer (hf.gradient hx) _)

theorem returns_askSlope [Scalar α] (hx : x.length = n) (hd : d.length = n) :
    Returns (f.askSlope x d) fun _ => True := by
  refine (returns_askGradient hf hx).bind fun g hg => ?_
  obtain ⟨product, hproduct⟩ := Vec.exists_dot hg hd
  exact Returns.answer ⟨product, hproduct, trivial⟩

end Requests

variable [Scalar α]

/-! ## First trial steps -/

/-- All points and directions of a query are of the size. -/
structure Query.Fits (q : Query α) (n : Nat) : Prop where
  point : q.point.length = n
  direction : q.direction.length = n
  previousPoint : ∀ p, q.previousPoint = some p → p.length = n
  previousDirection : ∀ d, q.previousDirection = some d → d.length = n

namespace FirstTrial

variable {f : Objective α} {q : Query α} {n : Nat} {previousPoint previousDirection : Vec α}

theorem returns_lookBack (hf : f.Answers n) (hq : q.Fits n) (hpoint : previousPoint.length = n)
    (hdirection : previousDirection.length = n) (rule : FirstTrial) (previousStep slope : α) :
    Returns (rule.lookBack (Inquiry.ofQuery f q previousPoint previousDirection) previousStep slope)
      fun _ => True := by
  have hparabola : Returns (lookBack.parabola
      (Inquiry.ofQuery f q previousPoint previousDirection) slope) fun _ => True :=
    (returns_askValue hf hq.point).bind fun _ _ =>
      (returns_askValue hf hpoint).bind fun _ _ => .pure trivial
  cases rule with
  | unit | previousStep => exact .pure trivial
  | firstOrder => exact (returns_askSlope hf hpoint hdirection).bind fun _ _ => .pure trivial
  | quadratic => exact hparabola
  | cappedQuadratic => exact hparabola.bind fun _ _ => .pure trivial

theorem returns_choose (hf : f.Answers n) (hq : q.Fits n) (hpoint : previousPoint.length = n)
    (hdirection : previousDirection.length = n) (rule : FirstTrial) (previousStep : α) :
    Returns (rule.choose (some (Inquiry.ofQuery f q previousPoint previousDirection)) previousStep)
      fun _ => True := by
  cases rule with
  | unit | previousStep => exact .pure trivial
  | firstOrder | quadratic | cappedQuadratic =>
    unfold choose
    dsimp only
    split
    · exact .pure trivial
    · refine (returns_askSlope hf hq.point hq.direction).bind fun slope _ => ?_
      split
      · exact .pure trivial
      · exact returns_lookBack hf hq hpoint hdirection _ _ _

theorem returns_propose (hf : f.Answers n) (hq : q.Fits n) (rule : FirstTrial) :
    Returns (rule.propose f q) fun _ => True := by
  have hnone : Returns (rule.choose none q.previousStep) fun _ => True := by
    cases rule <;> exact .pure trivial
  unfold propose
  cases hpoint : q.previousPoint with
  | none => exact hnone
  | some previousPoint =>
    cases hdirection : q.previousDirection with
    | none => exact hnone
    | some previousDirection =>
      exact returns_choose hf hq (hq.previousPoint _ hpoint) (hq.previousDirection _ hdirection)
        rule q.previousStep

end FirstTrial

/-! ## Searches along a ray -/

/-- A computation along a ray that does not fail, whatever is known of the ray before. -/
def RayM.Total (x : RayM α β) : Prop := ∀ memo, Returns (x.run memo) fun _ => True

namespace RayM

omit [Scalar α] in
theorem Total.pure (b : β) : Total (Pure.pure b : RayM α β) := fun _ => .pure trivial

omit [Scalar α] in
theorem Total.bind {x : RayM α β} {f : β → RayM α γ} (hx : Total x) (hf : ∀ b, Total (f b)) :
    Total (x >>= f) := by
  intro memo
  rw [StateT.run_bind]
  exact (hx memo).bind fun known _ => hf known.1 known.2

omit [Scalar α] in
theorem Total.explore {search : RayM α β} (h : Total search) :
    Returns (Ray.explore search) fun _ => True :=
  (h Memo.empty).bind fun _ _ => .pure trivial

end RayM

/-- A ray of the size, on an objective that answers. -/
structure Ray.Fits (ray : Ray α) (n : Nat) : Prop where
  objective : ray.objective.Answers n
  origin : ray.origin.length = n
  direction : ray.direction.length = n

section Search

open RayM

variable {ray : Ray α} {n : Nat} (hray : ray.Fits n)
include hray

theorem returns_pointAt (step : α) :
    Returns (EvalM.answer (ray.pointAt step) : EvalM α (Vec α)) fun x => x.length = n :=
  Returns.answer (Vec.exists_along hray.origin step hray.direction)

theorem total_value (step : α) : Total (ray.value step) := by
  intro memo
  have hask : Returns (ray.askValue step) fun _ => True :=
    (returns_pointAt hray step).bind fun x hx => returns_askValue hray.objective hx
  cases hlookup : memo.values.lookup step with
  | some known =>
    rw [ray.run_value_of_some hlookup]
    exact .pure trivial
  | none =>
    rw [ray.run_value_of_none hlookup]
    exact hask.bind fun answer _ => .pure trivial

theorem total_slope (step : α) : Total (ray.slope step) := by
  intro memo
  have hask : Returns (ray.askSlope step) fun _ => True :=
    (returns_pointAt hray step).bind fun x hx =>
      returns_askSlope hray.objective hx hray.direction
  cases hlookup : memo.slopes.lookup step with
  | some known =>
    rw [ray.run_slope_of_some hlookup]
    exact .pure trivial
  | none =>
    rw [ray.run_slope_of_none hlookup]
    exact hask.bind fun answer _ => .pure trivial

theorem total_trial (distance low high : α) :
    Total (Cubic.trial ray.value ray.slope distance low high) := by
  unfold Cubic.trial
  split
  · exact .pure low
  · refine (total_value hray low).bind fun valueLow => ?_
    refine (total_value hray high).bind fun valueHigh => ?_
    refine (total_slope hray low).bind fun slopeLow => ?_
    refine (total_slope hray high).bind fun slopeHigh => ?_
    cases Cubic.minimizer? ⟨low, valueLow, slopeLow⟩ ⟨high, valueHigh, slopeHigh⟩ with
    | none => exact .pure _
    | some candidate => exact (total_value hray candidate).bind fun _ => .pure _

namespace Wolfe

variable (w : Wolfe α) (start : Start α)

theorem total_rejects (step value : α) (rival : Option α) :
    Total (w.rejects ray.value start step value rival) := by
  unfold rejects
  split
  · exact .pure true
  · cases rival with
    | none => exact .pure false
    | some other => exact (total_value hray other).bind fun _ => .pure _

theorem total_narrow (low high step value : α) :
    Total (w.narrow ray.value ray.slope start low high step value) := by
  unfold narrow
  refine (total_rejects hray w start step value (some low)).bind fun rejected => ?_
  split
  · exact .pure _
  · refine (total_slope hray step).bind fun slope => ?_
    split
    · exact .pure _
    · split
      · exact .pure _
      · exact .pure _

theorem total_zoomStep (iteration : Nat) (z : Zoom α) :
    Total (w.zoomStep ray.value ray.slope start iteration z) := by
  unfold zoomStep
  refine (total_trial hray Cubic.margin z.low z.high).bind fun step => ?_
  refine (total_value hray step).bind fun value => ?_
  refine (total_narrow hray w start z.low z.high step value).bind fun bracket => ?_
  cases bracket with
  | none => exact .pure _
  | some bracket =>
    dsimp only
    split
    · exact .pure _
    · split
      · exact .pure _
      · exact .pure _

theorem total_zoomFrom (left done : Nat) (z : Zoom α) :
    Total (w.zoomFrom ray.value ray.slope start left done z) := by
  induction left generalizing done z with
  | zero => exact .pure _
  | succ left ih =>
    rw [zoomFrom]
    refine (total_zoomStep hray w start (done + 1) z).bind fun next => ?_
    cases next with
    | inl z => exact ih (done + 1) z
    | inr outcome => exact .pure outcome

theorem total_expand (left : Nat) (previous : Option α) (step : α) :
    Total (w.expand ray.value ray.slope start left previous step) := by
  induction left generalizing previous step with
  | zero => exact .pure _
  | succ left ih =>
    rw [expand]
    refine (total_value hray step).bind fun value => ?_
    refine (total_rejects hray w start step value previous).bind fun rejected => ?_
    split
    · exact .pure _
    · refine (total_slope hray step).bind fun slope => ?_
      split
      · exact .pure _
      · split
        · exact .pure _
        · split
          · exact .pure _
          · exact ih (some step) (2.0 * step)

theorem total_search (proposal : α) : Total (w.search ray.value ray.slope proposal) := by
  unfold search
  refine (total_value hray 0).bind fun value => (total_slope hray 0).bind fun slope => ?_
  split
  · refine (total_expand hray w _ _ none _).bind fun expansion => ?_
    cases expansion with
    | outcome outcome => exact .pure outcome
    | bracket low high => exact total_zoomFrom hray w _ w.zoomLimit 0 _
  · exact .pure _

end Wolfe

namespace Backtracking

variable (b : Backtracking α)

theorem total_shrink (value slope : α) (left : Nat) (step : α) :
    Total (b.shrink ray.value value slope left step) := by
  induction left generalizing step with
  | zero => exact .pure _
  | succ left ih =>
    rw [shrink]
    refine (total_value hray step).bind fun stepValue => ?_
    split
    · exact .pure _
    · exact ih (step * b.rho)

theorem total_search (proposal : α) : Total (b.search ray.value ray.slope proposal) :=
  (total_value hray 0).bind fun value => (total_slope hray 0).bind fun slope =>
    total_shrink hray b value slope b.limit (firstStep proposal)

end Backtracking

end Search

/-! ## All searches -/

/-- The matrix of an exact search gives a curvature along every direction of the size. -/
def Search.Fits (s : Search α) (n : Nat) : Prop :=
  match s with
  | exact matrix => ∀ d : Vec α, d.length = n → ∃ c, Quadratic.curvature matrix d = .ok c
  | wolfe _ _ | backtracking _ _ => True

theorem Search.returns_stepSize {s : Search α} {f : Objective α} {q : Query α} {n : Nat}
    (hs : s.Fits n) (hf : f.Answers n) (hq : q.Fits n) :
    Returns (s.stepSize f q) fun _ => True := by
  have hray : (⟨f, q.point, q.direction⟩ : Ray α).Fits n := ⟨hf, hq.point, hq.direction⟩
  cases s with
  | wolfe constants rule =>
    exact (FirstTrial.returns_propose hf hq rule).bind fun proposal _ =>
      (Wolfe.total_search hray constants proposal).explore
  | backtracking constants rule =>
    exact (FirstTrial.returns_propose hf hq rule).bind fun proposal _ =>
      (Backtracking.total_search hray constants proposal).explore
  | exact matrix =>
    have hcurvature : Returns (EvalM.answer (Quadratic.curvature matrix q.direction) : EvalM α α)
        fun _ => True := by
      obtain ⟨curvature, h⟩ := hs q.direction hq.direction
      exact Returns.answer ⟨curvature, h, trivial⟩
    show Returns (Exact.search matrix f q) _
    unfold Exact.search
    refine hcurvature.bind fun curvature _ => ?_
    split
    · exact .pure trivial
    · exact (returns_askSlope hf hq.point hq.direction).bind fun slope _ => .pure trivial

/-- The exact search of a quadratic fits wherever the quadratic has values. -/
theorem Quadratic.search_fits {q : Quadratic α} {n : Nat} (hf : q.toObjective.Answers n) :
    (Search.exact q.matrix).Fits n := by
  intro d hd
  obtain ⟨v, hv⟩ := hf.value hd
  obtain ⟨image, himage, h⟩ := Fault.bind_eq_ok_iff.mp (show q.value d = .ok v from hv)
  obtain ⟨half, hhalf, -⟩ := Fault.bind_eq_ok_iff.mp h
  have hlength : d.length = image.length := by
    by_contra hne
    rw [Vec.dot, if_neg (by rwa [Vec.length_scale])] at hhalf
    cases hhalf
  refine ⟨_, Fault.bind_eq_ok_iff.mpr ⟨image, himage, Vec.dot_of_length_eq hlength⟩⟩

end Downhill
