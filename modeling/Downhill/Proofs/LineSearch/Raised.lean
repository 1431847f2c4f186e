import Downhill.LineSearch
import Downhill.Proofs.LineSearch.Memory
import Downhill.Proofs.Sequence

/-!
# Searches on a raised objective

A constant that is added to an objective raises every value that a search learns by the same
number, and no slope.  A search compares values with each other only, and takes differences
of them, so it makes the same requests and finds the same step.
-/

namespace Downhill

open Extended

variable {K : ℝ} {β γ β' γ' : Type}

/-- The objective with a constant added to it. -/
noncomputable def Objective.raise (K : ℝ) (f : Objective Extended) : Objective Extended where
  value p := (f.value p).map (Extended.raise K)
  gradient := f.gradient

/-! ## Requests -/

namespace EvalM

/-- Requests to the raised objective are mirrored when the requests are the same. -/
abbrev Mirrors (onResult : β → γ) (x : EvalM Extended β) (y : EvalM Extended γ) : Prop :=
  Downhill.Mirrors id onResult x y

theorem Mirrors.journaled {onResult : β → γ} {x : EvalM Extended β} {y : EvalM Extended γ}
    (h : Mirrors onResult x y) :
    y.journaled = (x.journaled.1.map onResult, x.journaled.2) := h []

theorem mirrors_refl (x : EvalM Extended β) : Mirrors id x x := by
  intro journal
  rw [Except.map_id]
  rfl

theorem mirrors_askValue (f : Objective Extended) (p : Vec Extended) :
    Mirrors (Extended.raise K) (f.askValue p) ((f.raise K).askValue p) := fun _ => rfl

theorem mirrors_askSlope (f : Objective Extended) (p d : Vec Extended) :
    Mirrors id (f.askSlope p d) ((f.raise K).askSlope p d) := mirrors_refl _

end EvalM

/-! ## First trial steps -/

namespace FirstTrial

variable (f : Objective Extended) (q : Query Extended)
  (previousPoint previousDirection : Vec Extended) (previousStep : Extended)

theorem mirrors_parabola (slope : Extended) : EvalM.Mirrors id
    (lookBack.parabola (Inquiry.ofQuery f q previousPoint previousDirection) slope)
    (lookBack.parabola (Inquiry.ofQuery (f.raise K) q previousPoint previousDirection) slope) := by
  refine (EvalM.mirrors_askValue f q.point).bind fun value => ?_
  refine (EvalM.mirrors_askValue f previousPoint).bind fun previousValue => ?_
  rw [raise_sub_raise]
  exact EvalM.mirrors_refl _

theorem mirrors_lookBack (rule : FirstTrial) (slope : Extended) : EvalM.Mirrors id
    (rule.lookBack (Inquiry.ofQuery f q previousPoint previousDirection) previousStep slope)
    (rule.lookBack (Inquiry.ofQuery (f.raise K) q previousPoint previousDirection) previousStep
      slope) := by
  cases rule with
  | unit | previousStep | firstOrder => exact EvalM.mirrors_refl _
  | quadratic => exact mirrors_parabola f q previousPoint previousDirection slope
  | cappedQuadratic =>
    refine (mirrors_parabola f q previousPoint previousDirection slope).bind fun step => ?_
    exact EvalM.mirrors_refl _

theorem mirrors_choose (rule : FirstTrial) : EvalM.Mirrors id
    (rule.choose (some (Inquiry.ofQuery f q previousPoint previousDirection)) previousStep)
    (rule.choose (some (Inquiry.ofQuery (f.raise K) q previousPoint previousDirection))
      previousStep) := by
  cases rule with
  | unit | previousStep => exact EvalM.mirrors_refl _
  | firstOrder | quadratic | cappedQuadratic =>
    unfold choose
    dsimp only
    split
    · exact EvalM.mirrors_refl _
    · refine (EvalM.mirrors_askSlope f q.point q.direction).bind fun slope => ?_
      dsimp only [id]
      split
      · exact EvalM.mirrors_refl _
      · exact mirrors_lookBack f q previousPoint previousDirection previousStep _ slope

/-- A rule that looks back at values takes their difference. -/
theorem mirrors_propose (rule : FirstTrial) :
    EvalM.Mirrors id (rule.propose f q) (rule.propose (f.raise K) q) := by
  unfold propose
  cases q.previousPoint with
  | none => exact EvalM.mirrors_refl _
  | some previousPoint =>
    cases q.previousDirection with
    | none => exact EvalM.mirrors_refl _
    | some previousDirection => exact mirrors_choose f q previousPoint previousDirection _ rule

end FirstTrial

/-! ## Rays -/

/-- What is known along a ray, on the raised objective. -/
noncomputable def Memo.raise (K : ℝ) (memo : Memo Extended) : Memo Extended where
  values := memo.values.map fun known => (known.1, Extended.raise K known.2)
  slopes := memo.slopes

noncomputable def Ray.raise (K : ℝ) (ray : Ray Extended) : Ray Extended :=
  { ray with objective := ray.objective.raise K }

theorem Memo.lookup_raise (K : ℝ) (memo : Memo Extended) (step : Extended) :
    (memo.raise K).values.lookup step = (memo.values.lookup step).map (Extended.raise K) := by
  unfold Memo.raise
  induction memo.values with
  | nil => rfl
  | cons known values ih =>
    rw [List.map_cons, List.lookup_cons, List.lookup_cons]
    split
    · rfl
    · exact ih

namespace RayM

/-- A computation along a ray is mirrored on what is known of the raised one. -/
def Raises (K : ℝ) (onResult : β → γ) (x : RayM Extended β) (y : RayM Extended γ) : Prop :=
  ∀ memo, EvalM.Mirrors (Prod.map onResult (Memo.raise K)) (x.run memo) (y.run (memo.raise K))

theorem Raises.pure (onResult : β → γ) (b : β) :
    Raises K onResult (Pure.pure b) (Pure.pure (onResult b)) := fun _ _ => rfl

theorem Raises.bind {onResult : β → β'} {onNext : γ → γ'} {x : RayM Extended β}
    {y : RayM Extended β'} {f : β → RayM Extended γ} {g : β' → RayM Extended γ'}
    (hx : Raises K onResult x y) (hf : ∀ b, Raises K onNext (f b) (g (onResult b))) :
    Raises K onNext (x >>= f) (y >>= g) := by
  intro memo
  rw [StateT.run_bind, StateT.run_bind]
  exact (hx memo).bind fun known => hf known.1 known.2

theorem Raises.explore {search raised : RayM Extended β} (h : Raises K id search raised) :
    EvalM.Mirrors id (Ray.explore search) (Ray.explore raised) :=
  (h Memo.empty).bind fun _ => EvalM.mirrors_refl _

variable (ray : Ray Extended) (step : Extended)

theorem mirrors_askValue :
    EvalM.Mirrors (Extended.raise K) (ray.askValue step) ((ray.raise K).askValue step) :=
  (EvalM.mirrors_refl (EvalM.answer (ray.pointAt step))).bind
    (EvalM.mirrors_askValue ray.objective)

theorem raises_value : Raises K (Extended.raise K) (ray.value step) ((ray.raise K).value step) := by
  intro memo
  have hraised := memo.lookup_raise K step
  cases hlookup : memo.values.lookup step with
  | some known =>
    rw [hlookup] at hraised
    rw [ray.run_value_of_some hlookup, (ray.raise K).run_value_of_some hraised]
    exact fun _ => rfl
  | none =>
    rw [hlookup] at hraised
    rw [ray.run_value_of_none hlookup, (ray.raise K).run_value_of_none hraised]
    refine (mirrors_askValue ray step).bind fun answer => ?_
    exact fun _ => rfl

theorem raises_slope : Raises K id (ray.slope step) ((ray.raise K).slope step) := by
  intro memo
  have hraised : (memo.raise K).slopes.lookup step = memo.slopes.lookup step := rfl
  cases hlookup : memo.slopes.lookup step with
  | some known =>
    rw [hlookup] at hraised
    rw [ray.run_slope_of_some hlookup, (ray.raise K).run_slope_of_some hraised]
    exact fun _ => rfl
  | none =>
    rw [hlookup] at hraised
    rw [ray.run_slope_of_none hlookup, (ray.raise K).run_slope_of_none hraised]
    refine (EvalM.mirrors_refl (ray.askSlope step)).bind fun answer => ?_
    exact fun _ => rfl

/-- The interpolating cubic goes by the difference of the values. -/
theorem minimizer?_raise (low valueLow slopeLow high valueHigh slopeHigh : Extended) :
    Cubic.minimizer? ⟨low, Extended.raise K valueLow, slopeLow⟩
        ⟨high, Extended.raise K valueHigh, slopeHigh⟩ =
      Cubic.minimizer? ⟨low, valueLow, slopeLow⟩ ⟨high, valueHigh, slopeHigh⟩ := by
  unfold Cubic.minimizer?
  rw [raise_sub_raise]

theorem raises_trial (distance low high : Extended) : Raises K id
    (Cubic.trial ray.value ray.slope distance low high)
    (Cubic.trial (ray.raise K).value (ray.raise K).slope distance low high) := by
  unfold Cubic.trial
  split
  · exact .pure id low
  · refine (raises_value ray low).bind fun valueLow => ?_
    refine (raises_value ray high).bind fun valueHigh => ?_
    refine (raises_slope ray low).bind fun slopeLow => ?_
    refine (raises_slope ray high).bind fun slopeHigh => ?_
    dsimp only [id]
    rw [minimizer?_raise]
    simp only [raise_lt_raise]
    cases Cubic.minimizer? ⟨low, valueLow, slopeLow⟩ ⟨high, valueHigh, slopeHigh⟩ with
    | none => exact .pure id _
    | some candidate =>
      refine (raises_value ray candidate).bind fun value => ?_
      simp only [raise_lt_raise]
      exact .pure id _

end RayM

/-! ## The strong Wolfe search -/

/-- The start of a search on the raised objective. -/
noncomputable def Start.raise (K : ℝ) (start : Start Extended) : Start Extended :=
  { start with value := Extended.raise K start.value }

noncomputable def Zoom.raise (K : ℝ) (z : Zoom Extended) : Zoom Extended :=
  { z with best := z.best.map (Extended.raise K) }

@[simp] theorem Zoom.improves_raise (z : Zoom Extended) (value : Extended) :
    (z.raise K).improves (Extended.raise K value) ↔ z.improves value := by
  unfold Zoom.improves Zoom.raise
  cases z.best with
  | none => exact belowInfinity_raise K value
  | some best => exact raise_lt_raise K value best

namespace Wolfe

open RayM

variable (w : Wolfe Extended) (ray : Ray Extended) (start : Start Extended)

@[simp] theorem exceeds_raise (step value : Extended) :
    w.exceeds (start.raise K) step (Extended.raise K value) ↔ w.exceeds start step value := by
  unfold exceeds Start.raise
  rw [isFinite_raise, raise_add, raise_lt_raise]

theorem raises_rejects (step value : Extended) (rival : Option Extended) : Raises K id
    (w.rejects ray.value start step value rival)
    (w.rejects (ray.raise K).value (start.raise K) step (Extended.raise K value) rival) := by
  unfold rejects
  simp only [exceeds_raise]
  split
  · exact .pure id true
  · cases rival with
    | none => exact .pure id false
    | some other =>
      refine (raises_value ray other).bind fun otherValue => ?_
      simp only [raise_le_raise]
      exact .pure id _

theorem raises_narrow (low high step value : Extended) : Raises K id
    (w.narrow ray.value ray.slope start low high step value)
    (w.narrow (ray.raise K).value (ray.raise K).slope (start.raise K) low high step
      (Extended.raise K value)) := by
  unfold narrow
  refine (w.raises_rejects ray start step value (some low)).bind fun rejected => ?_
  dsimp only [id]
  split
  · exact .pure id _
  · refine (raises_slope ray step).bind fun stepSlope => ?_
    show Raises K id (if w.flat start stepSlope then _ else _)
      (if w.flat start stepSlope then _ else _)
    split
    · exact .pure id _
    · dsimp only [id]
      split
      · exact .pure id _
      · exact .pure id _

theorem raises_zoomStep (iteration : Nat) (z : Zoom Extended) :
    Raises K (Sum.map (Zoom.raise K) id) (w.zoomStep ray.value ray.slope start iteration z)
      (w.zoomStep (ray.raise K).value (ray.raise K).slope (start.raise K) iteration
        (z.raise K)) := by
  unfold zoomStep
  refine (raises_trial ray Cubic.margin z.low z.high).bind fun step => ?_
  refine (raises_value ray step).bind fun value => ?_
  refine (w.raises_narrow ray start z.low z.high step value).bind fun bracket => ?_
  dsimp only [id]
  cases bracket with
  | none => exact .pure (Sum.map (Zoom.raise K) id) (.inr _)
  | some bracket =>
    simp only [Zoom.improves_raise]
    split
    · exact .pure (Sum.map (Zoom.raise K) id) (.inl ⟨bracket.1, bracket.2, some value, 0⟩)
    · show Raises K _ (if Zoom.patience < z.idle + 1 then _ else _)
        (if Zoom.patience < z.idle + 1 then _ else _)
      split
      · exact .pure (Sum.map (Zoom.raise K) id) (.inr _)
      · exact .pure (Sum.map (Zoom.raise K) id) (.inl ⟨bracket.1, bracket.2, z.best, z.idle + 1⟩)

theorem raises_zoomFrom (left done : Nat) (z : Zoom Extended) : Raises K id
    (w.zoomFrom ray.value ray.slope start left done z)
    (w.zoomFrom (ray.raise K).value (ray.raise K).slope (start.raise K) left done
      (z.raise K)) := by
  induction left generalizing done z with
  | zero => exact .pure id _
  | succ left ih =>
    rw [zoomFrom, zoomFrom]
    refine (w.raises_zoomStep ray start (done + 1) z).bind fun next => ?_
    cases next with
    | inl z => exact ih (done + 1) z
    | inr outcome => exact .pure id outcome

theorem raises_expand (left : Nat) (previous : Option Extended) (step : Extended) : Raises K id
    (w.expand ray.value ray.slope start left previous step)
    (w.expand (ray.raise K).value (ray.raise K).slope (start.raise K) left previous step) := by
  induction left generalizing previous step with
  | zero => exact .pure id _
  | succ left ih =>
    rw [expand, expand]
    refine (raises_value ray step).bind fun value => ?_
    refine (w.raises_rejects ray start step value previous).bind fun rejected => ?_
    dsimp only [id]
    split
    · exact .pure id _
    · refine (raises_slope ray step).bind fun stepSlope => ?_
      show Raises K id (if w.flat start stepSlope then _ else _)
        (if w.flat start stepSlope then _ else _)
      split
      · exact .pure id _
      · dsimp only [id]
        split
        · exact .pure id _
        · split
          · exact .pure id _
          · exact ih (some step) (2.0 * step)

theorem raises_search (proposal : Extended) : Raises K id
    (w.search ray.value ray.slope proposal)
    (w.search (ray.raise K).value (ray.raise K).slope proposal) := by
  unfold search
  refine (raises_value ray 0).bind fun value => ?_
  refine (raises_slope ray 0).bind fun startSlope => ?_
  dsimp only [id]
  split
  · refine (w.raises_expand ray ⟨value, startSlope⟩ _ none _).bind fun expansion => ?_
    cases expansion with
    | outcome outcome => exact .pure id outcome
    | bracket low high =>
      exact w.raises_zoomFrom ray ⟨value, startSlope⟩ w.zoomLimit 0 (Zoom.start low high)
  · exact .pure id _

end Wolfe

/-! ## The other searches -/

namespace Backtracking

open RayM

variable (b : Backtracking Extended) (ray : Ray Extended)

theorem raises_shrink (value slope : Extended) (left : Nat) (step : Extended) : Raises K id
    (b.shrink ray.value value slope left step)
    (b.shrink (ray.raise K).value (Extended.raise K value) slope left step) := by
  induction left generalizing step with
  | zero => exact .pure id _
  | succ left ih =>
    rw [shrink, shrink]
    refine (raises_value ray step).bind fun stepValue => ?_
    rw [raise_add]
    simp only [raise_le_raise]
    split
    · exact .pure id _
    · exact ih (step * b.rho)

theorem raises_search (proposal : Extended) : Raises K id
    (b.search ray.value ray.slope proposal)
    (b.search (ray.raise K).value (ray.raise K).slope proposal) := by
  unfold search
  refine (raises_value ray 0).bind fun value => ?_
  refine (raises_slope ray 0).bind fun startSlope => ?_
  exact b.raises_shrink ray value startSlope b.limit (firstStep proposal)

end Backtracking

/-- Every search makes the same requests to the raised objective and finds the same step. -/
theorem Search.mirrors_stepSize (s : Search Extended) (f : Objective Extended)
    (q : Query Extended) :
    EvalM.Mirrors id (s.stepSize f q) (s.stepSize (f.raise K) q) := by
  cases s with
  | wolfe constants rule =>
    refine (FirstTrial.mirrors_propose f q rule).bind fun proposal => ?_
    exact (constants.raises_search ⟨f, q.point, q.direction⟩ proposal).explore
  | backtracking constants rule =>
    refine (FirstTrial.mirrors_propose f q rule).bind fun proposal => ?_
    exact (constants.raises_search ⟨f, q.point, q.direction⟩ proposal).explore
  | exact matrix => exact EvalM.mirrors_refl _

end Downhill
