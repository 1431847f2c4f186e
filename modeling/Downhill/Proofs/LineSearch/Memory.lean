import Downhill.LineSearch.Ray
import Downhill.Proofs.LineSearch.Plain
import Downhill.Proofs.Number.Extended
import Downhill.Proofs.Number.Real

/-!
# Searches along a ray

A search along a ray remembers what it has asked for.  When the objective has a
value and a slope at every step, the search returns what it returns over the
plain functions of values and slopes: looking an answer up and asking for it
again are the same.

Two numbers that are equal by test have to be equal for this.  The converse is
not needed, and it fails for a value that is not a number.
-/

namespace Downhill

/-- Numbers whose test for equality can be trusted when it says yes. -/
class SoundEquality (α : Type) [BEq α] : Prop where
  eq_of_beq : ∀ {a b : α}, (a == b) = true → a = b

instance : SoundEquality ℝ := ⟨fun h => of_decide_eq_true h⟩

instance : SoundEquality Extended := ⟨Extended.eq_of_beq⟩

variable {α β γ : Type}

/-- Every step that is remembered stands with its value or its slope. -/
def Memo.Agrees (memo : Memo α) (phi slope : α → α) : Prop :=
  (∀ known ∈ memo.values, known.2 = phi known.1) ∧
    ∀ known ∈ memo.slopes, known.2 = slope known.1

theorem Memo.empty_agrees (phi slope : α → α) : (Memo.empty : Memo α).Agrees phi slope :=
  ⟨by simp [Memo.empty], by simp [Memo.empty]⟩

theorem eq_of_lookup [BEq α] [SoundEquality α] {f : α → α} {known : List (α × α)}
    (hknown : ∀ p ∈ known, p.2 = f p.1) {a b : α} (h : known.lookup a = some b) : b = f a := by
  induction known with
  | nil => simp at h
  | cons p known ih =>
    rw [List.lookup_cons] at h
    cases ha : a == p.1 with
    | true =>
      rw [ha] at h
      have hp : p.2 = b := Option.some.inj h
      rw [← hp, SoundEquality.eq_of_beq ha]
      exact hknown p List.mem_cons_self
    | false =>
      rw [ha] at h
      exact ih (fun q hq => hknown q (List.mem_cons_of_mem p hq)) h

/-- Whatever agrees with the functions is remembered at first, the computation
returns `b`, and what it remembers then agrees with them too. -/
def Follows (phi slope : α → α) (x : RayM α β) (b : β) : Prop :=
  ∀ memo : Memo α, memo.Agrees phi slope → ∀ journal : Journal α,
    ∃ (memo' : Memo α) (journal' : Journal α), memo'.Agrees phi slope ∧
      ((x.run memo).run).run journal = (.ok (b, memo'), journal')

/-- The objective has a value and a slope at every step along the ray. -/
structure Ray.Answers [Scalar α] (ray : Ray α) (phi slope : α → α) : Prop where
  value : ∀ step, ∃ point, ray.pointAt step = .ok point ∧
    ray.objective.value point = .ok (phi step)
  slope : ∀ step, ∃ point gradient, ray.pointAt step = .ok point ∧
    ray.objective.gradient point = .ok gradient ∧
    Vec.dot gradient ray.direction = .ok (slope step)

/-- The ray of an objective of one variable with the given values and slopes. -/
noncomputable def Ray.ofFunctions (phi slope : Extended → Extended) : Ray Extended where
  objective := ⟨fun x => .ok (phi (x.headD 0)), fun x => .ok [slope (x.headD 0)]⟩
  origin := [0]
  direction := [1]

/-- Values and slopes along a ray can be anything. -/
theorem Ray.ofFunctions_answers (phi slope : Extended → Extended) :
    (Ray.ofFunctions phi slope).Answers phi slope where
  value step := ⟨[0 + step * 1], rfl, by
    show Except.ok (phi (0 + step * 1)) = _
    rw [Extended.zero_add_mul_one]⟩
  slope step := ⟨[0 + step * 1], [slope (0 + step * 1)], rfl, rfl, by
    show Except.ok (0 + slope (0 + step * 1) * 1) = _
    rw [Extended.zero_add_mul_one, Extended.zero_add_mul_one]⟩

variable {phi slope : α → α}

theorem follows_pure (b : β) : Follows phi slope (pure b : RayM α β) b :=
  fun memo hmemo journal => ⟨memo, journal, hmemo, rfl⟩

theorem Follows.bind {x : RayM α β} {f : β → RayM α γ} {b : β} {c : γ}
    (hx : Follows phi slope x b) (hf : Follows phi slope (f b) c) :
    Follows phi slope (x >>= f) c := by
  intro memo hmemo journal
  obtain ⟨memo₁, journal₁, hmemo₁, h₁⟩ := hx memo hmemo journal
  obtain ⟨memo₂, journal₂, hmemo₂, h₂⟩ := hf memo₁ hmemo₁ journal₁
  refine ⟨memo₂, journal₂, hmemo₂, ?_⟩
  simp only [StateT.run_bind, ExceptT.run_bind]
  rw [h₁]
  exact h₂

theorem run_lift (x : EvalM α β) (memo : Memo α) :
    (liftM x : RayM α β).run memo = x >>= fun b => pure (b, memo) := rfl

theorem Ray.explore_eq {search : RayM α β} {b : β} (h : Follows phi slope search b) :
    (Ray.explore search).journaled.1 = .ok b := by
  obtain ⟨memo, journal, -, hrun⟩ := h Memo.empty (Memo.empty_agrees phi slope) []
  unfold Ray.explore EvalM.journaled
  simp only [ExceptT.run_bind, StateT.run_bind]
  rw [hrun]
  rfl

variable [Scalar α]

theorem Ray.run_askValue (ray : Ray α) {step : α} {point : Vec α}
    (hpoint : ray.pointAt step = .ok point) (journal : Journal α) :
    (ExceptT.run (ray.askValue step)).run journal =
      (ray.objective.value point, .value point :: journal) := by
  unfold Ray.askValue
  rw [hpoint]
  rfl

theorem Ray.run_askSlope (ray : Ray α) {step : α} {point gradient : Vec α}
    (hpoint : ray.pointAt step = .ok point)
    (hgradient : ray.objective.gradient point = .ok gradient) (journal : Journal α) :
    (ExceptT.run (ray.askSlope step)).run journal =
      (Vec.dot gradient ray.direction, .gradient point :: journal) := by
  unfold Ray.askSlope Objective.askSlope Objective.askGradient
  rw [hpoint]
  show (ExceptT.run (EvalM.answer (ray.objective.gradient point) >>= _)).run _ = _
  rw [hgradient]
  rfl

section Lookup

variable (ray : Ray α) {step known : α} {memo : Memo α}

theorem Ray.run_value_of_some (h : memo.values.lookup step = some known) :
    (ray.value step).run memo = pure (known, memo) := by
  unfold Ray.value
  simp only [StateT.run_bind, StateT.run_get, pure_bind, h]
  rfl

theorem Ray.run_value_of_none (h : memo.values.lookup step = none) :
    (ray.value step).run memo = ray.askValue step >>= fun answer =>
      pure (answer, { memo with values := (step, answer) :: memo.values }) := by
  unfold Ray.value
  simp only [StateT.run_bind, StateT.run_get, pure_bind, h, run_lift, bind_assoc]
  rfl

theorem Ray.run_slope_of_some (h : memo.slopes.lookup step = some known) :
    (ray.slope step).run memo = pure (known, memo) := by
  unfold Ray.slope
  simp only [StateT.run_bind, StateT.run_get, pure_bind, h]
  rfl

theorem Ray.run_slope_of_none (h : memo.slopes.lookup step = none) :
    (ray.slope step).run memo = ray.askSlope step >>= fun answer =>
      pure (answer, { memo with slopes := (step, answer) :: memo.slopes }) := by
  unfold Ray.slope
  simp only [StateT.run_bind, StateT.run_get, pure_bind, h, run_lift, bind_assoc]
  rfl

end Lookup

variable [SoundEquality α] {ray : Ray α}

theorem follows_value (hray : ray.Answers phi slope) (step : α) :
    Follows phi slope (ray.value step) (phi step) := by
  intro memo hmemo journal
  cases hlookup : memo.values.lookup step with
  | some known =>
    refine ⟨memo, journal, hmemo, ?_⟩
    rw [← eq_of_lookup hmemo.1 hlookup, ray.run_value_of_some hlookup]
    rfl
  | none =>
    obtain ⟨point, hpoint, hvalue⟩ := hray.value step
    refine ⟨{ memo with values := (step, phi step) :: memo.values },
      .value point :: journal, ⟨?_, hmemo.2⟩, ?_⟩
    · intro known hknown
      rcases List.mem_cons.mp hknown with rfl | hknown
      · rfl
      · exact hmemo.1 known hknown
    · have hask := ray.run_askValue hpoint journal
      rw [hvalue] at hask
      rw [ray.run_value_of_none hlookup, ExceptT.run_bind, StateT.run_bind, hask]
      rfl

theorem follows_slope (hray : ray.Answers phi slope) (step : α) :
    Follows phi slope (ray.slope step) (slope step) := by
  intro memo hmemo journal
  cases hlookup : memo.slopes.lookup step with
  | some known =>
    refine ⟨memo, journal, hmemo, ?_⟩
    rw [← eq_of_lookup hmemo.2 hlookup, ray.run_slope_of_some hlookup]
    rfl
  | none =>
    obtain ⟨point, gradient, hpoint, hgradient, hslope⟩ := hray.slope step
    refine ⟨{ memo with slopes := (step, slope step) :: memo.slopes },
      .gradient point :: journal, ⟨hmemo.1, ?_⟩, ?_⟩
    · intro known hknown
      rcases List.mem_cons.mp hknown with rfl | hknown
      · rfl
      · exact hmemo.2 known hknown
    · have hask := ray.run_askSlope hpoint hgradient journal
      rw [hslope] at hask
      rw [ray.run_slope_of_none hlookup, ExceptT.run_bind, StateT.run_bind, hask]
      rfl

/-! ## The strong Wolfe search -/

theorem follows_trial (hray : ray.Answers phi slope) (low high : α) :
    Follows phi slope (Cubic.trial ray.value ray.slope Cubic.margin low high)
      (Cubic.plainTrial phi slope low high) := by
  unfold Cubic.trial
  rw [Cubic.plainTrial_eq]
  split
  · exact follows_pure low
  · refine (follows_value hray low).bind ((follows_value hray high).bind ?_)
    refine (follows_slope hray low).bind ((follows_slope hray high).bind ?_)
    cases Cubic.minimizer? ⟨low, phi low, slope low⟩ ⟨high, phi high, slope high⟩ with
    | none => exact follows_pure _
    | some candidate => exact (follows_value hray candidate).bind (follows_pure _)

namespace Wolfe

variable (w : Wolfe α) (start : Start α)

theorem follows_rejects (hray : ray.Answers phi slope) (step : α) (rival : Option α) :
    Follows phi slope (w.rejects ray.value start step (phi step) rival)
      (Id.run (w.rejects phi start step (phi step) rival)) := by
  unfold rejects
  split
  · exact follows_pure true
  · cases rival with
    | none => exact follows_pure false
    | some other => exact (follows_value hray other).bind (follows_pure _)

theorem follows_narrow (hray : ray.Answers phi slope) (low high step : α) :
    Follows phi slope (w.narrow ray.value ray.slope start low high step (phi step))
      (w.plainNarrow phi slope start low high step) := by
  unfold plainNarrow narrow
  refine (w.follows_rejects start hray step (some low)).bind ?_
  show Follows phi slope _ (if Id.run (w.rejects phi start step (phi step) (some low)) = true
    then _ else _)
  split
  · exact follows_pure _
  · refine (follows_slope hray step).bind ?_
    show Follows phi slope _ (if w.flat start (slope step) then _ else _)
    split
    · exact follows_pure _
    · show Follows phi slope _ (if 0 ≤ slope step * (high - low) then _ else _)
      split
      · exact follows_pure _
      · exact follows_pure _

theorem follows_zoomStep (hray : ray.Answers phi slope) (iteration : Nat) (z : Zoom α) :
    Follows phi slope (w.zoomStep ray.value ray.slope start iteration z)
      (w.plainZoomStep phi slope start iteration z) := by
  rw [plainZoomStep_eq]
  unfold zoomStep
  refine (follows_trial hray z.low z.high).bind ((follows_value hray _).bind ?_)
  refine (w.follows_narrow start hray z.low z.high _).bind ?_
  dsimp only
  cases w.plainNarrow phi slope start z.low z.high (Cubic.plainTrial phi slope z.low z.high) with
  | none => exact follows_pure _
  | some bracket =>
    dsimp only
    split
    · exact follows_pure _
    · split
      · exact follows_pure _
      · exact follows_pure _

theorem follows_zoomFrom (hray : ray.Answers phi slope) (left done : Nat) (z : Zoom α) :
    Follows phi slope (w.zoomFrom ray.value ray.slope start left done z)
      (w.plainZoomFrom phi slope start left done z) := by
  induction left generalizing done z with
  | zero => exact follows_pure _
  | succ left ih =>
    rw [plainZoomFrom_succ, zoomFrom]
    refine (w.follows_zoomStep start hray (done + 1) z).bind ?_
    cases w.plainZoomStep phi slope start (done + 1) z with
    | inl z => exact ih (done + 1) z
    | inr outcome => exact follows_pure outcome

theorem follows_expand (hray : ray.Answers phi slope) (left : Nat) (previous : Option α)
    (step : α) :
    Follows phi slope (w.expand ray.value ray.slope start left previous step)
      (w.plainExpand phi slope start left previous step) := by
  induction left generalizing previous step with
  | zero => exact follows_pure _
  | succ left ih =>
    unfold plainExpand
    rw [expand, expand]
    refine (follows_value hray step).bind ?_
    refine (w.follows_rejects start hray step previous).bind ?_
    show Follows phi slope _ (if Id.run (w.rejects phi start step (phi step) previous) = true
      then _ else _)
    split
    · exact follows_pure _
    · refine (follows_slope hray step).bind ?_
      show Follows phi slope _ (if w.flat start (slope step) then _ else _)
      split
      · exact follows_pure _
      · show Follows phi slope _ (if 0 ≤ slope step then _ else _)
        split
        · exact follows_pure _
        · show Follows phi slope _ (if w.maxStep < 2.0 * step then _ else _)
          split
          · exact follows_pure _
          · exact ih (some step) (2.0 * step)

theorem follows_search (hray : ray.Answers phi slope) (proposal : α) :
    Follows phi slope (w.search ray.value ray.slope proposal)
      (w.plainSearch phi slope proposal) := by
  rw [plainSearch_eq]
  unfold search
  refine (follows_value hray 0).bind ((follows_slope hray 0).bind ?_)
  split
  · refine (w.follows_expand _ hray _ none _).bind ?_
    unfold plainBracketing
    cases w.plainExpand phi slope ⟨phi 0, slope 0⟩ (w.trialBound (w.firstStep proposal)) none
        (w.firstStep proposal) with
    | outcome outcome => exact follows_pure outcome
    | bracket low high => exact w.follows_zoomFrom _ hray w.zoomLimit 0 _
  · exact follows_pure _

/-- Along a ray the search returns what it returns over the values and slopes. -/
theorem explore_search (hray : ray.Answers phi slope) (proposal : α) :
    (Ray.explore (w.search ray.value ray.slope proposal)).journaled.1 =
      .ok (w.plainSearch phi slope proposal) :=
  Ray.explore_eq (w.follows_search hray proposal)

end Wolfe

end Downhill
