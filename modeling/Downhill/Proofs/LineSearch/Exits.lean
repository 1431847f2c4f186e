import Downhill.Proofs.LineSearch.Memory
import Downhill.Proofs.LineSearch.Zoom

/-!
# What a strong Wolfe search returns

The step lies in the range of steps.  It satisfies the decrease condition unless
the doubling phase passed the largest step or the zoom stalled, and the curvature
condition as well unless the zoom used up its iterations.
-/

namespace Downhill

open Extended (real)

namespace WolfeLine

variable {l : WolfeLine} {phi slope : Extended → Extended} {proposal : Extended} {a : ℝ}
  {outcome : Outcome Extended}

theorem Classified.step_mem (h : l.Classified phi slope proposal a outcome) :
    0 ≤ outcome.step ∧ outcome.step ≤ l.wolfe.maxStep := by
  have hmax : l.maxStep ≤ l.maxStep := Extended.le_refl_of_pos l.maxStep_pos
  cases h with
  | accepted h => exact h.mem
  | capped | cutOff => exact ⟨Extended.le_of_lt l.maxStep_pos, hmax⟩
  | stalled _ _ ht => exact ht
  | exhausted _ _ h => exact h.low_mem

theorem decreases_of_not_exceeds {t : ℝ} (hphi : phi 0 = real l.value)
    (hslope : slope 0 = real l.slope)
    (h : ¬l.wolfe.exceeds l.start (real t) (phi (real t))) :
    phi (real t) ≤ phi 0 + l.wolfe.c1 * real t * slope 0 := by
  obtain ⟨y, hy, hle⟩ := (l.not_exceeds_iff t _).mp h
  rw [hy, hphi, hslope]
  exact hle

theorem curvature_of_flat {t : ℝ} (hslope : slope 0 = real l.slope)
    (h : l.wolfe.flat l.start (slope (real t))) :
    Scalar.abs (slope (real t)) ≤ -l.wolfe.c2 * slope 0 := by
  rw [hslope]
  exact h

end WolfeLine

namespace Wolfe

/-- The step that the doubling of the first one ends with: the next one would pass
the largest step. -/
def LastDoubling (w : Wolfe Extended) (proposal : Extended) (t : ℝ) : Prop :=
  (∃ (a : ℝ) (k : Nat), w.firstStep proposal = real a ∧ t = a * 2 ^ k) ∧
    real t ≤ w.maxStep ∧ w.maxStep < real (2 * t)

/-- For an objective with a value and a slope everywhere along the ray, the search
returns a step between zero and the largest one.  It is zero if the ray does not
descend.  If it does, the exit says which conditions the step satisfies, and what
the three other exits stand for. -/
theorem exit_classification {w : Wolfe Extended} {ray : Ray Extended}
    {phi slope : Extended → Extended}
    (hw : checkConstants w.c1 w.c2 w.maxStep = .ok ())
    (hmax : Scalar.isFinite w.maxStep = true) (hray : ray.Answers phi slope)
    (hvalue : Scalar.isFinite (phi 0) = true) (hslope : Scalar.isFinite (slope 0) = true)
    (proposal : Extended) :
    ∃ outcome, (Ray.explore (w.search ray.value ray.slope proposal)).journaled.1 = .ok outcome ∧
      0 ≤ outcome.step ∧ outcome.step ≤ w.maxStep ∧
      (¬slope 0 < 0 → outcome.step = 0) ∧
      (slope 0 < 0 →
        (outcome.exit ≠ .capped → (∀ i, outcome.exit ≠ .stalled i) →
          phi outcome.step ≤ phi 0 + w.c1 * outcome.step * slope 0 ∧
          ((∀ n, outcome.exit ≠ .exhausted n) →
            Scalar.abs (slope outcome.step) ≤ -w.c2 * slope 0)) ∧
        (outcome.exit = .capped → outcome.step = w.maxStep ∧
          ∃ t, w.LastDoubling proposal t ∧ ¬0 ≤ slope (real t)) ∧
        (∀ i, outcome.exit = .stalled i → ∃ j z, i = j + 1 ∧ j < w.zoomLimit ∧
          w.Reached phi slope proposal j z ∧ Zoom.patience < z.idle + 1 ∧
          ¬z.improves (phi outcome.step)) ∧
        (∀ n, outcome.exit = .exhausted n → n = w.zoomLimit ∧
          ∃ z, w.Reached phi slope proposal n z ∧ outcome.step = z.low)) := by
  refine ⟨w.plainSearch phi slope proposal, w.explore_search hray proposal, ?_⟩
  by_cases hneg : slope 0 < 0
  · obtain ⟨l, rfl, hphi, hs⟩ := WolfeLine.exists_of_check hw hvalue hslope hneg
    obtain ⟨m, hm⟩ := Extended.eq_real_of_isFinite hmax
    obtain ⟨a, ha, -⟩ := Wolfe.exists_firstStep (w := l.wolfe) l.maxStep_pos hm proposal
    have hclassified := WolfeLine.plainSearch_classified hphi hs ha
    refine ⟨hclassified.step_mem.1, hclassified.step_mem.2, absurd hneg, fun _ => ?_⟩
    generalize l.wolfe.plainSearch phi slope proposal = outcome at hclassified ⊢
    cases hclassified with
    | accepted h =>
      exact ⟨fun _ _ => ⟨WolfeLine.decreases_of_not_exceeds hphi hs h.decreases,
        fun _ => WolfeLine.curvature_of_flat hs h.flat⟩, nofun, nofun, nofun⟩
    | @capped k h hlast =>
      exact ⟨fun hcapped => absurd rfl hcapped,
        fun _ => ⟨rfl, a * 2 ^ k, ⟨⟨a, k, ha, rfl⟩, h.mem.2, hlast⟩, h.descends⟩,
        nofun, nofun⟩
    | cutOff h => exact absurd hm (h m)
    | @stalled j z t hz hj ht hidle himproves =>
      refine ⟨fun _ hstalled => absurd rfl (hstalled (j + 1)), nofun, ?_, nofun⟩
      rintro i hi
      cases hi
      exact ⟨j, z, rfl, hj, hz, hidle, himproves⟩
    | @exhausted z low high hz hlow h =>
      refine ⟨fun _ _ => ⟨WolfeLine.decreases_of_not_exceeds hphi hs h.decreases,
        fun hexhausted => absurd rfl (hexhausted l.limit)⟩, nofun, nofun, ?_⟩
      rintro n hn
      cases hn
      exact ⟨rfl, z, hz, hlow.symm⟩
  · have hresult : w.plainSearch phi slope proposal = ⟨0, .uphill (slope 0)⟩ := by
      rw [plainSearch_eq, if_neg hneg]
    rw [hresult]
    exact ⟨le_rfl (a := (0 : ℝ)), Extended.le_of_lt (checkConstants_eq_ok_iff.mp hw).2.2,
      fun _ => rfl, fun h => absurd h hneg⟩

/-- The constants that a search has by default. -/
noncomputable def usual : Wolfe Extended := ⟨real (1 / 10000), real (9 / 10), real 10, 100⟩

/-- The usual constants on a line that starts at zero with slope minus one. -/
noncomputable def usualLine : WolfeLine where
  c1 := 1 / 10000
  c2 := 9 / 10
  maxStep := real 10
  limit := 100
  value := 0
  slope := -1
  c1_pos := by norm_num
  c1_lt_c2 := by norm_num
  c2_lt_one := by norm_num
  maxStep_pos := Extended.real_lt_real.mpr (by norm_num)
  slope_neg := by norm_num

theorem check_usual : checkConstants usual.c1 usual.c2 usual.maxStep = .ok () := by
  rw [checkConstants_eq_ok_iff]
  refine ⟨⟨?_, ?_⟩, ⟨?_, ?_⟩, ?_⟩ <;>
    · refine Extended.real_lt_real.mpr ?_
      norm_num

theorem exit_classification_parabola :
    let ray := Ray.ofFunctions (fun a => (a - 1) * (a - 1)) fun a => 2.0 * (a - 1)
    ∃ outcome, (Ray.explore (usual.search ray.value ray.slope (real 6))).journaled.1 =
      .ok outcome ∧ 0 ≤ outcome.step ∧ outcome.step ≤ usual.maxStep := by
  obtain ⟨outcome, hresult, hge, hle, -⟩ := exit_classification check_usual rfl
    (Ray.ofFunctions_answers (fun a => (a - 1) * (a - 1)) fun a => 2.0 * (a - 1)) rfl rfl (real 6)
  exact ⟨outcome, hresult, hge, hle⟩

end Wolfe

end Downhill
