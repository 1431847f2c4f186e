import Downhill.Direction.Conjugate
import Downhill.Proofs.Linear.Sizes

/-!
# Sizes of conjugate gradient directions

On a gradient, a previous gradient and a previous direction of one size a conjugate gradient
rule does not fail, whatever its formula and its policy, and its direction is of that size.
-/

namespace Downhill

variable {α : Type} [Scalar α] {n : Nat}

section Lengths

variable {g g' d : Vec α} (hg : g.length = n) (hg' : g'.length = n) (hd : d.length = n)
include hg hg'

/-- Vectors of one length have an answer by every policy. -/
theorem RestartPolicy.exists_asks_of_length (policy : RestartPolicy) (steps dimension : Int) :
    ∃ asks, policy.asks g g' steps dimension = .ok asks := by
  cases policy with
  | never | periodic => exact ⟨_, rfl⟩
  | orthogonality =>
    obtain ⟨sq, hsq⟩ := Vec.exists_dot hg hg
    obtain ⟨product, hproduct⟩ := Vec.exists_dot hg hg'
    unfold asks
    simp only [hsq, hproduct, bind, Except.bind]
    split
    · exact ⟨_, rfl⟩
    · exact ⟨_, rfl⟩

include hd

/-- Vectors of one length have a value by every formula. -/
theorem BetaFormula.exists_beta_of_length (formula : BetaFormula) :
    ∃ b, formula.beta g g' d = .ok b := by
  obtain ⟨y, hy, hylength⟩ := Vec.exists_combine (· - ·) hg hg'
  obtain ⟨sq, hsq⟩ := Vec.exists_dot hg hg
  obtain ⟨previousSq, hpreviousSq⟩ := Vec.exists_dot hg' hg'
  obtain ⟨product, hproduct⟩ := Vec.exists_dot hg hylength
  obtain ⟨curvature, hcurvature⟩ := Vec.exists_dot hd hylength
  obtain ⟨changeSq, hchangeSq⟩ := Vec.exists_dot hylength hylength
  have hsub : g.sub g' = .ok y := hy
  unfold beta
  simp only [hsub, hsq, hpreviousSq, bind, Except.bind]
  cases formula with
  | fletcherReeves => exact ⟨_, rfl⟩
  | polakRibiere | polakRibierePlus | fletcherReevesPolakRibiere =>
    simp only [hproduct]
    exact ⟨_, rfl⟩
  | hestenesStiefel =>
    simp only [hproduct, hcurvature]
    exact ⟨_, rfl⟩
  | daiYuan =>
    simp only [hcurvature]
    exact ⟨_, rfl⟩
  | hagerZhang =>
    dsimp only
    unfold hagerZhangBeta
    simp only [hcurvature, hchangeSq, bind, Except.bind]
    split
    · exact ⟨_, rfl⟩
    · obtain ⟨corrected, hcorrected, hlength⟩ := Vec.exists_combine (· - ·) hylength
        (y := d.map (· * (2.0 * changeSq / curvature))) ((List.length_map _).trans hd)
      obtain ⟨slope, hslope⟩ := Vec.exists_dot hlength hg
      have hsub : y.sub (d.map (· * (2.0 * changeSq / curvature))) = .ok corrected := hcorrected
      simp only [hsub, hslope]
      exact ⟨_, rfl⟩

theorem Conjugate.exists_continue (c : Conjugate α) :
    ∃ answer, c.continue? g g' d = .ok answer ∧ ∀ next, answer = some next → next.1.length = n := by
  obtain ⟨b, hb⟩ := BetaFormula.exists_beta_of_length hg hg' hd c.formula
  obtain ⟨direction, hdirection, hlength⟩ := Vec.exists_combine (· + ·)
    ((Vec.length_neg g).trans hg) ((Vec.length_scale b d).trans hd)
  obtain ⟨slope, hslope⟩ := Vec.exists_dot hg hlength
  have hadd : g.neg.add (d.scale b) = .ok direction := hdirection
  unfold continue?
  simp only [hb, hadd, hslope, bind, Except.bind]
  split
  · split
    · refine ⟨_, rfl, fun next hnext => ?_⟩
      cases hnext
      exact hlength
    · exact ⟨none, rfl, fun next hnext => nomatch hnext⟩
  · exact ⟨none, rfl, fun next hnext => nomatch hnext⟩

end Lengths

theorem Conjugate.exists_next (c : Conjugate α) {g : Vec α} (hg : g.length = n)
    {previousGradient previousDirection : Option (Vec α)}
    (hgradient : ∀ g', previousGradient = some g' → g'.length = n)
    (hdirection : ∀ d, previousDirection = some d → d.length = n) :
    ∃ answer, c.next g previousGradient previousDirection = .ok answer ∧ answer.1.length = n := by
  have hrestart : (c.restart g).1.length = n := (Vec.length_neg g).trans hg
  unfold next
  split
  · rename_i g' d
    have hg' := hgradient g' rfl
    obtain ⟨asks, hasks⟩ := RestartPolicy.exists_asks_of_length hg hg' c.policy
      (c.steps + 1 : Nat) c.dimension
    obtain ⟨answer, hanswer, hlength⟩ := c.exists_continue hg hg' (hdirection d rfl)
    simp only [hasks, hanswer, bind, Except.bind]
    split
    · exact ⟨_, rfl, hrestart⟩
    · cases answer with
      | none => exact ⟨_, rfl, hrestart⟩
      | some next => exact ⟨_, rfl, hlength next rfl⟩
  · exact ⟨_, rfl, hrestart⟩

end Downhill
