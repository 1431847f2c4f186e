import Downhill.Proofs.Number.Elementary
import Downhill.Schedule

/-!
# Steps of a schedule

Over real numbers a schedule whose parameters are in its range has a positive step for every
iteration, and the steps do not grow.  All schedules but one start with their first parameter,
which is then the largest step.
-/

namespace Downhill

open Extended

namespace Schedule

/-- A positive number has every real power. -/
theorem raise_of_pos {base : ℝ} (h : 0 < base) (exponent : ℝ) :
    Power.raise (real base) (real exponent) = .ok (.real (real (base ^ exponent))) := by
  have hpow : Extended.pow (real base) (real exponent) = real (base ^ exponent) := by
    show powReal base exponent = _
    unfold powReal
    rw [if_neg (fun hzero => h.ne' hzero.1), if_neg h.not_gt]
  have hbase : (real base == (0 : Extended)) = false := by
    rw [zero_eq, real_beq_real]
    exact decide_eq_false h.ne'
  have hpositive : ¬real base < (0 : Extended) := h.not_gt
  unfold Power.raise
  rw [show Elementary.pow (real base) (real exponent) = _ from hpow, hbase,
    decide_eq_false hpositive]
  rfl

/-! ## Parameters -/

/-- The parameters that no test of a schedule refuses. -/
def Admits {α : Type} [Scalar α] : Schedule → List α → Prop
  | constant, [a] => ¬a ≤ 0
  | scaled, [tau, kappa] => ¬tau ≤ 0 ∧ ¬kappa < 0
  | inverseDecay, [a, b, p] => ¬a ≤ 0 ∧ ¬b < 0 ∧ ¬p < 0
  | exponential, [a, gamma] => ¬a ≤ 0 ∧ 0 < gamma ∧ gamma ≤ 1
  | _, _ => False

theorem validate_eq_ok_iff {α : Type} [Scalar α] {s : Schedule} {parameters : List α} :
    s.validate parameters = .ok () ↔ s.Admits parameters := by
  constructor
  · intro h
    obtain ⟨_, hlength, h⟩ := Fault.bind_eq_ok_iff.mp h
    have hcount := Decidable.not_not.mp (Fault.refuse_eq_ok_iff.mp hlength)
    cases s with
    | constant =>
      obtain ⟨a, rfl⟩ := List.length_eq_one_iff.mp hcount
      exact Fault.refuse_eq_ok_iff.mp h
    | scaled =>
      obtain ⟨tau, kappa, rfl⟩ := List.length_eq_two.mp hcount
      obtain ⟨_, htau, hkappa⟩ := Fault.bind_eq_ok_iff.mp h
      exact ⟨Fault.refuse_eq_ok_iff.mp htau, Fault.refuse_eq_ok_iff.mp hkappa⟩
    | inverseDecay =>
      obtain ⟨a, b, p, rfl⟩ := List.length_eq_three.mp hcount
      obtain ⟨ha, hrest⟩ := not_or.mp (Fault.refuse_eq_ok_iff.mp h)
      exact ⟨ha, not_or.mp hrest⟩
    | exponential =>
      obtain ⟨a, gamma, rfl⟩ := List.length_eq_two.mp hcount
      obtain ⟨ha, hgamma⟩ := not_or.mp (Fault.refuse_eq_ok_iff.mp h)
      exact ⟨ha, Decidable.not_not.mp hgamma⟩
  · intro h
    unfold Admits at h
    split at h
    · exact Fault.bind_eq_ok_iff.mpr ⟨(), rfl, Fault.refuse_eq_ok_iff.mpr h⟩
    · refine Fault.bind_eq_ok_iff.mpr ⟨(), rfl, Fault.bind_eq_ok_iff.mpr ⟨(), ?_, ?_⟩⟩
      · exact Fault.refuse_eq_ok_iff.mpr h.1
      · exact Fault.refuse_eq_ok_iff.mpr h.2
    · refine Fault.bind_eq_ok_iff.mpr ⟨(), rfl, Fault.refuse_eq_ok_iff.mpr ?_⟩
      exact not_or.mpr ⟨h.1, not_or.mpr h.2⟩
    · refine Fault.bind_eq_ok_iff.mpr ⟨(), rfl, Fault.refuse_eq_ok_iff.mpr ?_⟩
      exact not_or.mpr ⟨h.1, not_not.mpr h.2⟩
    · exact h.elim

/-- The parameters for which a schedule is meant. -/
def InRange : Schedule → List ℝ → Prop
  | constant, [a] => 0 < a
  | scaled, [tau, kappa] => 0 < tau ∧ 0 ≤ kappa
  | inverseDecay, [a, b, p] => 0 < a ∧ 0 ≤ b ∧ 0 ≤ p
  | exponential, [a, gamma] => 0 < a ∧ 0 < gamma ∧ gamma ≤ 1
  | _, _ => False

variable {s : Schedule} {parameters : List ℝ}

theorem inRange_of_validate (h : s.validate (parameters.map real) = .ok ()) :
    s.InRange parameters := by
  have hadmits := validate_eq_ok_iff.mp h
  match s, parameters, hadmits with
  | constant, [_], ha => exact not_le.mp ha
  | scaled, [_, _], ⟨htau, hkappa⟩ => exact ⟨not_le.mp htau, not_lt.mp hkappa⟩
  | inverseDecay, [_, _, _], ⟨ha, hb, hp⟩ => exact ⟨not_le.mp ha, not_lt.mp hb, not_lt.mp hp⟩
  | exponential, [_, _], ⟨ha, hgamma⟩ => exact ⟨not_le.mp ha, hgamma⟩

/-! ## Steps -/

/-- The formula of a schedule over real numbers. -/
noncomputable def step : Schedule → List ℝ → ℕ → ℝ
  | constant, [a], _ => a
  | scaled, [tau, kappa], k => (tau + k) ^ (-kappa)
  | inverseDecay, [a, b, p], k => a / (1 + b * k) ^ p
  | exponential, [a, gamma], k => a * gamma ^ (k : ℝ)
  | _, _, _ => 1

theorem step_pos (h : s.InRange parameters) (k : ℕ) : 0 < s.step parameters k := by
  have hk : (0 : ℝ) ≤ k := k.cast_nonneg
  unfold InRange at h
  split at h
  · exact h
  · exact Real.rpow_pos_of_pos (add_pos_of_pos_of_nonneg h.1 hk) _
  · obtain ⟨ha, hb, -⟩ := h
    exact div_pos ha (Real.rpow_pos_of_pos (by positivity) _)
  · obtain ⟨ha, hgamma, -⟩ := h
    exact mul_pos ha (Real.rpow_pos_of_pos hgamma _)
  · exact h.elim

/-- In its range a schedule is evaluated without a failure. -/
theorem compute_reals (h : s.InRange parameters) (k : ℕ) :
    s.compute (k : Extended) (parameters.map real) = .ok (real (s.step parameters k)) := by
  have hk : (0 : ℝ) ≤ k := k.cast_nonneg
  have hindex : (k : Extended) = real k := rfl
  rw [hindex]
  unfold InRange at h
  split at h
  · rfl
  · next tau kappa =>
    show (Power.raise (real (tau + k)) (real (-kappa)) >>= Power.toReal) = _
    rw [raise_of_pos (add_pos_of_pos_of_nonneg h.1 hk)]
    rfl
  · next a b p =>
    obtain ⟨-, hb, -⟩ := h
    have hbase : 0 < 1 + b * k := by positivity
    have hdivisor : (1 + b * k) ^ p ≠ 0 := (Real.rpow_pos_of_pos hbase p).ne'
    have hzero : (Power.real (real ((1 + b * k) ^ p))).isZero = false := by
      show (real ((1 + b * k) ^ p) == (0 : Extended)) = false
      rw [zero_eq, real_beq_real]
      exact decide_eq_false hdivisor
    show (Power.raise (real (1 + b * k)) (real p) >>= fun power => _) = _
    rw [raise_of_pos hbase]
    show (if (Power.real (real ((1 + b * k) ^ p))).isZero then _ else _) = _
    rw [hzero]
    exact congrArg Except.ok (real_div a hdivisor)
  · next a gamma =>
    show (Power.raise (real gamma) (real k) >>= fun power => _) = _
    rw [raise_of_pos h.2.1]
    rfl
  · exact h.elim

theorem step_antitone (h : s.InRange parameters) : Antitone (s.step parameters) := by
  intro j k hjk
  have hj : (0 : ℝ) ≤ j := j.cast_nonneg
  have hcast : (j : ℝ) ≤ k := Nat.cast_le.mpr hjk
  unfold InRange at h
  split at h
  · exact le_rfl
  · next tau kappa =>
    have hbase : 0 < tau + j := add_pos_of_pos_of_nonneg h.1 hj
    have hgrown : tau + j ≤ tau + k := by gcongr
    exact Real.antitoneOn_rpow_Ioi_of_exponent_nonpos (neg_nonpos.mpr h.2) hbase
      (hbase.trans_le hgrown) hgrown
  · next a b p =>
    obtain ⟨ha, hb, hp⟩ := h
    have hbase : 0 < 1 + b * j := by positivity
    have hgrown : 1 + b * j ≤ 1 + b * k := by gcongr
    exact div_le_div_of_nonneg_left ha.le (Real.rpow_pos_of_pos hbase p)
      (Real.rpow_le_rpow hbase.le hgrown hp)
  · next a gamma =>
    obtain ⟨ha, hgamma, hone⟩ := h
    exact mul_le_mul_of_nonneg_left (Real.rpow_le_rpow_of_exponent_ge hgamma hone hcast) ha.le
  · exact h.elim

/-- All schedules but one start with the step that is their first parameter. -/
theorem step_zero (h : s.InRange parameters) (hs : s ≠ scaled) :
    ∃ rest, parameters = s.step parameters 0 :: rest := by
  unfold InRange at h
  split at h
  · exact ⟨[], rfl⟩
  · exact absurd rfl hs
  · next a b p => exact ⟨[b, p], by simp [step]⟩
  · next a gamma => exact ⟨[gamma], by simp [step]⟩
  · exact h.elim

/-- Accepted parameters have a step at every iteration, which is positive and no longer than the
steps before it. -/
theorem compute_decreases (h : s.validate (parameters.map real) = .ok ()) {j k : ℕ}
    (hjk : j ≤ k) : ∃ earlier later : ℝ,
      s.compute (j : Extended) (parameters.map real) = .ok (real earlier) ∧
      s.compute (k : Extended) (parameters.map real) = .ok (real later) ∧
      0 < later ∧ later ≤ earlier ∧
      (s ≠ scaled → ∃ first rest, parameters = first :: rest ∧ earlier ≤ first) := by
  have hrange := inRange_of_validate h
  refine ⟨s.step parameters j, s.step parameters k, compute_reals hrange j,
    compute_reals hrange k, step_pos hrange k, step_antitone hrange hjk, fun hs => ?_⟩
  obtain ⟨rest, hrest⟩ := step_zero hrange hs
  exact ⟨_, rest, hrest, step_antitone hrange (Nat.zero_le j)⟩

/-- The base of the power lies below one at first and above it later. -/
theorem compute_decreases_half : ∃ earlier later : ℝ,
    scaled.validate (([1 / 2, 2] : List ℝ).map real) = .ok () ∧
    scaled.compute ((0 : ℕ) : Extended) (([1 / 2, 2] : List ℝ).map real) = .ok (real earlier) ∧
    scaled.compute ((3 : ℕ) : Extended) (([1 / 2, 2] : List ℝ).map real) = .ok (real later) ∧
    0 < later ∧ later ≤ earlier := by
  have hvalid : scaled.validate (([1 / 2, 2] : List ℝ).map real) = .ok () := by
    refine validate_eq_ok_iff.mpr ⟨?_, ?_⟩
    · rw [zero_eq, real_le_real]
      norm_num
    · rw [zero_eq, real_lt_real]
      norm_num
  obtain ⟨earlier, later, hearlier, hlater, hpos, hle, -⟩ :=
    compute_decreases hvalid (Nat.zero_le 3)
  exact ⟨earlier, later, hvalid, hearlier, hlater, hpos, hle⟩

end Schedule

end Downhill
