import Downhill.Proofs.LineSearch.Exits
import Downhill.Proofs.LineSearch.Requests
import Mathlib.Analysis.SpecialFunctions.Log.Base

/-!
# The budget of a strong Wolfe search

The zoom cuts brackets between real steps with known values at both ends and a known slope
at the better one.  An iteration may ask for the slope at the other end, and keeps a slope
to spare for an end whose slope it leaves open.  So it costs two values, of the minimiser
and of the trial step, and one slope.

Doubling adds a value and a slope with each trial, and a trial that is refused has its slope
to spare.  With a finite largest step the doubling ends by itself.

The objective may take any values, may be undefined and may fail.
-/

namespace Downhill

open Extended (real)
open Question (Within)

/-! ## What is known of a bracket -/

/-- The values at both ends of a bracket are known, and the slope at the better one. -/
structure KnownEnds (asked : List Question) (low high : ℝ) : Prop where
  ne : low ≠ high
  low_value : .value low ∈ asked
  high_value : .value high ∈ asked
  low_slope : .slope low ∈ asked

/-- A bracket between real steps that leaves the slope at its other end to spare. -/
def Affords (asked : List Question) (v s : ℕ) (low high : Extended) : Prop :=
  ∃ l h, low = real l ∧ high = real h ∧ KnownEnds asked l h ∧ Within (asked.insert (.slope h)) v s

theorem KnownEnds.insert {asked : List Question} {low high : ℝ} (h : KnownEnds asked low high)
    (q : Question) : KnownEnds (asked.insert q) low high where
  ne := h.ne
  low_value := List.mem_insert_of_mem h.low_value
  high_value := List.mem_insert_of_mem h.high_value
  low_slope := List.mem_insert_of_mem h.low_slope

theorem Affords.within {asked : List Question} {v s : ℕ} {low high : Extended}
    (h : Affords asked v s low high) : Within asked v s := by
  obtain ⟨l, h, -, -, -, hwithin⟩ := h
  exact hwithin.of_insert

open Ray.Spends (bind_value bind_slope bind_value_of_mem bind_slope_of_mem)

/-- A trial step asks for the slope at the other end, and for the value at the minimiser. -/
theorem spends_trial {ray : Ray Extended} {asked : List Question} {v s : ℕ} {low high : ℝ}
    (h : KnownEnds asked low high) (hwithin : Within (asked.insert (.slope high)) v s) :
    ray.Spends (v + 1) s asked
      (Cubic.trial ray.value ray.slope Cubic.margin (real low) (real high))
      fun step asked' => KnownEnds asked' low high ∧ .slope high ∈ asked' ∧
        ∃ t, step = real t ∧ min low high < t ∧ t < max low high := by
  have hne : ¬(real low == real high) = true := by
    rw [Extended.real_beq_real, decide_eq_true_eq]
    exact h.ne
  have hends := h.insert (.slope high)
  have hslope : .slope high ∈ asked.insert (.slope high) := List.mem_insert_self
  unfold Cubic.trial
  rw [if_neg hne]
  refine bind_value_of_mem h.low_value fun valueLow => ?_
  refine bind_value_of_mem h.high_value fun valueHigh => ?_
  refine bind_slope_of_mem h.low_slope fun slopeLow => ?_
  refine bind_slope (hwithin.mono (Nat.le_succ v) le_rfl) fun slopeHigh => ?_
  have hbetter : ∃ u, (if valueHigh < valueLow then real high else real low) = real u ∧
      min low high ≤ u ∧ u ≤ max low high := by
    split_ifs
    · exact ⟨high, rfl, min_le_right low high, le_max_right low high⟩
    · exact ⟨low, rfl, min_le_left low high, le_max_left low high⟩
  cases hc : Cubic.minimizer? ⟨real low, valueLow, slopeLow⟩ ⟨real high, valueHigh, slopeHigh⟩ with
  | none => exact .pure ⟨hends, hslope, Cubic.keepAway_margin h.ne hbetter⟩
  | some candidate =>
    obtain ⟨c, rfl, hmem⟩ := Cubic.minimizer?_mem rfl rfl hc
    refine bind_value (hwithin.insert_value c) fun valueNew => ?_
    refine .pure ⟨hends.insert _, List.mem_insert_of_mem hslope, Cubic.keepAway_margin h.ne ?_⟩
    by_cases hlower : valueNew < valueLow ∧ valueNew < valueHigh
    · rw [if_pos hlower]
      exact ⟨c, rfl, hmem⟩
    · rw [if_neg hlower]
      exact hbetter

namespace Wolfe

variable {w : Wolfe Extended} {ray : Ray Extended} {start : Start Extended}
  {asked : List Question} {v s : ℕ}

/-- A test against a step whose value is known asks for nothing. -/
theorem spends_rejects {step value : Extended} {rival : Option Extended}
    (hrival : ∀ other, rival = some other → ∃ t, other = real t ∧ .value t ∈ asked) :
    ray.Spends v s asked (w.rejects ray.value start step value rival)
      fun _ asked' => asked' = asked := by
  unfold rejects
  split_ifs
  · exact .pure rfl
  · cases rival with
    | none => exact .pure rfl
    | some other =>
      obtain ⟨t, rfl, hmem⟩ := hrival other rfl
      exact bind_value_of_mem hmem fun _ => .pure rfl

/-- A cut at a trial step asks for its slope, or leaves that to spare. -/
theorem spends_narrow {low high t : ℝ} {value : Extended} (h : KnownEnds asked low high)
    (hslope : .slope high ∈ asked) (ht : .value t ∈ asked) (htlow : t ≠ low) (hthigh : t ≠ high)
    (hwithin : Within asked v s) :
    ray.Spends v (s + 1) asked
      (w.narrow ray.value ray.slope start (real low) (real high) (real t) value)
      fun bracket asked' => ∀ ends, bracket = some ends →
        Affords asked' v (s + 1) ends.1 ends.2 := by
  have hrival : ∀ other, some (real low) = some other →
      ∃ u, other = real u ∧ .value u ∈ asked := by
    rintro _ ⟨⟩
    exact ⟨low, rfl, h.low_value⟩
  have hnew := hwithin.insert_slope t
  unfold narrow
  refine (spends_rejects hrival).bind ?_
  rintro rejected _ rfl
  split_ifs
  · -- The trial step is the new other end, and its slope stays open.
    refine .pure ?_
    rintro _ ⟨⟩
    exact ⟨low, t, rfl, rfl, ⟨htlow.symm, h.low_value, ht, h.low_slope⟩, hnew⟩
  refine bind_slope hnew fun slope => ?_
  have hends := h.insert (.slope t)
  have hvalue := List.mem_insert_of_mem (b := .slope t) ht
  split_ifs
  · exact .pure nofun
  · refine .pure ?_
    rintro _ ⟨⟩
    refine ⟨t, low, rfl, rfl, ⟨htlow, hvalue, hends.low_value, List.mem_insert_self⟩, ?_⟩
    rwa [List.insert_of_mem hends.low_slope]
  · refine .pure ?_
    rintro _ ⟨⟩
    refine ⟨t, high, rfl, rfl, ⟨hthigh, hvalue, hends.high_value, List.mem_insert_self⟩, ?_⟩
    rwa [List.insert_of_mem (List.mem_insert_of_mem hslope)]

/-- An iteration of the zoom costs two values and one slope. -/
theorem spends_zoomStep {iteration : ℕ} {z : Zoom Extended} (h : Affords asked v s z.low z.high) :
    ray.Spends (v + 2) (s + 1) asked (w.zoomStep ray.value ray.slope start iteration z)
      fun next asked' => ∀ z', next = .inl z' → Affords asked' (v + 2) (s + 1) z'.low z'.high := by
  obtain ⟨low, high, hlow, hhigh, hends, hwithin⟩ := h
  unfold zoomStep
  rw [hlow, hhigh]
  refine ((spends_trial hends hwithin).widen (hwithin.of_insert.mono (Nat.le_succ v) le_rfl)
    (Nat.le_succ _) (Nat.le_succ _)).bind ?_
  rintro _ asked ⟨hwithin, hends, hslope, t, rfl, hmin, hmax⟩
  have hvalue := hwithin.insert_value t
  refine bind_value (hvalue.mono le_rfl (Nat.le_succ s)) fun value => ?_
  obtain ⟨htlow, hthigh⟩ := WolfeLine.ne_of_between hmin hmax
  refine (spends_narrow (hends.insert _) (List.mem_insert_of_mem hslope) List.mem_insert_self htlow
    hthigh hvalue).bind ?_
  rintro bracket asked hbracket
  cases bracket with
  | none => exact .pure nofun
  | some ends =>
    have haffords := hbracket ends rfl
    dsimp only
    split_ifs
    · refine .pure ?_
      rintro _ ⟨⟩
      exact haffords
    · exact .pure nofun
    · refine .pure ?_
      rintro _ ⟨⟩
      exact haffords

theorem spends_zoomFrom {left done : ℕ} {z : Zoom Extended}
    (h : Affords asked v s z.low z.high) :
    ray.Spends (v + 2 * left) (s + left) asked
      (w.zoomFrom ray.value ray.slope start left done z) fun _ _ => True := by
  induction left generalizing done z asked v s with
  | zero => exact .pure trivial
  | succ left ih =>
    rw [zoomFrom, show v + 2 * (left + 1) = v + 2 + 2 * left by ring,
      show s + (left + 1) = s + 1 + left by ring]
    have hstart := h.within.mono (Nat.le_add_right v 2) (Nat.le_succ s)
    refine ((spends_zoomStep h).widen hstart (Nat.le_add_right _ _) (Nat.le_add_right _ _)).bind ?_
    rintro next asked ⟨-, hnext⟩
    cases next with
    | inl z => exact ih (hnext z rfl)
    | inr outcome => exact .pure trivial

/-! ## The doubling phase -/

variable {m : ℝ}

/-- Some doublings are left as long as the largest step is not passed. -/
theorem exists_succ_of_lt {a : ℝ} {k : ℕ} (ham : a ≤ m) (hk : m < a * 2 ^ k) :
    ∃ i, k = i + 1 := by
  refine Nat.exists_eq_succ_of_ne_zero ?_
  rintro rfl
  rw [pow_zero, mul_one] at hk
  exact hk.not_ge ham

/-- Beyond a step `p` that is known, with enough doublings to pass the largest step, every
trial costs a value and a slope.  The slope of a refused trial is left to spare. -/
theorem spends_expand (hm : w.maxStep = real m) {left k : ℕ} {previous : Option Extended}
    {p a : ℝ} (hprevious : previous = none ∧ p = 0 ∨ previous = some (real p))
    (hvalue : .value p ∈ asked) (hslope : .slope p ∈ asked) (hpa : p < a) (ham : a ≤ m)
    (hpos : 0 < a) (hk : m < a * 2 ^ k) (hwithin : Within asked v s) :
    ray.Spends (v + k) (s + k) asked
      (w.expand ray.value ray.slope start left previous (real a))
      fun expansion asked' => ∀ low high, expansion = .bracket low high →
        Affords asked' (v + k) (s + k) low high := by
  induction left generalizing k previous p a asked v s with
  | zero =>
    refine .pure ?_
    rintro _ _ ⟨⟩
  | succ left ih =>
    obtain ⟨k, rfl⟩ := exists_succ_of_lt ham hk
    have hone := hwithin.insert_value a
    have hboth := hone.insert_slope a
    have hvalue' := List.mem_insert_of_mem (b := .value a) hvalue
    have hslope' := List.mem_insert_of_mem (b := .value a) hslope
    have hrival : ∀ other, previous = some other →
        ∃ t, other = real t ∧ .value t ∈ asked.insert (.value a) := by
      rintro other rfl
      rcases hprevious with ⟨⟨⟩, -⟩ | ⟨⟨⟩⟩
      exact ⟨p, rfl, hvalue'⟩
    rw [expand, before_eq hprevious]
    refine bind_value (hone.mono (by omega) (by omega)) fun value => ?_
    refine (spends_rejects hrival).bind ?_
    rintro rejected _ rfl
    by_cases hrejected : rejected = true
    · -- The trial step is the other end of the bracket, and its slope stays open.
      rw [if_pos hrejected]
      refine .pure ?_
      rintro _ _ ⟨⟩
      exact ⟨p, a, rfl, rfl, ⟨hpa.ne, hvalue', List.mem_insert_self, hslope'⟩,
        hboth.mono (by omega) (by omega)⟩
    rw [if_neg hrejected]
    refine bind_slope (hboth.mono (by omega) (by omega)) fun slope => ?_
    have hvalueNew : .value a ∈ (asked.insert (.value a)).insert (.slope a) :=
      List.mem_insert_of_mem List.mem_insert_self
    split_ifs with hflat hturn hlast
    · refine .pure ?_
      rintro _ _ ⟨⟩
    · -- The trial step is the better end, and the slope at the other one is known.
      refine .pure ?_
      rintro _ _ ⟨⟩
      refine ⟨a, p, rfl, rfl, ⟨hpa.ne', hvalueNew, List.mem_insert_of_mem hvalue',
        List.mem_insert_self⟩, ?_⟩
      rw [List.insert_of_mem (List.mem_insert_of_mem hslope')]
      exact hboth.mono (by omega) (by omega)
    · refine .pure ?_
      rintro _ _ ⟨⟩
    · rw [hm, Extended.two_mul_real, Extended.real_lt_real, not_lt] at hlast
      rw [← two_mul_mul_pow] at hk
      rw [Extended.two_mul_real, show v + (k + 1) = v + 1 + k by omega,
        show s + (k + 1) = s + 1 + k by omega]
      exact ih (Or.inr rfl) hvalueNew List.mem_insert_self (by linarith) hlast (by linarith) hk
        hboth

/-- Passing the largest step ends the doubling phase, so that more trials make no difference. -/
theorem expand_eq_of_lt {μ : Type → Type} [Monad μ] (phi slope : Extended → μ Extended)
    (start : Start Extended) (hm : w.maxStep = real m) {left left' : ℕ}
    (previous : Option Extended) {a : ℝ} (ham : a ≤ m) (hleft : m < a * 2 ^ left)
    (hleft' : m < a * 2 ^ left') :
    w.expand phi slope start left previous (real a) =
      w.expand phi slope start left' previous (real a) := by
  induction left generalizing left' previous a with
  | zero =>
    obtain ⟨i, hi⟩ := exists_succ_of_lt ham hleft
    exact absurd hi.symm (Nat.succ_ne_zero i)
  | succ left ih =>
    obtain ⟨left', rfl⟩ := exists_succ_of_lt ham hleft'
    rw [← two_mul_mul_pow] at hleft hleft'
    have hnext : ¬w.maxStep < real (2 * a) →
        w.expand phi slope start left (some (real a)) (real (2 * a)) =
          w.expand phi slope start left' (some (real a)) (real (2 * a)) := by
      intro hlast
      rw [hm, Extended.real_lt_real, not_lt] at hlast
      exact ih (some (real a)) hlast hleft hleft'
    rw [expand, expand, Extended.two_mul_real]
    refine bind_congr fun value => bind_congr fun rejected => ?_
    by_cases hlast : w.maxStep < real (2 * a)
    · simp only [if_pos hlast]
    · simp only [hnext hlast]

/-! ## The whole search -/

/-- The number of trials from a step `a` up to the largest step `m`. -/
noncomputable def trials (m a : ℝ) : ℕ := ⌊Real.logb 2 (m / a)⌋₊ + 1

theorem lt_of_trials_le {a : ℝ} (ha : 0 < a) (ham : a < m) {n : ℕ} (hn : trials m a ≤ n) :
    m < a * 2 ^ n := by
  have hquotient : 0 < m / a := div_pos (ha.trans ham) ha
  have hlog : Real.logb 2 (m / a) < (trials m a : ℝ) := by
    unfold trials
    exact_mod_cast Nat.lt_floor_add_one (Real.logb 2 (m / a))
  have hpow : m / a < 2 ^ trials m a := by
    rw [← Real.rpow_natCast]
    exact (Real.logb_lt_iff_lt_rpow one_lt_two hquotient).mp hlog
  calc m < a * 2 ^ trials m a := (div_lt_iff₀' ha).mp hpow
    _ ≤ a * 2 ^ n := mul_le_mul_of_nonneg_left (pow_le_pow_right₀ one_le_two hn) ha.le

theorem spends_search (hm : w.maxStep = real m) {proposal : Extended} {a : ℝ}
    (hfirst : w.firstStep proposal = real a) (ha : 0 < a) (ham : a < m) :
    ray.Spends (1 + trials m a + 2 * w.zoomLimit) (1 + trials m a + w.zoomLimit) []
      (w.search ray.value ray.slope proposal) fun _ _ => True := by
  have hvalue := (Question.within_nil 0 0).insert_value 0
  have hboth := hvalue.insert_slope 0
  unfold search
  refine bind_value (t := 0) (hvalue.mono (by omega) (by omega)) fun value => ?_
  refine bind_slope (t := 0) (hboth.mono (by omega) (by omega)) fun slope => ?_
  split_ifs
  · have hexpand : ray.Spends _ _ _ (w.expand ray.value ray.slope ⟨value, slope⟩
        (w.trialBound (real a)) none (real a)) _ :=
      spends_expand hm (Or.inl ⟨rfl, rfl⟩) (List.mem_insert_of_mem List.mem_insert_self)
        List.mem_insert_self ha ham.le ha (lt_of_trials_le ha ham le_rfl) hboth
    dsimp only
    rw [hfirst]
    refine (hexpand.widen (hboth.mono (by omega) (by omega)) (by omega) (by omega)).bind ?_
    rintro expansion asked ⟨-, hbracket⟩
    cases expansion with
    | outcome outcome => exact .pure trivial
    | bracket low high => exact spends_zoomFrom (hbracket low high rfl)
  · exact .pure trivial

/-- A search with a finite largest step stays within its budget on every ray.  Its first trial
step is inside the range, and the doubling phase ends by itself after the trials from there up
to the largest step, however many more it is allowed.  If the objective has values and slopes
along the ray, whatever they are, the search returns an outcome.  In any case it asks for one
value and one slope at the start and in each trial, and for two values and one slope in each
iteration of the zoom.  It asks for none of them twice at one step, so no request is made twice
where different steps have different points. -/
theorem search_within_budget (hm : w.maxStep = real m) (hpos : 0 < m) (ray : Ray Extended)
    (proposal : Extended) :
    ∃ a, w.firstStep proposal = real a ∧ 0 < a ∧ a < m ∧
      (∀ start left, trials m a ≤ left →
        w.expand ray.value ray.slope start left none (real a) =
          w.expand ray.value ray.slope start (w.trialBound (real a)) none (real a)) ∧
      ∃ result journal asked,
        (Ray.explore (w.search ray.value ray.slope proposal)).journaled = (result, journal) ∧
        (∀ phi slope, ray.Answers phi slope → ∃ outcome, result = .ok outcome) ∧
        ray.AskedOnce asked journal ∧
        ((∀ t u, ray.pointAt (real t) = ray.pointAt (real u) → t = u) → journal.Nodup) ∧
        (Tally.ofJournal journal).values ≤ 1 + trials m a + 2 * w.zoomLimit ∧
        (Tally.ofJournal journal).gradients ≤ 1 + trials m a + w.zoomLimit := by
  have hmax : 0 < w.maxStep := by
    rw [hm]
    exact Extended.real_lt_real.mpr hpos
  obtain ⟨a, hfirst, ha, ham⟩ := exists_firstStep hmax hm proposal
  have hspends : ray.Spends _ _ [] (w.search ray.value ray.slope proposal) _ :=
    spends_search hm hfirst ha ham
  obtain ⟨asked, hwithin, honce⟩ := hspends.explore
  refine ⟨a, hfirst, ha, ham, fun start left hleft => ?_, _, _, asked, rfl, ?_, honce,
    honce.nodup_journal, ?_, ?_⟩
  · exact expand_eq_of_lt ray.value ray.slope start hm none ham.le (lt_of_trials_le ha ham hleft)
      (maxStep_lt_of_trialBound hmax hm ha)
  · exact fun phi slope hray => ⟨_, w.explore_search hray proposal⟩
  · exact (honce.countP_eq id).trans_le hwithin.values_le
  · exact (honce.countP_eq (!·)).trans_le hwithin.slopes_le

/-- Two trials at most, and a hundred iterations of the zoom, on an objective that descends at
first and has no value anywhere. -/
theorem search_within_budget_undefined :
    ∃ outcome journal,
      (Ray.explore (usual.search (Ray.ofFunctions (fun _ => .undefined) fun _ => real (-1)).value
        (Ray.ofFunctions (fun _ => .undefined) fun _ => real (-1)).slope (real 5))).journaled =
          (.ok outcome, journal) ∧
      journal.Nodup ∧
      (Tally.ofJournal journal).values ≤ 203 ∧ (Tally.ofJournal journal).gradients ≤ 103 := by
  obtain ⟨a, hfirst, -, -, -, result, journal, asked, hrun, hreturns, -, hnodup, hvalues,
      hslopes⟩ :=
    search_within_budget (w := usual) rfl (by norm_num : (0 : ℝ) < 10)
      (Ray.ofFunctions (fun _ => .undefined) fun _ => real (-1)) (real 5)
  have hfive : a = 5 := by
    have hrange : (0 : Extended) < real 5 ∧ real 5 < usual.maxStep := by
      rw [Extended.zero_eq]
      exact ⟨by norm_num, Extended.real_lt_real.mpr (by norm_num)⟩
    rw [firstStep, if_pos hrange, Extended.real_inj] at hfirst
    exact hfirst.symm
  have htrials : trials 10 a = 2 := by
    have hlog : Real.logb 2 (10 / 5) = 1 := by
      rw [show (10 : ℝ) / 5 = 2 by norm_num]
      exact Real.logb_self_eq_one one_lt_two
    rw [hfive, trials, hlog, Nat.floor_one]
  have hpoints : ∀ t u : ℝ, (Except.ok [0 + real t * 1] : Except Fault (Vec Extended)) =
      .ok [0 + real u * 1] → t = u := by
    intro t u h
    rw [Extended.zero_add_mul_one, Extended.zero_add_mul_one] at h
    exact Extended.real_inj.mp (List.cons.inj (Except.ok.inj h)).1
  obtain ⟨outcome, rfl⟩ := hreturns _ _ (Ray.ofFunctions_answers _ _)
  rw [htrials] at hvalues hslopes
  exact ⟨outcome, journal, hrun, hnodup hpoints, hvalues, hslopes⟩

end Wolfe

end Downhill
