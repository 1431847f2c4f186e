import Downhill.Descent.Settings
import Downhill.Proofs.LineSearch.Bracket
import Downhill.Proofs.Number.Double
import Downhill.Proofs.Schedule
import Downhill.Stochastic.Settings

/-!
# Accepted settings

Which settings over doubles are accepted, and which numbers they then hold.  The constants of
a search are tested for the range they have to lie in, and so is the factor of a geometric
schedule.  All other numbers are tested for the range they must not lie in, and such a test
lets pass what is not a number.
-/

namespace Downhill

namespace Double

/-- The numbers that a test for negative ones lets pass. -/
def PassesNonneg (x : Float) : Prop := 0 ≤ x ∨ x.isNaN = true

/-- The numbers that a test for zero and negative ones lets pass. -/
def PassesPos (x : Float) : Prop := 0 < x ∨ x.isNaN = true

variable {x : Float}

theorem PassesNonneg.nonneg_iff (h : PassesNonneg x) : 0 ≤ x ↔ x.isNaN = false := by
  refine ⟨fun hx => (isNaN_of_le hx).2, fun hx => h.resolve_right ?_⟩
  rw [hx]
  exact Bool.false_ne_true

theorem PassesPos.pos_iff (h : PassesPos x) : 0 < x ↔ x.isNaN = false := by
  refine ⟨fun hx => (isNaN_of_lt hx).2, fun hx => h.resolve_right ?_⟩
  rw [hx]
  exact Bool.false_ne_true

end Double

open Double

/-! ## Schedules -/

namespace Schedule

/-- The parameters over doubles that a schedule accepts. -/
def Passes : Schedule → List Float → Prop
  | constant, [a] => PassesPos a
  | scaled, [tau, kappa] => PassesPos tau ∧ PassesNonneg kappa
  | inverseDecay, [a, b, p] => PassesPos a ∧ PassesNonneg b ∧ PassesNonneg p
  | exponential, [a, gamma] => PassesPos a ∧ 0 < gamma ∧ gamma ≤ 1
  | _, _ => False

variable {s : Schedule} {parameters : List Float}

theorem passes_iff_admits : s.Passes parameters ↔ s.Admits parameters := by
  match s, parameters with
  | constant, [_] => exact not_le_zero_iff.symm
  | scaled, [_, _] => exact and_congr not_le_zero_iff.symm not_lt_zero_iff.symm
  | inverseDecay, [_, _, _] =>
    exact and_congr not_le_zero_iff.symm (and_congr not_lt_zero_iff.symm not_lt_zero_iff.symm)
  | exponential, [_, _] => exact and_congr_left fun _ => not_le_zero_iff.symm
  -- Too few parameters or too many.
  | constant, [] | constant, _ :: _ :: _ => exact Iff.rfl
  | scaled, [] | scaled, [_] | scaled, _ :: _ :: _ :: _ => exact Iff.rfl
  | inverseDecay, [] | inverseDecay, [_] | inverseDecay, [_, _] => exact Iff.rfl
  | inverseDecay, _ :: _ :: _ :: _ :: _ => exact Iff.rfl
  | exponential, [] | exponential, [_] | exponential, _ :: _ :: _ :: _ => exact Iff.rfl

theorem validate_eq_ok_iff_passes : s.validate parameters = .ok () ↔ s.Passes parameters :=
  validate_eq_ok_iff.trans passes_iff_admits.symm

/-- The parameters over doubles for which a schedule is meant. -/
def Suits : Schedule → List Float → Prop
  | constant, [a] => 0 < a
  | scaled, [tau, kappa] => 0 < tau ∧ 0 ≤ kappa
  | inverseDecay, [a, b, p] => 0 < a ∧ 0 ≤ b ∧ 0 ≤ p
  | exponential, [a, gamma] => 0 < a ∧ 0 < gamma ∧ gamma ≤ 1
  | _, _ => False

theorem Passes.suits_iff (h : s.Passes parameters) :
    s.Suits parameters ↔ ∀ p ∈ parameters, p.isNaN = false := by
  match s, parameters, h with
  | constant, [_], ha =>
    rw [List.forall_mem_singleton, ← ha.pos_iff]
    rfl
  | scaled, [_, _], ⟨htau, hkappa⟩ =>
    rw [List.forall_mem_cons, List.forall_mem_singleton, ← htau.pos_iff, ← hkappa.nonneg_iff]
    rfl
  | inverseDecay, [_, _, _], ⟨ha, hb, hp⟩ =>
    rw [List.forall_mem_cons, List.forall_mem_cons, List.forall_mem_singleton, ← ha.pos_iff,
      ← hb.nonneg_iff, ← hp.nonneg_iff]
    rfl
  | exponential, [_, _], ⟨ha, hgamma, hone⟩ =>
    rw [List.forall_mem_cons, List.forall_mem_singleton, ← ha.pos_iff]
    exact and_congr_right fun _ => iff_of_true ⟨hgamma, hone⟩ (isNaN_of_lt hgamma).2

end Schedule

/-! ## Settings of a loop -/

namespace LoopDraft

/-- The loop settings over doubles that are accepted. -/
structure Passes (d : LoopDraft Float) : Prop where
  maxIterations : 0 ≤ d.maxIterations
  pointTolerance : PassesNonneg d.pointTolerance
  pointPatience : 1 ≤ d.pointPatience
  logEvery : 0 ≤ d.logEvery
  predicate : ∃ predicate, d.predicate.validate = .ok predicate
  bounds : ∃ box, Box.ofBounds d.lower d.upper = .ok box

variable {d : LoopDraft Float}

theorem passes_of_validate {s : LoopSettings Float} (h : d.validate = .ok s) :
    d.Passes ∧ s.pointTolerance = d.pointTolerance := by
  obtain ⟨_, hiterations, h⟩ := Fault.bind_eq_ok_iff.mp h
  obtain ⟨_, htolerance, h⟩ := Fault.bind_eq_ok_iff.mp h
  obtain ⟨_, hpatience, h⟩ := Fault.bind_eq_ok_iff.mp h
  obtain ⟨_, hevery, h⟩ := Fault.bind_eq_ok_iff.mp h
  obtain ⟨predicate, hpredicate, h⟩ := Fault.bind_eq_ok_iff.mp h
  obtain ⟨box, hbox, h⟩ := Fault.bind_eq_ok_iff.mp h
  cases h
  refine ⟨?_, rfl⟩
  constructor
  · exact not_lt.mp (Fault.refuse_eq_ok_iff.mp hiterations)
  · exact not_lt_zero_iff.mp (Fault.refuse_eq_ok_iff.mp htolerance)
  · exact not_lt.mp (Fault.refuse_eq_ok_iff.mp hpatience)
  · exact not_lt.mp (Fault.refuse_eq_ok_iff.mp hevery)
  · exact ⟨predicate, hpredicate⟩
  · exact ⟨box, hbox⟩

theorem Passes.exists_validate (h : d.Passes) : ∃ s, d.validate = .ok s := by
  obtain ⟨predicate, hpredicate⟩ := h.predicate
  obtain ⟨box, hbox⟩ := h.bounds
  unfold validate
  simp only [Fault.bind_eq_ok_iff, Fault.refuse_eq_ok_iff, exists_const]
  exact ⟨_, not_lt.mpr h.maxIterations, not_lt_zero_iff.mpr h.pointTolerance,
    not_lt.mpr h.pointPatience, not_lt.mpr h.logEvery, predicate, hpredicate, box, hbox, rfl⟩

end LoopDraft

/-! ## Settings of a line search solver -/

namespace DescentSettings

/-- The numbers of the settings that have a range. -/
def numbers (s : DescentSettings Float) : List Float :=
  [s.pointTolerance, s.wolfe.c1, s.wolfe.c2, s.wolfe.maxStep, s.gradientTolerance,
    s.valueTolerance]

/-- The ranges that the numbers are meant to lie in. -/
structure InRange (s : DescentSettings Float) : Prop where
  pointTolerance : 0 ≤ s.pointTolerance
  decrease : 0 < s.wolfe.c1 ∧ s.wolfe.c1 < 1
  curvature : s.wolfe.c1 < s.wolfe.c2 ∧ s.wolfe.c2 < 1
  maxStep : 0 < s.wolfe.maxStep
  gradientTolerance : 0 ≤ s.gradientTolerance
  valueTolerance : 0 ≤ s.valueTolerance

end DescentSettings

namespace DescentDraft

def numbers (d : DescentDraft Float) : List Float :=
  [d.pointTolerance, d.c1, d.c2, d.maxStep, d.gradientTolerance, d.valueTolerance]

/-- The settings of a line search solver over doubles that are accepted. -/
structure Passes (d : DescentDraft Float) : Prop where
  loop : d.toLoopDraft.Passes
  decrease : 0 < d.c1 ∧ d.c1 < 1
  curvature : d.c1 < d.c2 ∧ d.c2 < 1
  maxStep : 0 < d.maxStep
  gradientTolerance : PassesNonneg d.gradientTolerance
  valueTolerance : PassesNonneg d.valueTolerance
  valuePatience : 1 ≤ d.valuePatience
  method : ∃ method, d.method.validate = .ok method
  firstTrial : ∃ rule, d.firstTrial.resolve .firstTrial FirstTrial.ofName = .ok rule
  restart : ∃ policy, d.restart.resolve .restartMethod RestartPolicy.ofName = .ok policy

variable {d : DescentDraft Float}

theorem passes_of_validate {s : DescentSettings Float} (h : d.validate = .ok s) :
    d.Passes ∧ s.numbers = d.numbers := by
  obtain ⟨loop, hloop, h⟩ := Fault.bind_eq_ok_iff.mp h
  obtain ⟨_, hconstants, h⟩ := Fault.bind_eq_ok_iff.mp h
  obtain ⟨_, hgradient, h⟩ := Fault.bind_eq_ok_iff.mp h
  obtain ⟨_, hvalue, h⟩ := Fault.bind_eq_ok_iff.mp h
  obtain ⟨_, hpatience, h⟩ := Fault.bind_eq_ok_iff.mp h
  obtain ⟨method, hmethod, h⟩ := Fault.bind_eq_ok_iff.mp h
  obtain ⟨rule, hrule, h⟩ := Fault.bind_eq_ok_iff.mp h
  obtain ⟨policy, hpolicy, h⟩ := Fault.bind_eq_ok_iff.mp h
  cases h
  obtain ⟨hdraft, htolerance⟩ := LoopDraft.passes_of_validate hloop
  obtain ⟨hdecrease, hcurvature, hmax⟩ := Wolfe.checkConstants_eq_ok_iff.mp hconstants
  refine ⟨?_, ?_⟩
  · constructor
    · exact hdraft
    · exact hdecrease
    · exact hcurvature
    · exact hmax
    · exact not_lt_zero_iff.mp (Fault.refuse_eq_ok_iff.mp hgradient)
    · exact not_lt_zero_iff.mp (Fault.refuse_eq_ok_iff.mp hvalue)
    · exact not_lt.mp (Fault.refuse_eq_ok_iff.mp hpatience)
    · exact ⟨method, hmethod⟩
    · exact ⟨rule, hrule⟩
    · exact ⟨policy, hpolicy⟩
  · show loop.pointTolerance :: _ = d.pointTolerance :: _
    rw [htolerance]

theorem Passes.exists_validate (h : d.Passes) : ∃ s, d.validate = .ok s := by
  obtain ⟨loop, hloop⟩ := h.loop.exists_validate
  have hconstants : Wolfe.checkConstants d.c1 d.c2 d.maxStep = .ok () :=
    Wolfe.checkConstants_eq_ok_iff.mpr ⟨h.decrease, h.curvature, h.maxStep⟩
  obtain ⟨method, hmethod⟩ := h.method
  obtain ⟨rule, hrule⟩ := h.firstTrial
  obtain ⟨policy, hpolicy⟩ := h.restart
  unfold validate
  simp only [Fault.bind_eq_ok_iff, Fault.refuse_eq_ok_iff, exists_const]
  exact ⟨_, loop, hloop, (), hconstants, not_lt_zero_iff.mpr h.gradientTolerance,
    not_lt_zero_iff.mpr h.valueTolerance, not_lt.mpr h.valuePatience, method, hmethod, rule, hrule,
    policy, hpolicy, rfl⟩

theorem inRange_iff_of_validate {s : DescentSettings Float} (h : d.validate = .ok s) :
    s.InRange ↔ ∀ x ∈ s.numbers, x.isNaN = false := by
  obtain ⟨hd, hnumbers⟩ := passes_of_validate h
  simp only [DescentSettings.numbers, numbers, List.cons.injEq] at hnumbers
  obtain ⟨hpoint, hc1, hc2, hmax, hgradient, hvalue, -⟩ := hnumbers
  have hpoint_iff : 0 ≤ s.pointTolerance ↔ s.pointTolerance.isNaN = false := by
    rw [hpoint]
    exact hd.loop.pointTolerance.nonneg_iff
  have hgradient_iff : 0 ≤ s.gradientTolerance ↔ s.gradientTolerance.isNaN = false := by
    rw [hgradient]
    exact hd.gradientTolerance.nonneg_iff
  have hvalue_iff : 0 ≤ s.valueTolerance ↔ s.valueTolerance.isNaN = false := by
    rw [hvalue]
    exact hd.valueTolerance.nonneg_iff
  have hdecrease : 0 < s.wolfe.c1 ∧ s.wolfe.c1 < 1 := hc1 ▸ hd.decrease
  have hcurvature : s.wolfe.c1 < s.wolfe.c2 ∧ s.wolfe.c2 < 1 := hc1 ▸ hc2 ▸ hd.curvature
  have hmaxStep : 0 < s.wolfe.maxStep := hmax ▸ hd.maxStep
  simp only [DescentSettings.numbers, List.forall_mem_cons]
  constructor
  · intro hs
    exact ⟨hpoint_iff.mp hs.pointTolerance, (isNaN_of_lt hdecrease.1).2,
      (isNaN_of_lt hcurvature.1).2, (isNaN_of_lt hmaxStep).2, hgradient_iff.mp hs.gradientTolerance,
      hvalue_iff.mp hs.valueTolerance, List.forall_mem_nil _⟩
  · rintro ⟨hp, -, -, -, hg, hv, -⟩
    exact ⟨hpoint_iff.mpr hp, hdecrease, hcurvature, hmaxStep, hgradient_iff.mpr hg,
      hvalue_iff.mpr hv⟩

end DescentDraft

/-! ## Settings of a stochastic solver -/

namespace StochasticSettings

/-- The numbers of the settings that have a range. -/
def numbers (s : StochasticSettings Float) : List Float :=
  [s.pointTolerance, s.l1, s.l2, s.epsilon] ++ s.parameters

/-- The ranges that the numbers are meant to lie in. -/
structure InRange (s : StochasticSettings Float) : Prop where
  pointTolerance : 0 ≤ s.pointTolerance
  l1 : 0 ≤ s.l1
  l2 : 0 ≤ s.l2
  epsilon : 0 < s.epsilon
  parameters : s.schedule.Suits s.parameters

end StochasticSettings

namespace StochasticDraft

def numbers (d : StochasticDraft Float) : List Float :=
  [d.pointTolerance, d.l1, d.l2, d.epsilon] ++ d.parameters

/-- The settings of a stochastic solver over doubles that are accepted. -/
structure Passes (d : StochasticDraft Float) : Prop where
  loop : d.toLoopDraft.Passes
  batchSize : 1 ≤ d.batchSize
  l1 : PassesNonneg d.l1
  l2 : PassesNonneg d.l2
  epsilon : PassesPos d.epsilon
  schedule : ∃ schedule, d.schedule.resolve .schedule Schedule.ofName = .ok schedule ∧
    schedule.Passes d.parameters
  method : ∃ method, d.method.resolve .stochasticMethod StochasticMethod.ofName = .ok method

variable {d : StochasticDraft Float}

theorem passes_of_validate {s : StochasticSettings Float} (h : d.validate = .ok s) :
    d.Passes ∧ s.numbers = d.numbers ∧ s.schedule.Passes s.parameters := by
  obtain ⟨loop, hloop, h⟩ := Fault.bind_eq_ok_iff.mp h
  obtain ⟨_, hbatch, h⟩ := Fault.bind_eq_ok_iff.mp h
  obtain ⟨_, hl1, h⟩ := Fault.bind_eq_ok_iff.mp h
  obtain ⟨_, hl2, h⟩ := Fault.bind_eq_ok_iff.mp h
  obtain ⟨_, hepsilon, h⟩ := Fault.bind_eq_ok_iff.mp h
  obtain ⟨schedule, hschedule, h⟩ := Fault.bind_eq_ok_iff.mp h
  obtain ⟨_, hparameters, h⟩ := Fault.bind_eq_ok_iff.mp h
  obtain ⟨method, hmethod, h⟩ := Fault.bind_eq_ok_iff.mp h
  cases h
  obtain ⟨hdraft, htolerance⟩ := LoopDraft.passes_of_validate hloop
  have hpasses := Schedule.validate_eq_ok_iff_passes.mp hparameters
  refine ⟨?_, ?_, hpasses⟩
  · constructor
    · exact hdraft
    · exact not_lt.mp (Fault.refuse_eq_ok_iff.mp hbatch)
    · exact not_lt_zero_iff.mp (Fault.refuse_eq_ok_iff.mp hl1)
    · exact not_lt_zero_iff.mp (Fault.refuse_eq_ok_iff.mp hl2)
    · exact not_le_zero_iff.mp (Fault.refuse_eq_ok_iff.mp hepsilon)
    · exact ⟨schedule, hschedule, hpasses⟩
    · exact ⟨method, hmethod⟩
  · show loop.pointTolerance :: _ = d.pointTolerance :: _
    rw [htolerance]

theorem Passes.exists_validate (h : d.Passes) : ∃ s, d.validate = .ok s := by
  obtain ⟨loop, hloop⟩ := h.loop.exists_validate
  obtain ⟨schedule, hschedule, hparameters⟩ := h.schedule
  obtain ⟨method, hmethod⟩ := h.method
  unfold validate
  simp only [Fault.bind_eq_ok_iff, Fault.refuse_eq_ok_iff, exists_const]
  exact ⟨_, loop, hloop, not_lt.mpr h.batchSize, not_lt_zero_iff.mpr h.l1,
    not_lt_zero_iff.mpr h.l2, not_le_zero_iff.mpr h.epsilon, schedule, hschedule, (),
    Schedule.validate_eq_ok_iff_passes.mpr hparameters, method, hmethod, rfl⟩

theorem inRange_iff_of_validate {s : StochasticSettings Float} (h : d.validate = .ok s) :
    s.InRange ↔ ∀ x ∈ s.numbers, x.isNaN = false := by
  obtain ⟨hd, hnumbers, hschedule⟩ := passes_of_validate h
  simp only [StochasticSettings.numbers, numbers, List.cons_append, List.cons.injEq] at hnumbers
  obtain ⟨hpoint, hl1, hl2, hepsilon, -⟩ := hnumbers
  have hpoint_iff : 0 ≤ s.pointTolerance ↔ s.pointTolerance.isNaN = false := by
    rw [hpoint]
    exact hd.loop.pointTolerance.nonneg_iff
  have hl1_iff : 0 ≤ s.l1 ↔ s.l1.isNaN = false := by
    rw [hl1]
    exact hd.l1.nonneg_iff
  have hl2_iff : 0 ≤ s.l2 ↔ s.l2.isNaN = false := by
    rw [hl2]
    exact hd.l2.nonneg_iff
  have hepsilon_iff : 0 < s.epsilon ↔ s.epsilon.isNaN = false := by
    rw [hepsilon]
    exact hd.epsilon.pos_iff
  simp only [StochasticSettings.numbers, List.cons_append, List.nil_append, List.forall_mem_cons]
  rw [← hpoint_iff, ← hl1_iff, ← hl2_iff, ← hepsilon_iff, ← hschedule.suits_iff]
  exact ⟨fun hs => ⟨hs.pointTolerance, hs.l1, hs.l2, hs.epsilon, hs.parameters⟩,
    fun ⟨hp, h1, h2, he, hs⟩ => ⟨hp, h1, h2, he, hs⟩⟩

end StochasticDraft

/-! ## All settings -/

/-- Settings are accepted exactly if they pass, and then with their numbers as they are.  What is
accepted is in range exactly if all of these are numbers. -/
theorem accepted_inRange_iff (d : DescentDraft Float) (e : StochasticDraft Float) :
    (((∃ s, d.validate = .ok s) ↔ d.Passes) ∧
      ∀ s, d.validate = .ok s →
        s.numbers = d.numbers ∧ (s.InRange ↔ ∀ x ∈ s.numbers, x.isNaN = false)) ∧
    ((∃ s, e.validate = .ok s) ↔ e.Passes) ∧
      ∀ s, e.validate = .ok s →
        s.numbers = e.numbers ∧ (s.InRange ↔ ∀ x ∈ s.numbers, x.isNaN = false) := by
  refine ⟨⟨⟨?_, fun h => h.exists_validate⟩, fun s hs => ⟨?_, ?_⟩⟩,
    ⟨?_, fun h => h.exists_validate⟩, fun s hs => ⟨?_, ?_⟩⟩
  · exact fun ⟨_, h⟩ => (DescentDraft.passes_of_validate h).1
  · exact (DescentDraft.passes_of_validate hs).2
  · exact DescentDraft.inRange_iff_of_validate hs
  · exact fun ⟨_, h⟩ => (StochasticDraft.passes_of_validate h).1
  · exact (StochasticDraft.passes_of_validate hs).2.1
  · exact StochasticDraft.inRange_iff_of_validate hs

/-- The settings that are used when none are given are accepted and in range. -/
theorem accepted_inRange_iff_default :
    (∃ s : DescentSettings Float, DescentDraft.validate {} = .ok s ∧ s.InRange) ∧
    ∃ s : StochasticSettings Float, StochasticDraft.validate {} = .ok s ∧ s.InRange := by
  obtain ⟨⟨-, hdescent⟩, -, hstochastic⟩ := accepted_inRange_iff {} {}
  constructor
  · refine ⟨_, rfl, (hdescent _ rfl).2.mpr ?_⟩
    decide
  · refine ⟨_, rfl, (hstochastic _ rfl).2.mpr ?_⟩
    decide

/-- A double that is not a number. -/
def Double.notANumber : Float := 0.0 / 0.0

theorem accepts_undefined :
    (∃ s : DescentSettings Float, DescentDraft.validate
        { pointTolerance := notANumber
          gradientTolerance := notANumber
          valueTolerance := notANumber } = .ok s ∧
      ¬0 ≤ s.pointTolerance ∧ ¬0 ≤ s.gradientTolerance ∧ ¬0 ≤ s.valueTolerance) ∧
    ∃ s : StochasticSettings Float, StochasticDraft.validate
        { l1 := notANumber
          l2 := notANumber
          epsilon := notANumber
          parameters := [notANumber, notANumber] } = .ok s ∧
      ¬0 ≤ s.l1 ∧ ¬0 ≤ s.l2 ∧ ¬0 < s.epsilon ∧ ∀ p ∈ s.parameters, ¬0 ≤ p := by
  constructor
  · refine ⟨_, rfl, ?_⟩
    decide
  · refine ⟨_, rfl, ?_⟩
    decide

end Downhill
