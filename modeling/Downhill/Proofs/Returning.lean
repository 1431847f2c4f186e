import Downhill.Proofs.Descent.Returning
import Downhill.Proofs.Feasibility
import Downhill.Proofs.Stochastic.Returning

/-!
# What accepted settings leave to fail

Settings are checked when they are made.  On an objective that answers everywhere there are
three things that can still fail after that: a seed that the source of indices refuses, a
quadratic of which it cannot be told whether it is definite, and a step size that is out of
range.  Everything else returns.
-/

namespace Downhill

variable {α G : Type}

namespace Settings

section Conditions

variable [Scalar α]

/-- Settings made of a draft that was accepted, without a search of the caller's own. -/
def FromDraft : Settings α → Prop
  | descent s => ∃ draft : DescentDraft α, draft.validate = .ok s ∧ draft.search = none
  | stochastic s => ∃ draft : StochasticDraft α, draft.validate = .ok s
  | unsupported _ => False

omit [Scalar α] in
/-- The settings of the loop fit points of the size. -/
def Fits (settings : Settings α) (n : Nat) : Prop :=
  match settings with
  | descent s => s.toLoopSettings.Fits n
  | stochastic s => s.toLoopSettings.Fits n
  | unsupported _ => False

variable [SeededSource G]

/-- The objective of a problem answers at every point of the size, and so does its estimator,
however the settings have it sampled. -/
structure Answered (settings : Settings α) (problem : Problem α G) (n : Nat) : Prop where
  objective : problem.objective.Answers n
  estimates : ∀ s prepared, settings = .stochastic s → Stochastic.prepare s problem = .ok prepared →
    Stochastic.Estimable s.batchSize n prepared

/-- What can be found wrong when a solver is made with accepted settings. -/
inductive RefusedLate : Settings α → Problem α G → Fault → Prop
  | seed {s : StochasticSettings α} {e : Empirical α} {sampler : Sampler G} {seed : Int}
    {fault : Fault} (hseed : s.seed = some seed) (hnegative : seed < 0)
    (hfails : (SeededSource.ofSeed seed : Except Fault G) = .error fault) :
    RefusedLate (.stochastic s) (.empirical e sampler) fault
  | undecided {s : DescentSettings α} {q : Quadratic α} {fault : Fault}
    (hfails : q.isPositiveDefinite = .error fault) :
    RefusedLate (.descent s) (.quadratic q) fault

end Conditions

theorem exists_select_descent (s : DescentSettings α) : ∃ kind, (descent s).select = .ok kind := by
  unfold select
  dsimp only
  split <;> exact ⟨_, rfl⟩

theorem exists_select_stochastic (s : StochasticSettings α) :
    ∃ kind, (stochastic s).select = .ok kind := by
  unfold select
  dsimp only
  split <;> exact ⟨_, rfl⟩

end Settings

namespace Solver

variable [Elementary α] [SeededSource G] {problem : Problem α G} {start : Nested α} {point : Vec α}

theorem solve_descent {d final : Descent (Strategy α) (Search α) α} {result : Except Fault (Vec α)}
    (h : Descent.solve.on d = (result, final)) :
    (descent d : Solver α G).solve = (result, .descent final) := by
  show (Descent.solve.on d).map id Solver.descent = _
  rw [h]
  rfl

theorem solve_stochastic {d final : Stochastic (StepRule α) G α} {result : Except Fault (Vec α)}
    (h : Stochastic.solve.on d = (result, final)) :
    (stochastic d).solve = (result, .stochastic final) := by
  show (Stochastic.solve.on d).map id Solver.stochastic = _
  rw [h]
  rfl

theorem fails_of_descent (keeps : Bool) {s : DescentSettings α} (hsearch : s.search = none)
    (hpoint : start.toPoint = .ok point) (hfits : s.toLoopSettings.Fits point.length)
    (hf : problem.objective.Answers point.length) :
    (∀ fault, create (.descent s) problem start keeps = .error fault ↔
      Settings.RefusedLate (.descent s) problem fault) ∧
    ∀ solver, create (.descent s) problem start keeps = .ok solver →
      ∃ x final, solver.solve = (.ok x, final) := by
  obtain ⟨kind, hkind⟩ := Settings.exists_select_descent s
  have hcreate : create (.descent s) problem start keeps =
      (Descent.create kind s problem start keeps >>= fun d => .ok (.descent d)) := by
    unfold create
    rw [hkind]
    rfl
  have hlate : ∀ fault, Settings.RefusedLate (.descent s) problem fault ↔
      Descent.chooseSearch s problem = .error fault := by
    intro fault
    rw [Descent.chooseSearch_eq_error_iff hsearch]
    constructor
    · rintro ⟨⟩
      exact ⟨_, rfl, ‹_›⟩
    · rintro ⟨q, rfl, hfails⟩
      exact .undecided hfails
  cases hchosen : Descent.chooseSearch s problem with
  | error refusal =>
    rw [Descent.create_of_chooseSearch_error kind keeps hpoint hfits hchosen] at hcreate
    refine ⟨fun fault => ?_, fun solver h => nomatch hcreate.symm.trans h⟩
    rw [hlate, hcreate, hchosen]
    exact ⟨fun h => congrArg _ (Except.error.inj h), fun h => congrArg _ (Except.error.inj h)⟩
  | ok chosen =>
    obtain ⟨d, hd, hready⟩ := Descent.exists_create_of_chooseSearch keeps hkind hsearch hpoint hf
      hfits hchosen
    rw [hd] at hcreate
    refine ⟨fun fault => ?_, fun solver h => ?_⟩
    · rw [hlate, hcreate, hchosen]
      exact iff_of_false (fun h => nomatch h) fun h => nomatch h
    · cases hcreate.symm.trans h
      obtain ⟨x, final, hsolve⟩ := hready.exists_solve (Descent.length_pos_of_toPoint hpoint)
      exact ⟨x, .descent final, solve_descent hsolve⟩

theorem fails_of_stochastic (keeps : Bool) {s : StochasticSettings α}
    (hpoint : start.toPoint = .ok point) (hfits : s.toLoopSettings.Fits point.length)
    (hestimates : ∀ prepared, Stochastic.prepare s problem = .ok prepared →
      Stochastic.Estimable s.batchSize point.length prepared)
    (hseeds : ∀ seed, (∃ source : G, SeededSource.ofSeed seed = .ok source) ↔ 0 ≤ seed) :
    (∀ fault, create (.stochastic s) problem start keeps = .error fault ↔
      Settings.RefusedLate (.stochastic s) problem fault) ∧
    ∀ solver, create (.stochastic s) problem start keeps = .ok solver →
      (∃ x final, solver.solve = (.ok x, final)) ∨
        ∃ fault final, solver.solve = (.error fault, .stochastic final) ∧
          s.Unscheduled final.iteration fault := by
  obtain ⟨kind, hkind⟩ := Settings.exists_select_stochastic s
  have hcreate : create (.stochastic s) problem start keeps =
      (Stochastic.create kind s problem start keeps >>= fun d => .ok (.stochastic d)) := by
    unfold create
    rw [hkind]
    rfl
  have hlate : ∀ fault, Settings.RefusedLate (.stochastic s) problem fault ↔
      Stochastic.prepare s problem = .error fault := by
    intro fault
    rw [Stochastic.prepare_eq_error_iff]
    constructor
    · rintro ⟨⟩
      exact ⟨_, _, _, rfl, ‹_›, ‹_›⟩
    · rintro ⟨e, sampler, seed, rfl, hseed, hfails⟩
      refine .seed hseed (not_le.mp fun hnonneg => ?_) hfails
      obtain ⟨source, hsource⟩ := (hseeds seed).mpr hnonneg
      cases hsource.symm.trans hfails
  cases hprepare : Stochastic.prepare s problem with
  | error refusal =>
    rw [Stochastic.create_of_prepare_error kind keeps hpoint hfits hprepare] at hcreate
    refine ⟨fun fault => ?_, fun solver h => nomatch hcreate.symm.trans h⟩
    rw [hlate, hcreate, hprepare]
    exact ⟨fun h => congrArg _ (Except.error.inj h), fun h => congrArg _ (Except.error.inj h)⟩
  | ok prepared =>
    obtain ⟨d, hd, hready, hsettings, hfirst⟩ := Stochastic.exists_create_of_prepare kind keeps
      hpoint hfits hprepare (hestimates prepared hprepare)
    rw [hd] at hcreate
    refine ⟨fun fault => ?_, fun solver h => ?_⟩
    · rw [hlate, hcreate, hprepare]
      exact iff_of_false (fun h => nomatch h) fun h => nomatch h
    · cases hcreate.symm.trans h
      rcases hready.solve_cases hfirst with ⟨x, final, hsolve⟩ | ⟨fault, final, hsolve, hstep⟩
      · exact Or.inl ⟨x, .stochastic final, solve_stochastic hsolve⟩
      · rw [hsettings] at hstep
        exact Or.inr ⟨fault, final, solve_stochastic hsolve, hstep⟩

/-- With accepted settings that fit the first point, on a problem that answers, the only
failures are late ones: a solver cannot be made just when its seed is refused or it cannot be
told whether a quadratic is definite, and a solver that is made returns, unless it is a
stochastic one that comes to an iteration in which its schedule has no step.  What fails
there is arithmetic with single numbers. -/
theorem fails_only_late (keeps : Bool) {settings : Settings α} (haccepted : settings.FromDraft)
    (hpoint : start.toPoint = .ok point) (hfits : settings.Fits point.length)
    (hanswered : settings.Answered problem point.length)
    (hseeds : ∀ seed, (∃ source : G, SeededSource.ofSeed seed = .ok source) ↔ 0 ≤ seed) :
    (∀ fault, create settings problem start keeps = .error fault ↔
      settings.RefusedLate problem fault) ∧
    ∀ solver, create settings problem start keeps = .ok solver →
      (∃ x final, solver.solve = (.ok x, final)) ∨
        ∃ s fault final, settings = .stochastic s ∧
          solver.solve = (.error fault, .stochastic final) ∧
          s.Unscheduled final.iteration fault ∧ fault.Arithmetic := by
  cases settings with
  | descent s =>
    obtain ⟨draft, hvalid, hsearch⟩ := haccepted
    have hnone := (DescentDraft.parts_of_validate hvalid).2.trans hsearch
    obtain ⟨hcreate, hsolve⟩ := fails_of_descent keeps hnone hpoint hfits hanswered.objective
    exact ⟨hcreate, fun solver h => Or.inl (hsolve solver h)⟩
  | stochastic s =>
    obtain ⟨draft, hvalid⟩ := haccepted
    obtain ⟨hcreate, hsolve⟩ := fails_of_stochastic keeps hpoint hfits
      (hanswered.estimates s · rfl) hseeds
    refine ⟨hcreate, fun solver h => (hsolve solver h).imp_right ?_⟩
    rintro ⟨fault, final, hfails, hstep⟩
    exact ⟨s, fault, final, rfl, hfails, hstep,
      Schedule.arithmetic_of_compute (StochasticDraft.parts_of_validate hvalid).2 hstep.fails⟩
  | unsupported name => exact haccepted.elim

/-! ### A single example

One example of a least squares problem is drawn without any use of the source.  The seed is
asked for all the same, and a negative one has been accepted. -/

open Extended

noncomputable def single : Empirical Extended := ⟨1, [LeastSquares.term [1] 0]⟩

def singleSampler : Sampler Generator :=
  ⟨1, false, .congruential (Congruential.ofSeed 0), []⟩

noncomputable def singleDraft (seed : Int) : StochasticDraft Extended :=
  { withReplacement := false, schedule := Schedule.constant.name, parameters := [1],
    seed := some seed }

/-- The default settings, apart from the draws, the schedule and the seed. -/
noncomputable def singleSettings (seed : Int) : StochasticSettings Extended where
  maxIterations := 10000
  pointTolerance := 1e-10
  pointPatience := 1
  checksPoint := true
  box := ⟨none, none⟩
  predicate := none
  logEvery := 0
  batchSize := 100
  withReplacement := false
  schedule := .constant
  parameters := [1]
  l1 := 0
  l2 := 0
  method := .plain
  epsilon := 1e-8
  seed := some seed

theorem validate_single (seed : Int) : (singleDraft seed).validate = .ok (singleSettings seed) := by
  have hloop : (singleDraft seed).toLoopDraft.validate =
      .ok (singleSettings seed).toLoopSettings := by
    refine Fault.bind_eq_ok_iff.mpr ⟨(), rfl, ?_⟩
    refine Fault.bind_eq_ok_iff.mpr ⟨(), refuse_of_nonneg (by norm_num) _, ?_⟩
    rfl
  have hpositive : ∀ {x : ℝ} (cause : Invalid), 0 < x →
      Fault.refuse (real x ≤ 0) cause = .ok () := fun _ hx =>
    Fault.refuse_eq_ok_iff.mpr (mt real_le_real.mp (not_le.mpr hx))
  refine Fault.bind_eq_ok_iff.mpr ⟨_, hloop, ?_⟩
  refine Fault.bind_eq_ok_iff.mpr ⟨(), rfl, ?_⟩
  refine Fault.bind_eq_ok_iff.mpr ⟨(), refuse_of_nonneg le_rfl _, ?_⟩
  refine Fault.bind_eq_ok_iff.mpr ⟨(), refuse_of_nonneg le_rfl _, ?_⟩
  refine Fault.bind_eq_ok_iff.mpr ⟨(), hpositive _ (by norm_num), ?_⟩
  refine Fault.bind_eq_ok_iff.mpr ⟨.constant, Schedule.ofName_name .constant, ?_⟩
  refine Fault.bind_eq_ok_iff.mpr ⟨(), hpositive _ one_pos, ?_⟩
  rfl

theorem single_fits (seed : Int) : (singleSettings seed).toLoopSettings.Fits 1 :=
  ⟨⟨fun _ h => (nomatch h), fun _ h => (nomatch h)⟩, fun _ h => (nomatch h)⟩

theorem single_answers : single.toObjective.Answers 1 where
  value {x} hx := by
    obtain ⟨a, rfl⟩ := List.length_eq_one_iff.mp hx
    exact ⟨_, rfl⟩
  gradient {x} hx := by
    obtain ⟨a, rfl⟩ := List.length_eq_one_iff.mp hx
    exact ⟨_, rfl, rfl⟩

/-- A batch is the one example there is. -/
theorem single_estimable (source : Generator) :
    Stochastic.Estimable 100 1 (.empirical single ⟨1, false, source, []⟩) :=
  Stochastic.estimable_of_fixed fun x hx => by
    obtain ⟨a, rfl⟩ := List.length_eq_one_iff.mp hx
    exact ⟨_, rfl, rfl⟩

theorem single_answered (seed : Int) :
    (Settings.stochastic (singleSettings seed)).Answered (.empirical single singleSampler) 1 where
  objective := single_answers
  estimates s prepared hs hprepared := by
    cases hs
    obtain ⟨source, -, hprepared⟩ := Fault.bind_eq_ok_iff.mp hprepared
    cases hprepared
    exact single_estimable source

theorem exists_seeded_iff (seed : Int) :
    (∃ source : Generator, SeededSource.ofSeed seed = .ok source) ↔ 0 ≤ seed := by
  show (∃ source, Generator.ofSeed seed = .ok source) ↔ _
  unfold Generator.ofSeed
  split
  · rename_i hnegative
    exact iff_of_false (fun ⟨_, h⟩ => nomatch h) hnegative.not_ge
  · rename_i hnonneg
    exact iff_of_true ⟨_, rfl⟩ (not_lt.mp hnonneg)

theorem fails_only_late_single :
    (Settings.stochastic (singleSettings 3)).FromDraft ∧
    ∃ (solver final : Solver Extended Generator) (x : Vec Extended),
      create (.stochastic (singleSettings 3)) (.empirical single singleSampler)
          (Nested.ofVec [real 2]) true = .ok solver ∧
        solver.solve = (.ok x, final) := by
  have haccepted : (Settings.stochastic (singleSettings 3)).FromDraft := ⟨_, validate_single 3⟩
  obtain ⟨hcreate, hsolve⟩ := fails_only_late true haccepted
    (Nested.toPoint_ofVec (List.cons_ne_nil (real 2) [])) (single_fits 3) (single_answered 3)
    exists_seeded_iff
  refine ⟨haccepted, ?_⟩
  cases hmade : create (.stochastic (singleSettings 3)) (.empirical single singleSampler)
      (Nested.ofVec [real 2]) true with
  | error fault =>
    obtain ⟨hseed, hnegative, -⟩ := (hcreate fault).mp hmade
    cases hseed
    exact absurd hnegative (by decide)
  | ok solver =>
    rcases hsolve solver hmade with ⟨x, final, h⟩ | ⟨s, fault, final, hs, -, hstep, -⟩
    · exact ⟨solver, final, x, rfl, h⟩
    · cases hs
      cases hstep.fails

/-- The seed is the only thing wrong, and it is noticed when the solver is made. -/
theorem seed_refused_late :
    ∃ (draft : StochasticDraft Extended) (settings : StochasticSettings Extended)
      (e : Empirical Extended) (sampler : Sampler Generator) (x : Vec Extended),
      draft.validate = .ok settings ∧ (Nested.ofVec x).toPoint = .ok x ∧
      settings.toLoopSettings.Fits x.length ∧ e.toObjective.Answers x.length ∧
      Stochastic.Estimable settings.batchSize x.length (.empirical e sampler) ∧
      create (.stochastic settings) (.empirical e sampler) (Nested.ofVec x) true =
        .error .negativeSeed :=
  ⟨singleDraft (-1), singleSettings (-1), single, singleSampler, [real 2], validate_single _,
    Nested.toPoint_ofVec (List.cons_ne_nil _ _), single_fits _, single_answers,
    single_estimable _, rfl⟩

end Solver

end Downhill
