import Downhill.Proofs.Sampling.Estimates
import Downhill.Proofs.Stochastic.Run

/-!
# Seeded runs

The sampler of an empirical problem outlives the solvers that draw from it.  Whatever has been
done to it, it is still a sampler of as many indices for the same examples, and nothing else
of it is left when a solver with a seed takes it over: the solver says how batches are drawn,
puts in a source of its own, and begins a new pass.
-/

namespace Downhill

variable {R G α β γ : Type}

/-! ## Parts of a run -/

namespace StochasticM

/-- A part that keeps a property of the problem, whether or not it fails. -/
def Keeps (kept : Problem α G → Prop) (x : StochasticM R G α β) : Prop :=
  ∀ s, kept s.problem → kept (x.on s).2.problem

namespace Keeps

variable {kept : Problem α G → Prop} {x : StochasticM R G α β} {f : β → StochasticM R G α γ}

theorem pure (b : β) : Keeps kept (Pure.pure b : StochasticM R G α β) := fun _ hs => hs

theorem bind (hx : Keeps kept x) (hf : ∀ b, Keeps kept (f b)) : Keeps kept (x >>= f) := by
  intro s hs
  have ht := hx s hs
  rcases hrun : x.on s with ⟨result, t⟩
  rw [hrun] at ht
  cases result with
  | error fault =>
    rw [on_bind_of_error hrun]
    exact ht
  | ok b =>
    rw [on_bind hrun]
    exact hf b t ht

/-- What is done with the state is done in the state. -/
theorem get_bind {f : Stochastic R G α → StochasticM R G α γ}
    (h : ∀ s, kept s.problem → kept ((f s).on s).2.problem) : Keeps kept (get >>= f) := h

theorem answer (result : Except Fault β) : Keeps kept (answer result : StochasticM R G α β) :=
  fun _ hs => hs

theorem modify {change : Stochastic R G α → Stochastic R G α}
    (h : ∀ s, (change s).problem = s.problem) :
    Keeps kept (modify change : StochasticM R G α PUnit) := by
  intro s hs
  show kept (change s).problem
  rw [h]
  exact hs

end Keeps

end StochasticM

namespace Stochastic

open StochasticM

variable {kept : Problem α G → Prop}

theorem measurePoint_keeps [Scalar α] : Keeps kept (measurePoint : StochasticM R G α Unit) := by
  refine .get_bind fun s hs => ?_
  split
  · exact hs
  · next previous _ =>
    cases hsub : s.point.sub previous with
    | error fault =>
      rw [on_bind_of_error (on_answer s (.error fault))]
      exact hs
    | ok difference =>
      rw [on_bind (on_answer s (.ok difference))]
      exact hs

theorem check_keeps [Scalar α] : Keeps kept (check : StochasticM R G α Bool) := by
  refine .get_bind fun s hs => ?_
  split
  · exact hs
  split
  · exact hs
  dsimp only
  split
  · refine Keeps.bind measurePoint_keeps (fun _ => ?_) s hs
    exact .get_bind fun _ ht => ht
  · exact hs

theorem predicateHolds_keeps : Keeps kept (predicateHolds : StochasticM R G α Bool) := by
  refine .get_bind fun s hs => ?_
  split
  · exact hs
  · exact hs

theorem record_keeps : Keeps kept (record : StochasticM R G α Unit) := by
  intro s hs
  obtain ⟨events, hrecord⟩ := record_on s
  rw [hrecord]
  exact hs

theorem findDirection_keeps [StochasticRule R α] :
    Keeps kept (findDirection : StochasticM R G α (Vec α)) := by
  refine .get_bind fun s hs => ?_
  rcases StochasticRule.direction s.settings s.rule s.gradient with ⟨direction, rule⟩
  exact hs

section Loop

variable [Elementary α] [IndexSource G]
  (hkept : ∀ q batch x, kept q → kept (rawEstimate q batch x).2)
include hkept

theorem estimate_keeps (x : Vec α) : Keeps kept (estimate x : StochasticM R G α (Vec α)) := by
  intro s hs
  rw [estimate_on]
  exact hkept s.problem _ x hs

variable [StochasticRule R α]

theorem advance_keeps : Keeps kept (advance : StochasticM R G α Unit) := by
  have hpoint : ∀ (direction : Vec α) (step : α),
      Keeps kept (findPoint direction step : StochasticM R G α (Vec α)) := fun direction step =>
    .get_bind fun s hs => Keeps.bind (.answer _) (fun _ => .answer _) s hs
  have honce : Keeps kept (advanceOnce : StochasticM R G α Unit) :=
    .bind findDirection_keeps fun direction =>
    .bind (.modify fun _ => rfl) fun _ =>
    .bind (.get_bind fun _ hs => hs) fun step =>
    .bind (.modify fun _ => rfl) fun _ =>
    .bind (hpoint direction step) fun point =>
    .bind (.modify fun _ => rfl) fun _ =>
    .bind (estimate_keeps hkept point) fun _ => .modify fun _ => rfl
  exact .bind honce fun _ => .modify fun _ => rfl

theorem iterate_keeps (left : Nat) : Keeps kept (iterate left : StochasticM R G α Unit) := by
  induction left with
  | zero => exact .bind check_keeps fun _ => .pure _
  | succ left ih =>
    refine .bind check_keeps fun stops => ?_
    split
    · exact .pure _
    refine .bind predicateHolds_keeps fun holds => ?_
    split
    · exact .modify fun _ => rfl
    · exact .bind (advance_keeps hkept) fun _ => .bind record_keeps fun _ => ih

/-- All that a run does to its problem is to estimate gradients. -/
theorem solve_keeps : Keeps kept (solve : StochasticM R G α (Vec α)) := by
  refine .bind (.modify fun _ => rfl) fun _ => .get_bind fun s hs => ?_
  refine Keeps.bind (iterate_keeps hkept _) (fun _ => ?_) s hs
  exact .get_bind fun t ht => ht

end Loop

end Stochastic

/-! ## Problems in use -/

namespace Problem

/-- The examples of a problem, and from how many indices its sampler draws. -/
def Samples (e : Empirical α) (size : Nat) (q : Problem α G) : Prop :=
  ∃ sampler, q = .empirical e sampler ∧ sampler.size = size

/-- What a problem can become: its sampler is drawn from, reset or changed, with a new pass or
without one, its gradient is estimated, and solvers are made for it and run, step by step or
as a whole, to the end or to a failure.  Values and gradients leave a problem as it is, and so
do the solvers with a line search, which ask for nothing else. -/
inductive Used [Elementary α] [SeededSource G] (p : Problem α G) : Problem α G → Prop
  | unused : Used p p
  | drawn {e : Empirical α} {sampler next : Sampler G} {batch : Nat} {indices : List Nat}
      (h : Used p (.empirical e sampler)) (hdraw : sampler.draw batch = .ok (indices, next)) :
      Used p (.empirical e next)
  | reset {e : Empirical α} {sampler : Sampler G} (h : Used p (.empirical e sampler)) :
      Used p (.empirical e sampler.reset)
  | setReplacement {e : Empirical α} {sampler : Sampler G} (h : Used p (.empirical e sampler))
      (withReplacement : Bool) : Used p (.empirical e (sampler.setReplacement withReplacement))
  | setSource {e : Empirical α} {sampler : Sampler G} (h : Used p (.empirical e sampler))
      (source : G) : Used p (.empirical e (sampler.setSource source))
  | switched {e : Empirical α} {sampler : Sampler G} (h : Used p (.empirical e sampler))
      (withReplacement : Bool) : Used p (.empirical e { sampler with withReplacement })
  | exchanged {e : Empirical α} {sampler : Sampler G} (h : Used p (.empirical e sampler))
      (source : G) : Used p (.empirical e { sampler with source })
  | estimated {q : Problem α G} (h : Used p q) (batch : Nat) (x : Vec α) :
      Used p (Stochastic.rawEstimate q batch x).2
  -- A solver that cannot be made has changed the sampler, and may have estimated, as above.
  | created {q : Problem α G} {kind : SolverKind} {settings : StochasticSettings α}
      {start : Nested α} {keeps : Bool} {solver : Stochastic (StepRule α) G α} (h : Used p q)
      (hcreate : Stochastic.create kind settings q start keeps = .ok solver) :
      Used p solver.problem
  | advanced {s : Stochastic (StepRule α) G α} (h : Used p s.problem) :
      Used p (Stochastic.advance.on s).2.problem
  | solved {s : Stochastic (StepRule α) G α} (h : Used p s.problem) :
      Used p (Stochastic.solve.on s).2.problem

variable {e : Empirical α} {size : Nat} {p q : Problem α G}

theorem Samples.rawEstimate [Scalar α] [IndexSource G] (h : q.Samples e size) (batch : Nat)
    (x : Vec α) : (Stochastic.rawEstimate q batch x).2.Samples e size := by
  obtain ⟨sampler, rfl, hsize⟩ := h
  unfold Stochastic.rawEstimate Problem.estimate
  dsimp only
  split
  · exact ⟨sampler, rfl, hsize⟩
  · next hdraw => exact ⟨_, rfl, (Sampler.setting_of_draw hdraw).1.trans hsize⟩

theorem Samples.of_prepare [SeededSource G] {settings : StochasticSettings α}
    (h : p.Samples e size) (hprepared : Stochastic.prepare settings p = .ok q) :
    q.Samples e size := by
  obtain ⟨sampler, rfl, hsize⟩ := h
  unfold Stochastic.prepare at hprepared
  dsimp only at hprepared
  split at hprepared
  · cases hprepared
    exact ⟨_, rfl, hsize⟩
  · obtain ⟨source, -, hprepared⟩ := Fault.bind_eq_ok_iff.mp hprepared
    cases hprepared
    exact ⟨_, rfl, hsize⟩

/-- A problem that has been used still samples the same examples. -/
theorem Used.samples [Elementary α] [SeededSource G] (h : p.Used q) (hp : p.Samples e size) :
    q.Samples e size := by
  induction h with
  | unused => exact hp
  | drawn _ hdraw ih =>
    obtain ⟨_, heq, hsize⟩ := ih
    cases heq
    exact ⟨_, rfl, (Sampler.setting_of_draw hdraw).1.trans hsize⟩
  | reset _ ih | setReplacement _ _ ih | setSource _ _ ih | switched _ _ ih | exchanged _ _ ih =>
    obtain ⟨_, heq, hsize⟩ := ih
    cases heq
    exact ⟨_, rfl, hsize⟩
  | estimated _ batch x ih => exact ih.rawEstimate batch x
  | @created _ kind settings start keeps solver _ hcreate ih =>
    obtain ⟨point, -, -, hstarted⟩ := Stochastic.exists_start_of_create hcreate
    obtain ⟨prepared, raw, hprepared, hraw, -⟩ := Stochastic.exists_of_start hstarted
    have hnext := (ih.of_prepare hprepared).rawEstimate settings.batchSize point
    rw [hraw] at hnext
    exact hnext
  | advanced _ ih =>
    exact Stochastic.advance_keeps (fun _ batch x hq => hq.rawEstimate batch x) _ ih
  | solved _ ih => exact Stochastic.solve_keeps (fun _ batch x hq => hq.rawEstimate batch x) _ ih

end Problem

/-! ## Runs from a seed -/

/-- Without replacement a sampler at the start of a pass gives an estimate. -/
theorem Empirical.exists_estimate [IndexSource G] [LawfulIndexSource G] {e : Empirical ℝ}
    {p : Vec ℝ} {width batch : Nat} {s : Sampler G} (hrows : e.HasRows p width)
    (hsize : s.size = e.terms.length) (hsome : 0 < e.terms.length)
    (hreplacement : s.withReplacement = false) (hbatch : 0 < batch) :
    ∃ g, (Problem.estimate e s.reset p batch).1 = .ok g := by
  obtain ⟨-, found, -, hfound, -⟩ := exists_mean_estimates hrows hsize hreplacement hbatch
  obtain ⟨calls, hcalls⟩ := Nat.exists_eq_add_one_of_ne_zero hsome.ne'
  rw [hcalls] at hfound
  cases found with
  | nil => cases hfound
  | cons g found => exact ⟨g, (List.cons.inj hfound).1⟩

variable {e : Empirical α} {size : Nat} {p q : Problem α G}

theorem Problem.samples_of_ofEmpirical {withReplacement : Bool} {source : G}
    (h : Problem.ofEmpirical e withReplacement source = .ok p) : p.Samples e e.terms.length := by
  obtain ⟨sampler, hmake, h⟩ := Fault.bind_eq_ok_iff.mp h
  cases h
  unfold Sampler.make at hmake
  split at hmake
  · cases hmake
  · cases hmake
    exact ⟨_, rfl, rfl⟩

namespace Stochastic

variable [SeededSource G] {settings : StochasticSettings α}

/-- With a seed nothing but the number of indices is taken over from a sampler. -/
theorem prepare_eq_of_seed {seed : Int} (hseed : settings.seed = some seed)
    (h : q.Samples e size) :
    prepare settings q = (do
      let source ← SeededSource.ofSeed seed
      return .empirical e ⟨size, settings.withReplacement, source, []⟩) := by
  obtain ⟨sampler, rfl, rfl⟩ := h
  unfold prepare
  dsimp only
  rw [hseed]
  rfl

/-- A solver sees no more of a problem than what it is prepared to. -/
theorem create_congr [Scalar α] (kind : SolverKind) (start : Nested α) (keeps : Bool)
    (h : prepare settings p = prepare settings q) :
    create kind settings p start keeps = create kind settings q start keeps := by
  unfold create Stochastic.start
  rw [h]

end Stochastic

namespace Solver

/-- What a solver with a seed makes of an empirical problem, from its first estimate to its
result or its failure, is the same whatever has been done to the problem before. -/
theorem minimize_eq_of_seed [Elementary α] [SeededSource G] {p₁ p₂ q₁ q₂ : Problem α G}
    {withReplacement₁ withReplacement₂ : Bool} {source₁ source₂ : G}
    (hp₁ : Problem.ofEmpirical e withReplacement₁ source₁ = .ok p₁)
    (hp₂ : Problem.ofEmpirical e withReplacement₂ source₂ = .ok p₂)
    (hused₁ : p₁.Used q₁) (hused₂ : p₂.Used q₂) {settings : StochasticSettings α} {seed : Int}
    (hseed : settings.seed = some seed) (kind : SolverKind) (start : Nested α) (keeps : Bool) :
    (createKind kind (.stochastic settings) q₁ start keeps).map minimize =
      (createKind kind (.stochastic settings) q₂ start keeps).map minimize := by
  have h₁ := hused₁.samples (Problem.samples_of_ofEmpirical hp₁)
  have h₂ := hused₂.samples (Problem.samples_of_ofEmpirical hp₂)
  -- Nothing else of the problems is looked at, so all that is made of them is the same.
  have hprepare : Stochastic.prepare settings q₁ = Stochastic.prepare settings q₂ := by
    rw [Stochastic.prepare_eq_of_seed hseed h₁, Stochastic.prepare_eq_of_seed hseed h₂]
  unfold createKind
  dsimp only
  rw [Stochastic.create_congr kind start keeps hprepare]

/-! ### Three examples

One sampler is new and draws with replacement.  The other was told to draw without, has handed
out two of three indices, and got another source in the middle of the pass. -/

open Empirical (line)

def lineSampler : Sampler Generator := ⟨3, true, .congruential (.ofSeed 7), []⟩

noncomputable def lineSettings : StochasticSettings ℝ where
  maxIterations := 10
  pointTolerance := 0
  pointPatience := 1
  checksPoint := true
  box := ⟨none, none⟩
  predicate := none
  logEvery := 0
  batchSize := 2
  withReplacement := false
  schedule := .constant
  parameters := [1]
  l1 := 0
  l2 := 0
  method := .plain
  epsilon := 1
  seed := some 3

theorem exists_lineSolver : ∃ solver,
    createKind .stochastic (.stochastic lineSettings) (.empirical line lineSampler)
      (.ofVec [1]) true = .ok solver := by
  have hestimate : ∀ source : Generator, ∃ raw,
      (Stochastic.rawEstimate (.empirical line ⟨3, false, source, []⟩) 2 [1]).1 = .ok raw :=
    fun source => Empirical.exists_estimate (s := ⟨3, false, source, []⟩)
      (Empirical.hasRows_leastSquares (p := [1]) Empirical.leastSquares_line rfl) rfl
      three_pos rfl two_pos
  obtain ⟨raw, hraw⟩ := hestimate (.permuted (.ofSeed 3))
  have hpoint : (Nested.ofVec [(1 : ℝ)]).toPoint = .ok [1] :=
    Nested.toPoint_ofVec (List.cons_ne_nil _ _)
  have hpenalised : Stochastic.penalised lineSettings [1] raw = .ok raw :=
    if_neg (lt_irrefl (0 : ℝ))
  have hprepared : Stochastic.prepare lineSettings (.empirical line lineSampler) =
      .ok (.empirical line ⟨3, false, .permuted (.ofSeed 3), []⟩) := rfl
  obtain ⟨solver, hstarted⟩ :=
    Stochastic.exists_start .stochastic StepRule.plain true hprepared hraw hpenalised
  have hcreate := Stochastic.create_eq_start .stochastic lineSettings
    (.empirical line lineSampler) true hpoint rfl
  refine ⟨.stochastic solver, ?_⟩
  unfold createKind
  dsimp only
  rw [hcreate, if_neg (by decide), StepRule.start, hstarted]
  rfl

theorem minimize_eq_of_seed_line :
    ∃ (sampler : Sampler Generator) (solver : Solver ℝ Generator),
      (Problem.empirical line lineSampler).Used (.empirical line sampler) ∧
      sampler.withReplacement = false ∧ sampler.remaining.length = 1 ∧
      createKind .stochastic (.stochastic lineSettings) (.empirical line lineSampler)
        (.ofVec [1]) true = .ok solver ∧
      (createKind .stochastic (.stochastic lineSettings) (.empirical line sampler)
        (.ofVec [1]) true).map minimize = .ok solver.minimize := by
  have hp : Problem.ofEmpirical line true lineSampler.source = .ok (.empirical line lineSampler) :=
    rfl
  have hdraw : (lineSampler.setReplacement false).draw 2 =
      .ok ((lineSampler.setReplacement false).continuePass 2) := rfl
  have hused := (((Problem.Used.unused (p := .empirical line lineSampler)).setReplacement
    false).drawn hdraw).exchanged (.congruential (.ofSeed 8))
  obtain ⟨solver, hsolver⟩ := exists_lineSolver
  refine ⟨_, solver, hused, rfl, rfl, hsolver, ?_⟩
  rw [minimize_eq_of_seed hp hp hused .unused rfl .stochastic _ true, hsolver]
  rfl

end Solver

end Downhill
