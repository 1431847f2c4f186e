import Downhill.Problem
import Downhill.Report.Verdict
import Downhill.Sampling.Generator
import Downhill.Stochastic.Rule

/-!
# Stochastic solvers

The loop moves along estimates of the gradient with step sizes from a schedule.
An empirical problem is estimated from mini-batches; any other problem gives its
gradient as an estimate without noise.  The penalty on squares is part of every
estimate.
-/

namespace Downhill

/-- A source of indices that can be started from a seed. -/
class SeededSource (G : Type) extends IndexSource G where
  ofSeed : Int → Except Fault G

instance : SeededSource Generator where
  ofSeed := Generator.ofSeed

/-- A stochastic solver with a step rule of type `R`, on a problem sampled by
sources of type `G`. -/
structure Stochastic (R G α : Type) where
  kind : SolverKind
  settings : StochasticSettings α
  problem : Problem α G
  rule : R
  keepsHistory : Bool
  /-- The points so far, the latest first, if they are kept. -/
  history : List (Vec α)
  iteration : Nat
  point : Vec α
  previousPoint : Option (Vec α)
  /-- The last gradient estimate. -/
  gradient : Vec α
  direction : Option (Vec α)
  step : α
  /-- The last change of the point, once it has been measured. -/
  pointChange : Option α
  /-- How many iterations in a row the point has not changed. -/
  idlePoint : Nat
  pointConverged : Bool
  customConverged : Bool
  /-- How many values have been asked for. -/
  values : Nat
  /-- How many gradient estimates have been made. -/
  estimates : Nat
  /-- What was made known so far, the latest first. -/
  events : List (Event α)

abbrev StochasticM (R G α : Type) := ExceptT Fault (StateM (Stochastic R G α))

namespace StochasticM

variable {R G α β : Type}

def answer (result : Except Fault β) : StochasticM R G α β := ExceptT.mk (pure result)

def on (m : StochasticM R G α β) (s : Stochastic R G α) : Except Fault β × Stochastic R G α :=
  (ExceptT.run m).run s

end StochasticM

namespace Stochastic

variable {R G α : Type}

def verdict (s : Stochastic R G α) : Verdict α :=
  if s.customConverged then .custom
  else if s.pointConverged then
    .point s.pointChange s.settings.pointTolerance s.settings.pointPatience
  else .limit

def converged (s : Stochastic R G α) : Bool := s.pointConverged || s.customConverged

def points (s : Stochastic R G α) : List (Vec α) := s.history.reverse

def announce (event : Event α) (s : Stochastic R G α) : Stochastic R G α :=
  { s with events := event :: s.events }

open StochasticM (answer)

section Estimates

variable [Scalar α] [IndexSource G]

/-- An estimate of the gradient of a problem, and the problem with its sampler
moved on. -/
def rawEstimate (problem : Problem α G) (batch : Nat) (p : Vec α) :
    Except Fault (Vec α) × Problem α G :=
  match problem with
  | .empirical e sampler =>
    let (estimate, sampler) := Problem.estimate e sampler p batch
    (estimate, .empirical e sampler)
  | problem => (problem.objective.gradient p, problem)

/-- A gradient estimate with the derivative of the penalty on squares. -/
def penalised (s : StochasticSettings α) (p estimate : Vec α) : Except Fault (Vec α) :=
  if s.usesL2 then estimate.add (p.scale (2.0 * s.l2)) else .ok estimate

def estimate (p : Vec α) : StochasticM R G α (Vec α) := do
  let s ← get
  let (raw, problem) := rawEstimate s.problem s.settings.batchSize p
  set { s with problem, estimates := s.estimates + 1 }
  let gradient ← answer raw
  answer (penalised s.settings p gradient)

end Estimates

/-! ## One iteration -/

section Iteration

variable [Elementary α] [IndexSource G] [StochasticRule R α]

def findDirection : StochasticM R G α (Vec α) := do
  let s ← get
  let (direction, rule) := StochasticRule.direction s.settings s.rule s.gradient
  set { s with rule }
  answer direction

def findStep : StochasticM R G α α := do
  let s ← get
  answer (s.settings.schedule.compute (s.iteration : α) s.settings.parameters)

/-- The point reached by a step, brought into the box. -/
def findPoint (direction : Vec α) (step : α) : StochasticM R G α (Vec α) := do
  let s ← get
  let reached ← answer (StochasticRule.reach s.settings s.rule s.point step direction)
  answer (s.settings.box.clamp reached)

def advanceOnce : StochasticM R G α Unit := do
  let direction ← findDirection
  modify fun s => { s with direction := some direction }
  let step ← findStep
  modify fun s => { s with step, previousPoint := some s.point }
  let point ← findPoint direction step
  modify fun s => { s with point }
  let gradient ← estimate point
  modify fun s => { s with gradient }

end Iteration

/-! ## Stopping -/

section Stopping

variable [Scalar α]

def measurePoint : StochasticM R G α Unit := do
  let s ← get
  match s.previousPoint with
  | none => return
  | some previous =>
    let difference ← answer (s.point.sub previous)
    let change := Vec.norm difference
    let idlePoint := if change ≤ s.settings.pointTolerance then s.idlePoint + 1 else 0
    set { s with
      pointChange := some change
      idlePoint
      pointConverged := s.pointConverged || decide (s.settings.pointPatience ≤ idlePoint) }

/-- Whether the loop ends here.  A check counts each time it is made. -/
def check : StochasticM R G α Bool := do
  let s ← get
  if s.iteration = 0 then return s.settings.maxIterations = 0
  else if s.settings.maxIterations ≤ s.iteration then return true
  else
    if s.settings.checksPoint then measurePoint
    let s ← get
    return s.pointConverged

def predicateHolds : StochasticM R G α Bool := do
  let s ← get
  match s.settings.predicate with
  | none => return false
  | some predicate => answer (predicate s.point)

end Stopping

/-! ## The loop -/

section Loop

variable [Elementary α] [IndexSource G] [StochasticRule R α]

/-- One iteration, and the count of it. -/
def advance : StochasticM R G α Unit := do
  advanceOnce
  modify fun s => { s with iteration := s.iteration + 1 }

def record : StochasticM R G α Unit := do
  modify fun s => if s.keepsHistory then { s with history := s.point :: s.history } else s
  let s ← get
  if s.settings.reports s.iteration then
    modify (announce (.estimated s.iteration s.pointChange s.step))

/-- Iterate until a check or the rule of the caller's own says to stop.  At the
limit on iterations every check does. -/
def iterate : Nat → StochasticM R G α Unit
  | 0 => do
    let _ ← check
    return
  | left + 1 => do
    if ← check then return
    else if ← predicateHolds then
      modify fun s => { s with customConverged := true }
    else
      advance
      record
      iterate left

def solve : StochasticM R G α (Vec α) := do
  modify fun s => s.announce (.started s.kind)
  let s ← get
  iterate (s.settings.maxIterations - s.iteration)
  let s ← get
  modify (announce (.settled s.verdict s.iteration))
  return s.point

/-- The result of the run so far.  The value is that of the whole objective. -/
def summary : StochasticM R G α (Summary α) := do
  modify fun s => { s with values := s.values + 1 }
  let s ← get
  let value ← answer (s.problem.objective.value s.point)
  return {
    point := s.point
    value
    iterations := s.iteration
    success := s.converged
    verdict := s.verdict
    gradientNorm := Vec.norm s.gradient
    values := s.values
    gradients := s.estimates
    history := s.points }

end Loop

/-! ## Construction -/

section Construction

variable [Scalar α] [SeededSource G]

/-- A problem whose sampler draws as the settings say, from the start of a pass. -/
def prepare (settings : StochasticSettings α) (problem : Problem α G) :
    Except Fault (Problem α G) :=
  match problem with
  | .empirical e sampler =>
    let sampler := sampler.setReplacement settings.withReplacement
    match settings.seed with
    | none => .ok (.empirical e sampler)
    | some seed => do
      let source ← SeededSource.ofSeed seed
      return .empirical e (sampler.setSource source)
  | problem => .ok problem

/-- A solver at its starting point, where the gradient is estimated. -/
def start (kind : SolverKind) (settings : StochasticSettings α) (problem : Problem α G) (rule : R)
    (keepsHistory : Bool) (point : Vec α) : Except Fault (Stochastic R G α) := do
  let problem ← prepare settings problem
  let blank : Stochastic R G α := {
    kind, settings, problem, rule, keepsHistory
    history := if keepsHistory then [point] else []
    iteration := 0
    point
    previousPoint := none
    gradient := []
    direction := none
    step := 0
    pointChange := none
    idlePoint := 0
    pointConverged := false
    customConverged := false
    values := 0
    estimates := 0
    events := [] }
  let (gradient, s) := (estimate point : StochasticM R G α (Vec α)).on blank
  let gradient ← gradient
  return { s with gradient }

end Construction

end Stochastic

end Downhill
