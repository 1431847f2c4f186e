import Downhill.Descent.Settings
import Downhill.Report.Verdict

/-!
# Line search solvers

One loop serves every direction rule and every line search.  An iteration finds
a direction, a step size and a new point in the box, and then asks for gradient
and value there.  The loop ends when the gradient is short, when a rule of the
caller's own holds, at the limit on iterations, or when point or value have not
changed for long enough.

The parts of an iteration are carried out one after the other, and what a part
has written stays when a later part fails.
-/

namespace Downhill

/-- What a solver knows about the current and the previous iteration. -/
structure Iterate (α : Type) where
  iteration : Nat
  point : Vec α
  gradient : Vec α
  value : α
  previousPoint : Option (Vec α)
  previousGradient : Option (Vec α)
  previousValue : Option α
  direction : Option (Vec α)
  previousDirection : Option (Vec α)
  step : α
  previousStep : α

/-- A line search solver with a direction rule of type `R` and a search of type
`S`. -/
structure Descent (R S α : Type) where
  kind : SolverKind
  settings : DescentSettings α
  objective : Objective α
  rule : R
  search : S
  /-- Whether what the search asks for is counted. -/
  countsSearch : Bool
  keepsHistory : Bool
  /-- The points so far, the latest first, if they are kept. -/
  history : List (Vec α)
  current : Iterate α
  gradientNorm : α
  /-- The last change of the point, once it has been measured. -/
  pointChange : Option α
  /-- The last change of the value, once it has been measured. -/
  valueChange : Option α
  /-- How many iterations in a row the point has not changed. -/
  idlePoint : Nat
  /-- How many iterations in a row the value has not changed. -/
  idleValue : Nat
  gradientConverged : Bool
  customConverged : Bool
  pointConverged : Bool
  valueConverged : Bool
  tally : Tally
  /-- What was made known so far, the latest first. -/
  events : List (Event α)

/-- A part of a solver run.  The solver outlives a failure. -/
abbrev DescentM (R S α : Type) := ExceptT Fault (StateM (Descent R S α))

namespace Descent

variable {R S α : Type}

def point (s : Descent R S α) : Vec α := s.current.point

/-- Whether a test other than the limit on iterations has ended the run. -/
def converged (s : Descent R S α) : Bool :=
  s.gradientConverged || s.pointConverged || s.valueConverged || s.customConverged

def sight (s : Descent R S α) : Sight α where
  point := s.current.point
  value := s.current.value
  gradient := s.current.gradient
  previousGradient := s.current.previousGradient
  previousDirection := s.current.previousDirection

def query (s : Descent R S α) (direction : Vec α) : Query α where
  point := s.current.point
  direction := direction
  previousPoint := s.current.previousPoint
  previousDirection := s.current.previousDirection
  previousStep := s.current.previousStep

/-- So many iterations without change of the point end the loop. -/
def pointPatience [DirectionRule R α] (s : Descent R S α) : Nat :=
  max s.settings.pointPatience (DirectionRule.patience s.rule)

def valuePatience [DirectionRule R α] (s : Descent R S α) : Nat :=
  max s.settings.valuePatience (DirectionRule.patience s.rule)

def verdict [DirectionRule R α] (s : Descent R S α) : Verdict α :=
  if s.gradientConverged then .gradient
  else if s.customConverged then .custom
  else if s.pointConverged then .point s.pointChange s.settings.pointTolerance s.pointPatience
  else if s.valueConverged then .value s.valueChange s.settings.valueTolerance s.valuePatience
  else .limit

def points (s : Descent R S α) : List (Vec α) := s.history.reverse

def summary [Scalar α] [DirectionRule R α] (s : Descent R S α) : Summary α where
  point := s.current.point
  value := s.current.value
  iterations := s.current.iteration
  success := s.converged
  verdict := s.verdict
  gradientNorm := Vec.norm s.current.gradient
  values := s.tally.values
  gradients := s.tally.gradients
  history := s.points

def count (journal : Journal α) (s : Descent R S α) : Descent R S α :=
  { s with tally := s.tally.add (Tally.ofJournal journal) }

def update (change : Iterate α → Iterate α) (s : Descent R S α) : Descent R S α :=
  { s with current := change s.current }

def announce (event : Event α) (s : Descent R S α) : Descent R S α :=
  { s with events := event :: s.events }

end Descent

namespace DescentM

variable {R S α β : Type}

def answer (result : Except Fault β) : DescentM R S α β := ExceptT.mk (pure result)

/-- Put requests to the objective, and count them even if one fails. -/
def ask (m : EvalM α β) : DescentM R S α β := do
  let (result, journal) := m.journaled
  modify (Descent.count journal)
  answer result

def askUncounted (m : EvalM α β) : DescentM R S α β := answer m.journaled.1

def revise (change : Iterate α → Iterate α) : DescentM R S α Unit :=
  modify (Descent.update change)

/-- Carry out a part of the run on a solver. -/
def on (m : DescentM R S α β) (s : Descent R S α) : Except Fault β × Descent R S α :=
  (ExceptT.run m).run s

end DescentM

namespace Descent

variable {R S α : Type} [Scalar α] [DirectionRule R α] [LineSearch S α]

open DescentM (answer ask askUncounted revise)

/-! ## One iteration -/

def findDirection : DescentM R S α (Vec α) := do
  let s ← get
  let (proposal, rule) := DirectionRule.propose s.rule s.sight
  set { s with rule }
  let direction ← answer proposal
  ask (DirectionRule.orient rule s.objective s.sight direction)

def findStep (direction : Vec α) : DescentM R S α α := do
  let s ← get
  let search := LineSearch.stepSize s.search s.objective (s.query direction)
  let outcome ← if s.countsSearch then ask search else askUncounted search
  modify (Descent.announce (.searched outcome))
  return outcome.step

/-- The point reached by a step, brought into the box. -/
def findPoint (direction : Vec α) (step : α) : DescentM R S α (Vec α) := do
  let s ← get
  let reached ← answer (s.current.point.along step direction)
  answer (s.settings.box.clamp reached)

def step : DescentM R S α Unit := do
  revise fun i => { i with previousDirection := i.direction }
  let direction ← findDirection
  revise fun i => { i with direction := some direction, previousStep := i.step }
  let step ← findStep direction
  revise fun i => { i with step, previousPoint := some i.point }
  let point ← findPoint direction step
  revise fun i => { i with point }
  modify fun s => { s with rule := DirectionRule.moved s.rule point }
  revise fun i => { i with previousGradient := some i.gradient }
  let s ← get
  let gradient ← ask (s.objective.askGradient point)
  revise fun i => { i with gradient, previousValue := some i.value }
  let value ← ask (s.objective.askValue point)
  revise fun i => { i with value }

/-! ## Stopping -/

/-- How long a quantity has been idle after a change. -/
def idleAfter (idle : Nat) (change tolerance : α) : Nat :=
  if change ≤ tolerance then idle + 1 else 0

/-- The least tolerance for the length of a gradient.  Rounding keeps most
gradients from getting much shorter. -/
def gradientFloor : α := 1e-10

/-- Whether the gradient is short enough.  No tolerance below the floor is asked
for. -/
def gradientIsShort (norm tolerance : α) : Bool :=
  decide (norm ≤ Scalar.larger tolerance gradientFloor)

def measurePoint : DescentM R S α Unit := do
  let s ← get
  match s.current.previousPoint with
  | none => return
  | some previous =>
    let difference ← answer (s.current.point.sub previous)
    let change := Vec.norm difference
    let idlePoint := idleAfter s.idlePoint change s.settings.pointTolerance
    set { s with
      pointChange := some change
      idlePoint
      pointConverged := s.pointConverged || decide (s.pointPatience ≤ idlePoint) }

def measureValue : DescentM R S α Unit := do
  let s ← get
  match s.current.previousValue with
  | none => return
  | some previous =>
    let change := Scalar.abs (s.current.value - previous)
    let idleValue := idleAfter s.idleValue change s.settings.valueTolerance
    set { s with
      valueChange := some change
      idleValue
      valueConverged := s.valueConverged || decide (s.valuePatience ≤ idleValue) }

def predicateHolds : DescentM R S α Bool := do
  let s ← get
  match s.settings.predicate with
  | none => return false
  | some predicate => answer (predicate s.current.point)

/-- Whether the loop ends here.  Each test that is made leaves a trace in the
solver: a check is part of the run, and checking twice counts twice. -/
def check : DescentM R S α Bool := do
  modify fun s => { s with gradientNorm := Vec.norm s.current.gradient }
  let s ← get
  if s.settings.checksGradient && gradientIsShort s.gradientNorm s.settings.gradientTolerance then
    set { s with gradientConverged := true }
    return true
  else if ← predicateHolds then
    set { s with customConverged := true }
    return true
  else if s.settings.maxIterations ≤ s.current.iteration then
    return true
  else if s.current.iteration = 0 then
    return false
  else
    if s.settings.checksPoint then measurePoint
    if s.settings.checksValue then measureValue
    let s ← get
    return s.pointConverged || s.valueConverged

/-! ## The loop -/

/-- One iteration, and the count of it. -/
def advance : DescentM R S α Unit := do
  step
  revise fun i => { i with iteration := i.iteration + 1 }

/-- Note the point in the history, and report progress when it is due. -/
def record : DescentM R S α Unit := do
  modify fun s => if s.keepsHistory then { s with history := s.current.point :: s.history } else s
  let s ← get
  if s.settings.reports s.current.iteration then
    modify (announce
      (.progressed s.current.iteration s.current.value s.gradientNorm s.current.step))

/-- Iterate until a check says to stop.  At the limit on iterations every check
does, so no more iterations are needed than are left up to it. -/
def iterate : Nat → DescentM R S α Unit
  | 0 => do
    let _ ← check
    return
  | left + 1 => do
    if ← check then return
    else
      advance
      record
      iterate left

def solve : DescentM R S α (Vec α) := do
  modify fun s => s.announce (.started s.kind)
  let s ← get
  iterate (s.settings.maxIterations - s.current.iteration)
  let s ← get
  modify (announce (.finished s.verdict s.current.iteration s.current.value))
  return s.current.point

/-! ## Construction -/

/-- A solver at its starting point, where gradient and value are asked for. -/
def start (kind : SolverKind) (settings : DescentSettings α) (objective : Objective α) (rule : R)
    (search : S) (countsSearch keepsHistory : Bool) (point : Vec α) :
    Except Fault (Descent R S α) := do
  let (results, journal) := EvalM.journaled do
    let gradient ← objective.askGradient point
    let value ← objective.askValue point
    return (gradient, value)
  let (gradient, value) ← results
  return {
    kind, settings, objective, rule, search, countsSearch, keepsHistory
    history := if keepsHistory then [point] else []
    current := {
      iteration := 0
      point, gradient, value
      previousPoint := none
      previousGradient := none
      previousValue := none
      direction := none
      previousDirection := none
      step := 0
      previousStep := 0 }
    gradientNorm := Vec.norm gradient
    pointChange := none
    valueChange := none
    idlePoint := 0
    idleValue := 0
    gradientConverged := false
    customConverged := false
    pointConverged := false
    valueConverged := false
    tally := Tally.ofJournal journal
    events := [] }

end Descent

end Downhill
