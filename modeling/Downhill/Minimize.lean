import Downhill.Descent.Solver
import Downhill.Stochastic.Solver

/-!
# Minimisation

The front door: settings choose a solver, and the solver runs.  A solver can also
be asked for by kind, whatever method the settings name.
-/

namespace Downhill

/-- Settings as they reach the front door.  Only those of a line search solver or
of a stochastic solver select one. -/
inductive Settings (α : Type)
  | descent (s : DescentSettings α)
  | stochastic (s : StochasticSettings α)
  | unsupported (kind : String)

inductive Solver (α G : Type)
  | descent (s : Descent (Strategy α) (Search α) α)
  | stochastic (s : Stochastic (StepRule α) G α)

namespace Settings

variable {α : Type} [Scalar α]

def defaultDescent : Except Fault (Settings α) := do
  let settings ← ({} : DescentDraft α).validate
  return .descent settings

def defaultStochastic : Except Fault (Settings α) := do
  let settings ← ({} : StochasticDraft α).validate
  return .stochastic settings

def defaultFor : SolverKind → Except Fault (Settings α)
  | .conjugate | .steepest | .coordinate => defaultDescent
  | .stochastic | .adaptive => defaultStochastic

def select : Settings α → Except Fault SolverKind
  | descent s => match s.method with
    | none => .ok .steepest
    | some (.conjugate _) => .ok .conjugate
    | some (.coordinate _) => .ok .coordinate
  | stochastic s => match s.method with
    | .plain => .ok .stochastic
    | .adaptive => .ok .adaptive
  | unsupported kind => .error (.invalid (.unsupportedConfiguration kind))

end Settings

namespace Descent

variable {α G : Type} [Scalar α]

/-- The search of a solver, and whether what it asks for is counted: the given
one is not; otherwise the exact one on a positive definite quadratic and the
strong Wolfe search on all other problems. -/
def chooseSearch (settings : DescentSettings α) (problem : Problem α G) :
    Except Fault (Search α × Bool) :=
  match settings.search with
  | some search => .ok (search, false)
  | none =>
    let wolfe := Search.wolfe settings.wolfe settings.firstTrial
    match problem with
    | .quadratic q => do
      if ← q.isPositiveDefinite then return (.exact q.matrix, true) else return (wolfe, true)
    | _ => .ok (wolfe, true)

/-- The direction rule of a kind of solver.  A conjugate gradient solver refuses
a coordinate order; a coordinate solver takes its default order in place of a
formula. -/
def chooseRule (kind : SolverKind) (settings : DescentSettings α) (point : Vec α) :
    Except Fault (Strategy α) :=
  match kind, settings.method with
  | .conjugate, none => .ok (conjugate .polakRibierePlus)
  | .conjugate, some (.conjugate formula) => .ok (conjugate formula)
  | .conjugate, some (.coordinate order) => .error (.invalid (.notConjugateMethod order.shown))
  | .coordinate, some (.coordinate order) => .ok (coordinate order)
  | .coordinate, _ => .ok (coordinate .cycleAndJoin)
  | _, _ => .ok .steepest
where
  conjugate (formula : BetaFormula) : Strategy α :=
    .conjugate (Conjugate.start formula settings.restart point.length)
  coordinate (order : CoordinateOrder) : Strategy α :=
    .coordinate (Coordinate.start order point.length point)

/-- A line search solver of the given kind.  Sizes are checked before anything is
asked of the objective, and the method after that. -/
def create (kind : SolverKind) (settings : DescentSettings α) (problem : Problem α G)
    (start : Nested α) (keepsHistory : Bool) :
    Except Fault (Descent (Strategy α) (Search α) α) := do
  let point ← start.toPoint
  settings.box.checkDimension point.length
  let (search, countsSearch) ← chooseSearch settings problem
  let solver ← Descent.start kind settings problem.objective (Strategy.steepest : Strategy α)
    search countsSearch keepsHistory point
  let rule ← chooseRule kind settings point
  return { solver with rule }

end Descent

namespace Stochastic

variable {α G : Type} [Scalar α] [SeededSource G]

def create (kind : SolverKind) (settings : StochasticSettings α) (problem : Problem α G)
    (start : Nested α) (keepsHistory : Bool) : Except Fault (Stochastic (StepRule α) G α) := do
  let point ← start.toPoint
  settings.box.checkDimension point.length
  let method := if kind = .adaptive then StochasticMethod.adaptive else .plain
  Stochastic.start kind settings problem (StepRule.start method point.length) keepsHistory point

end Stochastic

namespace Solver

variable {α G : Type}

section Create

variable [Scalar α] [SeededSource G]

def createKind (kind : SolverKind) (settings : Settings α) (problem : Problem α G)
    (start : Nested α) (keepsHistory : Bool) : Except Fault (Solver α G) := do
  match settings with
  | .descent s => return .descent (← Descent.create kind s problem start keepsHistory)
  | .stochastic s => return .stochastic (← Stochastic.create kind s problem start keepsHistory)
  | .unsupported name => .error (.invalid (.unsupportedConfiguration name))

def create (settings : Settings α) (problem : Problem α G) (start : Nested α)
    (keepsHistory : Bool) : Except Fault (Solver α G) := do
  let kind ← settings.select
  createKind kind settings problem start keepsHistory

end Create

def kind : Solver α G → SolverKind
  | descent s => s.kind
  | stochastic s => s.kind

def events : Solver α G → List (Event α)
  | descent s => s.events.reverse
  | stochastic s => s.events.reverse

variable [Elementary α] [IndexSource G]

/-- Carry out a part of a run, whichever family the solver belongs to. -/
def perform {β : Type} (onDescent : DescentM (Strategy α) (Search α) α β)
    (onStochastic : StochasticM (StepRule α) G α β) : Solver α G → Except Fault β × Solver α G
  | descent s => (onDescent.on s).map id descent
  | stochastic s => (onStochastic.on s).map id stochastic

def check : Solver α G → Except Fault Bool × Solver α G :=
  perform Descent.check Stochastic.check

def advance : Solver α G → Except Fault Unit × Solver α G :=
  perform Descent.advance Stochastic.advance

def solve : Solver α G → Except Fault (Vec α) × Solver α G :=
  perform Descent.solve Stochastic.solve

def summary : Solver α G → Except Fault (Summary α) × Solver α G
  | descent s => (.ok s.summary, descent s)
  | stochastic s =>
    let summarise : StochasticM (StepRule α) G α (Summary α) := Stochastic.summary
    (summarise.on s).map id stochastic

def verdict : Solver α G → Verdict α
  | descent s => s.verdict
  | stochastic s => s.verdict

/-- Up to the given number of iterations, as long as no check says to stop, and
the solver after each of them. -/
def run : Nat → Solver α G → Except Fault (List (Solver α G)) × Solver α G
  | 0, s => (.ok [], s)
  | n + 1, s =>
    match s.check with
    | (.error fault, s) => (.error fault, s)
    | (.ok true, s) => (.ok [], s)
    | (.ok false, s) =>
      match s.advance with
      | (.error fault, s) => (.error fault, s)
      | (.ok (), s) =>
        let (rest, last) := run n s
        (rest.map (s :: ·), last)

def minimize (s : Solver α G) : Except Fault (Summary α) × Solver α G :=
  match s.solve with
  | (.error fault, s) => (.error fault, s)
  | (.ok _, s) => s.summary

end Solver

end Downhill
