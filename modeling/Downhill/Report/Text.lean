import Downhill.Report.Verdict
import Downhill.Text.Decimal

/-!
# Wording of reports

Verdicts and events in words.  Changes and tolerances have four significant
digits, values and norms seven.
-/

namespace Downhill

namespace SolverKind

def title : SolverKind → String
  | conjugate => "NonlinearConjugateGradientSolver"
  | steepest => "GradientDescentSolver"
  | coordinate => "CoordinateDescentSolver"
  | stochastic => "StochasticGradientDescentSolver"
  | adaptive => "AdaGradSolver"

def isStochastic : SolverKind → Bool
  | stochastic | adaptive => true
  | _ => false

end SolverKind

namespace Report

/-- A change with four significant digits; infinite if it was never measured. -/
def changeText : Option Float → String
  | none => "inf"
  | some change => Text.exponential 3 change

def preciseChangeText : Option Float → String
  | none => "inf"
  | some change => Text.exponential 6 change

def stallText (subject : String) (change : Option Float) (tolerance : Float) (patience : Nat) :
    String :=
  subject ++ " change " ++ changeText change ++ " stayed below " ++ Text.exponential 3 tolerance ++
    " for " ++ toString patience ++ " iteration(s)."

end Report

namespace Verdict

def text : Verdict Float → String
  | gradient => "Gradient tolerance satisfied."
  | custom => "Custom convergence criterion satisfied."
  | point change tolerance patience => Report.stallText "Point" change tolerance patience
  | value change tolerance patience => Report.stallText "Objective" change tolerance patience
  | limit => "Maximum iterations reached."

end Verdict

namespace Exit

/-- What a search has to say about its end, if it is out of the ordinary. -/
def note? (step : Float) : Exit Float → Option String
  | uphill slope =>
    some ("Direction is not a descent direction (slope " ++ Text.general slope ++
      "); returning a zero step.")
  | stalled iteration =>
    some ("Zoom stalled after " ++ toString iteration ++ " iterations at step " ++
      Text.general step ++ ".")
  | exhausted iterations =>
    some ("Zoom reached " ++ toString iterations ++ " iterations; returning step " ++
      Text.general step ++ ".")
  | _ => none

end Exit

structure LogRecord where
  logger : String
  level : Int
  text : String
  deriving DecidableEq, Repr

namespace LogRecord

def info (logger text : String) : LogRecord := ⟨logger, 20, text⟩

def debug (logger text : String) : LogRecord := ⟨logger, 10, text⟩

end LogRecord

namespace Report

def descentLogger : String := "descentkit.solver"

def stochasticLogger : String := "descentkit.stochastic"

def searchLogger : String := "descentkit.line_search"

end Report

namespace Event

open Report

def startText (kind : SolverKind) : String :=
  (if kind.isStochastic then "Stochastic optimization" else "Optimization") ++
    " is starting (" ++ kind.title ++ ")."

/-- What an event says in the log.  An ordinary end of a line search says
nothing. -/
def record? : Event Float → Option LogRecord
  | started kind =>
    some (.info (if kind.isStochastic then stochasticLogger else descentLogger) (startText kind))
  | progressed iteration value gradientNorm step =>
    some (.info descentLogger ("Iteration #: " ++ Text.aligned 10 iteration ++
      " | Objective value: " ++ Text.exponential 6 value ++
      " | Gradient norm: " ++ Text.exponential 6 gradientNorm ++
      " | Step size: " ++ Text.exponential 3 step))
  | finished verdict iterations value =>
    some (.info descentLogger (verdict.text ++ " Iterations: " ++ toString iterations ++
      ", objective value: " ++ Text.exponential 6 value ++ "."))
  | estimated iteration pointChange step =>
    some (.info stochasticLogger ("Iteration #: " ++ Text.aligned 10 iteration ++
      " | Point change: " ++ preciseChangeText pointChange ++
      " | Step size: " ++ Text.exponential 3 step))
  | settled verdict iterations =>
    some (.info stochasticLogger (verdict.text ++ " Iterations: " ++ toString iterations ++ "."))
  | searched outcome => (outcome.exit.note? outcome.step).map (.debug searchLogger)

end Event

end Downhill
