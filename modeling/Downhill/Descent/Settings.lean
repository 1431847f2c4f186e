import Downhill.Direction
import Downhill.Iteration.Settings
import Downhill.LineSearch

/-!
# Settings of line search solvers
-/

namespace Downhill

/-- The directions a solver can be asked to follow.  No choice stands for the
default of the solver. -/
inductive Method
  | conjugate (formula : BetaFormula)
  | coordinate (order : CoordinateOrder)
  deriving DecidableEq, Repr

/-- A method as it is asked for: none, one of the library, or something else. -/
inductive MethodDraft
  | absent
  | known (method : Method)
  | unknown (value : Literal)

namespace MethodDraft

def validate : MethodDraft → Except Fault (Option Method)
  | absent => .ok none
  | known method => .ok (some method)
  | unknown value => .error (.invalid (.unsupportedMethod value.shown))

end MethodDraft

structure DescentDraft (α : Type) [Scalar α] extends LoopDraft α where
  c1 : α := 1e-4
  c2 : α := 0.1
  maxStep : α := 10.0
  firstTrial : Literal := FirstTrial.firstOrder.name
  method : MethodDraft := .known (.conjugate .polakRibierePlus)
  restart : Literal := RestartPolicy.orthogonality.name
  gradientTolerance : α := 1e-6
  checksGradient : Bool := true
  valueTolerance : α := 1e-10
  valuePatience : Int := 1
  checksValue : Bool := true
  search : Option (Search α) := none

structure DescentSettings (α : Type) extends LoopSettings α where
  /-- The constants of the search that is used when no other is given. -/
  wolfe : Wolfe α
  firstTrial : FirstTrial
  method : Option Method
  restart : RestartPolicy
  /-- A gradient no longer than this ends the loop. -/
  gradientTolerance : α
  checksGradient : Bool
  /-- A change of the value up to this is no change. -/
  valueTolerance : α
  valuePatience : Nat
  checksValue : Bool
  /-- A search to use in place of the default one.  It asks the objective behind
  the solver's back, and what it asks for is not counted. -/
  search : Option (Search α)

namespace DescentDraft

variable {α : Type} [Scalar α]

def validate (d : DescentDraft α) : Except Fault (DescentSettings α) := do
  let loop ← d.toLoopDraft.validate
  Wolfe.checkConstants d.c1 d.c2 d.maxStep
  Fault.refuse (d.gradientTolerance < 0) (.negative "gradient_tolerance")
  Fault.refuse (d.valueTolerance < 0) (.negative "objective_change_tolerance")
  Fault.refuse (d.valuePatience < 1) (.belowOne "maximum_iterations_with_no_objective_change")
  let method ← d.method.validate
  let firstTrial ← d.firstTrial.resolve .firstTrial FirstTrial.ofName
  let restart ← d.restart.resolve .restartMethod RestartPolicy.ofName
  return {
    toLoopSettings := loop
    wolfe := ⟨d.c1, d.c2, d.maxStep, Wolfe.defaultZoomLimit⟩
    firstTrial
    method
    restart
    gradientTolerance := d.gradientTolerance
    checksGradient := d.checksGradient
    valueTolerance := d.valueTolerance
    valuePatience := d.valuePatience.toNat
    checksValue := d.checksValue
    search := d.search }

end DescentDraft

end Downhill
