import Downhill.Iteration.Settings
import Downhill.Literal
import Downhill.Schedule

/-!
# Settings of stochastic solvers
-/

namespace Downhill

/-- The rules by which a gradient estimate becomes a direction. -/
inductive StochasticMethod
  | plain
  | adaptive
  deriving DecidableEq, Repr

namespace StochasticMethod

def all : List (String × StochasticMethod) :=
  [("gradient_descent", plain), ("adagrad", adaptive)]

def ofName (name : String) : Except Fault StochasticMethod :=
  Fault.named .stochasticMethod all name

def name : StochasticMethod → String
  | plain => "gradient_descent"
  | adaptive => "adagrad"

@[simp] theorem ofName_name (method : StochasticMethod) : ofName method.name = .ok method := by
  cases method <;> rfl

end StochasticMethod

structure StochasticDraft (α : Type) [Scalar α] extends LoopDraft α where
  batchSize : Int := 100
  withReplacement : Bool := true
  schedule : Literal := Schedule.scaled.name
  parameters : List α := [10.0, 0.75]
  l1 : α := 0
  l2 : α := 0
  method : Literal := StochasticMethod.plain.name
  epsilon : α := 1e-8
  seed : Option Int := none

structure StochasticSettings (α : Type) extends LoopSettings α where
  /-- How many examples a gradient estimate takes. -/
  batchSize : Nat
  withReplacement : Bool
  schedule : Schedule
  parameters : List α
  /-- The weight of the absolute values of the coordinates in the objective. -/
  l1 : α
  /-- The weight of the squares of the coordinates in the objective. -/
  l2 : α
  method : StochasticMethod
  /-- What the adaptive rule adds to its divisors. -/
  epsilon : α
  /-- The seed of the sampler, if it is to be seeded. -/
  seed : Option Int

namespace StochasticDraft

variable {α : Type} [Scalar α]

def validate (d : StochasticDraft α) : Except Fault (StochasticSettings α) := do
  let loop ← d.toLoopDraft.validate
  Fault.refuse (d.batchSize < 1) (.belowOne "batch_size")
  Fault.refuse (d.l1 < 0) (.negative "l1_regularization_weight")
  Fault.refuse (d.l2 < 0) (.negative "l2_regularization_weight")
  Fault.refuse (d.epsilon ≤ 0) (.notPositive "adagrad_epsilon")
  let schedule ← d.schedule.resolve .schedule Schedule.ofName
  schedule.validate d.parameters
  let method ← d.method.resolve .stochasticMethod StochasticMethod.ofName
  return {
    toLoopSettings := loop
    batchSize := d.batchSize.toNat
    withReplacement := d.withReplacement
    schedule
    parameters := d.parameters
    l1 := d.l1
    l2 := d.l2
    method
    epsilon := d.epsilon
    seed := d.seed }

end StochasticDraft

namespace StochasticSettings

variable {α : Type} [Scalar α]

/-- Whether the absolute values of the coordinates are penalised. -/
def usesL1 (s : StochasticSettings α) : Prop := 0 < s.l1

def usesL2 (s : StochasticSettings α) : Prop := 0 < s.l2

instance (s : StochasticSettings α) : Decidable s.usesL1 := inferInstanceAs (Decidable (_ < _))

instance (s : StochasticSettings α) : Decidable s.usesL2 := inferInstanceAs (Decidable (_ < _))

end StochasticSettings

end Downhill
