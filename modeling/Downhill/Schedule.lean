import Downhill.Vec

/-!
# Step schedules

The step size of a stochastic method as a function of the iteration index.  A
schedule is a formula with parameters; `validate` says which parameters are in
range, and `compute` evaluates the formula for any parameters.
-/

namespace Downhill

/-- The formulas a step size can follow in the iteration index `k`. -/
inductive Schedule
  /-- `a` -/
  | constant
  /-- `(tau + k) ^ -kappa` -/
  | scaled
  /-- `a / (1 + b k) ^ p` -/
  | inverseDecay
  /-- `a gamma ^ k` -/
  | exponential
  deriving DecidableEq, Repr

/-- A power of a scalar.  The power of a negative base is turned out of the real
line unless the exponent is integral; its modulus is kept. -/
inductive Power (α : Type)
  | real (value : α)
  | turned (modulus : α)

namespace Power

variable {α : Type} [Elementary α]

/-- Raise a scalar to a power.  Zero has no finite negative power, and a power
of finite numbers has to be finite. -/
def raise (base exponent : α) : Except Fault (Power α) :=
  let finite := Scalar.isFinite base && Scalar.isFinite exponent
  if (base == 0) && decide (exponent < 0) && finite then .error .zeroDivision
  else if decide (base < 0) && finite && !(exponent == Elementary.floor exponent) then
    let modulus := Elementary.pow (Scalar.abs base) exponent
    if Scalar.isFinite modulus then .ok (turned modulus) else .error .overflow
  else
    let value := Elementary.pow base exponent
    if finite && !Scalar.isFinite value then .error .overflow else .ok (real value)

def toReal : Power α → Except Fault α
  | real value => .ok value
  | turned _ => .error .notReal

def isZero : Power α → Bool
  | real value => value == 0
  | turned modulus => modulus == 0

end Power

namespace Schedule

def all : List (String × Schedule) :=
  [("constant", constant), ("scaled", scaled), ("inverse_decay", inverseDecay),
    ("exponential", exponential)]

def ofName (name : String) : Except Fault Schedule :=
  Fault.named .schedule all name

def name : Schedule → String
  | constant => "constant"
  | scaled => "scaled"
  | inverseDecay => "inverse_decay"
  | exponential => "exponential"

@[simp] theorem ofName_name (s : Schedule) : ofName s.name = .ok s := by
  cases s <;> rfl

def title : Schedule → String
  | constant => "CONSTANT"
  | scaled => "SCALED"
  | inverseDecay => "INVERSE_DECAY"
  | exponential => "EXPONENTIAL"

def parameterCount : Schedule → Nat
  | constant => 1
  | scaled => 2
  | inverseDecay => 3
  | exponential => 2

variable {α : Type}

def validate [Scalar α] (s : Schedule) (parameters : List α) : Except Fault Unit := do
  Fault.refuse (parameters.length ≠ s.parameterCount)
    (.parameterCount s.title s.parameterCount parameters.length)
  match s, parameters with
  | constant, [a] => Fault.refuse (a ≤ 0) .constantStep
  | scaled, [tau, kappa] =>
    Fault.refuse (tau ≤ 0) .scaledOffset
    Fault.refuse (kappa < 0) .scaledExponent
  | inverseDecay, [a, b, p] => Fault.refuse (a ≤ 0 ∨ b < 0 ∨ p < 0) .inverseDecayRange
  | exponential, [a, gamma] =>
    Fault.refuse (a ≤ 0 ∨ ¬(0 < gamma ∧ gamma ≤ 1)) .exponentialRange
  | _, _ => .ok ()

def compute [Elementary α] (s : Schedule) (k : α) (parameters : List α) : Except Fault α :=
  match s, parameters with
  | constant, a :: _ => .ok a
  | constant, _ => .error .indexOutOfRange
  | scaled, tau :: kappa :: _ => do
    let power ← Power.raise (tau + k) (-kappa)
    power.toReal
  | scaled, _ => .error .indexOutOfRange
  | inverseDecay, [a, b, p] => do
    let power ← Power.raise (1 + b * k) p
    if power.isZero then .error .zeroDivision
    else
      let divisor ← power.toReal
      return a / divisor
  | inverseDecay, _ => .error .parameterCount
  | exponential, [a, gamma] => do
    let power ← Power.raise gamma k
    let factor ← power.toReal
    return a * factor
  | exponential, _ => .error .parameterCount

end Schedule

end Downhill
