import Downhill.Direction
import Downhill.Operand.Objective
import Downhill.Storage

/-!
# Directions from operands

The direction rules for gradients and points as they are written down.  On
vectors they are the rules themselves; a number by itself may be negated and
added, and fails where an inner product is needed.
-/

namespace Downhill

variable {α : Type} [Scalar α]

namespace BetaFormula

def usesDirection : BetaFormula → Bool
  | hestenesStiefel => true
  | daiYuan => true
  | hagerZhang => true
  | _ => false

def betaAt (formula : BetaFormula) (g g' d : Operand α) : Except Fault α := do
  let g ← g.toVec
  let g' ← g'.toVec
  let d ← if formula.usesDirection then d.toVec else .ok d.entries
  formula.beta g g' d

@[simp] theorem betaAt_vector (formula : BetaFormula) (g g' d : Vec α) :
    formula.betaAt (.vector g) (.vector g') (.vector d) = formula.beta g g' d := by
  cases formula <;> rfl

end BetaFormula

namespace RestartPolicy

/-- Whether the policy asks for a restart.  Only one policy looks at the
gradients, and at the previous one only if the gradient is not zero. -/
def asksAt (policy : RestartPolicy) (g g' : Operand α) (steps dimension : Int) :
    Except Fault Bool :=
  match policy, g, g' with
  | orthogonality, .number _, _ => .error .shapeMismatch
  | orthogonality, .vector g, .number _ =>
    if g.normSq == 0 then .ok true else .error .shapeMismatch
  | policy, g, g' => policy.asks g.entries g'.entries steps dimension

@[simp] theorem asksAt_vector (policy : RestartPolicy) (g g' : Vec α) (steps dimension : Int) :
    policy.asksAt (.vector g) (.vector g') steps dimension = policy.asks g g' steps dimension := by
  cases policy <;> rfl

end RestartPolicy

namespace Conjugate

def restartAt (c : Conjugate α) (g : Operand α) : Operand α × Conjugate α :=
  (g.map (- ·), (c.restart g.entries).2)

def nextAt (c : Conjugate α) (g : Operand α)
    (previousGradient previousDirection : Option (Operand α)) :
    Except Fault (Operand α × Conjugate α) :=
  match previousGradient, previousDirection with
  | some g', some d => do
    if ← c.policy.asksAt g g' (c.steps + 1 : Nat) c.dimension then
      return c.restartAt g
    else
      let gradient ← g.toVec
      let previous ← g'.toVec
      let direction ← if c.formula.usesDirection then d.toVec else .ok d.entries
      match ← c.continue? gradient previous direction with
      | some (direction, c) => return (.vector direction, c)
      | none => return c.restartAt g
  | _, _ => return c.restartAt g

theorem nextAt_vector (c : Conjugate α) (g : Vec α) (g' d : Option (Vec α)) :
    c.nextAt (.vector g) (g'.map .vector) (d.map .vector) =
      (c.next g g' d).map fun (direction, c) => (.vector direction, c) := by
  cases g' with
  | none => rfl
  | some g' =>
    cases d with
    | none => rfl
    | some d =>
      simp only [nextAt, next, Option.map_some, RestartPolicy.asksAt_vector]
      cases c.policy.asks g g' (c.steps + 1 : Nat) c.dimension with
      | error fault => rfl
      | ok asks =>
        cases asks with
        | true => rfl
        | false =>
          cases c.formula.usesDirection <;>
            cases hc : c.continue? g g' d with
            | error fault => simp [hc, Operand.entries, bind, Except.bind, Except.map]
            | ok answer =>
              cases answer
              all_goals
                simp [hc, Operand.entries, restartAt, bind, Except.bind, Except.map, pure,
                  Except.pure]
              rfl

end Conjugate

namespace Coordinate

/-- The next direction of a rule whose points are operands, in a space of the
given dimension.  There is none if the dimension is negative or there is no room
for a vector of it. -/
def nextAt (dimension : Int) (c : Coordinate (Operand α)) :
    Except Fault (Operand α) × Coordinate (Operand α) :=
  if dimension < 0 then (.error .shapeMismatch, c)
  else match Storage.reserve dimension.toNat with
    | .error fault => (.error fault, c)
    | .ok () =>
      c.nextWith (fun i => Operand.vector <$> Vec.unit dimension.toNat i) fun first last =>
        Operand.combine (· - ·) last first

/-- The direction, or its negative unless a small probe along it lowers the
objective.  The value at the point comes before the direction. -/
def orientAt (f : OperandObjective α) (point : Operand α) (direction : Option (Operand α)) :
    Except Fault (Operand α) := do
  let value ← f.value point
  let direction ← Fault.orElse .noDirection direction
  let probed ← Operand.combine (· + ·) point (direction.map (probe * ·))
  let probedValue ← f.value probed
  return if probedValue - value < 0 then direction else direction.map (- ·)

end Coordinate

end Downhill
