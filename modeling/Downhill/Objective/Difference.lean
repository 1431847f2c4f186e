import Downhill.Objective

/-!
# Central differences

The gradient of a function estimated from its values on either side of a point,
one coordinate at a time.
-/

namespace Downhill

variable {α : Type} [Scalar α]

def Vec.shift (p : Vec α) (i : Nat) (h : α) : Vec α := p.modify i (· + h)

def centralDifference (f : Vec α → Except Fault α) (p : Vec α) (h : α) (i : Nat) :
    Except Fault α := do
  let above ← f (p.shift i h)
  let below ← f (p.shift i (-h))
  return (above - below) / (2.0 * h)

/-- The difference quotients along all coordinates, for a positive step. -/
def differenceGradient (f : Vec α → Except Fault α) (p : Vec α) (h : α) :
    Except Fault (Vec α) := do
  Fault.refuse (h ≤ 0) .differenceStep
  (List.range p.length).mapM (centralDifference f p h)

def differenceStep : α := 1e-6

/-- A function without a gradient of its own, which takes difference quotients
instead. -/
def Objective.ofValue (f : Vec α → Except Fault α) (h : α) : Objective α where
  value := f
  gradient := fun p => differenceGradient f p h

end Downhill
