import Downhill.Objective

/-!
# Reference objectives

Linear functions, and the curved valley `Σ (a - x_i)² + b (x_{i+1} - x_i²)²`.
-/

namespace Downhill

variable {α : Type} [Scalar α]

/-- The linear function `c'x + d`. -/
def Objective.linear (c : Vec α) (d : α) : Objective α where
  value := fun x => do
    let product ← Vec.dot c x
    return product + d
  gradient := fun _ => .ok c

namespace Valley

/-- The term of two neighbouring coordinates. -/
def term (a b x y : α) : α :=
  let offset := a - x
  let inner := y - x * x
  offset * offset + b * (inner * inner)

def value (a b : α) (x : Vec α) : α := Vec.total (List.zipWith (term a b) x x.tail)

/-- The derivatives from a coordinate on.  `carried` is what the coordinate
before contributes to the next one. -/
def gradientFrom (a b carried : α) : Vec α → Vec α
  | [] => []
  | [_] => [carried]
  | x :: y :: rest =>
    let inner := y - x * x
    (-2.0 * (a - x) - 4.0 * b * x * inner + carried) ::
      gradientFrom a b (2.0 * b * inner) (y :: rest)

def gradient (a b : α) (x : Vec α) : Vec α := gradientFrom a b 0 x

end Valley

def Objective.valley (a b : α) : Objective α where
  value := fun x => .ok (Valley.value a b x)
  gradient := fun x => .ok (Valley.gradient a b x)

end Downhill
