import Downhill.Nested

/-!
# Boxes

Lower and upper bounds on the coordinates of a point.  A bound with one entry
holds for every coordinate.  A point is brought into the box by raising each
coordinate to its lower bound and then lowering it to its upper bound.
-/

namespace Downhill

/-- A box, possibly open on either side. -/
structure Box (α : Type) where
  lower : Option (Vec α)
  upper : Option (Vec α)

namespace Box

variable {α : Type} [Scalar α]

/-- The entries of one bound: a number or a list of numbers, of which there is at
least one and each is a number. -/
def readBound (name : String) : Option (Nested α) → Except Fault (Option (Vec α))
  | none => .ok none
  | some bound => do
    let shape ← bound.shape
    Fault.refuse (1 < shape.length) (.boundRank name)
    let entries := bound.flatten
    Fault.refuse (entries.length = 0) (.boundEmpty name)
    Fault.refuse (entries.any Scalar.isNaN = true) (.boundUndefined name)
    return some entries

/-- Whether some entry of the first vector lies above the entry of the second. -/
def crosses (lower upper : Vec α) : Bool :=
  match lower, upper with
  | [a], upper => upper.any fun b => decide (b < a)
  | lower, [b] => lower.any fun a => decide (b < a)
  | lower, upper => (List.zipWith (fun a b => decide (b < a)) lower upper).any id

/-- Two bounds fit if their sizes agree or one of them has a single entry, and
the lower nowhere lies above the upper. -/
def checkOrder (lower upper : Option (Vec α)) : Except Fault Unit :=
  match lower, upper with
  | some lower, some upper => do
    Fault.refuse (lower.length ≠ upper.length ∧ lower.length ≠ 1 ∧ upper.length ≠ 1)
      (.boundSizes lower.length upper.length)
    Fault.refuse (crosses lower upper = true) .boundOrder
  | _, _ => .ok ()

def ofBounds (lower upper : Option (Nested α)) : Except Fault (Box α) := do
  let lower ← readBound "lower_bound" lower
  let upper ← readBound "upper_bound" upper
  checkOrder lower upper
  return { lower, upper }

def checkSize (dimension : Int) (name : String) : Option (Vec α) → Except Fault Unit
  | none => .ok ()
  | some bound => Fault.refuse (bound.length ≠ 1 ∧ bound.length ≠ dimension)
      (.boundDimension name bound.length dimension)

/-- Refuse bounds that neither have a single entry nor one per coordinate. -/
def checkDimension (box : Box α) (dimension : Int) : Except Fault Unit := do
  checkSize dimension "lower_bound" box.lower
  checkSize dimension "upper_bound" box.upper

def active (box : Box α) : Bool := box.lower.isSome || box.upper.isSome

def raise (box : Box α) (x : Vec α) : Except Fault (Vec α) :=
  match box.lower with
  | none => .ok x
  | some bound => Vec.combine Scalar.maximum x bound

def cap (box : Box α) (x : Vec α) : Except Fault (Vec α) :=
  match box.upper with
  | none => .ok x
  | some bound => Vec.combine Scalar.minimum x bound

def clamp (box : Box α) (x : Vec α) : Except Fault (Vec α) := do
  let raised ← box.raise x
  box.cap raised

def combineBound (f : α → α → α) (bound : Option (Vec α)) (a : Nested α) :
    Except Fault (Nested α) :=
  match bound with
  | none => .ok a
  | some bound => a.combine f (Nested.ofVec bound)

/-- Points of any shape brought into the box.  With a bound a single number
becomes a list. -/
def clampNested (box : Box α) (a : Nested α) : Except Fault (Nested α) := do
  let _ ← a.shape
  let raised ← combineBound Scalar.maximum box.lower a
  combineBound Scalar.minimum box.upper raised

end Box

end Downhill
