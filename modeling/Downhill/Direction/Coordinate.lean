import Downhill.Objective

/-!
# Coordinate directions

Directions along one coordinate at a time.  The order of the coordinates is
cyclic, or back and forth, or cyclic with a step after each cycle that joins the
point where the cycle began to the point where it ended.
-/

namespace Downhill

inductive CoordinateOrder
  | cycle
  | backAndForth
  | cycleAndJoin
  deriving DecidableEq, Repr

namespace CoordinateOrder

def all : List (String × CoordinateOrder) :=
  [("cycle", cycle), ("back_and_forth", backAndForth),
    ("cycle_and_join_endpoints", cycleAndJoin)]

def ofName (name : String) : Except Fault CoordinateOrder :=
  Fault.named .coordinateMethod all name

def name : CoordinateOrder → String
  | cycle => "cycle"
  | backAndForth => "back_and_forth"
  | cycleAndJoin => "cycle_and_join_endpoints"

@[simp] theorem ofName_name (order : CoordinateOrder) : ofName order.name = .ok order := by
  cases order <;> rfl

def shown : CoordinateOrder → String
  | cycle => "<CoordinateMethod.CYCLE: 'cycle'>"
  | backAndForth => "<CoordinateMethod.BACK_AND_FORTH: 'back_and_forth'>"
  | cycleAndJoin => "<CoordinateMethod.CYCLE_AND_JOIN_ENDPOINTS: 'cycle_and_join_endpoints'>"

end CoordinateOrder

/-- Where a rule turns to: along a coordinate, or from the point where a cycle
began to the point where it ended. -/
inductive Heading
  | axis (i : Nat)
  | join
  deriving DecidableEq, Repr

/-- A coordinate rule with its place in the order.  It keeps points without
looking at them. -/
structure Coordinate (P : Type) where
  order : CoordinateOrder
  dimension : Nat
  /-- Counts through the order.  On the way back it goes on counting above the
  dimension. -/
  current : Nat
  /-- Whether all coordinates of the cycle have been handed out. -/
  completed : Bool
  /-- Whether the last direction joined the ends of a cycle. -/
  joining : Bool
  cycleStart : P
  cycleEnd : P

namespace Coordinate

variable {P : Type}

def start (order : CoordinateOrder) (dimension : Nat) (point : P) : Coordinate P :=
  { order, dimension, current := 0, completed := false, joining := false,
    cycleStart := point, cycleEnd := point }

def turnCycle (c : Coordinate P) : Heading × Coordinate P :=
  (.axis c.current, { c with current := (c.current + 1) % c.dimension })

/-- The next heading in back and forth order.  The count runs from one to
`2 n - 2` and stands for the coordinates `1, …, n - 1, n - 2, …, 0`. -/
def turnBackAndForth (c : Coordinate P) : Heading × Coordinate P :=
  if c.dimension = 1 then (.axis 0, c)
  else if c.current < c.dimension then (.axis c.current, { c with current := c.current + 1 })
  else
    (.axis (2 * c.dimension - c.current - 2),
      { c with current := if 2 * c.dimension - 2 ≤ c.current then 1 else c.current + 1 })

def turnCycleAndJoin (c : Coordinate P) : Heading × Coordinate P :=
  if c.completed then
    (.join, { c with joining := true, completed := false, current := 0 })
  else
    (.axis c.current, { c with
      current := c.current + 1
      joining := false
      completed := decide (c.dimension ≤ c.current + 1) })

def turn (c : Coordinate P) : Heading × Coordinate P :=
  match c.order with
  | .cycle => c.turnCycle
  | .backAndForth => c.turnBackAndForth
  | .cycleAndJoin => c.turnCycleAndJoin

/-- The next direction and the state that follows it, from the directions along
the coordinates and between two points.  Without coordinates there is no
direction, and the state stays. -/
def nextWith {D : Type} (axis : Nat → Except Fault D) (join : P → P → Except Fault D)
    (c : Coordinate P) : Except Fault D × Coordinate P :=
  if c.dimension = 0 then (.error .indexOutOfRange, c)
  else match c.turn with
    | (.axis i, c) => (axis i, c)
    | (.join, c) => (join c.cycleStart c.cycleEnd, c)

/-- Take note of the point that was reached along the last direction. -/
def moved (c : Coordinate P) (point : P) : Coordinate P :=
  match c.order with
  | .cycleAndJoin =>
    if c.joining then { c with cycleStart := point, joining := false }
    else if c.completed then { c with cycleEnd := point }
    else c
  | _ => c

variable {α : Type} [Scalar α]

def next (c : Coordinate (Vec α)) : Except Fault (Vec α) × Coordinate (Vec α) :=
  c.nextWith (Vec.unit c.dimension) fun first last => last.sub first

/-- The size of the probe that decides on the sign of a direction: the square
root of the spacing of doubles at one. -/
def probe : α := 1.490116119384765625e-8

/-- The direction, or its negative unless a small probe along it lowers the
objective below the given value. -/
def orient (f : Objective α) (point : Vec α) (value : α) (direction : Vec α) :
    EvalM α (Vec α) := do
  let probed ← EvalM.answer (point.along probe direction)
  let probedValue ← f.askValue probed
  return if probedValue - value < 0 then direction else direction.neg

end Coordinate

end Downhill
