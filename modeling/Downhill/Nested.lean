import Downhill.Vec

/-!
# Nested lists

Numbers as they are written down: a single number, a list of numbers, a list of
lists.  A nested list has a shape when its rows agree, and only then can it be
read as a point, a vector or a matrix.
-/

namespace Downhill

/-- A number, or a list of nested lists. -/
inductive Nested (α : Type)
  | entry (x : α)
  | row (parts : List (Nested α))

namespace Nested

variable {α : Type}

mutual

/-- The lengths along each axis, if the rows agree at every level. -/
def shape? : Nested α → Option (List Nat)
  | entry _ => some []
  | row parts => match parts with
    | [] => some [0]
    | part :: rest => do
      let inner ← shape? part
      if allShaped inner rest then some ((rest.length + 1) :: inner) else none

def allShaped (inner : List Nat) : List (Nested α) → Bool
  | [] => true
  | part :: rest => shape? part == some inner && allShaped inner rest

end

mutual

def flatten : Nested α → Vec α
  | entry x => [x]
  | row parts => flattenAll parts

def flattenAll : List (Nested α) → Vec α
  | [] => []
  | part :: rest => flatten part ++ flattenAll rest

end

/-- The numbers of a list that holds no further lists. -/
def entries? : List (Nested α) → Option (Vec α)
  | [] => some []
  | entry x :: rest => (entries? rest).map (x :: ·)
  | row _ :: _ => none

mutual

/-- Put a number in the place of every innermost list.  A single number holds no
list. -/
def contract (f : Vec α → Except Fault α) : Nested α → Except Fault (Nested α)
  | entry _ => .error .shapeMismatch
  | row parts => match entries? parts with
    | some xs => do
      let y ← f xs
      return entry y
    | none => do
      let contracted ← contractAll f parts
      return row contracted

def contractAll (f : Vec α → Except Fault α) :
    List (Nested α) → Except Fault (List (Nested α))
  | [] => .ok []
  | part :: rest => do
    let head ← contract f part
    let tail ← contractAll f rest
    return head :: tail

end

def axisLimit : Nat := 64

def shape (a : Nested α) : Except Fault (List Nat) := do
  let axes ← Fault.orElse .ragged a.shape?
  if axisLimit < axes.length then .error .tooDeep else return axes

def toVec (a : Nested α) : Except Fault (Vec α) := do
  let _ ← a.shape
  return a.flatten

def toRows : Nested α → List (Vec α)
  | entry _ => []
  | row parts => parts.map flatten

def ofVec (x : Vec α) : Nested α := row (x.map entry)

theorem flattenAll_entries (x : Vec α) : flattenAll (x.map entry) = x := by
  induction x with
  | nil => rfl
  | cons a x ih => exact congrArg (a :: ·) ih

@[simp] theorem flatten_ofVec (x : Vec α) : (ofVec x).flatten = x := flattenAll_entries x

theorem allShaped_entries (x : Vec α) : allShaped [] (x.map entry) = true := by
  induction x with
  | nil => rfl
  | cons a x ih => simp [allShaped, shape?, ih]

@[simp] theorem shape?_ofVec (x : Vec α) : (ofVec x).shape? = some [x.length] := by
  cases x with
  | nil => rfl
  | cons a x => simp [ofVec, shape?, allShaped_entries]

@[simp] theorem toVec_ofVec (x : Vec α) : (ofVec x).toVec = .ok x := by
  simp [toVec, shape, axisLimit, Fault.orElse, bind, Except.bind, pure, Except.pure]

/-- A starting point: all numbers in one vector, of which there is at least one. -/
def toPoint (a : Nested α) : Except Fault (Vec α) := do
  let point ← a.toVec
  Fault.refuse (point.length = 0) .emptyPoint
  return point

theorem toPoint_ofVec {x : Vec α} (h : x ≠ []) : (ofVec x).toPoint = .ok x := by
  have hx : ¬x.length = 0 := fun e => h (List.eq_nil_of_length_eq_zero e)
  simp [toPoint, Fault.refuse, hx, bind, Except.bind, pure, Except.pure]

/-! ## Two nested lists entry by entry

The axes are aligned from the innermost outwards.  An axis of length one, and an
axis that only the other list has, is repeated as often as needed. -/

def at? : Nested α → List Nat → Option α
  | entry x, [] => some x
  | row parts, i :: rest => match parts[i]? with
    | some part => at? part rest
    | none => none
  | _, _ => none

/-- The nested list of a shape with the given numbers. -/
def tabulate : List Nat → (List Nat → α) → Nested α
  | [], f => entry (f [])
  | n :: axes, f => row ((List.range n).map fun i => tabulate axes fun rest => f (i :: rest))

theorem at?_tabulate_cons {n i : Nat} (axes rest : List Nat) (f : List Nat → α) (h : i < n) :
    (tabulate (n :: axes) f).at? (i :: rest) =
      (tabulate axes fun rest => f (i :: rest)).at? rest := by
  simp [tabulate, at?, h]

/-- The common shape of two shapes, all of them with the innermost axis first. -/
def commonAxes : List Nat → List Nat → Option (List Nat)
  | [], axes => some axes
  | axes, [] => some axes
  | m :: ms, n :: ns => do
    let axes ← commonAxes ms ns
    if m = n ∨ n = 1 then some (m :: axes)
    else if m = 1 then some (n :: axes)
    else none

theorem commonAxes_self (axes : List Nat) : commonAxes axes axes = some axes := by
  induction axes with
  | nil => rfl
  | cons n axes ih => simp [commonAxes, ih]

/-- The position in a list of the given shape that stands for a position in the
common shape. -/
def repeatedPosition (axes position : List Nat) : List Nat :=
  List.zipWith (fun n i => if n = 1 then 0 else i) axes
    (position.drop (position.length - axes.length))

def combine [Zero α] (f : α → α → α) (a b : Nested α) : Except Fault (Nested α) := do
  let m ← a.shape
  let n ← b.shape
  let axes ← Fault.orElse .shapeMismatch (commonAxes m.reverse n.reverse)
  return tabulate axes.reverse fun position =>
    f ((a.at? (repeatedPosition m position)).getD 0)
      ((b.at? (repeatedPosition n position)).getD 0)

end Nested

end Downhill
