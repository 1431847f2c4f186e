import Downhill.Scalar
import Downhill.Fault

/-!
# Vectors

A point, a gradient or a direction is the list of its coordinates.  Entrywise
operations accept two vectors of one length, and also a vector with a single
entry beside a vector of any length, for which the entry is repeated.  An inner
product needs equal lengths.
-/

namespace Downhill

abbrev Vec (α : Type) := List α

namespace Vec

variable {α : Type}

/-- Combine two vectors entry by entry.  A single entry is repeated as often as
the other vector needs. -/
def combine (f : α → α → α) (x y : Vec α) : Except Fault (Vec α) :=
  if x.length = y.length then .ok (List.zipWith f x y)
  else match x, y with
    | [a], y => .ok (y.map (f a))
    | x, [b] => .ok (x.map (f · b))
    | _, _ => .error .shapeMismatch

theorem combine_of_length_eq (f : α → α → α) {x y : Vec α} (h : x.length = y.length) :
    combine f x y = .ok (List.zipWith f x y) := if_pos h

theorem length_of_combine {f : α → α → α} {x y z : Vec α} (h : x.length = y.length)
    (hz : combine f x y = .ok z) : z.length = x.length := by
  rw [combine_of_length_eq f h] at hz
  cases hz
  rw [List.length_zipWith, h, Nat.min_self]

variable [Scalar α]

def add (x y : Vec α) : Except Fault (Vec α) := combine (· + ·) x y

def sub (x y : Vec α) : Except Fault (Vec α) := combine (· - ·) x y

def mul (x y : Vec α) : Except Fault (Vec α) := combine (· * ·) x y

def neg (x : Vec α) : Vec α := x.map (- ·)

@[simp] theorem length_neg (x : Vec α) : x.neg.length = x.length := List.length_map ..

def scale (c : α) (x : Vec α) : Vec α := x.map (c * ·)

@[simp] theorem length_scale (c : α) (x : Vec α) : (x.scale c).length = x.length :=
  List.length_map ..

/-- The entries added up from the first to the last. -/
def total (x : Vec α) : α := x.foldl (· + ·) 0

def dot (x y : Vec α) : Except Fault α :=
  if x.length = y.length then .ok (total (List.zipWith (· * ·) x y))
  else .error .shapeMismatch

theorem dot_of_length_eq {x y : Vec α} (h : x.length = y.length) :
    dot x y = .ok (total (List.zipWith (· * ·) x y)) := if_pos h

def normSq (x : Vec α) : α := total (x.map fun a => a * a)

def norm (x : Vec α) : α := Scalar.sqrt (normSq x)

/-- The greatest absolute value of the entries, and not a number if one of them is
not. -/
def greatest (x : Vec α) : α := x.foldl (fun m a => Scalar.maximum m (Scalar.abs a)) 0

/-- Euclidean length, without overflow or underflow on the way. -/
def safeNorm (x : Vec α) : α :=
  let m := x.greatest
  if m == 0 then m else m * norm (x.map (· / m))

def along (x : Vec α) (step : α) (d : Vec α) : Except Fault (Vec α) := add x (scale step d)

theorem along_of_length_eq {x d : Vec α} (step : α) (h : x.length = d.length) :
    x.along step d = .ok (List.zipWith (· + ·) x (d.scale step)) :=
  combine_of_length_eq _ (by rw [h, length_scale])

def zeros (n : Nat) : Vec α := List.replicate n 0

@[simp] theorem length_zeros (n : Nat) : (zeros n : Vec α).length = n := List.length_replicate

/-- The unit vector of a coordinate, which has to be one of the `n`. -/
def unit (n i : Nat) : Except Fault (Vec α) :=
  if i < n then .ok ((zeros n).set i 1) else .error .indexOutOfRange

def mean (x : Vec α) : α := total x / (x.length : α)

/-- Entrywise sum of the rows, from the first to the last. -/
def sumRows : List (Vec α) → Except Fault (Vec α)
  | [] => .ok []
  | row :: rows => rows.foldlM add row

def meanRows (rows : List (Vec α)) : Except Fault (Vec α) := do
  let sum ← sumRows rows
  return sum.map (· / (rows.length : α))

end Vec

end Downhill
