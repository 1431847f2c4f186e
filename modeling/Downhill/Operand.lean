import Downhill.Nested

/-!
# Operands

A vector as it is written down is a list of numbers, or a number by itself.  In
entrywise arithmetic a number by itself acts like a vector with a single entry,
but two of them give a number again.  It has no inner product with anything.
-/

namespace Downhill

/-- A number by itself, or a vector. -/
inductive Operand (α : Type)
  | number (x : α)
  | vector (x : Vec α)
  deriving Repr

namespace Operand

variable {α : Type}

def entries : Operand α → Vec α
  | number x => [x]
  | vector x => x

def isNumber : Operand α → Bool
  | number _ => true
  | vector _ => false

/-- A vector, as an inner product needs it. -/
def toVec : Operand α → Except Fault (Vec α)
  | number _ => .error .shapeMismatch
  | vector x => .ok x

@[simp] theorem toVec_vector (x : Vec α) : (vector x).toVec = .ok x := rfl

def map (f : α → α) : Operand α → Operand α
  | number x => number (f x)
  | vector x => vector (x.map f)

def combine (f : α → α → α) : Operand α → Operand α → Except Fault (Operand α)
  | number x, number y => .ok (number (f x y))
  | a, b => vector <$> Vec.combine f a.entries b.entries

theorem combine_vector (f : α → α → α) (x y : Vec α) :
    combine f (vector x) (vector y) = vector <$> Vec.combine f x y := rfl

/-- The operand of a nested list, whose axes beyond the first are flattened. -/
def ofNested : Nested α → Except Fault (Operand α)
  | .entry x => .ok (number x)
  | a => vector <$> a.toVec

theorem ofNested_ofVec (x : Vec α) : ofNested (Nested.ofVec x) = .ok (vector x) := by
  show vector <$> (Nested.ofVec x).toVec = .ok (vector x)
  rw [Nested.toVec_ofVec]
  rfl

end Operand

end Downhill
