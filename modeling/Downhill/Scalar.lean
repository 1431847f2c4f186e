import Downhill.Double

/-!
# Scalars

Every method of this library is written once, over a class of numbers.  It runs
on `Float`, and the same text can be read over any ordered number system with a
square root, where the order of operations no longer matters and the theorems
about descent directions, step sizes and termination can be stated.

Comparisons are propositions and need not be total: a value that is not a number
answers no comparison, so a test and its negation are different tests.
-/

namespace Downhill

/-- Numbers a descent method can compute with. -/
class Scalar (α : Type) extends Add α, Sub α, Mul α, Div α, Neg α, Zero α, One α,
    NatCast α, OfScientific α, LT α, LE α, BEq α where
  decLt : ∀ a b : α, Decidable (a < b)
  decLe : ∀ a b : α, Decidable (a ≤ b)
  /-- Distance to zero. -/
  abs : α → α
  /-- Square root, for values that are not negative. -/
  sqrt : α → α
  /-- False for the infinities and for a value that is not a number. -/
  isFinite : α → Bool
  /-- True for a value that is not a number. -/
  isNaN : α → Bool
  /-- The exponent `e` with `2 ^ e ≤ |x| < 2 ^ (e + 1)`, for `x` finite and not
  zero.  It bounds how often a step can be doubled before it passes another. -/
  binade : α → Int

class Elementary (α : Type) extends Scalar α where
  exp : α → α
  log : α → α
  pow : α → α → α
  /-- The largest integral value that is not above the argument. -/
  floor : α → α

namespace Scalar

variable {α : Type} [Scalar α]

instance (priority := low) decidableLt (a b : α) : Decidable (a < b) := decLt a b

instance (priority := low) decidableLe (a b : α) : Decidable (a ≤ b) := decLe a b

/-- The first value, unless the second is greater. -/
def larger (a b : α) : α := if a < b then b else a

def smaller (a b : α) : α := if b < a then b else a

/-- The greater value, and not a number if either is not. -/
def maximum (a b : α) : α := if isNaN a then a else if isNaN b then b else larger a b

def minimum (a b : α) : α := if isNaN a then a else if isNaN b then b else smaller a b

def sign (a : α) : α := if isNaN a then a else if 0 < a then 1 else if a < 0 then -1 else 0

/-- The length of a vector with two entries, without overflow on the way. -/
def hypotenuse (x y : α) : α :=
  let x := abs x
  let y := abs y
  if y < x then
    let q := y / x
    x * sqrt (1 + q * q)
  else if x < y then
    let q := x / y
    y * sqrt (1 + q * q)
  else if isNaN x then x
  else y * sqrt 2.0

/-- Whether the value lies below every value that is not finite and positive.
A best value that has not been measured yet compares like a positive infinity. -/
def belowInfinity (a : α) : Prop := isFinite a = true ∨ a < 0

instance (a : α) : Decidable (belowInfinity a) := inferInstanceAs (Decidable (_ ∨ _))

end Scalar

instance : Scalar Float where
  zero := 0.0
  one := 1.0
  natCast := Float.ofNat
  decLt := inferInstance
  decLe := inferInstance
  abs := Float.abs
  sqrt := Float.sqrt
  isFinite := Float.isFinite
  isNaN := Float.isNaN
  binade := Double.binade

instance : Elementary Float where
  exp := Float.exp
  log := Float.log
  pow := Float.pow
  floor := Float.floor

end Downhill
