import Downhill.Vec

/-!
# Formulas

Functions of a point, written down as expressions.  A formula may refuse a point
in words of its own, which is how a function without a value or a gradient there
is described.
-/

namespace Downhill

inductive Unary
  | neg | abs | sqrt | sin | cos | exp | log
  deriving DecidableEq, Repr

/-- Functions of two numbers.  A comparison is one or zero. -/
inductive Binary
  | sub | div | lt | le | gt | ge | eq
  deriving DecidableEq, Repr

/-- An expression in the coordinates of a point. -/
inductive Formula
  | number (x : Float)
  | coordinate (i : Int)
  | sum (first : Formula) (rest : List Formula)
  | product (first : Formula) (rest : List Formula)
  | unary (f : Unary) (a : Formula)
  | binary (f : Binary) (a b : Formula)
  | power (a : Formula) (exponent : Nat)
  /-- One of two branches, of which only the chosen one is evaluated. -/
  | choice (test yes no : Formula)
  | refuse (text : String)

namespace Unary

def eval : Unary → Float → Float
  | neg, x => -x
  | abs, x => x.abs
  | sqrt, x => x.sqrt
  | sin, x => x.sin
  | cos, x => x.cos
  | exp, x => x.exp
  | log, x => x.log

end Unary

namespace Binary

def truth (b : Bool) : Float := if b then 1.0 else 0.0

def eval : Binary → Float → Float → Float
  | sub, x, y => x - y
  | div, x, y => x / y
  | lt, x, y => truth (x < y)
  | le, x, y => truth (x ≤ y)
  | gt, x, y => truth (y < x)
  | ge, x, y => truth (y ≤ x)
  | eq, x, y => truth (x == y)

end Binary

namespace Formula

/-- A position in a list of the given length.  Negative positions count from the
end. -/
def position (length : Nat) (i : Int) : Except Fault Nat :=
  let j := if i < 0 then i + length else i
  if 0 ≤ j ∧ j < length then .ok j.toNat else .error .indexOutOfRange

/-- One multiplied by the base as often as the exponent says. -/
def repeated (base : Float) : Nat → Float
  | 0 => 1.0
  | k + 1 => repeated base k * base

mutual

def eval (p : Vec Float) : Formula → Except Fault Float
  | number x => .ok x
  | coordinate i => do
    let j ← position p.length i
    Fault.orElse .indexOutOfRange p[j]?
  | sum first rest => do
    let start ← eval p first
    evalSum p start rest
  | product first rest => do
    let start ← eval p first
    evalProduct p start rest
  | unary f a => do
    let x ← eval p a
    return f.eval x
  | binary f a b => do
    let x ← eval p a
    let y ← eval p b
    return f.eval x y
  | power a exponent => do
    let x ← eval p a
    return repeated x exponent
  | choice test yes no => do
    let c ← eval p test
    if c == 0.0 then eval p no else eval p yes
  | refuse text => .error (.nonSmooth text)

def evalSum (p : Vec Float) (acc : Float) : List Formula → Except Fault Float
  | [] => .ok acc
  | a :: rest => do
    let x ← eval p a
    evalSum p (acc + x) rest

def evalProduct (p : Vec Float) (acc : Float) : List Formula → Except Fault Float
  | [] => .ok acc
  | a :: rest => do
    let x ← eval p a
    evalProduct p (acc * x) rest

end

/-- Whether the formula is not zero at the point. -/
def holds (a : Formula) (p : Vec Float) : Except Fault Bool := do
  let x ← eval p a
  return !(x == 0.0)

def evalAll (p : Vec Float) (as : List Formula) : Except Fault (Vec Float) :=
  as.mapM (eval p)

end Formula

end Downhill
