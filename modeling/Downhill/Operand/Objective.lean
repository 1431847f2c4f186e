import Downhill.Objective.Basic
import Downhill.Objective.Difference
import Downhill.Operand
import Downhill.Problem

/-!
# Objectives of operands

What an objective answers when it is asked about an operand.  At a vector it
answers as ever.  At a number by itself the answer depends on what it does with
its point: to take coordinates, inner products or difference quotients needs a
vector.
-/

namespace Downhill

/-- A function of an operand and its gradient. -/
structure OperandObjective (α : Type) where
  value : Operand α → Except Fault α
  gradient : Operand α → Except Fault (Vec α)

namespace OperandObjective

variable {α : Type}

/-- An objective that has no answers at a number by itself. -/
def ofVectors (f : Objective α) (fault : Fault) : OperandObjective α where
  value
    | .number _ => .error fault
    | .vector p => f.value p
  gradient
    | .number _ => .error fault
    | .vector p => f.gradient p

/-- An objective to which a number is the same as a vector with one entry. -/
def ofEntries (f : Objective α) : OperandObjective α where
  value p := f.value p.entries
  gradient p := f.gradient p.entries

/-- The objective as one of vectors.  If the points are numbers by themselves, each
is written as a vector with one entry. -/
def along (f : OperandObjective α) (numbers : Bool) : Objective α :=
  let operand (p : Vec α) : Operand α := match numbers, p with
    | true, [x] => .number x
    | _, p => .vector p
  ⟨fun p => f.value (operand p), fun p => f.gradient (operand p)⟩

@[simp] theorem along_ofVectors (f : Objective α) (fault : Fault) :
    (ofVectors f fault).along false = f := rfl

variable [Scalar α]

def linear (c : Vec α) (d : α) : OperandObjective α where
  value p := do
    let p ← p.toVec
    (Objective.linear c d).value p
  gradient _ := .ok c

def differences (f : Vec α → Except Fault α) (h : α) : Operand α → Except Fault (Vec α)
  | .number _ => do
    Fault.refuse (h ≤ 0) .differenceStep
    .error .indexOutOfRange
  | .vector p => differenceGradient f p h

def ofValue (f : Vec α → Except Fault α) (h : α) : OperandObjective α where
  value p := f p.entries
  gradient := differences f h

end OperandObjective

namespace Objective

variable {α : Type}

/-- An objective whose gradient, once it is known, has no product with the
direction at hand. -/
def withoutSlopes (f : Objective α) : Objective α where
  value := f.value
  gradient p := do
    let _ ← f.gradient p
    .error .shapeMismatch

end Objective

namespace Problem

variable {α G : Type} [Scalar α]

/-- Estimate the gradient at an operand.  The sampler moves on whatever the
operand is. -/
def estimateAt [IndexSource G] (e : Empirical α) (sampler : Sampler G) (p : Operand α)
    (batch : Nat) : Except Fault (Vec α) × Sampler G :=
  match p with
  | .vector p => estimate e sampler p batch
  | .number _ => match sampler.draw batch with
    | .error fault => (.error fault, sampler)
    | .ok (_, sampler) => (.error .shapeMismatch, sampler)

end Problem

namespace Empirical

variable {α β : Type} [Scalar α]

/-- An answer about several examples at an operand.  The examples are looked up
first. -/
def atOperand (e : Empirical α) (rule : Vec α → List Int → Except Fault β) (p : Operand α)
    (indices : List Int) : Except Fault β :=
  match p with
  | .vector p => rule p indices
  | .number _ => do
    let _ ← indices.mapM e.term
    .error .shapeMismatch

end Empirical

end Downhill
