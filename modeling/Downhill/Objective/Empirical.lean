import Downhill.Nested
import Downhill.Objective
import Downhill.Sampling.Sampler

/-!
# Empirical objectives

The mean of one term per example.  The gradient can be estimated from the terms
of a mini-batch.  Examples are numbered from zero, and negative numbers count
from the end.
-/

namespace Downhill

/-- The terms of an objective that is a mean, for points of a fixed dimension. -/
structure Empirical (α : Type) where
  dimension : Nat
  terms : List (Objective α)

namespace Empirical

variable {α : Type} [Scalar α]

def term (e : Empirical α) (i : Int) : Except Fault (Objective α) :=
  let j := if i < 0 then i + e.terms.length else i
  if j < 0 then .error .indexOutOfRange else Fault.orElse .indexOutOfRange e.terms[j.toNat]?

/-- The terms of several examples, at a point of the right dimension. -/
def select (e : Empirical α) (p : Vec α) (indices : List Int) :
    Except Fault (List (Objective α)) := do
  let terms ← indices.mapM e.term
  if p.length = e.dimension then return terms else .error .shapeMismatch

def exampleValues (e : Empirical α) (p : Vec α) (indices : List Int) : Except Fault (Vec α) := do
  let terms ← e.select p indices
  terms.mapM (·.value p)

def exampleGradients (e : Empirical α) (p : Vec α) (indices : List Int) :
    Except Fault (List (Vec α)) := do
  let terms ← e.select p indices
  terms.mapM (·.gradient p)

def everyIndex (e : Empirical α) : List Int := (List.range e.terms.length).map Int.ofNat

def value (e : Empirical α) (p : Vec α) : Except Fault α := do
  let values ← e.exampleValues p e.everyIndex
  return Vec.mean values

def batchGradient (e : Empirical α) (p : Vec α) (batch : List Nat) : Except Fault (Vec α) := do
  let rows ← e.exampleGradients p (batch.map Int.ofNat)
  Vec.meanRows rows

def gradient (e : Empirical α) (p : Vec α) : Except Fault (Vec α) := do
  let rows ← e.exampleGradients p e.everyIndex
  Vec.meanRows rows

def toObjective (e : Empirical α) : Objective α where
  value := e.value
  gradient := e.gradient

end Empirical

/-! ## Least squares -/

namespace LeastSquares

variable {α : Type} [Scalar α]

def term (features : Vec α) (target : α) : Objective α where
  value := fun p => do
    let product ← Vec.dot features p
    let residual := product - target
    return residual * residual
  gradient := fun p => do
    let product ← Vec.dot features p
    return features.scale (2.0 * (product - target))

end LeastSquares

/-! ## Logistic loss -/

namespace Logistic

variable {α : Type} [Elementary α]

/-- `log (1 + x)` without loss of digits for small `x`: the error of the rounded
sum is undone by the factor `x / ((1 + x) - 1)`. -/
def logOnePlus (x : α) : α :=
  let u := 1 + x
  if u == 1 then x else Elementary.log u * (x / (u - 1))

/-- `log (1 + exp m)`, without overflow. -/
def softplus (m : α) : α :=
  if m == 0 then Elementary.log 2.0
  else if 0 < m then m + logOnePlus (Elementary.exp (-m))
  else logOnePlus (Elementary.exp m)

def sigmoid (m : α) : α := 1 / (1 + Elementary.exp (-m))

/-- The loss of one example with a label of zero or one. -/
def term (features : Vec α) (label : α) : Objective α where
  value := fun p => do
    let margin ← Vec.dot features p
    return softplus margin - label * margin
  gradient := fun p => do
    let margin ← Vec.dot features p
    return features.scale (sigmoid margin - label)

/-- The probability of label one for every feature row. -/
def predict (p : Vec α) (features : Nested α) : Except Fault (Nested α) := do
  let _ ← features.shape
  features.contract fun row => do
    let margin ← Vec.dot row p
    return sigmoid margin

end Logistic

/-! ## Examples as they are written down -/

namespace Empirical

variable {α : Type} [Scalar α]

/-- Pair feature rows with one number each.  There have to be as many of them as
rows of a matrix. -/
def ofRows (term : Vec α → α → Objective α) (features : Nested α) (numbers : Nested α)
    (mismatch : Invalid) (check : Vec α → Except Fault Unit) : Except Fault (Empirical α) := do
  let shape ← features.shape
  let numbers ← numbers.toVec
  match shape with
  | [rows, columns] =>
    Fault.refuse (rows ≠ numbers.length) mismatch
    check numbers
    Fault.refuse (rows = 0) .exampleCount
    return { dimension := columns, terms := List.zipWith term features.toRows numbers }
  | _ => .error (.invalid mismatch)

def leastSquares (features targets : Nested α) : Except Fault (Empirical α) :=
  ofRows LeastSquares.term features targets .regressionFeatures fun _ => .ok ()

def logistic {β : Type} [Elementary β] (features labels : Nested β) : Except Fault (Empirical β) :=
  ofRows Logistic.term features labels .classificationFeatures fun numbers =>
    Fault.refuse (numbers.all (fun y => y == 0 || y == 1) = false) .labels

end Empirical

end Downhill
