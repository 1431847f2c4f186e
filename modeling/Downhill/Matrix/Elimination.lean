import Downhill.Matrix

/-!
# Linear systems

Elimination with partial pivoting, column by column.  The rows keep their
entries; what elimination takes off an entry is added up first and subtracted
once.

A pivot that is below the normal range, or that is not a number, has no usable
reciprocal.  The multipliers of its column then stay what they are, and where
they are, and only the equations change places.
-/

namespace Downhill

namespace Mat

variable {α : Type} [Scalar α]

/-- A row with its right side, and how much of each pivot row is taken off it. -/
structure Equation (α : Type) where
  entries : Vec α
  right : α
  factors : Vec α

namespace Equation

/-- The entry of a column after elimination.  `above` holds those of the pivot
rows. -/
def reduced (above : Vec α) (j : Nat) (e : Equation α) : α :=
  e.entries.getD j 0 - Vec.total (List.zipWith (· * ·) e.factors above)

def reducedRight (solved : Vec α) (e : Equation α) : α :=
  (List.zip e.factors solved).foldl (fun rest pair => rest - pair.1 * pair.2) e.right

end Equation

def leastPivot : α := 2.2250738585072014e-308

/-- How much of a pivot row is taken off a row with the given entry below the
pivot.  Nothing is taken off below an infinite pivot. -/
def factor (pivot head : α) : α :=
  let inverse := 1 / pivot
  if inverse == 0 then 0 else head * inverse

/-- The position of the greatest absolute value, the first of several. -/
def pivotIndex (heads : Vec α) : Nat :=
  match (heads.map Scalar.abs).zipIdx with
  | [] => 0
  | first :: rest =>
    (rest.foldl (fun best item => if best.1 < item.1 then item else best) first).2

def exchange {β : Type} (i : Nat) (items : List β) : List β :=
  match items, i with
  | first :: rest, i + 1 => match rest[i]? with
    | some chosen => chosen :: rest.set i first
    | none => items
  | items, _ => items

theorem perm_getElem_set {β : Type} (first : β) (rest : List β) (i : Nat) (h : i < rest.length) :
    (rest[i] :: rest.set i first).Perm (first :: rest) := by
  induction rest generalizing i with
  | nil => simp at h
  | cons x xs ih =>
    cases i with
    | zero => exact .swap _ _ _
    | succ i =>
      have tail := ih i (by simpa using h)
      simp only [List.getElem_cons_succ, List.set_cons_succ]
      exact (List.Perm.swap _ _ _).trans ((tail.cons x).trans (.swap _ _ _))

theorem perm_exchange {β : Type} (i : Nat) (items : List β) : (exchange i items).Perm items := by
  unfold exchange
  split
  · split
    · rename_i h
      obtain ⟨hi, rfl⟩ := List.getElem?_eq_some_iff.1 h
      exact perm_getElem_set _ _ _ hi
    · exact .refl _
  · exact .refl _

/-- Collect the results of a rule that sees those of the rows before. -/
def collect (rule : Vec α → Equation α → α) (rows : List (Equation α)) : Vec α :=
  rows.foldl (fun found e => found ++ [rule found e]) []

/-- Let the row at a position be the next pivot row, given the entries of all rows
in the pivot column.  The answer holds the pivot row, its entry and the other
rows. -/
def choose (i : Nat) (pivot : α) (rest : List (Equation α)) (heads : Vec α) :
    Option (Equation α × α × List (Equation α)) :=
  let multipliers := List.zip (rest.map Equation.factors) heads
  let usable := decide (leastPivot ≤ Scalar.abs pivot)
  let multipliers := if usable then exchange i multipliers else multipliers
  match exchange i rest, multipliers with
  | chosen :: rest, (factors, head) :: multipliers =>
    let others := List.zipWith (fun e (factors, head) =>
      { e with factors := factors ++ [if usable then factor pivot head else head] })
      rest multipliers
    some ({ chosen with factors }, head, others)
  | _, _ => none

/-- Choose as many further pivot rows as asked for.  The answer holds the pivot
rows in order, and the columns of the triangular matrix with the last one first.
A pivot that is zero ends it. -/
def triangular : Nat → (pivots rest : List (Equation α)) → (columns : Mat α) →
    Except Fault (List (Equation α) × Mat α)
  | 0, pivots, _, columns => .ok (pivots, columns)
  | n + 1, pivots, rest, columns =>
    let j := pivots.length
    let above := collect (Equation.reduced · j) pivots
    let heads := rest.map (Equation.reduced above j)
    let i := pivotIndex heads
    let pivot := heads.getD i 0
    if pivot == 0 then .error .singular
    else match choose i pivot rest heads with
      | none => .ok (pivots, columns)
      | some (chosen, head, others) =>
        triangular n (pivots ++ [chosen]) others ((above ++ [head]) :: columns)

/-- Solve a triangular system, given by its columns from the last to the first. -/
def backSubstitute : Mat α → Vec α → Vec α
  | [], _ => []
  | column :: columns, right =>
    let n := columns.length
    let x := right.getD n 0 / column.getD n 0
    backSubstitute columns (List.zipWith (fun y u => y - u * x) (right.take n) column) ++ [x]

def solve (a : Mat α) (b : Vec α) : Except Fault (Vec α) := do
  let rows := List.zipWith (fun row y => { entries := row, right := y, factors := [] }) a b
  let (pivots, columns) ← triangular a.length [] rows []
  return backSubstitute columns (collect Equation.reducedRight pivots)

end Mat

end Downhill
