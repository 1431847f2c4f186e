import Downhill.Matrix

/-!
# Tridiagonal form

A symmetric matrix is brought to tridiagonal form by reflections, one column after
the other.  Each reflection `1 - t v v'` clears a column below its second entry
and is applied to the remaining matrix from both sides, which keeps the
eigenvalues.
-/

namespace Downhill

/-- A symmetric tridiagonal matrix: the first entry of its diagonal, and for each
further row the entry beside the diagonal with the one on it. -/
structure Tridiagonal (α : Type) where
  first : α
  links : List (α × α)

namespace Tridiagonal

variable {α : Type}

def diagonal (t : Tridiagonal α) : List α := t.first :: t.links.map (·.2)

/-- Put a row in front: its entry, and the one that links it to the first row. -/
def push (t : Tridiagonal α) (link : α × α) : Tridiagonal α :=
  ⟨link.2, (link.1, t.first) :: t.links⟩

def reverse (t : Tridiagonal α) : Tridiagonal α := t.links.foldl push ⟨t.first, []⟩

@[simp] theorem diagonal_push (t : Tridiagonal α) (link : α × α) :
    (t.push link).diagonal = link.2 :: t.diagonal := rfl

theorem diagonal_foldl_push (links : List (α × α)) (t : Tridiagonal α) :
    (links.foldl push t).diagonal = (links.map (·.2)).reverse ++ t.diagonal := by
  induction links generalizing t with
  | nil => rfl
  | cons link links ih => rw [List.foldl_cons, ih]; simp

theorem diagonal_reverse (t : Tridiagonal α) : t.reverse.diagonal = t.diagonal.reverse := by
  rw [reverse, diagonal_foldl_push]
  simp [diagonal]

@[simp] theorem length_diagonal (t : Tridiagonal α) :
    t.diagonal.length = t.links.length + 1 := by simp [diagonal]

end Tridiagonal

/-- A reflection `1 - t v v'`, where `v` starts with one. -/
structure Reflection (α : Type) where
  /-- What it makes of the first entry of the vector it was chosen for. -/
  image : α
  factor : α
  tail : Vec α

namespace Reflection

variable {α : Type} [Scalar α]

/-- Below this bound a vector is enlarged before its reflection is chosen. -/
def tiny : α := 1 / (Nat.pow 2 969 : α)

/-- The length of a vector with the sign that its first entry has not. -/
def opposite (first : α) (rest : Vec α) : α :=
  let length := Scalar.hypotenuse first rest.safeNorm
  if first < 0 then length else -length

/-- The reflection that clears all entries but the first, if any is not zero. -/
def clearing? (first : α) (rest : Vec α) : Option (Reflection α) :=
  if rest.safeNorm == 0 then none
  else
    let small := decide (Scalar.abs (opposite first rest) < tiny)
    let enlarge := if small then 1 / tiny else 1
    let first := first * enlarge
    let rest := rest.map (· * enlarge)
    let image := opposite first rest
    let inverse := 1 / (first - image)
    some {
      image := if small then image * tiny else image
      factor := (image - first) / image
      tail := rest.map (· * inverse) }

end Reflection

namespace Mat

variable {α : Type} [Scalar α]

/-- The lower triangle: each column from the diagonal down. -/
def lowerColumns (a : Mat α) : List (Vec α) :=
  let indices := List.range a.length
  indices.map fun j => (indices.drop j).map fun i => a.entry i j

/-- A multiple of the product of a symmetric matrix, given by its lower columns, and
a vector, added to another vector. -/
def addProduct (c : α) : List (Vec α) → (v start : Vec α) → Vec α
  | (entry :: below) :: columns, x :: v, y :: start =>
    let product := Vec.total (List.zipWith (· * ·) below v)
    (y + c * x * entry + c * product) ::
      addProduct c columns v (List.zipWith (fun y a => y + c * x * a) start below)
  | _, _, start => start

/-- The lower columns of the matrix less `v w' + w v'`. -/
def subtractPair : List (Vec α) → (v w : Vec α) → List (Vec α)
  | column :: columns, x :: v, y :: w =>
    List.zipWith (fun a (x', y') => a - x * y' - y * x') column (List.zip (x :: v) (y :: w)) ::
      subtractPair columns v w
  | columns, _, _ => columns

def reflect (columns : List (Vec α)) (r : Reflection α) : List (Vec α) :=
  let v := 1 :: r.tail
  let product := addProduct r.factor columns v (Vec.zeros v.length)
  let correction := -0.5 * r.factor * Vec.total (List.zipWith (· * ·) product v)
  subtractPair columns v (List.zipWith (fun p x => p + correction * x) product v)

/-- The tridiagonal form of a symmetric matrix, given by its lower columns and with
so many of them after the first. -/
def tridiagonal : Nat → List (Vec α) → Tridiagonal α
  | n + 1, (entry :: beside :: below) :: columns =>
    let (beside, columns) := match Reflection.clearing? beside below with
      | none => (beside, columns)
      | some r => (r.image, reflect columns r)
    let rest := tridiagonal n columns
    ⟨entry, (beside, rest.first) :: rest.links⟩
  | _, columns => ⟨(columns.headD []).headD 0, []⟩

end Mat

end Downhill
