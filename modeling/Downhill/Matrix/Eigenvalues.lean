import Downhill.Matrix.Tridiagonal

/-!
# Eigenvalues

The eigenvalues of a symmetric matrix, from its tridiagonal form.  A tridiagonal
matrix falls into blocks where an entry beside the diagonal is negligible.  Inside
a block only the squares of these entries count.  Sweeps with a shift make the
first of them negligible, and the diagonal entry before it is then an eigenvalue;
two rows have their eigenvalues in closed form.  The number of sweeps is limited,
and there is no answer if they do not suffice.
-/

namespace Downhill

namespace Tridiagonal

variable {α : Type} [Scalar α]

/-- Half the spacing of doubles at one. -/
def roundoff : α := 1.1102230246251565e-16

/-- Whether an entry beside the diagonal is too small to matter next to the
diagonal entries before and after it. -/
def negligible (before beside after : α) : Bool :=
  decide (Scalar.abs beside ≤
    Scalar.sqrt (Scalar.abs before) * Scalar.sqrt (Scalar.abs after) * roundoff)

def negligibleSquare (before square after : α) : Bool :=
  decide (Scalar.abs square ≤ roundoff * roundoff * Scalar.abs (before * after))

/-- The links before the first that passes a test, and the others.  The first of
those is cut. -/
def split (test : α → α → α → Bool) : α → List (α × α) → List (α × α) × List (α × α)
  | _, [] => ([], [])
  | before, (beside, after) :: links =>
    if test before beside after then ([], (0, after) :: links)
    else
      let (front, back) := split test after links
      ((beside, after) :: front, back)

theorem length_split (test : α → α → α → Bool) (before : α) (links : List (α × α)) :
    (split test before links).1.length + (split test before links).2.length = links.length := by
  induction links generalizing before with
  | nil => rfl
  | cons link links ih =>
    unfold split
    split
    · simp
    · simp only [List.length_cons]
      have := ih link.2
      omega

/-- The eigenvalues of the symmetric matrix with rows `a, b` and `b, c`.  The one
that is greater in absolute value comes first, and the other is their product, the
determinant, divided by it. -/
def pairEigenvalues (a b c : α) : α × α :=
  let sum := a + c
  let (large, small) := if Scalar.abs c < Scalar.abs a then (a, c) else (c, a)
  let root := Scalar.hypotenuse (a - c) (b + b)
  if sum < 0 then byDeterminant large small (0.5 * (sum - root))
  else if 0 < sum then byDeterminant large small (0.5 * (sum + root))
  else (0.5 * root, -0.5 * root)
where
  byDeterminant (large small first : α) : α × α :=
    (first, large / first * small - b / first * b)

/-! ## Sweeps -/

/-- The shift of a sweep: an eigenvalue of the first two rows. -/
def shift (first square second : α) : α :=
  let beside := Scalar.sqrt square
  let half := (second - first) / (2.0 * beside)
  let root := Scalar.hypotenuse half 1
  first - beside / (half + if half < 0 then -root else root)

structure Sweep (α : Type) where
  cosine : α
  sine : α
  gamma : α
  product : α
  /-- The new squares, one too many at the end. -/
  squares : List α
  entries : List α

def Sweep.pass (shift entry square : α) (s : Sweep α) : Sweep α :=
  let whole := s.product + square
  let cosine := s.product / whole
  let sine := square / whole
  let gamma := cosine * (entry - shift) - sine * s.gamma
  { cosine, sine, gamma
    product := if cosine == 0 then s.cosine * square else gamma * gamma / cosine
    squares := (s.sine * whole) :: s.squares
    entries := (s.gamma + (entry - gamma)) :: s.entries }

def sweep (t : Tridiagonal α) : Tridiagonal α :=
  match t.links with
  | [] => t
  | (square, second) :: _ =>
    let shift := shift t.first square second
    let gamma := t.diagonal.getLastD 0 - shift
    let start : Sweep α := ⟨1, 0, gamma, gamma * gamma, [], []⟩
    let done := (List.zip t.diagonal (t.links.map (·.1))).foldr
      (fun (entry, square) => Sweep.pass shift entry square) start
    ⟨shift + done.gamma, List.zip (done.sine * done.product :: done.squares) done.entries⟩

/-- Sweep until a block at the front has at most two rows.  The answer holds the
sweeps that are left, the front and the links after it. -/
def settle : Nat → Tridiagonal α → Option (Nat × Tridiagonal α × List (α × α))
  | sweeps, t =>
    let (front, back) := split negligibleSquare t.first t.links
    if front.length ≤ 1 then some (sweeps, ⟨t.first, front⟩, back)
    else match sweeps with
      | 0 => none
      | sweeps + 1 =>
        let front := sweep ⟨t.first, front⟩
        settle sweeps ⟨front.first, front.links ++ back⟩

/-- The eigenvalues of a block with squares beside its diagonal, and the sweeps that
are left.  The first number limits the count of fronts. -/
def blockEigenvalues : Nat → Nat → Tridiagonal α → Option (List α × Nat)
  | 0, sweeps, t => some (t.diagonal, sweeps)
  | n + 1, sweeps, t => do
    let (sweeps, front, back) ← settle sweeps t
    let found := match front.links with
      | [] => [front.first]
      | (square, second) :: _ =>
        let (a, b) := pairEigenvalues front.first (Scalar.sqrt square) second
        [a, b]
    match back with
    | [] => return (found, sweeps)
    | (_, entry) :: links =>
      let (others, sweeps) ← blockEigenvalues n sweeps ⟨entry, links⟩
      return (found ++ others, sweeps)

/-- A block whose entries are all below this bound is enlarged. -/
def smallBlock : α := 1 / (Nat.pow 2 405 : α)

/-- The eigenvalues of a block, and the sweeps that are left.  The squares are taken
here, and the end with the smaller entry becomes the first. -/
def solveBlock (sweeps : Nat) (t : Tridiagonal α) : Option (List α × Nat) :=
  match t.links with
  | [] => some ([t.first], sweeps)
  | _ =>
    let size := Scalar.maximum (Vec.greatest t.diagonal) (Vec.greatest (t.links.map (·.1)))
    let (enlarge, reduce) :=
      if size < smallBlock then (smallBlock / size, size / smallBlock) else (1, 1)
    let square (x : α) : α := x * enlarge * (x * enlarge)
    let block : Tridiagonal α := ⟨t.first * enlarge,
      t.links.map fun (beside, entry) => (square beside, entry * enlarge)⟩
    let block :=
      if Scalar.abs (block.diagonal.getLastD 0) < Scalar.abs block.first then block.reverse
      else block
    (blockEigenvalues block.diagonal.length sweeps block).map fun (found, sweeps) =>
      (found.map (· * reduce), sweeps)

/-- The eigenvalues of a tridiagonal matrix, block after block.  The first number
limits the count of blocks. -/
def eigenvalues : Nat → Nat → Tridiagonal α → Except Fault (List α)
  | 0, _, t => .ok t.diagonal
  | n + 1, sweeps, t => do
    let (front, back) := split negligible t.first t.links
    let (found, sweeps) ← Fault.orElse .noConvergence (solveBlock sweeps ⟨t.first, front⟩)
    match back with
    | [] => return found
    | (_, entry) :: links =>
      let others ←
        if sweeps = 0 then
          if links.all (·.1 == 0) then .ok (entry :: links.map (·.2)) else .error .noConvergence
        else eigenvalues n sweeps ⟨entry, links⟩
      return found ++ others

end Tridiagonal

namespace Mat

variable {α : Type} [Scalar α]

def sweepsPerRow : Nat := 30

def smallMatrix : α := 1 / (Nat.pow 2 485 : α)

def largeMatrix : α := (Nat.pow 2 485 : α)

/-- The factor that brings a matrix with the given greatest entry into range. -/
def rangeFactor (size : α) : α :=
  if 0 < size ∧ size < smallMatrix then smallMatrix / size
  else if largeMatrix < size then largeMatrix / size
  else 1

/-- The eigenvalues of the symmetric matrix with the lower triangle of the given
one, in no particular order. -/
def eigenvalues (a : Mat α) : Except Fault (List α) :=
  let n := a.length
  if n ≤ 1 then .ok (a.map (·.headD 0))
  else do
    let columns := a.lowerColumns
    let factor := rangeFactor (columns.foldl (fun m c => Scalar.maximum m (Vec.greatest c)) 0)
    let t := tridiagonal (n - 1) (columns.map (·.map (· * factor)))
    let found ← t.eigenvalues n (sweepsPerRow * n)
    return found.map (· * (1 / factor))

end Mat

end Downhill
