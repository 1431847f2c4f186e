/-!
# Index sources

Where random indices come from.  A source answers two questions: an index below
a bound, and an arrangement of all indices below a bound.
-/

namespace Downhill

/-- A source of random indices with its own state. -/
class IndexSource (G : Type) where
  /-- Whether indices below the bound can be drawn. -/
  admits : (bound : Nat) → G → Bool := fun _ _ => true
  /-- An index below the bound. -/
  below : Nat → G → Nat × G
  /-- The indices below the bound, each once, in random order. -/
  shuffle : Nat → G → List Nat × G

namespace IndexSource

/-- Exchange each position, from the last down to the second, with one at or
before it.  `pick i` chooses a position from `0` to `i`. -/
def exchange {G : Type} (pick : Nat → G → Nat × G) : Nat → Array Nat → G → Array Nat × G
  | 0, items, g => (items, g)
  | i + 1, items, g =>
    let (j, g) := pick (i + 1) g
    exchange pick i (items.swapIfInBounds (i + 1) j) g

/-- All indices below `n`, arranged by exchanges. -/
def arrange {G : Type} (pick : Nat → G → Nat × G) (n : Nat) (g : G) : List Nat × G :=
  let (items, g) := exchange pick (n - 1) (Array.range n) g
  (items.toList, g)

theorem exchange_perm {G : Type} (pick : Nat → G → Nat × G) (i : Nat) (items : Array Nat) (g : G) :
    (exchange pick i items g).1.toList.Perm items.toList := by
  induction i generalizing items g with
  | zero => exact List.Perm.refl _
  | succ i ih =>
    refine (ih _ _).trans ?_
    unfold Array.swapIfInBounds
    split
    · split
      · exact (Array.swap_perm _ _).toList
      · exact List.Perm.refl _
    · exact List.Perm.refl _

theorem arrange_perm {G : Type} (pick : Nat → G → Nat × G) (n : Nat) (g : G) :
    (arrange pick n g).1.Perm (List.range n) :=
  (exchange_perm pick (n - 1) (Array.range n) g).trans (.of_eq Array.toList_range)

def indices {G : Type} [IndexSource G] (n : Nat) : Nat → G → List Nat × G
  | 0, g => ([], g)
  | k + 1, g =>
    let (i, g) := below n g
    let (rest, g) := indices n k g
    (i :: rest, g)

@[simp] theorem length_indices {G : Type} [IndexSource G] (n k : Nat) (g : G) :
    (indices n k g).1.length = k := by
  induction k generalizing g with
  | zero => rfl
  | succ k ih => exact congrArg (· + 1) (ih _)

end IndexSource

/-- A source whose arrangements hold every index once. -/
class LawfulIndexSource (G : Type) [IndexSource G] : Prop where
  shuffle_perm : ∀ (n : Nat) (g : G), (IndexSource.shuffle n g).1.Perm (List.range n)

end Downhill
