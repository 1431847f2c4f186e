import Downhill.Sampling.Source

/-!
# Linear congruential generator

A 64-bit affine recurrence whose high bits serve as the random number.  It is
small enough to follow by hand, and so suits recorded runs.
-/

namespace Downhill

structure Congruential where
  state : UInt64
  deriving DecidableEq, Repr

namespace Congruential

def ofSeed (seed : Int) : Congruential := ⟨UInt64.ofNat (seed % 0x10000000000000000).toNat⟩

def next (g : Congruential) : Congruential :=
  ⟨g.state * 6364136223846793005 + 1442695040888963407⟩

/-- The top 31 bits of the next state, reduced to the bound. -/
def draw (bound : Nat) (g : Congruential) : Nat × Congruential :=
  let g := g.next
  ((g.state >>> 33).toNat % bound, g)

instance : IndexSource Congruential where
  below := draw
  shuffle := IndexSource.arrange fun i => draw (i + 1)

instance : LawfulIndexSource Congruential where
  shuffle_perm := IndexSource.arrange_perm _

end Congruential

end Downhill
