import Downhill.Fault
import Downhill.Sampling.Congruential
import Downhill.Sampling.Permuted

/-!
# Generators

The two sources of random indices that a sampler can be given.
-/

namespace Downhill

inductive Generator
  | congruential (g : Congruential)
  | permuted (g : Permuted)
  deriving DecidableEq, Repr

namespace Generator

/-- The generator of a seed, which must not be negative. -/
def ofSeed (seed : Int) : Except Fault Generator :=
  if seed < 0 then .error .negativeSeed else .ok (permuted (Permuted.ofSeed seed.toNat))

def admits (bound : Nat) : Generator → Bool
  | congruential g => IndexSource.admits bound g
  | permuted g => IndexSource.admits bound g

def below (n : Nat) : Generator → Nat × Generator
  | congruential g => (IndexSource.below n g).map id congruential
  | permuted g => (IndexSource.below n g).map id permuted

def shuffle (n : Nat) : Generator → List Nat × Generator
  | congruential g => (IndexSource.shuffle n g).map id congruential
  | permuted g => (IndexSource.shuffle n g).map id permuted

instance : IndexSource Generator where
  admits := admits
  below := below
  shuffle := shuffle

instance : LawfulIndexSource Generator where
  shuffle_perm n g := match g with
    | congruential g => LawfulIndexSource.shuffle_perm n g
    | permuted g => LawfulIndexSource.shuffle_perm n g

end Generator

end Downhill
