import Mathlib.Data.Nat.Cast.Defs

/-!
# Numerals

A numeral of the reals carries a proof that it is at least two.  With names for these proofs
a numeral is one term wherever a definition uses it.
-/

namespace Downhill

instance atLeastTwo_two : Nat.AtLeastTwo 2 := inferInstance

instance atLeastTwo_three : Nat.AtLeastTwo 3 := inferInstance

instance atLeastTwo_four : Nat.AtLeastTwo 4 := inferInstance

instance atLeastTwo_eight : Nat.AtLeastTwo 8 := inferInstance

end Downhill
