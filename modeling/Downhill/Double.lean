/-!
# The fields of a double

A double is stored as a sign, a biased exponent of eleven bits and a fraction of
52 bits.
-/

namespace Downhill
namespace Double

/-- The distance from one to the next double, `2 ^ (-52)`. -/
def epsilon : Float := 2.220446049250313080847263336181640625e-16

/-- The low 52 bits. -/
def fraction (x : Float) : Nat := x.toBits.toNat % 0x10000000000000

/-- The eleven bits above them.  Zero stands for the numbers below the normal
range, all ones for what is not finite. -/
def exponentField (x : Float) : Nat := (x.toBits.toNat >>> 52) % 0x800

def isNegative (x : Float) : Bool := x.toBits.toNat >>> 63 = 1

/-- The integer `m` of the absolute value `m · 2 ^ e`. -/
def mantissa (x : Float) : Nat :=
  if exponentField x = 0 then fraction x else fraction x + 0x10000000000000

/-- The number of the binade of the mantissa's unit, counted from one: the
exponent `e` of `m · 2 ^ e` is this number less 1075. -/
def unitBinade (x : Float) : Nat := max (exponentField x) 1

/-- The exponent of the leading bit.  An infinity lies one binade above the
largest finite double. -/
def binade (x : Float) : Int :=
  if exponentField x = 0 then ((fraction x).log2 : Int) - 1074
  else (exponentField x : Int) - 1023

end Double
end Downhill
