import Downhill.Double

/-!
# Decimal text of doubles

A finite double is an integer times a power of two, so its decimal digits can be
rounded exactly, in natural number arithmetic.  Exponential form has one digit
before the point and a fixed number after it; positional form has a fixed number
after the point; general form has a fixed number of significant digits and
chooses between the two.
-/

namespace Downhill
namespace Text

/-- The quotient rounded to the nearest natural number, a half to the even one. -/
def roundHalfEven (num den : Nat) : Nat :=
  let q := num / den
  let r := num % den
  if 2 * r < den then q
  else if 2 * r > den then q + 1
  else if q % 2 = 0 then q else q + 1

/-- The absolute value of a finite double as a quotient of natural numbers. -/
def magnitude (x : Float) : Nat × Nat :=
  let unit := Double.unitBinade x
  if 1075 ≤ unit then (Double.mantissa x <<< (unit - 1075), 1)
  else (Double.mantissa x, 1 <<< (1075 - unit))

def tenTo (n : Nat) : Nat := Nat.pow 10 n

def digitCount (n : Nat) : Nat := (Nat.toDigits 10 n).length

/-- A quotient times a power of ten, as a quotient. -/
def scaled (num den : Nat) (power : Int) : Nat × Nat :=
  if power ≥ 0 then (num * tenTo power.toNat, den) else (num, den * tenTo (-power).toNat)

def scaledRound (num den : Nat) (power : Int) : Nat :=
  let (num, den) := scaled num den power
  roundHalfEven num den

/-- The exponent of the leading digit of a positive quotient.  The digit counts
of numerator and denominator leave two candidates. -/
def leadingExponent (num den : Nat) : Int :=
  let guess : Int := (digitCount num : Int) - (digitCount den : Int)
  let reached :=
    if guess ≥ 0 then num ≥ den * tenTo guess.toNat else num * tenTo (-guess).toNat ≥ den
  if reached then guess else guess - 1

/-- A quotient rounded to one leading digit and `places` further ones: all the
digits as one number, and the exponent of the leading one. -/
def scientific (places : Nat) (num den : Nat) : Nat × Int :=
  if num = 0 then (0, 0)
  else
    let exponent := leadingExponent num den
    let digits := scaledRound num den (places - exponent)
    if tenTo (places + 1) ≤ digits then (tenTo places, exponent + 1) else (digits, exponent)

def padded (width n : Nat) : List Char :=
  let digits := Nat.toDigits 10 n
  List.replicate (width - digits.length) '0' ++ digits

def exponentText (exponent : Int) : List Char :=
  (if exponent < 0 then '-' else '+') :: padded 2 exponent.natAbs

/-- A decimal point after the first `whole` digits.  A point that no digit
follows is written only if it is to be kept. -/
def withPoint (keeps : Bool) (whole : Nat) (digits : List Char) : List Char :=
  if digits.length ≤ whole ∧ keeps = false then digits
  else digits.take whole ++ '.' :: digits.drop whole

def dropTrailingZeros (digits : List Char) : List Char :=
  (digits.reverse.dropWhile (· = '0')).reverse

/-- The digits of a number with the given exponent of the leading one, in
positional form. -/
def positionalDigits (keeps : Bool) (digits : List Char) (exponent : Int) : List Char :=
  if exponent < 0 then '0' :: '.' :: List.replicate (exponent.natAbs - 1) '0' ++ digits
  else
    let whole := exponent.toNat + 1
    withPoint keeps whole (digits ++ List.replicate (whole - digits.length) '0')

inductive Form
  | exponential
  | positional
  | general
  deriving DecidableEq, Repr

namespace Form

def exponentialDigits (keeps : Bool) (places num den : Nat) : List Char :=
  let (digits, exponent) := scientific places num den
  withPoint keeps 1 (padded (places + 1) digits) ++ 'e' :: exponentText exponent

/-- A quotient with the given number of significant digits, of which there is at
least one: positional for exponents from -4 up to the number of digits,
exponential otherwise.  Trailing zeros are written only if they are to be kept. -/
def generalDigits (keeps : Bool) (precision num den : Nat) : List Char :=
  let precision := max precision 1
  let (digits, exponent) := scientific (precision - 1) num den
  let shown := padded precision digits
  let shown := if keeps then shown else dropTrailingZeros shown
  if digits = 0 ∧ keeps = false then ['0']
  else if exponent < -4 ∨ exponent ≥ precision then
    withPoint keeps 1 shown ++ 'e' :: exponentText exponent
  else positionalDigits keeps shown exponent

/-- A quotient in a form.  `keeps` says that neither a point nor zeros at the end
are left out. -/
def digits (form : Form) (keeps : Bool) (precision num den : Nat) : List Char :=
  match form with
  | exponential => exponentialDigits keeps precision num den
  | positional =>
    let digits := padded (precision + 1) (scaledRound num den precision)
    withPoint keeps (digits.length - precision) digits
  | general => generalDigits keeps precision num den

end Form

/-- The text of a value that is not finite, or of a finite one by the given
rendering of its absolute value. -/
def unsigned (render : Nat → Nat → List Char) (x : Float) : List Char :=
  if x.isNaN then "nan".toList
  else if x.isInf then "inf".toList
  else render (magnitude x).1 (magnitude x).2

def signed (render : Nat → Nat → List Char) (x : Float) : String :=
  let body := unsigned render x
  String.ofList (if Double.isNegative x && !x.isNaN then '-' :: body else body)

def exponential (places : Nat) : Float → String := signed (Form.exponential.digits false places)

/-- General form with six significant digits and without trailing zeros. -/
def general : Float → String := signed (Form.general.digits false 6)

def aligned (width n : Nat) : String :=
  let digits := Nat.toDigits 10 n
  String.ofList (List.replicate (width - digits.length) ' ' ++ digits)

end Text
end Downhill
