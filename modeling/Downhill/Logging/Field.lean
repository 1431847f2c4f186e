import Downhill.Text.Decimal
import Downhill.Text.Quoted

/-!
# Fields of log formats

A field of a format takes a value and shows it: a text, a whole number, or a
symbol that only has a name.  Flags, a width and a precision say how, and a
letter says as what.
-/

namespace Downhill
namespace Logging

/-- What a record has to offer for a field. -/
inductive Value
  | text (s : String)
  | number (n : Int)
  /-- Something that is shown by its name, whether it is quoted or not. -/
  | symbol (shown : String)
  deriving DecidableEq, Repr

structure Flags where
  leftAligned : Bool
  /-- Numbers that are not negative have a plus sign. -/
  plus : Bool
  /-- Numbers that are not negative have a blank in place of a sign. -/
  blank : Bool
  /-- The base of a number is shown, and its decimal point in any case. -/
  alternate : Bool
  /-- Numbers are filled up with zeros. -/
  zeroFilled : Bool
  deriving DecidableEq, Repr

namespace Flags

def ofLetters (letters : List Char) : Flags where
  leftAligned := letters.contains '-'
  plus := letters.contains '+'
  blank := letters.contains ' '
  alternate := letters.contains '#'
  zeroFilled := letters.contains '0'

end Flags

/-- How a value is to be shown, with the width and the precision already known. -/
structure Style where
  flags : Flags
  width : Nat
  precision : Option Nat
  deriving DecidableEq, Repr

namespace Style

/-- Letters filled up with blanks to the width. -/
def pad (s : Style) (shown : List Char) : List Char :=
  let blanks := List.replicate (s.width - shown.length) ' '
  if s.flags.leftAligned then shown ++ blanks else blanks ++ shown

theorem length_pad (s : Style) (shown : List Char) :
    (s.pad shown).length = max s.width shown.length := by
  unfold pad
  split <;> simp <;> omega

def showText (s : Style) (text : String) : List Char :=
  s.pad (match s.precision with
    | none => text.toList
    | some limit => text.toList.take limit)

/-- A number with its sign, the mark of its base and its digits.  Zeros stand
between the mark and the digits. -/
def showNumber (s : Style) (negative : Bool) (mark digits : List Char) : List Char :=
  let sign :=
    if negative then ['-'] else if s.flags.plus then ['+'] else if s.flags.blank then [' '] else []
  if s.flags.zeroFilled && !s.flags.leftAligned then
    let zeros := s.width - (sign.length + mark.length + digits.length)
    sign ++ mark ++ List.replicate zeros '0' ++ digits
  else s.pad (sign ++ mark ++ digits)

/-- A whole number in a base.  The precision is the least number of digits. -/
def showInteger (s : Style) (base : Nat) (mark : List Char) (n : Int) : List Char :=
  let digits := Nat.toDigits base n.natAbs
  let zeros := List.replicate (s.precision.getD 0 - digits.length) '0'
  s.showNumber (n < 0) (if s.flags.alternate then mark else []) (zeros ++ digits)

/-- A whole number as a decimal fraction, with six digits unless the precision
says otherwise.  It has to be in the range of doubles. -/
def showFraction (s : Style) (form : Text.Form) (n : Int) : Option (List Char) :=
  let x := Float.ofInt n
  if x.isFinite then
    let render := form.digits s.flags.alternate (s.precision.getD 6)
    some (s.showNumber (n < 0) [] (Text.unsigned render x))
  else none

/-- A single character, given by itself or by its number. -/
def showCharacter (s : Style) : Value → Option (List Char)
  | .text t => match t.toList with
    | [c] => some (s.pad [c])
    | _ => none
  | .number n =>
    if 0 ≤ n ∧ n.toNat.isValidChar then some (s.pad [Char.ofNat n.toNat]) else none
  | .symbol _ => none

def plain : Value → String
  | .text t => t
  | .number n => toString n
  | .symbol shown => shown

def quoted (quote : String → String) : Value → String
  | .text t => quote t
  | value => plain value

def whole : Value → Option Int
  | .number n => some n
  | _ => none

def upper (letters : List Char) : List Char := letters.map Char.toUpper

/-- A value as the letter of the field asks for it.  There is nothing to show if
the letter is unknown or does not suit the value. -/
def show? (s : Style) (letter : Char) (value : Value) : Option (List Char) :=
  match letter with
  | 's' => some (s.showText (plain value))
  | 'r' => some (s.showText (quoted Text.quote value))
  | 'a' => some (s.showText (quoted Text.quotePlain value))
  | 'c' => s.showCharacter value
  | 'd' | 'i' | 'u' => (whole value).map (s.showInteger 10 [])
  | 'o' => (whole value).map (s.showInteger 8 ['0', 'o'])
  | 'x' => (whole value).map (s.showInteger 16 ['0', 'x'])
  | 'X' => (whole value).map fun n => upper (s.showInteger 16 ['0', 'x'] n)
  | 'e' => (whole value).bind (s.showFraction .exponential)
  | 'f' | 'F' => (whole value).bind (s.showFraction .positional)
  | 'g' => (whole value).bind (s.showFraction .general)
  | 'E' => ((whole value).bind (s.showFraction .exponential)).map upper
  | 'G' => ((whole value).bind (s.showFraction .general)).map upper
  | _ => none

end Style

end Logging
end Downhill
