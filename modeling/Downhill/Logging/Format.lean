import Downhill.Logging.Field
import Downhill.Text.Word

/-!
# Log formats

A format is text with fields such as `%(name)s`.  Two percent signs stand for
one.

A format is accepted when it has a field of the usual form at all.  Whether it
can be filled in is found out when it is used: a value can be shown once, a
percent sign has to start a field, and anything else spoils the whole line.
-/

namespace Downhill
namespace Logging

inductive Amount
  | absent
  | given (n : Nat)
  /-- A star: the number is taken from the value at hand. -/
  | taken
  deriving DecidableEq, Repr

structure Field where
  /-- The name of the value; a field without a name takes the value at hand. -/
  key : Option String
  flags : Flags
  width : Amount
  precision : Amount
  /-- The letter that ends the field and says how its value is shown. -/
  letter : Char
  deriving DecidableEq, Repr

/-! ## Reading -/

namespace Field

def number (digits : List Char) : Nat :=
  digits.foldl (fun n c => 10 * n + (c.toNat - 48)) 0

/-- The key up to the parenthesis that closes it, and the rest.  `depth` counts
the parentheses that have been opened inside. -/
def splitKey (depth : Nat) : List Char → Option (List Char × List Char)
  | [] => none
  | ')' :: rest => match depth with
    | 0 => some ([], rest)
    | depth + 1 => (splitKey depth rest).map fun (key, rest) => (')' :: key, rest)
  | '(' :: rest => (splitKey (depth + 1) rest).map fun (key, rest) => ('(' :: key, rest)
  | c :: rest => (splitKey depth rest).map fun (key, rest) => (c :: key, rest)

def isFlag (c : Char) : Bool := ['#', '0', '+', ' ', '-'].contains c

def amountLimit : Nat := 0x7fffffff

/-- A width or the number of a precision.  Numbers above the limit are refused. -/
def splitAmount (default : Amount) : List Char → Option (Amount × List Char)
  | '*' :: rest => some (.taken, rest)
  | letters =>
    let digits := letters.takeWhile Char.isDigit
    if digits.isEmpty then some (default, letters)
    else if amountLimit < number digits then none
    else some (.given (number digits), letters.dropWhile Char.isDigit)

/-- A precision: a point, and the number zero if no number follows it. -/
def splitPrecision : List Char → Option (Amount × List Char)
  | '.' :: rest => splitAmount (.given 0) rest
  | letters => some (.absent, letters)

/-- One letter that says how large a number is, which is of no importance. -/
def skipSize : List Char → List Char
  | 'h' :: rest => rest
  | 'l' :: rest => rest
  | 'L' :: rest => rest
  | letters => letters

/-- Read a field whose percent sign has been read, and what follows it. -/
def read? (letters : List Char) : Option (Field × List Char) := do
  let (key, letters) ← match letters with
    | '(' :: rest => (splitKey 0 rest).map fun (key, rest) => (some (String.ofList key), rest)
    | letters => some (none, letters)
  let flags := Flags.ofLetters (letters.takeWhile isFlag)
  let (width, letters) ← splitAmount .absent (letters.dropWhile isFlag)
  let (precision, letters) ← splitPrecision letters
  match skipSize letters with
  | [] => none
  | letter :: rest => some ({ key, flags, width, precision, letter }, rest)

/-! A field of the usual form has a name in letters and digits, and a letter that
says how its value is shown.  Digits and letters of all scripts count, and a case
does not. -/

/-- Letters that may end a field, among them three that have the letters `i` and
`s` for their other case. -/
def usualLetters : List Char := "diouxefgcrsaDIOUXEFGCRSA%\u0130\u0131\u017f".toList

def skipAmount? : List Char → Option (List Char)
  | '*' :: rest => some rest
  | letters =>
    if (letters.head?.map Text.isDecimalDigit).getD false then
      some (letters.dropWhile Text.isDecimalDigit)
    else none

/-- What follows a precision, or nothing if a point has no number after it. -/
def skipPrecision? : List Char → Option (List Char)
  | '.' :: rest => skipAmount? rest
  | letters => some letters

/-- Whether a field of the usual form follows a percent sign. -/
def isUsual : List Char → Bool
  | '(' :: rest =>
    let name := rest.takeWhile Text.isWord
    match rest.dropWhile Text.isWord with
    | ')' :: rest =>
      let letters := rest.dropWhile isFlag
      match skipPrecision? ((skipAmount? letters).getD letters) with
      | some (letter :: _) => !name.isEmpty && usualLetters.contains letter
      | _ => false
    | _ => false
  | _ => false

end Field

inductive Piece
  | letter (c : Char)
  | field (f : Field)
  /-- A percent sign that starts no field. -/
  | stray
  deriving DecidableEq, Repr

abbrev Format := List Piece

namespace Format

def hasField : List Char → Bool
  | [] => false
  | c :: rest => (c = '%' && Field.isUsual rest) || hasField rest

/-- The pieces of a text.  Each piece takes at least one letter. -/
def pieces : Nat → List Char → Format
  | 0, _ => []
  | _ + 1, [] => []
  | left + 1, '%' :: '%' :: rest => .letter '%' :: pieces left rest
  | left + 1, '%' :: rest => match Field.read? rest with
    | some (f, rest) => .field f :: pieces left rest
    | none => [.stray]
  | left + 1, c :: rest => .letter c :: pieces left rest

/-- The format that a text describes.  It has to have a field of the usual form. -/
def parse? (text : String) : Option Format :=
  let letters := text.toList
  if hasField letters then some (pieces letters.length letters) else none

end Format

/-! ## Filling in -/

/-- Computations that may fail and hold a value that can be taken once. -/
abbrev FillM := StateT (Option Value) Option

namespace FillM

def take : FillM Value := do
  let value ← (fun held => held.map fun value => (value, none) : FillM Value)
  return value

end FillM

namespace Amount

def resolve : Amount → FillM (Option Int)
  | absent => return none
  | given n => return some n
  | taken => do
    let value ← FillM.take
    let n ← liftM (Style.whole value)
    if n.natAbs ≤ Field.amountLimit then return some n else failure

end Amount

namespace Field

/-- Fill in a field.  A negative width means that it is aligned to the left. -/
def render (values : String → Option Value) (f : Field) : FillM (List Char) := do
  if let some key := f.key then
    let value ← liftM (values key)
    set (some value)
  let width ← f.width.resolve
  let precision ← f.precision.resolve
  let value ← FillM.take
  let style : Style := {
    flags := { f.flags with leftAligned := f.flags.leftAligned || decide (width.getD 0 < 0) }
    width := (width.getD 0).natAbs
    precision := precision.map Int.toNat }
  liftM (style.show? f.letter value)

end Field

namespace Format

def renderPiece (values : String → Option Value) : Piece → FillM (List Char)
  | .letter c => return [c]
  | .field f => f.render values
  | .stray => failure

/-- The format with its fields filled in, if all of them can be.  The value at hand
at the start is the record as a whole. -/
def render? (format : Format) (whole : Value) (values : String → Option Value) : Option String :=
  ((format.mapM (renderPiece values)).run (some whole)).map fun (shown, _) =>
    String.ofList shown.flatten

def standardText : String := "[%(levelname)s] %(name)s: %(message)s"

def standard : Format := (parse? standardText).getD []

end Format

end Logging
end Downhill
