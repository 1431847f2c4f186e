import Downhill.Text.Printable

/-!
# Quoted names

How a name is shown inside a message: between quotation marks, and with the
characters that cannot be shown as they are written as escapes.
-/

namespace Downhill
namespace Text

def hexDigits (width code : Nat) : List Char :=
  let digits := Nat.toDigits 16 code
  List.replicate (width - digits.length) '0' ++ digits

/-- A code point in the shortest of the three forms with two, four and eight
digits. -/
def codeEscape (code : Nat) : List Char :=
  if code < 0x100 then '\\' :: 'x' :: hexDigits 2 code
  else if code < 0x10000 then '\\' :: 'u' :: hexDigits 4 code
  else '\\' :: 'U' :: hexDigits 8 code

def escape (shows : Char → Bool) (mark : Char) (c : Char) : List Char :=
  if c = mark ∨ c = '\\' then ['\\', c]
  else if c = '\n' then ['\\', 'n']
  else if c = '\t' then ['\\', 't']
  else if c = '\r' then ['\\', 'r']
  else if shows c then [c]
  else codeEscape c.toNat

theorem escape_of_shows {shows : Char → Bool} {mark c : Char} (h : shows c = true)
    (hc : c ∉ [mark, '\\', '\n', '\t', '\r']) : escape shows mark c = [c] := by
  simp only [List.mem_cons, List.not_mem_nil, or_false, not_or] at hc
  obtain ⟨h1, h2, h3, h4, h5⟩ := hc
  simp [escape, h, h1, h2, h3, h4, h5]

/-- A name between apostrophes, or between double quotes if it holds an
apostrophe and no double quote. -/
def quoteBy (shows : Char → Bool) (name : String) : String :=
  let mark := if name.toList.contains '\'' && !name.toList.contains '"' then '"' else '\''
  String.ofList (mark :: name.toList.flatMap (escape shows mark) ++ [mark])

/-- A quoted name in which all printable characters stand for themselves. -/
def quote (name : String) : String := quoteBy isPrintable name

/-- A quoted name in which only printable characters below 128 stand for
themselves. -/
def quotePlain (name : String) : String :=
  quoteBy (fun c => isPrintable c && c.toNat < 128) name

end Text
end Downhill
