/-!
# Runs

A set of numbers written as runs: how many numbers are outside, how many then are
inside, and so on by turns.  Properties of characters are kept in this form.
-/

namespace Downhill
namespace Text

/-- Whether a number is inside.  After the last run everything is outside. -/
def inRuns : List Nat → Nat → Bool
  | outside :: inside :: rest, n =>
    if n < outside then false
    else if n < outside + inside then true
    else inRuns rest (n - (outside + inside))
  | _, _ => false

def runsSize : List Nat → Nat
  | _ :: inside :: rest => inside + runsSize rest
  | _ => 0

@[simp] theorem inRuns_nil (n : Nat) : inRuns [] n = false := rfl

theorem inRuns_of_lt {outside inside n : Nat} (rest : List Nat) (h : n < inside) :
    inRuns (outside :: inside :: rest) (outside + n) = true := by
  have h1 : ¬outside + n < outside := by omega
  have h2 : outside + n < outside + inside := by omega
  simp [inRuns, h1, h2]

theorem inRuns_add (outside inside n : Nat) (rest : List Nat) :
    inRuns (outside :: inside :: rest) (outside + inside + n) = inRuns rest n := by
  have h1 : ¬outside + inside + n < outside := by omega
  have h2 : ¬outside + inside + n < outside + inside := by omega
  have h3 : outside + inside + n - (outside + inside) = n := by omega
  simp [inRuns, h1, h2, h3]

end Text
end Downhill
