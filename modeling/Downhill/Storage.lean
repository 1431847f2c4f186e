import Downhill.Fault

/-!
# Storage

How many numbers of eight bytes a list may hold.  What does not fit is refused
before the first of them is made.
-/

namespace Downhill

namespace Storage

/-- The least number of entries whose bytes a signed word of 64 bits cannot count. -/
def countable : Nat := 0x1000000000000000

/-- The least number of entries there is no room for, a tebibyte of them. -/
def room : Nat := 0x2000000000

def reserve (count : Nat) : Except Fault Unit :=
  if countable ≤ count then .error .tooLarge
  else if room ≤ count then .error .outOfMemory
  else .ok ()

@[simp] theorem reserve_eq_ok_iff {count : Nat} : reserve count = .ok () ↔ count < room := by
  unfold reserve countable room
  split
  · simp; omega
  · split
    · simp; omega
    · simp; omega

end Storage

end Downhill
