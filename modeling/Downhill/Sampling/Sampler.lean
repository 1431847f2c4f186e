import Downhill.Fault
import Downhill.Sampling.Source
import Downhill.Storage

/-!
# Mini-batch sampler

Draws the example indices of a mini-batch.  With replacement every index is an
independent draw.  Without replacement the batches run through an arrangement of
all indices, and a new arrangement follows when one is used up, so that every
index comes up once per pass.  A batch that would hold every index needs no
draw.
-/

namespace Downhill

/-- A sampler of indices below `size`. -/
structure Sampler (G : Type) where
  size : Nat
  withReplacement : Bool
  source : G
  /-- The indices of the current pass that have not been handed out. -/
  remaining : List Nat

namespace Sampler

variable {G : Type}

def make (size : Nat) (withReplacement : Bool) (source : G) : Except Fault (Sampler G) :=
  if size = 0 then .error (.invalid .exampleCount)
  else .ok { size, withReplacement, source, remaining := [] }

def reset (s : Sampler G) : Sampler G := { s with remaining := [] }

/-- Choose how batches are drawn, and start a new pass. -/
def setReplacement (s : Sampler G) (withReplacement : Bool) : Sampler G :=
  { s with withReplacement }.reset

def setSource (s : Sampler G) (source : G) : Sampler G := { s with source }.reset

variable [IndexSource G]

/-- The next indices of the pass.  A batch that runs over its end takes what is
left and goes on with a new arrangement. -/
def continuePass (s : Sampler G) (batch : Nat) : List Nat × Sampler G :=
  if batch ≤ s.remaining.length then
    (s.remaining.take batch, { s with remaining := s.remaining.drop batch })
  else
    let (order, source) := IndexSource.shuffle s.size s.source
    let missing := batch - s.remaining.length
    (s.remaining ++ order.take missing, { s with source, remaining := order.drop missing })

def draw (s : Sampler G) (batch : Nat) : Except Fault (List Nat × Sampler G) :=
  if batch = 0 then .error (.invalid .batchSize)
  else if s.withReplacement then
    if IndexSource.admits s.size s.source then do
      Storage.reserve batch
      let (indices, source) := IndexSource.indices s.size batch s.source
      return (indices, { s with source })
    else .error .tooManyIndices
  else if s.size ≤ batch then .ok (List.range s.size, s)
  else .ok (s.continuePass batch)

/-- The indices of a batch, for a sampler of any size.  Without replacement there has
to be room for all its indices. -/
def request (s : Sampler G) (batch : Nat) : Except Fault (List Nat × Sampler G) := do
  if batch ≠ 0 ∧ s.withReplacement = false then Storage.reserve s.size
  s.draw batch

theorem request_eq_draw {s : Sampler G} (h : s.size < Storage.room) (batch : Nat) :
    s.request batch = s.draw batch := by
  have room := Storage.reserve_eq_ok_iff.2 h
  unfold request
  split
  · rw [room]
    rfl
  · rfl

end Sampler

end Downhill
