import Downhill.Vec

/-!
# Objectives and their evaluation

An objective is a function to be minimised together with its gradient.  Either
may fail at a point.

Methods do not call an objective directly: they put requests to it, and the
requests are kept in a journal.  A request is entered before it is answered, so
the journal of a failed computation ends with the request that failed.
-/

namespace Downhill

/-- A function of a point and its gradient. -/
structure Objective (α : Type) where
  value : Vec α → Except Fault α
  gradient : Vec α → Except Fault (Vec α)

inductive Request (α : Type)
  | value (point : Vec α)
  | gradient (point : Vec α)

namespace Request

variable {α : Type}

def point : Request α → Vec α
  | value p => p
  | gradient p => p

def isValue : Request α → Bool
  | value _ => true
  | gradient _ => false

end Request

/-- The requests made so far, the latest first. -/
abbrev Journal (α : Type) := List (Request α)

/-- A computation that puts requests to an objective and may fail.  The journal
outlives the failure. -/
abbrev EvalM (α : Type) := ExceptT Fault (StateM (Journal α))

namespace EvalM

variable {α β : Type}

def answer (result : Except Fault β) : EvalM α β := ExceptT.mk (pure result)

/-- The answer of a computation and the requests it made, the latest first. -/
def journaled (m : EvalM α β) : Except Fault β × Journal α := (ExceptT.run m).run []

@[simp] theorem journaled_answer (result : Except Fault β) :
    (answer result : EvalM α β).journaled = (result, []) := rfl

end EvalM

structure Tally where
  values : Nat
  gradients : Nat
  deriving DecidableEq, Repr

namespace Tally

def zero : Tally := ⟨0, 0⟩

def add (a b : Tally) : Tally := ⟨a.values + b.values, a.gradients + b.gradients⟩

def ofJournal {α : Type} (journal : Journal α) : Tally :=
  ⟨journal.countP (·.isValue), journal.countP (!·.isValue)⟩

end Tally

namespace Tally

variable {α : Type}

@[simp] theorem ofJournal_nil : ofJournal ([] : Journal α) = zero := rfl

theorem ofJournal_append (later earlier : Journal α) :
    ofJournal (later ++ earlier) = (ofJournal earlier).add (ofJournal later) := by
  simp only [ofJournal, add, List.countP_append, Nat.add_comm]

end Tally

namespace Objective

variable {α : Type}

def askValue (f : Objective α) (p : Vec α) : EvalM α α := do
  modify (Request.value p :: ·)
  EvalM.answer (f.value p)

def askGradient (f : Objective α) (p : Vec α) : EvalM α (Vec α) := do
  modify (Request.gradient p :: ·)
  EvalM.answer (f.gradient p)

/-- A request is entered whether or not it has an answer. -/
@[simp] theorem journaled_askValue (f : Objective α) (p : Vec α) :
    (f.askValue p).journaled = (f.value p, [.value p]) := rfl

@[simp] theorem journaled_askGradient (f : Objective α) (p : Vec α) :
    (f.askGradient p).journaled = (f.gradient p, [.gradient p]) := rfl

def askSlope [Scalar α] (f : Objective α) (p d : Vec α) : EvalM α α := do
  let g ← f.askGradient p
  EvalM.answer (Vec.dot g d)

end Objective

end Downhill
