import Downhill.Box

/-!
# Loop settings

The settings that every solver loop has: its limit, when an unchanging point
ends it, the box, and a stopping rule of the caller's own.  A draft holds them as
they are asked for; validated settings are in range.
-/

namespace Downhill

/-- A stopping rule on the current point. -/
abbrev Predicate (α : Type) := Vec α → Except Fault Bool

inductive PredicateDraft (α : Type)
  | absent
  | rule (predicate : Predicate α)
  | notCallable

/-- Loop settings before they are checked. -/
structure LoopDraft (α : Type) [Scalar α] where
  maxIterations : Int := 10000
  pointTolerance : α := 1e-10
  pointPatience : Int := 1
  checksPoint : Bool := true
  lower : Option (Nested α) := none
  upper : Option (Nested α) := none
  predicate : PredicateDraft α := .absent
  logEvery : Int := 0

structure LoopSettings (α : Type) where
  /-- The limit on iterations. -/
  maxIterations : Nat
  /-- A change of the point up to this is no change. -/
  pointTolerance : α
  /-- So many iterations in a row without change end the loop. -/
  pointPatience : Nat
  checksPoint : Bool
  box : Box α
  predicate : Option (Predicate α)
  /-- Progress is reported every so many iterations, or never if zero. -/
  logEvery : Nat

namespace PredicateDraft

variable {α : Type}

def validate : PredicateDraft α → Except Fault (Option (Predicate α))
  | absent => .ok none
  | rule predicate => .ok (some predicate)
  | notCallable => .error (.invalid .predicateNotCallable)

end PredicateDraft

namespace LoopDraft

variable {α : Type} [Scalar α]

def validate (d : LoopDraft α) : Except Fault (LoopSettings α) := do
  Fault.refuse (d.maxIterations < 0) (.negative "maximum_iterations")
  Fault.refuse (d.pointTolerance < 0) (.negative "point_change_tolerance")
  Fault.refuse (d.pointPatience < 1) (.belowOne "maximum_iterations_with_no_point_change")
  Fault.refuse (d.logEvery < 0) (.negative "log_every")
  let predicate ← d.predicate.validate
  let box ← Box.ofBounds d.lower d.upper
  return {
    maxIterations := d.maxIterations.toNat
    pointTolerance := d.pointTolerance
    pointPatience := d.pointPatience.toNat
    checksPoint := d.checksPoint
    box
    predicate
    logEvery := d.logEvery.toNat }

end LoopDraft

namespace LoopSettings

def reports {α : Type} (s : LoopSettings α) (iteration : Nat) : Bool :=
  s.logEvery ≠ 0 && iteration % s.logEvery = 0

end LoopSettings

end Downhill
