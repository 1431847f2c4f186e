import Downhill.Vec

/-!
# Conjugate gradient directions

Directions `d = -g + β d'`, where `d'` is the previous direction.  A formula
gives `β` from the gradient, the previous gradient and the previous direction; a
policy asks for a restart, that is for `d = -g`.  A direction that would not
descend is replaced by a restart as well.
-/

namespace Downhill

inductive BetaFormula
  | fletcherReeves
  | polakRibiere
  | polakRibierePlus
  | hestenesStiefel
  | fletcherReevesPolakRibiere
  | daiYuan
  | hagerZhang
  deriving DecidableEq, Repr

namespace BetaFormula

def all : List (String × BetaFormula) :=
  [("fletcher_reeves", fletcherReeves), ("polak_ribiere", polakRibiere),
    ("polak_ribiere_plus", polakRibierePlus), ("hestenes_stiefel", hestenesStiefel),
    ("fletcher_reeves_polak_ribiere", fletcherReevesPolakRibiere), ("dai_yuan", daiYuan),
    ("hager_zhang", hagerZhang)]

def ofName (name : String) : Except Fault BetaFormula :=
  Fault.named .conjugateMethod all name

def name : BetaFormula → String
  | fletcherReeves => "fletcher_reeves"
  | polakRibiere => "polak_ribiere"
  | polakRibierePlus => "polak_ribiere_plus"
  | hestenesStiefel => "hestenes_stiefel"
  | fletcherReevesPolakRibiere => "fletcher_reeves_polak_ribiere"
  | daiYuan => "dai_yuan"
  | hagerZhang => "hager_zhang"

@[simp] theorem ofName_name (formula : BetaFormula) : ofName formula.name = .ok formula := by
  cases formula <;> rfl

variable {α : Type} [Scalar α]

/-- A quotient, or zero if the denominator carries no information.  Zero turns
the direction into steepest descent. -/
def ratio (numerator denominator : α) : α :=
  if denominator == 0 || !Scalar.isFinite denominator then 0 else numerator / denominator

/-- The constant of the lower bound of Hager and Zhang. -/
def eta : α := 0.01

/-- The formula of Hager and Zhang: its value is kept above a lower bound that
depends on the lengths of the previous direction and gradient. -/
def hagerZhangBeta (g d y : Vec α) (previousSq : α) : Except Fault α := do
  let curvature ← Vec.dot d y
  if curvature == 0 || !Scalar.isFinite curvature then return 0
  let changeSq ← Vec.dot y y
  let corrected ← y.sub (d.map (· * (2.0 * changeSq / curvature)))
  let product ← Vec.dot corrected g
  let beta := product / curvature
  let scale := d.norm * Scalar.smaller eta (Scalar.sqrt previousSq)
  return if 0 < scale then Scalar.larger beta (-1 / scale) else beta

/-- The hybrid of the first two formulas: the second one, kept between the first
one and its negative. -/
def hybrid (first second : α) : α :=
  if second < -first then -first
  else if Scalar.abs second ≤ first then second
  else first

/-- The value of the formula for a gradient `g`, the previous gradient `g'` and
the previous direction `d`. -/
def beta (formula : BetaFormula) (g g' d : Vec α) : Except Fault α := do
  let y ← g.sub g'
  let sq ← Vec.dot g g
  let previousSq ← Vec.dot g' g'
  match formula with
  | fletcherReeves => return ratio sq previousSq
  | polakRibiere =>
    let product ← Vec.dot g y
    return ratio product previousSq
  | polakRibierePlus =>
    let product ← Vec.dot g y
    return Scalar.larger 0 (ratio product previousSq)
  | hestenesStiefel =>
    let product ← Vec.dot g y
    let curvature ← Vec.dot d y
    return ratio product curvature
  | daiYuan =>
    let curvature ← Vec.dot d y
    return ratio sq curvature
  | fletcherReevesPolakRibiere =>
    let product ← Vec.dot g y
    return hybrid (ratio sq previousSq) (ratio product previousSq)
  | hagerZhang => hagerZhangBeta g d y previousSq

end BetaFormula

inductive RestartPolicy
  | never
  /-- A restart after as many directions as there are coordinates. -/
  | periodic
  /-- A restart when consecutive gradients are far from orthogonal. -/
  | orthogonality
  deriving DecidableEq, Repr

namespace RestartPolicy

def all : List (String × RestartPolicy) :=
  [("no_restart", never), ("n_step", periodic), ("gradients_orthogonality_check", orthogonality)]

def ofName (name : String) : Except Fault RestartPolicy :=
  Fault.named .restartMethod all name

def name : RestartPolicy → String
  | never => "no_restart"
  | periodic => "n_step"
  | orthogonality => "gradients_orthogonality_check"

@[simp] theorem ofName_name (policy : RestartPolicy) : ofName policy.name = .ok policy := by
  cases policy <;> rfl

variable {α : Type} [Scalar α]

/-- Gradients whose normalised product reaches this are not orthogonal. -/
def threshold : α := 0.1

/-- Whether the policy asks for a restart, `steps` directions after the last. -/
def asks (policy : RestartPolicy) (g g' : Vec α) (steps dimension : Int) : Except Fault Bool := do
  match policy with
  | never => return false
  | periodic => return decide (dimension ≤ steps)
  | orthogonality =>
    let sq ← Vec.dot g g
    if sq == 0 then return true
    let product ← Vec.dot g g'
    return decide (threshold ≤ Scalar.abs product / sq)

end RestartPolicy

structure Conjugate (α : Type) where
  formula : BetaFormula
  policy : RestartPolicy
  dimension : Nat
  /-- How many directions have followed the last restart. -/
  steps : Nat
  /-- Whether the last direction was a restart. -/
  restarted : Bool
  lastBeta : α

namespace Conjugate

variable {α : Type} [Scalar α]

def start (formula : BetaFormula) (policy : RestartPolicy) (dimension : Nat) : Conjugate α :=
  { formula, policy, dimension, steps := 0, restarted := false, lastBeta := 0 }

def reset (c : Conjugate α) : Conjugate α := start c.formula c.policy c.dimension

/-- Steepest descent. -/
def restart (c : Conjugate α) (g : Vec α) : Vec α × Conjugate α :=
  (g.neg, { c with steps := 0, restarted := true, lastBeta := 0 })

/-- The direction that continues the previous one, unless it fails to descend. -/
def continue? (c : Conjugate α) (g g' d : Vec α) : Except Fault (Option (Vec α × Conjugate α)) := do
  let beta ← c.formula.beta g g' d
  let direction ← g.neg.add (d.scale beta)
  if Scalar.isFinite beta then
    let slope ← Vec.dot g direction
    if slope < 0 then
      return some (direction, { c with steps := c.steps + 1, restarted := false, lastBeta := beta })
  return none

def next (c : Conjugate α) (g : Vec α) (previousGradient previousDirection : Option (Vec α)) :
    Except Fault (Vec α × Conjugate α) :=
  match previousGradient, previousDirection with
  | some g', some d => do
    if ← c.policy.asks g g' (c.steps + 1 : Nat) c.dimension then
      return c.restart g
    else
      match ← c.continue? g g' d with
      | some answer => return answer
      | none => return c.restart g
  | _, _ => return c.restart g

end Conjugate

end Downhill
