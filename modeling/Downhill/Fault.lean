import Downhill.Text.Quoted

/-!
# Faults

Why an operation of the library gives no answer.  Each cause is a constructor,
and `Fault.message` is the one place that words them.  Causes that arise inside
arithmetic on arrays carry no wording.
-/

namespace Downhill

/-- The closed families of names that settings are chosen from. -/
inductive NameFamily
  | conjugateMethod
  | coordinateMethod
  | restartMethod
  | firstTrial
  | schedule
  | stochasticMethod
  deriving DecidableEq, Repr

namespace NameFamily

def title : NameFamily → String
  | conjugateMethod => "ConjugateGradientMethod"
  | coordinateMethod => "CoordinateMethod"
  | restartMethod => "RestartMethod"
  | firstTrial => "StepSizeInitialization"
  | schedule => "StepSizeSchedule"
  | stochasticMethod => "StochasticMethod"

end NameFamily

/-- A setting or an argument outside its documented range. -/
inductive Invalid
  | emptyPoint
  | differenceStep
  | boundRank (bound : String)
  | boundEmpty (bound : String)
  | boundUndefined (bound : String)
  | boundSizes (lower upper : Nat)
  | boundOrder
  | boundDimension (bound : String) (size : Nat) (dimension : Int)
  | factorNotSquare
  | factorShape (rows columns size : Nat)
  | regressionFeatures
  | classificationFeatures
  | labels
  | exampleCount
  | batchSize
  | negative (field : String)
  | belowOne (field : String)
  | notPositive (field : String)
  | predicateNotCallable
  | decreaseConstant
  | curvatureConstant
  | armijoConstant
  | shrinkFactor
  | exactSearchObjective
  | unsupportedMethod (shown : String)
  | unsupportedConfiguration (kind : String)
  | notConjugateMethod (shown : String)
  | parameterCount (schedule : String) (expected given : Nat)
  | constantStep
  | scaledOffset
  | scaledExponent
  | inverseDecayRange
  | exponentialRange
  deriving DecidableEq, Repr

namespace Invalid

def message : Invalid → String
  | emptyPoint => "Points must contain at least one coordinate."
  | differenceStep => "eps must be positive"
  | boundRank bound => s!"{bound} must be a scalar or a one-dimensional sequence."
  | boundEmpty bound => s!"{bound} must not be empty."
  | boundUndefined bound => s!"{bound} must not contain NaN."
  | boundSizes lower upper =>
    s!"Lower bound size {lower} does not match upper bound size {upper}."
  | boundOrder => "Lower bound must not exceed upper bound."
  | boundDimension bound size dimension =>
    s!"{bound} has {size} entries but the problem has {dimension} coordinates."
  | factorNotSquare => "Quadratic factor matrix must be square."
  | factorShape rows columns size =>
    s!"Quadratic factor shape ({rows}, {columns}) does not match linear term size {size}."
  | regressionFeatures => "features must be (n_examples, dim) and match targets."
  | classificationFeatures => "features must be (n_examples, dim) and match labels."
  | labels => "labels must be 0 or 1."
  | exampleCount => "n_examples must be positive."
  | batchSize => "batch_size must be positive."
  | negative field => s!"{field} must be non-negative."
  | belowOne field => s!"{field} must be at least 1."
  | notPositive field => s!"{field} must be positive."
  | predicateNotCallable => "custom_convergence_predicate must be callable."
  | decreaseConstant => "c1 must lie in (0, 1)."
  | curvatureConstant => "c2 must lie in (c1, 1)."
  | armijoConstant => "Armijo constant c must lie in (0, 1)"
  | shrinkFactor => "rho must lie in (0, 1)"
  | exactSearchObjective => "Exact line search requires a QuadraticObjective."
  | unsupportedMethod shown => s!"Unsupported method {shown}."
  | unsupportedConfiguration kind => s!"Unsupported configuration type {kind}."
  | notConjugateMethod shown => s!"{shown} is not a conjugate gradient method."
  | parameterCount schedule expected given =>
    s!"Step size schedule {schedule} expects {expected} parameter(s), got {given}."
  | constantStep => "Constant step size must be positive."
  | scaledOffset => "SCALED schedule requires tau > 0."
  | scaledExponent => "SCALED schedule requires kappa >= 0."
  | inverseDecayRange => "INVERSE_DECAY schedule requires a > 0, b >= 0 and p >= 0."
  | exponentialRange => "EXPONENTIAL schedule requires a > 0 and 0 < gamma <= 1."

end Invalid

inductive Fault
  /-- The objective has no gradient or value at the point, in its own words. -/
  | nonSmooth (text : String)
  /-- Vectors or matrices whose sizes do not fit together. -/
  | shapeMismatch
  /-- A nested list whose rows differ in shape. -/
  | ragged
  /-- A nested list with more axes than the library handles. -/
  | tooDeep
  | indexOutOfRange
  /-- A linear system whose elimination meets a zero pivot. -/
  | singular
  /-- Eigenvalues that are not found within the limit of sweeps. -/
  | noConvergence
  /-- A random generator seeded with a negative number. -/
  | negativeSeed
  /-- More indices than a random generator can choose from. -/
  | tooManyIndices
  /-- More numbers than can be counted in bytes. -/
  | tooLarge
  /-- More numbers than there is room for. -/
  | outOfMemory
  | zeroDivision
  /-- A number, or a power of finite numbers, that is no finite double. -/
  | overflow
  /-- A power of a negative number that is no real number. -/
  | notReal
  /-- A schedule applied to a wrong number of parameters. -/
  | parameterCount
  /-- A sign asked for before there is a direction. -/
  | noDirection
  /-- A log format without any field. -/
  | logFormat
  /-- A log level by a name that stands for a text. -/
  | levelText
  /-- A log level that is neither a number nor a name for one. -/
  | levelKind
  /-- A name that is not in its family, as it is shown. -/
  | unknownName (family : NameFamily) (shown : String)
  | invalid (cause : Invalid)
  deriving DecidableEq, Repr

namespace Fault

def message : Fault → Option String
  | nonSmooth text => some text
  | unknownName family shown => some s!"{shown} is not a valid {family.title}"
  | invalid cause => some cause.message
  | _ => none

def orElse {β : Type} (fault : Fault) : Option β → Except Fault β
  | some b => .ok b
  | none => .error fault

@[simp] theorem orElse_eq_ok_iff {β : Type} {fault : Fault} {found : Option β} {b : β} :
    orElse fault found = .ok b ↔ found = some b := by
  cases found <;> simp [orElse]

def named {β : Type} (family : NameFamily) (all : List (String × β)) (name : String) :
    Except Fault β :=
  orElse (.unknownName family (Text.quote name)) (all.lookup name)

def refuse (test : Prop) [Decidable test] (cause : Invalid) : Except Fault Unit :=
  if test then .error (.invalid cause) else .ok ()

@[simp] theorem refuse_eq_ok_iff {test : Prop} [Decidable test] {cause : Invalid} {u : Unit} :
    refuse test cause = .ok u ↔ ¬test := by
  by_cases h : test
  · simp [refuse, h]
  · simp [refuse, h]

theorem bind_eq_ok_iff {β γ : Type} {first : Except Fault β} {next : β → Except Fault γ} {c : γ} :
    (first >>= next) = .ok c ↔ ∃ b, first = .ok b ∧ next b = .ok c := by
  cases first with
  | error fault => simp [bind, Except.bind]
  | ok b => simp [bind, Except.bind]

theorem bind_eq_error_iff {β γ : Type} {first : Except Fault β} {next : β → Except Fault γ}
    {fault : Fault} : (first >>= next) = .error fault ↔
      first = .error fault ∨ ∃ b, first = .ok b ∧ next b = .error fault := by
  cases first with
  | error fault' => simp [bind, Except.bind]
  | ok b => simp [bind, Except.bind]

theorem mapM_eq_ok {β γ : Type} {f : β → Except Fault γ} {g : β → γ} {parts : List β}
    (h : ∀ b ∈ parts, f b = .ok (g b)) : parts.mapM f = .ok (parts.map g) := by
  induction parts with
  | nil => rfl
  | cons b parts ih =>
    rw [List.mapM_cons, h b List.mem_cons_self, ih fun b' hb' => h b' (List.mem_cons_of_mem b hb')]
    rfl

end Fault

end Downhill
